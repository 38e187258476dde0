import NullReturns.Proofs.FixedCopies
import NullReturns.Proofs.Merging

/-! # Fixed copies for any results

Results need not come from an analysis. Whatever they propose, a source is copied if insertions are listed
for its URI, its text is known and it has a file name. Either all copies are written, each to a file of its
own, or two of them have the same file name and nothing is written at all. The order of the results has no
part in this.
-/

namespace NullReturns

/-! ## Groups of reordered results -/

namespace Sarif

variable {results others : List Result}

private theorem forUri_perm {insertions more : List (String × Insertion)} (reordered : more.Perm insertions)
    (uri : String) :
    (forUri more uri).Perm (forUri insertions uri) :=
  (reordered.filter _).map _

/-- The groups are told by their URIs and by all insertions. -/
theorem insertionsByUri_eq (results : List Result) : insertionsByUri results =
    ((insertionsByUri results).map (·.1)).map fun uri => (uri, forUri (results.flatMap (·.insertions)) uri) := by
  rw [List.map_map]
  refine (List.map_id _).symm.trans (List.map_congr_left ?_)
  rintro ⟨uri, group⟩ member
  obtain ⟨_, rfl⟩ := mem_insertionsByUri.mp member
  rfl

theorem mem_uris {uri : String} : uri ∈ (insertionsByUri results).map (·.1) ↔
    forUri (results.flatMap (·.insertions)) uri ≠ [] := by
  constructor
  · intro listed
    obtain ⟨⟨_, group⟩, member, rfl⟩ := List.mem_map.mp listed
    obtain ⟨nonempty, rfl⟩ := mem_insertionsByUri.mp member
    exact nonempty
  · intro nonempty
    exact List.mem_map.mpr ⟨_, mem_insertionsByUri.mpr ⟨nonempty, rfl⟩, rfl⟩

private theorem uris_perm (reordered : others.Perm results) :
    (insertionsByUri others).map (·.1) = (insertionsByUri results).map (·.1) := by
  have sorted (results : List Result) : ((insertionsByUri results).map (·.1)).Pairwise (· < ·) :=
    List.pairwise_map.mpr (isGrouping_insertionsByUri results).sorted
  refine List.Perm.eq_of_pairwise (fun _ _ _ _ less greater => absurd greater (lt_asymm less)) (sorted others)
    (sorted results) ?_
  refine (List.perm_ext_iff_of_nodup (isGrouping_insertionsByUri others).nodup
    (isGrouping_insertionsByUri results).nodup).mpr fun uri => ?_
  have same := forUri_perm (reordered.flatMap_right (·.insertions)) uri
  rw [mem_uris, mem_uris, not_iff_not]
  constructor
  · intro empty
    exact (empty ▸ same).nil_eq.symm
  · intro empty
    exact (empty ▸ same).eq_nil

end Sarif

/-! ## Eligible sources -/

namespace FixedSource

variable {source : String → Option String} {results others : List Sarif.Result} {uri : String}

/-- Insertions are listed for the URI, its text is known, and it has a file name. -/
structure IsEligible (source : String → Option String) (results : List Sarif.Result) (uri : String) : Prop where
  listed : ∃ group, (uri, group) ∈ Sarif.insertionsByUri results
  known : ∃ text, source uri = some text
  named : ∃ name, (Files.Path.ofString uri).fileName? = some name

/-- Two eligible sources would be copied to the same file. -/
structure Clash (source : String → Option String) (results : List Sarif.Result) (first second : String) : Prop where
  apart : first ≠ second
  named : (Files.Path.ofString first).fileName? = (Files.Path.ofString second).fileName?
  first : IsEligible source results first
  second : IsEligible source results second

/-- The copy has the text of the source under a URI with all insertions that are listed for it. -/
def IsCopyOf (source : String → Option String) (results : List Sarif.Result) (uri : String) (copy : FixedSource) :
    Prop :=
  ∃ text group name, source uri = some text ∧ (uri, group) ∈ Sarif.insertionsByUri results ∧
    (Files.Path.ofString uri).fileName? = some name ∧ copy = ⟨uri, name, Insertion.applyAll text group⟩

theorem mem_candidates_iff {copy : FixedSource} :
    copy ∈ candidates source results ↔ IsCopyOf source results copy.uri copy := by
  simp only [candidates, List.mem_filterMap, ofInsertions?_eq_some_iff, IsCopyOf]
  constructor
  · rintro ⟨⟨_, group⟩, member, text, known, name, named, rfl⟩
    exact ⟨text, group, name, known, member, named, rfl⟩
  · rintro ⟨text, group, name, known, member, named, same⟩
    exact ⟨(copy.uri, group), member, text, known, name, named, same⟩

theorem isEligible_iff : IsEligible source results uri ↔ ∃ copy ∈ candidates source results, copy.uri = uri := by
  constructor
  · rintro ⟨⟨group, member⟩, ⟨text, known⟩, ⟨name, named⟩⟩
    exact ⟨⟨uri, name, _⟩, mem_candidates_iff.mpr ⟨text, group, name, known, member, named, rfl⟩, rfl⟩
  · rintro ⟨copy, member, rfl⟩
    obtain ⟨text, group, name, known, listed, named, _⟩ := mem_candidates_iff.mp member
    exact ⟨⟨group, listed⟩, ⟨text, known⟩, ⟨name, named⟩⟩

private theorem fileName?_eq {copy : FixedSource} (member : copy ∈ candidates source results) :
    (Files.Path.ofString copy.uri).fileName? = some copy.fileName := by
  obtain ⟨_, _, _, _, _, named, same⟩ := mem_candidates_iff.mp member
  rw [named, same]

/-- Candidates with one file name clash. -/
theorem clash_of_mem {first second : FixedSource} (here : first ∈ candidates source results)
    (there : second ∈ candidates source results) (apart : first.uri ≠ second.uri)
    (same : first.fileName = second.fileName) : Clash source results first.uri second.uri where
  apart := apart
  named := by rw [fileName?_eq here, fileName?_eq there, same]
  first := isEligible_iff.mpr ⟨first, here, rfl⟩
  second := isEligible_iff.mpr ⟨second, there, rfl⟩

theorem nodup_fileNames_iff : ((candidates source results).map (·.fileName)).Nodup ↔
    ¬ ∃ first second, Clash source results first second := by
  constructor
  · rintro distinct ⟨_, _, apart, named, first, second⟩
    obtain ⟨copy, here, rfl⟩ := isEligible_iff.mp first
    obtain ⟨copy', there, rfl⟩ := isEligible_iff.mp second
    rw [fileName?_eq here, fileName?_eq there, Option.some.injEq] at named
    exact apart (congrArg (·.uri) (List.inj_on_of_nodup_map distinct here there named))
  · intro unique
    refine List.pairwise_map.mpr ((candidates_pairwise source results).imp_of_mem ?_)
    intro left right here there apart same
    exact unique ⟨_, _, clash_of_mem here there apart same⟩

/-- A collision that is found is one between two copies. -/
theorem firstCollision?_eq_some {seen copies : List FixedSource} {collision : Collision}
    (found : firstCollision? seen copies = some collision)
    (apart : (seen ++ copies).Pairwise fun left right => left.uri ≠ right.uri) :
    ∃ first ∈ seen ++ copies, ∃ second ∈ seen ++ copies, first.uri ≠ second.uri ∧
      first.fileName = second.fileName ∧ collision = ⟨first.uri, second.uri, first.fileName⟩ := by
  induction copies generalizing seen with
  | nil => simp only [firstCollision?, reduceCtorEq] at found
  | cons copy rest ih =>
    rw [firstCollision?] at found
    cases earlier : seen.find? (·.fileName == copy.fileName) with
    | some first =>
      have listed := List.mem_of_find?_eq_some earlier
      have same : first.fileName = copy.fileName := by simpa using List.find?_some earlier
      rw [earlier, ← same] at found
      refine ⟨first, List.mem_append_left _ listed, copy, List.mem_append_right _ List.mem_cons_self, ?_, same,
        (Option.some.inj found).symm⟩
      exact (List.pairwise_append.mp apart).2.2 first listed copy List.mem_cons_self
    | none =>
      rw [earlier] at found
      have moved : (seen ++ copy :: rest).Perm (copy :: seen ++ rest) := List.perm_middle
      obtain ⟨first, here, second, there, collided⟩ :=
        ih found ((moved.pairwise_iff fun differ => Ne.symm differ).mp apart)
      exact ⟨first, moved.mem_iff.mpr here, second, moved.mem_iff.mpr there, collided⟩

/-- The plan fails with a clash, or has all copies of eligible sources. -/
theorem plan_cases (source : String → Option String) (results : List Sarif.Result) :
    (∃ collision, plan source results = .error collision ∧ Clash source results collision.first collision.second ∧
      (Files.Path.ofString collision.first).fileName? = some collision.fileName) ∨
    ((¬ ∃ first second, Clash source results first second) ∧
      ∃ copies, plan source results = .ok copies ∧ copies.Perm (candidates source results)) := by
  rw [plan]
  cases found : firstCollision? [] (candidates source results) with
  | some collision =>
    obtain ⟨first, here, second, there, apart, same, rfl⟩ :=
      firstCollision?_eq_some found (candidates_pairwise source results)
    exact .inl ⟨_, rfl, clash_of_mem here there apart same, fileName?_eq here⟩
  | none =>
    have distinct := (firstCollision?_eq_none_iff.mp found).1
    exact .inr ⟨nodup_fileNames_iff.mp distinct, _, rfl, List.mergeSort_perm _ _⟩

private theorem candidates_eq (source : String → Option String) (results : List Sarif.Result) :
    candidates source results = ((Sarif.insertionsByUri results).map (·.1)).filterMap fun uri =>
      ofInsertions? source uri (Sarif.forUri (results.flatMap (·.insertions)) uri) := by
  conv_lhs => rw [candidates, Sarif.insertionsByUri_eq, List.filterMap_map]
  rfl

private theorem candidates_perm (reordered : others.Perm results) :
    candidates source others = candidates source results := by
  rw [candidates_eq, candidates_eq, Sarif.uris_perm reordered]
  refine List.filterMap_congr fun uri _ => ?_
  have same := Sarif.forUri_perm (reordered.flatMap_right (·.insertions)) uri
  simp only [ofInsertions?, Insertion.applyAll_perm _ same]

theorem nodup_paths (directory : String) (unique : ¬ ∃ first second, Clash source results first second) :
    ((candidates source results).map fun copy => Files.join directory copy.fileName).Nodup := by
  refine Files.nodup_map_join ?_ (nodup_fileNames_iff.mpr unique) directory
  intro copy member
  exact Files.Path.not_mem_fileName? (fileName?_eq member)

end FixedSource

/-! ## Writing -/

open FixedSource (IsEligible Clash IsCopyOf)

end NullReturns
