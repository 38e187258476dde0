import NullReturns.Sarif.Result
import Mathlib.Data.List.Nodup
import Mathlib.Data.String.Basic

/-! # Insertions by URI

Every URI has at most one group, the groups are in the order of their URIs, and none is empty. A group
has exactly the insertions that results propose for its URI, in the order in which they are proposed.
-/

namespace NullReturns.Sarif

/-- Insertions in groups, one group for each URI. -/
structure IsGrouping (groups : List (String × List Insertion)) (insertions : List (String × Insertion)) :
    Prop where
  sorted : groups.Pairwise fun left right => left.1 < right.1
  nonempty : ∀ {uri group}, (uri, group) ∈ groups → group ≠ []
  covers : ∀ {uri insertion}, (∃ group, (uri, group) ∈ groups ∧ insertion ∈ group) ↔ (uri, insertion) ∈ insertions

section

variable {uri other : String} {insertion : Insertion} {groups : List (String × List Insertion)}
  {insertions : List (String × Insertion)}

theorem mem_addToGroup_keys (member : other ∈ (addToGroup uri insertion groups).map (·.1)) :
    other = uri ∨ other ∈ groups.map (·.1) := by
  induction groups with
  | nil =>
    rw [addToGroup, List.map_singleton, List.mem_singleton] at member
    exact .inl member
  | cons first rest ih =>
    rw [addToGroup] at member
    split_ifs at member <;> grind

private theorem addToGroup_sorted (sorted : groups.Pairwise fun left right => left.1 < right.1) :
    (addToGroup uri insertion groups).Pairwise fun left right => left.1 < right.1 := by
  induction groups with
  | nil => exact List.pairwise_singleton _ _
  | cons first rest ih =>
    obtain ⟨key, group⟩ := first
    obtain ⟨least, rest_sorted⟩ := List.pairwise_cons.mp sorted
    rw [addToGroup]
    split_ifs with before same
    · refine List.pairwise_cons.mpr ⟨?_, sorted⟩
      intro entry member
      rcases List.mem_cons.mp member with rfl | member
      · exact before
      · exact lt_trans before (least entry member)
    · exact List.pairwise_cons.mpr ⟨least, rest_sorted⟩
    · refine List.pairwise_cons.mpr ⟨?_, ih rest_sorted⟩
      intro entry member
      have behind : key < uri := lt_of_le_of_ne (le_of_not_gt before) (Ne.symm same)
      rcases mem_addToGroup_keys (List.mem_map_of_mem member) with found | found
      · exact found ▸ behind
      · obtain ⟨older, listed, found⟩ := List.mem_map.mp found
        exact found ▸ least older listed

private theorem addToGroup_nonempty (nonempty : ∀ {uri group}, (uri, group) ∈ groups → group ≠ [])
    {group : List Insertion} (member : (other, group) ∈ addToGroup uri insertion groups) : group ≠ [] := by
  have joined (old : List Insertion) : old ++ [insertion] ≠ [] := List.concat_ne_nil insertion old
  induction groups with
  | nil =>
    rw [addToGroup, List.mem_singleton, Prod.mk.injEq] at member
    exact member.2 ▸ List.cons_ne_nil insertion []
  | cons first rest ih =>
    have later := ih fun listed => nonempty (List.mem_cons_of_mem first listed)
    rw [addToGroup] at member
    split_ifs at member <;> rcases List.mem_cons.mp member with same | listed
    · exact (Prod.mk.inj same).2 ▸ List.cons_ne_nil insertion []
    · exact nonempty listed
    · exact (Prod.mk.inj same).2 ▸ joined first.2
    · exact nonempty (List.mem_cons_of_mem first listed)
    · exact nonempty (List.mem_cons.mpr (.inl same))
    · exact later listed

/-- Adding an insertion covers it and nothing else that was not covered before. -/
theorem addToGroup_covers {added : Insertion} :
    (∃ group, (other, group) ∈ addToGroup uri added groups ∧ insertion ∈ group) ↔
      (∃ group, (other, group) ∈ groups ∧ insertion ∈ group) ∨ (other = uri ∧ insertion = added) := by
  induction groups with
  | nil => simp [addToGroup]
  | cons first rest ih =>
    rw [addToGroup]
    split_ifs <;> grind

namespace IsGrouping

private theorem add (grouping : IsGrouping groups insertions) :
    IsGrouping (addToGroup uri insertion groups) (insertions ++ [(uri, insertion)]) where
  sorted := addToGroup_sorted grouping.sorted
  nonempty := addToGroup_nonempty grouping.nonempty
  covers := by
    intro other member
    rw [addToGroup_covers, grouping.covers, List.mem_append, List.mem_singleton, Prod.mk.injEq]

private theorem addAll (grouping : IsGrouping groups insertions) (more : List (String × Insertion)) :
    IsGrouping (more.foldl (fun groups (uri, insertion) => addToGroup uri insertion groups) groups)
      (insertions ++ more) := by
  induction more generalizing groups insertions with
  | nil => rwa [List.append_nil]
  | cons first rest ih =>
    rw [List.foldl_cons, List.append_cons insertions first rest]
    exact ih grouping.add

theorem nodup (grouping : IsGrouping groups insertions) : (groups.map (·.1)).Nodup :=
  List.pairwise_map.mpr (grouping.sorted.imp ne_of_lt)

/-- A URI has one group. -/
theorem unique (grouping : IsGrouping groups insertions) {first second : List Insertion}
    (here : (uri, first) ∈ groups) (there : (uri, second) ∈ groups) : first = second :=
  (Prod.mk.inj (List.inj_on_of_nodup_map grouping.nodup here there rfl)).2

theorem mem_group (grouping : IsGrouping groups insertions) {group : List Insertion}
    (member : (uri, group) ∈ groups) : insertion ∈ group ↔ (uri, insertion) ∈ insertions := by
  rw [← grouping.covers]
  constructor
  · intro listed
    exact ⟨group, member, listed⟩
  · rintro ⟨other, there, listed⟩
    exact grouping.unique member there ▸ listed

end IsGrouping

end

theorem isGrouping_insertionsByUri (results : List Result) :
    IsGrouping (insertionsByUri results) (results.flatMap (·.insertions)) := by
  have empty : IsGrouping [] [] :=
    { sorted := .nil
      nonempty := fun member => absurd member List.not_mem_nil
      covers := by simp }
  exact empty.addAll _

/-! ## The order within a group -/

/-- The insertions for a URI, in the order in which they are given. -/
def forUri (insertions : List (String × Insertion)) (uri : String) : List Insertion :=
  (insertions.filter (·.1 == uri)).map (·.2)

section

variable {uri other : String} {insertion : Insertion} {group : List Insertion} {groups : List (String × List Insertion)}
  {insertions : List (String × Insertion)}

theorem mem_forUri : insertion ∈ forUri insertions uri ↔ (uri, insertion) ∈ insertions := by
  simp only [forUri, List.mem_map, List.mem_filter, beq_iff_eq, Prod.exists]
  constructor
  · rintro ⟨_, _, ⟨listed, rfl⟩, rfl⟩
    exact listed
  · intro listed
    exact ⟨uri, insertion, ⟨listed, rfl⟩, rfl⟩

private theorem forUri_concat_self :
    forUri (insertions ++ [(uri, insertion)]) uri = forUri insertions uri ++ [insertion] := by
  simp [forUri]

private theorem forUri_concat_of_ne (different : other ≠ uri) :
    forUri (insertions ++ [(uri, insertion)]) other = forUri insertions other := by
  simp [forUri, different.symm]

/-- Adding an insertion leaves the groups of other URIs as they are and puts it at the end of its own. -/
theorem mem_addToGroup_cases (sorted : groups.Pairwise fun left right => left.1 < right.1)
    (member : (other, group) ∈ addToGroup uri insertion groups) :
    other ≠ uri ∧ (other, group) ∈ groups ∨ other = uri ∧ ∃ old, group = old ++ [insertion] ∧
      ((uri, old) ∈ groups ∨ old = [] ∧ ∀ entry ∈ groups, entry.1 ≠ uri) := by
  induction groups with
  | nil =>
    obtain ⟨rfl, rfl⟩ := Prod.mk.inj (List.mem_singleton.mp member)
    exact .inr ⟨rfl, [], rfl, .inr ⟨rfl, fun _ listed => absurd listed List.not_mem_nil⟩⟩
  | cons first rest ih =>
    obtain ⟨key, held⟩ := first
    obtain ⟨least, rest_sorted⟩ := List.pairwise_cons.mp sorted
    rw [addToGroup] at member
    split_ifs at member with before same
    · have later (entry : String × List Insertion) (listed : entry ∈ (key, held) :: rest) : uri < entry.1 := by
        rcases List.mem_cons.mp listed with rfl | behind
        · exact before
        · exact lt_trans before (least entry behind)
      rcases List.mem_cons.mp member with new | listed
      · obtain ⟨rfl, rfl⟩ := Prod.mk.inj new
        exact .inr ⟨rfl, [], rfl, .inr ⟨rfl, fun entry listed => ne_of_gt (later entry listed)⟩⟩
      · exact .inl ⟨ne_of_gt (later _ listed), listed⟩
    · subst same
      rcases List.mem_cons.mp member with new | listed
      · obtain ⟨rfl, rfl⟩ := Prod.mk.inj new
        exact .inr ⟨rfl, held, rfl, .inl List.mem_cons_self⟩
      · exact .inl ⟨ne_of_gt (least _ listed), List.mem_cons_of_mem _ listed⟩
    · rcases List.mem_cons.mp member with kept | listed
      · obtain ⟨rfl, rfl⟩ := Prod.mk.inj kept
        exact .inl ⟨Ne.symm same, List.mem_cons_self⟩
      · rcases ih rest_sorted listed with ⟨different, found⟩ | ⟨own, old, joined, found | ⟨empty, absent⟩⟩
        · exact .inl ⟨different, List.mem_cons_of_mem _ found⟩
        · exact .inr ⟨own, old, joined, .inl (List.mem_cons_of_mem _ found)⟩
        · exact .inr ⟨own, old, joined, .inr ⟨empty, List.forall_mem_cons.mpr ⟨Ne.symm same, absent⟩⟩⟩

namespace IsGrouping

private theorem forUri_eq_nil (grouping : IsGrouping groups insertions) (absent : ∀ entry ∈ groups, entry.1 ≠ uri) :
    forUri insertions uri = [] := by
  refine List.eq_nil_iff_forall_not_mem.mpr fun insertion listed => ?_
  obtain ⟨group, member, _⟩ := grouping.covers.mpr (mem_forUri.mp listed)
  exact absent _ member rfl

private theorem eq_forUri_add (grouping : IsGrouping groups insertions)
    (ordered : ∀ entry ∈ groups, entry.2 = forUri insertions entry.1) :
    ∀ entry ∈ addToGroup uri insertion groups, entry.2 = forUri (insertions ++ [(uri, insertion)]) entry.1 := by
  rintro ⟨other, group⟩ member
  rcases mem_addToGroup_cases grouping.sorted member with ⟨different, found⟩ | ⟨rfl, old, rfl, found | ⟨rfl, absent⟩⟩
  · rw [forUri_concat_of_ne different]
    exact ordered _ found
  · rw [forUri_concat_self, ← ordered _ found]
  · rw [forUri_concat_self, grouping.forUri_eq_nil absent]

private theorem eq_forUri_addAll (grouping : IsGrouping groups insertions)
    (ordered : ∀ entry ∈ groups, entry.2 = forUri insertions entry.1) (more : List (String × Insertion)) :
    ∀ entry ∈ more.foldl (fun groups (uri, insertion) => addToGroup uri insertion groups) groups,
      entry.2 = forUri (insertions ++ more) entry.1 := by
  induction more generalizing groups insertions with
  | nil => rwa [List.append_nil]
  | cons first rest ih =>
    rw [List.foldl_cons, List.append_cons insertions first rest]
    exact ih grouping.add (grouping.eq_forUri_add ordered)

end IsGrouping

/-- The groups are those of the URIs that insertions are proposed for. -/
theorem mem_insertionsByUri {results : List Result} : (uri, group) ∈ insertionsByUri results ↔
    group ≠ [] ∧ group = forUri (results.flatMap (·.insertions)) uri := by
  have grouping := isGrouping_insertionsByUri results
  have empty : IsGrouping [] [] := isGrouping_insertionsByUri []
  have ordered : ∀ entry ∈ insertionsByUri results, entry.2 = forUri (results.flatMap (·.insertions)) entry.1 :=
    empty.eq_forUri_addAll (fun _ listed => absurd listed List.not_mem_nil) _
  constructor
  · intro member
    exact ⟨grouping.nonempty member, ordered _ member⟩
  · rintro ⟨nonempty, rfl⟩
    obtain ⟨insertion, listed⟩ := List.exists_mem_of_ne_nil _ nonempty
    obtain ⟨group, member, _⟩ := grouping.covers.mpr (mem_forUri.mp listed)
    have same : group = forUri (results.flatMap (·.insertions)) uri := ordered _ member
    rwa [same] at member

end

end NullReturns.Sarif
