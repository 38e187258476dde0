import Mathlib.Data.Fintype.Card
import NullReturns.Proofs.AddedAttributes

/-! # Fixing until nothing is reported

A marked method can make its callers reportable, so that one round of fixes may lead to another one, also
around cycles of methods that return each other's results. A method that was reported carries the marker
from then on and is never reported again. Each round with a report therefore uses up a method, and there
are no more such rounds than methods.
-/

namespace NullReturns.Table

/-- The methods that bodies are reported for. -/
def reported (table : Table) (bodies : List Body) : List MethodId :=
  (bodies.filterMap (Report.ofBody? table)).map (·.method)

/-- One round of fixes: every reported method gets the attribute. -/
def fixReported (bodies : List Body) (table : Table) : Table :=
  (table.reported bodies).dedup.foldl (fun table id => table.addAttribute id "CanBeNull") table

/-- The table after a number of rounds. -/
def afterRounds (table : Table) (bodies : List Body) : Nat → Table
  | 0 => table
  | rounds + 1 => (table.afterRounds bodies rounds).fixReported bodies

variable {table : Table} {bodies : List Body} {id : MethodId}

/-! ## One round -/

/-- What adding an attribute to some methods does to one of them. -/
def withAttribute (name : String) (ids : List MethodId) (id : MethodId) (method : Method) : Method :=
  if id ∈ ids then { method with attributes := method.attributes ++ [name] } else method

private theorem withAttribute_of_not_mem {name : String} {ids : List MethodId} (absent : id ∉ ids) :
    withAttribute name ids id = fun method => method :=
  funext fun _ => if_neg absent

private theorem method?_addAttribute (table : Table) (changed : MethodId) (name : String) (id : MethodId) :
    (table.addAttribute changed name).method? id = (table.method? id).map (withAttribute name [changed] id) := by
  rw [addAttribute, modifyMethod, method?, List.getElem?_modify, method?, Option.map_eq_map]
  congr 1
  funext method
  rw [withAttribute]
  simp only [List.mem_singleton, eq_comm]

private theorem method?_addAttributes {ids : List MethodId} (distinct : ids.Nodup) (table : Table) (name : String)
    (id : MethodId) :
    (ids.foldl (fun table id => table.addAttribute id name) table).method? id =
      (table.method? id).map (withAttribute name ids id) := by
  induction ids generalizing table with
  | nil => rw [List.foldl_nil, withAttribute_of_not_mem List.not_mem_nil, Option.map_id']
  | cons first rest ih =>
    obtain ⟨fresh, distinct⟩ := List.nodup_cons.mp distinct
    rw [List.foldl_cons, ih distinct, method?_addAttribute, Option.map_map]
    congr 1
    funext method
    by_cases same : id = first
    · subst same
      rw [withAttribute_of_not_mem fresh, Function.comp_apply, withAttribute, withAttribute,
        if_pos (List.mem_singleton_self id), if_pos List.mem_cons_self]
    · have alone : id ∉ [first] := fun member => same (List.mem_singleton.mp member)
      rw [withAttribute_of_not_mem alone, Function.comp_apply, withAttribute, withAttribute]
      simp only [List.mem_cons, same, false_or]

/-- A round adds the attribute to the reported methods, once to each, and changes no other method. -/
theorem method?_fixReported (table : Table) (bodies : List Body) (id : MethodId) :
    (table.fixReported bodies).method? id =
      (table.method? id).map (withAttribute "CanBeNull" (table.reported bodies) id) := by
  rw [fixReported, method?_addAttributes (List.nodup_dedup _)]
  congr 1
  funext method
  simp only [withAttribute, List.mem_dedup]

theorem mem_reported_iff :
    id ∈ table.reported bodies ↔ ∃ body ∈ bodies, ∃ report, Report.ofBody? table body = some report ∧
      report.method = id := by
  simp only [reported, List.mem_map, List.mem_filterMap]
  constructor
  · rintro ⟨report, ⟨body, listed, found⟩, method⟩
    exact ⟨body, listed, report, found, method⟩
  · rintro ⟨body, listed, report, found, method⟩
    exact ⟨report, ⟨body, listed, found⟩, method⟩

/-- Only methods of the table are reported, and none that counts as marked. -/
theorem known_of_mem_reported (member : id ∈ table.reported bodies) :
    (table.method? id).isSome ∧ table.isMarked id = false := by
  obtain ⟨body, _, report, found, rfl⟩ := mem_reported_iff.mp member
  obtain ⟨statement, _, made⟩ := List.exists_of_findSome?_eq_some found
  obtain ⟨_, _, _, null, unmarked⟩ := Report.subject?_eq_some_iff.mp (Report.ofStatement?_parts made).1
  exact ⟨Option.isSome_of_any null, unmarked⟩

private theorem hasMarker_eq_false (member : id ∈ table.reported bodies) : table.hasMarker id = false :=
  Bool.eq_false_iff.mpr fun marker =>
    Bool.eq_false_iff.mp (known_of_mem_reported member).2 (isMarked_of_marks (.inl marker))

private theorem hasMarker_fixReported (marker : id ∈ table.reported bodies ∨ table.hasMarker id = true) :
    (table.fixReported bodies).hasMarker id = true := by
  have known : (table.method? id).isSome :=
    marker.elim (fun member => (known_of_mem_reported member).1) Option.isSome_of_any
  obtain ⟨method, found⟩ := Option.isSome_iff_exists.mp known
  rw [hasMarker, method?_fixReported, found, Option.map_some, Option.any_some, withAttribute]
  split_ifs with member
  · rw [Method.hasMarker, List.any_append, Bool.or_eq_true]
    exact .inr (by decide)
  · have own := marker.resolve_left member
    rwa [hasMarker, found, Option.any_some] at own

/-! ## All rounds -/

/-- The marker that a round adds stays. -/
theorem hasMarker_afterRounds {i j : Nat} (later : i < j)
    (member : id ∈ (table.afterRounds bodies i).reported bodies) :
    (table.afterRounds bodies j).hasMarker id = true := by
  induction j with
  | zero => exact absurd later (Nat.not_lt_zero i)
  | succ j ih =>
    rcases Nat.lt_succ_iff_lt_or_eq.mp later with before | rfl
    · exact hasMarker_fixReported (.inr (ih before))
    · exact hasMarker_fixReported (.inl member)

private theorem not_mem_reported_again {i j : Nat} (later : i < j)
    (member : id ∈ (table.afterRounds bodies i).reported bodies) :
    id ∉ (table.afterRounds bodies j).reported bodies := by
  intro again
  have marker := hasMarker_afterRounds later member
  rw [hasMarker_eq_false again] at marker
  exact Bool.false_ne_true marker

private theorem lt_of_mem_reported {i : Nat} (member : id ∈ (table.afterRounds bodies i).reported bodies) :
    id < table.methods.length := by
  have kept : ∀ i, ((table.afterRounds bodies i).method? id).isSome = (table.method? id).isSome := by
    intro i
    induction i with
    | zero => rfl
    | succ i ih => rw [afterRounds, method?_fixReported, Option.isSome_map, ih]
  have known := (known_of_mem_reported member).1
  rw [kept] at known
  obtain ⟨method, found⟩ := Option.isSome_iff_exists.mp known
  exact (List.getElem?_eq_some_iff.mp found).1

/-- Some round has nothing to report. Otherwise each of the first rounds, one more than there are methods,
would report a method that no other round reports. -/
theorem exists_reported_eq_nil (table : Table) (bodies : List Body) :
    ∃ k ≤ table.methods.length, (table.afterRounds bodies k).reported bodies = [] := by
  by_contra busy
  have report (k : Fin (table.methods.length + 1)) : ∃ id, id ∈ (table.afterRounds bodies k).reported bodies :=
    List.exists_mem_of_ne_nil _ fun empty => busy ⟨k, Nat.le_of_lt_succ k.isLt, empty⟩
  choose first member using report
  have injective :
      Function.Injective fun k => (⟨first k, lt_of_mem_reported (member k)⟩ : Fin table.methods.length) := by
    intro i j same
    have same : first i = first j := congrArg Fin.val same
    rcases lt_trichotomy i j with before | equal | after
    · exact absurd (same ▸ member j) (not_mem_reported_again before (member i))
    · exact equal
    · exact absurd (same ▸ member i) (not_mem_reported_again after (member j))
  have bound := Fintype.card_le_of_injective _ injective
  rw [Fintype.card_fin, Fintype.card_fin] at bound
  exact absurd bound (Nat.not_succ_le_self _)

/-- Fixing what is reported and looking again comes to an end. Each round adds the attribute to the reported
methods, none of which carried the marker, and to no other method; no method is reported in two rounds; and
after at most as many rounds as there are methods no body is reported. -/
theorem afterRounds_settles (table : Table) (bodies : List Body) :
    (∀ round id method, (table.afterRounds bodies round).method? id = some method →
      if id ∈ (table.afterRounds bodies round).reported bodies then
        method.hasMarker = false ∧ (table.afterRounds bodies (round + 1)).method? id =
          some { method with attributes := method.attributes ++ ["CanBeNull"] }
      else (table.afterRounds bodies (round + 1)).method? id = some method) ∧
    (∀ round later, round < later → ∀ id ∈ (table.afterRounds bodies round).reported bodies,
      id ∉ (table.afterRounds bodies later).reported bodies) ∧
    ∃ k ≤ table.methods.length, ∀ body ∈ bodies, Report.ofBody? (table.afterRounds bodies k) body = none := by
  refine ⟨?_, fun round later order id => not_mem_reported_again order, ?_⟩
  · intro round id method known
    rw [afterRounds, method?_fixReported, known, Option.map_some, withAttribute]
    split_ifs with member
    · have unmarked := hasMarker_eq_false member
      rw [hasMarker, known, Option.any_some] at unmarked
      exact ⟨unmarked, rfl⟩
    · rfl
  · obtain ⟨k, bound, empty⟩ := table.exists_reported_eq_nil bodies
    refine ⟨k, bound, fun body listed => ?_⟩
    by_contra found
    obtain ⟨report, found⟩ := Option.ne_none_iff_exists'.mp found
    have member := mem_reported_iff.mpr ⟨body, listed, report, found, rfl⟩
    rw [empty] at member
    exact List.not_mem_nil member

/-- A method that returns null and one that returns its result. -/
def delegatedNull : List Body :=
  [Report.delegatingBody,
    .ofTree .method (some 1) (fun _ => none)
      (.node .block [.node .return [.node .literal [] (some .null) none none] none none none] none none none)]

/-- The first fix makes the calling method reportable, and the second one is the last. -/
theorem afterRounds_delegatedNull :
    (Report.delegation [] []).reported delegatedNull = [1] ∧
    ((Report.delegation [] []).afterRounds delegatedNull 1).reported delegatedNull = [0] ∧
    1 ∉ ((Report.delegation [] []).afterRounds delegatedNull 1).reported delegatedNull ∧
    ∃ k ≤ 2, ∀ body ∈ delegatedNull,
      Report.ofBody? ((Report.delegation [] []).afterRounds delegatedNull k) body = none := by
  have first : (Report.delegation [] []).reported delegatedNull = [1] := by cbv
  have second : ((Report.delegation [] []).afterRounds delegatedNull 1).reported delegatedNull = [0] := by cbv
  have settles := afterRounds_settles (Report.delegation [] []) delegatedNull
  refine ⟨first, second, settles.2.1 0 1 Nat.zero_lt_one 1 ?_, settles.2.2⟩
  rw [afterRounds, first]
  exact List.mem_singleton_self 1

end NullReturns.Table
