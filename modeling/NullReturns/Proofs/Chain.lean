import Mathlib.Logic.Relation
import NullReturns.Symbol.Resolution

/-! # What a chain of links meets

A chain is cut where an id comes up again. Since nothing new can follow there, the cut hides nothing:
the chain is closed under links, and so it meets every id that any number of links leads to. A search along
the chain has the answer that the fewest links lead to.
-/

namespace NullReturns

variable {next : Nat → Option Nat} {fresh : List Nat} {id : Nat}

/-- One link. -/
def Links (next : Nat → Option Nat) (id target : Nat) : Prop := next id = some target

theorem mem_fresh_of_mem_follow {met : Nat} (member : met ∈ follow next fresh id) : met ∈ fresh := by
  fun_induction follow next fresh id with
  | case1 fresh id present ih =>
    rcases List.mem_cons.mp member with rfl | later
    · exact present
    · cases link : next id with
      | none => simp only [link, List.not_mem_nil] at later
      | some target =>
        rw [link] at later
        exact List.mem_of_mem_erase (ih target later)
  | case2 => exact absurd member List.not_mem_nil

theorem mem_follow_self (present : id ∈ fresh) : id ∈ follow next fresh id := by
  rw [follow, if_pos present]
  exact List.mem_cons_self

/-- No id comes up twice. -/
theorem nodup_follow (distinct : fresh.Nodup) : (follow next fresh id).Nodup := by
  fun_induction follow next fresh id with
  | case1 fresh id present ih =>
    cases link : next id with
    | none => simp only [List.nodup_cons, List.not_mem_nil, not_false_eq_true, List.nodup_nil, and_self]
    | some target =>
      refine List.nodup_cons.mpr ⟨?_, ih target (distinct.erase id)⟩
      intro again
      exact ((List.Nodup.mem_erase_iff distinct).mp (mem_fresh_of_mem_follow again)).1 rfl
  | case2 => exact List.nodup_nil

private theorem reachable_of_mem_follow {met : Nat} (member : met ∈ follow next fresh id) :
    Relation.ReflTransGen (Links next) id met := by
  fun_induction follow next fresh id with
  | case1 fresh id present ih =>
    rcases List.mem_cons.mp member with rfl | later
    · exact .refl
    · cases link : next id with
      | none => simp only [link, List.not_mem_nil] at later
      | some target =>
        rw [link] at later
        exact .head link (ih target later)
  | case2 => exact absurd member List.not_mem_nil

/-- A link leads from the chain into the chain, or out of what was fresh at its start. -/
theorem follow_closed {met target : Nat} (member : met ∈ follow next fresh id) (step : next met = some target)
    (present : target ∈ fresh) : target ∈ follow next fresh id := by
  fun_induction follow next fresh id with
  | case1 fresh id _ ih =>
    by_cases back : target = id
    · exact back ▸ List.mem_cons_self
    have left : target ∈ fresh.erase id := (List.mem_erase_of_ne back).mpr present
    apply List.mem_cons_of_mem
    rcases List.mem_cons.mp member with rfl | later
    · rw [step]
      exact mem_follow_self left
    · cases link : next id with
      | none => simp only [link, List.not_mem_nil] at later
      | some after =>
        rw [link] at later
        exact ih after later left
  | case2 => exact absurd member List.not_mem_nil

/-- A chain that starts with everything fresh meets exactly the ids in range that links lead to, where
ids out of range have no links. -/
theorem mem_follow_iff {bound met : Nat} (inside : ∀ {id target}, next id = some target → id < bound) :
    met ∈ follow next (List.range bound) id ↔ Relation.ReflTransGen (Links next) id met ∧ met < bound := by
  constructor
  · intro member
    exact ⟨reachable_of_mem_follow member, List.mem_range.mp (mem_fresh_of_mem_follow member)⟩
  · rintro ⟨path, within⟩
    induction path with
    | refl => exact mem_follow_self (List.mem_range.mpr within)
    | tail _ step ih => exact follow_closed (ih (inside step)) step (List.mem_range.mpr within)

/-! ## Counting links -/

/-- The id that so many links lead to. -/
def linkedAfter (next : Nat → Option Nat) : Nat → Nat → Option Nat
  | 0, id => some id
  | count + 1, id => (next id).bind (linkedAfter next count)

private theorem reachable_of_linkedAfter {count target : Nat} (led : linkedAfter next count id = some target) :
    Relation.ReflTransGen (Links next) id target := by
  induction count generalizing id with
  | zero =>
    obtain rfl := Option.some.inj led
    exact .refl
  | succ count ih =>
    obtain ⟨between, link, further⟩ := Option.bind_eq_some_iff.mp led
    exact .head link (ih further)

/-- The chain lists the ids in the order of the numbers of links that lead to them. -/
theorem linkedAfter_of_getElem?_follow {count met : Nat} (listed : (follow next fresh id)[count]? = some met) :
    linkedAfter next count id = some met := by
  fun_induction follow next fresh id generalizing count with
  | case1 fresh id _ ih =>
    cases count with
    | zero => exact listed
    | succ count =>
      rw [List.getElem?_cons_succ] at listed
      cases link : next id with
      | none => simp only [link, List.getElem?_nil, reduceCtorEq] at listed
      | some target =>
        rw [link] at listed
        rw [linkedAfter, link, Option.bind_some]
        exact ih target listed
  | case2 => simp only [List.getElem?_nil, reduceCtorEq] at listed

section

variable {α : Type} {ask : Nat → Option α} {bound : Nat} {answer : α}

/-- The id has an answer and is reached by the fewest links among the ids that have one. -/
structure AnswersFirst (next : Nat → Option Nat) (ask : Nat → Option α) (id count target : Nat) (answer : α) :
    Prop where
  reached : linkedAfter next count id = some target
  answers : ask target = some answer
  silent : ∀ fewer < count, ∀ other, linkedAfter next fewer id = some other → ask other = none

theorem AnswersFirst.unique {count count' target target' : Nat} {answer' : α}
    (first : AnswersFirst next ask id count target answer)
    (first' : AnswersFirst next ask id count' target' answer') : answer = answer' := by
  rcases Nat.lt_trichotomy count count' with less | rfl | more
  · have silent := first'.silent count less target first.reached
    exact absurd (silent.symm.trans first.answers) (Option.some_ne_none answer).symm
  · obtain rfl := Option.some.inj (first.reached.symm.trans first'.reached)
    exact Option.some.inj (first.answers.symm.trans first'.answers)
  · have silent := first.silent count' more target' first'.reached
    exact absurd (silent.symm.trans first'.answers) (Option.some_ne_none answer').symm

/-- The first answer along a chain is that of the id which the fewest links lead to. -/
theorem answersFirst_of_findSome?_follow (found : (follow next fresh id).findSome? ask = some answer) :
    ∃ count target, AnswersFirst next ask id count target answer := by
  obtain ⟨before, target, after, parts, answers, earlier⟩ := List.findSome?_eq_some_iff.mp found
  refine ⟨before.length, target, ?_, answers, ?_⟩
  · apply linkedAfter_of_getElem?_follow
    rw [parts, List.getElem?_append_right (Nat.le_refl _), Nat.sub_self, List.getElem?_cons_zero]
  · intro fewer less other led
    have listed : (follow next fresh id)[fewer]? = some before[fewer] := by
      rw [parts, List.getElem?_append_left less, List.getElem?_eq_getElem less]
    obtain rfl := Option.some.inj (led.symm.trans (linkedAfter_of_getElem?_follow listed))
    exact earlier _ (List.getElem_mem less)

variable (inside : ∀ {id target}, next id = some target → id < bound)
  (known : ∀ {id answer}, ask id = some answer → id < bound)

include inside known

/-- No answer is found along a chain where nothing that links lead to has one. -/
theorem findSome?_follow_eq_none_iff :
    (follow next (List.range bound) id).findSome? ask = none ↔
      ∀ target, Relation.ReflTransGen (Links next) id target → ask target = none := by
  rw [List.findSome?_eq_none_iff]
  constructor
  · intro silent target path
    cases found : ask target with
    | none => rfl
    | some answer =>
      rw [← found]
      exact silent target ((mem_follow_iff inside).mpr ⟨path, known found⟩)
  · intro silent target member
    exact silent target (reachable_of_mem_follow member)

theorem findSome?_follow_eq_some_iff :
    (follow next (List.range bound) id).findSome? ask = some answer ↔
      ∃ count target, AnswersFirst next ask id count target answer := by
  constructor
  · exact answersFirst_of_findSome?_follow
  · rintro ⟨count, target, first⟩
    -- The chain ends before so many links only where it has met the target earlier on a cycle.
    cases found : (follow next (List.range bound) id).findSome? ask with
    | none =>
      have silent := (findSome?_follow_eq_none_iff inside known).mp found target
        (reachable_of_linkedAfter first.reached)
      exact absurd (silent.symm.trans first.answers) (Option.some_ne_none answer).symm
    | some other =>
      obtain ⟨_, _, first'⟩ := answersFirst_of_findSome?_follow found
      rw [first.unique first']

end

end NullReturns
