import NullReturns.Proofs.Chain
import NullReturns.Symbol.Resolution

/-! # Which interfaces a type has

The breadth-first search leaves out ids that it met before. What it meets is closed under links all the
same, and nothing else is met. A type therefore has exactly the interfaces other than itself that bases
and declared interfaces lead to, over types of any kind and around cycles.
-/

namespace NullReturns

/-! ## What the search meets -/

section

variable {links : Nat → List Nat} {fresh queue : List Nat}

theorem mem_fresh_of_mem_explore {met : Nat} (member : met ∈ explore links fresh queue) : met ∈ fresh := by
  fun_induction explore links fresh queue with
  | case1 => exact absurd member List.not_mem_nil
  | case2 fresh id queue present ih =>
    rcases List.mem_cons.mp member with rfl | later
    · exact present
    · exact List.mem_of_mem_erase (ih later)
  | case3 fresh id queue absent ih => exact ih member

theorem mem_explore_of_mem_queue {id : Nat} (queued : id ∈ queue) (present : id ∈ fresh) :
    id ∈ explore links fresh queue := by
  fun_induction explore links fresh queue with
  | case1 => exact absurd queued List.not_mem_nil
  | case2 fresh first queue _ ih =>
    by_cases same : id = first
    · exact same ▸ List.mem_cons_self
    · have waiting : id ∈ queue := List.mem_of_ne_of_mem same queued
      exact List.mem_cons_of_mem _ (ih (List.mem_append_left _ waiting) ((List.mem_erase_of_ne same).mpr present))
  | case3 fresh first queue absent ih =>
    have other : id ≠ first := fun same => absent (same ▸ present)
    exact ih (List.mem_of_ne_of_mem other queued) present

/-- A link leads from what was met to what was met, or out of what was fresh at the start. -/
theorem explore_closed {met target : Nat} (member : met ∈ explore links fresh queue) (link : target ∈ links met)
    (present : target ∈ fresh) : target ∈ explore links fresh queue := by
  fun_induction explore links fresh queue with
  | case1 => exact absurd member List.not_mem_nil
  | case2 fresh first queue _ ih =>
    by_cases back : target = first
    · exact back ▸ List.mem_cons_self
    have left : target ∈ fresh.erase first := (List.mem_erase_of_ne back).mpr present
    apply List.mem_cons_of_mem
    rcases List.mem_cons.mp member with rfl | later
    · exact mem_explore_of_mem_queue (List.mem_append_right _ link) left
    · exact ih later left
  | case3 fresh first queue absent ih => exact ih member present

/-- What holds of the queue and is passed on along links holds of all that is met. -/
theorem forall_mem_explore {holds : Nat → Prop} (queued : ∀ id ∈ queue, holds id)
    (passed : ∀ id target, holds id → target ∈ links id → holds target) :
    ∀ met ∈ explore links fresh queue, holds met := by
  fun_induction explore links fresh queue with
  | case1 => exact fun met member => absurd member List.not_mem_nil
  | case2 fresh first queue _ ih =>
    have here : holds first := queued first List.mem_cons_self
    intro met member
    rcases List.mem_cons.mp member with rfl | later
    · exact here
    · refine ih ?_ met later
      intro id waiting
      rcases List.mem_append.mp waiting with old | new
      · exact queued id (List.mem_cons_of_mem _ old)
      · exact passed first id here new
  | case3 fresh first queue _ ih => exact ih fun id waiting => queued id (List.mem_cons_of_mem _ waiting)

end

/-! ## Interfaces -/

namespace Table

/-- The type has the other one as its base or declares it as an interface. -/
def LinksTo (table : Table) (id target : TypeId) : Prop := target ∈ table.links id

/-- Only types of the table have links. -/
theorem lt_of_linksTo {table : Table} {id target : TypeId} (link : table.LinksTo id target) :
    id < table.types.length := by
  cases known : table.type? id with
  | none => simp only [LinksTo, links, known, List.not_mem_nil] at link
  | some type => exact (List.getElem?_eq_some_iff.mp known).1

theorem lt_of_isInterface {table : Table} {id : TypeId} (interface : table.isInterface id = true) :
    id < table.types.length := by
  obtain ⟨type, known, _⟩ := (Option.any_eq_true _ _).mp interface
  exact (List.getElem?_eq_some_iff.mp known).1

/-- Leaving out the type itself cuts off nothing: whatever follows it is queued at the start. -/
theorem mem_allInterfaces {table : Table} {id interface : TypeId} :
    interface ∈ table.allInterfaces id ↔
      table.isInterface interface = true ∧ interface ≠ id ∧ Relation.TransGen table.LinksTo id interface := by
  simp only [allInterfaces, List.mem_filter]
  constructor
  · rintro ⟨met, kind⟩
    have other := (List.Nodup.mem_erase_iff List.nodup_range).mp (mem_fresh_of_mem_explore met)
    refine ⟨kind, other.1, ?_⟩
    refine forall_mem_explore ?_ ?_ interface met
    · exact fun first queued => .single queued
    · exact fun _ _ path link => path.tail link
  · rintro ⟨kind, other, path⟩
    have fresh {target : TypeId} (different : target ≠ id) (within : target < table.types.length) :
        target ∈ (List.range table.types.length).erase id :=
      (List.mem_erase_of_ne different).mpr (List.mem_range.mpr within)
    -- Along the path every type of the table is the first one again or was met.
    have met : ∀ {target}, Relation.TransGen table.LinksTo id target → target ≠ id → target < table.types.length →
        target ∈ explore table.links ((List.range table.types.length).erase id) (table.links id) := by
      intro target path
      induction path with
      | single link => exact fun different within => mem_explore_of_mem_queue link (fresh different within)
      | @tail between target _ link ih =>
        intro different within
        by_cases back : between = id
        · exact mem_explore_of_mem_queue (back ▸ link) (fresh different within)
        · exact explore_closed (ih back (lt_of_linksTo link)) link (fresh different within)
    exact ⟨met path other (lt_of_isInterface kind), kind⟩

end Table

end NullReturns
