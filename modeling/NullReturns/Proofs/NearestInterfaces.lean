import NullReturns.Proofs.StrictLookups

/-! # Nearest interfaces first

The queue of the search is a wave: it holds ids that some number of links leads to, and behind them ids
that one link more leads to. What is taken from it comes up in the order of these numbers, and no fewer
links lead to an id than those it was first met by. The interfaces of a type are therefore in the order of
the shortest paths to them.
-/

namespace NullReturns

/-! ## Depths of what the search meets -/

/-- The search with the number of links that led to each id. -/
def exploreDeep (links : Nat → List Nat) (fresh : List Nat) : List (Nat × Nat) → List (Nat × Nat)
  | [] => []
  | (id, depth) :: queue =>
    if id ∈ fresh then
      (id, depth) :: exploreDeep links (fresh.erase id) (queue ++ (links id).map fun target => (target, depth + 1))
    else exploreDeep links fresh queue
termination_by queue => (fresh.length, queue.length)
decreasing_by
  · rename_i member
    have : 0 < fresh.length := List.length_pos_of_mem member
    simp only [List.length_erase_of_mem member, Prod.lex_def]
    omega
  · simp [Prod.lex_def]

/-- The depths never fall along the queue, and they differ by one at most. -/
structure IsWave (queue : List (Nat × Nat)) : Prop where
  ascending : queue.Pairwise fun earlier later => earlier.2 ≤ later.2
  close : ∀ earlier ∈ queue, ∀ later ∈ queue, later.2 ≤ earlier.2 + 1

section

variable {links : Nat → List Nat} {fresh : List Nat} {queue : List (Nat × Nat)} {id target depth : Nat}

theorem IsWave.tail {first : Nat × Nat} (wave : IsWave (first :: queue)) : IsWave queue where
  ascending := (List.pairwise_cons.mp wave.ascending).2
  close := fun _ here _ there =>
    wave.close _ (List.mem_cons_of_mem first here) _ (List.mem_cons_of_mem first there)

private theorem IsWave.head_le {first later : Nat × Nat} (wave : IsWave (first :: queue))
    (member : later ∈ first :: queue) : first.2 ≤ later.2 := by
  rcases List.mem_cons.mp member with rfl | behind
  · exact Nat.le_refl _
  · exact (List.pairwise_cons.mp wave.ascending).1 later behind

/-- What the first id links to can be queued. -/
theorem IsWave.next (wave : IsWave ((id, depth) :: queue)) (targets : List Nat) :
    IsWave (queue ++ targets.map fun target => (target, depth + 1)) := by
  have within (entry : Nat × Nat) (queued : entry ∈ queue ++ targets.map fun target => (target, depth + 1)) :
      depth ≤ entry.2 ∧ entry.2 ≤ depth + 1 := by
    rcases List.mem_append.mp queued with old | new
    · have listed := List.mem_cons_of_mem (id, depth) old
      exact ⟨wave.head_le listed, wave.close _ List.mem_cons_self _ listed⟩
    · obtain ⟨target, _, rfl⟩ := List.mem_map.mp new
      exact ⟨Nat.le_succ depth, Nat.le_refl _⟩
  constructor
  · refine List.pairwise_append.mpr ⟨wave.tail.ascending, ?_, ?_⟩
    · exact List.pairwise_map.mpr (List.pairwise_of_forall fun _ _ => Nat.le_refl _)
    · intro old queued new added
      obtain ⟨target, _, rfl⟩ := List.mem_map.mp added
      exact (within old (List.mem_append_left _ queued)).2
  · intro earlier here later there
    have low := within earlier here
    have high := within later there
    omega

private theorem isWave_start (targets : List Nat) : IsWave (targets.map fun target => (target, depth)) where
  ascending := List.pairwise_map.mpr (List.pairwise_of_forall fun _ _ => Nat.le_refl _)
  close := by
    intro earlier here later there
    obtain ⟨_, _, rfl⟩ := List.mem_map.mp here
    obtain ⟨_, _, rfl⟩ := List.mem_map.mp there
    exact Nat.le_succ depth

/-- Counting links changes nothing in what is met, and in which order. -/
theorem map_exploreDeep :
    (exploreDeep links fresh queue).map (·.1) = explore links fresh (queue.map (·.1)) := by
  fun_induction exploreDeep links fresh queue with
  | case1 => rw [List.map_nil, explore]
  | case2 fresh id depth queue present ih =>
    rw [List.map_append, List.map_map, Function.comp_def, List.map_id'] at ih
    rw [List.map_cons, List.map_cons, explore, if_pos present, ih]
  | case3 fresh id depth queue absent ih => rw [List.map_cons, explore, if_neg absent, ih]

/-- What holds of the queue and is passed on along links, one deeper, holds of all that is met. -/
theorem forall_mem_exploreDeep {holds : Nat × Nat → Prop} (queued : ∀ entry ∈ queue, holds entry)
    (passed : ∀ id depth target, holds (id, depth) → target ∈ links id → holds (target, depth + 1)) :
    ∀ met ∈ exploreDeep links fresh queue, holds met := by
  fun_induction exploreDeep links fresh queue with
  | case1 => exact fun met member => absurd member List.not_mem_nil
  | case2 fresh id depth queue _ ih =>
    have here : holds (id, depth) := queued _ List.mem_cons_self
    intro met member
    rcases List.mem_cons.mp member with rfl | later
    · exact here
    · refine ih ?_ met later
      intro entry waiting
      rcases List.mem_append.mp waiting with old | new
      · exact queued entry (List.mem_cons_of_mem _ old)
      · obtain ⟨target, link, rfl⟩ := List.mem_map.mp new
        exact passed id depth target here link
  | case3 fresh id depth queue _ ih => exact ih fun entry waiting => queued entry (List.mem_cons_of_mem _ waiting)

/-- Nothing is met at a smaller depth than the first of the queue has. -/
theorem IsWave.le_of_mem_exploreDeep (wave : IsWave ((id, depth) :: queue)) :
    ∀ met ∈ exploreDeep links fresh (queue ++ (links id).map fun target => (target, depth + 1)), depth ≤ met.2 := by
  refine forall_mem_exploreDeep ?_ ?_
  · intro entry waiting
    rcases List.mem_append.mp waiting with old | new
    · exact wave.head_le (List.mem_cons_of_mem _ old)
    · obtain ⟨target, _, rfl⟩ := List.mem_map.mp new
      exact Nat.le_succ depth
  · intro _ deep _ below _
    exact Nat.le_succ_of_le below

/-- Ids are met in the order of their depths. -/
theorem exploreDeep_ascending (wave : IsWave queue) :
    (exploreDeep links fresh queue).Pairwise fun earlier later => earlier.2 ≤ later.2 := by
  fun_induction exploreDeep links fresh queue with
  | case1 => exact .nil
  | case2 fresh id depth queue _ ih =>
    exact List.pairwise_cons.mpr ⟨wave.le_of_mem_exploreDeep, ih (wave.next (links id))⟩
  | case3 fresh id depth queue _ ih => exact ih wave.tail

/-- A queued id is met, by then or earlier. -/
theorem exists_mem_exploreDeep_of_queued (wave : IsWave queue) (queued : (id, depth) ∈ queue) (present : id ∈ fresh) :
    ∃ least ≤ depth, (id, least) ∈ exploreDeep links fresh queue := by
  fun_induction exploreDeep links fresh queue with
  | case1 => exact absurd queued List.not_mem_nil
  | case2 fresh first least queue _ ih =>
    by_cases same : id = first
    · exact ⟨least, wave.head_le queued, same ▸ List.mem_cons_self⟩
    · have waiting : (id, depth) ∈ queue := List.mem_of_ne_of_mem (fun equal => same (congrArg Prod.fst equal)) queued
      obtain ⟨found, below, member⟩ :=
        ih (wave.next (links first)) (List.mem_append_left _ waiting) ((List.mem_erase_of_ne same).mpr present)
      exact ⟨found, below, List.mem_cons_of_mem _ member⟩
  | case3 fresh first least queue absent ih =>
    have other : id ≠ first := fun same => absent (same ▸ present)
    exact ih wave.tail (List.mem_of_ne_of_mem (fun equal => other (congrArg Prod.fst equal)) queued) present

/-- A link from what was met leads to what was met one deeper or earlier, or out of what was fresh. -/
theorem exists_mem_exploreDeep_of_link (wave : IsWave queue) (met : (id, depth) ∈ exploreDeep links fresh queue)
    (link : target ∈ links id) (present : target ∈ fresh) :
    ∃ least ≤ depth + 1, (target, least) ∈ exploreDeep links fresh queue := by
  fun_induction exploreDeep links fresh queue with
  | case1 => exact absurd met List.not_mem_nil
  | case2 fresh first least queue _ ih =>
    have above : least ≤ depth := by
      rcases List.mem_cons.mp met with same | later
      · exact Nat.le_of_eq (congrArg Prod.snd same).symm
      · exact wave.le_of_mem_exploreDeep _ later
    by_cases back : target = first
    · exact ⟨least, Nat.le_succ_of_le above, back ▸ List.mem_cons_self⟩
    have left : target ∈ fresh.erase first := (List.mem_erase_of_ne back).mpr present
    have further : ∃ found ≤ depth + 1, (target, found) ∈
        exploreDeep links (fresh.erase first) (queue ++ (links first).map fun target => (target, least + 1)) := by
      rcases List.mem_cons.mp met with same | later
      · obtain ⟨rfl, rfl⟩ := Prod.mk.inj same
        exact exists_mem_exploreDeep_of_queued (wave.next (links id))
          (List.mem_append_right _ (List.mem_map.mpr ⟨target, link, rfl⟩)) left
      · exact ih (wave.next (links first)) later left
    obtain ⟨found, below, member⟩ := further
    exact ⟨found, below, List.mem_cons_of_mem _ member⟩
  | case3 fresh first least queue _ ih => exact ih wave.tail met present

end

private theorem nodup_explore {links : Nat → List Nat} {fresh queue : List Nat} (distinct : fresh.Nodup) :
    (explore links fresh queue).Nodup := by
  fun_induction explore links fresh queue with
  | case1 => exact List.nodup_nil
  | case2 fresh id queue present ih =>
    refine List.nodup_cons.mpr ⟨?_, ih (distinct.erase id)⟩
    intro again
    exact ((List.Nodup.mem_erase_iff distinct).mp (mem_fresh_of_mem_explore again)).1 rfl
  | case3 fresh id queue _ ih => exact ih distinct

/-! ## Distances of interfaces -/

namespace Table

/-- So many links, one at least, lead from a type to another one. -/
inductive Path (table : Table) (id : TypeId) : Nat → TypeId → Prop
  | link {target : TypeId} : table.LinksTo id target → Path table id 1 target
  | step {length : Nat} {between target : TypeId} :
    Path table id length between → table.LinksTo between target → Path table id (length + 1) target

/-- The length of the shortest path. -/
def IsDistance (table : Table) (id target : TypeId) (length : Nat) : Prop :=
  table.Path id length target ∧ ∀ other, table.Path id other target → length ≤ other

variable {table : Table} {id target : TypeId} {depth length : Nat}

/-- The search for the interfaces of a type, with depths. -/
def met (table : Table) (id : TypeId) : List (TypeId × Nat) :=
  exploreDeep table.links ((List.range table.types.length).erase id) ((table.links id).map fun target => (target, 1))

private theorem map_met (table : Table) (id : TypeId) : (table.met id).map (·.1) =
    explore table.links ((List.range table.types.length).erase id) (table.links id) := by
  rw [met, map_exploreDeep, List.map_map, Function.comp_def, List.map_id']

private theorem nodup_met (table : Table) (id : TypeId) : ((table.met id).map (·.1)).Nodup := by
  rw [map_met]
  exact nodup_explore (List.nodup_range.erase id)

private theorem met_fresh (found : (target, depth) ∈ table.met id) : target ≠ id ∧ target < table.types.length := by
  have listed : target ∈ (table.met id).map (·.1) := List.mem_map_of_mem found
  rw [map_met] at listed
  obtain ⟨other, within⟩ := (List.Nodup.mem_erase_iff List.nodup_range).mp (mem_fresh_of_mem_explore listed)
  exact ⟨other, List.mem_range.mp within⟩

private theorem path_of_mem_met (found : (target, depth) ∈ table.met id) : table.Path id depth target := by
  have paths : ∀ entry ∈ table.met id, table.Path id entry.2 entry.1 := forall_mem_exploreDeep ?_ ?_
  · exact paths (target, depth) found
  · intro entry queued
    obtain ⟨first, link, rfl⟩ := List.mem_map.mp queued
    exact .link link
  · exact fun _ _ _ path link => path.step link

/-- Whatever a path leads to is met at its length or earlier. Around a cycle the path starts anew, and the
links of the type itself are queued at the start. -/
theorem exists_mem_met (path : table.Path id length target) (other : target ≠ id)
    (within : target < table.types.length) : ∃ depth ≤ length, (target, depth) ∈ table.met id := by
  have fresh {target : TypeId} (different : target ≠ id) (inside : target < table.types.length) :
      target ∈ (List.range table.types.length).erase id :=
    (List.mem_erase_of_ne different).mpr (List.mem_range.mpr inside)
  have direct {target : TypeId} (link : table.LinksTo id target) (different : target ≠ id)
      (inside : target < table.types.length) : ∃ depth ≤ 1, (target, depth) ∈ table.met id :=
    exists_mem_exploreDeep_of_queued (isWave_start _) (List.mem_map.mpr ⟨target, link, rfl⟩) (fresh different inside)
  induction path with
  | link link => exact direct link other within
  | @step length between target _ link ih =>
    by_cases back : between = id
    · obtain ⟨depth, below, found⟩ := direct (back ▸ link) other within
      exact ⟨depth, by omega, found⟩
    · obtain ⟨depth, below, found⟩ := ih back (lt_of_linksTo link)
      obtain ⟨least, deeper, reached⟩ :=
        exists_mem_exploreDeep_of_link (isWave_start _) found link (fresh other within)
      exact ⟨least, by omega, reached⟩

/-- An id is met at its distance. -/
theorem isDistance_of_mem_met (found : (target, depth) ∈ table.met id) : table.IsDistance id target depth := by
  refine ⟨path_of_mem_met found, ?_⟩
  intro length path
  obtain ⟨other, within⟩ := met_fresh found
  obtain ⟨least, below, again⟩ := exists_mem_met path other within
  have same : (target, least) = (target, depth) := List.inj_on_of_nodup_map (nodup_met table id) again found rfl
  rwa [(Prod.mk.inj same).2] at below

private theorem allInterfaces_eq (table : Table) (id : TypeId) :
    table.allInterfaces id = ((table.met id).filter fun entry => table.isInterface entry.1).map (·.1) := by
  rw [allInterfaces, ← map_met, List.filter_map, Function.comp_def]

/-- The interfaces of a type are those other than itself that links lead to, each once and the nearest
first. Where all ids of the table are in range, the search is over after as many steps as the table has
links, whatever cycles they form. -/
theorem allInterfaces_nearest_first (table : Table) (id : TypeId) :
    (table.allInterfaces id).Nodup ∧
    (∀ interface, interface ∈ table.allInterfaces id ↔
      table.isInterface interface = true ∧ interface ≠ id ∧ Relation.TransGen table.LinksTo id interface) ∧
    (∃ distances : List Nat, List.Forall₂ (table.IsDistance id) (table.allInterfaces id) distances ∧
      distances.Pairwise (· ≤ ·)) ∧
    (table.IsClosed → id < table.types.length →
      Strict.allInterfaces table id = some (table.allInterfaces id)) := by
  have listed := allInterfaces_eq table id
  refine ⟨?_, fun interface => mem_allInterfaces, ?_, fun closed inside => closed.strict_allInterfaces inside⟩
  · rw [listed]
    exact (nodup_met table id).sublist (List.filter_sublist.map _)
  · refine ⟨((table.met id).filter fun entry => table.isInterface entry.1).map (·.2), ?_, ?_⟩
    · rw [listed, List.forall₂_map_left_iff, List.forall₂_map_right_iff, List.forall₂_same]
      exact fun entry kept => isDistance_of_mem_met (List.mem_filter.mp kept).1
    · refine List.pairwise_map.mpr (List.Pairwise.sublist List.filter_sublist ?_)
      exact exploreDeep_ascending (isWave_start _)

end Table

end NullReturns
