import NullReturns.Finding
import NullReturns.Proofs.AddedAttributes
import NullReturns.Proofs.DocumentOrder
import NullReturns.Proofs.Interfaces
import NullReturns.Proofs.Marking
import Mathlib.Data.List.Perm.Subperm
import Mathlib.Data.Option.Basic

/-! # Lookups that have to succeed

The analysis takes an id that leads nowhere for one that says nothing. Here it is told once more so that
there is no outcome at all when a type, a method or a node is looked up that is not there, or when a search
is not over after as many steps as there are things to find. No question is passed over because an earlier
answer has decided: whatever the analysis looks up, this looks up too. Where all ids of the table and of the
body are in range, there is always an outcome, and it is the one of the analysis.
-/

namespace NullReturns

/-- What comes out when every lookup has to succeed. -/
abbrev Strict : Type → Type := Option

namespace Strict

/-! ## Questions to all entries of a list -/

section

variable {α β : Type} {list : List α}

private theorem mapM_eq_some {ask : α → Strict β} {answer : α → β}
    (each : ∀ entry ∈ list, ask entry = some (answer entry)) :
    list.mapM ask = some (list.map answer) := by
  induction list with
  | nil => rfl
  | cons entry rest ih =>
    rw [List.forall_mem_cons] at each
    simp [List.mapM_cons, each.1, ih each.2]

private theorem filterM_eq_some {ask : α → Strict Bool} {answer : α → Bool}
    (each : ∀ entry ∈ list, ask entry = some (answer entry)) : list.filterM ask = some (list.filter answer) := by
  have kept (done : List α) : list.filterAuxM ask done = some ((list.filter answer).reverse ++ done) := by
    induction list generalizing done with
    | nil => rfl
    | cons entry rest ih =>
      rw [List.forall_mem_cons] at each
      cases decided : answer entry <;> simp [List.filterAuxM, each.1, decided, ih each.2]
  simp [List.filterM, kept]

end

/-! ## Searches -/

/-- Follows links until there is none or an id comes up again. -/
def follow (next : Nat → Strict (Option Nat)) : Nat → List Nat → Option Nat → Strict (List Nat)
  | _, _, none => some []
  | 0, _, some _ => none
  | steps + 1, seen, some id =>
    if id ∈ seen then some []
    else do
      let link ← next id
      return id :: (← follow next steps (id :: seen) link)

/-- Visits the ids of a queue and puts what they link to behind it; ids that come up again are left out. -/
def explore (links : Nat → Strict (List Nat)) : Nat → List Nat → List Nat → Strict (List Nat)
  | _, _, [] => some []
  | 0, _, _ :: _ => none
  | steps + 1, seen, id :: queue =>
    if id ∈ seen then explore links steps seen queue
    else do
      let targets ← links id
      return id :: (← explore links steps (id :: seen) (queue ++ targets))

section

variable {bound : Nat} {fresh seen : List Nat}

/-- An id is no longer fresh once it has been seen. -/
theorem mem_erase_iff (distinct : fresh.Nodup) (apart : ∀ id < bound, id ∈ fresh ↔ id ∉ seen) (first : Nat) :
    ∀ id < bound, id ∈ fresh.erase first ↔ id ∉ first :: seen := by
  intro id inside
  rw [distinct.mem_erase_iff, List.mem_cons, not_or, apart id inside]

private theorem follow_eq_some {next : Nat → Strict (Option Nat)} {link : Nat → Option Nat}
    (known : ∀ id < bound, next id = some (link id)) (closed : ∀ id < bound, ∀ target ∈ link id, target < bound)
    (distinct : fresh.Nodup) (apart : ∀ id < bound, id ∈ fresh ↔ id ∉ seen) {steps id : Nat} (inside : id < bound)
    (enough : fresh.length < steps) : follow next steps seen (some id) = some (NullReturns.follow link fresh id) := by
  induction steps generalizing fresh seen id with
  | zero => exact absurd enough (Nat.not_lt_zero _)
  | succ steps ih =>
    rw [follow, NullReturns.follow]
    by_cases new : id ∈ fresh
    · have left : (fresh.erase id).length < steps := by
        rw [List.length_erase_of_mem new]
        have := List.length_pos_of_mem new
        omega
      rw [if_neg ((apart id inside).mp new), if_pos new, known id inside]
      cases step : link id with
      | none => simp [follow]
      | some target =>
        have later := ih (distinct.erase id) (mem_erase_iff distinct apart id) (closed id inside target step) left
        simp [later]
    · have old : id ∈ seen := by
        by_contra unseen
        exact new ((apart id inside).mpr unseen)
      rw [if_pos old, if_neg new]

/-- The number of links from a list of ids. -/
def linkCount (links : Nat → List Nat) (ids : List Nat) : Nat := (ids.flatMap links).length

private theorem linkCount_erase (links : Nat → List Nat) {id : Nat} (member : id ∈ fresh) :
    linkCount links fresh = (links id).length + linkCount links (fresh.erase id) := by
  have moved := ((List.perm_cons_erase member).flatMap_right links).length_eq
  rwa [List.flatMap_cons, List.length_append] at moved

/-- Each step takes an id from the queue, and what it puts there is counted among the links left. -/
theorem explore_eq_some {ask : Nat → Strict (List Nat)} {links : Nat → List Nat}
    (known : ∀ id < bound, ask id = some (links id)) (closed : ∀ id < bound, ∀ target ∈ links id, target < bound)
    (distinct : fresh.Nodup) (apart : ∀ id < bound, id ∈ fresh ↔ id ∉ seen) {queue : List Nat}
    (inside : ∀ id ∈ queue, id < bound) {steps : Nat} (enough : queue.length + linkCount links fresh ≤ steps) :
    explore ask steps seen queue = some (NullReturns.explore links fresh queue) := by
  induction steps generalizing fresh seen queue with
  | zero =>
    cases queue with
    | nil => rw [explore, NullReturns.explore]
    | cons id queue => simp at enough
  | succ steps ih =>
    cases queue with
    | nil => rw [explore, NullReturns.explore]
    | cons id queue =>
      rw [List.forall_mem_cons] at inside
      rw [List.length_cons] at enough
      rw [explore, NullReturns.explore]
      by_cases new : id ∈ fresh
      · have queued : ∀ target ∈ queue ++ links id, target < bound := by
          intro target waiting
          rcases List.mem_append.mp waiting with old | added
          · exact inside.2 target old
          · exact closed id inside.1 target added
        have left := linkCount_erase links new
        have later := ih (distinct.erase id) (mem_erase_iff distinct apart id) queued
          (by rw [List.length_append]; omega)
        rw [if_neg ((apart id inside.1).mp new), if_pos new, known id inside.1]
        simp [later]
      · have old : id ∈ seen := by
          by_contra unseen
          exact new ((apart id inside.1).mpr unseen)
        rw [if_pos old, if_neg new]
        exact ih distinct apart inside.2 (by omega)

end

end Strict

/-! ## The table -/

/-- Every id that the table holds is the id of one of its types or methods. -/
structure Table.IsClosed (table : Table) : Prop where
  base : ∀ type ∈ table.types, ∀ id ∈ type.base, id < table.types.length
  interfaces : ∀ type ∈ table.types, ∀ id ∈ type.interfaces, id < table.types.length
  members : ∀ type ∈ table.types, ∀ id ∈ type.members, id < table.methods.length
  implementations : ∀ type ∈ table.types, ∀ entry ∈ type.implementations,
    entry.1 < table.methods.length ∧ entry.2 < table.methods.length
  owner : ∀ method ∈ table.methods, method.owner < table.types.length
  overridden : ∀ method ∈ table.methods, ∀ id ∈ method.overridden, id < table.methods.length

namespace Strict

variable (table : Table)

def base (id : TypeId) : Strict (Option TypeId) := (table.type? id).map (·.base)

def links (id : TypeId) : Strict (List TypeId) :=
  (table.type? id).map fun type => type.base.toList ++ type.interfaces

def isInterface (id : TypeId) : Strict Bool := (table.type? id).map (·.kind == .interfaceType)

def hasMarker (id : MethodId) : Strict Bool := (table.method? id).map (·.hasMarker)

def overridden (id : MethodId) : Strict (Option MethodId) :=
  (table.method? id).map fun method => if method.isOverride then method.overridden else none

def baseChain (id : TypeId) : Strict (List TypeId) := follow (base table) (table.types.length + 1) [] (some id)

def overrideChain (id : MethodId) : Strict (List MethodId) :=
  follow (overridden table) (table.methods.length + 1) [] (some id)

def allInterfaces (id : TypeId) : Strict (List TypeId) := do
  let queue ← links table id
  let met ← explore (links table) (linkCount table.links (List.range table.types.length)) [id] queue
  met.filterM (isInterface table)

/-- The members of a type that have a name. -/
def membersNamed (name : String) (id : TypeId) : Strict (List MethodId) := do
  let type ← table.type? id
  type.members.filterM fun member => (table.method? member).map (·.name == name)

def interfaceMembers (id : MethodId) : Strict (List MethodId) := do
  let method ← table.method? id
  let members ← (← allInterfaces table method.owner).mapM (membersNamed table method.name)
  return members.flatten

def implementationIn (target : Method) (member : MethodId) (id : TypeId) : Strict (Option MethodId) := do
  let type ← table.type? id
  let implicit ← type.members.filterM fun candidate =>
    (table.method? candidate).map fun method => method.name == target.name && method.signature == target.signature
  return (type.implementations.lookup member).or implicit.head?

def resolve (id : TypeId) (member : MethodId) : Strict (Option MethodId) := do
  let target ← table.method? member
  let answers ← (← baseChain table id).mapM (implementationIn table target member)
  return answers.findSome? fun answer => answer

def isMarkedByInterface (id : MethodId) : Strict Bool := do
  let method ← table.method? id
  let answers ← (← interfaceMembers table id).mapM fun member => do
    return (← resolve table method.owner member) == some id && (← hasMarker table member)
  return answers.any fun answer => answer

def isMarked (id : MethodId) : Strict Bool := do
  let answers ← (← overrideChain table id).mapM fun ancestor => do
    return (← hasMarker table ancestor) || (← isMarkedByInterface table ancestor)
  return answers.any fun answer => answer

end Strict

namespace Table

private theorem exists_type? {table : Table} {id : TypeId} (inside : id < table.types.length) :
    ∃ type ∈ table.types, table.type? id = some type :=
  ⟨_, List.getElem_mem inside, List.getElem?_eq_getElem inside⟩

theorem exists_method? {table : Table} {id : MethodId} (inside : id < table.methods.length) :
    ∃ method ∈ table.methods, table.method? id = some method :=
  ⟨_, List.getElem_mem inside, List.getElem?_eq_getElem inside⟩

private theorem lt_of_method? {table : Table} {id : MethodId} {method : Method}
    (found : table.method? id = some method) :
    id < table.methods.length :=
  (List.getElem?_eq_some_iff.mp found).1

private theorem strict_hasMarker {table : Table} {id : MethodId} (inside : id < table.methods.length) :
    Strict.hasMarker table id = some (table.hasMarker id) := by
  obtain ⟨method, _, found⟩ := exists_method? inside
  rw [Strict.hasMarker, hasMarker, found, Option.map_some, Option.any_some]

private theorem lt_of_mem_interfaceMembers {table : Table} {id member : MethodId}
    (listed : member ∈ table.interfaceMembers id) : member < table.methods.length := by
  cases found : table.method? id with
  | none => simp [interfaceMembers, found] at listed
  | some method =>
    obtain ⟨_, _, declared, _, _, _, known, _⟩ := (mem_interfaceMembers found).mp listed
    exact lt_of_method? known

namespace IsClosed

variable {table : Table} (closed : table.IsClosed)

include closed

private theorem strict_baseChain {id : TypeId} (inside : id < table.types.length) :
    Strict.baseChain table id = some (table.baseChain id) := by
  have known (id : Nat) (inside : id < table.types.length) :
      Strict.base table id = some ((table.type? id).bind (·.base)) := by
    obtain ⟨type, _, found⟩ := exists_type? inside
    rw [Strict.base, found, Option.map_some, Option.bind_some]
  refine Strict.follow_eq_some known ?_ List.nodup_range (by simp) inside (by simp)
  intro id inside target link
  obtain ⟨type, listed, found⟩ := exists_type? inside
  rw [found, Option.bind_some] at link
  exact closed.base type listed target link

private theorem strict_overrideChain {id : MethodId} (inside : id < table.methods.length) :
    Strict.overrideChain table id = some (table.overrideChain id) := by
  have known (id : Nat) (inside : id < table.methods.length) :
      Strict.overridden table id = some (table.overridden? id) := by
    obtain ⟨method, _, found⟩ := exists_method? inside
    simp [Strict.overridden, overridden?, found]
  refine Strict.follow_eq_some known ?_ List.nodup_range (by simp) inside (by simp)
  intro id inside target link
  obtain ⟨method, listed, found⟩ := exists_method? inside
  simp only [overridden?, found, bind, Option.bind_some, Option.mem_def, Option.ite_none_right_eq_some] at link
  exact closed.overridden method listed target link.2

private theorem links_lt {id target : TypeId} (link : target ∈ table.links id) : target < table.types.length := by
  obtain ⟨type, listed, found⟩ := exists_type? (lt_of_linksTo link)
  simp only [links, found, List.mem_append, Option.mem_toList] at link
  rcases link with base | interface
  · exact closed.base type listed target base
  · exact closed.interfaces type listed target interface

theorem strict_allInterfaces {id : TypeId} (inside : id < table.types.length) :
    Strict.allInterfaces table id = some (table.allInterfaces id) := by
  have known (id : Nat) (inside : id < table.types.length) : Strict.links table id = some (table.links id) := by
    obtain ⟨type, _, found⟩ := exists_type? inside
    rw [Strict.links, links, found, Option.map_some]
  have apart (other : Nat) (within : other < table.types.length) :
      other ∈ (List.range table.types.length).erase id ↔ other ∉ [id] := by
    simp [List.nodup_range.mem_erase_iff, within]
  have count := Strict.linkCount_erase table.links (List.mem_range.mpr inside)
  have met := Strict.explore_eq_some known (fun _ _ target link => closed.links_lt link) (List.nodup_range.erase id)
    apart (fun target (link : target ∈ table.links id) => closed.links_lt link) (Nat.le_of_eq count.symm)
  have kinds : (explore table.links ((List.range table.types.length).erase id) (table.links id)).filterM
      (Strict.isInterface table) = some (table.allInterfaces id) := by
    refine Strict.filterM_eq_some fun other member => ?_
    have within := List.mem_range.mp (List.mem_of_mem_erase (mem_fresh_of_mem_explore member))
    obtain ⟨type, _, found⟩ := exists_type? within
    rw [Strict.isInterface, isInterface, found, Option.map_some, Option.any_some]
  simp only [Strict.allInterfaces, known id inside, met, bind, Option.bind_some, kinds]

private theorem strict_membersNamed {interface : TypeId} (inside : interface < table.types.length) (name : String) :
    Strict.membersNamed table name interface =
      some (((table.type? interface).elim [] (·.members)).filter fun member =>
        (table.method? member).any (·.name == name)) := by
  obtain ⟨type, listed, found⟩ := exists_type? inside
  simp only [Strict.membersNamed, found, bind, Option.bind_some, Option.elim_some]
  refine Strict.filterM_eq_some fun candidate within => ?_
  obtain ⟨declared, _, found⟩ := exists_method? (closed.members type listed candidate within)
  rw [found, Option.map_some, Option.any_some]

theorem strict_interfaceMembers {id : MethodId} (inside : id < table.methods.length) :
    Strict.interfaceMembers table id = some (table.interfaceMembers id) := by
  obtain ⟨method, listed, found⟩ := exists_method? inside
  have named := Strict.mapM_eq_some fun interface (member : interface ∈ table.allInterfaces method.owner) =>
    closed.strict_membersNamed (lt_of_isInterface (List.mem_filter.mp member).2) method.name
  simp only [Strict.interfaceMembers, found, closed.strict_allInterfaces (closed.owner method listed), named, bind,
    Option.bind_some, interfaceMembers, List.flatMap, pure]

private theorem strict_implementationIn? {id : TypeId} (inside : id < table.types.length) {member : MethodId}
    {target : Method}
    (known : table.method? member = some target) :
    Strict.implementationIn table target member id = some (table.implementationIn? member id) := by
  obtain ⟨type, listed, found⟩ := exists_type? inside
  have implicit : (type.members.filterM fun candidate => (table.method? candidate).map fun method =>
      method.name == target.name && method.signature == target.signature) =
      some (type.members.filter fun candidate => (table.method? candidate).any fun method =>
        method.name == target.name && method.signature == target.signature) := by
    refine Strict.filterM_eq_some fun candidate within => ?_
    obtain ⟨declared, _, here⟩ := exists_method? (closed.members type listed candidate within)
    rw [here, Option.map_some, Option.any_some]
  simp [Strict.implementationIn, implementationIn?, found, known, implicit]

theorem strict_resolve? {id : TypeId} (inside : id < table.types.length) {member : MethodId}
    (known : member < table.methods.length) : Strict.resolve table id member = some (table.resolve? id member) := by
  obtain ⟨target, _, found⟩ := exists_method? known
  have answers := Strict.mapM_eq_some fun base (chained : base ∈ table.baseChain id) =>
    closed.strict_implementationIn? (List.mem_range.mp (mem_fresh_of_mem_follow chained)) found
  simp only [Strict.resolve, found, closed.strict_baseChain inside, bind, Option.bind_some, answers]
  simp [resolve?, List.findSome?_map, Function.comp_def]

private theorem strict_isMarkedByInterface {id : MethodId} (inside : id < table.methods.length) :
    Strict.isMarkedByInterface table id = some (table.isMarkedByInterface id) := by
  obtain ⟨method, listed, found⟩ := exists_method? inside
  have answers : ((table.interfaceMembers id).mapM fun member => do
      return (← Strict.resolve table method.owner member) == some id && (← Strict.hasMarker table member)) =
      some ((table.interfaceMembers id).map fun member =>
        table.resolve? method.owner member == some id && table.hasMarker member) := by
    refine Strict.mapM_eq_some fun member named => ?_
    have known := lt_of_mem_interfaceMembers named
    simp [closed.strict_resolve? (closed.owner method listed) known, strict_hasMarker known]
  simp only [Strict.isMarkedByInterface, found, closed.strict_interfaceMembers inside, bind,
    Option.bind_some] at answers ⊢
  rw [answers]
  simp [isMarkedByInterface, found, Function.comp_def]

theorem strict_isMarked {id : MethodId} (inside : id < table.methods.length) :
    Strict.isMarked table id = some (table.isMarked id) := by
  have answers : ((table.overrideChain id).mapM fun ancestor => do
      return (← Strict.hasMarker table ancestor) || (← Strict.isMarkedByInterface table ancestor)) =
      some ((table.overrideChain id).map fun ancestor =>
        table.hasMarker ancestor || table.isMarkedByInterface ancestor) := by
    refine Strict.mapM_eq_some fun ancestor chained => ?_
    have known := List.mem_range.mp (mem_fresh_of_mem_follow chained)
    simp [strict_hasMarker known, closed.strict_isMarkedByInterface known]
  simp only [Strict.isMarked, closed.strict_overrideChain inside, bind, Option.bind_some] at answers ⊢
  rw [answers]
  simp [isMarked, Function.comp_def]

end IsClosed

end Table

/-! ## Bodies -/

/-- Every method id that the body holds is the id of a method of the table. -/
structure Body.IsClosed (table : Table) (body : Body) : Prop where
  owner : ∀ id ∈ body.owner, id < table.methods.length
  target : ∀ node ∈ body.nodes, ∀ id ∈ node.target, id < table.methods.length
  parent : ∀ node ∈ body.nodes, ∀ id ∈ node.parent, id < body.nodes.length
  children : ∀ node ∈ body.nodes, ∀ id ∈ node.children, id < body.nodes.length

namespace Strict

variable (body : Body)

/-- Visits the nodes on a stack, the nodes below each of them before the next. -/
def walk : Nat → List NodeId → Strict (List NodeId)
  | _, [] => some []
  | 0, _ :: _ => none
  | steps + 1, id :: stack => do
    let node ← body.nodes[id]?
    return id :: (← walk steps (node.children ++ stack))

def descendants (id : NodeId) : Strict (List NodeId) := do
  let node ← body.nodes[id]?
  walk body body.nodes.length node.children

/-- Goes up from a node that may be missing. -/
def climb : Nat → Option NodeId → Strict (List NodeId)
  | _, none => some []
  | 0, some _ => none
  | steps + 1, some id => do
    let node ← body.nodes[id]?
    return id :: (← climb steps node.parent)

def ancestors (id : NodeId) : Strict (List NodeId) := do
  let node ← body.nodes[id]?
  climb body body.nodes.length node.parent

def kind (id : NodeId) : Strict NodeKind := body.nodes[id]?.map (·.kind)

def returns : Strict (List NodeId) := do
  (← descendants body 0).filterM fun id => (kind body id).map (· == .return)

def isNested (id : NodeId) : Strict Bool := do
  let kinds ← (← ancestors body id).mapM (kind body)
  return kinds.any (·.isNestedFunction)

def isGuardedLiteral (statement literal : NodeId) : Strict Bool := do
  let kinds ← ((← ancestors body literal).takeWhile (· != statement)).mapM (kind body)
  return kinds.any (·.guardsLiteral)

/-- The node is a null literal that the statement yields. -/
def isYieldedNull (statement id : NodeId) : Strict Bool := do
  let node ← body.nodes[id]?
  let guarded ← isGuardedLiteral body statement id
  return node.kind == .literal && node.constant.any (·.isNull) && !guarded

def yieldsNull (statement : NodeId) : Strict Bool := do
  let answers ← (← descendants body statement).mapM (isYieldedNull body statement)
  return answers.any fun answer => answer

/-- The node with its target, if it is a call. -/
def call (id : NodeId) : Strict (Option (NodeId × Option MethodId)) :=
  body.nodes[id]?.map fun node => if node.kind = .invocation then some (id, node.target) else none

def firstCall (statement : NodeId) : Strict (Option (NodeId × Option MethodId)) := do
  let calls ← (← descendants body statement).mapM (call body)
  return calls.findSome? fun call => call

def yieldsMarkedCall (table : Table) (statement : NodeId) : Strict Bool := do
  match ← firstCall body statement with
  | none => return false
  | some (call, target) =>
    let node ← body.nodes[call]?
    let above ← node.parent.mapM (kind body)
    let marked ← target.mapM (hasMarker table)
    return !above.any (·.guardsCall) && marked.any fun answer => answer

def subject (table : Table) (statement : NodeId) : Strict (Option MethodId) := do
  let nested ← isNested body statement
  match body.owner with
  | none => return none
  | some owner =>
    let method ← table.method? owner
    let marked ← isMarked table owner
    let silent := if method.canHoldNull && !marked then some owner else none
    return if body.kind = .method ∧ nested = false then silent else none

def ofStatement (table : Table) (statement : NodeId) : Strict (Option Report) := do
  let yields ← yieldsNull body statement
  let delegates ← yieldsMarkedCall body table statement
  match ← subject body table statement with
  | none => return none
  | some owner =>
    let method ← table.method? owner
    let rule : Option Rule := if yields then some .nullValue else if delegates then some .markedCall else none
    return rule.map fun rule => ⟨rule, owner, method.nameSpan⟩

def ofBody (table : Table) : Strict (Option Report) := do
  let reports ← (← returns body).mapM (ofStatement body table)
  return reports.findSome? fun report => report

end Strict

namespace Body

variable {body : Body}

private theorem exists_node {id : NodeId} (inside : id < body.nodes.length) :
    ∃ node ∈ body.nodes, body.nodes[id]? = some node :=
  ⟨_, List.getElem_mem inside, List.getElem?_eq_getElem inside⟩

/-- A walk over nodes that are there is done in as many steps as it visits nodes. -/
theorem Walks.strict {stack visited : List NodeId} (walk : body.Walks stack visited)
    (inside : ∀ id ∈ visited, id < body.nodes.length) {steps : Nat} (enough : visited.length ≤ steps) :
    Strict.walk body steps stack = some visited := by
  induction walk generalizing steps with
  | done => cases steps <;> rfl
  | @visit id stack visited _ ih =>
    rw [List.forall_mem_cons] at inside
    obtain ⟨node, _, found⟩ := exists_node inside.1
    obtain ⟨steps, rfl⟩ := Nat.exists_eq_succ_of_ne_zero (Nat.ne_zero_of_lt enough)
    have children : body.children id = node.children := by rw [children, found, Option.elim_some]
    have later := ih inside.2 (Nat.le_of_succ_le_succ enough)
    rw [children] at later
    simp [Strict.walk, found, later]

/-- Asking nodes that are there for their kinds. -/
theorem any_kind? {ids : List NodeId} (inside : ∀ id ∈ ids, id < body.nodes.length) (holds : NodeKind → Bool) :
    ∃ kinds, ids.mapM (Strict.kind body) = some kinds ∧
      kinds.any holds = ids.any fun id => (body.kind? id).any holds := by
  induction ids with
  | nil => exact ⟨[], rfl, rfl⟩
  | cons id rest ih =>
    rw [List.forall_mem_cons] at inside
    obtain ⟨node, _, found⟩ := exists_node inside.1
    obtain ⟨kinds, asked, same⟩ := ih inside.2
    refine ⟨node.kind :: kinds, ?_, ?_⟩
    · simp [Strict.kind, found, asked]
    · simp [kind?, found, same]

namespace IsTree

variable (tree : body.IsTree)

include tree

private theorem lt_of_mem_descendants {id below : NodeId} (listed : below ∈ body.descendants id) :
    below < body.nodes.length :=
  (tree.lt_of_mem_ancestors (tree.mem_descendants_iff.mp listed)).2

private theorem strict_descendants {id : NodeId} (inside : id < body.nodes.length) :
    Strict.descendants body id = some (body.descendants id) := by
  obtain ⟨node, _, found⟩ := exists_node inside
  have walk := tree.walks id .done
  rw [List.append_nil, List.append_nil, children, found, Option.elim_some] at walk
  have bound : (body.descendants id).length ≤ body.nodes.length := by
    have within : body.descendants id ⊆ List.range body.nodes.length :=
      fun below listed => List.mem_range.mpr (tree.lt_of_mem_descendants listed)
    simpa using ((tree.nodup_descendants id).subperm within).length_le
  have done := walk.strict (fun below listed => tree.lt_of_mem_descendants listed) bound
  simp [Strict.descendants, found, done]

private theorem strict_climb {id steps : Nat} (inside : id < body.nodes.length) (enough : id ≤ steps) :
    Strict.climb body steps (body.parent? id) = some (body.ancestors id) := by
  induction id using Nat.strongRecOn generalizing steps with
  | ind id ih =>
    cases link : body.parent? id with
    | none =>
      rw [tree.ancestors_eq, link, Option.elim_none]
      cases steps <;> rfl
    | some parent =>
      have smaller := tree.parent_lt link
      obtain ⟨steps, rfl⟩ := Nat.exists_eq_succ_of_ne_zero (Nat.ne_zero_of_lt (Nat.lt_of_lt_of_le smaller enough))
      obtain ⟨node, _, found⟩ := exists_node (Nat.lt_trans smaller inside)
      have above : body.parent? parent = node.parent := by rw [parent?, found, Option.bind_some]
      have later := ih parent smaller (Nat.lt_trans smaller inside)
        (Nat.le_of_lt_succ (Nat.lt_of_lt_of_le smaller enough))
      rw [above] at later
      simp [Strict.climb, found, later, tree.ancestors_of_parent? link]

private theorem strict_ancestors {id : NodeId} (inside : id < body.nodes.length) :
    Strict.ancestors body id = some (body.ancestors id) := by
  obtain ⟨node, _, found⟩ := exists_node inside
  have climbed := tree.strict_climb inside (Nat.le_of_lt inside)
  rw [parent?, found, Option.bind_some] at climbed
  simp [Strict.ancestors, found, climbed]

private theorem strict_returns (inside : 0 < body.nodes.length) : Strict.returns body = some body.returns := by
  have kinds :
      (body.descendants 0).filterM (fun id => (Strict.kind body id).map (· == .return)) = some body.returns := by
    refine Strict.filterM_eq_some fun id listed => ?_
    obtain ⟨node, _, found⟩ := exists_node (tree.lt_of_mem_descendants listed)
    simp [Strict.kind, kind?, found]
  simp only [Strict.returns, tree.strict_descendants inside, bind, Option.bind_some, kinds]

private theorem strict_isNested {id : NodeId} (inside : id < body.nodes.length) :
    Strict.isNested body id = some (body.isNested id) := by
  have above (ancestor : NodeId) (listed : ancestor ∈ body.ancestors id) : ancestor < body.nodes.length :=
    Nat.lt_trans (tree.lt_of_mem_ancestors listed).1 inside
  obtain ⟨kinds, asked, same⟩ := any_kind? above (·.isNestedFunction)
  simp [Strict.isNested, tree.strict_ancestors inside, asked, same, isNested]

private theorem strict_isGuardedLiteral (statement : NodeId) {literal : NodeId} (inside : literal < body.nodes.length) :
    Strict.isGuardedLiteral body statement literal = some (body.isGuardedLiteral statement literal) := by
  have above (ancestor : NodeId) (listed : ancestor ∈ (body.ancestors literal).takeWhile (· != statement)) :
      ancestor < body.nodes.length :=
    Nat.lt_trans (tree.lt_of_mem_ancestors ((List.takeWhile_prefix _).subset listed)).1 inside
  obtain ⟨kinds, asked, same⟩ := any_kind? above (·.guardsLiteral)
  simp [Strict.isGuardedLiteral, tree.strict_ancestors inside, asked, same, isGuardedLiteral]

private theorem strict_yieldsNull {statement : NodeId} (inside : statement < body.nodes.length) :
    Strict.yieldsNull body statement = some (body.yieldsNull statement) := by
  have answers : (body.descendants statement).mapM (Strict.isYieldedNull body statement) =
      some ((body.descendants statement).map fun id => body.kind? id == some .literal &&
        (body.constant? id).any (·.isNull) && !body.isGuardedLiteral statement id) := by
    refine Strict.mapM_eq_some fun id listed => ?_
    have there := tree.lt_of_mem_descendants listed
    obtain ⟨node, _, found⟩ := exists_node there
    simp [Strict.isYieldedNull, tree.strict_isGuardedLiteral statement there, found, kind?, constant?]
  simp [Strict.yieldsNull, tree.strict_descendants inside, answers, yieldsNull, Function.comp_def]

private theorem strict_firstCall? {statement : NodeId} (inside : statement < body.nodes.length) :
    Strict.firstCall body statement = some (body.firstCall? statement) := by
  have calls : (body.descendants statement).mapM (Strict.call body) =
      some ((body.descendants statement).map fun id => do
        let node ← body.nodes[id]?
        if node.kind = .invocation then some (id, node.target) else none) := by
    refine Strict.mapM_eq_some fun id listed => ?_
    obtain ⟨node, _, found⟩ := exists_node (tree.lt_of_mem_descendants listed)
    simp [Strict.call, found]
  simp [Strict.firstCall, tree.strict_descendants inside, calls, firstCall?, List.findSome?_map, Function.comp_def]

variable {table : Table} (known : body.IsClosed table)

include known

private theorem strict_yieldsMarkedCall {statement : NodeId} (inside : statement < body.nodes.length) :
    Strict.yieldsMarkedCall body table statement = some (body.yieldsMarkedCall table statement) := by
  rw [Strict.yieldsMarkedCall, tree.strict_firstCall? inside, yieldsMarkedCall]
  cases first : body.firstCall? statement with
  | none => rfl
  | some found =>
    obtain ⟨call, target⟩ := found
    obtain ⟨id, listed, asked⟩ := List.exists_of_findSome?_eq_some first
    obtain ⟨node, member, found⟩ := exists_node (tree.lt_of_mem_descendants listed)
    simp only [found, bind, Option.bind_some, Option.ite_none_right_eq_some, Option.some.injEq, Prod.mk.injEq] at asked
    obtain ⟨_, rfl, rfl⟩ := asked
    have above : node.parent.mapM (Strict.kind body) = some (node.parent.bind body.kind?) := by
      cases link : node.parent with
      | none => rfl
      | some parent =>
        have smaller := tree.parent_lt
          (show body.parent? id = some parent by rw [parent?, found, Option.bind_some, link])
        obtain ⟨other, _, there⟩ := exists_node (Nat.lt_trans smaller (tree.lt_of_mem_descendants listed))
        simp [Strict.kind, kind?, there]
    have marked : node.target.mapM (Strict.hasMarker table) = some (node.target.map table.hasMarker) := by
      cases aim : node.target with
      | none => rfl
      | some target => simp [Table.strict_hasMarker (known.target node member target aim)]
    have parent : body.parent? id = node.parent := by rw [parent?, found, Option.bind_some]
    simp only [found, above, marked, parent, bind, Option.bind_some, pure]
    cases node.target <;> rfl

variable (closed : table.IsClosed)

include closed

private theorem strict_subject? {statement : NodeId} (inside : statement < body.nodes.length) :
    Strict.subject body table statement = some (Report.subject? table body statement) := by
  rw [Strict.subject, tree.strict_isNested inside]
  cases own : body.owner with
  | none => simp [Report.subject?, own]
  | some owner =>
    have there := known.owner owner own
    obtain ⟨method, _, found⟩ := Table.exists_method? there
    simp only [found, closed.strict_isMarked there, bind, Option.bind_some, pure, Report.subject?, own, guard]
    split <;> rfl

private theorem strict_ofStatement? {statement : NodeId} (inside : statement < body.nodes.length) :
    Strict.ofStatement body table statement = some (Report.ofStatement? table body statement) := by
  simp only [Strict.ofStatement, tree.strict_yieldsNull inside, tree.strict_yieldsMarkedCall known inside,
    tree.strict_subject? known closed inside, bind, Option.bind_some, Report.ofStatement?, Report.rule?]
  cases subject : Report.subject? table body statement with
  | none => rfl
  | some owner =>
    have own := (Report.subject?_eq_some_iff.mp subject).2.2.1
    obtain ⟨method, _, found⟩ := Table.exists_method? (known.owner owner own)
    simp only [found, Option.bind_some]
    cases body.yieldsNull statement <;> cases body.yieldsMarkedCall table statement <;> rfl

/-- With all ids in range the analysis of a body finds everything that it looks up. -/
theorem strict_ofBody? (inside : 0 < body.nodes.length) :
    Strict.ofBody body table = some (Report.ofBody? table body) := by
  have reports := Strict.mapM_eq_some fun statement (listed : statement ∈ body.returns) =>
    tree.strict_ofStatement? known closed (tree.lt_of_mem_descendants (List.mem_filter.mp listed).1)
  simp [Strict.ofBody, tree.strict_returns inside, reports, Report.ofBody?, List.findSome?_map, Function.comp_def]

end IsTree

end Body

end NullReturns
