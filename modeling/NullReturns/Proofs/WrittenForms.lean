import NullReturns.Proofs.SpelledText
import NullReturns.Snapshot.Decoder
import Mathlib.Data.List.Nodup
import Mathlib.Data.String.Basic

/-! # Written forms and their decoders

A form says which values write an entry of a schema, and how a name that the schema does not know may be
added to such a value. A decoder fits a form if it gives back whatever the form writes, as long as it does
not nest too deep, and refuses every addition. Fitting is kept by lists, options, records and enumerations.
-/

namespace NullReturns.Snapshot

open Json

/-- How entries of a schema are written, and what adds an unknown name to them. -/
structure Form (α : Type) where
  Writes : α → Datum → Prop
  Adds : Datum → Datum → Prop

/-- The decoder gives back what the form writes, up to a depth, and refuses what has an unknown name more. -/
structure Form.Fits {α : Type} (form : Form α) (decoder : Decoder α) (limit : Nat) : Prop where
  reads : ∀ {value : α} {datum : Datum} {doc : Doc}, form.Writes value datum → datum.IsShown doc → datum.depth ≤ limit →
    ∀ {context : Context}, datum.depth ≤ context.depth → decoder context doc = .ok value
  refuses : ∀ {datum extended : Datum} {doc : Doc}, form.Adds datum extended → extended.IsShown doc →
    ∀ context, ∃ refusal, decoder context doc = .error refusal

namespace Form

variable {α : Type} {limit : Nat}

theorem Fits.mono {form : Form α} {decoder : Decoder α} {less : Nat} (fits : form.Fits decoder limit)
    (le : less ≤ limit) : form.Fits decoder less :=
  ⟨fun written shown shallow _ room => fits.reads written shown (Nat.le_trans shallow le) room,
    fun adds shown context => fits.refuses adds shown context⟩

/-! ## Scalars -/

/-- A form without objects. -/
def scalar (write : α → Datum → Prop) : Form α := ⟨write, fun _ _ => False⟩

def string : Form String := scalar fun value datum => datum = .string value

def bool : Form Bool := scalar fun value datum => datum = .bool value

/-- An unsigned number of 64 bits. -/
def offset : Form Nat := scalar fun value datum => value < 2 ^ 64 ∧ datum = .integer value

/-- A signed number of 64 bits. -/
def integer : Form Int := scalar fun value datum => -(2 ^ 63) ≤ value ∧ value < 2 ^ 63 ∧ datum = .integer value

/-- A text of one character. -/
def char : Form Char := scalar fun value datum => datum = .string (String.singleton value)

theorem fits_string : string.Fits Decoder.string limit where
  reads := by
    rintro value _ doc rfl ⟨start, skip, after, rfl⟩ _ context _
    rfl
  refuses := by
    rintro _ _ _ ⟨⟩

theorem fits_bool : bool.Fits Decoder.bool limit where
  reads := by
    rintro value _ doc rfl ⟨start, after, rfl⟩ _ context _
    rfl
  refuses := by
    rintro _ _ _ ⟨⟩

theorem fits_offset : offset.Fits Decoder.offset limit where
  reads := by
    rintro value _ doc ⟨small, rfl⟩ ⟨start, number, skip, after, rfl, natural, _⟩ _ context _
    rw [natural value rfl small]
    rfl
  refuses := by
    rintro _ _ _ ⟨⟩

theorem fits_integer : integer.Fits Decoder.integer limit where
  reads := by
    rintro value _ doc ⟨low, high, rfl⟩ ⟨start, number, skip, after, rfl, natural, negative⟩ _ context _
    by_cases below : value < 0
    · rw [negative below low]
      rfl
    · obtain ⟨value, rfl⟩ := Int.eq_ofNat_of_zero_le (Int.not_lt.mp below)
      rw [natural value rfl (by omega), Decoder.integer, if_pos (by omega)]
  refuses := by
    rintro _ _ _ ⟨⟩

theorem fits_char : char.Fits Decoder.char limit where
  reads := by
    rintro value _ doc rfl ⟨start, skip, after, rfl⟩ _ context _
    simp [Decoder.char]
  refuses := by
    rintro _ _ _ ⟨⟩

/-! ## Options -/

/-- Nothing is written as `null`. -/
def option (form : Form α) : Form (Option α) where
  Writes value datum :=
    match value with
    | none => datum = .null
    | some value => form.Writes value datum
  Adds := form.Adds

/-- The form has no use for `null`. -/
def IsSolid (form : Form α) : Prop :=
  (∀ value, ¬ form.Writes value .null) ∧ ∀ datum, ¬ form.Adds datum .null

private theorem optional_eq {decoder : Decoder α} {datum : Datum} {doc : Doc} (shown : datum.IsShown doc)
    (present : datum ≠ .null) (context : Context) :
    Decoder.optional decoder context doc = (decoder context doc).map some := by
  cases datum with
  | null => contradiction
  | bool value =>
    obtain ⟨_, _, rfl⟩ := shown
    rfl
  | integer value =>
    obtain ⟨_, _, _, _, rfl, _⟩ := shown
    rfl
  | decimal literal =>
    obtain ⟨_, _, _, _, rfl⟩ := shown
    rfl
  | string text =>
    obtain ⟨_, _, _, rfl⟩ := shown
    rfl
  | array items =>
    obtain ⟨_, _, _, rfl, _⟩ := shown
    rfl
  | object members =>
    obtain ⟨_, _, _, rfl, _⟩ := shown
    rfl

theorem Fits.option {form : Form α} {decoder : Decoder α} (fits : form.Fits decoder limit) (solid : form.IsSolid) :
    form.option.Fits (Decoder.optional decoder) limit where
  reads := by
    intro value datum doc written shown shallow context room
    cases value with
    | none =>
      obtain rfl := written
      obtain ⟨_, _, rfl⟩ := shown
      rfl
    | some value =>
      have present : datum ≠ .null := by
        rintro rfl
        exact solid.1 value written
      rw [optional_eq shown present, fits.reads written shown shallow room]
      rfl
  refuses := by
    intro datum extended doc adds shown context
    have present : extended ≠ .null := by
      rintro rfl
      exact solid.2 datum adds
    obtain ⟨refusal, refused⟩ := fits.refuses adds shown context
    exact ⟨refusal, by rw [optional_eq shown present, refused]; rfl⟩

/-! ## Lists -/

/-- An array of what `form` writes. -/
def list (form : Form α) : Form (List α) where
  Writes values datum := ∃ items, datum = .array items ∧ List.Forall₂ form.Writes values items
  Adds datum extended := ∃ before item item' after, datum = .array (before ++ item :: after) ∧
    extended = .array (before ++ item' :: after) ∧ form.Adds item item'

private theorem noFurtherItem?_eq_none {γ : Type} {gap : Gap} {rest : List γ}
    (separates : gap.Separates rest [.quote, .other]) :
    Decoder.noFurtherItem? gap = none := by
  cases rest with
  | nil =>
    rw [Gap.Separates] at separates
    rw [Decoder.noFurtherItem?, separates]
  | cons entry rest =>
    obtain ⟨after, next, turn, listed⟩ := separates
    rw [Decoder.noFurtherItem?, turn]
    simp only [List.mem_cons, List.not_mem_nil, or_false] at listed
    rcases listed with rfl | rfl <;> rfl

/-- The first item is read, and then the others. -/
theorem itemsFrom_cons {decoder : Decoder α} {γ : Type} {gap : Gap} {rest : List γ}
    (separates : gap.Separates rest [.quote, .other]) (context : Context) (i : Nat) (doc : Doc) (more : Items) :
    ∃ inner : Context, inner.depth = context.depth ∧ Decoder.itemsFrom decoder context i (.cons doc gap more) =
      (decoder inner doc).bind fun first => (Decoder.itemsFrom decoder context (i + 1) more).map (first :: ·) := by
  refine ⟨{ context.inside (.index i) with landing := Decoder.itemLanding gap }, rfl, ?_⟩
  simp only [Decoder.itemsFrom, noFurtherItem?_eq_none separates]
  rfl

section

variable {form : Form α} {decoder : Decoder α} (fits : form.Fits decoder limit)
include fits

private theorem itemsFrom_reads {values : List α} {items : List Datum} (written : List.Forall₂ form.Writes values items)
    {context : Context} {docs : Items} (shown : Datum.ItemsShown items docs)
    (shallow : Datum.depthOfItems items ≤ limit) (room : Datum.depthOfItems items ≤ context.depth) (i : Nat) :
    Decoder.itemsFrom decoder context i docs = .ok values := by
  induction written generalizing docs i with
  | nil =>
    obtain rfl := shown
    rfl
  | cons here _ ih =>
    obtain ⟨doc, gap, more, rfl, own, separates, others⟩ := shown
    rw [Datum.depthOfItems, Nat.max_le] at shallow room
    obtain ⟨inner, depth, step⟩ := itemsFrom_cons separates context i doc more
    rw [step, fits.reads here own shallow.1 (depth ▸ room.1), Except.bind, ih others shallow.2 room.2]
    rfl

private theorem itemsFrom_refuses {item item' : Datum} (adds : form.Adds item item') {before after : List Datum}
    {context : Context} {docs : Items} (shown : Datum.ItemsShown (before ++ item' :: after) docs) (i : Nat) :
    ∃ refusal, Decoder.itemsFrom decoder context i docs = .error refusal := by
  induction before generalizing docs i with
  | nil =>
    obtain ⟨doc, gap, more, rfl, own, separates, _⟩ := shown
    obtain ⟨inner, _, step⟩ := itemsFrom_cons separates context i doc more
    obtain ⟨refusal, refused⟩ := fits.refuses adds own inner
    exact ⟨refusal, by rw [step, refused]; rfl⟩
  | cons first before ih =>
    obtain ⟨doc, gap, more, rfl, _, separates, others⟩ := shown
    obtain ⟨inner, _, step⟩ := itemsFrom_cons separates context i doc more
    rw [step]
    cases decoder inner doc with
    | error refusal => exact ⟨refusal, rfl⟩
    | ok value =>
      obtain ⟨refusal, refused⟩ := ih others (i + 1)
      exact ⟨refusal, by rw [Except.bind, refused]; rfl⟩

end

/-- Going into an array or object takes one level. -/
theorem enter_eq {β : Type} {context : Context} {depth : Nat} (room : depth + 1 ≤ context.depth) (start : Position)
    (go : Context → Except Refusal β) :
    ∃ inner : Context, depth ≤ inner.depth ∧ context.enter start go = go inner := by
  cases left : context.depth with
  | zero => omega
  | succ rest => exact ⟨{ context with depth := rest }, by simp only; omega, by rw [Context.enter, left]⟩

/-- What fails inside an array or object fails as a whole. -/
theorem enter_error {β : Type} (context : Context) (start : Position) {go : Context → Except Refusal β}
    (refuses : ∀ inner, ∃ refusal, go inner = .error refusal) :
    ∃ refusal, context.enter start go = .error refusal := by
  cases left : context.depth with
  | zero => exact ⟨_, by rw [Context.enter, left]; rfl⟩
  | succ rest =>
    obtain ⟨refusal, refused⟩ := refuses { context with depth := rest }
    exact ⟨refusal, by rw [Context.enter, left]; exact refused⟩

private theorem sequence_eq {decoder : Decoder α} {lead : Gap} (lasts : lead.turn ≠ .ended) (context : Context)
    (start : Position) (docs : Items) :
    Decoder.sequence decoder context (.array start lead docs) =
      context.enter start fun context => Decoder.itemsFrom decoder context 0 docs := by
  rw [Decoder.sequence]
  congr 1
  funext context
  split
  · contradiction
  · rfl

theorem Fits.list {form : Form α} {decoder : Decoder α} (fits : form.Fits decoder limit) :
    form.list.Fits (Decoder.sequence decoder) (limit + 1) where
  reads := by
    rintro values _ doc ⟨items, rfl, written⟩ ⟨start, lead, docs, rfl, lasts, shown⟩ shallow context room
    rw [Datum.depth] at shallow room
    obtain ⟨inner, within, entered⟩ := enter_eq room start fun context => Decoder.itemsFrom decoder context 0 docs
    rw [sequence_eq lasts, entered]
    exact itemsFrom_reads fits written shown (Nat.le_of_succ_le_succ shallow) within 0
  refuses := by
    rintro _ _ doc ⟨before, item, item', after, rfl, rfl, adds⟩ ⟨start, lead, docs, rfl, lasts, shown⟩ context
    rw [sequence_eq lasts]
    exact enter_error context start fun inner => itemsFrom_refuses fits adds shown 0

/-! ## Objects -/

private theorem noFurtherMember?_eq_none {γ : Type} {gap : Gap} {rest : List γ}
    (separates : gap.Separates rest [.quote]) :
    Decoder.noFurtherMember? gap = none := by
  cases rest with
  | nil =>
    rw [Gap.Separates] at separates
    rw [Decoder.noFurtherMember?, separates]
  | cons entry rest =>
    obtain ⟨after, next, turn, listed⟩ := separates
    obtain rfl := List.mem_singleton.mp listed
    rw [Decoder.noFurtherMember?, turn]

section

variable {σ : Type} {accept : σ → Key → String → Except Refusal (Context → Doc → Except Refusal σ)}

/-- The first member is accepted and read, and then come the others. -/
theorem fold_cons {γ : Type} {key : Key} {name : String} (named : key.name = .ok name) (colon : key.colon = none)
    {gap : Gap} {rest : List γ} (separates : gap.Separates rest [.quote]) (context : Context) (state : σ) (doc : Doc)
    (more : Members) :
    ∃ inner : Context, inner.depth = context.depth ∧ Decoder.fold context accept state (.cons key doc gap more) =
      (accept state key name).bind fun read => (read inner doc).bind fun state =>
        Decoder.fold context accept state more := by
  refine ⟨{ context.inside (.key name) with landing := Decoder.memberLanding gap }, rfl, ?_⟩
  simp only [Decoder.fold, named, colon, noFurtherMember?_eq_none separates]
  rfl

/-- A member that is refused in every state makes the object fail. -/
theorem fold_refuses {name : String} {datum : Datum}
    (stops : ∀ state key, ∀ doc, datum.IsShown doc → ∀ inner, ∃ refusal,
      ((accept state key name).bind fun read => read inner doc) = .error refusal)
    {before after : List (String × Datum)} (context : Context) (state : σ) {docs : Members}
    (shown : Datum.MembersShown (before ++ (name, datum) :: after) docs) :
    ∃ refusal, Decoder.fold context accept state docs = .error refusal := by
  induction before generalizing docs state with
  | nil =>
    obtain ⟨key, doc, gap, more, rfl, named, colon, own, separates, _⟩ := shown
    obtain ⟨inner, _, step⟩ := @fold_cons _ accept _ _ _ named colon _ _ separates context state doc more
    obtain ⟨refusal, refused⟩ := stops state key doc own inner
    rw [step]
    cases accepted : accept state key name with
    | error refusal => exact ⟨refusal, rfl⟩
    | ok read =>
      rw [accepted, Except.bind] at refused
      exact ⟨refusal, by rw [Except.bind, refused]; rfl⟩
  | cons first before ih =>
    obtain ⟨key, doc, gap, more, rfl, named, colon, _, separates, others⟩ := shown
    obtain ⟨inner, _, step⟩ := @fold_cons _ accept _ _ _ named colon _ _ separates context state doc more
    rw [step]
    cases accept state key first.1 with
    | error refusal => exact ⟨refusal, rfl⟩
    | ok read =>
      rw [Except.bind]
      cases read inner doc with
      | error refusal => exact ⟨refusal, rfl⟩
      | ok state => exact ih state others

end

private theorem members_eq {σ : Type} {expected : String} {initial : σ}
    {accept : Context → σ → Key → String → Except Refusal (Context → Doc → Except Refusal σ)}
    {finish : Context → Position → σ → Except Refusal σ} {lead : Gap} (lasts : lead.turn ≠ .ended) (context : Context)
    (start : Position) (docs : Members) :
    Decoder.members expected context initial accept finish (.object start lead docs) =
      context.enter start fun context => (Decoder.fold context (accept context) initial docs).bind
        (finish context (Decoder.members.closing lead docs)) := by
  rw [Decoder.members]
  congr 1
  funext context
  split
  · contradiction
  · rfl

/-! ## Maps -/

/-- An object from names to texts. The entries are in the order of their names, the members in any order. -/
def texts : Form (List (String × String)) :=
  scalar fun entries datum => entries.Pairwise (·.1 < ·.1) ∧ ∃ members : List (String × String),
    members.Perm entries ∧ datum = .object (members.map fun member => (member.1, .string member.2))

private theorem insertEntry_perm {key : String} (value : String) {entries : List (String × String)}
    (fresh : key ∉ entries.map (·.1)) : (Decoder.insertEntry key value entries).Perm ((key, value) :: entries) := by
  induction entries with
  | nil => exact .refl _
  | cons entry rest ih =>
    rw [List.map_cons, List.mem_cons, not_or] at fresh
    rw [Decoder.insertEntry, if_neg fresh.1]
    split
    · exact .refl _
    · exact ((ih fresh.2).cons entry).trans (.swap _ _ _)

private theorem insertEntry_sorted {key : String} (value : String) {entries : List (String × String)}
    (fresh : key ∉ entries.map (·.1)) (sorted : entries.Pairwise (·.1 < ·.1)) :
    (Decoder.insertEntry key value entries).Pairwise (·.1 < ·.1) := by
  induction entries with
  | nil => exact List.pairwise_singleton _ _
  | cons entry rest ih =>
    obtain ⟨least, others⟩ := List.pairwise_cons.mp sorted
    rw [List.map_cons, List.mem_cons, not_or] at fresh
    rw [Decoder.insertEntry, if_neg fresh.1]
    split_ifs with before
    · refine List.pairwise_cons.mpr ⟨fun other listed => ?_, sorted⟩
      rcases List.mem_cons.mp listed with rfl | later
      · exact before
      · exact lt_trans before (least other later)
    · refine List.pairwise_cons.mpr ⟨fun other listed => ?_, ih fresh.2 others⟩
      rcases List.mem_cons.mp ((insertEntry_perm value fresh.2).mem_iff.mp listed) with rfl | later
      · exact lt_of_le_of_ne (le_of_not_gt before) (Ne.symm fresh.1)
      · exact least other later

/-- How `Decoder.texts` deals with a member. -/
def putText (entries : List (String × String)) (_ : Key) (name : String) :
    Except Refusal (Context → Doc → Except Refusal (List (String × String))) :=
  .ok fun context value => do return Decoder.insertEntry name (← Decoder.string context value) entries

private theorem fold_putText {members : List (String × String)} {context : Context} {docs : Members}
    (shown : Datum.MembersShown (members.map fun member => (member.1, .string member.2)) docs)
    {entries : List (String × String)} (sorted : entries.Pairwise (·.1 < ·.1))
    (distinct : ((members ++ entries).map (·.1)).Nodup) :
    ∃ result : List (String × String), Decoder.fold context putText entries docs = .ok result ∧
      result.Pairwise (·.1 < ·.1) ∧ result.Perm (members ++ entries) := by
  induction members generalizing entries docs with
  | nil =>
    obtain rfl := shown
    exact ⟨entries, rfl, sorted, .refl _⟩
  | cons member rest ih =>
    obtain ⟨key, doc, gap, more, rfl, named, colon, ⟨start, skip, after, rfl⟩, separates, others⟩ := shown
    rw [List.cons_append, List.map_cons, List.nodup_cons] at distinct
    obtain ⟨fresh, apart⟩ := distinct
    have unused : member.1 ∉ entries.map (·.1) := fun listed =>
      fresh (by rw [List.map_append]; exact List.mem_append_right _ listed)
    have inserted := insertEntry_perm member.2 unused
    have moved : (rest ++ Decoder.insertEntry member.1 member.2 entries).Perm (member :: (rest ++ entries)) :=
      (inserted.append_left rest).trans List.perm_middle
    have still : ((rest ++ Decoder.insertEntry member.1 member.2 entries).map (·.1)).Nodup := by
      rw [(moved.map _).nodup_iff]
      exact List.nodup_cons.mpr ⟨fresh, apart⟩
    obtain ⟨result, folded, ordered, same⟩ := ih others (insertEntry_sorted member.2 unused sorted) still
    obtain ⟨inner, _, step⟩ := @fold_cons _ putText _ _ _ named colon _ _ separates context entries
      (.string start (.ok member.2) skip after) more
    refine ⟨result, ?_, ordered, same.trans moved⟩
    rw [step]
    exact folded

theorem fits_texts : texts.Fits Decoder.texts limit where
  reads := by
    rintro entries _ doc ⟨sorted, members, same, rfl⟩ ⟨start, lead, docs, rfl, lasts, shown⟩ _ context room
    rw [Datum.depth] at room
    have distinct : (members.map (·.1)).Nodup := by
      rw [(same.map _).nodup_iff, List.Nodup, List.pairwise_map]
      exact sorted.imp ne_of_lt
    rw [Decoder.texts, members_eq lasts]
    obtain ⟨inner, _, entered⟩ := enter_eq room start fun context =>
      (Decoder.fold context putText [] docs).bind Except.ok
    obtain ⟨result, folded, ordered, permuted⟩ :=
      @fold_putText members inner docs shown [] .nil (by rwa [List.append_nil])
    rw [List.append_nil] at permuted
    have equal : result = entries := by
      refine List.Perm.eq_of_pairwise (fun first second _ _ less more => ?_) ordered sorted (permuted.trans same)
      exact absurd less (lt_asymm more)
    refine entered.trans ?_
    rw [folded, equal]
    rfl
  refuses := by
    rintro _ _ _ ⟨⟩

/-! ## Enumerations -/

/-- Values that hold nothing are written by their names. -/
def named (name : α → String) : Form α := scalar fun value datum => datum = .string (name value)

theorem fits_named {name : α → String} {choices : List (String × Decoder.Case α)}
    (listed : ∀ value, choices.lookup (name value) = some (.bare value)) :
    (named name).Fits (Decoder.enumeration choices) limit where
  reads := by
    rintro value _ doc rfl ⟨start, skip, after, rfl⟩ _ context _
    simp only [Decoder.enumeration, listed]
  refuses := by
    rintro _ _ _ ⟨⟩

/-- A form for what is wrapped. -/
def wrapped {β : Type} (wrap : β → α) (form : Form β) : Form α where
  Writes value datum := ∃ content, value = wrap content ∧ form.Writes content datum
  Adds := form.Adds

theorem Fits.wrapped {β : Type} {form : Form β} {decoder : Decoder β} (fits : form.Fits decoder limit) (wrap : β → α) :
    (form.wrapped wrap).Fits (fun context doc => (decoder context doc).map wrap) limit where
  reads := by
    rintro _ datum doc ⟨content, rfl, written⟩ shown shallow context room
    rw [fits.reads written shown shallow room]
    rfl
  refuses := by
    intro datum extended doc adds shown context
    obtain ⟨refusal, refused⟩ := fits.refuses adds shown context
    exact ⟨refusal, by rw [refused]; rfl⟩

/-- A case is its bare name, or an object that has what it holds under its name and nothing else. -/
def cases (bare : List (String × α)) (payloads : List (String × Form α)) : Form α where
  Writes value datum := (∃ name, (name, value) ∈ bare ∧ datum = .string name) ∨
    ∃ name form content, (name, form) ∈ payloads ∧ form.Writes value content ∧ datum = .object [(name, content)]
  Adds datum extended := ∃ member other, datum = .object [member] ∧
    (extended = .object [member, other] ∨ extended = .object [other, member])

/-- An object with two members is no case. -/
theorem enumeration_refuses (choices : List (String × Decoder.Case α)) {first second : String × Datum} {doc : Doc}
    (shown : (Datum.object [first, second]).IsShown doc) (context : Context) :
    ∃ refusal, Decoder.enumeration choices context doc = .error refusal := by
  obtain ⟨start, lead, docs, rfl, _, key, value, gap, more, rfl, named, colon, _, ⟨after, next, turn, _⟩, _⟩ := shown
  simp only [Decoder.enumeration, named, colon, turn]
  refine enter_error context start fun inner => ?_
  cases choices.lookup first.1 with
  | none => exact ⟨_, rfl⟩
  | some choice =>
    cases choice with
    | bare result =>
      simp only
      cases Decoder.unit _ value with
      | error refusal => exact ⟨refusal, rfl⟩
      | ok _ => exact ⟨_, rfl⟩
    | payload read =>
      simp only
      cases read _ value with
      | error refusal => exact ⟨refusal, rfl⟩
      | ok _ => exact ⟨_, rfl⟩

theorem fits_cases {bare : List (String × α)} {payloads : List (String × Form α)}
    {choices : List (String × Decoder.Case α)} (named : ∀ entry ∈ bare, choices.lookup entry.1 = some (.bare entry.2))
    (held : ∀ entry ∈ payloads, ∃ read, choices.lookup entry.1 = some (.payload read) ∧ entry.2.Fits read limit) :
    (cases bare payloads).Fits (Decoder.enumeration choices) (limit + 1) where
  reads := by
    rintro value datum doc (⟨name, listed, rfl⟩ | ⟨name, form, content, listed, written, rfl⟩) shown shallow
      context room
    · obtain ⟨start, skip, after, rfl⟩ := shown
      simp only [Decoder.enumeration, named _ listed]
    · obtain ⟨start, lead, docs, rfl, _, key, doc, gap, more, rfl, labelled, colon, own, turn, rfl⟩ := shown
      obtain ⟨read, found, fits⟩ := held _ listed
      rw [Gap.Separates] at turn
      rw [Datum.depth, Datum.depthOfMembers, Datum.depthOfMembers, Nat.max_zero] at shallow room
      simp only [Decoder.enumeration, labelled, colon, found, turn]
      obtain ⟨inner, within, entered⟩ := enter_eq room start fun context =>
        (read { context.inside (.case name) with landing := Decoder.memberLanding gap } doc).bind Except.ok
      have outcome : read ⟨inner.depth, .case name :: inner.path, Decoder.memberLanding gap⟩ doc = .ok value :=
        fits.reads written own (Nat.le_of_succ_le_succ shallow) within
      exact entered.trans (congrArg (Except.bind · Except.ok) outcome)
  refuses := by
    rintro _ _ doc ⟨member, other, _, rfl | rfl⟩ shown context
    · exact enumeration_refuses choices shown context
    · exact enumeration_refuses choices shown context

end Form

/-! ## Records -/

/-- A part of a record: its name, its value and how that is written, and the value that need not be written. -/
structure Part (α : Type) : Type 1 where
  {β : Type}
  name : String
  get : α → β
  form : Form β
  default? : Option β := none

/-- An object of the parts of a record in any order, without parts that have their default. -/
def Form.record {α : Type} (parts : List (Part α)) : Form α where
  Writes record datum := ∃ members, datum = .object members ∧ (members.map (·.1)).Nodup ∧
    (∀ member ∈ members, ∃ part ∈ parts, part.name = member.1 ∧ part.form.Writes (part.get record) member.2) ∧
    ∀ part ∈ parts, part.name ∉ members.map (·.1) → part.default? = some (part.get record)
  Adds datum extended := ∃ before after : List (String × Datum),
    (∃ member, member.1 ∉ parts.map (·.name) ∧ datum = .object (before ++ after) ∧
      extended = .object (before ++ member :: after)) ∨
    ∃ part ∈ parts, ∃ inner inner', part.form.Adds inner inner' ∧
      datum = .object (before ++ (part.name, inner) :: after) ∧
      extended = .object (before ++ (part.name, inner') :: after)

/-- A form whose objects may hold unknown names. -/
def Form.lenient {α : Type} (form : Form α) : Form α := ⟨form.Writes, fun _ _ => False⟩

variable {α : Type}

/-- The field stores what it reads in the part, and leaves the other parts as they are. -/
def Part.IsStored (part : Part α) (parts : List (Part α)) (limit : Nat) (field : Decoder.Field α) : Prop :=
  ∃ decoder store, field = Decoder.field part.name decoder store part.default?.isNone ∧ part.form.Fits decoder limit ∧
    (∀ record value, part.get (store record value) = value) ∧
    ∀ other ∈ parts, other.name ≠ part.name → ∀ record value, other.get (store record value) = other.get record

/-- The fields of the shape are those of the parts, and a record is nothing but its parts. -/
structure Decoder.Shape.IsMadeOf (shape : Decoder.Shape α) (parts : List (Part α)) (limit : Nat) : Prop where
  fields : List.Forall₂ (fun part field => part.IsStored parts limit field) parts shape.fields
  distinct : (parts.map (·.name)).Nodup
  blank : ∀ part ∈ parts, ∀ value, part.default? = some value → part.get shape.blank = value
  ext : ∀ record other, (∀ part ∈ parts, part.get record = part.get other) → record = other

/-- How a record deals with a member of an object. -/
def Decoder.Shape.take (shape : Decoder.Shape α) (context : Context) (state : α × List String) (key : Key)
    (name : String) : Except Refusal (Context → Doc → Except Refusal (α × List String)) :=
  match shape.fields.find? (·.name == name) with
  | some field =>
    if state.2.contains name then context.refuse (.repeatedField name) key.landing
    else .ok fun inner value => do return (← field.read inner value state.1, name :: state.2)
  | none =>
    if shape.isOpen then
      .ok fun inner value =>
        match value.skip? with
        | some stop => inner.halt stop
        | none => .ok state
    else
      (context.inside (.key name)).refuse (.unknownField name (shape.fields.map (·.name))) key.landing

private theorem decoder_object {shape : Decoder.Shape α} {lead : Gap} (lasts : lead.turn ≠ .ended) (context : Context)
    (start : Position) (docs : Members) :
    shape.decoder context (.object start lead docs) =
      (context.enter start fun context => (Decoder.fold context (shape.take context) (shape.blank, []) docs).bind
        fun state =>
          match shape.firstMissing? state.2 with
          | some name => context.refuse (.missingField name) (Decoder.members.closing lead docs)
          | none => .ok state).map (·.1) := by
  rw [Decoder.Shape.decoder, Decoder.Shape.ofObject, Form.members_eq lasts]
  · rfl
  · intros
    contradiction

/-- A member that is refused in every state makes the record fail. -/
theorem decoder_refuses {shape : Decoder.Shape α} {name : String} {datum : Datum}
    (stops : ∀ context state key, ∀ doc, datum.IsShown doc → ∀ inner, ∃ refusal,
      ((shape.take context state key name).bind fun read => read inner doc) = .error refusal)
    {before after : List (String × Datum)} {doc : Doc}
    (shown : (Datum.object (before ++ (name, datum) :: after)).IsShown doc) (context : Context) :
    ∃ refusal, shape.decoder context doc = .error refusal := by
  obtain ⟨start, lead, docs, rfl, lasts, shown⟩ := shown
  rw [decoder_object lasts]
  obtain ⟨refusal, refused⟩ := Form.enter_error context start fun inner => by
    obtain ⟨refusal, refused⟩ := Form.fold_refuses (stops inner) inner (shape.blank, []) shown
    exact ⟨refusal, congrArg (Except.bind · fun state =>
      match shape.firstMissing? state.2 with
      | some name => inner.refuse (.missingField name) (Decoder.members.closing lead docs)
      | none => .ok state) refused⟩
  exact ⟨refusal, congrArg (Except.map (·.1)) refused⟩

/-- A field stands under the name of its part. -/
theorem find_of_forall₂ {related : Part α → Decoder.Field α → Prop}
    (same : ∀ part field, related part field → field.name = part.name) {parts : List (Part α)}
    {fields : List (Decoder.Field α)} (paired : List.Forall₂ related parts fields)
    (distinct : (parts.map (·.name)).Nodup) {part : Part α} (listed : part ∈ parts) :
    ∃ field, fields.find? (·.name == part.name) = some field ∧ related part field := by
  induction paired with
  | nil => cases listed
  | @cons first field parts fields pair _ ih =>
    rw [List.map_cons, List.nodup_cons] at distinct
    rcases List.mem_cons.mp listed with rfl | later
    · exact ⟨field, by rw [List.find?_cons_of_pos (by simp [same _ _ pair])], pair⟩
    · have apart : field.name ≠ part.name := by
        rw [same _ _ pair]
        intro equal
        exact distinct.1 (equal ▸ List.mem_map_of_mem later)
      obtain ⟨found, search, holds⟩ := ih distinct.2 later
      exact ⟨found, by rw [List.find?_cons_of_neg (by simpa using apart), search], holds⟩

private theorem find_eq_none_of_forall₂ {related : Part α → Decoder.Field α → Prop}
    (same : ∀ part field, related part field → field.name = part.name) {parts : List (Part α)}
    {fields : List (Decoder.Field α)} (paired : List.Forall₂ related parts fields) {name : String}
    (unknown : name ∉ parts.map (·.name)) : fields.find? (·.name == name) = none := by
  induction paired with
  | nil => rfl
  | @cons first field parts fields pair _ ih =>
    rw [List.map_cons, List.mem_cons, not_or] at unknown
    rw [List.find?_cons_of_neg (by simpa [same _ _ pair] using Ne.symm unknown.1), ih unknown.2]

namespace Part

private theorem IsStored.name_eq {parts : List (Part α)} {limit : Nat} {part : Part α} {field : Decoder.Field α}
    (stored : part.IsStored parts limit field) : field.name = part.name := by
  obtain ⟨decoder, store, rfl, _⟩ := stored
  rfl

end Part

namespace Decoder.Shape.IsMadeOf

variable {shape : Decoder.Shape α} {parts : List (Part α)} {limit : Nat} (made : shape.IsMadeOf parts limit)
include made

/-- The members of a written record are read into their parts, and the other parts are left alone. -/
theorem fold_take {record : α} {members : List (String × Datum)} {context : Context} {docs : Members}
    (shown : Datum.MembersShown members docs)
    (written : ∀ member ∈ members, ∃ part ∈ parts, part.name = member.1 ∧ part.form.Writes (part.get record) member.2)
    (once : (members.map (·.1)).Nodup) (shallow : Datum.depthOfMembers members ≤ limit)
    (room : Datum.depthOfMembers members ≤ context.depth) {current : α} {seen : List String}
    (fresh : ∀ name ∈ members.map (·.1), name ∉ seen) :
    ∃ result, Decoder.fold context (shape.take context) (current, seen) docs =
        .ok (result, (members.map (·.1)).reverse ++ seen) ∧
      ∀ part ∈ parts,
        part.get result = if part.name ∈ members.map (·.1) then part.get record else part.get current := by
  induction members generalizing docs current seen with
  | nil =>
    obtain rfl := shown
    exact ⟨current, rfl, fun part _ => by simp⟩
  | cons member rest ih =>
    obtain ⟨key, doc, gap, more, rfl, named, colon, own, separates, others⟩ := shown
    rw [List.forall_mem_cons] at written
    rw [Datum.depthOfMembers, Nat.max_le] at shallow room
    rw [List.map_cons, List.nodup_cons] at once
    rw [List.map_cons, List.forall_mem_cons] at fresh
    obtain ⟨⟨part, listed, name, content⟩, later⟩ := written
    obtain ⟨field, found, decoder, store, rfl, fits, stored, frame⟩ :=
      find_of_forall₂ (fun _ _ stored => stored.name_eq) made.fields made.distinct listed
    obtain ⟨inner, depth, step⟩ :=
      @Form.fold_cons _ (shape.take context) _ _ _ named colon _ _ separates context (current, seen) doc more
    have read := fits.reads content own shallow.1 (depth ▸ room.1)
    have taken : shape.take context (current, seen) key member.1 =
        .ok fun inner value => do return (← (decoder inner value).map (store current), member.1 :: seen) := by
      rw [name] at found
      simp only [take, found, field]
      rw [if_neg (by simpa using fresh.1)]
    have unseen : ∀ name ∈ rest.map (·.1), name ∉ member.1 :: seen := by
      intro name listed
      rw [List.mem_cons, not_or]
      exact ⟨fun equal => once.1 (equal ▸ listed), fresh.2 name listed⟩
    obtain ⟨result, folded, agrees⟩ :=
      @ih _ others later once.2 shallow.2 room.2 (store current (part.get record)) (member.1 :: seen) unseen
    refine ⟨result, ?_, fun other listed' => ?_⟩
    · simp only [step, taken, Except.bind, read, Except.map]
      rw [List.map_cons, List.reverse_cons, List.append_assoc, List.singleton_append]
      exact folded
    · rw [agrees other listed']
      by_cases same : other.name = part.name
      · obtain rfl := List.inj_on_of_nodup_map made.distinct listed' listed same
        rw [name, if_neg once.1, List.map_cons, if_pos List.mem_cons_self, stored]
      · rw [frame other listed' same]
        simp only [List.map_cons, List.mem_cons, ← name, same, false_or]

/-- No field is missing when those that are not seen have a default. -/
theorem firstMissing?_eq_none {seen : List String}
    (rest : ∀ part ∈ parts, part.name ∉ seen → part.default?.isSome) : shape.firstMissing? seen = none := by
  rw [firstMissing?, Option.map_eq_none_iff, List.find?_eq_none]
  intro found listed
  obtain ⟨i, rfl⟩ := List.get_of_mem listed
  have within : i < parts.length := by
    rw [made.fields.length_eq]
    exact i.isLt
  have known := List.get_mem parts ⟨i, within⟩
  have stored := made.fields.get within i.isLt
  generalize parts.get ⟨i, within⟩ = part at known stored
  obtain ⟨decoder, store, own, _⟩ := stored
  rw [own]
  by_cases present : part.name ∈ seen
  · simp [field, present]
  · simp [field, Option.isNone_eq_false_iff.mpr (rest part known present)]

theorem reads {record : α} {datum : Datum} {doc : Doc} (written : (Form.record parts).Writes record datum)
    (shown : datum.IsShown doc) (shallow : datum.depth ≤ limit + 1) {context : Context}
    (room : datum.depth ≤ context.depth) : shape.decoder context doc = .ok record := by
  obtain ⟨members, rfl, once, known, omitted⟩ := written
  obtain ⟨start, lead, docs, rfl, lasts, shown⟩ := shown
  rw [Datum.depth] at shallow room
  rw [decoder_object lasts]
  obtain ⟨inner, within, entered⟩ := Form.enter_eq room start fun context =>
    (Decoder.fold context (shape.take context) (shape.blank, []) docs).bind fun state =>
      match shape.firstMissing? state.2 with
      | some name => context.refuse (.missingField name) (Decoder.members.closing lead docs)
      | none => .ok state
  obtain ⟨result, folded, agrees⟩ := @fold_take _ _ _ _ made record members inner docs shown known once
    (Nat.le_of_succ_le_succ shallow) within shape.blank [] (fun _ _ => List.not_mem_nil)
  have complete : shape.firstMissing? ((members.map (·.1)).reverse ++ []) = none := by
    refine made.firstMissing?_eq_none fun part listed unseen => ?_
    rw [List.append_nil, List.mem_reverse] at unseen
    rw [omitted part listed unseen, Option.isSome_some]
  have same : result = record := by
    refine made.ext result record fun part listed => ?_
    rw [agrees part listed]
    split
    · rfl
    · rename_i absent
      exact made.blank part listed _ (omitted part listed absent)
  rw [entered, folded, same]
  simp only [Except.bind, complete]
  rfl

/-- An unknown name, or one more unknown name in a part, makes the record fail. -/
theorem refuses (closed : shape.isOpen = false) {datum extended : Datum} {doc : Doc}
    (adds : (Form.record parts).Adds datum extended) (shown : extended.IsShown doc) (context : Context) :
    ∃ refusal, shape.decoder context doc = .error refusal := by
  obtain ⟨before, after, ⟨member, unknown, _, rfl⟩ | ⟨part, listed, inner, inner', adds, _, rfl⟩⟩ := adds
  · refine decoder_refuses (fun context state key doc _ inner => ?_) shown context
    have missing := find_eq_none_of_forall₂ (fun _ _ stored => stored.name_eq) made.fields unknown
    simp only [take, missing, closed]
    exact ⟨_, rfl⟩
  · refine decoder_refuses (fun context state key doc own inner => ?_) shown context
    obtain ⟨field, found, decoder, store, rfl, fits, _⟩ :=
      find_of_forall₂ (fun _ _ stored => stored.name_eq) made.fields made.distinct listed
    obtain ⟨refusal, refused⟩ := fits.refuses adds own inner
    simp only [take, found]
    split
    · exact ⟨_, rfl⟩
    · refine ⟨refusal, ?_⟩
      simp only [Except.bind, field, refused]
      rfl

theorem fits (closed : shape.isOpen = false) : (Form.record parts).Fits shape.decoder (limit + 1) :=
  ⟨fun written shown shallow _ room => made.reads written shown shallow room,
    fun adds shown context => made.refuses closed adds shown context⟩

theorem fits_lenient : (Form.record parts).lenient.Fits shape.decoder (limit + 1) :=
  ⟨fun written shown shallow _ room => made.reads written shown shallow room, fun adds => adds.elim⟩

end Decoder.Shape.IsMadeOf

/-! ## Members added anywhere -/

namespace Form

/-- A new name is an addition in whatever object of a written value it comes, the open ones excepted. -/
def Notices (form : Form α) (key : String) (openNames : List String) : Prop :=
  ∀ value datum extended, form.Writes value datum → datum.Gains key openNames extended → form.Adds datum extended

variable {key : String} {openNames : List String}

theorem notices_string : string.Notices key openNames := by
  rintro value _ extended rfl ⟨⟩

theorem notices_bool : bool.Notices key openNames := by
  rintro value _ extended rfl ⟨⟩

theorem notices_named {name : α → String} : (named name).Notices key openNames := by
  rintro value _ extended rfl ⟨⟩

theorem notices_integer : integer.Notices key openNames := by
  rintro value _ extended ⟨_, _, rfl⟩ ⟨⟩

theorem notices_char : char.Notices key openNames := by
  rintro value _ extended rfl ⟨⟩

theorem Notices.option {form : Form α} (notices : form.Notices key openNames) : form.option.Notices key openNames := by
  intro value datum extended written gains
  cases value with
  | none =>
    obtain rfl := written
    cases gains
  | some value => exact notices value datum extended written gains

theorem Notices.list {form : Form α} (notices : form.Notices key openNames) : form.list.Notices key openNames := by
  rintro values _ extended ⟨items, rfl, written⟩ gains
  cases gains with
  | @item before after item item' inner =>
    obtain ⟨value, _, here, _⟩ := List.forall₂_cons_right_iff.mp (List.forall₂_drop_append _ _ _ written)
    exact ⟨before, item, item', after, rfl, rfl, notices value item item' here inner⟩

theorem Notices.wrapped {β : Type} {form : Form β} (notices : form.Notices key openNames) (wrap : β → α) :
    (form.wrapped wrap).Notices key openNames := by
  rintro _ datum extended ⟨content, rfl, written⟩ gains
  exact notices content datum extended written gains

/-- Where payloads have no objects, the only object of a case is the one with its name. -/
theorem notices_cases {bare : List (String × α)} {payloads : List (String × Form α)}
    (notices : ∀ entry ∈ payloads, entry.2.Notices key openNames)
    (flat : ∀ entry ∈ payloads, ∀ datum extended, ¬ entry.2.Adds datum extended) :
    (cases bare payloads).Notices key openNames := by
  rintro value datum extended (⟨name, _, rfl⟩ | ⟨name, form, content, listed, written, rfl⟩) gains
  · cases gains
  generalize whole : [(name, content)] = members at gains
  cases gains with
  | @here before after added =>
    refine ⟨(name, content), (key, added), by rw [whole], ?_⟩
    rcases List.append_eq_singleton_iff.mp whole.symm with ⟨rfl, rfl⟩ | ⟨rfl, rfl⟩
    · exact .inr rfl
    · exact .inl rfl
  | @member before after other own own' _ inner =>
    have only : (other, own) ∈ [(name, content)] := by
      rw [whole]
      exact List.mem_append_right _ List.mem_cons_self
    obtain ⟨rfl, rfl⟩ := Prod.mk.inj (List.mem_singleton.mp only)
    exact absurd (notices _ listed value own own' written inner) (flat _ listed own own')

theorem notices_record {parts : List (Part α)} (unknown : key ∉ parts.map (·.name))
    (each : ∀ part ∈ parts, part.name ∈ openNames ∨ part.form.Notices key openNames) :
    (record parts).Notices key openNames := by
  rintro value _ extended ⟨members, rfl, _, written, _⟩ gains
  cases gains with
  | @here before after added => exact ⟨before, after, .inl ⟨(key, added), unknown, rfl, rfl⟩⟩
  | @member before after name own own' closed inner =>
    obtain ⟨part, listed, rfl, content⟩ := written (name, own) (List.mem_append_right _ List.mem_cons_self)
    have notices := (each part listed).resolve_left closed
    exact ⟨before, after, .inr ⟨part, listed, own, own', notices _ own own' content inner, rfl, rfl⟩⟩

end Form

/-! ## What can be written -/

namespace Form

/-- Some text writes the value. -/
def Covers (form : Form α) (value : α) : Prop := ∃ datum text, form.Writes value datum ∧ datum.IsWritten text

theorem covers_string (value : String) : string.Covers value := by
  obtain ⟨quoted, named⟩ := exists_isQuoted value
  exact ⟨.string value, _, rfl, quoted, named, rfl⟩

theorem covers_bool (value : Bool) : bool.Covers value := ⟨.bool value, _, rfl, rfl⟩

theorem covers_offset {value : Nat} (small : value < 2 ^ 64) : offset.Covers value := by
  obtain ⟨text, written⟩ := Numeral.exists_isInteger value
  exact ⟨.integer value, text, ⟨small, rfl⟩, written⟩

theorem covers_integer {value : Int} (low : -(2 ^ 63) ≤ value) (high : value < 2 ^ 63) : integer.Covers value := by
  obtain ⟨text, written⟩ := Numeral.exists_isInteger value
  exact ⟨.integer value, text, ⟨low, high, rfl⟩, written⟩

theorem covers_char (value : Char) : char.Covers value := by
  obtain ⟨quoted, named⟩ := exists_isQuoted (String.singleton value)
  exact ⟨.string (String.singleton value), _, rfl, quoted, named, rfl⟩

theorem covers_named (name : α → String) (value : α) : (named name).Covers value := by
  obtain ⟨quoted, spelled⟩ := exists_isQuoted (name value)
  exact ⟨.string (name value), _, rfl, quoted, spelled, rfl⟩

theorem covers_option {form : Form α} {value : Option α} (each : ∀ content ∈ value, form.Covers content) :
    form.option.Covers value := by
  cases value with
  | none => exact ⟨.null, _, rfl, rfl⟩
  | some content => exact each content rfl

theorem covers_list {form : Form α} {values : List α} (each : ∀ value ∈ values, form.Covers value) :
    form.list.Covers values := by
  choose! datum text written spelled using each
  obtain ⟨inner, items⟩ : ∃ inner, Datum.ItemsWritten (values.map datum) inner := by
    refine Datum.exists_itemsWritten fun item listed => ?_
    obtain ⟨value, member, rfl⟩ := List.mem_map.mp listed
    exact ⟨text value, spelled value member⟩
  refine ⟨.array (values.map datum), _, ⟨_, rfl, ?_⟩, [], inner, Datum.isSpace_nil, items, rfl⟩
  rw [List.forall₂_map_right_iff]
  exact List.forall₂_same.mpr written

theorem covers_texts {entries : List (String × String)} (sorted : entries.Pairwise (·.1 < ·.1)) :
    texts.Covers entries := by
  obtain ⟨inner, members⟩ :
      ∃ inner, Datum.MembersWritten (entries.map fun entry => (entry.1, .string entry.2)) inner := by
    refine Datum.exists_membersWritten fun member listed => ?_
    obtain ⟨entry, _, rfl⟩ := List.mem_map.mp listed
    obtain ⟨quoted, named⟩ := exists_isQuoted entry.2
    exact ⟨_, quoted, named, rfl⟩
  exact ⟨_, _, ⟨sorted, entries, .refl _, rfl⟩, [], inner, Datum.isSpace_nil, members, rfl⟩

theorem covers_wrapped {β : Type} {form : Form β} {content : β} (covered : form.Covers content) (wrap : β → α) :
    (form.wrapped wrap).Covers (wrap content) := by
  obtain ⟨datum, text, written, spelled⟩ := covered
  exact ⟨datum, text, ⟨content, rfl, written⟩, spelled⟩

section

variable {bare : List (String × α)} {payloads : List (String × Form α)}

theorem covers_bare {name : String} {value : α} (listed : (name, value) ∈ bare) :
    (cases bare payloads).Covers value := by
  obtain ⟨quoted, named⟩ := exists_isQuoted name
  exact ⟨.string name, _, .inl ⟨name, listed, rfl⟩, quoted, named, rfl⟩

theorem covers_payload {name : String} {form : Form α} (listed : (name, form) ∈ payloads) {value : α}
    (covered : form.Covers value) : (cases bare payloads).Covers value := by
  obtain ⟨datum, text, written, spelled⟩ := covered
  obtain ⟨inner, members⟩ : ∃ inner, Datum.MembersWritten [(name, datum)] inner :=
    Datum.exists_membersWritten (List.forall_mem_singleton.mpr ⟨text, spelled⟩)
  exact ⟨_, _, .inr ⟨name, form, datum, listed, written, rfl⟩, [], inner, Datum.isSpace_nil, members, rfl⟩

end

/-- A record can be written if all its parts can, with none of them left out. -/
theorem covers_record {parts : List (Part α)} (distinct : (parts.map (·.name)).Nodup) {record : α}
    (each : ∀ part ∈ parts, part.form.Covers (part.get record)) : (Form.record parts).Covers record := by
  choose! datum text written spelled using each
  obtain ⟨inner, members⟩ : ∃ inner, Datum.MembersWritten (parts.map fun part => (part.name, datum part)) inner := by
    refine Datum.exists_membersWritten fun member listed => ?_
    obtain ⟨part, known, rfl⟩ := List.mem_map.mp listed
    exact ⟨text part, spelled part known⟩
  have names : (parts.map fun part => (part.name, datum part)).map (·.1) = parts.map (·.name) := by
    rw [List.map_map]
    rfl
  refine ⟨_, _, ⟨_, rfl, names ▸ distinct, fun member listed => ?_, fun part listed absent => ?_⟩, [], inner,
    Datum.isSpace_nil, members, rfl⟩
  · obtain ⟨part, known, rfl⟩ := List.mem_map.mp listed
    exact ⟨part, known, rfl, written part known⟩
  · rw [names] at absent
    exact absurd (List.mem_map_of_mem listed) absent

end Form

end NullReturns.Snapshot
