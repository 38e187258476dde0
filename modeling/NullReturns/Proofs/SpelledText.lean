import NullReturns.Json.Document
import NullReturns.Proofs.Literals

/-! # Values and the texts that write them

A value may be written in many ways: with white space around brackets, commas and colons, and with any
spelling of its literals. All of them are read into documents that show the value, whatever follows.
-/

namespace NullReturns.Json

/-- A value that a text may write. -/
inductive Datum where
  | null
  | bool (value : Bool)
  | integer (value : Int)
  /-- A number in any form, given by its text. -/
  | decimal (literal : String)
  | string (text : String)
  | array (items : List Datum)
  | object (members : List (String × Datum))
deriving Inhabited

namespace Datum

mutual

/-- How deep arrays and objects nest. -/
def depth : Datum → Nat
  | .null | .bool _ | .integer _ | .decimal _ | .string _ => 0
  | .array items => depthOfItems items + 1
  | .object members => depthOfMembers members + 1

def depthOfItems : List Datum → Nat
  | [] => 0
  | item :: rest => max item.depth (depthOfItems rest)

def depthOfMembers : List (String × Datum) → Nat
  | [] => 0
  | (_, value) :: rest => max value.depth (depthOfMembers rest)

end

/-- The second value is the first with one member more, in an object that is neither under one of the open
names nor below an object that is. -/
inductive Gains (key : String) (openNames : List String) : Datum → Datum → Prop
  | here {before after : List (String × Datum)} {value : Datum} :
      Gains key openNames (.object (before ++ after)) (.object (before ++ (key, value) :: after))
  | item {before after : List Datum} {item item' : Datum} (inner : Gains key openNames item item') :
      Gains key openNames (.array (before ++ item :: after)) (.array (before ++ item' :: after))
  | member {before after : List (String × Datum)} {name : String} {value value' : Datum} (closed : name ∉ openNames)
      (inner : Gains key openNames value value') :
      Gains key openNames (.object (before ++ (name, value) :: after)) (.object (before ++ (name, value') :: after))

/-! ## Texts -/

def IsSpace (text : List Char) : Prop := ∀ c ∈ text, c ∈ [' ', '\t', '\n', '\r']

instance (text : List Char) : Decidable (IsSpace text) := List.decidableBAll _ text

/-- A name in quotes and the colon behind it. -/
def IsLabel (name : String) (text : List Char) : Prop :=
  ∃ quoted space next, IsQuoted name quoted ∧ IsSpace space ∧ IsSpace next ∧
    text = '"' :: (quoted ++ '"' :: (space ++ ':' :: next))

mutual

/-- The text is one of those that write the value. -/
def IsWritten : Datum → List Char → Prop
  | .null, text => text = "null".toList
  | .bool value, text => text = (if value then "true" else "false").toList
  | .integer value, text => Numeral.IsInteger value text
  | .decimal literal, text => text = literal.toList ∧ Numeral.IsNumeral text
  | .string value, text => ∃ quoted, IsQuoted value quoted ∧ text = '"' :: (quoted ++ ['"'])
  | .array items, text => ∃ space inner, IsSpace space ∧ ItemsWritten items inner ∧
      text = '[' :: (space ++ (inner ++ [']']))
  | .object members, text => ∃ space inner, IsSpace space ∧ MembersWritten members inner ∧
      text = '\x7b' :: (space ++ (inner ++ ['\x7d']))

/-- Values with commas between them, each with the white space that follows it. -/
def ItemsWritten : List Datum → List Char → Prop
  | [], text => text = []
  | [last], text => ∃ own space, last.IsWritten own ∧ IsSpace space ∧ text = own ++ space
  | first :: second :: rest, text => ∃ own space next others, first.IsWritten own ∧ IsSpace space ∧ IsSpace next ∧
      ItemsWritten (second :: rest) others ∧ text = own ++ (space ++ ',' :: (next ++ others))

/-- Names and values with commas between them, each with the white space that follows it. -/
def MembersWritten : List (String × Datum) → List Char → Prop
  | [], text => text = []
  | [(name, value)], text => ∃ label own space, IsLabel name label ∧ value.IsWritten own ∧ IsSpace space ∧
      text = label ++ (own ++ space)
  | (name, value) :: second :: rest, text => ∃ label own space next others, IsLabel name label ∧
      value.IsWritten own ∧ IsSpace space ∧ IsSpace next ∧ MembersWritten (second :: rest) others ∧
      text = label ++ (own ++ (space ++ ',' :: (next ++ others)))

end

theorem isSpace_nil : IsSpace [] := fun _ listed => absurd listed List.not_mem_nil

theorem exists_itemsWritten {items : List Datum} (each : ∀ item ∈ items, ∃ own, item.IsWritten own) :
    ∃ text, ItemsWritten items text := by
  match items with
  | [] => exact ⟨[], rfl⟩
  | [last] =>
    obtain ⟨own, written⟩ := each last List.mem_cons_self
    exact ⟨own, own, [], written, isSpace_nil, (List.append_nil own).symm⟩
  | first :: second :: rest =>
    rw [List.forall_mem_cons] at each
    obtain ⟨⟨own, written⟩, later⟩ := each
    obtain ⟨others, more⟩ := exists_itemsWritten later
    exact ⟨_, own, [], [], others, written, isSpace_nil, isSpace_nil, more, rfl⟩

theorem exists_membersWritten {members : List (String × Datum)}
    (each : ∀ member ∈ members, ∃ own, member.2.IsWritten own) : ∃ text, MembersWritten members text := by
  have label (name : String) : ∃ label, IsLabel name label := by
    obtain ⟨quoted, named⟩ := exists_isQuoted name
    exact ⟨_, quoted, [], [], named, isSpace_nil, isSpace_nil, rfl⟩
  match members with
  | [] => exact ⟨[], rfl⟩
  | [(name, value)] =>
    obtain ⟨own, written⟩ := each _ List.mem_cons_self
    obtain ⟨label, labelled⟩ := label name
    exact ⟨_, label, own, [], labelled, written, isSpace_nil, rfl⟩
  | (name, value) :: second :: rest =>
    rw [List.forall_mem_cons] at each
    obtain ⟨⟨own, written⟩, later⟩ := each
    obtain ⟨others, more⟩ := exists_membersWritten later
    obtain ⟨label, labelled⟩ := label name
    exact ⟨_, label, own, [], [], others, labelled, written, isSpace_nil, isSpace_nil, more, rfl⟩

end Datum

/-! ## Documents -/

/-- What stands behind an entry: the end or, where entries follow, a comma and the start of the next one. -/
def Gap.Separates {α : Type} (gap : Gap) (rest : List α) (followers : List Follower) : Prop :=
  match rest with
  | [] => gap.turn = .close
  | _ :: _ => ∃ after next, gap.turn = .comma after next ∧ next ∈ followers

namespace Datum

mutual

/-- The document is a reading of the value: its scalars are those of the value, and nothing in it is amiss. -/
def IsShown : Datum → Doc → Prop
  | .null, doc => ∃ start after, doc = .null start after
  | .bool value, doc => ∃ start after, doc = .bool start value after
  | .integer value, doc => ∃ start number skip after, doc = .number start number skip after ∧
      (∀ natural : Nat, value = natural → natural < 2 ^ 64 → number = .ok (.natural natural)) ∧
      (value < 0 → -(2 ^ 63) ≤ value → number = .ok (.negative value))
  | .decimal _, doc => ∃ start number skip after, doc = .number start number skip after
  | .string text, doc => ∃ start skip after, doc = .string start (.ok text) skip after
  | .array items, doc => ∃ start lead shown, doc = .array start lead shown ∧ lead.turn ≠ .ended ∧
      ItemsShown items shown
  | .object members, doc => ∃ start lead shown, doc = .object start lead shown ∧ lead.turn ≠ .ended ∧
      MembersShown members shown

def ItemsShown : List Datum → Items → Prop
  | [], shown => shown = .nil
  | first :: rest, shown => ∃ value gap more, shown = .cons value gap more ∧ first.IsShown value ∧
      gap.Separates rest [.quote, .other] ∧ ItemsShown rest more

def MembersShown : List (String × Datum) → Members → Prop
  | [], shown => shown = .nil
  | (name, value) :: rest, shown => ∃ key doc gap more, shown = .cons key doc gap more ∧ key.name = .ok name ∧
      key.colon = none ∧ value.IsShown doc ∧ gap.Separates rest [.quote] ∧ MembersShown rest more

end

/-! ## Reading -/

private theorem skipSpace_of_ordinary {c : Char} (ordinary : c ∉ [' ', '\t', '\n', '\r']) (rest : List Char)
    (position : Position) : Cursor.skipSpace ⟨c :: rest, position⟩ = ⟨c :: rest, position⟩ := by
  simp only [List.mem_cons, List.not_mem_nil, or_false, not_or] at ordinary
  rw [Cursor.skipSpace, Cursor.skipSpaceFrom, if_neg]
  simp [Cursor.isSpace, ordinary]

private theorem skipSpace_append {space : List Char} (blank : IsSpace space) {c : Char}
    (ordinary : c ∉ [' ', '\t', '\n', '\r'])
    (rest : List Char) (position : Position) :
    ∃ next, Cursor.skipSpace ⟨space ++ c :: rest, position⟩ = ⟨c :: rest, next⟩ := by
  induction space generalizing position with
  | nil => exact ⟨position, skipSpace_of_ordinary ordinary rest position⟩
  | cons first space ih =>
    rw [IsSpace, List.forall_mem_cons] at blank
    have skipped : Cursor.isSpace first = true := by
      have listed := blank.1
      simp only [List.mem_cons, List.not_mem_nil, or_false] at listed
      rcases listed with rfl | rfl | rfl | rfl <;> decide
    obtain ⟨next, rested⟩ := ih blank.2 (position.after first)
    refine ⟨next, ?_⟩
    rw [List.cons_append, Cursor.skipSpace, Cursor.skipSpaceFrom, if_pos skipped]
    exact rested

private theorem isBehind_append {space : List Char} (blank : IsSpace space) {c : Char} (closes : c ∈ [',', ']', '\x7d'])
    (rest : List Char) : Numeral.IsBehind (space ++ c :: rest) := by
  have ordinary : ∀ other ∈ [',', ']', '\x7d', ' ', '\t', '\n', '\r'],
      ¬ other.isDigit ∧ other ≠ '.' ∧ other ≠ 'e' ∧ other ≠ 'E' := by
    simp
  intro other head
  refine ordinary other ?_
  cases space with
  | nil =>
    obtain rfl := Option.some.inj head
    exact List.mem_append_left [' ', '\t', '\n', '\r'] closes
  | cons first space =>
    obtain rfl := Option.some.inj head
    exact List.mem_append_right [',', ']', '\x7d'] (blank first List.mem_cons_self)

/-- The characters that a numeral starts with. -/
theorem exists_numeral_start {isNegative : Bool} {whole : List Char} (canonical : Numeral.IsWhole whole)
    (rest : List Char) :
    ∃ c more, (if isNegative then ['-'] else []) ++ (whole ++ rest) = c :: more ∧ (c = '-' ∨ c.isDigit) := by
  cases isNegative with
  | true => exact ⟨'-', whole ++ rest, rfl, .inl rfl⟩
  | false =>
    obtain ⟨⟨nonempty, digits⟩, _⟩ := canonical
    obtain ⟨first, others, rfl⟩ := List.exists_cons_of_ne_nil nonempty
    exact ⟨first, others ++ rest, rfl, .inr (digits first List.mem_cons_self)⟩

private theorem ne_of_starts_numeral {c other : Char} (starts : c = '-' ∨ c.isDigit)
    (apart : other ≠ '-' ∧ other.isDigit = false) : c ≠ other := by
  rcases starts with rfl | digit
  · exact apart.1.symm
  · exact Numeral.ne_of_isDigit digit apart.2

private theorem value_numeral {c : Char} (starts : c = '-' ∨ c.isDigit) (fuel : Nat) (rest : List Char)
    (position : Position) :
    Doc.value (fuel + 1) ⟨c :: rest, position⟩ = Doc.ofNumeral ⟨c :: rest, position⟩ := by
  have ordinary : c ∉ [' ', '\t', '\n', '\r'] := by
    have each : ∀ other ∈ [' ', '\t', '\n', '\r'], other ≠ '-' ∧ other.isDigit = false := by simp
    intro listed
    exact ne_of_starts_numeral starts (each c listed) rfl
  rw [Doc.value, skipSpace_of_ordinary ordinary]
  dsimp only
  split
  case h_8 same =>
    obtain ⟨rfl, rfl⟩ := List.cons.inj same
    rw [if_pos (by simpa using starts)]
  · rename_i empty
    cases empty
  all_goals
    rename_i same
    obtain ⟨rfl, _⟩ := List.cons.inj same
    exact absurd starts (by decide)

private theorem value_integer {value : Int} {text behind : List Char} (written : Numeral.IsInteger value text)
    (ends : Numeral.IsBehind behind) (fuel : Nat) (position : Position) :
    ∃ doc next, Doc.value (fuel + 1) ⟨text ++ behind, position⟩ = (doc, some next) ∧ next.rest = behind ∧
      (Datum.integer value).IsShown doc := by
  cases written with
  | @natural digits whole =>
    obtain ⟨numeral, next, scanned, rest, unsigned, digitsRead, noFraction, noExponent⟩ :=
      @Numeral.scan_append false _ _ _ _ whole (.inl rfl) (.inl rfl) ends position
    obtain ⟨c, more, text, starts⟩ := @exists_numeral_start false _ whole behind
    rw [if_neg Bool.false_ne_true] at scanned text
    simp only [List.nil_append] at scanned text
    rw [text] at scanned ⊢
    rw [value_numeral starts, Doc.ofNumeral, scanned]
    refine ⟨_, next, rfl, rest, _, _, _, _, rfl, fun natural same small => ?_, fun negative => by omega⟩
    obtain rfl := digitsRead
    obtain rfl : Numeral.valueOf numeral.whole = natural := by omega
    exact Numeral.toNumber_natural unsigned (noFraction rfl) (noExponent rfl) small _
  | @negative digits whole positive =>
    obtain ⟨numeral, next, scanned, rest, signed, digitsRead, noFraction, noExponent⟩ :=
      @Numeral.scan_append true _ _ _ _ whole (.inl rfl) (.inl rfl) ends position
    rw [if_pos rfl, List.singleton_append, List.nil_append, List.nil_append] at scanned
    rw [List.cons_append, value_numeral (.inl rfl), Doc.ofNumeral, scanned]
    refine ⟨_, next, rfl, rest, _, _, _, _, rfl, fun natural same => by omega, fun _ small => ?_⟩
    obtain rfl := digitsRead
    exact Numeral.toNumber_negative signed (noFraction rfl) (noExponent rfl) positive (by omega) _

private theorem value_decimal {text behind : List Char} (written : Numeral.IsNumeral text)
    (ends : Numeral.IsBehind behind)
    (fuel : Nat) (position : Position) :
    ∃ doc next, Doc.value (fuel + 1) ⟨text ++ behind, position⟩ = (doc, some next) ∧ next.rest = behind ∧
      ∃ start number skip after, doc = .number start number skip after := by
  obtain ⟨isNegative, whole, fraction, exponent, canonical, fractional, scaled, rfl⟩ := written
  obtain ⟨numeral, next, scanned, rest, _⟩ :=
    @Numeral.scan_append isNegative _ _ _ _ canonical fractional scaled ends position
  obtain ⟨c, more, text, starts⟩ := @exists_numeral_start isNegative _ canonical (fraction ++ (exponent ++ behind))
  simp only [List.append_assoc]
  rw [text] at scanned ⊢
  rw [value_numeral starts, Doc.ofNumeral, scanned]
  exact ⟨_, next, rfl, rest, _, _, _, _, rfl⟩

/-- A value starts with a character that is neither white space nor a closing bracket. -/
theorem exists_start {datum : Datum} {text : List Char} (written : datum.IsWritten text) :
    ∃ c rest, text = c :: rest ∧ c ∉ [' ', '\t', '\n', '\r'] ∧ c ≠ ']' := by
  have numeral {c : Char} (starts : c = '-' ∨ c.isDigit) : c ∉ [' ', '\t', '\n', '\r'] ∧ c ≠ ']' := by
    have each : ∀ other ∈ [' ', '\t', '\n', '\r', ']'], other ≠ '-' ∧ other.isDigit = false := by simp
    constructor
    · intro listed
      exact ne_of_starts_numeral starts (each c (List.mem_append_left [']'] listed)) rfl
    · exact ne_of_starts_numeral starts (by decide)
  cases datum with
  | null => exact ⟨'n', "ull".toList, written, by decide, by decide⟩
  | bool value =>
    cases value with
    | true => exact ⟨'t', "rue".toList, written, by decide, by decide⟩
    | false => exact ⟨'f', "alse".toList, written, by decide, by decide⟩
  | integer value =>
    cases written with
    | natural whole =>
      obtain ⟨c, more, text, starts⟩ := @exists_numeral_start false _ whole []
      rw [if_neg Bool.false_ne_true, List.nil_append, List.append_nil] at text
      exact ⟨c, more, text, numeral starts⟩
    | negative whole positive => exact ⟨'-', _, rfl, by decide, by decide⟩
  | decimal literal =>
    obtain ⟨_, isNegative, whole, fraction, exponent, canonical, _, _, rfl⟩ := written
    obtain ⟨c, more, text, starts⟩ := @exists_numeral_start isNegative _ canonical (fraction ++ exponent)
    exact ⟨c, more, text, numeral starts⟩
  | string value =>
    obtain ⟨quoted, _, rfl⟩ := written
    exact ⟨'"', _, rfl, by decide, by decide⟩
  | array items =>
    obtain ⟨space, inner, _, _, rfl⟩ := written
    exact ⟨'[', _, rfl, by decide, by decide⟩
  | object members =>
    obtain ⟨space, inner, _, _, rfl⟩ := written
    exact ⟨'\x7b', _, rfl, by decide, by decide⟩

private theorem items_start {first : Datum} {rest : List Datum} {text : List Char}
    (written : ItemsWritten (first :: rest) text) :
    ∃ c more, text = c :: more ∧ c ∉ [' ', '\t', '\n', '\r'] ∧ c ≠ ']' := by
  obtain ⟨own, behind, value, rfl⟩ : ∃ own behind, first.IsWritten own ∧ text = own ++ behind := by
    cases rest with
    | nil =>
      obtain ⟨own, space, value, _, rfl⟩ := written
      exact ⟨own, space, value, rfl⟩
    | cons second rest =>
      obtain ⟨own, space, next, others, value, _, _, _, rfl⟩ := written
      exact ⟨own, _, value, rfl⟩
  obtain ⟨c, more, rfl, ordinary⟩ := exists_start value
  exact ⟨c, more ++ behind, rfl, ordinary⟩

private theorem members_start {first : String × Datum} {rest : List (String × Datum)} {text : List Char}
    (written : MembersWritten (first :: rest) text) : ∃ more, text = '"' :: more := by
  have label {name : String} {written : List Char} (labelled : IsLabel name written) :
      ∃ more, written = '"' :: more := by
    obtain ⟨quoted, space, next, _, _, _, rfl⟩ := labelled
    exact ⟨_, rfl⟩
  cases rest with
  | nil =>
    obtain ⟨_, own, space, labelled, _, _, rfl⟩ := written
    obtain ⟨more, rfl⟩ := label labelled
    exact ⟨_, rfl⟩
  | cons second rest =>
    obtain ⟨_, own, space, next, others, labelled, _, _, _, _, rfl⟩ := written
    obtain ⟨more, rfl⟩ := label labelled
    exact ⟨_, rfl⟩

private theorem gapAt_comma {space : List Char} (blank : IsSpace space) {c closing : Char}
    (ordinary : c ∉ [' ', '\t', '\n', '\r']) (apart : c ≠ closing) (rest : List Char) (position : Position) :
    ∃ next, Doc.gapAt ⟨',' :: (space ++ c :: rest), position⟩ closing =
      (⟨position, .comma next (if c = '"' then .quote else .other)⟩, some ⟨c :: rest, next⟩) := by
  obtain ⟨next, skipped⟩ := skipSpace_append blank ordinary rest (position.after ',')
  refine ⟨next, ?_⟩
  have advanced :
      Cursor.advance ⟨',' :: (space ++ c :: rest), position⟩ = ⟨space ++ c :: rest, position.after ','⟩ := rfl
  simp only [Doc.gapAt, advanced, skipped, if_neg apart]

/-- Behind a comma, the items that follow are found behind the white space in front of them. -/
theorem gapAt_items {first : Datum} {rest : List Datum} {text space : List Char}
    (written : ItemsWritten (first :: rest) text) (blank : IsSpace space) (behind : List Char) (position : Position) :
    ∃ next follower, Doc.gapAt ⟨',' :: (space ++ (text ++ behind)), position⟩ ']' =
      (⟨position, .comma next follower⟩, some ⟨text ++ behind, next⟩) ∧ follower ∈ [Follower.quote, .other] := by
  obtain ⟨c, more, rfl, ordinary, isOpen⟩ := items_start written
  obtain ⟨next, gap⟩ := gapAt_comma blank ordinary isOpen (more ++ behind) position
  refine ⟨next, _, gap, ?_⟩
  split <;> decide

private theorem gapAt_members {first : String × Datum} {rest : List (String × Datum)} {text space : List Char}
    (written : MembersWritten (first :: rest) text) (blank : IsSpace space) (behind : List Char) (position : Position) :
    ∃ next, Doc.gapAt ⟨',' :: (space ++ (text ++ behind)), position⟩ '\x7d' =
      (⟨position, .comma next .quote⟩, some ⟨text ++ behind, next⟩) := by
  obtain ⟨more, rfl⟩ := members_start written
  exact @gapAt_comma space blank '"' '\x7d' (by decide) (by decide) (more ++ behind) position

private theorem keyAt_isLabel {name : String} {label : List Char} (labelled : IsLabel name label) (behind : List Char)
    (position : Position) :
    ∃ key space next, Doc.keyAt ⟨label ++ behind, position⟩ = (key, some ⟨space ++ behind, next⟩) ∧ IsSpace space ∧
      key.name = .ok name ∧ key.colon = none := by
  obtain ⟨quoted, space, lead, named, blank, leading, rfl⟩ := labelled
  obtain ⟨⟨_, middle⟩, read, rfl⟩ :=
    Quotation.read_isQuoted named (position.after '"') (space ++ ':' :: (lead ++ behind))
  obtain ⟨next, skipped⟩ := @skipSpace_append space blank ':' (by decide) (lead ++ behind) middle
  have text : '"' :: (quoted ++ '"' :: (space ++ ':' :: lead)) ++ behind =
      '"' :: (quoted ++ '"' :: (space ++ ':' :: (lead ++ behind))) := by
    simp
  have inside : Cursor.advance ⟨'"' :: (quoted ++ '"' :: (space ++ ':' :: (lead ++ behind))), position⟩ =
      ⟨quoted ++ '"' :: (space ++ ':' :: (lead ++ behind)), position.after '"'⟩ := rfl
  rw [text, Doc.keyAt, inside, read]
  simp only [skipped]
  exact ⟨_, lead, next.after ':', rfl, leading, rfl, rfl⟩

private theorem value_word {text behind : List Char} {datum : Datum}
    (scalar : datum = .null ∨ ∃ value, datum = .bool value)
    (written : datum.IsWritten text) (fuel : Nat) (position : Position) :
    ∃ doc next, Doc.value (fuel + 1) ⟨text ++ behind, position⟩ = (doc, some next) ∧ next.rest = behind ∧
      datum.IsShown doc := by
  rcases scalar with rfl | ⟨value, rfl⟩
  · obtain rfl := written
    exact ⟨_, _, rfl, rfl, _, _, rfl⟩
  · obtain rfl := written
    cases value with
    | true => exact ⟨_, _, rfl, rfl, _, _, rfl⟩
    | false => exact ⟨_, _, rfl, rfl, _, _, rfl⟩

private theorem value_string {value : String} {quoted behind : List Char} (named : IsQuoted value quoted) (fuel : Nat)
    (position : Position) :
    ∃ doc next, Doc.value (fuel + 1) ⟨'"' :: (quoted ++ '"' :: behind), position⟩ = (doc, some next) ∧
      next.rest = behind ∧ (Datum.string value).IsShown doc := by
  obtain ⟨next, read, rest⟩ := Quotation.read_isQuoted named (position.after '"') behind
  have inside : Cursor.advance ⟨'"' :: (quoted ++ '"' :: behind), position⟩ =
      ⟨quoted ++ '"' :: behind, position.after '"'⟩ := rfl
  rw [Doc.value, @skipSpace_of_ordinary '"' (by decide)]
  simp only [Doc.ofQuotation, inside, read]
  exact ⟨_, next, rfl, rest, _, _, _, rfl⟩

/-- White space in front of a value makes no difference to it. -/
theorem value_space {datum : Datum} {space text : List Char} (blank : IsSpace space) (written : datum.IsWritten text)
    {fuel : Nat} (enough : text.length ≤ fuel) (behind : List Char) (position : Position) :
    ∃ start, Doc.value fuel ⟨space ++ (text ++ behind), position⟩ = Doc.value fuel ⟨text ++ behind, start⟩ := by
  obtain ⟨c, rest, rfl, ordinary, _⟩ := exists_start written
  obtain ⟨start, skipped⟩ := skipSpace_append blank ordinary (rest ++ behind) position
  refine ⟨start, ?_⟩
  cases fuel with
  | zero => simp at enough
  | succ fuel => rw [List.cons_append, Doc.value, Doc.value, skipped, skipSpace_of_ordinary ordinary]

/-- An array that is not empty is what its items are read into. -/
theorem value_items {c : Char} (ordinary : c ∉ [' ', '\t', '\n', '\r']) (isOpen : c ≠ ']') {space : List Char}
    (blank : IsSpace space) (rest : List Char) (fuel : Nat) (position : Position) :
    ∃ here, Doc.value (fuel + 1) ⟨'[' :: (space ++ c :: rest), position⟩ =
      (.array position ⟨here, .other⟩ (Doc.items fuel ⟨c :: rest, here⟩).1, (Doc.items fuel ⟨c :: rest, here⟩).2) := by
  have opened : Cursor.advance ⟨'[' :: (space ++ c :: rest), position⟩ = ⟨space ++ c :: rest, position.after '['⟩ := rfl
  obtain ⟨here, skipped⟩ := skipSpace_append blank ordinary rest (position.after '[')
  refine ⟨here, ?_⟩
  rw [Doc.value, @skipSpace_of_ordinary '[' (by decide)]
  simp only [opened, skipped]
  split
  · rename_i empty
    cases empty
  · rename_i same
    exact absurd (List.cons.inj same).1 isOpen
  · rfl

mutual

/-- A written value is read to its end, and the document shows it. As every step of the reader comes with a
character of the text, its length bounds them. -/
theorem value_isWritten : (datum : Datum) → ∀ {text behind : List Char} {fuel : Nat}, datum.IsWritten text →
    Numeral.IsBehind behind → text.length ≤ fuel → ∀ position, ∃ doc next,
      Doc.value fuel ⟨text ++ behind, position⟩ = (doc, some next) ∧ next.rest = behind ∧ datum.IsShown doc
  | datum, text, behind, 0, written, _, enough, _ => by
    obtain ⟨c, rest, rfl, _⟩ := exists_start written
    simp at enough
  | .null, text, behind, fuel + 1, written, _, _, position => value_word (.inl rfl) written fuel position
  | .bool value, text, behind, fuel + 1, written, _, _, position => value_word (.inr ⟨value, rfl⟩) written fuel position
  | .integer value, text, behind, fuel + 1, written, ends, _, position => value_integer written ends fuel position
  | .decimal literal, text, behind, fuel + 1, written, ends, _, position => value_decimal written.2 ends fuel position
  | .string value, text, behind, fuel + 1, written, _, _, position => by
    obtain ⟨quoted, named, rfl⟩ := written
    rw [List.cons_append, List.append_assoc, List.singleton_append]
    exact value_string named fuel position
  | .array items, text, behind, fuel + 1, written, _, enough, position => by
    obtain ⟨space, inner, blank, inside, rfl⟩ := written
    have text : '[' :: (space ++ (inner ++ [']'])) ++ behind = '[' :: (space ++ (inner ++ ']' :: behind)) := by simp
    have opened : Cursor.advance ⟨'[' :: (space ++ (inner ++ ']' :: behind)), position⟩ =
        ⟨space ++ (inner ++ ']' :: behind), position.after '['⟩ := rfl
    rw [text]
    match items with
    | [] =>
      obtain rfl := inside
      obtain ⟨here, skipped⟩ := @skipSpace_append space blank ']' (by decide) behind (position.after '[')
      rw [Doc.value, @skipSpace_of_ordinary '[' (by decide)]
      simp only [opened]
      rw [List.nil_append, skipped]
      exact ⟨_, _, rfl, rfl, _, _, _, rfl, by simp, rfl⟩
    | first :: rest =>
      obtain ⟨c, more, rfl, ordinary, isOpen⟩ := items_start inside
      obtain ⟨here, within⟩ := value_items ordinary isOpen blank (more ++ ']' :: behind) fuel position
      have short : (c :: more).length + 1 ≤ fuel := by
        simp only [List.length_cons, List.length_append, List.length_nil] at enough ⊢
        omega
      obtain ⟨shown, next, read, reached, good⟩ :=
        @items_isWritten (first :: rest) (List.cons_ne_nil _ _) _ behind _ inside short here
      rw [List.cons_append] at read ⊢
      rw [within, read]
      exact ⟨_, next, rfl, reached, _, _, _, rfl, by simp, good⟩
  | .object members, text, behind, fuel + 1, written, _, enough, position => by
    obtain ⟨space, inner, blank, inside, rfl⟩ := written
    have text : '\x7b' :: (space ++ (inner ++ ['\x7d'])) ++ behind =
        '\x7b' :: (space ++ (inner ++ '\x7d' :: behind)) := by
      simp
    have opened : Cursor.advance ⟨'\x7b' :: (space ++ (inner ++ '\x7d' :: behind)), position⟩ =
        ⟨space ++ (inner ++ '\x7d' :: behind), position.after '\x7b'⟩ := rfl
    rw [text, Doc.value, @skipSpace_of_ordinary '\x7b' (by decide)]
    simp only [opened]
    match members with
    | [] =>
      obtain rfl := inside
      obtain ⟨here, skipped⟩ := @skipSpace_append space blank '\x7d' (by decide) behind (position.after '\x7b')
      rw [List.nil_append, skipped]
      exact ⟨_, _, rfl, rfl, _, _, _, rfl, by simp, rfl⟩
    | first :: rest =>
      obtain ⟨more, rfl⟩ := members_start inside
      obtain ⟨here, skipped⟩ :=
        @skipSpace_append space blank '"' (by decide) (more ++ '\x7d' :: behind) (position.after '\x7b')
      have short : ('"' :: more).length + 1 ≤ fuel := by
        simp only [List.length_cons, List.length_append, List.length_nil] at enough ⊢
        omega
      obtain ⟨shown, next, read, reached, good⟩ :=
        @members_isWritten (first :: rest) (List.cons_ne_nil _ _) _ behind _ inside short here
      rw [List.cons_append] at read ⊢
      simp only [skipped, read]
      exact ⟨_, next, rfl, reached, _, _, _, rfl, by simp, good⟩

private theorem items_isWritten : (items : List Datum) → items ≠ [] → ∀ {text behind : List Char} {fuel : Nat},
    ItemsWritten items text → text.length + 1 ≤ fuel → ∀ position, ∃ shown next,
      Doc.items fuel ⟨text ++ ']' :: behind, position⟩ = (shown, some next) ∧ next.rest = behind ∧
        ItemsShown items shown
  | [], nonempty, _, _, _, _, _, _ => absurd rfl nonempty
  | _, _, _, _, 0, _, enough, _ => by omega
  | [last], _, text, behind, fuel + 1, written, enough, position => by
    obtain ⟨own, space, value, blank, rfl⟩ := written
    have short : own.length ≤ fuel := by
      rw [List.length_append] at enough
      omega
    rw [List.append_assoc]
    obtain ⟨doc, ⟨_, middle⟩, read, rfl, shown⟩ := value_isWritten last value
      (isBehind_append blank (c := ']') (by decide) behind) short position
    obtain ⟨here, skipped⟩ := @skipSpace_append space blank ']' (by decide) behind middle
    rw [Doc.items, read]
    simp only [skipped]
    exact ⟨_, _, rfl, rfl, doc, _, .nil, rfl, shown, rfl, rfl⟩
  | first :: second :: rest, _, text, behind, fuel + 1, written, enough, position => by
    obtain ⟨own, space, lead, others, value, blank, leading, more, rfl⟩ := written
    have short : own.length ≤ fuel ∧ others.length + 1 ≤ fuel := by
      simp only [List.length_append, List.length_cons] at enough
      obtain ⟨_, _, rfl, _⟩ := exists_start value
      simp only [List.length_cons] at enough ⊢
      omega
    simp only [List.append_assoc, List.cons_append]
    obtain ⟨doc, ⟨_, middle⟩, read, rfl, shown⟩ := value_isWritten first value
      (isBehind_append blank (c := ',') (by decide) (lead ++ (others ++ ']' :: behind))) short.1 position
    obtain ⟨here, skipped⟩ :=
      @skipSpace_append space blank ',' (by decide) (lead ++ (others ++ ']' :: behind)) middle
    obtain ⟨there, follower, gap, suits⟩ := gapAt_items more leading (']' :: behind) here
    obtain ⟨moreShown, next, readMore, reached, good⟩ :=
      @items_isWritten (second :: rest) (List.cons_ne_nil _ _) _ behind _ more short.2 there
    rw [Doc.items, read]
    simp only [skipped, gap, readMore]
    exact ⟨_, next, rfl, reached, doc, _, moreShown, rfl, shown, ⟨there, follower, rfl, suits⟩, good⟩

private theorem members_isWritten : (members : List (String × Datum)) → members ≠ [] → ∀ {text behind : List Char}
    {fuel : Nat},
    MembersWritten members text → text.length + 1 ≤ fuel → ∀ position, ∃ shown next,
      Doc.members fuel ⟨text ++ '\x7d' :: behind, position⟩ = (shown, some next) ∧ next.rest = behind ∧
        MembersShown members shown
  | [], nonempty, _, _, _, _, _, _ => absurd rfl nonempty
  | _, _, _, _, 0, _, enough, _ => by omega
  | [(name, value)], _, text, behind, fuel + 1, written, enough, position => by
    obtain ⟨label, own, space, labelled, valued, blank, rfl⟩ := written
    have short : own.length ≤ fuel := by
      simp only [List.length_append] at enough
      omega
    simp only [List.append_assoc]
    obtain ⟨key, lead, start, keyed, leading, named, colon⟩ :=
      keyAt_isLabel labelled (own ++ (space ++ '\x7d' :: behind)) position
    obtain ⟨start, spaced⟩ := value_space leading valued short (space ++ '\x7d' :: behind) start
    obtain ⟨doc, ⟨_, middle⟩, read, rfl, shown⟩ := value_isWritten value valued
      (isBehind_append blank (c := '\x7d') (by decide) behind) short start
    obtain ⟨here, skipped⟩ := @skipSpace_append space blank '\x7d' (by decide) behind middle
    rw [Doc.members, keyed]
    simp only [spaced, read, skipped]
    exact ⟨_, _, rfl, rfl, key, doc, _, .nil, rfl, named, colon, shown, rfl, rfl⟩
  | (name, value) :: second :: rest, _, text, behind, fuel + 1, written, enough, position => by
    obtain ⟨label, own, space, lead, others, labelled, valued, blank, leading, more, rfl⟩ := written
    have short : own.length ≤ fuel ∧ others.length + 1 ≤ fuel := by
      simp only [List.length_append, List.length_cons] at enough
      obtain ⟨_, _, rfl, _⟩ := exists_start valued
      simp only [List.length_cons] at enough ⊢
      omega
    simp only [List.append_assoc, List.cons_append]
    obtain ⟨key, front, start, keyed, fronted, named, colon⟩ :=
      keyAt_isLabel labelled (own ++ (space ++ ',' :: (lead ++ (others ++ '\x7d' :: behind)))) position
    obtain ⟨start, spaced⟩ :=
      value_space fronted valued short.1 (space ++ ',' :: (lead ++ (others ++ '\x7d' :: behind))) start
    obtain ⟨doc, ⟨_, middle⟩, read, rfl, shown⟩ := value_isWritten value valued
      (isBehind_append blank (c := ',') (by decide) (lead ++ (others ++ '\x7d' :: behind))) short.1 start
    obtain ⟨here, skipped⟩ :=
      @skipSpace_append space blank ',' (by decide) (lead ++ (others ++ '\x7d' :: behind)) middle
    obtain ⟨there, gap⟩ := gapAt_members more leading ('\x7d' :: behind) here
    obtain ⟨moreShown, next, readMore, reached, good⟩ :=
      @members_isWritten (second :: rest) (List.cons_ne_nil _ _) _ behind _ more short.2 there
    rw [Doc.members, keyed]
    simp only [spaced, read, skipped, gap, readMore]
    exact ⟨_, next, rfl, reached, key, doc, _, moreShown, rfl, named, colon, shown,
      ⟨there, .quote, rfl, List.mem_singleton_self _⟩, good⟩

end

/-- The text writes the value, with white space around it. -/
def IsText (datum : Datum) (text : String) : Prop :=
  ∃ lead own trail, IsSpace lead ∧ datum.IsWritten own ∧ IsSpace trail ∧ text.toList = lead ++ (own ++ trail)

/-- However a value is written, the document of the text shows it. -/
theorem isShown_parse {datum : Datum} {text : String} (written : datum.IsText text) :
    datum.IsShown (Doc.parse text) := by
  obtain ⟨lead, own, trail, leading, valued, trailing, parts⟩ := written
  have ends : Numeral.IsBehind trail := by
    cases trail with
    | nil => exact fun c head => absurd head (Option.not_mem_none c)
    | cons c rest =>
      -- White space ends a numeral as a comma behind it would.
      have behind := isBehind_append trailing (c := ',') (by decide) []
      rwa [List.cons_append, Numeral.IsBehind, List.head?_cons] at behind
  have enough : own.length ≤ 2 * text.length + 2 := by
    have length := congrArg List.length parts
    rw [List.length_append, List.length_append, String.length_toList] at length
    omega
  obtain ⟨start, spaced⟩ := value_space leading valued enough trail ⟨1, 0⟩
  obtain ⟨doc, next, read, _, shown⟩ := value_isWritten datum valued ends enough start
  rw [Doc.parse, Cursor.ofString, parts, spaced, read]
  exact shown

end Datum

end NullReturns.Json
