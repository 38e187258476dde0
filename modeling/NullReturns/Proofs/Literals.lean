import NullReturns.Json.Numeral
import NullReturns.Json.Quotation
import Mathlib.Algebra.Group.Int.Defs
import Mathlib.Algebra.Group.Nat.Defs
import Mathlib.Data.List.Forall2
import Mathlib.Tactic.Choose

/-! # Literals as they may be written

A character between quotes may stand for itself or be escaped, by a letter or by its code units in hexadecimal
digits of either case. However it is written, the text of a literal is read back. A numeral is read to its
end whatever its parts, and a whole number that fits 64 bits gives its value.
-/

namespace NullReturns.Json

/-! ## Characters between quotes -/

/-- The letters that stand for a character behind a backslash. -/
def escapeLetters : List (Char × Char) :=
  [('"', '"'), ('\\', '\\'), ('/', '/'), ('b', '\x08'), ('f', '\x0c'), ('n', '\n'), ('r', '\r'), ('t', '\t')]

/-- The digit has the value, its letter being in either case. -/
def IsHexDigit (digit : Char) (value : Nat) : Prop :=
  value < 16 ∧ (digit = value.digitChar ∨ digit = value.digitChar.toUpper)

/-- Four hexadecimal digits that make up a number. -/
def IsCodeUnit (digits : List Char) (unit : Nat) : Prop :=
  ∃ values, List.Forall₂ IsHexDigit digits values ∧ digits.length = 4 ∧ unit = values.foldl (· * 16 + ·) 0

/-- The ways to write one character of a literal. -/
inductive IsSpelling : Char → List Char → Prop
  | plain {c : Char} (printable : ¬ c < ' ') (noQuote : c ≠ '"') (noBackslash : c ≠ '\\') : IsSpelling c [c]
  | letter {letter c : Char} (listed : (letter, c) ∈ escapeLetters) : IsSpelling c ['\\', letter]
  | codeUnit {c : Char} {digits : List Char} (unit : IsCodeUnit digits c.toNat) : IsSpelling c ('\\' :: 'u' :: digits)
  | pair {c : Char} {high low : Nat} {first second : List Char} (leading : IsCodeUnit first (0xd800 + high))
      (trailing : IsCodeUnit second (0xdc00 + low)) (inLeading : high < 0x400) (inTrailing : low < 0x400)
      (joined : c.toNat = 0x10000 + high * 0x400 + low) :
      IsSpelling c ('\\' :: 'u' :: first ++ '\\' :: 'u' :: second)

/-- What stands between the quotes of a literal. -/
def IsQuoted (text : String) (written : List Char) : Prop :=
  ∃ parts, List.Forall₂ IsSpelling text.toList parts ∧ written = parts.flatten

/-- Every number of 16 bits is a code unit. -/
theorem exists_isCodeUnit {unit : Nat} (small : unit < 0x10000) : ∃ digits, IsCodeUnit digits unit := by
  have hex {value : Nat} (small : value < 16) : IsHexDigit value.digitChar value := ⟨small, .inl rfl⟩
  refine ⟨[(unit / 4096).digitChar, (unit / 256 % 16).digitChar, (unit / 16 % 16).digitChar, (unit % 16).digitChar],
    [unit / 4096, unit / 256 % 16, unit / 16 % 16, unit % 16], ?_, rfl, ?_⟩
  · exact .cons (hex (by omega)) (.cons (hex (by omega)) (.cons (hex (by omega)) (.cons (hex (by omega)) .nil)))
  · simp only [List.foldl_cons, List.foldl_nil]
    omega

private theorem exists_isSpelling (c : Char) : ∃ part, IsSpelling c part := by
  by_cases quote : c = '"'
  · exact ⟨['\\', '"'], .letter (by subst quote; decide)⟩
  by_cases backslash : c = '\\'
  · exact ⟨['\\', '\\'], .letter (by subst backslash; decide)⟩
  by_cases control : c < ' '
  · have small : c.toNat < 32 := control
    obtain ⟨digits, unit⟩ := @exists_isCodeUnit c.toNat (by omega)
    exact ⟨_, .codeUnit unit⟩
  · exact ⟨[c], .plain control quote backslash⟩

/-- The text has no quotes, backslashes and control characters. -/
def IsUnescaped (text : String) : Prop := ∀ c ∈ text.toList, ¬ c < ' ' ∧ c ≠ '"' ∧ c ≠ '\\'

instance (text : String) : Decidable (IsUnescaped text) := List.decidableBAll _ text.toList

theorem isQuoted_self {text : String} (plain : IsUnescaped text) : IsQuoted text text.toList := by
  refine ⟨text.toList.map fun c => [c], ?_, by rw [← List.flatMap_def, List.flatMap_singleton']⟩
  rw [List.forall₂_map_right_iff]
  exact List.forall₂_same.mpr fun c listed => .plain (plain c listed).1 (plain c listed).2.1 (plain c listed).2.2

/-- Every text can be quoted. -/
theorem exists_isQuoted (text : String) : ∃ written, IsQuoted text written := by
  choose part spelled using exists_isSpelling
  refine ⟨_, text.toList.map part, ?_, rfl⟩
  rw [List.forall₂_map_right_iff]
  exact List.forall₂_same.mpr fun c _ => spelled c

namespace Quotation

private theorem hexDigit?_of_isHexDigit {digit : Char} {value : Nat} (hex : IsHexDigit digit value) :
    hexDigit? digit = some value := by
  have each :
      ∀ value < 16, hexDigit? value.digitChar = some value ∧ hexDigit? value.digitChar.toUpper = some value := by
    decide
  obtain ⟨small, rfl | rfl⟩ := hex
  · exact (each value small).1
  · exact (each value small).2

private theorem hexValue?_of_isCodeUnit {digits : List Char} {unit : Nat} (hex : IsCodeUnit digits unit) :
    hexValue? digits = some unit := by
  obtain ⟨values, paired, _, rfl⟩ := hex
  rw [hexValue?]
  generalize 0 = start
  clear * - paired
  induction paired generalizing start with
  | nil => rfl
  | cons here _ ih => simp [hexDigit?_of_isHexDigit here, ih]

private theorem split_codeUnit {digits : List Char} {unit : Nat} (hex : IsCodeUnit digits unit)
    (done : List (Piece × Position)) (position : Position) (more : List Char) :
    ∃ next, split done position ('\\' :: 'u' :: digits ++ more) = split ((.codeUnit unit, next) :: done) next more := by
  have value := hexValue?_of_isCodeUnit hex
  obtain ⟨_, _, four, _⟩ := hex
  match digits, four with
  | [a, b, c, d], _ =>
    refine ⟨position.next.next.next.next.next.next, ?_⟩
    simp only [List.cons_append, List.nil_append]
    rw [split]
    simp only [value]

private theorem simpleEscape?_of_mem {letter c : Char} (listed : (letter, c) ∈ escapeLetters) :
    simpleEscape? letter = some c ∧ letter ≠ 'u' := by
  have each : ∀ entry ∈ escapeLetters, simpleEscape? entry.1 = some entry.2 ∧ entry.1 ≠ 'u' := by decide
  exact each _ listed

private theorem toNat_lt_or_lt (c : Char) : c.toNat < 0xd800 ∨ 0xdfff < c.toNat := by
  rcases c.valid with low | ⟨high, _⟩
  · exact .inl low
  · exact .inr high

/-- A character is split into pieces that are joined to it again. -/
theorem split_isSpelling {c : Char} {part : List Char} (spelled : IsSpelling c part) (done : List (Piece × Position))
    (position : Position) (more : List Char) :
    ∃ pieces next, split done position (part ++ more) = split (pieces.reverse ++ done) next more ∧
      ∀ chars ending later, join chars ending (pieces ++ later) = join (c :: chars) ending later := by
  cases spelled with
  | plain printable noQuote noBackslash =>
    refine ⟨[(.plain c, position.after c)], position.after c, ?_, fun _ _ _ => rfl⟩
    rw [List.singleton_append, split, if_neg printable]
    · rfl
    · exact noQuote
    all_goals intros; contradiction
  | @letter letter _ listed =>
    obtain ⟨escape, noUnit⟩ := simpleEscape?_of_mem listed
    refine ⟨[(.escaped c, position.next.next)], position.next.next, ?_, fun _ _ _ => rfl⟩
    rw [List.cons_append, List.singleton_append, split, escape]
    · rfl
    · exact noUnit
  | codeUnit unit =>
    obtain ⟨next, split⟩ := split_codeUnit unit done position more
    refine ⟨[(.codeUnit c.toNat, next)], next, split, fun chars ending later => ?_⟩
    have noLow : isLowSurrogate c.toNat = false := by
      simp only [isLowSurrogate, Bool.and_eq_false_iff, decide_eq_false_iff_not]
      have := toNat_lt_or_lt c
      omega
    have noHigh : isHighSurrogate c.toNat = false := by
      simp only [isHighSurrogate, Bool.and_eq_false_iff, decide_eq_false_iff_not]
      have := toNat_lt_or_lt c
      omega
    rw [List.singleton_append, join.eq_def]
    simp only [noLow, noHigh, Bool.false_eq_true, if_false, Char.ofNat_toNat]
  | @pair _ high low first second leading trailing inLeading inTrailing joined =>
    obtain ⟨middle, splitFirst⟩ := split_codeUnit leading done position ('\\' :: 'u' :: second ++ more)
    obtain ⟨next, splitSecond⟩ := split_codeUnit trailing ((.codeUnit (0xd800 + high), middle) :: done) middle more
    refine ⟨[(.codeUnit (0xd800 + high), middle), (.codeUnit (0xdc00 + low), next)], next, ?_,
      fun chars ending later => ?_⟩
    · rw [List.append_assoc, splitFirst, splitSecond]
      rfl
    have noLow : isLowSurrogate (0xd800 + high) = false := by
      simp only [isLowSurrogate, Bool.and_eq_false_iff, decide_eq_false_iff_not]
      omega
    have isHigh : isHighSurrogate (0xd800 + high) = true := by
      simp only [isHighSurrogate, Bool.and_eq_true, decide_eq_true_eq]
      omega
    have isLow : isLowSurrogate (0xdc00 + low) = true := by
      simp only [isLowSurrogate, Bool.and_eq_true, decide_eq_true_eq]
      omega
    have paired : pairedChar (0xd800 + high) (0xdc00 + low) = c := by
      rw [pairedChar, Nat.add_sub_cancel_left, Nat.add_sub_cancel_left, ← joined, Char.ofNat_toNat]
    simp only [List.cons_append, List.nil_append, join, noLow, isHigh, isLow, Bool.false_eq_true, if_false, if_true,
      paired]

private theorem split_isSpellings {chars : List Char} {parts : List (List Char)}
    (spelled : List.Forall₂ IsSpelling chars parts)
    (done : List (Piece × Position)) (position : Position) (more : List Char) :
    ∃ pieces next, split done position (parts.flatten ++ more) = split (pieces.reverse ++ done) next more ∧
      ∀ front ending later, join front ending (pieces ++ later) = join (chars.reverse ++ front) ending later := by
  induction spelled generalizing done position with
  | nil => exact ⟨[], position, rfl, fun _ _ _ => rfl⟩
  | @cons c part chars parts here _ ih =>
    obtain ⟨first, middle, splitFirst, joinFirst⟩ := split_isSpelling here done position (parts.flatten ++ more)
    obtain ⟨rest, next, splitRest, joinRest⟩ := ih (first.reverse ++ done) middle
    refine ⟨first ++ rest, next, ?_, fun front ending later => ?_⟩
    · rw [List.flatten_cons, List.append_assoc, splitFirst, splitRest, List.reverse_append, List.append_assoc]
    · rw [List.append_assoc, joinFirst, joinRest, List.reverse_cons, List.append_assoc, List.singleton_append]

/-- A literal is read to its closing quote, and its value is the text. -/
theorem read_isQuoted {text : String} {written : List Char} (quoted : IsQuoted text written) (position : Position)
    (behind : List Char) :
    ∃ next : Cursor, read ⟨written ++ '"' :: behind, position⟩ = ⟨.ok text, .ok next⟩ ∧ next.rest = behind := by
  obtain ⟨parts, spelled, rfl⟩ := quoted
  obtain ⟨pieces, next, parted, joined⟩ := split_isSpellings spelled [] position ('"' :: behind)
  refine ⟨⟨behind, next.next⟩, ?_, rfl⟩
  have whole := joined [] (.closed ⟨behind, next.next⟩) []
  rw [List.append_nil, List.append_nil, join, List.reverse_reverse] at whole
  rw [read, parted, List.append_nil, split, List.reverse_reverse]
  simp only [whole, Except.map, String.ofList_toList]

end Quotation

/-! ## Numerals -/

namespace Numeral

/-- One or more decimal digits. -/
def IsDigits (digits : List Char) : Prop := digits ≠ [] ∧ ∀ c ∈ digits, c.isDigit

/-- Digits without a needless zero in front. -/
def IsWhole (digits : List Char) : Prop := IsDigits digits ∧ (digits.head? = some '0' → digits.length = 1)

/-- The number that digits make up. -/
def valueOf (digits : List Char) : Nat := digits.foldl (fun value c => value * 10 + digitValue c) 0

def IsFraction (text : List Char) : Prop := text = [] ∨ ∃ digits, IsDigits digits ∧ text = '.' :: digits

def IsExponent (text : List Char) : Prop :=
  text = [] ∨ ∃ mark sign digits, (mark = 'e' ∨ mark = 'E') ∧ (sign = [] ∨ sign = ['+'] ∨ sign = ['-']) ∧
    IsDigits digits ∧ text = mark :: (sign ++ digits)

/-- The text goes on with nothing that could belong to a numeral. -/
def IsBehind (text : List Char) : Prop := ∀ c ∈ text.head?, ¬ c.isDigit ∧ c ≠ '.' ∧ c ≠ 'e' ∧ c ≠ 'E'

private theorem takeDigits_append {digits more : List Char} (each : ∀ c ∈ digits, c.isDigit)
    (ends : ∀ c ∈ more.head?, ¬ c.isDigit) (position : Position) :
    ∃ next, takeDigits ⟨digits ++ more, position⟩ = (digits, ⟨more, next⟩) := by
  have taken : (digits ++ more).takeWhile Char.isDigit = digits := by
    rw [List.takeWhile_append_of_pos each]
    cases more with
    | nil => simp
    | cons c rest => simp [ends c rfl]
  exact ⟨_, by rw [takeDigits, taken, List.drop_left]⟩

theorem ne_of_isDigit {c other : Char} (digit : c.isDigit) (noDigit : other.isDigit = false) : c ≠ other := by
  rintro rfl
  rw [digit] at noDigit
  cases noDigit

private theorem scanWhole_append {digits more : List Char} (whole : IsWhole digits)
    (ends : ∀ c ∈ more.head?, ¬ c.isDigit)
    (position : Position) : ∃ next, scanWhole ⟨digits ++ more, position⟩ = .ok (digits, ⟨more, next⟩) := by
  obtain ⟨⟨nonempty, each⟩, short⟩ := whole
  obtain ⟨next, taken⟩ := takeDigits_append each ends position
  refine ⟨next, ?_⟩
  rw [scanWhole, taken]
  cases digits with
  | nil => contradiction
  | cons first rest =>
    have canonical : ((first :: rest).head? == some '0' && decide ((first :: rest).length > 1)) = false := by
      by_contra leading
      rw [Bool.not_eq_false, Bool.and_eq_true, decide_eq_true_eq, beq_iff_eq] at leading
      have := short leading.1
      omega
    simp only [canonical, Bool.false_eq_true, if_false]

private theorem scanFraction_append {fraction more : List Char} (fractional : IsFraction fraction)
    (ends : ∀ c ∈ more.head?, ¬ c.isDigit ∧ c ≠ '.') (position : Position) :
    ∃ digits next, scanFraction ⟨fraction ++ more, position⟩ = .ok (digits, ⟨more, next⟩) ∧
      (fraction = [] → digits = none) := by
  rcases fractional with rfl | ⟨digits, ⟨nonempty, each⟩, rfl⟩
  · have absent : (more.head? == some '.') = false := by
      cases more with
      | nil => rfl
      | cons c rest => simpa using (ends c rfl).2
    exact ⟨none, position, by simp [scanFraction, absent], fun _ => rfl⟩
  · obtain ⟨next, taken⟩ := takeDigits_append each (fun c head => (ends c head).1) (position.after '.')
    refine ⟨some digits, next, ?_, fun empty => by cases empty⟩
    have behind : Cursor.advance ⟨'.' :: digits ++ more, position⟩ = ⟨digits ++ more, position.after '.'⟩ := rfl
    simp only [scanFraction, behind, taken]
    cases digits with
    | nil => contradiction
    | cons first rest => rfl

private theorem scanExponent_append {exponent more : List Char} (scaled : IsExponent exponent) (ends : IsBehind more)
    (position : Position) :
    ∃ digits start next, scanExponent ⟨exponent ++ more, position⟩ = .ok (digits, start, ⟨more, next⟩) ∧
      (exponent = [] → digits = none) := by
  rcases scaled with rfl | ⟨mark, sign, digits, marked, signed, ⟨nonempty, each⟩, rfl⟩
  · have absent : (more.head? == some 'e' || more.head? == some 'E') = false := by
      cases more with
      | nil => rfl
      | cons c rest => simpa using (ends c rfl).2.2
    exact ⟨none, position, position, by simp [scanExponent, absent], fun _ => rfl⟩
  · obtain ⟨first, rest, rfl⟩ := List.exists_cons_of_ne_nil nonempty
    have digit := each first List.mem_cons_self
    have noPlus := ne_of_isDigit digit (show '+'.isDigit = false by decide)
    have noMinus := ne_of_isDigit digit (show '-'.isDigit = false by decide)
    -- The digits start behind the sign, whether there is one or not.
    obtain ⟨start, started⟩ : ∃ start, (if (sign ++ (first :: rest ++ more)).head? == some '+' ||
          (sign ++ (first :: rest ++ more)).head? == some '-' then
        Cursor.advance ⟨sign ++ (first :: rest ++ more), position.after mark⟩
        else ⟨sign ++ (first :: rest ++ more), position.after mark⟩) = ⟨first :: rest ++ more, start⟩ := by
      rcases signed with rfl | rfl | rfl
      · exact ⟨position.after mark, by simp [noPlus, noMinus]⟩
      · exact ⟨_, rfl⟩
      · exact ⟨_, rfl⟩
    obtain ⟨next, taken⟩ := takeDigits_append each (fun c head => (ends c head).1) start
    have present : (some mark == some 'e' || some mark == some 'E') = true := by simpa using marked
    have behind : Cursor.advance ⟨mark :: (sign ++ (first :: rest ++ more)), position⟩ =
        ⟨sign ++ (first :: rest ++ more), position.after mark⟩ := rfl
    refine ⟨some ((sign ++ (first :: rest ++ more)).head? == some '-', first :: rest), start, next, ?_,
      fun empty => by cases empty⟩
    rw [List.cons_append, List.append_assoc]
    simp only [scanExponent, List.head?_cons, present, if_true, behind, started, taken]

/-- A numeral is split into its parts, and the text goes on behind it. -/
theorem scan_append {isNegative : Bool} {whole fraction exponent behind : List Char} (canonical : IsWhole whole)
    (fractional : IsFraction fraction) (scaled : IsExponent exponent) (ends : IsBehind behind) (position : Position) :
    ∃ numeral next,
      scan ⟨(if isNegative then ['-'] else []) ++ (whole ++ (fraction ++ (exponent ++ behind))), position⟩ =
        .ok (numeral, next) ∧ next.rest = behind ∧ numeral.isNegative = isNegative ∧ numeral.whole = whole ∧
      (fraction = [] → numeral.fraction = none) ∧ (exponent = [] → numeral.exponent = none) := by
  have afterFraction : ∀ c ∈ (exponent ++ behind).head?, ¬ c.isDigit ∧ c ≠ '.' := by
    rcases scaled with rfl | ⟨mark, sign, digits, rfl | rfl, _, _, rfl⟩
    · exact fun c head => ⟨(ends c head).1, (ends c head).2.1⟩
    · rintro c ⟨⟩
      decide
    · rintro c ⟨⟩
      decide
  have afterWhole : ∀ c ∈ (fraction ++ (exponent ++ behind)).head?, ¬ c.isDigit := by
    rcases fractional with rfl | ⟨digits, _, rfl⟩
    · exact fun c head => (afterFraction c head).1
    · rintro c ⟨⟩
      decide
  obtain ⟨first, rest, leading⟩ := List.exists_cons_of_ne_nil canonical.1.1
  have noMinus : first ≠ '-' := ne_of_isDigit (canonical.1.2 first (leading ▸ List.mem_cons_self)) (by decide)
  obtain ⟨start, started⟩ : ∃ start, (if isNegative then
        Cursor.advance ⟨(if isNegative then ['-'] else []) ++ (whole ++ (fraction ++ (exponent ++ behind))), position⟩
        else ⟨(if isNegative then ['-'] else []) ++ (whole ++ (fraction ++ (exponent ++ behind))), position⟩) =
      ⟨whole ++ (fraction ++ (exponent ++ behind)), start⟩ := by
    cases isNegative <;> exact ⟨_, rfl⟩
  have sign : (((if isNegative then ['-'] else []) ++ (whole ++ (fraction ++ (exponent ++ behind)))).head? ==
      some '-') = isNegative := by
    cases isNegative <;> simp [leading, noMinus]
  obtain ⟨second, wholeRead⟩ := scanWhole_append canonical afterWhole start
  obtain ⟨digits, third, fractionRead, noFraction⟩ := scanFraction_append fractional afterFraction second
  obtain ⟨power, powerAt, last, exponentRead, noExponent⟩ := scanExponent_append scaled ends third
  refine ⟨⟨isNegative, whole, digits, power, powerAt⟩, ⟨behind, last⟩, ?_, rfl, rfl, rfl, noFraction, noExponent⟩
  simp only [scan, sign, started, wholeRead, fractionRead, exponentRead, bind, Except.bind]
  rfl

/-- A numeral, of a sign, a whole part, a fraction and an exponent. -/
def IsNumeral (text : List Char) : Prop :=
  ∃ (isNegative : Bool) (whole fraction exponent : List Char),
    IsWhole whole ∧ IsFraction fraction ∧ IsExponent exponent ∧
    text = (if isNegative then ['-'] else []) ++ (whole ++ (fraction ++ exponent))

/-- A whole number in its only form: zero has no sign. -/
inductive IsInteger : Int → List Char → Prop
  | natural {digits : List Char} (whole : IsWhole digits) : IsInteger (valueOf digits) digits
  | negative {digits : List Char} (whole : IsWhole digits) (positive : 0 < valueOf digits) :
      IsInteger (-(valueOf digits)) ('-' :: digits)

private theorem valueOf_append (digits : List Char) (last : Char) :
    valueOf (digits ++ [last]) = valueOf digits * 10 + digitValue last := by
  rw [valueOf, List.foldl_append]
  rfl

/-- Every number has its digits. -/
theorem exists_isWhole (value : Nat) : ∃ digits, IsWhole digits ∧ valueOf digits = value := by
  have last : ∀ value < 10, value.digitChar.isDigit ∧ digitValue value.digitChar = value := by decide
  induction value using Nat.strongRecOn with
  | ind value ih =>
    by_cases small : value < 10
    · refine ⟨[value.digitChar], ⟨⟨List.cons_ne_nil _ _, ?_⟩, fun _ => rfl⟩, ?_⟩
      · exact List.forall_mem_singleton.mpr (last value small).1
      · simpa [valueOf] using (last value small).2
    obtain ⟨digits, ⟨⟨nonempty, each⟩, short⟩, same⟩ := ih (value / 10) (by omega)
    obtain ⟨digit, digitSame⟩ := last (value % 10) (by omega)
    refine ⟨digits ++ [(value % 10).digitChar], ⟨⟨by simp, ?_⟩, fun zero => ?_⟩, ?_⟩
    · intro c listed
      rcases List.mem_append.mp listed with former | new
      · exact each c former
      · rwa [List.mem_singleton.mp new]
    · -- A zero in front would be all there is of the digits before the last.
      obtain ⟨first, rest, rfl⟩ := List.exists_cons_of_ne_nil nonempty
      obtain rfl := Option.some.inj zero
      obtain rfl := List.length_eq_zero_iff.mp (Nat.succ.inj (short rfl))
      have none : valueOf ['0'] = 0 := rfl
      omega
    · rw [valueOf_append, same, digitSame]
      omega

theorem exists_isInteger (value : Int) : ∃ text, IsInteger value text := by
  obtain ⟨digits, whole, same⟩ := exists_isWhole value.natAbs
  by_cases below : value < 0
  · refine ⟨'-' :: digits, ?_⟩
    have negated : value = -(valueOf digits : Int) := by omega
    rw [negated]
    exact .negative whole (by omega)
  · refine ⟨digits, ?_⟩
    have equal : value = valueOf digits := by omega
    rw [equal]
    exact .natural whole

private theorem le_foldl (value : Nat) (digits : List Char) :
    value ≤ digits.foldl (fun value c => value * 10 + digitValue c) value := by
  induction digits generalizing value with
  | nil => exact Nat.le_refl value
  | cons digit rest ih =>
    have := ih (value * 10 + digitValue digit)
    rw [List.foldl_cons]
    omega

/-- Digits whose number keeps to the limit are collected to the last one. -/
theorem collect_eq {limit value : Nat} {digits : List Char}
    (small : digits.foldl (fun value c => value * 10 + digitValue c) value ≤ limit) :
    collect limit value digits = (digits.foldl (fun value c => value * 10 + digitValue c) value, []) := by
  induction digits generalizing value with
  | nil => rfl
  | cons digit rest ih =>
    rw [List.foldl_cons] at small ⊢
    have := le_foldl (value * 10 + digitValue digit) rest
    rw [collect, if_neg (by omega)]
    exact ih small

theorem toNumber_natural {numeral : Numeral} (unsigned : numeral.isNegative = false)
    (noFraction : numeral.fraction = none) (noExponent : numeral.exponent = none)
    (small : valueOf numeral.whole < 2 ^ 64) (stop : Position) :
    numeral.toNumber stop = .ok (.natural (valueOf numeral.whole)) := by
  have collected : collect maxNatural 0 numeral.whole = (valueOf numeral.whole, []) :=
    collect_eq (Nat.le_of_lt_succ small)
  simp only [toNumber, noFraction, noExponent, collected, unsigned, Bool.not_false, if_true]

theorem toNumber_negative {numeral : Numeral} (signed : numeral.isNegative = true)
    (noFraction : numeral.fraction = none) (noExponent : numeral.exponent = none) (positive : 0 < valueOf numeral.whole)
    (small : valueOf numeral.whole ≤ 2 ^ 63) (stop : Position) :
    numeral.toNumber stop = .ok (.negative (-(valueOf numeral.whole))) := by
  have collected : collect maxNatural 0 numeral.whole = (valueOf numeral.whole, []) := by
    refine collect_eq (Nat.le_trans small ?_)
    decide
  have within : (decide (1 ≤ valueOf numeral.whole) && decide (valueOf numeral.whole ≤ 0x8000000000000000)) = true := by
    simp only [Bool.and_eq_true, decide_eq_true_eq]
    omega
  simp only [toNumber, noFraction, noExponent, collected, signed, Bool.not_true, Bool.false_eq_true, if_false, within,
    if_true]

end Numeral

end NullReturns.Json
