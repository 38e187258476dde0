import Mathlib.Data.String.Basic
import NullReturns.Text.Lines

/-! # The order of texts

Texts are compared character by character. UTF-8 gives a greater character greater bytes, so that this is
the order of their bytes as well.
-/

namespace NullReturns.Text

/-- The bytes of a text in UTF-8. -/
def utf8 (text : String) : List UInt8 := text.toUTF8.data.toList

theorem utf8_eq (text : String) : utf8 text = bytes text.toList := by
  rw [utf8, String.toUTF8_eq_toByteArray, ← String.utf8Encode_toList, List.utf8Encode, List.data_toByteArray, bytes]

private theorem ofNat_lt_ofNat {m n : Nat} (small : m < 256) (small' : n < 256) :
    UInt8.ofNat m < UInt8.ofNat n ↔ m < n := by
  rw [UInt8.lt_iff_toNat_lt, UInt8.toNat_ofNat', UInt8.toNat_ofNat', Nat.mod_eq_of_lt small,
    Nat.mod_eq_of_lt small']

private theorem ofNat_eq_ofNat {m n : Nat} (small : m < 256) (small' : n < 256) :
    UInt8.ofNat m = UInt8.ofNat n ↔ m = n := by
  rw [← UInt8.toNat_inj, UInt8.toNat_ofNat', UInt8.toNat_ofNat', Nat.mod_eq_of_lt small, Nat.mod_eq_of_lt small']

/-- Four bytes hold the digits of a character to the base 64. -/
private theorem digits_lt {m n : Nat} (less : m < n) :
    m / 262144 < n / 262144 ∨ m / 262144 = n / 262144 ∧
      (m / 4096 % 64 < n / 4096 % 64 ∨ m / 4096 % 64 = n / 4096 % 64 ∧
        (m / 64 % 64 < n / 64 % 64 ∨ m / 64 % 64 = n / 64 % 64 ∧ m % 64 < n % 64)) := by
  have split (k : Nat) : k = k / 262144 * 262144 + k / 4096 % 64 * 4096 + k / 64 % 64 * 64 + k % 64 := by omega
  have first := split m
  have second := split n
  have bounds (k : Nat) : k / 4096 % 64 < 64 ∧ k / 64 % 64 < 64 ∧ k % 64 < 64 := by omega
  have low := bounds m
  have low' := bounds n
  generalize m / 262144 = a, m / 4096 % 64 = b, m / 64 % 64 = c, m % 64 = d at *
  generalize n / 262144 = a', n / 4096 % 64 = b', n / 64 % 64 = c', n % 64 = d' at *
  omega

private theorem utf8EncodeChar_of_long {c : Char} (long : 0x10000 ≤ c.val.toNat) :
    String.utf8EncodeChar c =
      [UInt8.ofNat (c.val.toNat / 262144 % 8 + 240), UInt8.ofNat (c.val.toNat / 4096 % 64 + 128),
        UInt8.ofNat (c.val.toNat / 64 % 64 + 128), UInt8.ofNat (c.val.toNat % 64 + 128)] := by
  simp only [String.utf8EncodeChar]
  rw [if_neg (by omega), if_neg (by omega), if_neg (by omega)]

/-- The bytes of two characters differ in a place that both have, and there the greater character has the
greater byte. -/
theorem utf8EncodeChar_lt {c d : Char} (less : c < d) (rest more : List UInt8) :
    String.utf8EncodeChar c ++ rest < String.utf8EncodeChar d ++ more := by
  have less : c.val.toNat < d.val.toNat := less
  have top : d.val.toNat < 0x110000 := by
    have valid := d.valid
    simp only [UInt32.isValidChar, Nat.isValidChar] at valid
    omega
  rcases Nat.lt_or_ge c.val.toNat 0x10000 with short | long
  · -- The smaller character takes at most three bytes.
    simp only [String.utf8EncodeChar]
    split_ifs <;>
      simp (disch := omega) only [List.cons_append, List.nil_append, List.cons_lt_cons_iff, ofNat_lt_ofNat,
        ofNat_eq_ofNat] <;> omega
  · -- Both characters take four bytes, and the first place where their digits differ decides.
    rw [utf8EncodeChar_of_long long, utf8EncodeChar_of_long (by omega)]
    have leads : c.val.toNat / 262144 < 8 := by omega
    have leads' : d.val.toNat / 262144 < 8 := by omega
    simp (disch := omega) only [List.cons_append, List.nil_append, List.cons_lt_cons_iff, ofNat_lt_ofNat,
      ofNat_eq_ofNat, Nat.mod_eq_of_lt leads, Nat.mod_eq_of_lt leads', Nat.add_lt_add_iff_right,
      Nat.add_right_cancel_iff]
    rcases digits_lt less with first | ⟨same, second | ⟨same', third | ⟨same'', fourth⟩⟩⟩
    · exact .inl first
    · exact .inr ⟨same, .inl second⟩
    · exact .inr ⟨same, .inr ⟨same', .inl third⟩⟩
    · exact .inr ⟨same, .inr ⟨same', .inr ⟨same'', .inl fourth⟩⟩⟩

private theorem flatMap_lt {first second : List Char} (less : first < second) :
    first.flatMap String.utf8EncodeChar < second.flatMap String.utf8EncodeChar := by
  induction first generalizing second with
  | nil =>
    cases second with
    | nil => exact absurd less (List.lt_irrefl [])
    | cons d more =>
      have nonempty : (d :: more).flatMap String.utf8EncodeChar ≠ [] :=
        List.append_ne_nil_of_left_ne_nil String.utf8EncodeChar_ne_nil _
      obtain ⟨byte, bytes, found⟩ := List.exists_cons_of_ne_nil nonempty
      rw [found, List.flatMap_nil]
      exact List.nil_lt_cons byte bytes
  | cons c rest ih =>
    cases second with
    | nil => exact absurd less (List.not_lt_nil _)
    | cons d more =>
      rw [List.flatMap_cons, List.flatMap_cons]
      rcases List.cons_lt_cons_iff.mp less with here | ⟨rfl, behind⟩
      · exact utf8EncodeChar_lt here _ _
      · exact List.append_left_lt (ih behind)

/-- The order of texts is the order of their bytes. -/
theorem utf8_lt_iff {first second : String} : utf8 first < utf8 second ↔ first < second := by
  have keeps {first second : String} (less : first < second) : utf8 first < utf8 second := by
    rw [utf8_eq, utf8_eq]
    exact flatMap_lt (String.lt_iff.mp less)
  refine ⟨fun less => ?_, keeps⟩
  rcases lt_trichotomy first second with smaller | rfl | greater
  · exact smaller
  · exact absurd less (List.lt_irrefl _)
  · exact absurd less (List.lt_asymm (keeps greater))

theorem utf8_inj {first second : String} : utf8 first = utf8 second ↔ first = second := by
  rw [utf8, utf8, String.toUTF8_eq_toByteArray, String.toUTF8_eq_toByteArray, Array.toList_inj,
    ← ByteArray.ext_iff, String.toByteArray_inj]

end NullReturns.Text
