import Mathlib.Data.List.Infix

/-!
# Decimal numerals as bytes

`render` writes a natural number in decimal ASCII digits, as `std::to_string` does, and `value`
reads a string of digits. `value_render` is the round trip.
-/

namespace Decimal

/-- The byte is an ASCII digit. -/
def isDigit (byte : UInt8) : Bool :=
  48 ≤ byte && byte ≤ 57

/-- The decimal numeral of a number. -/
def render (n : Nat) : List UInt8 :=
  (Nat.toDigits 10 n).map Char.toUInt8

/-- The number a string of digits denotes. Leading zeros are allowed. -/
def value (digits : List UInt8) : Nat :=
  digits.foldl (fun sofar byte => 10 * sofar + (byte.toNat - 48)) 0

/-- A decimal digit is one byte, with the digit's code point. -/
theorem toNat_toUInt8 {c : Char} (h : c.isDigit = true) : c.toUInt8.toNat = c.toNat := by
  have hle : c.toNat ≤ 57 := (Char.isDigit_iff_toNat.mp h).2
  change c.val.toUInt8.toNat = c.val.toNat
  rw [UInt32.toNat_toUInt8]
  exact Nat.mod_eq_of_lt (Nat.lt_of_le_of_lt hle (by decide))

/-- Every byte of a numeral is a digit. -/
theorem isDigit_of_mem_render {n : Nat} {byte : UInt8} (h : byte ∈ render n) :
    isDigit byte = true := by
  obtain ⟨c, hc, rfl⟩ := List.mem_map.mp h
  have hdigit := Nat.isDigit_of_mem_toDigits (by omega) (by omega) hc
  obtain ⟨hlo, hhi⟩ := Char.isDigit_iff_toNat.mp hdigit
  have hnat := toNat_toUInt8 hdigit
  simp only [isDigit, Bool.and_eq_true, decide_eq_true_eq, UInt8.le_iff_toNat_le, hnat]
  exact ⟨hlo, hhi⟩

/-- A numeral has at least one digit. -/
theorem render_ne_nil (n : Nat) : render n ≠ [] := by
  simp [render, Nat.toDigits_ne_nil]

/-- Reading a numeral gives its number back. -/
theorem value_render (n : Nat) : value (render n) = n := by
  have hfold : ∀ (cs : List Char) (start : Nat), (∀ c ∈ cs, c.isDigit = true) →
      (cs.map Char.toUInt8).foldl (fun sofar byte => 10 * sofar + (byte.toNat - 48)) start =
        Nat.ofDigitChars 10 cs start := by
    intro cs
    induction cs with
    | nil => simp
    | cons c cs ih =>
        intro start hall
        rw [List.map_cons, List.foldl_cons, Nat.ofDigitChars_cons,
          toNat_toUInt8 (hall c (by simp)), ih _ (fun d hd => hall d (by simp [hd]))]
        rfl
  rw [value, render, hfold _ _ fun c hc => Nat.isDigit_of_mem_toDigits (by omega) (by omega) hc,
    Nat.ofDigitChars_ten_toDigits]

/-- A byte that is not a digit occurs in no numeral. -/
theorem not_mem_render {byte : UInt8} (n : Nat) (h : isDigit byte = false) : byte ∉ render n :=
  fun hmem => by simp [isDigit_of_mem_render hmem] at h

end Decimal
