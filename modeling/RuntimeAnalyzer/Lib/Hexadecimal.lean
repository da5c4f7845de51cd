import Mathlib.Data.List.Infix
import Mathlib.Tactic.IntervalCases

/-!
# Hexadecimal numerals of a fixed width

`padded` writes a natural number in lowercase hexadecimal ASCII digits, with zeros in front up to a
width, as a stream with `std::hex`, `std::setfill('0')` and `std::setw` does. `value` reads a string
of digits, and `value_padded` is the round trip.
-/

namespace Hexadecimal

/-- The byte is a lowercase hexadecimal digit. -/
def isDigit (byte : UInt8) : Bool :=
  (48 ≤ byte && byte ≤ 57) || (97 ≤ byte && byte ≤ 102)

/-- The number a digit stands for. -/
def digitValue (byte : UInt8) : Nat :=
  if byte ≤ 57 then byte.toNat - 48 else byte.toNat - 87

/-- The number a string of digits denotes. Leading zeros are allowed. -/
def value (digits : List UInt8) : Nat :=
  digits.foldl (fun sofar byte => 16 * sofar + digitValue byte) 0

/-- The shortest numeral of a number. -/
def render (n : Nat) : List UInt8 :=
  (Nat.toDigits 16 n).map Char.toUInt8

/-- The numeral of a number, padded with zeros. -/
def padded (width n : Nat) : List UInt8 :=
  (render n).leftpad width 48

/-! ## One digit -/

theorem is_digit_digit_char {d : Nat} (h : d < 16) : isDigit d.digitChar.toUInt8 = true := by
  interval_cases d <;> decide

theorem digit_value_digit_char {d : Nat} (h : d < 16) : digitValue d.digitChar.toUInt8 = d := by
  interval_cases d <;> decide

/-! ## Numerals -/

@[simp] theorem value_append_digit (digits : List UInt8) (byte : UInt8) :
    value (digits ++ [byte]) = 16 * value digits + digitValue byte := by
  simp [value]

/-- Zeros in front change nothing. -/
theorem value_replicate_append (k : Nat) (digits : List UInt8) :
    value (List.replicate k 48 ++ digits) = value digits := by
  induction k with
  | zero => rfl
  | succ k ih => exact ih

/-- The last digit of a numeral is the remainder, and the others are the numeral of the quotient. -/
theorem render_eq (n : Nat) :
    render n = (if n < 16 then [] else render (n / 16)) ++ [(n % 16).digitChar.toUInt8] := by
  rw [render, Nat.toDigits_eq_if (by decide)]
  split
  · rename_i hlt
    simp [Nat.mod_eq_of_lt hlt]
  · simp [render]

theorem is_digit_of_mem_render {n : Nat} {byte : UInt8} (h : byte ∈ render n) :
    isDigit byte = true := by
  induction n using Nat.strong_induction_on with
  | _ n ih =>
      rw [render_eq, List.mem_append] at h
      rcases h with hfront | hlast
      · split at hfront
        · cases hfront
        · exact ih (n / 16) (by omega) hfront
      · rw [List.mem_singleton.mp hlast]
        exact is_digit_digit_char (Nat.mod_lt n (by decide))

theorem value_render (n : Nat) : value (render n) = n := by
  induction n using Nat.strong_induction_on with
  | _ n ih =>
      rw [render_eq, value_append_digit, digit_value_digit_char (Nat.mod_lt n (by decide))]
      split
      · simp only [value, List.foldl_nil]
        omega
      · rw [ih (n / 16) (by omega)]
        omega

/-- Every byte of a padded numeral is a digit. -/
theorem is_digit_of_mem_padded {width n : Nat} {byte : UInt8} (h : byte ∈ padded width n) :
    isDigit byte = true := by
  rw [padded, List.leftpad, List.mem_append] at h
  rcases h with hzero | hdigit
  · rw [List.eq_of_mem_replicate hzero]
    rfl
  · exact is_digit_of_mem_render hdigit

/-- A number below `16 ^ width` takes exactly `width` digits. -/
theorem length_padded {width n : Nat} (hpos : 0 < width) (h : n < 16 ^ width) :
    (padded width n).length = width := by
  have hle : (render n).length ≤ width := by
    rw [render, List.length_map]
    exact (Nat.length_toDigits_le_iff (by decide) hpos).mpr h
  rw [padded, List.length_leftpad]
  exact max_eq_left hle

/-- Reading a padded numeral gives its number back. -/
theorem value_padded (width n : Nat) : value (padded width n) = n := by
  rw [padded, List.leftpad, value_replicate_append, value_render]

end Hexadecimal
