import EntitySearch.Text.Numerals
import Mathlib.Data.List.Induction
import Mathlib.Tactic.Ring

/-!
# Runs of digits

The value of a run of digits is below the power of ten of its length, and runs put together have
their values put together. A number that is written with a fixed count of digits reads back as what
these digits can hold of it.
-/

namespace EntitySearch

namespace Text

theorem digitValue_lt {c : Char} (digit : c.isDigit = true) : digitValue c < 10 := by
  rw [Char.isDigit, Bool.and_eq_true, decide_eq_true_eq, decide_eq_true_eq] at digit
  have greatest : c.toNat ≤ 57 := digit.2
  have zero_eq : '0'.toNat = 48 := rfl
  rw [digitValue]
  omega

theorem digitsValue_append_singleton (digits : List Char) (c : Char) :
    digitsValue (digits ++ [c]) = 10 * digitsValue digits + digitValue c := by
  simp [digitsValue]

theorem digitsValue_append (front back : List Char) :
    digitsValue (front ++ back) = digitsValue front * 10 ^ back.length + digitsValue back := by
  induction back using List.reverseRecOn with
  | nil => simp [digitsValue]
  | append_singleton rest last ih =>
      rw [← List.append_assoc, digitsValue_append_singleton, ih, digitsValue_append_singleton,
        List.length_append, List.length_singleton]
      ring

theorem digitsValue_lt {digits : List Char} (all_digits : ∀ c ∈ digits, c.isDigit = true) :
    digitsValue digits < 10 ^ digits.length := by
  induction digits using List.reverseRecOn with
  | nil => decide
  | append_singleton rest last ih =>
      have shorter := ih fun c member => all_digits c (List.mem_append_left [last] member)
      have last_lt := digitValue_lt (all_digits last (by simp))
      rw [digitsValue_append_singleton, List.length_append, List.length_singleton, Nat.pow_succ]
      omega

/-- Digits are cut off the end by a division. -/
theorem digitsValue_append_div (front : List Char) {back : List Char}
    (back_digits : ∀ c ∈ back, c.isDigit = true) :
    digitsValue (front ++ back) / 10 ^ back.length = digitsValue front := by
  rw [digitsValue_append, Nat.mul_comm, Nat.mul_add_div (Nat.pow_pos (by decide)),
    Nat.div_eq_of_lt (digitsValue_lt back_digits), Nat.add_zero]

/-! ## Digits of fixed width -/

theorem digitValue_digitChar {value : Nat} (small : value < 10) :
    digitValue (Nat.digitChar value) = value := by
  have all_digits : ∀ digit : Fin 10, digitValue (Nat.digitChar digit) = digit := by decide
  exact all_digits ⟨value, small⟩

theorem isDigit_of_mem_paddedDigits {width value : Nat} :
    ∀ c ∈ paddedDigits width value, c.isDigit = true := by
  induction width generalizing value with
  | zero => simp [paddedDigits]
  | succ width ih =>
      intro c member
      rcases List.mem_append.mp member with leading | last
      · exact ih c leading
      · rw [List.mem_singleton.mp last, Nat.isDigit_digitChar]
        exact decide_eq_true (Nat.mod_lt value (by decide))

theorem digitsValue_paddedDigits (width value : Nat) :
    digitsValue (paddedDigits width value) = value % 10 ^ width := by
  induction width generalizing value with
  | zero => simp [paddedDigits, digitsValue, Nat.mod_one]
  | succ width ih =>
      rw [paddedDigits, digitsValue_append_singleton, ih,
        digitValue_digitChar (Nat.mod_lt value (by decide)), Nat.pow_succ', Nat.mod_mul,
        Nat.add_comm]

/-- What does not fit into the width is not written. -/
theorem paddedDigits_mod (width value : Nat) :
    paddedDigits width (value % 10 ^ width) = paddedDigits width value := by
  induction width generalizing value with
  | zero => rfl
  | succ width ih =>
      rw [paddedDigits, paddedDigits, Nat.pow_succ', Nat.mod_mul_right_div_self, ih,
        Nat.mod_mul_right_mod]

end Text

end EntitySearch
