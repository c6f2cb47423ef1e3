import EntitySearch.Number.Shortest
import EntitySearch.Proofs.Text.Splitting
import Mathlib.Tactic.SplitIfs

/-!
# The shape of numerals

A finite double is written with digits only, one point between two of them at most, and one minus
sign in front at most.
-/

namespace EntitySearch

namespace Text

/-- The text is a run of digits. -/
def isDigits (characters : List Char) : Bool :=
  ! characters.isEmpty && characters.all Char.isDigit

/-- The text is a run of digits, or two with a point between them. -/
def isMagnitude (characters : List Char) : Bool :=
  match splitWhere (· == '.') characters with
  | [whole] => isDigits whole
  | [whole, fraction] => isDigits whole && isDigits fraction
  | _ => false

/-- The text is a magnitude, perhaps behind a minus sign. -/
def isNumeral : List Char → Bool
  | '-' :: magnitude => isMagnitude magnitude
  | magnitude => isMagnitude magnitude

theorem isDigits_iff (characters : List Char) :
    isDigits characters = true ↔ characters ≠ [] ∧ ∀ c ∈ characters, c.isDigit = true := by
  cases characters <;> simp [isDigits]

theorem isDigits_natDigits (value : Nat) : isDigits (natDigits value) = true := by
  rw [isDigits_iff]
  exact ⟨Nat.toDigits_ne_nil, fun c member =>
    Nat.isDigit_of_mem_toDigits (by decide) (by decide) member⟩

theorem digitsValue_natDigits (value : Nat) : digitsValue (natDigits value) = value :=
  Nat.ofDigitChars_ten_toDigits

theorem natDigits_injective : Function.Injective natDigits := by
  intro first second same
  rw [← digitsValue_natDigits first, same, digitsValue_natDigits]

theorem natText_injective : Function.Injective natText := by
  intro first second same
  exact natDigits_injective (String.ofList_injective same)

theorem isDigits_append {front back : List Char} (front_digits : isDigits front = true)
    (back_digits : ∀ c ∈ back, c.isDigit = true) : isDigits (front ++ back) = true := by
  rw [isDigits_iff] at front_digits ⊢
  refine ⟨by simp [front_digits.1], ?_⟩
  intro c member
  rcases List.mem_append.mp member with in_front | in_back
  · exact front_digits.2 c in_front
  · exact back_digits c in_back

theorem unbroken_of_isDigits {characters : List Char} (digits : isDigits characters = true) :
    ∀ c ∈ characters, (c == '.') = false := by
  intro c member
  have digit := ((isDigits_iff characters).mp digits).2 c member
  rw [beq_eq_false_iff_ne]
  rintro rfl
  revert digit
  decide

theorem isMagnitude_of_isDigits {characters : List Char} (digits : isDigits characters = true) :
    isMagnitude characters = true := by
  rw [isMagnitude, splitWhere_of_unbroken (unbroken_of_isDigits digits)]
  exact digits

theorem isMagnitude_append_point {whole fraction : List Char} (whole_digits : isDigits whole = true)
    (fraction_digits : isDigits fraction = true) :
    isMagnitude (whole ++ '.' :: fraction) = true := by
  rw [isMagnitude, splitWhere_append_cons (unbroken_of_isDigits whole_digits) (by decide),
    splitWhere_of_unbroken (unbroken_of_isDigits fraction_digits)]
  simp [whole_digits, fraction_digits]

theorem mem_magnitude {characters : List Char} (magnitude : isMagnitude characters = true) :
    ∀ c ∈ characters, c.isDigit = true ∨ c = '.' := by
  intro c member
  rw [isMagnitude] at magnitude
  rcases separates_or_mem_splitWhere (· == '.') member with point | ⟨piece, piece_member, inside⟩
  · exact .inr (by simpa using point)
  · left
    split at magnitude
    · rename_i whole pieces
      simp only [pieces, List.mem_singleton] at piece_member
      subst piece_member
      exact ((isDigits_iff _).mp magnitude).2 c inside
    · rename_i whole fraction pieces
      simp only [pieces, List.mem_cons, List.not_mem_nil, or_false] at piece_member
      rw [Bool.and_eq_true] at magnitude
      rcases piece_member with rfl | rfl
      · exact ((isDigits_iff _).mp magnitude.1).2 c inside
      · exact ((isDigits_iff _).mp magnitude.2).2 c inside
    · cases magnitude

theorem isNumeral_of_isMagnitude {characters : List Char}
    (magnitude : isMagnitude characters = true) : isNumeral characters = true := by
  rw [isNumeral]
  · exact magnitude
  · rintro rest rfl
    have minus := mem_magnitude magnitude '-' (by simp)
    revert minus
    decide

theorem mem_numeral {characters : List Char} (numeral : isNumeral characters = true) :
    ∀ c ∈ characters, c.isDigit = true ∨ c = '.' ∨ c = '-' := by
  intro c member
  rw [isNumeral.eq_def] at numeral
  split at numeral
  · rcases List.mem_cons.mp member with minus | inside
    · exact .inr (.inr minus)
    · exact (mem_magnitude numeral c inside).imp_right .inl
  · exact (mem_magnitude numeral c member).imp_right .inl

theorem ne_nil_of_isNumeral {characters : List Char} (numeral : isNumeral characters = true) :
    characters ≠ [] := by
  rintro rfl
  revert numeral
  decide

end Text

namespace Decimal

/-- Positional notation never needs a sign or an exponent. -/
theorem isMagnitude_positional (decimal : Decimal) :
    Text.isMagnitude decimal.positional = true := by
  have digits := Text.isDigits_natDigits decimal.digits
  have zeros (count : Nat) : ∀ c ∈ List.replicate count '0', c.isDigit = true := by
    intro c member
    rw [List.eq_of_mem_replicate member]
    decide
  rw [positional]
  split_ifs with whole inside
  · exact Text.isMagnitude_of_isDigits (Text.isDigits_append digits (zeros _))
  · -- The point falls inside the digits, so there are some on either side of it.
    have places_pos : 0 < (-decimal.exponent).toNat := by omega
    have all_digits := ((Text.isDigits_iff _).mp digits).2
    apply Text.isMagnitude_append_point
    · rw [Text.isDigits_iff]
      refine ⟨?_, fun c member => all_digits c (List.mem_of_mem_take member)⟩
      intro nothing
      have length_zero := congrArg List.length nothing
      simp only [List.length_take, List.length_nil] at length_zero
      omega
    · rw [Text.isDigits_iff]
      refine ⟨?_, fun c member => all_digits c (List.mem_of_mem_drop member)⟩
      intro nothing
      have length_zero := congrArg List.length nothing
      simp only [List.length_drop, List.length_nil] at length_zero
      omega
  · have zero_digits : Text.isDigits ['0'] = true := by decide
    apply Text.isMagnitude_append_point zero_digits
    rw [Text.isDigits_iff]
    refine ⟨by simp [((Text.isDigits_iff _).mp digits).1], ?_⟩
    intro c member
    rcases List.mem_append.mp member with in_zeros | in_digits
    · exact zeros _ c in_zeros
    · exact ((Text.isDigits_iff _).mp digits).2 c in_digits

end Decimal

namespace Double

theorem Finite.isNumeral_numeral (value : Finite) : Text.isNumeral value.numeral = true := by
  have magnitude := (Decimal.shortest .up value).isMagnitude_positional
  rw [numeral]
  split_ifs with zero
  · decide
  · cases value.negative with
    | true => exact magnitude
    | false => exact Text.isNumeral_of_isMagnitude magnitude

end Double

end EntitySearch
