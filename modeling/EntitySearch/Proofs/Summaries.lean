import EntitySearch.Proofs.Number.Numeral
import EntitySearch.Proofs.Text.Replacing
import EntitySearch.Template

/-!
# Summaries

The line that counts the rows of a page is made by replacing one placeholder after the other, so a
number that lands between two braces of the template may make the placeholder of a later number.
This happens to the templates with a placeholder in a second pair of braces, for the numbers 1 and
2, and only then does the line differ from the template with all placeholders replaced at once.
-/

namespace EntitySearch

namespace Template

/-- Texts for the digits that may stand in a placeholder. -/
abbrev Filling := Char → Option (List Char)

namespace Filling

def none : Filling := fun _ => .none

/-- The filling with a text for one more digit. -/
def withText (filling : Filling) (digit : Char) (text : List Char) : Filling :=
  fun c => if c = digit then some text else filling c

/-- The texts are runs of digits. -/
def IsNumeric (filling : Filling) : Prop :=
  ∀ digit text, filling digit = some text → digit.isDigit = true ∧ Text.isDigits text = true

theorem isNumeric_none : none.IsNumeric := nofun

theorem IsNumeric.withText {filling : Filling} (numeric : filling.IsNumeric) {digit : Char}
    {text : List Char} (is_digit : digit.isDigit = true) (is_run : Text.isDigits text = true) :
    (filling.withText digit text).IsNumeric := by
  intro other given found
  rw [Filling.withText] at found
  split at found
  · rename_i same
    obtain rfl := Option.some.inj found
    exact ⟨same ▸ is_digit, is_run⟩
  · exact numeric other given found

end Filling

/-- The digit of the placeholder at the front of a text. -/
def placeholderAt? : List Char → Option Char
  | '{' :: digit :: '}' :: _ => some digit
  | _ => none

/-- The text with the placeholders that a filling knows replaced, all of them at once. -/
def substitute (filling : Filling) : List Char → List Char
  | [] => []
  | c :: rest =>
      match (placeholderAt? (c :: rest)).bind filling with
      | some text => text ++ substitute filling (rest.drop 2)
      | none => c :: substitute filling rest
termination_by text => text.length

theorem placeholderAt?_eq_some_iff {text : List Char} {digit : Char} :
    placeholderAt? text = some digit ↔ placeholder digit <+: text := by
  constructor
  · intro found
    rw [placeholderAt?.eq_def] at found
    split at found
    · rename_i first rest
      obtain rfl := Option.some.inj found
      exact ⟨rest, rfl⟩
    · cases found
  · rintro ⟨rest, rfl⟩
    rfl

section Steps

variable {filling : Filling}

theorem substitute_nil : substitute filling [] = [] := by rw [substitute]

theorem substitute_placeholder_append {digit : Char} {text : List Char}
    (given : filling digit = some text) (rest : List Char) :
    substitute filling (placeholder digit ++ rest) = text ++ substitute filling rest := by
  have found : (placeholderAt? (placeholder digit ++ rest)).bind filling = some text := given
  rw [placeholder, List.cons_append] at found ⊢
  rw [substitute, found]
  rfl

theorem substitute_cons {c : Char} {rest : List Char}
    (plain : ∀ digit text, filling digit = some text → ¬ placeholder digit <+: c :: rest) :
    substitute filling (c :: rest) = c :: substitute filling rest := by
  have missing : (placeholderAt? (c :: rest)).bind filling = none := by
    rw [Option.bind_eq_none_iff]
    intro digit found
    rw [Option.eq_none_iff_forall_not_mem]
    exact fun text given => plain digit text given (placeholderAt?_eq_some_iff.mp found)
  rw [substitute, missing]

/-- A text is put together from the front: nothing, a placeholder that the filling knows, or a
character at which there is none. -/
theorem substitution_induction (filling : Filling) {motive : List Char → Prop} (nil : motive [])
    (known : ∀ digit text rest, filling digit = some text → motive rest →
      motive (placeholder digit ++ rest))
    (character : ∀ c rest,
      (∀ digit text, filling digit = some text → ¬ placeholder digit <+: c :: rest) →
      motive rest → motive (c :: rest))
    (text : List Char) : motive text := by
  induction text using substitute.induct filling with
  | case1 => exact nil
  | case2 c rest text found ih =>
      obtain ⟨digit, at_front, given⟩ := Option.bind_eq_some_iff.mp found
      obtain ⟨after, shape⟩ := placeholderAt?_eq_some_iff.mp at_front
      rw [← shape]
      have after_eq : rest.drop 2 = after := by
        rw [← (List.cons.inj shape).2]
        rfl
      exact known digit text after given (after_eq ▸ ih)
  | case3 c rest missing ih =>
      refine character c rest ?_ ih
      intro digit text given at_front
      rw [placeholderAt?_eq_some_iff.mpr at_front, Option.bind_some, given] at missing
      cases missing

/-- A character other than an opening brace stands for itself. -/
theorem substitute_cons_of_ne {c : Char} (other : c ≠ '{') (rest : List Char) :
    substitute filling (c :: rest) = c :: substitute filling rest := by
  refine substitute_cons ?_
  intro digit text _ at_front
  exact other (List.cons_prefix_cons.mp at_front).1.symm

theorem substitute_append_of_unbraced {front : List Char} (unbraced : '{' ∉ front)
    (rest : List Char) : substitute filling (front ++ rest) = front ++ substitute filling rest := by
  induction front with
  | nil => rfl
  | cons c others ih =>
      rw [List.mem_cons, not_or] at unbraced
      rw [List.cons_append, substitute_cons_of_ne (Ne.symm unbraced.1), ih unbraced.2,
        List.cons_append]

theorem substitute_none (text : List Char) : substitute Filling.none text = text := by
  induction text with
  | nil => exact substitute_nil
  | cons c rest ih =>
      have unknown : ∀ digit given, Filling.none digit = some given →
          ¬ placeholder digit <+: c :: rest := by
        rintro digit given ⟨⟩
      rw [substitute_cons unknown, ih]

/-- Nothing is replaced in a text without opening braces. -/
theorem replaceAll_append_of_unbraced {front : List Char} (unbraced : '{' ∉ front) (digit : Char)
    (text rest : List Char) :
    Text.replaceAll (placeholder digit) text (front ++ rest) =
      front ++ Text.replaceAll (placeholder digit) text rest := by
  induction front with
  | nil => rfl
  | cons c others ih =>
      rw [List.mem_cons, not_or] at unbraced
      rw [List.cons_append, Text.replaceAll_cons_of_not_prefix, ih unbraced.2, List.cons_append]
      exact fun at_front => unbraced.1 (List.cons_prefix_cons.mp at_front).1

end Steps

theorem not_brace_of_isDigit {c : Char} (digit : c.isDigit = true) : c ≠ '{' ∧ c ≠ '}' := by
  constructor <;> (rintro rfl; cases digit)

theorem unbraced_of_isDigits {text : List Char} (is_run : Text.isDigits text = true) :
    '{' ∉ text := fun member =>
  (not_brace_of_isDigit (((Text.isDigits_iff text).mp is_run).2 '{' member)).1 rfl

/-- What stands behind the opening brace of a placeholder. -/
theorem unbraced_inside {digit : Char} (is_digit : digit.isDigit = true) : '{' ∉ [digit, '}'] := by
  simp [(not_brace_of_isDigit is_digit).1.symm]

theorem prefix_cons_iff (digit c : Char) (rest : List Char) :
    placeholder digit <+: c :: rest ↔ c = '{' ∧ ∃ after, rest = digit :: '}' :: after := by
  rw [placeholder, List.cons_prefix_cons]
  constructor
  · rintro ⟨rfl, after, rfl⟩
    exact ⟨rfl, after, rfl⟩
  · rintro ⟨rfl, after, rfl⟩
    exact ⟨rfl, after, rfl⟩

/-! ## Placeholders that come about -/

/-- A placeholder in a second pair of braces. -/
def braced (digit : Char) : List Char :=
  '{' :: placeholder digit ++ ['}']

theorem braced_append (digit : Char) (rest : List Char) :
    braced digit ++ rest = '{' :: (placeholder digit ++ '}' :: rest) := by
  simp [braced]

/-- Somewhere in a text, a placeholder gives way to a digit between two braces, which make the
placeholder of this digit. -/
def Collides (filling : Filling) (digit : Char) (text : List Char) : Prop :=
  ∃ inner, filling inner = some [digit] ∧ braced inner <:+: text

section Numeric

variable {filling : Filling} (numeric : filling.IsNumeric)
include numeric

/-- What comes first in a filled text and is no digit comes first in the text. -/
theorem eq_cons_of_substitute_eq {c : Char} (no_digit : c.isDigit = false) {text after : List Char}
    (filled : substitute filling text = c :: after) : ∃ rest, text = c :: rest := by
  cases text using substitution_induction filling with
  | nil => rw [substitute_nil] at filled; cases filled
  | known digit given rest found =>
      obtain ⟨solid, digits⟩ := (Text.isDigits_iff given).mp (numeric digit given found).2
      rw [substitute_placeholder_append found] at filled
      cases given with
      | nil => exact absurd rfl solid
      | cons first others =>
          obtain rfl := (List.cons.inj filled).1
          rw [digits first List.mem_cons_self] at no_digit
          cases no_digit
  | character first rest plain =>
      rw [substitute_cons plain] at filled
      exact ⟨rest, by rw [(List.cons.inj filled).1]⟩

/-- Where a digit and a closing brace come first in a filled text, they come first in the text, or
the digit was filled in in front of the brace. -/
theorem exists_of_substitute_eq {digit : Char} (is_digit : digit.isDigit = true)
    {text after : List Char} (filled : substitute filling text = digit :: '}' :: after) :
    (∃ rest, text = digit :: '}' :: rest) ∨
      ∃ inner rest, filling inner = some [digit] ∧ text = placeholder inner ++ '}' :: rest := by
  cases text using substitution_induction filling with
  | nil => rw [substitute_nil] at filled; cases filled
  | known inner given rest found =>
      obtain ⟨solid, digits⟩ := (Text.isDigits_iff given).mp (numeric inner given found).2
      rw [substitute_placeholder_append found] at filled
      match given with
      | [] => exact absurd rfl solid
      | [only] =>
          obtain ⟨rfl, behind⟩ := List.cons.inj filled
          obtain ⟨others, rfl⟩ := eq_cons_of_substitute_eq numeric rfl behind
          exact .inr ⟨inner, others, found, rfl⟩
      | first :: second :: others =>
          have is_brace := (List.cons.inj (List.cons.inj filled).2).1
          exact absurd is_brace (not_brace_of_isDigit (digits second (by simp))).2
  | character c rest plain =>
      rw [substitute_cons plain] at filled
      obtain ⟨rfl, behind⟩ := List.cons.inj filled
      obtain ⟨others, rfl⟩ := eq_cons_of_substitute_eq numeric rfl behind
      exact .inl ⟨others, rfl⟩

/-- A placeholder begins at a character that stands for itself if it did so before, or if its digit
was filled in there. -/
theorem prefix_cons_substitute_iff {digit : Char} (is_digit : digit.isDigit = true) (c : Char)
    (rest : List Char) :
    placeholder digit <+: c :: substitute filling rest ↔
      placeholder digit <+: c :: rest ∨
        ∃ inner, filling inner = some [digit] ∧ braced inner <+: c :: rest := by
  have brace_stays (others : List Char) :
      substitute filling ('}' :: others) = '}' :: substitute filling others :=
    substitute_cons_of_ne (by decide) others
  rw [prefix_cons_iff, prefix_cons_iff]
  constructor
  · rintro ⟨rfl, after, filled⟩
    rcases exists_of_substitute_eq numeric is_digit filled with ⟨others, rfl⟩ | found
    · exact .inl ⟨rfl, others, rfl⟩
    · obtain ⟨inner, others, given, rfl⟩ := found
      exact .inr ⟨inner, given, others, rfl⟩
  · rintro (⟨rfl, others, rfl⟩ | ⟨inner, given, others, shape⟩)
    · refine ⟨rfl, substitute filling others, ?_⟩
      rw [substitute_cons_of_ne (not_brace_of_isDigit is_digit).1, brace_stays]
    · rw [braced_append] at shape
      obtain ⟨rfl, rfl⟩ := List.cons.inj shape
      refine ⟨rfl, substitute filling others, ?_⟩
      rw [substitute_placeholder_append given, brace_stays, List.singleton_append]

end Numeric

theorem collides_cons_iff (filling : Filling) (digit c : Char) (rest : List Char) :
    Collides filling digit (c :: rest) ↔
      (∃ inner, filling inner = some [digit] ∧ braced inner <+: c :: rest) ∨
        Collides filling digit rest := by
  simp only [Collides, List.infix_cons_iff, and_or_left, exists_or]

/-- The characters of a placeholder have no part in a collision behind it. -/
theorem collides_placeholder_append_iff (filling : Filling) (digit : Char) {other : Char}
    (is_digit : other.isDigit = true) (rest : List Char) :
    Collides filling digit (placeholder other ++ rest) ↔ Collides filling digit rest := by
  obtain ⟨not_open, not_close⟩ := not_brace_of_isDigit is_digit
  simp [placeholder, collides_cons_iff, braced, List.cons_prefix_cons, Ne.symm not_open]

/-! ## One after the other -/

section Numeric

variable {filling : Filling} (numeric : filling.IsNumeric) {digit : Char}
  (is_digit : digit.isDigit = true) (unknown : filling digit = none)
include numeric is_digit unknown

/-- Replacing one more placeholder in a filled text is filling it in with the others, unless some of
the others make that placeholder. -/
theorem replaceAll_substitute (given : List Char) {text : List Char}
    (apart : ¬ Collides filling digit text) :
    Text.replaceAll (placeholder digit) given (substitute filling text) =
      substitute (filling.withText digit given) text := by
  induction text using substitution_induction filling with
  | nil => rw [substitute_nil, substitute_nil, Text.replaceAll_nil]
  | known other known_text rest found ih =>
      obtain ⟨other_digit, is_run⟩ := numeric other known_text found
      have other_ne : other ≠ digit := by
        rintro rfl
        rw [unknown] at found
        cases found
      have still_found : filling.withText digit given other = some known_text := by
        rw [Filling.withText, if_neg other_ne, found]
      rw [collides_placeholder_append_iff filling digit other_digit] at apart
      rw [substitute_placeholder_append found, substitute_placeholder_append still_found,
        replaceAll_append_of_unbraced (unbraced_of_isDigits is_run), ih apart]
  | character c rest plain ih =>
      rw [collides_cons_iff, not_or] at apart
      have later := ih apart.2
      rw [substitute_cons plain]
      by_cases here : placeholder digit <+: c :: rest
      · -- The digit and its closing brace stand for themselves in the first filling.
        obtain ⟨rfl, after, rfl⟩ := (prefix_cons_iff digit c rest).mp here
        have found : filling.withText digit given digit = some given := if_pos rfl
        have unbraced := unbraced_inside is_digit
        have filled (other : Filling) : substitute other (digit :: '}' :: after) =
            [digit, '}'] ++ substitute other after := substitute_append_of_unbraced unbraced after
        rw [filled, filled, replaceAll_append_of_unbraced unbraced] at later
        have behind := List.append_cancel_left later
        have front (others : List Char) :
            '{' :: ([digit, '}'] ++ others) = placeholder digit ++ others := rfl
        have solid : placeholder digit ≠ [] := List.cons_ne_nil _ _
        rw [filled, front, Text.replaceAll_pattern_append solid, behind]
        exact (substitute_placeholder_append found after).symm
      · have nowhere : ¬ placeholder digit <+: c :: substitute filling rest := by
          rw [prefix_cons_substitute_iff numeric is_digit]
          exact not_or.mpr ⟨here, apart.1⟩
        have plain_still : ∀ other other_text,
            filling.withText digit given other = some other_text →
              ¬ placeholder other <+: c :: rest := by
          intro other other_text found
          rw [Filling.withText] at found
          split at found
          · rename_i same
            exact same ▸ here
          · exact plain other other_text found
        rw [Text.replaceAll_cons_of_not_prefix nowhere, substitute_cons plain_still, later]

end Numeric

/-- Replacing a placeholder is a filling of its own. -/
theorem replaceAll_eq_substitute {digit : Char} (is_digit : digit.isDigit = true)
    (given text : List Char) :
    Text.replaceAll (placeholder digit) given text =
      substitute (Filling.none.withText digit given) text := by
  have apart : ¬ Collides Filling.none digit text := by rintro ⟨_, ⟨⟩, _⟩
  have replaced := replaceAll_substitute Filling.isNumeric_none is_digit rfl given apart
  rwa [substitute_none] at replaced

/-! ## Counting braces -/

/-- How often the placeholder of a digit stands in a text. -/
def occurrences (digit : Char) : List Char → Nat
  | [] => 0
  | c :: rest => (if placeholder digit <+: c :: rest then 1 else 0) + occurrences digit rest

theorem occurrences_append_of_unbraced {front : List Char} (unbraced : '{' ∉ front) (digit : Char)
    (rest : List Char) : occurrences digit (front ++ rest) = occurrences digit rest := by
  induction front with
  | nil => rfl
  | cons c others ih =>
      rw [List.mem_cons, not_or] at unbraced
      have nowhere : ¬ placeholder digit <+: c :: (others ++ rest) := fun at_front =>
        unbraced.1 (List.cons_prefix_cons.mp at_front).1
      rw [List.cons_append, occurrences, if_neg nowhere, Nat.zero_add, ih unbraced.2]

theorem occurrences_placeholder_append {other : Char} (other_digit : other.isDigit = true)
    (digit : Char) (rest : List Char) :
    occurrences digit (placeholder other ++ rest) =
      (if other = digit then 1 else 0) + occurrences digit rest := by
  have front : placeholder other ++ rest = '{' :: ([other, '}'] ++ rest) := rfl
  have here : placeholder digit <+: '{' :: ([other, '}'] ++ rest) ↔ other = digit := by
    rw [prefix_cons_iff]
    simp
  rw [front, occurrences, occurrences_append_of_unbraced (unbraced_inside other_digit)]
  simp only [here]

section Numeric

variable {filling : Filling} (numeric : filling.IsNumeric) {digit : Char}
  (is_digit : digit.isDigit = true)
include numeric is_digit

omit numeric in
theorem substitute_placeholder_append_of_unknown (unknown : filling digit = none)
    (rest : List Char) :
    substitute filling (placeholder digit ++ rest) =
      placeholder digit ++ substitute filling rest := by
  have plain : ∀ other text, filling other = some text →
      ¬ placeholder other <+: '{' :: ([digit, '}'] ++ rest) := by
    intro other text found at_front
    obtain ⟨_, after, shape⟩ := (prefix_cons_iff other '{' _).mp at_front
    rw [← (List.cons.inj shape).1, unknown] at found
    cases found
  show substitute filling ('{' :: ([digit, '}'] ++ rest)) = _
  rw [substitute_cons plain, substitute_append_of_unbraced (unbraced_inside is_digit)]
  rfl

/-- A filling that knows one more placeholder leaves an opening brace less for each of them. -/
theorem count_substitute_withText (unknown : filling digit = none) {given : List Char}
    (is_run : Text.isDigits given = true) (text : List Char) :
    (substitute (filling.withText digit given) text).count '{' + occurrences digit text =
      (substitute filling text).count '{' := by
  have no_brace {run : List Char} (is_run : Text.isDigits run = true) : run.count '{' = 0 :=
    List.count_eq_zero.mpr (unbraced_of_isDigits is_run)
  induction text using substitution_induction (filling.withText digit given) with
  | nil => rw [substitute_nil, substitute_nil, occurrences, Nat.add_zero]
  | known other text rest found ih =>
      obtain ⟨other_digit, other_run⟩ := numeric.withText is_digit is_run other text found
      rw [substitute_placeholder_append found, occurrences_placeholder_append other_digit,
        List.count_append, no_brace other_run]
      by_cases same : other = digit
      · subst same
        have one_brace : (placeholder other).count '{' = 1 := by
          simp [placeholder, (not_brace_of_isDigit is_digit).1]
        rw [if_pos rfl, substitute_placeholder_append_of_unknown is_digit unknown,
          List.count_append, one_brace]
        omega
      · rw [Filling.withText, if_neg same] at found
        rw [if_neg same, substitute_placeholder_append found, List.count_append, no_brace other_run]
        omega
  | character c rest plain ih =>
      have nowhere : ¬ placeholder digit <+: c :: rest := plain digit given (if_pos rfl)
      have plain_before : ∀ other text, filling other = some text →
          ¬ placeholder other <+: c :: rest := by
        intro other text found
        refine plain other text ?_
        rw [Filling.withText, if_neg, found]
        rintro rfl
        rw [unknown] at found
        cases found
      rw [substitute_cons plain, substitute_cons plain_before, occurrences, if_neg nowhere,
        List.count_cons, List.count_cons]
      omega

/-- A filling keeps the placeholders that it does not know, and where its texts collide with the
braces around them, there are more of these placeholders than before. -/
theorem occurrences_le_occurrences_substitute (unknown : filling digit = none) (text : List Char) :
    occurrences digit text ≤ occurrences digit (substitute filling text) ∧
      (Collides filling digit text →
        occurrences digit text < occurrences digit (substitute filling text)) := by
  induction text using substitution_induction filling with
  | nil =>
      rw [substitute_nil]
      refine ⟨le_rfl, ?_⟩
      rintro ⟨inner, _, inside⟩
      cases List.infix_nil.mp inside
  | known other text rest found ih =>
      obtain ⟨other_digit, is_run⟩ := numeric other text found
      have other_ne : other ≠ digit := by
        rintro rfl
        rw [unknown] at found
        cases found
      rw [substitute_placeholder_append found, occurrences_placeholder_append other_digit,
        if_neg other_ne, Nat.zero_add,
        occurrences_append_of_unbraced (unbraced_of_isDigits is_run),
        collides_placeholder_append_iff filling digit other_digit]
      exact ih
  | character c rest plain ih =>
      obtain ⟨kept, more⟩ := ih
      have begins := prefix_cons_substitute_iff numeric is_digit c rest
      rw [substitute_cons plain, occurrences, occurrences, collides_cons_iff]
      by_cases here : placeholder digit <+: c :: rest
      · rw [if_pos here, if_pos (begins.mpr (.inl here))]
        refine ⟨by omega, ?_⟩
        rintro (⟨inner, _, after, shape⟩ | later)
        · -- Two braces in a row are no beginning of a placeholder.
          obtain ⟨_, others, rfl⟩ := (prefix_cons_iff digit c rest).mp here
          rw [braced_append] at shape
          have brace_eq := (List.cons.inj (List.cons.inj shape).2).1
          exact absurd brace_eq.symm (not_brace_of_isDigit is_digit).1
        · have more_later := more later
          omega
      · rw [if_neg here]
        refine ⟨by omega, ?_⟩
        rintro (made | later)
        · rw [if_pos (begins.mpr (.inr made))]
          omega
        · have more_later := more later
          omega

end Numeric

theorem count_replaceAll {digit : Char} (is_digit : digit.isDigit = true) {given : List Char}
    (is_run : Text.isDigits given = true) (text : List Char) :
    (Text.replaceAll (placeholder digit) given text).count '{' + occurrences digit text =
      text.count '{' := by
  have counted :=
    count_substitute_withText Filling.isNumeric_none is_digit rfl is_run text
  rwa [substitute_none, ← replaceAll_eq_substitute is_digit] at counted

theorem occurrences_le_occurrences_replaceAll {digit other : Char} (is_digit : digit.isDigit = true)
    (other_digit : other.isDigit = true) (different : digit ≠ other) {given : List Char}
    (is_run : Text.isDigits given = true) (text : List Char) :
    occurrences digit text ≤
      occurrences digit (Text.replaceAll (placeholder other) given text) := by
  rw [replaceAll_eq_substitute other_digit]
  exact (occurrences_le_occurrences_substitute
    (Filling.isNumeric_none.withText other_digit is_run) is_digit (if_neg different) text).1

theorem collides_withText_iff {filling : Filling} {inner : Char} (unknown : filling inner = none)
    (given : List Char) (digit : Char) (text : List Char) :
    Collides (filling.withText inner given) digit text ↔
      given = [digit] ∧ braced inner <:+: text ∨ Collides filling digit text := by
  constructor
  · rintro ⟨other, found, inside⟩
    rw [Filling.withText] at found
    split at found
    · rename_i same
      subst same
      exact .inl ⟨Option.some.inj found, inside⟩
    · exact .inr ⟨other, found, inside⟩
  · rintro (⟨rfl, inside⟩ | ⟨other, found, inside⟩)
    · exact ⟨inner, if_pos rfl, inside⟩
    · refine ⟨other, ?_, inside⟩
      rw [Filling.withText, if_neg, found]
      rintro rfl
      rw [unknown] at found
      cases found

/-- Two more placeholders are replaced in a filled text as if they were filled in with the others
exactly if none of the texts filled in before collides with their braces. -/
theorem replaceAll_replaceAll_eq_iff {filling : Filling} (numeric : filling.IsNumeric)
    {digit later : Char} (is_digit : digit.isDigit = true) (later_digit : later.isDigit = true)
    (different : later ≠ digit) (unknown : filling digit = none)
    (later_unknown : filling later = none) {given later_given : List Char}
    (is_run : Text.isDigits given = true) (later_run : Text.isDigits later_given = true)
    (text : List Char) :
    Text.replaceAll (placeholder later) later_given
        (Text.replaceAll (placeholder digit) given (substitute filling text)) =
        substitute ((filling.withText digit given).withText later later_given) text ↔
      ¬ Collides filling digit text ∧ ¬ Collides (filling.withText digit given) later text := by
  have both_numeric := numeric.withText is_digit is_run
  have unknown_then : filling.withText digit given later = none := by
    rw [Filling.withText, if_neg different, later_unknown]
  constructor
  · intro same
    -- Every placeholder replaced takes an opening brace away, so no more can have been replaced.
    have braces := congrArg (List.count '{') same
    have counted := count_replaceAll is_digit is_run (substitute filling text)
    have counted_later := count_replaceAll later_digit later_run
      (Text.replaceAll (placeholder digit) given (substitute filling text))
    have filled := count_substitute_withText numeric is_digit unknown is_run text
    have filled_later :=
      count_substitute_withText both_numeric later_digit unknown_then later_run text
    obtain ⟨kept, more⟩ := occurrences_le_occurrences_substitute numeric is_digit unknown text
    obtain ⟨kept_later, _⟩ :=
      occurrences_le_occurrences_substitute numeric later_digit later_unknown text
    have kept_on := occurrences_le_occurrences_replaceAll later_digit is_digit different is_run
      (substitute filling text)
    have apart : ¬ Collides filling digit text := fun collides => by
      have strictly := more collides
      omega
    refine ⟨apart, fun collides => ?_⟩
    have strictly := (occurrences_le_occurrences_substitute both_numeric later_digit unknown_then
      text).2 collides
    rw [← replaceAll_substitute numeric is_digit unknown given apart] at strictly
    omega
  · rintro ⟨apart, later_apart⟩
    rw [replaceAll_substitute numeric is_digit unknown given apart,
      replaceAll_substitute both_numeric later_digit unknown_then later_given later_apart]

/-! ## The line itself -/

/-- The summary with all of its placeholders replaced at once. -/
def summaryAtOnce (template : String) (first last total : Nat) : String :=
  let filling :=
    ((Filling.none.withText '0' (Text.natDigits first)).withText '1'
      (Text.natDigits last)).withText '2' (Text.natDigits total)
  String.ofList (substitute filling template.toList)

/-- A summary is the template with its placeholders replaced at once, unless the first row is 1 or 2
and its placeholder stands in a second pair of braces, or the last row is 2 and its does. -/
theorem summary_eq_summaryAtOnce_iff (template : String) (first last total : Nat) :
    summary template first last total = summaryAtOnce template first last total ↔
      ¬ ((first = 1 ∨ first = 2) ∧ braced '0' <:+: template.toList ∨
        last = 2 ∧ braced '1' <:+: template.toList) := by
  have is_run := Text.isDigits_natDigits
  have natDigits_eq_iff (number : Nat) (digit : Char) (value : Nat)
      (written : Text.natDigits value = [digit]) :
      Text.natDigits number = [digit] ↔ number = value := by
    rw [← written]
    exact Text.natDigits_injective.eq_iff
  let one := Filling.none.withText '0' (Text.natDigits first)
  have one_numeric : one.IsNumeric := Filling.isNumeric_none.withText rfl (is_run first)
  have nothing (digit : Char) : ¬ Collides Filling.none digit template.toList := by
    rintro ⟨_, ⟨⟩, _⟩
  have collides_one : Collides one '1' template.toList ↔
      first = 1 ∧ braced '0' <:+: template.toList := by
    rw [collides_withText_iff rfl, natDigits_eq_iff first '1' 1 rfl, or_iff_left (nothing '1')]
  have collides_two : Collides (one.withText '1' (Text.natDigits last)) '2' template.toList ↔
      last = 2 ∧ braced '1' <:+: template.toList ∨ first = 2 ∧ braced '0' <:+: template.toList := by
    rw [collides_withText_iff rfl, collides_withText_iff rfl, natDigits_eq_iff first '2' 2 rfl,
      natDigits_eq_iff last '2' 2 rfl, or_iff_left (nothing '2')]
  have zero_digit : '0'.isDigit = true := rfl
  have one_digit : '1'.isDigit = true := rfl
  have two_digit : '2'.isDigit = true := rfl
  have stepwise := replaceAll_replaceAll_eq_iff one_numeric one_digit two_digit (by decide) rfl rfl
    (is_run last) (is_run total) template.toList
  rw [summary, summaryAtOnce, String.ofList_inj, replaceAll_eq_substitute zero_digit, stepwise,
    collides_one, collides_two, ← not_or, or_and_right, or_assoc]
  exact not_congr (or_congr_right or_comm)

/-- A placeholder in two pairs of braces shows the last row instead of the first one, which is 1. -/
theorem not_summary_eq_summaryAtOnce :
    ¬ ∀ (template : String) (first last total : Nat),
      summary template first last total = summaryAtOnce template first last total := by
  intro same
  have shown : summary "\x7b\x7b0\x7d\x7d" 1 20 42 = "20" := by decide +kernel
  have expected : summaryAtOnce "\x7b\x7b0\x7d\x7d" 1 20 42 = "\x7b1\x7d" := by decide +kernel
  have equal := same "\x7b\x7b0\x7d\x7d" 1 20 42
  rw [shown, expected] at equal
  revert equal
  decide

end Template

end EntitySearch
