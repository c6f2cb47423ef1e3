import EntitySearch.Proofs.Number.Numeral
import EntitySearch.Proofs.Templates
import Mathlib.Data.List.TakeWhile

/-!
# Substitution in one pass

A slot is a run of digits in braces. Two slots of a text never overlap, so a function on texts is
known once it puts a text in for a slot wherever one stands, and leaves alone the texts without a
slot. Filling a template is that function. A loop does the same that looks for the next brace, and
from there for a slot; each round leaves less of the template.
-/

namespace EntitySearch

namespace Template

/-! ## Slots -/

/-- The slot of a number in digits. -/
def slot (digits : List Char) : List Char :=
  '{' :: digits ++ ['}']

/-- The text starts with a slot. -/
def StartsWithSlot (text : List Char) : Prop :=
  ∃ digits, Text.isDigits digits = true ∧ slot digits <+: text

/-- The text has a slot. -/
def HasSlot (text : List Char) : Prop :=
  ∃ digits, Text.isDigits digits = true ∧ slot digits <:+: text

/-- The text put in for a slot: the value with its number, and nothing for a number that is past the
last value or no 64-bit word. -/
def insertion (values : List String) (digits : List Char) : String :=
  if Text.digitsValue digits < Nat.pow 2 64 then values.getD (Text.digitsValue digits) "" else ""

/-- The function puts texts in for slots, whatever stands around them, and changes nothing else. -/
structure IsSubstitution (values : List String) (filled : String → String) : Prop where
  slot_eq : ∀ front digits back, Text.isDigits digits = true →
    filled (front ++ String.ofList (slot digits) ++ back) =
      filled front ++ insertion values digits ++ filled back
  plain_eq : ∀ text : String, ¬ HasSlot text.toList → filled text = text

theorem toList_insertion (values : List String) (digits : List Char) :
    (insertion values digits).toList = valueText values digits := by
  rw [insertion, valueText, Text.word?]
  split_ifs
  · rw [Option.bind_some, List.getD_eq_getElem?_getD]
    cases values[Text.digitsValue digits]? <;> rfl
  · rfl

theorem dropWhile_digits_append {digits : List Char} (is_run : Text.isDigits digits = true)
    (back : List Char) :
    (digits ++ '}' :: back).dropWhile Char.isDigit = '}' :: back := by
  rw [List.dropWhile_append_of_pos ((Text.isDigits_iff digits).mp is_run).2,
    List.dropWhile_cons_of_neg (by decide)]

theorem takeWhile_digits_append {digits : List Char} (is_run : Text.isDigits digits = true)
    (back : List Char) :
    (digits ++ '}' :: back).takeWhile Char.isDigit = digits := by
  rw [List.takeWhile_append_of_pos ((Text.isDigits_iff digits).mp is_run).2,
    List.takeWhile_cons_of_neg (by decide), List.append_nil]

/-- Digits and a closing brace behind a brace are the slot at the front. -/
theorem eq_slot_append {rest after : List Char}
    (closed : rest.dropWhile Char.isDigit = '}' :: after) :
    '{' :: rest = slot (rest.takeWhile Char.isDigit) ++ after := by
  have rest_eq := List.takeWhile_append_dropWhile (p := Char.isDigit) (l := rest)
  rw [closed] at rest_eq
  conv => lhs; rw [← rest_eq]
  simp [slot]

theorem isDigits_takeWhile {rest : List Char}
    (numbered : ¬ (rest.takeWhile Char.isDigit).isEmpty = true) :
    Text.isDigits (rest.takeWhile Char.isDigit) = true :=
  (Text.isDigits_iff _).mpr
    ⟨mt List.isEmpty_iff.mpr numbered, fun _ member => List.mem_takeWhile_imp member⟩

/-- A text starts with a slot if digits and a closing brace follow a brace at its start. -/
theorem startsWithSlot_cons_iff {c : Char} {rest : List Char} :
    StartsWithSlot (c :: rest) ↔
      c = '{' ∧ ¬ (rest.takeWhile Char.isDigit).isEmpty = true ∧
        ∃ after, rest.dropWhile Char.isDigit = '}' :: after := by
  constructor
  · rintro ⟨digits, is_run, after, shape⟩
    have rest_eq : rest = digits ++ '}' :: after := by
      simpa [slot] using (List.cons.inj shape).2.symm
    rw [rest_eq, takeWhile_digits_append is_run, dropWhile_digits_append is_run]
    exact ⟨(List.cons.inj shape).1.symm,
      mt List.isEmpty_iff.mp ((Text.isDigits_iff digits).mp is_run).1, after, rfl⟩
  · rintro ⟨rfl, numbered, after, closed⟩
    exact ⟨_, isDigits_takeWhile numbered, after, (eq_slot_append closed).symm⟩

/-- A slot that reaches behind a brace starts at it. -/
theorem StartsWithSlot.of_append {c : Char} {rest back : List Char}
    (slotted : StartsWithSlot (c :: rest ++ '{' :: back)) : StartsWithSlot (c :: rest) := by
  obtain ⟨digits, is_run, after, shape⟩ := slotted
  refine ⟨digits, is_run, ?_⟩
  rcases List.append_eq_append_iff.mp shape with ⟨left, inside, -⟩ | ⟨left, beyond, left_eq⟩
  · exact ⟨left, inside.symm⟩
  · cases left with
    | nil => exact ⟨[], by rw [List.append_nil, beyond, List.append_nil]⟩
    | cons brace left =>
        obtain rfl := (List.cons.inj left_eq).1
        -- The slot would have the brace among its digits.
        have digits_eq : digits ++ ['}'] = rest ++ '{' :: left := (List.cons.inj beyond).2
        have inner : '{' ∈ digits ++ ['}'] := by
          rw [digits_eq]
          simp
        rcases List.mem_append.mp inner with digit | closing
        · exact absurd (((Text.isDigits_iff _).mp is_run).2 '{' digit) (by decide)
        · simp at closing

/-! ## Filling character by character and slot by slot -/

section Steps

variable {values : List String}

theorem fillCharacters_slot_append {digits : List Char} (is_run : Text.isDigits digits = true)
    (back : List Char) :
    fillCharacters values (slot digits ++ back) =
      valueText values digits ++ fillCharacters values back := by
  have solid : ¬ digits.isEmpty = true :=
    mt List.isEmpty_iff.mp ((Text.isDigits_iff digits).mp is_run).1
  rw [slot, List.append_assoc, List.cons_append, List.singleton_append,
    fillCharacters_of_closed values (dropWhile_digits_append is_run back),
    takeWhile_digits_append is_run, if_neg solid]

/-- Text without a brace is copied. -/
theorem fillCharacters_append_of_not_mem {front : List Char} (free : '{' ∉ front)
    (back : List Char) :
    fillCharacters values (front ++ back) = front ++ fillCharacters values back := by
  induction front with
  | nil => rfl
  | cons c rest ih =>
      have other : c ≠ '{' := (List.ne_of_not_mem_cons free).symm
      rw [List.cons_append, fillCharacters, if_neg other, ih (List.not_mem_of_not_mem_cons free),
        List.cons_append]

/-- A character at which no slot starts is copied. -/
theorem fillCharacters_cons {c : Char} {rest : List Char} (plain : ¬ StartsWithSlot (c :: rest)) :
    fillCharacters values (c :: rest) = c :: fillCharacters values rest := by
  by_cases brace : c = '{'
  · obtain rfl := brace
    by_cases closed : ∃ after, rest.dropWhile Char.isDigit = '}' :: after
    · have unnumbered : (rest.takeWhile Char.isDigit).isEmpty = true := by
        by_contra numbered
        exact plain (startsWithSlot_cons_iff.mpr ⟨rfl, numbered, closed⟩)
      obtain ⟨after, closed⟩ := closed
      rw [fillCharacters_of_closed values closed, if_pos unnumbered]
    · exact fillCharacters_of_open values fun after found => closed ⟨after, found⟩
  · rw [fillCharacters, if_neg brace]

end Steps

/-- A text is put together from the front: nothing, a slot, or a character at which none starts. -/
theorem slot_induction {motive : List Char → Prop} (nil : motive [])
    (slot : ∀ digits rest, Text.isDigits digits = true → motive rest →
      motive (slot digits ++ rest))
    (character : ∀ c rest, ¬ StartsWithSlot (c :: rest) → motive rest → motive (c :: rest))
    (text : List Char) : motive text := by
  induction text using fillCharacters.induct with
  | case1 => exact nil
  | case2 rest after closed digits unnumbered ih =>
      exact character '{' rest
        (fun slotted => (startsWithSlot_cons_iff.mp slotted).2.1 unnumbered) ih
  | case3 rest after closed digits numbered ih =>
      rw [eq_slot_append closed]
      exact slot digits after (isDigits_takeWhile numbered) ih
  | case4 rest unclosed ih =>
      refine character '{' rest (fun slotted => ?_) ih
      obtain ⟨-, -, after, closed⟩ := startsWithSlot_cons_iff.mp slotted
      exact unclosed after closed
  | case5 c rest other ih =>
      exact character c rest (fun slotted => other (startsWithSlot_cons_iff.mp slotted).1) ih

/-- A text that starts with a brace is filled on its own. -/
theorem fillCharacters_append_brace (values : List String) (front back : List Char) :
    fillCharacters values (front ++ '{' :: back) =
      fillCharacters values front ++ fillCharacters values ('{' :: back) := by
  induction front using slot_induction with
  | nil => rw [List.nil_append, fillCharacters, List.nil_append]
  | slot digits rest is_run ih =>
      rw [List.append_assoc, fillCharacters_slot_append is_run, ih,
        fillCharacters_slot_append is_run, List.append_assoc]
  | character c rest plain ih =>
      have still_plain : ¬ StartsWithSlot (c :: (rest ++ '{' :: back)) :=
        fun slotted => plain slotted.of_append
      rw [List.cons_append, fillCharacters_cons still_plain, ih, fillCharacters_cons plain,
        List.cons_append]

/-- A text without a slot is left alone. -/
theorem fillCharacters_of_not_hasSlot {values : List String} {text : List Char}
    (plain : ¬ HasSlot text) : fillCharacters values text = text := by
  induction text using slot_induction with
  | nil => rw [fillCharacters]
  | slot digits rest is_run ih =>
      exact absurd ⟨digits, is_run, List.infix_append' [] (slot digits) rest⟩ plain
  | character c rest no_slot ih =>
      have rest_plain : ¬ HasSlot rest := by
        rintro ⟨digits, is_run, inside⟩
        exact plain ⟨digits, is_run, inside.trans (List.suffix_cons c rest).isInfix⟩
      rw [fillCharacters_cons no_slot, ih rest_plain]

theorem isSubstitution_fill (values : List String) :
    IsSubstitution values fun template => fill template values where
  slot_eq front digits back is_run := by
    rw [← String.toList_inj]
    simp only [fill, String.toList_append, String.toList_ofList, toList_insertion]
    have front_eq := fillCharacters_append_brace values front.toList (digits ++ '}' :: back.toList)
    have slot_text : '{' :: (digits ++ '}' :: back.toList) = slot digits ++ back.toList := by
      simp [slot]
    rw [slot_text, ← List.append_assoc] at front_eq
    rw [front_eq, fillCharacters_slot_append is_run, List.append_assoc]
  plain_eq text plain := by
    rw [fill, fillCharacters_of_not_hasSlot plain, String.ofList_toList]

/-- Two substitutions of the same values do the same: they agree around each slot. -/
theorem IsSubstitution.eq_on {values : List String} {first second : String → String}
    (left : IsSubstitution values first) (right : IsSubstitution values second) (text : String) :
    first text = second text := by
  generalize length_eq : text.toList.length = length
  induction length using Nat.strong_induction_on generalizing text with
  | h length shorter =>
      by_cases slotted : HasSlot text.toList
      · obtain ⟨digits, is_run, front, back, shape⟩ := slotted
        have text_eq : text = String.ofList front ++ String.ofList (slot digits) ++
            String.ofList back := by
          rw [← String.toList_inj, ← shape]
          simp
        have lengths : front.length + (digits.length + 2) + back.length = length := by
          rw [← length_eq, ← shape]
          simp [slot]
          omega
        have front_eq := shorter front.length (by omega) (String.ofList front) (by simp)
        have back_eq := shorter back.length (by omega) (String.ofList back) (by simp)
        rw [text_eq, left.slot_eq _ _ _ is_run, right.slot_eq _ _ _ is_run, front_eq, back_eq]
      · rw [left.plain_eq text slotted, right.plain_eq text slotted]

/-! ## The scanning loop -/

/-- What is written so far, and what is left of the template. -/
structure Scan where
  filled : List Char
  rest : List Char

namespace Scan

/-- One round: copy up to the next brace, then put in a text for the slot there, or copy the brace.
There is no round without a brace. -/
def round? (values : List String) (scan : Scan) : Option Scan :=
  match scan.rest.dropWhile (· ≠ '{') with
  | [] => none
  | _ :: after =>
      let filled := scan.filled ++ scan.rest.takeWhile (· ≠ '{')
      let digits := after.takeWhile Char.isDigit
      match after.dropWhile Char.isDigit with
      | '}' :: behind =>
          if digits.isEmpty then some ⟨filled ++ ['{'], after⟩
          else some ⟨filled ++ (insertion values digits).toList, behind⟩
      | _ => some ⟨filled ++ ['{'], after⟩

/-- The rounds come to an end, and then the result is written. -/
inductive Ends (values : List String) : Scan → List Char → Prop
  | done {scan : Scan} : scan.round? values = none → Ends values scan (scan.filled ++ scan.rest)
  | round {scan next : Scan} {result : List Char} :
      scan.round? values = some next → Ends values next result → Ends values scan result

/-- What a round does: nothing without a brace, else text up to the next brace is copied, and a slot
there gives way to its text or the brace is copied. -/
inductive Round (values : List String) (scan : Scan) : Option Scan → Prop
  | last : '{' ∉ scan.rest → Round values scan none
  | slot (front digits back : List Char) : '{' ∉ front → Text.isDigits digits = true →
      scan.rest = front ++ (slot digits ++ back) →
      Round values scan (some ⟨scan.filled ++ front ++ (insertion values digits).toList, back⟩)
  | brace (front after : List Char) : '{' ∉ front →
      ¬ StartsWithSlot ('{' :: after) → scan.rest = front ++ '{' :: after →
      Round values scan (some ⟨scan.filled ++ front ++ ['{'], after⟩)

theorem round_round? (values : List String) (scan : Scan) :
    Round values scan (scan.round? values) := by
  have rest_eq := List.takeWhile_append_dropWhile (p := (· ≠ '{')) (l := scan.rest)
  have front_free : '{' ∉ scan.rest.takeWhile (· ≠ '{') := fun member => by
    simpa using List.mem_takeWhile_imp member
  rw [round?]
  cases found : scan.rest.dropWhile (· ≠ '{') with
  | nil =>
      rw [found, List.append_nil] at rest_eq
      exact .last (rest_eq ▸ front_free)
  | cons brace after =>
      have brace_eq : brace = '{' := by
        have found_some : scan.rest.dropWhile (· ≠ '{') ≠ [] := found ▸ List.cons_ne_nil brace after
        have stopped := List.head_dropWhile_not (· ≠ '{') found_some
        simp only [found, List.head_cons] at stopped
        simpa using stopped
      obtain rfl := brace_eq
      rw [found] at rest_eq
      dsimp only
      split
      · rename_i behind closed
        split_ifs with unnumbered
        · refine .brace _ after front_free (fun slotted => ?_) rest_eq.symm
          exact (startsWithSlot_cons_iff.mp slotted).2.1 unnumbered
        · refine .slot _ _ behind front_free (isDigits_takeWhile unnumbered) ?_
          rw [← eq_slot_append closed, rest_eq]
      · rename_i unclosed
        refine .brace _ after front_free (fun slotted => ?_) rest_eq.symm
        obtain ⟨-, -, behind, closed⟩ := startsWithSlot_cons_iff.mp slotted
        exact unclosed behind closed

variable {values : List String} {scan next : Scan}

/-- A round leaves less of the template. -/
theorem length_rest_lt (moved : scan.round? values = some next) :
    next.rest.length < scan.rest.length := by
  have did := round_round? values scan
  rw [moved] at did
  cases did with
  | slot front digits back _ _ rest_eq =>
      simp [rest_eq, Template.slot]
      omega
  | brace front after _ _ rest_eq =>
      simp [rest_eq]
      omega

/-- A round keeps what is written once all that is left is filled. -/
theorem filled_append_eq (moved : scan.round? values = some next) :
    next.filled ++ fillCharacters values next.rest =
      scan.filled ++ fillCharacters values scan.rest := by
  have did := round_round? values scan
  rw [moved] at did
  cases did with
  | slot front digits back free is_run rest_eq =>
      rw [rest_eq, fillCharacters_append_of_not_mem free, fillCharacters_slot_append is_run,
        toList_insertion]
      simp
  | brace front after free plain rest_eq =>
      rw [rest_eq, fillCharacters_append_of_not_mem free, fillCharacters_cons plain]
      simp

/-- From any state the loop ends, with all that is left filled. -/
theorem ends (values : List String) (scan : Scan) :
    Ends values scan (scan.filled ++ fillCharacters values scan.rest) := by
  generalize length_eq : scan.rest.length = length
  induction length using Nat.strong_induction_on generalizing scan with
  | h length shorter =>
      cases moved : scan.round? values with
      | none =>
          have did := round_round? values scan
          rw [moved] at did
          cases did with
          | last free =>
              have left_alone : fillCharacters values (scan.rest ++ []) =
                  scan.rest ++ fillCharacters values [] := fillCharacters_append_of_not_mem free []
              rw [List.append_nil, fillCharacters, List.append_nil] at left_alone
              rw [left_alone]
              exact .done moved
      | some next =>
          have less := length_rest_lt moved
          rw [length_eq] at less
          have result := shorter next.rest.length less next rfl
          rw [filled_append_eq moved] at result
          exact .round moved result

end Scan

/-- Filling is the one substitution of values for slots, and the loop that scans a template for
slots ends with it. -/
theorem fill_eq_substitution (values : List String) :
    (∀ filled : String → String,
      IsSubstitution values filled ↔ filled = fun template => fill template values) ∧
      ∀ template : String,
        Scan.Ends values ⟨[], template.toList⟩ (fill template values).toList := by
  constructor
  · intro filled
    constructor
    · exact fun substitution => funext (substitution.eq_on (isSubstitution_fill values))
    · rintro rfl
      exact isSubstitution_fill values
  · intro template
    rw [fill, String.toList_ofList]
    exact Scan.ends values ⟨[], template.toList⟩

/-- Slots within other braces, a slot within a value, zeros in front, a number beyond words, and a
slot that is not closed. -/
example :
    fill "\x7b\x7b0\x7d\x7d \x7b1\x7b0\x7d \x7b01\x7d \x7b18446744073709551616\x7d \x7b0"
        ["a\x7b0\x7d", "b"] =
      "\x7ba\x7b0\x7d\x7d \x7b1a\x7b0\x7d b  \x7b0" := by
  decide +kernel

end Template

end EntitySearch
