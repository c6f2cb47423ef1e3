import EntitySearch.Operator
import Mathlib.Data.List.Infix

/-!
# Patterns of texts

In a pattern `%` stands for any run of characters and `_` for any one of them. A pattern around a
part finds every text that has the part at its place. It finds no other text exactly if no character
of the part is a wildcard itself.
-/

namespace EntitySearch

namespace Placement

/-- The part stands at the place in a text. -/
def StandsIn : Placement → List Char → List Char → Prop
  | start, part, text => part <+: text
  | ending, part, text => part <:+ text
  | anywhere, part, text => part <:+: text

instance (placement : Placement) (part text : List Char) :
    Decidable (placement.StandsIn part text) :=
  match placement with
  | start => inferInstanceAs (Decidable (part <+: text))
  | ending => inferInstanceAs (Decidable (part <:+ text))
  | anywhere => inferInstanceAs (Decidable (part <:+: text))

theorem isInfix_of_standsIn {placement : Placement} {part text : List Char}
    (stands : placement.StandsIn part text) : part <:+: text := by
  cases placement with
  | start => exact List.IsPrefix.isInfix stands
  | ending => exact List.IsSuffix.isInfix stands
  | anywhere => exact stands

/-- The pattern of the texts with a part at the place. -/
def pattern (part : List Char) : Placement → List Char
  | start => part ++ ['%']
  | ending => '%' :: part
  | anywhere => '%' :: (part ++ ['%'])

end Placement

namespace Text

/-- The character stands for others in a pattern. -/
def isWildcard (c : Char) : Bool :=
  c == '%' || c == '_'

/-- Every character stands for itself in a pattern. -/
def isLiteral (part : List Char) : Bool :=
  part.all (! isWildcard ·)

/-- The text matches a pattern: `%` stands for any run of characters, `_` for any one, and every
other character for itself. -/
def matchesPattern : List Char → List Char → Bool
  | [], text => text.isEmpty
  | c :: pattern, text =>
      if c = '%' then text.tails.any (matchesPattern pattern)
      else text.head?.any (fun d => c == '_' || c == d) && matchesPattern pattern text.tail

/-! ## Matching -/

theorem matchesPattern_nil_iff (text : List Char) : matchesPattern [] text = true ↔ text = [] := by
  rw [matchesPattern, List.isEmpty_iff]

/-- After a run the pattern matches some end of the text. -/
theorem matchesPattern_run_iff (pattern text : List Char) :
    matchesPattern ('%' :: pattern) text = true ↔
      ∃ rest, rest <:+ text ∧ matchesPattern pattern rest = true := by
  rw [matchesPattern, if_pos rfl, List.any_eq_true]
  simp only [List.mem_tails]

theorem matchesPattern_cons_iff {c : Char} (no_run : c ≠ '%') (pattern text : List Char) :
    matchesPattern (c :: pattern) text = true ↔
      ∃ d rest, text = d :: rest ∧ (c = '_' ∨ c = d) ∧ matchesPattern pattern rest = true := by
  rw [matchesPattern, if_neg no_run]
  cases text with
  | nil => simp
  | cons d rest => simp [Bool.and_eq_true]

/-- A run alone matches every text. -/
theorem matchesPattern_run (text : List Char) : matchesPattern ['%'] text = true :=
  (matchesPattern_run_iff [] text).mpr ⟨[], List.nil_suffix, rfl⟩

theorem matchesPattern_append {first second text rest : List Char}
    (matches_first : matchesPattern first text = true)
    (matches_second : matchesPattern second rest = true) :
    matchesPattern (first ++ second) (text ++ rest) = true := by
  induction first generalizing text with
  | nil =>
      obtain rfl := (matchesPattern_nil_iff text).mp matches_first
      exact matches_second
  | cons c pattern ih =>
      rw [List.cons_append]
      by_cases run : c = '%'
      · subst run
        obtain ⟨later, later_suffix, matches_later⟩ :=
          (matchesPattern_run_iff pattern text).mp matches_first
        obtain ⟨skipped, rfl⟩ := later_suffix
        refine (matchesPattern_run_iff _ _).mpr ⟨later ++ rest, ?_, ih matches_later⟩
        exact ⟨skipped, (List.append_assoc skipped later rest).symm⟩
      · obtain ⟨d, later, rfl, same, matches_later⟩ :=
          (matchesPattern_cons_iff run pattern text).mp matches_first
        exact (matchesPattern_cons_iff run _ _).mpr
          ⟨d, later ++ rest, rfl, same, ih matches_later⟩

/-- Every text matches itself as a pattern, wildcards included. -/
theorem matchesPattern_self (text : List Char) : matchesPattern text text = true := by
  induction text with
  | nil => rfl
  | cons c rest ih =>
      by_cases run : c = '%'
      · subst run
        exact (matchesPattern_run_iff rest _).mpr ⟨rest, List.suffix_cons '%' rest, ih⟩
      · exact (matchesPattern_cons_iff run rest _).mpr ⟨c, rest, rfl, .inr rfl, ih⟩

theorem isLiteral_cons_iff (c : Char) (part : List Char) :
    isLiteral (c :: part) = true ↔ (c ≠ '%' ∧ c ≠ '_') ∧ isLiteral part = true := by
  simp [isLiteral, isWildcard]

/-- A part without wildcards matches only itself. -/
theorem matchesPattern_literal_append_iff {part : List Char} (literal : isLiteral part = true)
    (pattern text : List Char) :
    matchesPattern (part ++ pattern) text = true ↔
      ∃ rest, text = part ++ rest ∧ matchesPattern pattern rest = true := by
  constructor
  · intro matching
    induction part generalizing text with
    | nil => exact ⟨text, rfl, matching⟩
    | cons c part ih =>
        obtain ⟨⟨no_run, no_any⟩, literal_rest⟩ := (isLiteral_cons_iff c part).mp literal
        obtain ⟨d, later, rfl, same, matches_later⟩ :=
          (matchesPattern_cons_iff no_run (part ++ pattern) text).mp matching
        obtain rfl := same.resolve_left no_any
        obtain ⟨rest, rfl, matches_rest⟩ := ih literal_rest later matches_later
        exact ⟨rest, rfl, matches_rest⟩
  · rintro ⟨rest, rfl, matching⟩
    exact matchesPattern_append (matchesPattern_self part) matching

/-- A part with a wildcard matches another text that is not longer. -/
theorem exists_matchesPattern_ne {part : List Char} (wild : isLiteral part = false) :
    ∃ text, matchesPattern part text = true ∧ text ≠ part ∧ text.length ≤ part.length := by
  induction part with
  | nil => cases wild
  | cons c part ih =>
      by_cases run : c = '%'
      · subst run
        refine ⟨part, ?_, ?_, by simp⟩
        · exact (matchesPattern_run_iff part part).mpr
            ⟨part, List.suffix_refl part, matchesPattern_self part⟩
        · exact fun same => List.cons_ne_self '%' part same.symm
      · by_cases any : c = '_'
        · subst any
          refine ⟨'x' :: part, ?_, by simp, by simp⟩
          exact (matchesPattern_cons_iff run part _).mpr
            ⟨'x', part, rfl, .inl rfl, matchesPattern_self part⟩
        · have wild_rest : isLiteral part = false := by
            rw [← Bool.not_eq_true] at wild ⊢
            exact fun literal => wild ((isLiteral_cons_iff c part).mpr ⟨⟨run, any⟩, literal⟩)
          obtain ⟨text, matching, text_ne, shorter⟩ := ih wild_rest
          refine ⟨c :: text, ?_, by simpa using text_ne, by simpa using shorter⟩
          exact (matchesPattern_cons_iff run part _).mpr ⟨c, text, rfl, .inr rfl, matching⟩

/-! ## Patterns around a part -/

/-- A pattern around a part finds what the part matches, at its place. -/
theorem matchesPattern_pattern_of_standsIn {placement : Placement} {part found text : List Char}
    (matching : matchesPattern part found = true) (stands : placement.StandsIn found text) :
    matchesPattern (placement.pattern part) text = true := by
  cases placement with
  | start =>
      obtain ⟨after, rfl⟩ := stands
      exact matchesPattern_append matching (matchesPattern_run after)
  | ending =>
      obtain ⟨before, rfl⟩ := stands
      exact matchesPattern_append (matchesPattern_run before) matching
  | anywhere =>
      obtain ⟨before, after, rfl⟩ := stands
      rw [List.append_assoc]
      exact matchesPattern_append (matchesPattern_run before)
        (matchesPattern_append matching (matchesPattern_run after))

/-- A pattern around a part without wildcards finds the part and nothing else. -/
theorem matchesPattern_pattern_iff {part : List Char} (literal : isLiteral part = true)
    (placement : Placement) (text : List Char) :
    matchesPattern (placement.pattern part) text = true ↔ placement.StandsIn part text := by
  constructor
  · intro matching
    cases placement with
    | start =>
        obtain ⟨after, rfl, _⟩ :=
          (matchesPattern_literal_append_iff literal ['%'] text).mp matching
        exact List.prefix_append part after
    | ending =>
        obtain ⟨_, ⟨before, rfl⟩, matches_rest⟩ := (matchesPattern_run_iff part text).mp matching
        rw [← List.append_nil part] at matches_rest
        obtain ⟨after, rfl, nothing⟩ :=
          (matchesPattern_literal_append_iff literal [] _).mp matches_rest
        obtain rfl := (matchesPattern_nil_iff after).mp nothing
        rw [List.append_nil]
        exact List.suffix_append before part
    | anywhere =>
        obtain ⟨_, ⟨before, rfl⟩, matches_rest⟩ := (matchesPattern_run_iff _ text).mp matching
        obtain ⟨after, rfl, _⟩ :=
          (matchesPattern_literal_append_iff literal ['%'] _).mp matches_rest
        exact ⟨before, after, List.append_assoc before part after⟩
  · exact matchesPattern_pattern_of_standsIn (matchesPattern_self part)

/-- A pattern around a part finds the texts with the part at its place, and no others exactly if the
part has no wildcards. -/
theorem matchesPattern_pattern_iff_standsIn_iff (placement : Placement) (part : List Char) :
    (∀ text, matchesPattern (placement.pattern part) text = true ↔ placement.StandsIn part text) ↔
      isLiteral part = true := by
  constructor
  · intro same
    by_contra wild
    rw [Bool.not_eq_true] at wild
    -- The text that the part matches besides itself is found, and is too short to hold the part.
    obtain ⟨text, matching, text_ne, shorter⟩ := exists_matchesPattern_ne wild
    have found : placement.StandsIn text text := by
      cases placement with
      | start => exact List.prefix_refl text
      | ending => exact List.suffix_refl text
      | anywhere => exact List.infix_refl text
    have within := Placement.isInfix_of_standsIn
      ((same text).mp (matchesPattern_pattern_of_standsIn matching found))
    exact text_ne (within.eq_of_length_le shorter).symm
  · intro literal text
    exact matchesPattern_pattern_iff literal placement text

end Text

end EntitySearch
