import EntitySearch.Literal
import EntitySearch.Proofs.Time.DateTexts
import Mathlib.Algebra.Order.Floor.Semifield
import Mathlib.Data.Rat.Floor
import Mathlib.Order.Bounds.Basic

/-!
# Local times denote the earliest instant

A text without an offset says what local clocks show, down to the last digit of its fraction of a
second. Where the offset changes once, clocks show it at no instant, at one or at two, and the text
denotes the earliest of them. Instants are rational numbers of seconds here, and only the timestamp
cuts them to milliseconds.
-/

namespace EntitySearch

namespace DateText

/-- The digits after the point of a text. -/
def fractionDigits (text : List Char) : List Char :=
  (text.dropWhile (· != '.')).drop 1

/-- The fraction of a second that a text shows, uncut. -/
def fraction (text : List Char) : ℚ :=
  Text.digitsValue (fractionDigits text) / 10 ^ (fractionDigits text).length

/-- What a local clock shows, by a text without an offset and to the millisecond; midnight for a
bare date. -/
def shown? (text : List Char) : Option ClockReading :=
  match bareDate? text with
  | some date => reading? date 0 0 0 0
  | none => if (withOffset? text).isSome then none else anyLocal? text

/-- The text says that local clocks show these seconds, no leap second. -/
def Shows (text : String) (shown : ℚ) : Prop :=
  ∃ reading, shown? (Text.trimEnds text.toList) = some reading ∧ reading.leap = false ∧
    shown = reading.seconds + fraction (Text.trimEnds text.toList)

/-- The text names its own offset. -/
def HasOffset (text : String) : Prop :=
  (withOffset? (Text.trimEnds text.toList)).isSome = true

/-- A fraction of a second is cut to milliseconds, not rounded. -/
theorem fractionMillis_eq {digits : List Char} (all_digits : ∀ c ∈ digits, c.isDigit = true) :
    fractionMillis digits = Text.digitsValue digits * 1000 / 10 ^ digits.length := by
  have padded_digits : ∀ c ∈ digits ++ ['0', '0', '0'], c.isDigit = true := by
    intro c member
    rcases List.mem_append.mp member with digit | zero
    · exact all_digits c digit
    · rw [List.eq_of_mem_replicate (n := 3) zero]
      decide
  have cut_digits : ∀ c ∈ (digits ++ ['0', '0', '0']).drop 3, c.isDigit = true :=
    fun c member => padded_digits c (List.mem_of_mem_drop member)
  have cut := Text.digitsValue_append_div ((digits ++ ['0', '0', '0']).take 3) cut_digits
  have cut_length : ((digits ++ ['0', '0', '0']).drop 3).length = digits.length := by simp
  have padded : Text.digitsValue (digits ++ ['0', '0', '0']) = Text.digitsValue digits * 1000 := by
    have no_value : Text.digitsValue ['0', '0', '0'] = 0 := rfl
    simp [Text.digitsValue_append, no_value]
  rw [List.take_append_drop, cut_length, padded] at cut
  rw [fractionMillis, cut]

section Fractions

variable {text : List Char}

theorem fraction_nonneg (text : List Char) : 0 ≤ fraction text := by
  rw [fraction]
  positivity

theorem fraction_lt (all_digits : ∀ c ∈ fractionDigits text, c.isDigit = true) :
    fraction text < 1 := by
  rw [fraction, div_lt_one (by positivity)]
  exact_mod_cast Text.digitsValue_lt all_digits

theorem floor_fraction (all_digits : ∀ c ∈ fractionDigits text, c.isDigit = true) :
    ⌊fraction text * 1000⌋₊ = fractionMillis (fractionDigits text) := by
  rw [fractionMillis_eq all_digits, ← Nat.floor_div_eq_div (K := ℚ), fraction]
  push_cast
  ring_nf

theorem fractionDigits_of_forall_ne (solid : ∀ c ∈ text, c ≠ '.') : fractionDigits text = [] := by
  have all_cut : text.dropWhile (· != '.') = [] :=
    List.dropWhile_eq_nil_iff.mpr fun c member => by simpa using solid c member
  rw [fractionDigits, all_cut, List.drop_nil]

/-- The fraction that a text without an offset shows has digits only, and is read to the
millisecond. -/
theorem millis_of_shown? {reading : ClockReading} (read : shown? text = some reading) :
    (∀ c ∈ fractionDigits text, c.isDigit = true) ∧
      reading.millis = fractionMillis (fractionDigits text) := by
  have whole (solid : ∀ c ∈ text, c ≠ '.') (none_read : reading.millis = 0) :
      (∀ c ∈ fractionDigits text, c.isDigit = true) ∧
        reading.millis = fractionMillis (fractionDigits text) := by
    rw [fractionDigits_of_forall_ne solid, none_read]
    exact ⟨by simp, rfl⟩
  have part_ne {c : Char} (part : isPart c = true) : c ≠ '.' := by
    rintro rfl
    exact absurd part (by decide)
  rw [shown?] at read
  cases bare : bareDate? text with
  | some date =>
      rw [bare] at read
      refine whole (fun c member => ?_) (millis_of_reading? read)
      rcases (shape_of_bareDate? bare).2 c member with digit | rfl
      · exact part_ne (isPart_of_isDigit digit)
      · decide
  | none =>
      rw [bare] at read
      dsimp only at read
      split_ifs at read
      obtain ⟨rest, ⟨front, rfl, parts⟩, fraction_read⟩ := exists_parts_of_anyLocal? read
      rcases shape_of_fraction? fraction_read with
        ⟨rfl, none_read⟩ | ⟨digits, rfl, all_digits, millis_eq⟩
      · refine whole (fun c member => ?_) none_read
        rw [List.append_nil] at member
        exact part_ne (parts c member)
      · have cut : (front ++ '.' :: digits).dropWhile (· != '.') = '.' :: digits := by
          rw [List.dropWhile_append_of_pos fun c member => by simpa using part_ne (parts c member)]
          rfl
        have digits_eq : fractionDigits (front ++ '.' :: digits) = digits := by
          rw [fractionDigits, cut, List.drop_one, List.tail_cons]
        rw [digits_eq]
        exact ⟨all_digits, millis_eq⟩

end Fractions

theorem instant?_of_shown? (zone : TimeZone) {text : String} {reading : ClockReading}
    (read : shown? (Text.trimEnds text.toList) = some reading) :
    instant? zone text = zone.earliest? reading := by
  rw [shown?] at read
  rw [instant?]
  cases bare : bareDate? (Text.trimEnds text.toList) with
  | some date =>
      rw [bare] at read
      dsimp only at read ⊢
      rw [read, Option.bind_some]
  | none =>
      rw [bare] at read
      dsimp only at read ⊢
      split_ifs at read with offset
      rw [Option.not_isSome_iff_eq_none.mp offset]
      dsimp only
      rw [read, Option.bind_some]

/-- No zone has a say in a text with an offset. -/
theorem instant?_of_hasOffset {text : String} (named : HasOffset text) (zone other : TimeZone) :
    instant? zone text = instant? other text := by
  obtain ⟨shown, read⟩ := Option.isSome_iff_exists.mp named
  have no_date : bareDate? (Text.trimEnds text.toList) = none := by
    by_contra bare
    obtain ⟨date, bare⟩ := Option.ne_none_iff_exists'.mp bare
    have long := lt_length_of_withOffset? read
    rw [(shape_of_bareDate? bare).1] at long
    exact absurd long (by decide)
  rw [instant?, instant?, no_date, read]

end DateText

/-- The reading of a universal clock at an instant, cut to milliseconds. -/
def ClockReading.ofInstant (instant : ℚ) : ClockReading :=
  ⟨⌊instant⌋, ⌊Int.fract instant * 1000⌋₊, false⟩

theorem ClockReading.ofInstant_add_fract (seconds : Int) (shown : ℚ) :
    ofInstant (seconds + Int.fract shown) = { ofInstant shown with seconds } := by
  rw [ofInstant, ofInstant, Int.floor_intCast_add, Int.floor_fract, Int.add_zero,
    Int.fract_intCast_add, Int.fract_fract]

theorem add_fract_lt_iff (seconds change : Int) (shown : ℚ) :
    (seconds : ℚ) + Int.fract shown < change ↔ seconds < change := by
  rw [← Int.floor_lt, Int.floor_intCast_add, Int.floor_fract, Int.add_zero]

namespace TimeZone

/-- What local clocks show at an instant if their offset changes once. -/
def localTime (before after change : Int) (instant : ℚ) : ℚ :=
  if instant < change then instant + before else instant + after

/-- The instants at which local clocks show a time if their offset changes once. -/
def instantsOf (before after change : Int) (shown : ℚ) : Set ℚ :=
  {instant | localTime before after change instant = shown}

variable (before after change : Int)

theorem mem_instants_changing_iff (shown seconds : Int) :
    seconds ∈ (changing before after change).instants shown ↔
      seconds = shown - before ∧ seconds < change ∨ seconds = shown - after ∧ change ≤ seconds := by
  rw [instants, changing]
  dsimp only
  split_ifs with early late late <;> simp <;> omega

/-- The later of two instants at which clocks show the same comes second. -/
theorem pairwise_instants (shown : Int) :
    ((changing before after change).instants shown).Pairwise (· < ·) := by
  rw [instants, changing]
  dsimp only
  split_ifs with early late <;> simp
  omega

variable {before after change} {shown : ℚ}

/-- The instants at which clocks show a time are those of its second, each as far into the second. -/
theorem mem_instantsOf_iff {instant : ℚ} :
    instant ∈ instantsOf before after change shown ↔
      ∃ seconds ∈ (changing before after change).instants ⌊shown⌋,
        instant = seconds + Int.fract shown := by
  have local_iff (seconds : Int) :
      localTime before after change (seconds + Int.fract shown) = shown ↔
        (if seconds < change then seconds + before else seconds + after) = ⌊shown⌋ := by
    simp only [localTime, add_fract_lt_iff]
    nth_rewrite 3 [← Int.floor_add_fract shown]
    split_ifs
    all_goals
      rw [add_right_comm, add_left_inj]
      exact_mod_cast Iff.rfl
  have whole := Int.floor_add_fract shown
  constructor
  · intro shows
    -- Clocks are off by whole seconds, so an instant is as far into its second as they show.
    obtain ⟨seconds, rfl⟩ : ∃ seconds : Int, instant = seconds + Int.fract shown := by
      rw [instantsOf, Set.mem_ofPred_eq, localTime] at shows
      split_ifs at shows
      · exact ⟨⌊shown⌋ - before, by push_cast; linarith⟩
      · exact ⟨⌊shown⌋ - after, by push_cast; linarith⟩
    rw [instantsOf, Set.mem_ofPred_eq, local_iff] at shows
    refine ⟨seconds, (mem_instants_changing_iff ..).mpr ?_, rfl⟩
    split_ifs at shows <;> omega
  · rintro ⟨seconds, member, rfl⟩
    rw [mem_instants_changing_iff] at member
    rw [instantsOf, Set.mem_ofPred_eq, local_iff]
    split_ifs <;> omega

/-- The first of the instants of a second is the least one. -/
theorem isLeast_instantsOf {first : Int} {later : List Int}
    (instants_eq : (changing before after change).instants ⌊shown⌋ = first :: later) :
    IsLeast (instantsOf before after change shown) (first + Int.fract shown) := by
  constructor
  · rw [mem_instantsOf_iff, instants_eq]
    exact ⟨first, List.mem_cons_self, rfl⟩
  · intro instant member
    rw [mem_instantsOf_iff, instants_eq] at member
    obtain ⟨seconds, seconds_mem, rfl⟩ := member
    have sorted := pairwise_instants before after change ⌊shown⌋
    rw [instants_eq, List.pairwise_cons] at sorted
    have first_le : first ≤ seconds := by
      rcases List.mem_cons.mp seconds_mem with rfl | behind
      · exact Int.le_refl _
      · exact Int.le_of_lt (sorted.1 seconds behind)
    have first_le_cast : (first : ℚ) ≤ seconds := by exact_mod_cast first_le
    linarith

/-- The earliest instant of a reading is the least one at which clocks show it. -/
theorem earliest?_ofInstant
    (inRange : ∀ instant ∈ instantsOf before after change shown,
      (ClockReading.ofInstant instant).inRange = true) :
    instantsOf before after change shown = ∅ ∧
        (changing before after change).earliest? (.ofInstant shown) = none ∨
      ∃ instant, IsLeast (instantsOf before after change shown) instant ∧
        (changing before after change).earliest? (.ofInstant shown) =
          some (.ofInstant instant) := by
  have earliest_eq : (changing before after change).earliest? (.ofInstant shown) =
      (((changing before after change).instants ⌊shown⌋).map fun seconds : Int =>
        ClockReading.ofInstant (seconds + Int.fract shown)).head? := by
    simp only [ClockReading.ofInstant_add_fract]
    refine if_pos ?_
    rw [List.all_map, List.all_eq_true]
    intro seconds member
    rw [Function.comp_apply, ← ClockReading.ofInstant_add_fract]
    exact inRange _ (mem_instantsOf_iff.mpr ⟨seconds, member, rfl⟩)
  rw [earliest_eq]
  cases instants_eq : (changing before after change).instants ⌊shown⌋ with
  | nil =>
      refine .inl ⟨Set.eq_empty_of_forall_notMem fun instant member => ?_, rfl⟩
      rw [mem_instantsOf_iff, instants_eq] at member
      obtain ⟨seconds, nowhere, -⟩ := member
      cases nowhere
  | cons first later => exact .inr ⟨_, isLeast_instantsOf instants_eq, rfl⟩

end TimeZone

open TimeZone

/-- The clock reading of a text is what clocks show, cut to milliseconds. -/
theorem DateText.instant?_of_shows (zone : TimeZone) {text : String} {shown : ℚ}
    (shows : Shows text shown) : instant? zone text = zone.earliest? (.ofInstant shown) := by
  obtain ⟨reading, read, no_leap, rfl⟩ := shows
  obtain ⟨digits, millis_eq⟩ := millis_of_shown? read
  have fract_eq : Int.fract (fraction (Text.trimEnds text.toList)) =
      fraction (Text.trimEnds text.toList) :=
    Int.fract_eq_self.mpr ⟨fraction_nonneg _, fraction_lt digits⟩
  have reading_eq : reading =
      .ofInstant (reading.seconds + fraction (Text.trimEnds text.toList)) := by
    rw [← fract_eq, ClockReading.ofInstant_add_fract, ClockReading.ofInstant, fract_eq,
      floor_fraction digits, ← millis_eq, ← no_leap]
  rw [instant?_of_shown? zone read, ← reading_eq]

end EntitySearch
