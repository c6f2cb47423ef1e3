import EntitySearch.Paging
import EntitySearch.Proofs.Number.Words
import Mathlib.Tactic.SplitIfs

/-!
# Page ranges

The range of a page is computed in words, with checks. There is one, with the exact numbers of the
page and within the rows, unless the last page would reach beyond the largest word.
-/

namespace EntitySearch

namespace PageRange

/-! ## Numbers of pages -/

theorem mul_eq_pred_mul_add {page : Nat} (positive : 1 ≤ page) (height : Nat) :
    page * height = (page - 1) * height + height := by
  rw [← Nat.succ_mul, Nat.succ_eq_add_one, Nat.sub_add_cancel positive]

theorem pageSize?_eq_some_iff {size : Option UInt64} {height : UInt64} :
    pageSize? size = some height ↔ size = some height ∧ 0 < height := by
  simp [pageSize?, Option.filter_eq_some_iff]

theorem one_le_pageCount (rows : UInt64) (size : Option UInt64) :
    1 ≤ (pageCount rows size).toNat := by
  rw [pageCount]
  split
  · rw [Word.toNat_max]
    exact Nat.le_max_right _ _
  · exact Nat.le_refl 1

theorem height_pos {size : Option UInt64} {height : UInt64} (cut : pageSize? size = some height) :
    0 < height.toNat :=
  UInt64.lt_iff_toNat_lt.mp (pageSize?_eq_some_iff.mp cut).2

theorem toNat_shownPage (rows : UInt64) (size : Option UInt64) (current : UInt64) :
    (shownPage rows size current).toNat =
      min (max current.toNat 1) (pageCount rows size).toNat := by
  rw [shownPage, Word.toNat_min, Word.toNat_max]
  rfl

theorem one_le_shownPage (rows : UInt64) (size : Option UInt64) (current : UInt64) :
    1 ≤ (shownPage rows size current).toNat := by
  have := one_le_pageCount rows size
  have := toNat_shownPage rows size current
  omega

theorem shownPage_le_pageCount (rows : UInt64) (size : Option UInt64) (current : UInt64) :
    (shownPage rows size current).toNat ≤ (pageCount rows size).toNat := by
  have := toNat_shownPage rows size current
  omega

theorem toNat_pred_shownPage (rows : UInt64) (size : Option UInt64) (current : UInt64) :
    (shownPage rows size current - 1).toNat = (shownPage rows size current).toNat - 1 :=
  Word.toNat_sub_of_le (one_le_shownPage rows size current)

theorem toNat_pageCount_of_uncut {rows : UInt64} {size : Option UInt64}
    (uncut : pageSize? size = none) : (pageCount rows size).toNat = 1 := by
  rw [pageCount, uncut]
  rfl

theorem shownPage_of_uncut {rows : UInt64} {size : Option UInt64} (uncut : pageSize? size = none)
    (current : UInt64) : shownPage rows size current = 1 := by
  have shown := toNat_shownPage rows size current
  rw [toNat_pageCount_of_uncut uncut] at shown
  rw [← UInt64.toNat_inj]
  change _ = 1
  omega

/-- What is added to the whole pages for the rows that are left. -/
theorem toNat_partialPage (rows height : UInt64) :
    (if rows % height = 0 then 0 else 1 : UInt64).toNat =
      if rows.toNat % height.toNat = 0 then 0 else 1 := by
  rw [apply_ite UInt64.toNat]
  simp only [← UInt64.toNat_inj, UInt64.toNat_mod]
  rfl

/-- Rows are left over only if a page has more than one. -/
theorem div_add_partialPage_le (rows : Nat) {height : Nat} (positive : 0 < height) :
    rows / height + (if rows % height = 0 then 0 else 1) ≤ rows := by
  have parts := Nat.div_add_mod rows height
  split_ifs with whole
  · exact Nat.div_le_self rows height
  · rcases Nat.lt_or_ge 1 height with wide | narrow
    · have := Nat.mul_le_mul_right (rows / height) wide
      omega
    · obtain rfl : height = 1 := by omega
      exact absurd (Nat.mod_one rows) whole

section Cut

variable (rows : UInt64) {size : Option UInt64} {height : UInt64}
  (cut : pageSize? size = some height)
include cut

theorem partialPage_fits :
    (rows / height).toNat + (if rows % height = 0 then 0 else 1 : UInt64).toNat <
      UInt64.size := by
  rw [UInt64.toNat_div, toNat_partialPage]
  exact Nat.lt_of_le_of_lt (div_add_partialPage_le rows.toNat (height_pos cut))
    rows.toNat_lt_size

/-- Pages are counted up to the one that holds the last row. -/
theorem toNat_pageCount :
    (pageCount rows size).toNat =
      max (rows.toNat / height.toNat + if rows.toNat % height.toNat = 0 then 0 else 1) 1 := by
  rw [pageCount, cut]
  dsimp only
  rw [Word.toNat_max, Word.toNat_add_of_lt (partialPage_fits rows cut), UInt64.toNat_div,
    toNat_partialPage]
  rfl

theorem rows_le_pageCount_mul :
    rows.toNat ≤ (pageCount rows size).toNat * height.toNat := by
  have parts := Nat.div_add_mod' rows.toNat height.toNat
  have left_over := Nat.mod_lt rows.toNat (height_pos cut)
  have counted := toNat_pageCount rows cut
  split_ifs at counted with whole
  · have := Nat.mul_le_mul_right height.toNat
      (show rows.toNat / height.toNat ≤ (pageCount rows size).toNat by omega)
    omega
  · have := Nat.mul_le_mul_right height.toNat
      (show rows.toNat / height.toNat + 1 ≤ (pageCount rows size).toNat by omega)
    rw [Nat.succ_mul] at this
    omega

/-- The rows before a page are fewer than all rows. -/
theorem pred_mul_lt {page : Nat} (counted : page ≤ (pageCount rows size).toNat) :
    (page - 1) * height.toNat < max rows.toNat 1 := by
  have parts := Nat.div_add_mod' rows.toNat height.toNat
  have count := toNat_pageCount rows cut
  rcases Nat.lt_or_ge 1 page with later | first
  · split_ifs at count with whole
    -- Without a partial page the last whole page still holds rows behind the earlier ones.
    · have before : page - 1 + 1 ≤ rows.toNat / height.toNat := by omega
      have := Nat.mul_le_mul_right height.toNat before
      rw [Nat.succ_mul] at this
      have := height_pos cut
      omega
    · have before : page - 1 ≤ rows.toNat / height.toNat := by omega
      have := Nat.mul_le_mul_right height.toNat before
      omega
  · rw [show page - 1 = 0 by omega, Nat.zero_mul]
    omega

theorem toNat_pred_shownPage_mul (current : UInt64) :
    ((shownPage rows size current - 1) * height).toNat =
      ((shownPage rows size current).toNat - 1) * height.toNat := by
  have before := pred_mul_lt rows cut (shownPage_le_pageCount rows size current)
  have := rows.toNat_lt_size
  rw [← toNat_pred_shownPage] at before ⊢
  exact Word.toNat_mul_of_lt (by omega)

theorem first_fits (nonempty : rows ≠ 0) (current : UInt64) :
    ((shownPage rows size current - 1) * height).toNat + (1 : UInt64).toNat < UInt64.size := by
  have before := pred_mul_lt rows cut (shownPage_le_pageCount rows size current)
  have some_rows := Word.toNat_pos nonempty
  have := rows.toNat_lt_size
  rw [toNat_pred_shownPage_mul rows cut]
  change _ + 1 < _
  omega

end Cut

/-! ## Ranges -/

theorem shownPage_zero (size : Option UInt64) (current : UInt64) :
    shownPage 0 size current = 1 := by
  have shown := toNat_shownPage 0 size current
  have single : (pageCount 0 size).toNat = 1 := by
    cases cut : pageSize? size with
    | none => exact toNat_pageCount_of_uncut cut
    | some height => simp [toNat_pageCount 0 cut]
  rw [← UInt64.toNat_inj]
  change _ = 1
  omega

theorem ofPage?_zero (size : Option UInt64) (current : UInt64) :
    ofPage? 0 size current = some ⟨1, 0, 0, 0, 0, 0⟩ := by
  rw [ofPage?, shownPage_zero]
  rfl

theorem ofPage?_of_uncut {rows : UInt64} {size : Option UInt64} (uncut : pageSize? size = none)
    (nonempty : rows ≠ 0) (current : UInt64) :
    ofPage? rows size current = some ⟨1, 1, rows, rows, 0, rows⟩ := by
  rw [ofPage?, shownPage_of_uncut uncut, if_neg nonempty, uncut]
  rfl

/-- Only the end of the page can be too large. -/
theorem ofPage?_of_cut {rows : UInt64} {size : Option UInt64} {height : UInt64}
    (cut : pageSize? size = some height) (nonempty : rows ≠ 0) (current : UInt64) :
    ofPage? rows size current =
      let page := shownPage rows size current
      let start := (page - 1) * height
      (Word.mul? page height).map fun reached =>
        ⟨page, start + 1, min reached rows, rows, start, min reached rows⟩ := by
  have before : Word.sub? (shownPage rows size current) 1 =
      some (shownPage rows size current - 1) :=
    Word.sub?_of_le (one_le_shownPage rows size current)
  have start : Word.mul? (shownPage rows size current - 1) height =
      some ((shownPage rows size current - 1) * height) := by
    rw [Word.mul?_eq_some_iff, toNat_pred_shownPage_mul rows cut, toNat_pred_shownPage]
  have first : Word.add? ((shownPage rows size current - 1) * height) 1 =
      some ((shownPage rows size current - 1) * height + 1) :=
    Word.add?_of_lt (first_fits rows cut nonempty current)
  rw [ofPage?, if_neg nonempty, cut]
  dsimp only
  rw [before, Option.bind_eq_bind, Option.bind_some, start, Option.bind_some]
  cases Word.mul? (shownPage rows size current) height with
  | none => rfl
  | some reached => simp [first]

/-- What the numbers of a range are in exact arithmetic. -/
structure IsExact (rows : UInt64) (size : Option UInt64) (current : UInt64) (range : PageRange) :
    Prop where
  page : range.page = shownPage rows size current
  total : range.total = rows
  first : range.first.toNat = if rows = 0 then 0 else range.start.toNat + 1
  last : range.last = range.stop
  start : ∀ height, pageSize? size = some height →
    range.start.toNat = (range.page.toNat - 1) * height.toNat
  stop : ∀ height, pageSize? size = some height →
    range.stop.toNat = min (range.page.toNat * height.toNat) rows.toNat
  uncut : pageSize? size = none → range.start = 0 ∧ range.stop = rows

/-- If there is a range, then its numbers are exact. -/
theorem isExact_of_ofPage? {rows : UInt64} {size : Option UInt64} {current : UInt64}
    {range : PageRange} (made : ofPage? rows size current = some range) :
    IsExact rows size current range := by
  by_cases nonempty : rows = 0
  · subst nonempty
    rw [ofPage?_zero] at made
    obtain rfl := Option.some.inj made
    refine ⟨(shownPage_zero size current).symm, rfl, rfl, rfl, ?_, ?_, ?_⟩
    · intro height _
      exact (Nat.zero_mul _).symm
    · intro height _
      exact (Nat.min_zero _).symm
    · intro _
      exact ⟨rfl, rfl⟩
  · cases cut : pageSize? size with
    | none =>
        rw [ofPage?_of_uncut cut nonempty] at made
        obtain rfl := Option.some.inj made
        refine ⟨(shownPage_of_uncut cut current).symm, rfl, (if_neg nonempty).symm, rfl, ?_, ?_, ?_⟩
        · simp [cut]
        · simp [cut]
        · intro _
          exact ⟨rfl, rfl⟩
    | some height =>
        rw [ofPage?_of_cut cut nonempty] at made
        obtain ⟨reached, product, rfl⟩ := Option.map_eq_some_iff.mp made
        refine ⟨rfl, rfl, ?_, rfl, ?_, ?_, ?_⟩
        · rw [if_neg nonempty]
          exact Word.toNat_add_of_lt (first_fits rows cut nonempty current)
        · intro height' cut'
          obtain rfl : height = height' := Option.some.inj (cut.symm.trans cut')
          exact toNat_pred_shownPage_mul rows cut current
        · intro height' cut'
          obtain rfl : height = height' := Option.some.inj (cut.symm.trans cut')
          rw [Word.toNat_min, Word.mul?_eq_some_iff.mp product]
        · simp [cut]

namespace IsExact

variable {rows : UInt64} {size : Option UInt64} {current : UInt64} {range : PageRange}
  (exact_range : IsExact rows size current range)
include exact_range

theorem start_lt_stop (nonempty : rows ≠ 0) : range.start < range.stop := by
  have some_rows : 0 < rows.toNat := Word.toNat_pos nonempty
  cases cut : pageSize? size with
  | none =>
      obtain ⟨start, stop⟩ := exact_range.uncut cut
      rw [start, stop]
      exact UInt64.lt_iff_toNat_lt.mpr some_rows
  | some height =>
      have before := pred_mul_lt rows cut (shownPage_le_pageCount rows size current)
      have positive := height_pos cut
      have whole := mul_eq_pred_mul_add (one_le_shownPage rows size current) height.toNat
      rw [UInt64.lt_iff_toNat_lt, exact_range.start height cut, exact_range.stop height cut,
        exact_range.page]
      omega

theorem stop_le_rows : range.stop ≤ rows := by
  cases cut : pageSize? size with
  | none =>
      rw [(exact_range.uncut cut).2]
      exact UInt64.le_refl rows
  | some height =>
      rw [UInt64.le_iff_toNat_le, exact_range.stop height cut]
      exact Nat.min_le_right _ _

theorem start_le_stop : range.start ≤ range.stop := by
  by_cases nonempty : rows = 0
  · subst nonempty
    have shown := exact_range.page.trans (shownPage_zero size current)
    cases cut : pageSize? size with
    | none =>
        obtain ⟨start, stop⟩ := exact_range.uncut cut
        rw [start, stop]
        exact UInt64.le_refl 0
    | some height =>
        have none_before : ((1 : UInt64).toNat - 1) * height.toNat = 0 := Nat.zero_mul _
        rw [UInt64.le_iff_toNat_le, exact_range.start height cut, shown, none_before]
        exact Nat.zero_le _
  · exact UInt64.le_of_lt (exact_range.start_lt_stop nonempty)

end IsExact

/-! ## Pages beyond the words -/

/-- The last page is shown, and as a whole page it would reach beyond the largest word. -/
def Overruns (rows : UInt64) (size : Option UInt64) (current : UInt64) : Prop :=
  ∃ height, pageSize? size = some height ∧ pageCount rows size ≤ max current 1 ∧
    UInt64.size ≤ (pageCount rows size).toNat * height.toNat

section Cut

variable {rows : UInt64} {size : Option UInt64} {height : UInt64}
  (cut : pageSize? size = some height)
include cut

theorem overruns_iff (current : UInt64) :
    Overruns rows size current ↔
      UInt64.size ≤ (shownPage rows size current).toNat * height.toNat := by
  have shown := toNat_shownPage rows size current
  constructor
  · rintro ⟨height', cut', last, reaches⟩
    obtain rfl : height = height' := Option.some.inj (cut.symm.trans cut')
    rw [UInt64.le_iff_toNat_le, Word.toNat_max] at last
    rwa [show (shownPage rows size current).toNat = (pageCount rows size).toNat by
      rw [shown]; exact Nat.min_eq_right last]
  · intro reaches
    refine ⟨height, cut, ?_⟩
    have bounded := shownPage_le_pageCount rows size current
    have last : (shownPage rows size current).toNat = (pageCount rows size).toNat := by
      -- An earlier page ends where a counted page starts, so it cannot reach so far.
      rcases Nat.lt_or_eq_of_le bounded with earlier | last
      · have before := pred_mul_lt rows cut (Nat.le_refl (pageCount rows size).toNat)
        have := Nat.mul_le_mul_right height.toNat (Nat.le_sub_one_of_lt earlier)
        have := rows.toNat_lt_size
        omega
      · exact last
    constructor
    · rw [UInt64.le_iff_toNat_le, Word.toNat_max, ← last, shown]
      exact Nat.min_le_left _ _
    · rwa [← last]

/-- Only a list of more than half as many rows as there are words can have such a page. -/
theorem lt_rows_of_overruns {current : UInt64} (overruns : Overruns rows size current) :
    UInt64.size < 2 * rows.toNat := by
  obtain ⟨height', cut', -, reaches⟩ := overruns
  obtain rfl : height = height' := Option.some.inj (cut.symm.trans cut')
  have before := pred_mul_lt rows cut (Nat.le_refl (pageCount rows size).toNat)
  have whole := mul_eq_pred_mul_add (one_le_pageCount rows size) height.toNat
  have := height.toNat_lt_size
  rcases Nat.eq_or_lt_of_le (one_le_pageCount rows size) with single | several
  · rw [← single] at reaches
    omega
  · have := Nat.le_mul_of_pos_left height.toNat (Nat.sub_pos_of_lt several)
    omega

theorem ne_zero_of_overruns {current : UInt64} (overruns : Overruns rows size current) :
    rows ≠ 0 := by
  rintro rfl
  exact absurd (lt_rows_of_overruns cut overruns) (by decide)

end Cut

/-- There is a range unless the page overruns the words. -/
theorem ofPage?_eq_none_iff {rows : UInt64} {size : Option UInt64} {current : UInt64} :
    ofPage? rows size current = none ↔ Overruns rows size current := by
  constructor
  · intro missing
    by_cases nonempty : rows = 0
    · rw [nonempty, ofPage?_zero] at missing
      cases missing
    · cases cut : pageSize? size with
      | none =>
          rw [ofPage?_of_uncut cut nonempty] at missing
          cases missing
      | some height =>
          rw [ofPage?_of_cut cut nonempty] at missing
          rw [overruns_iff cut, ← Word.mul?_eq_none_iff]
          exact Option.map_eq_none_iff.mp missing
  · intro overruns
    obtain ⟨height, cut, -⟩ := id overruns
    rw [ofPage?_of_cut cut (ne_zero_of_overruns cut overruns)]
    dsimp only
    rw [Word.mul?_eq_none_iff.mpr ((overruns_iff cut current).mp overruns), Option.map_none]

theorem exists_ofPage?_of_not_overruns {rows : UInt64} {size : Option UInt64} {current : UInt64}
    (fits : ¬ Overruns rows size current) : ∃ range, ofPage? rows size current = some range := by
  rwa [← ofPage?_eq_none_iff, ← ne_eq, Option.ne_none_iff_exists'] at fits

/-! ## Safe ranges -/

/-- The number of pages by checked arithmetic. -/
def pageCount? (rows : UInt64) (size : Option UInt64) : Option UInt64 :=
  match pageSize? size with
  | some height => do
      let count ← Word.add? (rows / height) (if rows % height = 0 then 0 else 1)
      return max count 1
  | none => some 1

theorem pageCount?_eq (rows : UInt64) (size : Option UInt64) :
    pageCount? rows size = some (pageCount rows size) := by
  rw [pageCount?, pageCount]
  cases cut : pageSize? size with
  | none => rfl
  | some height =>
      simp [Word.add?_of_lt (partialPage_fits rows cut)]

/-- Every number on the way to a range is a word, and the range lies within the rows. -/
def IsSafe (rows : UInt64) (size : Option UInt64) (current : UInt64) : Prop :=
  pageCount? rows size = some (pageCount rows size) ∧
    ∃ range, ofPage? rows size current = some range ∧ range.start ≤ range.stop ∧ range.stop ≤ rows

/-- A range is safe exactly if the last page is not shown or fits into the words as a whole page.
Then all its numbers are the exact ones. Otherwise there is no range at all; this takes more rows
than any list has. -/
theorem isSafe_iff_not_overruns (rows : UInt64) (size : Option UInt64) (current : UInt64) :
    (IsSafe rows size current ↔ ¬ Overruns rows size current) ∧
      (∀ range, ofPage? rows size current = some range →
        IsExact rows size current range ∧ range.start ≤ range.stop ∧ range.stop ≤ rows) ∧
      (Overruns rows size current →
        ofPage? rows size current = none ∧ UInt64.size < 2 * rows.toNat) := by
  have sound : ∀ range, ofPage? rows size current = some range →
      IsExact rows size current range ∧ range.start ≤ range.stop ∧ range.stop ≤ rows := by
    intro range made
    have exact_range := isExact_of_ofPage? made
    exact ⟨exact_range, exact_range.start_le_stop, exact_range.stop_le_rows⟩
  refine ⟨⟨?_, ?_⟩, sound, ?_⟩
  · rintro ⟨-, range, made, -⟩ overruns
    rw [ofPage?_eq_none_iff.mpr overruns] at made
    cases made
  · intro fits
    obtain ⟨range, made⟩ := exists_ofPage?_of_not_overruns fits
    exact ⟨pageCount?_eq rows size, range, made, (sound range made).2⟩
  · intro overruns
    obtain ⟨height, cut, -⟩ := id overruns
    exact ⟨ofPage?_eq_none_iff.mpr overruns, lt_rows_of_overruns cut overruns⟩

/-- The last page of very many rows is not safe: of 2^64 - 1 rows in pages of 2^63, the second page
would end at 2^64. -/
theorem not_isSafe : ¬ ∀ (rows : UInt64) (size : Option UInt64) (current : UInt64),
    IsSafe rows size current := by
  intro safe
  obtain ⟨-, range, made, -⟩ := safe 18446744073709551615 (some 9223372036854775808) 2
  have missing :
      ofPage? 18446744073709551615 (some 9223372036854775808) 2 = none := by decide
  rw [missing] at made
  cases made

end PageRange

end EntitySearch
