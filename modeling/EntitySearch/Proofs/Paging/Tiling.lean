import EntitySearch.Proofs.Paging.Ranges
import EntitySearch.Proofs.Text.Splitting
import Mathlib.Algebra.Group.Nat.Defs

/-!
# Pages of a list

A list of rows is cut into pages without loss or overlap: put together in order, its pages are the
list. Whatever page is asked for, one of them is shown, and the range names its rows.
-/

namespace EntitySearch

namespace PageRange

variable {Row : Type}

/-- The pages of a list of rows, first to last, if there is a range for each of them. -/
def pages? (rows : List Row) (size : Option UInt64) : Option (List (List Row)) :=
  (List.range (pageCount (.ofNat rows.length) size).toNat).mapM fun position =>
    (ofPage? (.ofNat rows.length) size (.ofNat (position + 1))).map (·.slice rows)

/-- The rows of the page at a position, cut out by exact numbers. -/
def tile (rows : List Row) (size : Option UInt64) (position : Nat) : List Row :=
  match pageSize? size with
  | some height => (rows.drop (position * height.toNat)).take height.toNat
  | none => rows

/-- The rows of every page, cut out by exact numbers. -/
def tiles (rows : List Row) (size : Option UInt64) : List (List Row) :=
  (List.range (pageCount (.ofNat rows.length) size).toNat).map (tile rows size)

/-- Stretches of equal height from the start of a list make up its first rows. -/
theorem flatten_stretches (rows : List Row) (height count : Nat) :
    ((List.range count).map fun position =>
        (rows.drop (position * height)).take height).flatten =
      rows.take (count * height) := by
  induction count with
  | zero => simp
  | succ count ih =>
      rw [List.range_succ, List.map_append, List.flatten_append, ih, Nat.succ_mul, List.take_add]
      simp

theorem shownPage_of_counted {rows : UInt64} {size : Option UInt64} {page : UInt64}
    (positive : 1 ≤ page.toNat) (counted : page.toNat ≤ (pageCount rows size).toNat) :
    shownPage rows size page = page := by
  rw [← UInt64.toNat_inj, toNat_shownPage]
  omega

/-- Every page that is counted is shown when it is asked for by its position. -/
theorem toNat_shownPage_position {rows : UInt64} {size : Option UInt64} {position : Nat}
    (counted : position < (pageCount rows size).toNat) :
    (shownPage rows size (.ofNat (position + 1))).toNat = position + 1 := by
  have number : (UInt64.ofNat (position + 1)).toNat = position + 1 :=
    UInt64.toNat_ofNat_of_lt' (Nat.lt_of_le_of_lt counted (pageCount rows size).toNat_lt_size)
  rw [shownPage_of_counted, number]
  · rw [number]
    exact Nat.le_add_left 1 position
  · rw [number]
    exact counted

theorem tiles_of_cut (rows : List Row) {size : Option UInt64} {height : UInt64}
    (cut : pageSize? size = some height) :
    tiles rows size = (List.range (pageCount (.ofNat rows.length) size).toNat).map fun position =>
      (rows.drop (position * height.toNat)).take height.toNat := by
  apply List.map_congr_left
  intro position _
  rw [tile, cut]

theorem tiles_of_uncut (rows : List Row) {size : Option UInt64}
    (uncut : pageSize? size = none) : tiles rows size = [rows] := by
  rw [tiles, toNat_pageCount_of_uncut uncut, List.range_one, List.map_singleton, tile, uncut]

section Listed

variable {rows : List Row} (listed : rows.length < 2 ^ 63)
include listed

theorem toNat_length : (UInt64.ofNat rows.length).toNat = rows.length :=
  UInt64.toNat_ofNat_of_lt' (Nat.lt_trans listed (by decide))

theorem not_overruns_length (size : Option UInt64) (current : UInt64) :
    ¬ Overruns (.ofNat rows.length) size current := by
  intro overruns
  obtain ⟨height, cut, -⟩ := id overruns
  have many := lt_rows_of_overruns cut overruns
  rw [toNat_length listed] at many
  have : UInt64.size = 2 * 2 ^ 63 := rfl
  omega

theorem ofNat_length_ne_zero (nonempty : rows ≠ []) : UInt64.ofNat rows.length ≠ 0 := by
  intro zero
  have := congrArg UInt64.toNat zero
  rw [toNat_length listed] at this
  exact nonempty (List.length_eq_zero_iff.mp this)

section Exact

variable {size : Option UInt64} {current : UInt64} {range : PageRange}
  (exact_range : IsExact (.ofNat rows.length) size current range)
include exact_range

theorem slice_eq_take_drop :
    range.slice rows =
      (rows.drop range.start.toNat).take (range.stop.toNat - range.start.toNat) := by
  have within := UInt64.le_iff_toNat_le.mp exact_range.stop_le_rows
  rw [toNat_length listed] at within
  exact if_pos ⟨exact_range.start_le_stop, within⟩

/-- A page has the rows behind those of the earlier pages. -/
theorem slice_eq_tile : range.slice rows = tile rows size (range.page.toNat - 1) := by
  rw [slice_eq_take_drop listed exact_range, tile]
  cases cut : pageSize? size with
  | none =>
      obtain ⟨start, stop⟩ := exact_range.uncut cut
      simp [start, stop, toNat_length listed]
  | some height =>
      have positive : 1 ≤ range.page.toNat :=
        exact_range.page ▸ one_le_shownPage (.ofNat rows.length) size current
      have whole := mul_eq_pred_mul_add positive height.toNat
      rw [exact_range.start height cut, exact_range.stop height cut, toNat_length listed,
        List.take_eq_take_iff, List.length_drop]
      omega

/-- The numbers of a range are those of its first and its last row. -/
theorem slice_eq_extract (nonempty : rows ≠ []) :
    1 ≤ range.first ∧ range.first ≤ range.last ∧ range.last.toNat ≤ rows.length ∧
      range.slice rows = rows.extract (range.first.toNat - 1) range.last.toNat := by
  have nonzero := ofNat_length_ne_zero listed nonempty
  have first := exact_range.first.trans (if_neg nonzero)
  have ordered := UInt64.lt_iff_toNat_lt.mp (exact_range.start_lt_stop nonzero)
  have within := UInt64.le_iff_toNat_le.mp exact_range.stop_le_rows
  rw [toNat_length listed] at within
  refine ⟨?_, ?_, ?_, ?_⟩
  · rw [UInt64.le_iff_toNat_le, first]
    exact Nat.le_add_left 1 _
  · rw [UInt64.le_iff_toNat_le, first, exact_range.last]
    exact ordered
  · rw [exact_range.last]
    exact within
  · rw [first, exact_range.last, Nat.add_sub_cancel, List.extract_eq_take_drop]
    exact slice_eq_take_drop listed exact_range

end Exact

/-- There is a range for every page asked for. -/
theorem exists_isExact (size : Option UInt64) (current : UInt64) :
    ∃ range, ofPage? (.ofNat rows.length) size current = some range ∧
      IsExact (.ofNat rows.length) size current range := by
  obtain ⟨range, made⟩ := exists_ofPage?_of_not_overruns (not_overruns_length listed size current)
  exact ⟨range, made, isExact_of_ofPage? made⟩

theorem pages?_eq (size : Option UInt64) : pages? rows size = some (tiles rows size) := by
  apply mapM_eq_some_map
  intro position member
  obtain ⟨range, made, exact_range⟩ := exists_isExact listed size (.ofNat (position + 1))
  rw [made, Option.map_some, slice_eq_tile listed exact_range, exact_range.page,
    toNat_shownPage_position (List.mem_range.mp member), Nat.add_sub_cancel]

theorem flatten_tiles (size : Option UInt64) : (tiles rows size).flatten = rows := by
  cases cut : pageSize? size with
  | none => simp [tiles_of_uncut rows cut]
  | some height =>
      have enough := rows_le_pageCount_mul (.ofNat rows.length) cut
      rw [toNat_length listed] at enough
      rw [tiles_of_cut rows cut, flatten_stretches, List.take_of_length_le enough]

theorem length_of_mem_dropLast_tiles {size : Option UInt64} {page : List Row}
    (member : page ∈ (tiles rows size).dropLast) :
    ∃ height, size = some height ∧ page.length = height.toNat := by
  cases cut : pageSize? size with
  | none => simp [tiles_of_uncut rows cut] at member
  | some height =>
      refine ⟨height, (pageSize?_eq_some_iff.mp cut).1, ?_⟩
      have last := pred_mul_lt (.ofNat rows.length) cut (Nat.le_refl _)
      have positive := height_pos cut
      obtain ⟨earlier, count_eq⟩ := Nat.exists_eq_add_of_le'
        (one_le_pageCount (.ofNat rows.length) size)
      rw [tiles_of_cut rows cut, count_eq, List.range_succ, List.map_append, List.map_singleton,
        List.dropLast_concat] at member
      rw [toNat_length listed, count_eq, Nat.add_sub_cancel] at last
      obtain ⟨position, before, rfl⟩ := List.mem_map.mp member
      have full := Nat.mul_le_mul_right height.toNat (Nat.succ_le_of_lt (List.mem_range.mp before))
      rw [Nat.succ_mul] at full
      rw [List.length_take, List.length_drop]
      omega

theorem nil_not_mem_tiles (nonempty : rows ≠ []) (size : Option UInt64) :
    [] ∉ tiles rows size := by
  cases cut : pageSize? size with
  | none => simpa [tiles_of_uncut rows cut] using Ne.symm nonempty
  | some height =>
      rw [tiles_of_cut rows cut]
      intro member
      obtain ⟨position, counted, empty⟩ := List.mem_map.mp member
      have within := pred_mul_lt (.ofNat rows.length) cut
        (Nat.succ_le_of_lt (List.mem_range.mp counted))
      rw [toNat_length listed, Nat.succ_eq_add_one, Nat.add_sub_cancel] at within
      have some_rows := List.length_pos_iff.mpr nonempty
      rcases List.take_eq_nil_iff.mp empty with flat | beyond
      · exact Nat.ne_of_gt (height_pos cut) flat
      · rw [List.drop_eq_nil_iff] at beyond
        omega

/-- The page that is shown is the page of its number. -/
theorem getElem?_tiles {size : Option UInt64} {current : UInt64} {range : PageRange}
    (exact_range : IsExact (.ofNat rows.length) size current range) :
    (tiles rows size)[range.page.toNat - 1]? = some (range.slice rows) := by
  have positive := one_le_shownPage (.ofNat rows.length) size current
  have counted := shownPage_le_pageCount (.ofNat rows.length) size current
  rw [← exact_range.page] at positive counted
  rw [tiles, List.getElem?_map, List.getElem?_range (by omega), Option.map_some,
    slice_eq_tile listed exact_range]

end Listed

/-- The pages of a list that fits into memory. Put together they are the list; every page but the
last is full, and none is empty unless the list is. Whatever page is asked for, there is a range for
it: the nearest page is shown, with the numbers of its first and its last row. -/
theorem pages_tile (rows : List Row) (size : Option UInt64) (listed : rows.length < 2 ^ 63) :
    ∃ pages, pages? rows size = some pages ∧ pages.flatten = rows ∧
      (∀ page ∈ pages.dropLast, ∃ height, size = some height ∧ page.length = height.toNat) ∧
      (rows ≠ [] → [] ∉ pages) ∧
      ∀ current,
        let total := pageCount (.ofNat rows.length) size
        ∃ range, ofPage? (.ofNat rows.length) size current = some range ∧
          range.page = min (max current 1) total ∧ 1 ≤ range.page ∧ range.page ≤ total ∧
          pages[range.page.toNat - 1]? = some (range.slice rows) ∧
          (rows ≠ [] →
            1 ≤ range.first ∧ range.first ≤ range.last ∧ range.last.toNat ≤ rows.length ∧
              range.slice rows = rows.extract (range.first.toNat - 1) range.last.toNat) := by
  refine ⟨tiles rows size, pages?_eq listed size, flatten_tiles listed size,
    fun page member => length_of_mem_dropLast_tiles listed member,
    fun nonempty => nil_not_mem_tiles listed nonempty size, ?_⟩
  intro current total
  obtain ⟨range, made, exact_range⟩ := exists_isExact listed size current
  refine ⟨range, made, exact_range.page, ?_, ?_, getElem?_tiles listed exact_range,
    fun nonempty => slice_eq_extract listed exact_range nonempty⟩
  · rw [UInt64.le_iff_toNat_le, exact_range.page]
    exact one_le_shownPage (.ofNat rows.length) size current
  · rw [UInt64.le_iff_toNat_le, exact_range.page]
    exact shownPage_le_pageCount (.ofNat rows.length) size current

/-- Five rows fill two pages of two, and the fifth row is alone on the page shown for page 9. -/
theorem pages_tile_five :
    let rows := [1, 2, 3, 4, 5]
    rows.length < 2 ^ 63 ∧ pages? rows (some 2) = some [[1, 2], [3, 4], [5]] ∧
      ∃ pages, pages? rows (some 2) = some pages ∧ pages.flatten = rows ∧
        ∃ range, ofPage? 5 (some 2) 9 = some range ∧ pages[2]? = some (range.slice rows) := by
  dsimp only
  obtain ⟨pages, cut, together, -, -, shown⟩ := pages_tile [1, 2, 3, 4, 5] (some 2) (by decide)
  obtain ⟨range, made, page, -, -, found, -⟩ := shown 9
  have third : range.page = 3 := page.trans (by decide)
  rw [third] at found
  exact ⟨by decide, by decide, pages, cut, together, range, made, found⟩

end PageRange

end EntitySearch
