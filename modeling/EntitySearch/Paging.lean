import EntitySearch.Gathered
import EntitySearch.Number.Word
import EntitySearch.Scheme.Settings
import EntitySearch.Text.Numerals

/-!
# Paging

Results are shown page by page. Row and page numbers are 64-bit words and count from one, positions
in the list of rows from zero.
-/

namespace EntitySearch

/-- An entry of the page size selector. -/
structure PageSizeOption where
  value : String
  label : String
  /-- Rows of a page; none means all rows. -/
  pageSize : Option Nat
  deriving DecidableEq

/-- An item of the page navigation. -/
inductive PageItem where
  | page (number : UInt64)
  /-- A mark for pages left out. -/
  | gap
  deriving DecidableEq

/-- The rows of one page. -/
structure PageRange where
  page : UInt64
  /-- Number of its first row, zero without rows. -/
  first : UInt64
  /-- Number of its last row, zero without rows. -/
  last : UInt64
  total : UInt64
  /-- Position of its first row. -/
  start : UInt64
  /-- Position behind its last row. -/
  stop : UInt64
  deriving DecidableEq

namespace PageSizeOption

/-- Value of the entry for all rows. -/
def allValue : String := "__all__"

/-- The entry of a page size. -/
def ofSize (size : Nat) : PageSizeOption :=
  ⟨Text.natText size, Text.natText size, some size⟩

/-- The page size that a configured number stands for: its whole part, at most the largest word. It
is of no use if it is not finite or less than one. -/
def usableSize? (size : Double) : Option Nat :=
  if ! size.isFinite || size.truncated.isBelow .one then none else some size.truncated.toWord

/-- The entry for all rows if it has a label. -/
def ofAllLabel (label : Option String) : List PageSizeOption :=
  match Text.nonBlank? label with
  | some label => [⟨allValue, Text.trim label, none⟩]
  | none => []

/-- The entries of the page size selector; there are none without paging. -/
def ofScheme : Option PagingScheme → List PageSizeOption
  | none => []
  | some paging =>
      (Gathered.ofList ((paging.sizes.getD []).filterMap usableSize?)).map ofSize ++
        ofAllLabel paging.allLabel

def document (option : PageSizeOption) : Json :=
  .object
    [("value", .text option.value), ("label", .text option.label),
      ("pageSize", Json.ofOption Json.ofNat option.pageSize)]

end PageSizeOption

namespace PageItem

/-- The buttons of `count` pages from a page on. -/
def run (first : UInt64) (count : Nat) : List PageItem :=
  (List.range count).map fun offset => .page (first + .ofNat offset)

/-- The navigation at a page: all pages if there are up to seven, else the first and the last page
and five pages at the start, at the end or around the current one. -/
def navigation (current total : UInt64) : List PageItem :=
  if total ≤ 7 then run 1 total.toNat
  else if current ≤ 4 then run 1 5 ++ [gap, page total]
  else if total - 3 ≤ current then page 1 :: gap :: run (total - 4) 5
  else page 1 :: gap :: run (current - 2) 5 ++ [gap, page total]

def document : PageItem → Json
  | page number => .object [("page", .ofNat number.toNat)]
  | gap => .text "gap"

end PageItem

namespace PageRange

/-- The page size if it cuts rows into pages at all. -/
def pageSize? (size : Option UInt64) : Option UInt64 :=
  size.filter (0 < ·)

/-- Number of pages, at least one. -/
def pageCount (rows : UInt64) (size : Option UInt64) : UInt64 :=
  match pageSize? size with
  | some size => max (rows / size + if rows % size = 0 then 0 else 1) 1
  | none => 1

/-- The page nearest to a page asked for. -/
def shownPage (rows : UInt64) (size : Option UInt64) (current : UInt64) : UInt64 :=
  min (max current 1) (pageCount rows size)

/-- The rows of the page nearest to a page asked for. The bounds are computed with checks: there is
no range if a number on the way is no word. -/
def ofPage? (rows : UInt64) (size : Option UInt64) (current : UInt64) : Option PageRange := do
  let page := shownPage rows size current
  if rows = 0 then
    return ⟨page, 0, 0, 0, 0, 0⟩
  else
    let (start, stop) ←
      match pageSize? size with
      | some size => do
          let before ← Word.sub? page 1
          let start ← Word.mul? before size
          let reached ← Word.mul? page size
          pure (start, min reached rows)
      | none => pure (0, rows)
    let first ← Word.add? start 1
    return ⟨page, first, stop, rows, start, stop⟩

/-- The rows of a list that are on the page; none if the range does not lie within the list. -/
def slice {Row : Type} (range : PageRange) (rows : List Row) : List Row :=
  if range.start ≤ range.stop ∧ range.stop.toNat ≤ rows.length then
    (rows.drop range.start.toNat).take (range.stop.toNat - range.start.toNat)
  else []

end PageRange

end EntitySearch
