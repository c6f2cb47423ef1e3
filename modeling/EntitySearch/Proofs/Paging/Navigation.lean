import EntitySearch.Paging
import EntitySearch.Proofs.Number.Words
import Mathlib.Tactic.SplitIfs

/-!
# Page navigation

The navigation leads from the first page to the last one. Each item is followed by the next page, or
by a gap that stands for at least one page, so that no page is left out without a mark. The pages
next to the current one are never left out.
-/

namespace EntitySearch

namespace PageItem

/-! ## Ways from page to page -/

/-- Items that lead from one page to another: each page is followed by the next page, or by a gap
and a page behind the next one. -/
inductive Leads : UInt64 → UInt64 → List PageItem → Prop where
  | arrive (number : UInt64) : Leads number number [page number]
  | step {number next last : UInt64} {rest : List PageItem}
      (follows : next.toNat = number.toNat + 1) (onward : Leads next last rest) :
      Leads number last (page number :: rest)
  | skip {number next last : UInt64} {rest : List PageItem}
      (beyond : number.toNat + 2 ≤ next.toNat) (onward : Leads next last rest) :
      Leads number last (page number :: gap :: rest)

/-- The pages that are listed. -/
def numbers (items : List PageItem) : List UInt64 :=
  items.filterMap fun
    | page number => some number
    | gap => none

/-- The pages that are listed, and those between the neighbours of each gap, in order. -/
def unfolded : List PageItem → List Nat
  | page left :: gap :: page right :: rest =>
      left.toNat :: List.range' (left.toNat + 1) (right.toNat - left.toNat - 1) ++
        unfolded (page right :: rest)
  | page number :: rest => number.toNat :: unfolded rest
  | gap :: rest => unfolded rest
  | [] => []

theorem unfolded_page_page (left right : UInt64) (rest : List PageItem) :
    unfolded (page left :: page right :: rest) = left.toNat :: unfolded (page right :: rest) := by
  rw [unfolded]
  rintro _ _ ⟨⟩

theorem mem_numbers_iff {items : List PageItem} {number : UInt64} :
    number ∈ numbers items ↔ page number ∈ items := by
  rw [numbers, List.mem_filterMap]
  constructor
  · rintro ⟨item | _, member, found⟩
    · exact Option.some.inj found ▸ member
    · cases found
  · intro member
    exact ⟨page number, member, rfl⟩

namespace Leads

variable {first last : UInt64} {items : List PageItem}

theorem exists_eq_cons (leads : Leads first last items) :
    ∃ rest, items = page first :: rest := by
  cases leads with
  | arrive => exact ⟨[], rfl⟩
  | step => exact ⟨_, rfl⟩
  | skip => exact ⟨_, rfl⟩

theorem getLast?_eq (leads : Leads first last items) : items.getLast? = some (page last) := by
  induction leads with
  | arrive => rfl
  | step _ _ ih => rw [List.getLast?_cons, ih]; rfl
  | skip _ _ ih => rw [List.getLast?_cons, List.getLast?_cons, ih]; rfl

theorem first_le_last (leads : Leads first last items) : first.toNat ≤ last.toNat := by
  induction leads with
  | arrive => exact Nat.le_refl _
  | step follows _ ih => omega
  | skip beyond _ ih => omega

theorem within (leads : Leads first last items) {number : UInt64}
    (listed : page number ∈ items) : first.toNat ≤ number.toNat ∧ number.toNat ≤ last.toNat := by
  induction leads with
  | arrive =>
      obtain rfl := PageItem.page.inj (List.mem_singleton.mp listed)
      exact ⟨Nat.le_refl _, Nat.le_refl _⟩
  | step follows onward ih =>
      have := onward.first_le_last
      rcases List.mem_cons.mp listed with here | later
      · obtain rfl := PageItem.page.inj here
        omega
      · have := ih later
        omega
  | skip beyond onward ih =>
      have := onward.first_le_last
      rcases List.mem_cons.mp listed with here | later
      · obtain rfl := PageItem.page.inj here
        omega
      · have := ih (List.mem_of_ne_of_mem PageItem.noConfusion later)
        omega

theorem increasing (leads : Leads first last items) : (numbers items).Pairwise (· < ·) := by
  induction leads with
  | arrive => exact List.pairwise_singleton _ _
  | step follows onward ih =>
      refine List.pairwise_cons.mpr ⟨?_, ih⟩
      intro number member
      have := (onward.within (mem_numbers_iff.mp member)).1
      exact UInt64.lt_iff_toNat_lt.mpr (by omega)
  | skip beyond onward ih =>
      refine List.pairwise_cons.mpr ⟨?_, ih⟩
      intro number member
      have := (onward.within (mem_numbers_iff.mp member)).1
      exact UInt64.lt_iff_toNat_lt.mpr (by omega)

theorem adjacent (leads : Leads first last items) {before after : List PageItem}
    {left right : UInt64} (split : items = before ++ page left :: page right :: after) :
    right.toNat = left.toNat + 1 := by
  -- The pair stands at the front of a step, or behind its first item.
  induction leads generalizing before with
  | arrive =>
      have := congrArg List.length split
      rw [List.length_singleton, List.length_append, List.length_cons, List.length_cons] at this
      omega
  | step follows onward ih =>
      cases before with
      | nil =>
          obtain ⟨rest, rfl⟩ := onward.exists_eq_cons
          simp only [List.nil_append, List.cons.injEq, page.injEq] at split
          obtain ⟨rfl, rfl, -⟩ := split
          exact follows
      | cons item before => exact ih (List.cons.inj split).2
  | skip beyond onward ih =>
      rcases before with _ | ⟨item, _ | ⟨mark, before⟩⟩
      · simp at split
      · simp at split
      · exact ih (List.cons.inj (List.cons.inj split).2).2

/-- A gap stands between two pages that are not next to each other. -/
theorem neighbours_of_gap (leads : Leads first last items) {before after : List PageItem}
    (split : items = before ++ gap :: after) :
    ∃ left right, before.getLast? = some (page left) ∧ after.head? = some (page right) ∧
      left.toNat + 2 ≤ right.toNat := by
  induction leads generalizing before with
  | arrive => rcases before with _ | ⟨item, _ | ⟨mark, before⟩⟩ <;> simp at split
  | step follows onward ih =>
      cases before with
      | nil => simp at split
      | cons item before =>
          obtain ⟨left, right, left_eq, facts⟩ := ih (List.cons.inj split).2
          refine ⟨left, right, ?_, facts⟩
          rw [List.getLast?_cons, left_eq]
          rfl
  | skip beyond onward ih =>
      rcases before with _ | ⟨item, _ | ⟨mark, before⟩⟩
      · simp at split
      · obtain ⟨rest, rfl⟩ := onward.exists_eq_cons
        simp only [List.singleton_append, List.cons.injEq, true_and] at split
        obtain ⟨rfl, rfl⟩ := split
        exact ⟨_, _, rfl, rfl, beyond⟩
      · obtain ⟨left, right, left_eq, facts⟩ := ih (List.cons.inj (List.cons.inj split).2).2
        refine ⟨left, right, ?_, facts⟩
        rw [List.getLast?_cons, List.getLast?_cons, left_eq]
        rfl

theorem unfolded_eq (leads : Leads first last items) :
    unfolded items = List.range' first.toNat (last.toNat + 1 - first.toNat) := by
  induction leads with
  | arrive => simp [unfolded]
  | @step number next last _ follows onward ih =>
      obtain ⟨rest, rfl⟩ := onward.exists_eq_cons
      have := onward.first_le_last
      rw [unfolded_page_page, ih, follows,
        show last.toNat + 1 - number.toNat = last.toNat + 1 - (number.toNat + 1) + 1 by omega,
        List.range'_succ]
  | @skip number next last _ beyond onward ih =>
      obtain ⟨rest, rfl⟩ := onward.exists_eq_cons
      have := onward.first_le_last
      rw [unfolded, ih]
      have behind : next.toNat = number.toNat + 1 + (next.toNat - number.toNat - 1) := by omega
      have joined := List.range'_append_1 (s := number.toNat + 1)
        (m := next.toNat - number.toNat - 1) (n := last.toNat + 1 - next.toNat)
      rw [← behind] at joined
      rw [List.cons_append, joined,
        show last.toNat + 1 - number.toNat =
          next.toNat - number.toNat - 1 + (last.toNat + 1 - next.toNat) + 1 by omega,
        List.range'_succ]

/-- Two ways with at least one page between them are one way with a gap. -/
theorem append (leads : Leads first last items) {next final : UInt64} {rest : List PageItem}
    (beyond : last.toNat + 2 ≤ next.toNat) (onward : Leads next final rest) :
    Leads first final (items ++ gap :: rest) := by
  induction leads with
  | arrive => exact .skip beyond onward
  | step follows _ ih => exact .step follows (ih beyond)
  | skip earlier _ ih => exact .skip earlier (ih beyond)

end Leads

/-! ## Runs of pages -/

theorem run_succ (first : UInt64) (count : Nat) :
    run first (count + 1) = page first :: run (first + 1) count := by
  have shifted : ∀ offset : Nat, first + .ofNat (offset + 1) = first + 1 + .ofNat offset := by
    intro offset
    rw [UInt64.ofNat_add, UInt64.add_comm (.ofNat offset), UInt64.add_assoc]
    rfl
  rw [run, run, List.range_succ_eq_map, List.map_cons, List.map_map]
  congr 1
  · exact congrArg page (UInt64.add_zero first)
  · exact List.map_congr_left fun offset _ => congrArg page (shifted offset)

/-- A run of consecutive pages is a way without gaps. -/
theorem leads_run {first last : UInt64} {count : Nat}
    (spans : last.toNat + 1 = first.toNat + count) (ordered : first.toNat ≤ last.toNat) :
    Leads first last (run first count) := by
  induction count generalizing first with
  | zero => omega
  | succ count ih =>
      rw [run_succ]
      rcases Nat.eq_or_lt_of_le ordered with same | before
      · obtain rfl : first = last := UInt64.toNat_inj.mp same
        obtain rfl : count = 0 := by omega
        exact .arrive first
      -- The next page is a word, since the last one is.
      · have bound := last.toNat_lt_size
        have follows : (first + 1).toNat = first.toNat + 1 :=
          Word.toNat_add_of_lt (show first.toNat + 1 < _ by omega)
        exact .step follows (ih (by omega) (by omega))

theorem length_run (first : UInt64) (count : Nat) : (run first count).length = count := by
  simp [run]

theorem page_mem_run {first number : UInt64} {count : Nat} (behind : first.toNat ≤ number.toNat)
    (before : number.toNat < first.toNat + count) : page number ∈ run first count := by
  refine List.mem_map.mpr ⟨number.toNat - first.toNat, List.mem_range.mpr (by omega), ?_⟩
  have bound := number.toNat_lt_size
  have offset : (UInt64.ofNat (number.toNat - first.toNat)).toNat = number.toNat - first.toNat :=
    UInt64.toNat_ofNat_of_lt' (by omega)
  congr 1
  rw [← UInt64.toNat_inj, Word.toNat_add_of_lt (by omega), offset]
  omega

/-! ## The navigation -/

/-- Of more than seven pages, the last ones are found without going below zero. -/
theorem window_at_end {total : UInt64} (many : ¬ total ≤ 7) :
    7 < total.toNat ∧ (total - 3).toNat + 3 = total.toNat ∧
      (total - 4).toNat + 4 = total.toNat := by
  rw [UInt64.le_iff_toNat_le] at many
  have more : 7 < total.toNat := Nat.lt_of_not_le many
  have near : (total - 3).toNat = total.toNat - 3 :=
    Word.toNat_sub_of_le (show 3 ≤ total.toNat by omega)
  have window : (total - 4).toNat = total.toNat - 4 :=
    Word.toNat_sub_of_le (show 4 ≤ total.toNat by omega)
  omega

/-- A page far from both ends has two pages on either side. -/
theorem window_around {current total : UInt64} (many : ¬ total ≤ 7) (behind : ¬ current ≤ 4)
    (before : ¬ total - 3 ≤ current) :
    4 < current.toNat ∧ current.toNat + 3 < total.toNat ∧
      (current - 2).toNat + 2 = current.toNat ∧ (current + 2).toNat = current.toNat + 2 := by
  obtain ⟨-, near, -⟩ := window_at_end many
  rw [UInt64.le_iff_toNat_le] at behind before
  have apart : 4 < current.toNat := Nat.lt_of_not_le behind
  have bound := total.toNat_lt_size
  have first : (current - 2).toNat = current.toNat - 2 :=
    Word.toNat_sub_of_le (show 2 ≤ current.toNat by omega)
  have last : (current + 2).toNat = current.toNat + 2 :=
    Word.toNat_add_of_lt (show current.toNat + 2 < _ by omega)
  omega

/-- The four forms of the navigation. -/
theorem navigation_cases (current total : UInt64) :
    (total.toNat ≤ 7 ∧ navigation current total = run 1 total.toNat) ∨
    (7 < total.toNat ∧ current.toNat ≤ 4 ∧
      navigation current total = run 1 5 ++ gap :: [page total]) ∨
    (∃ first : UInt64, 7 < total.toNat ∧ total.toNat ≤ current.toNat + 3 ∧
      first.toNat + 4 = total.toNat ∧
      navigation current total = [page 1] ++ gap :: run first 5) ∨
    (∃ first last : UInt64, 4 < current.toNat ∧ current.toNat + 3 < total.toNat ∧
      first.toNat + 2 = current.toNat ∧ last.toNat = current.toNat + 2 ∧
      navigation current total = [page 1] ++ gap :: (run first 5 ++ gap :: [page total])) := by
  rw [navigation]
  split_ifs with few early late
  · exact .inl ⟨UInt64.le_iff_toNat_le.mp few, rfl⟩
  · exact .inr (.inl ⟨(window_at_end few).1, UInt64.le_iff_toNat_le.mp early, rfl⟩)
  · obtain ⟨many, near, window⟩ := window_at_end few
    rw [UInt64.le_iff_toNat_le] at late
    exact .inr (.inr (.inl ⟨total - 4, many, by omega, window, rfl⟩))
  · obtain ⟨apart, distant, first, last⟩ := window_around few early late
    exact .inr (.inr (.inr ⟨current - 2, current + 2, apart, distant, first, last, rfl⟩))

theorem leads_navigation (current : UInt64) {total : UInt64} (some_pages : 1 ≤ total.toNat) :
    Leads 1 total (navigation current total) := by
  rcases navigation_cases current total with ⟨-, form⟩ | ⟨many, -, form⟩ |
    ⟨first, many, -, window, form⟩ | ⟨first, last, early, late, window, reach, form⟩
  · rw [form]
    exact leads_run (Nat.add_comm _ _) some_pages
  · have front : Leads 1 5 (run 1 5) := leads_run rfl (by decide)
    rw [form]
    exact front.append (show 5 + 2 ≤ total.toNat by omega) (.arrive total)
  · have back : Leads first total (run first 5) := leads_run (by omega) (by omega)
    rw [form]
    exact .skip (show 1 + 2 ≤ first.toNat by omega) back
  · have around : Leads first last (run first 5) := leads_run (by omega) (by omega)
    rw [form]
    exact .skip (show 1 + 2 ≤ first.toNat by omega)
      (around.append (show last.toNat + 2 ≤ total.toNat by omega) (.arrive total))

theorem length_navigation_le (current total : UInt64) : (navigation current total).length ≤ 9 := by
  rcases navigation_cases current total with ⟨few, form⟩ | ⟨-, -, form⟩ |
    ⟨first, -, -, -, form⟩ | ⟨first, last, -, -, -, -, form⟩ <;>
    rw [form]
  · rw [length_run]
    omega
  all_goals simp [length_run]

/-- The current page and its neighbours are listed. -/
theorem page_mem_navigation {current total near : UInt64} (among : current.toNat ≤ total.toNat)
    (positive : 1 ≤ near.toNat) (within : near.toNat ≤ total.toNat)
    (above : current.toNat ≤ near.toNat + 1) (below : near.toNat ≤ current.toNat + 1) :
    page near ∈ navigation current total := by
  rcases navigation_cases current total with ⟨-, form⟩ | ⟨-, early, form⟩ |
    ⟨first, -, late, window, form⟩ | ⟨first, last, -, -, window, -, form⟩
  · rw [form]
    exact page_mem_run positive (show _ < 1 + _ by omega)
  · rw [form]
    exact List.mem_append_left _ (page_mem_run positive (show _ < 1 + 5 by omega))
  · rw [form]
    exact List.mem_append_right _ (List.mem_cons_of_mem _ (page_mem_run (by omega) (by omega)))
  · rw [form]
    exact List.mem_append_right _ (List.mem_cons_of_mem _
      (List.mem_append_left _ (page_mem_run (by omega) (by omega))))

/-! ## Exact arithmetic -/

/-- The buttons from one page to another. -/
def stretch (first last : UInt64) : List PageItem :=
  run first (last.toNat + 1 - first.toNat)

/-- The navigation by exact arithmetic, undefined if a number on the way is no word. -/
def navigation? (current total : UInt64) : Option (List PageItem) :=
  if total ≤ 7 then some (stretch 1 total)
  else if current ≤ 4 then some (stretch 1 5 ++ [gap, page total])
  else do
    let near ← Word.sub? total 3
    if near ≤ current then
      let first ← Word.sub? total 4
      return page 1 :: gap :: stretch first total
    else
      let first ← Word.sub? current 2
      let last ← Word.add? current 2
      return page 1 :: gap :: stretch first last ++ [gap, page total]

theorem stretch_eq_run {first last : UInt64} {count : Nat}
    (spans : last.toNat + 1 = first.toNat + count) : stretch first last = run first count := by
  rw [stretch, spans, Nat.add_sub_cancel_left]

/-- No number on the way to the navigation is below zero or larger than every word. -/
theorem navigation?_eq (current total : UInt64) :
    navigation? current total = some (navigation current total) := by
  rw [navigation?, navigation]
  split_ifs with few early late
  · rfl
  · rfl
  all_goals
    obtain ⟨-, near, window⟩ := window_at_end few
    rw [Word.sub?_eq_some_iff.mpr near, Option.bind_eq_bind, Option.bind_some]
  · rw [if_pos late, Word.sub?_eq_some_iff.mpr window, Option.bind_some,
      stretch_eq_run (show total.toNat + 1 = (total - 4).toNat + 5 by omega)]
    rfl
  · obtain ⟨-, -, first, last⟩ := window_around few early late
    rw [if_neg late, Word.sub?_eq_some_iff.mpr first, Option.bind_some,
      Word.add?_eq_some_iff.mpr last, Option.bind_some,
      stretch_eq_run (show (current + 2).toNat + 1 = (current - 2).toNat + 5 by omega)]
    rfl

/-! ## Complete navigations -/

/-- A navigation that leads through all pages from the first to the last and marks what it hides. -/
structure IsComplete (total : UInt64) (items : List PageItem) : Prop where
  increasing : (numbers items).Pairwise (· < ·)
  within : ∀ number ∈ numbers items, 1 ≤ number ∧ number ≤ total
  first : 1 ≤ total → items.head? = some (page 1)
  last : 1 ≤ total → items.getLast? = some (page total)
  /-- Pages without a gap between them follow each other. -/
  adjacent : ∀ (before after : List PageItem) (left right : UInt64),
    items = before ++ page left :: page right :: after → right.toNat = left.toNat + 1
  /-- A gap stands between two pages and hides at least one. -/
  gaps : ∀ before after : List PageItem, items = before ++ gap :: after →
    ∃ left right, before.getLast? = some (page left) ∧ after.head? = some (page right) ∧
      left.toNat + 2 ≤ right.toNat
  /-- Every page is listed or hidden by exactly one gap. -/
  accounted : unfolded items = List.range' 1 total.toNat

theorem isComplete_nil : IsComplete 0 [] where
  increasing := .nil
  within := by simp [numbers]
  first := by decide
  last := by decide
  adjacent := by simp
  gaps := by simp
  accounted := rfl

theorem Leads.isComplete {total : UInt64} {items : List PageItem} (leads : Leads 1 total items) :
    IsComplete total items where
  increasing := leads.increasing
  within number listed := by
    have bounds := leads.within (mem_numbers_iff.mp listed)
    exact ⟨UInt64.le_iff_toNat_le.mpr bounds.1, UInt64.le_iff_toNat_le.mpr bounds.2⟩
  first _ := by
    obtain ⟨rest, rfl⟩ := leads.exists_eq_cons
    rfl
  last _ := leads.getLast?_eq
  adjacent _ _ _ _ := leads.adjacent
  gaps _ _ := leads.neighbours_of_gap
  accounted := leads.unfolded_eq

/-- Whatever page is current, the navigation is complete, short, and computed without leaving the
words; the current page and the pages next to it are listed. -/
theorem isComplete_navigation (current total : UInt64) :
    IsComplete total (navigation current total) ∧ (navigation current total).length ≤ 9 ∧
      navigation? current total = some (navigation current total) ∧
      (current ≤ total →
        ∀ near : UInt64, 1 ≤ near → near ≤ total →
          current.toNat ≤ near.toNat + 1 → near.toNat ≤ current.toNat + 1 →
            page near ∈ navigation current total) := by
  refine ⟨?_, length_navigation_le current total, navigation?_eq current total, ?_⟩
  · rcases Nat.eq_zero_or_pos total.toNat with none | some_pages
    · obtain rfl : total = 0 := UInt64.toNat_inj.mp none
      exact isComplete_nil
    · exact (leads_navigation current some_pages).isComplete
  · intro among near positive within above below
    exact page_mem_navigation (UInt64.le_iff_toNat_le.mp among) (UInt64.le_iff_toNat_le.mp positive)
      (UInt64.le_iff_toNat_le.mp within) above below

/-- Around page 10 of 20. -/
theorem isComplete_navigation_ten :
    navigation 10 20 =
        [page 1, gap, page 8, page 9, page 10, page 11, page 12, gap, page 20] ∧
      IsComplete 20 (navigation 10 20) ∧ page 11 ∈ navigation 10 20 :=
  ⟨by decide, (isComplete_navigation 10 20).1,
    (isComplete_navigation 10 20).2.2.2 (by decide) 11 (by decide) (by decide) (by decide)
      (by decide)⟩

end PageItem

end EntitySearch
