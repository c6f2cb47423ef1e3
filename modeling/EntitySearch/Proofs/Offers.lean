import EntitySearch.Metadata.Picker
import EntitySearch.Proofs.Number.Equality
import EntitySearch.Proofs.Repetition

/-!
# Picked values

Which of the chosen values stay is decided by their texts, and a value is dropped as a repetition if
it equals one that stays. Values that are equal have the same text, and a text always leads to the
same offered value, so either test for repetitions gives the same list.
-/

namespace EntitySearch

namespace FilterValue

/-- A value is equal to itself unless it is an undefined number. -/
theorem same_self {value : FilterValue} (defined : value ≠ .number .nan) :
    value.same value = true := by
  cases value with
  | number value => exact Double.same_self fun undefined => defined (congrArg number undefined)
  | text value => simp [same]

theorem display_eq_of_same {left right : FilterValue} (equal : left.same right = true) :
    left.display = right.display := by
  cases left with
  | number left =>
      cases right with
      | number right => exact Double.numeral_eq_of_same equal
      | text right => cases equal
  | text left =>
      cases right with
      | number right => cases equal
      | text right => exact beq_iff_eq.mp equal

end FilterValue

namespace ValueOption

/-- The offered value that a text stands for. -/
def valueOf? (options : List ValueOption) (text : String) : Option FilterValue :=
  (displayed? text options).map (·.value)

theorem valueOf?_eq_some_iff {options : List ValueOption} {text : String} {value : FilterValue} :
    valueOf? options text = some value ↔
      ∃ option, displayed? text options = some option ∧ option.value = value := by
  rw [valueOf?, Option.map_eq_some_iff]

theorem display_of_valueOf? {options : List ValueOption} {text : String} {value : FilterValue}
    (offered : valueOf? options text = some value) : value.display = text := by
  obtain ⟨option, found, rfl⟩ := valueOf?_eq_some_iff.mp offered
  simpa using List.find?_some found

theorem exists_option_of_valueOf? {options : List ValueOption} {text : String} {value : FilterValue}
    (offered : valueOf? options text = some value) : ∃ option ∈ options, option.value = value := by
  obtain ⟨option, found, same⟩ := valueOf?_eq_some_iff.mp offered
  exact ⟨option, List.mem_of_find?_eq_some found, same⟩

/-- A text stands for an offered value exactly if an option is shown as that text. -/
theorem isSome_valueOf? (options : List ValueOption) (text : String) :
    (valueOf? options text).isSome ↔ text ∈ options.map (·.value.display) := by
  rw [valueOf?, Option.isSome_map, displayed?, List.find?_isSome, List.mem_map]
  simp only [beq_iff_eq]

/-- One more chosen value adds what its text stands for, unless an equal value is there. -/
theorem offered_append_singleton (options : List ValueOption) (chosen : List FilterValue)
    (value : FilterValue) :
    offered options (chosen ++ [value]) =
      match valueOf? options value.display with
      | some picked =>
          if (offered options chosen).any (·.same picked) then offered options chosen
          else offered options chosen ++ [picked]
      | none => offered options chosen := by
  rw [offered, List.foldl_append, ← offered, valueOf?, List.foldl_cons, List.foldl_nil]
  cases displayed? value.display options <;> rfl

section Defined

variable {options : List ValueOption}
  (defined : ∀ option ∈ options, option.value ≠ .number .nan)
include defined

/-- A value is dropped as a repetition exactly if its text came up before. -/
theorem any_same_iff (texts : List String) {text : String} {value : FilterValue}
    (picked : valueOf? options text = some value) :
    (texts.filterMap (valueOf? options)).any (·.same value) = true ↔ text ∈ texts := by
  rw [List.any_eq_true]
  constructor
  · rintro ⟨other, member, equal⟩
    obtain ⟨earlier, earlier_mem, other_picked⟩ := List.mem_filterMap.mp member
    have texts_same := FilterValue.display_eq_of_same equal
    rw [display_of_valueOf? other_picked, display_of_valueOf? picked] at texts_same
    exact texts_same ▸ earlier_mem
  · intro member
    obtain ⟨option, option_mem, rfl⟩ := exists_option_of_valueOf? picked
    exact ⟨option.value, List.mem_filterMap.mpr ⟨text, member, picked⟩,
      FilterValue.same_self (defined option option_mem)⟩

/-- What stays are the offered values that the chosen texts stand for, each text taken once. -/
theorem offered_eq (chosen : List FilterValue) :
    offered options chosen =
      ((chosen.map FilterValue.display).eraseDups).filterMap (valueOf? options) := by
  induction chosen using List.reverseRecOn with
  | nil => rfl
  | append_singleton earlier value ih =>
      rw [offered_append_singleton, ih, List.map_append, List.map_singleton,
        eraseDups_append_singleton]
      cases picked : valueOf? options value.display with
      | none =>
          split_ifs with seen
          · rfl
          · simp [List.filterMap_append, picked]
      | some other =>
          have repeated := any_same_iff defined (earlier.map FilterValue.display).eraseDups picked
          rw [List.mem_eraseDups] at repeated
          dsimp only
          by_cases seen : value.display ∈ earlier.map FilterValue.display
          · rw [if_pos (repeated.mpr seen), if_pos seen]
          · rw [if_neg (mt repeated.mp seen), if_neg seen]
            simp [List.filterMap_append, picked]

end Defined

/-- The texts of what texts stand for are these texts again, without those that stand for nothing. -/
theorem map_display_filterMap (options : List ValueOption) (texts : List String) :
    (texts.filterMap (valueOf? options)).map FilterValue.display =
      texts.filter (· ∈ options.map (·.value.display)) := by
  induction texts with
  | nil => rfl
  | cons text rest ih =>
      have listed := isSome_valueOf? options text
      cases picked : valueOf? options text with
      | none =>
          rw [picked] at listed
          rw [List.filterMap_cons_none picked, ih, List.filter_cons_of_neg]
          simpa using mt listed.mpr
      | some value =>
          rw [picked] at listed
          rw [List.filterMap_cons_some picked, List.map_cons, ih, display_of_valueOf? picked,
            List.filter_cons_of_pos]
          simpa using listed.mp rfl

/-! ## Values that are left alone -/

/-- Each value is the one that its own text stands for, and no text comes twice. -/
structure Settled (options : List ValueOption) (kept : List FilterValue) : Prop where
  own : ∀ value ∈ kept, valueOf? options value.display = some value
  distinct : (kept.map FilterValue.display).Nodup

/-- Values that are each the one that its text stands for are found again by their texts. -/
theorem filterMap_map_display {options : List ValueOption} {kept : List FilterValue}
    (own : ∀ value ∈ kept, valueOf? options value.display = some value) :
    (kept.map FilterValue.display).filterMap (valueOf? options) = kept := by
  have same : ∀ value ∈ kept, (valueOf? options ∘ FilterValue.display) value = some value := own
  rw [List.filterMap_map, List.filterMap_congr same, List.filterMap_some]

namespace Settled

variable {options : List ValueOption} {kept : List FilterValue}

theorem take (settled : Settled options kept) (limit : Nat) : Settled options (kept.take limit) where
  own value member := settled.own value (List.mem_of_mem_take member)
  distinct := by
    rw [List.map_take]
    exact settled.distinct.sublist (List.take_sublist limit _)

theorem offered_eq (defined : ∀ option ∈ options, option.value ≠ .number .nan)
    (settled : Settled options kept) : offered options kept = kept := by
  rw [ValueOption.offered_eq defined, eraseDups_of_nodup settled.distinct,
    filterMap_map_display settled.own]

end Settled

section Defined

variable {options : List ValueOption}
  (defined : ∀ option ∈ options, option.value ≠ .number .nan) (chosen : List FilterValue)
include defined

/-- The texts of the values that stay are those chosen that are shown by an option, each once. -/
theorem map_display_offered :
    (offered options chosen).map FilterValue.display =
      ((chosen.map FilterValue.display).eraseDups).filter (· ∈ options.map (·.value.display)) := by
  rw [offered_eq defined, map_display_filterMap]

theorem settled_offered : Settled options (offered options chosen) where
  own value member := by
    rw [offered_eq defined] at member
    obtain ⟨text, -, picked⟩ := List.mem_filterMap.mp member
    rw [display_of_valueOf? picked, picked]
  distinct := by
    rw [map_display_offered defined]
    exact (nodup_eraseDups _).sublist List.filter_sublist

theorem settled_sanitize (limit : Option Nat) : Settled options (sanitize chosen options limit) := by
  rw [sanitize]
  cases limit.filter (0 < ·) with
  | none => exact settled_offered defined chosen
  | some limit => exact (settled_offered defined chosen).take limit

end Defined

/-- Values that are left alone are left alone under any limit that they do not exceed. -/
theorem Settled.sanitize_eq {options : List ValueOption}
    (defined : ∀ option ∈ options, option.value ≠ .number .nan) {kept : List FilterValue}
    (settled : Settled options kept) {limit : Option Nat}
    (within : ∀ most, limit.filter (0 < ·) = some most → kept.length ≤ most) :
    sanitize kept options limit = kept := by
  rw [sanitize, settled.offered_eq defined]
  cases capped : limit.filter (0 < ·) with
  | none => rfl
  | some most => exact List.take_of_length_le (within most capped)

/-- Of the chosen texts, each taken once, those shown by an option stay, in the order chosen. Each
stands for the value of the first option that is shown so. A limit cuts the list off unless it is
zero, and values that stayed once stay again. -/
theorem sanitize_offered (chosen : List FilterValue) {options : List ValueOption}
    (defined : ∀ option ∈ options, option.value ≠ .number .nan) :
    let kept := sanitize chosen options none
    kept.map FilterValue.display =
        ((chosen.map FilterValue.display).eraseDups).filter (· ∈ options.map (·.value.display)) ∧
      (∀ value ∈ kept, ∃ option,
        options.find? (·.value.display == value.display) = some option ∧ option.value = value) ∧
      (∀ limit, 0 < limit → sanitize chosen options (some limit) = kept.take limit) ∧
      sanitize chosen options (some 0) = kept ∧
      ∀ limit, sanitize (sanitize chosen options limit) options limit =
        sanitize chosen options limit := by
  intro kept
  refine ⟨map_display_offered defined chosen, fun value member => ?_, fun limit positive => ?_, rfl,
    fun limit => ?_⟩
  · exact valueOf?_eq_some_iff.mp ((settled_offered defined chosen).own value member)
  · rw [sanitize, Option.filter_some, decide_eq_true positive]
    rfl
  · apply (settled_sanitize defined chosen limit).sanitize_eq defined
    intro most capped
    rw [sanitize, capped]
    exact List.length_take_le most _

/-- A text picks a number, a zero of either sign picks the first option shown as zero, and what is
not offered is left out. -/
theorem sanitize_offered_zeros :
    let options : List ValueOption := [⟨.number .one, "open"⟩,
      ⟨.number (.finite (.zero true)), "none"⟩, ⟨.text "0", "nil"⟩, ⟨.text "1", "first"⟩]
    let chosen : List FilterValue :=
      [.text "0", .text "2", .text "1", .number (.finite (.zero false)), .number .one]
    (∀ option ∈ options, option.value ≠ .number .nan) ∧
      (sanitize chosen options none).map FilterValue.display = ["0", "1"] ∧
      sanitize chosen options (some 1) = (sanitize chosen options none).take 1 ∧
      sanitize (sanitize chosen options (some 1)) options (some 1) =
        sanitize chosen options (some 1) := by
  intro options chosen
  have defined : ∀ option ∈ options, option.value ≠ .number .nan := by decide
  obtain ⟨texts, -, cut, -, again⟩ := sanitize_offered chosen defined
  exact ⟨defined, texts.trans (by decide +kernel), cut 1 Nat.one_pos, again (some 1)⟩

end ValueOption

end EntitySearch
