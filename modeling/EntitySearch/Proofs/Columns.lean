import EntitySearch.Column
import EntitySearch.Proofs.Number.Numeral
import EntitySearch.Proofs.Repetition

/-!
# Keys of projected columns

Every projected column comes from one table column, which decides its path and the form of its key.
Keys tell attributes apart as long as the names within an alias do and no attribute of the searched
entity is named like an alias.
-/

namespace EntitySearch

namespace Column

/-! ## Projected columns and table columns -/

/-- A path leads to the columns of the searched entity and to those behind complete joins. -/
theorem isSome_path?_iff (entity : String) (column : TableColumn) :
    (path? (standsOnRoot entity column) column).isSome ↔
      standsOnRoot entity column = true ∨ 2 ≤ column.length ∧ column.joinPath?.isSome := by
  have empty_path_iff := column.joinPath?_eq_nil_iff
  rw [path?]
  cases standsOnRoot entity column with
  | true => simp
  | false =>
      cases complete : column.joinPath? with
      | none => simp
      | some path =>
          rw [complete] at empty_path_iff
          cases path with
          | nil =>
              have single : ¬ 2 ≤ column.length := by
                have short := empty_path_iff.mp rfl
                omega
              simp [single]
          | cons hop hops =>
              have chained : 2 ≤ column.length := by
                have long : ¬ column.length ≤ 1 := by simp [← empty_path_iff]
                omega
              simp [chained]

theorem source_of_mem_ofTableColumn {entity : String} {index : Nat} {source : TableColumn}
    {column : Column} (member : column ∈ ofTableColumn entity index source) :
    column.sourceColumn = index ∧ column.isRoot = standsOnRoot entity source ∧
      path? column.isRoot source = some column.joinPath ∧
        column.valueKey = if column.isRoot then column.attributeName
          else relatedKey column.sourceColumn column.attributeName := by
  rw [ofTableColumn] at member
  cases found : path? (standsOnRoot entity source) source with
  | none => rw [found] at member; cases member
  | some path =>
      rw [found] at member
      obtain ⟨position, bound, rfl⟩ := List.mem_mapIdx.mp member
      exact ⟨rfl, rfl, found, rfl⟩

/-- What a table column decides about the columns that come from it. -/
theorem exists_source_of_mem {entity : String} {columns : List TableColumn} {column : Column}
    (member : column ∈ ofTableColumns entity columns) :
    ∃ source, columns[column.sourceColumn]? = some source ∧
      column.isRoot = standsOnRoot entity source ∧
        path? column.isRoot source = some column.joinPath ∧
          column.valueKey = if column.isRoot then column.attributeName
            else relatedKey column.sourceColumn column.attributeName := by
  obtain ⟨resolved, resolved_member, inside⟩ := List.mem_flatten.mp member
  obtain ⟨index, bound, rfl⟩ := List.mem_mapIdx.mp resolved_member
  obtain ⟨index_eq, root_eq, path_eq, key_eq⟩ := source_of_mem_ofTableColumn inside
  refine ⟨columns[index], ?_, root_eq, path_eq, key_eq⟩
  rw [index_eq]
  exact List.getElem?_eq_getElem bound

/-- No column comes from a table column exactly if it shows none by itself. -/
theorem forall_sourceColumn_ne_iff {entity : String} {columns : List TableColumn} {index : Nat}
    {source : TableColumn} (found : columns[index]? = some source) :
    (∀ column ∈ ofTableColumns entity columns, column.sourceColumn ≠ index) ↔
      ofTableColumn entity index source = [] := by
  obtain ⟨bound, rfl⟩ := List.getElem?_eq_some_iff.mp found
  constructor
  · intro absent
    rw [List.eq_nil_iff_forall_not_mem]
    intro column inside
    have resolved_member : ofTableColumn entity index columns[index] ∈
        columns.mapIdx (ofTableColumn entity) :=
      List.mem_mapIdx.mpr ⟨index, bound, rfl⟩
    exact absent column (List.mem_flatten.mpr ⟨_, resolved_member, inside⟩)
      (source_of_mem_ofTableColumn inside).1
  · rintro nothing column member rfl
    obtain ⟨resolved, resolved_member, inside⟩ := List.mem_flatten.mp member
    obtain ⟨other, other_bound, rfl⟩ := List.mem_mapIdx.mp resolved_member
    have same := (source_of_mem_ofTableColumn inside).1
    subst same
    rw [nothing] at inside
    cases inside

section Members

variable {entity : String} {columns : List TableColumn} {column : Column}
  (member : column ∈ ofTableColumns entity columns)
include member

/-- Exactly the columns of the searched entity need no join. -/
theorem joinPath_eq_nil_iff : column.joinPath = [] ↔ column.isRoot = true := by
  obtain ⟨source, _, _, path_eq, _⟩ := exists_source_of_mem member
  rw [path?] at path_eq
  split_ifs at path_eq with root
  · simp [root, ← Option.some.inj path_eq]
  · cases joined : source.joinPath? with
    | none => rw [joined] at path_eq; cases path_eq
    | some path =>
        rw [joined] at path_eq
        cases path with
        | nil => cases path_eq
        | cons hop hops => simp [root, ← Option.some.inj path_eq]

theorem isRoot_eq_of_joinPath_eq {other : Column}
    (other_member : other ∈ ofTableColumns entity columns)
    (same : other.joinPath = column.joinPath) : other.isRoot = column.isRoot := by
  rw [Bool.eq_iff_iff, ← joinPath_eq_nil_iff member, ← joinPath_eq_nil_iff other_member, same]

theorem valueKey_of_isRoot (root : column.isRoot = true) :
    column.valueKey = column.attributeName := by
  obtain ⟨_, _, _, _, key_eq⟩ := exists_source_of_mem member
  rw [key_eq, if_pos root]

theorem valueKey_of_not_isRoot (related : column.isRoot = false) :
    column.valueKey = relatedKey column.sourceColumn column.attributeName := by
  obtain ⟨_, _, _, _, key_eq⟩ := exists_source_of_mem member
  rw [key_eq, related]
  rfl

/-- Columns that come from the same table column have the same path. -/
theorem joinPath_eq_of_sourceColumn_eq {other : Column}
    (other_member : other ∈ ofTableColumns entity columns)
    (same : column.sourceColumn = other.sourceColumn) : column.joinPath = other.joinPath := by
  obtain ⟨source, source_eq, root_eq, path_eq, _⟩ := exists_source_of_mem member
  obtain ⟨other_source, other_eq, other_root, other_path, _⟩ := exists_source_of_mem other_member
  rw [same, other_eq] at source_eq
  obtain rfl := Option.some.inj source_eq
  rw [root_eq, ← other_root, other_path] at path_eq
  exact (Option.some.inj path_eq).symm

end Members

/-! ## Aliases -/

/-- An attribute's name as it stands in an alias. -/
def aliasText (attributeName : String) : List Char :=
  attributeName.toList.map fun c => if isAliasChar c then c else '_'

theorem toList_relatedKey (sourceColumn : Nat) (attributeName : String) :
    (relatedKey sourceColumn attributeName).toList =
      "col_".toList ++ (Text.natDigits sourceColumn ++ '_' :: aliasText attributeName) := by
  rw [relatedKey, String.toList_ofList]
  rfl

/-- A run of digits ends at the underscore after it. -/
theorem natDigits_append_cons_inj {first second : Nat} {front back : List Char}
    (same : Text.natDigits first ++ '_' :: front = Text.natDigits second ++ '_' :: back) :
    first = second ∧ front = back := by
  -- The underscores in the names do not matter: both texts are cut at their first one.
  have unbroken (value : Nat) : ∀ c ∈ Text.natDigits value, (c == '_') = false := by
    intro c member
    have digit := ((Text.isDigits_iff _).mp (Text.isDigits_natDigits value)).2 c member
    rw [beq_eq_false_iff_ne]
    rintro rfl
    cases digit
  have pieces := congrArg (Text.splitWhere (· == '_')) same
  rw [Text.splitWhere_append_cons (unbroken first) rfl,
    Text.splitWhere_append_cons (unbroken second) rfl] at pieces
  have digits_same : Text.natDigits first = Text.natDigits second := (List.cons.inj pieces).1
  rw [digits_same] at same
  exact ⟨Text.natDigits_injective digits_same, (List.cons.inj (List.append_cancel_left same)).2⟩

theorem relatedKey_eq_iff {first second : Nat} {name other : String} :
    relatedKey first name = relatedKey second other ↔
      first = second ∧ aliasText name = aliasText other := by
  rw [← String.toList_inj, toList_relatedKey, toList_relatedKey, List.append_cancel_left_eq]
  constructor
  · exact natDigits_append_cons_inj
  · rintro ⟨rfl, texts_same⟩
    rw [texts_same]

/-- The character is an ASCII letter, an ASCII digit or the underscore. -/
def IsWordChar (c : Char) : Prop :=
  ('A' ≤ c ∧ c ≤ 'Z') ∨ ('a' ≤ c ∧ c ≤ 'z') ∨ ('0' ≤ c ∧ c ≤ '9') ∨ c = '_'

theorem isAliasChar_iff (c : Char) : isAliasChar c = true ↔ IsWordChar c := by
  have upper : c.isUpper = true ↔ 'A' ≤ c ∧ c ≤ 'Z' := decide_eq_true_iff
  have lower : c.isLower = true ↔ 'a' ≤ c ∧ c ≤ 'z' :=
    Bool.and_eq_true_iff.trans (and_congr decide_eq_true_iff decide_eq_true_iff)
  have digit : c.isDigit = true ↔ '0' ≤ c ∧ c ≤ '9' :=
    Bool.and_eq_true_iff.trans (and_congr decide_eq_true_iff decide_eq_true_iff)
  have classes : isAliasChar c = (((c.isUpper || c.isLower) || c.isDigit) || c == '_') := rfl
  simp only [classes, Bool.or_eq_true, upper, lower, digit, beq_iff_eq, or_assoc, IsWordChar]

instance (c : Char) : Decidable (IsWordChar c) :=
  decidable_of_iff (isAliasChar c = true) (isAliasChar_iff c)

/-- A name with an underscore for every character that is not one of a word. -/
def wordText (name : String) : String :=
  String.ofList (name.toList.map fun c => if IsWordChar c then c else '_')

/-- Related columns of different table columns have different keys. -/
def SourcesApart (columns : List Column) : Prop :=
  ∀ first ∈ columns, ∀ second ∈ columns, first.isRoot = false → second.isRoot = false →
    first.valueKey = second.valueKey → first.sourceColumn = second.sourceColumn

theorem toList_wordText (name : String) : (wordText name).toList = aliasText name := by
  rw [wordText, String.toList_ofList]
  simp only [aliasText, isAliasChar_iff]

theorem isWordChar_of_mem_natDigits {value : Nat} {c : Char} (member : c ∈ Text.natDigits value) :
    IsWordChar c := by
  have digit := ((Text.isDigits_iff _).mp (Text.isDigits_natDigits value)).2 c member
  rw [← isAliasChar_iff, isAliasChar, Char.isAlphanum, digit]
  simp

theorem isWordChar_of_mem_aliasText {name : String} {c : Char} (member : c ∈ aliasText name) :
    IsWordChar c := by
  obtain ⟨original, _, rfl⟩ := List.mem_map.mp member
  split_ifs with kept
  · exact (isAliasChar_iff original).mp kept
  · decide

/-- An alias tells its table column and the name of its attribute, up to the characters that may not
stand in it: all of its characters are letters, digits and underscores. So no two table columns
share an alias. -/
theorem relatedKey_separates :
    (∀ (first second : Nat) (name other : String),
      relatedKey first name = relatedKey second other ↔
        first = second ∧ wordText name = wordText other) ∧
    (∀ (position : Nat) (name : String), ∀ c ∈ (relatedKey position name).toList, IsWordChar c) ∧
    ∀ (entity : String) (columns : List TableColumn),
      SourcesApart (ofTableColumns entity columns) := by
  refine ⟨?_, ?_, ?_⟩
  · intro first second name other
    rw [relatedKey_eq_iff, ← toList_wordText, ← toList_wordText, String.toList_inj]
  · intro position name c member
    rw [toList_relatedKey, List.mem_append, List.mem_append, List.mem_cons] at member
    rcases member with front | digit | rfl | in_name
    · have all_word : "col_".toList.all isAliasChar = true := by decide
      exact (isAliasChar_iff c).mp (List.all_eq_true.mp all_word c front)
    · exact isWordChar_of_mem_natDigits digit
    · decide
    · exact isWordChar_of_mem_aliasText in_name
  · intro entity columns first first_member second second_member first_related second_related same
    rw [valueKey_of_not_isRoot first_member first_related,
      valueKey_of_not_isRoot second_member second_related] at same
    exact (relatedKey_eq_iff.mp same).1

/-! ## Collisions -/

/-- Columns with the same key show the same attribute of the same entity. -/
def KeysApart (columns : List Column) : Prop :=
  ∀ first ∈ columns, ∀ second ∈ columns, first.valueKey = second.valueKey →
    first.joinPath = second.joinPath ∧ first.attributeName = second.attributeName

/-- No table column shows different attributes of another entity whose names are alike in an
alias. -/
def AliasesApart (columns : List Column) : Prop :=
  ∀ first ∈ columns, ∀ second ∈ columns, first.isRoot = false → second.isRoot = false →
    first.sourceColumn = second.sourceColumn →
      aliasText first.attributeName = aliasText second.attributeName →
        first.attributeName = second.attributeName

/-- No attribute of the searched entity is named like the alias of another column. -/
def RootNamesApart (columns : List Column) : Prop :=
  ∀ root ∈ columns, ∀ related ∈ columns, root.isRoot = true → related.isRoot = false →
    root.attributeName ≠ relatedKey related.sourceColumn related.attributeName

theorem valueKey_ne_of_rootNamesApart {entity : String} {columns : List TableColumn}
    (apart : RootNamesApart (ofTableColumns entity columns)) {root related : Column}
    (root_member : root ∈ ofTableColumns entity columns)
    (related_member : related ∈ ofTableColumns entity columns) (is_root : root.isRoot = true)
    (is_related : related.isRoot = false) : root.valueKey ≠ related.valueKey := by
  rw [valueKey_of_isRoot root_member is_root, valueKey_of_not_isRoot related_member is_related]
  exact apart root root_member related related_member is_root is_related

/-- Keys of different attributes collide in two ways and no other: two names within one table column
become the same alias, or an attribute of the searched entity is named like an alias. -/
theorem keysApart_ofTableColumns_iff (entity : String) (columns : List TableColumn) :
    let resolved := ofTableColumns entity columns
    KeysApart resolved ↔ AliasesApart resolved ∧ RootNamesApart resolved := by
  intro resolved
  constructor
  · intro apart
    constructor
    · intro first first_member second second_member first_related second_related source_eq texts_eq
      refine (apart first first_member second second_member ?_).2
      rw [valueKey_of_not_isRoot first_member first_related,
        valueKey_of_not_isRoot second_member second_related]
      exact relatedKey_eq_iff.mpr ⟨source_eq, texts_eq⟩
    · intro root root_member related related_member is_root is_related named
      have same_key : root.valueKey = related.valueKey := by
        rw [valueKey_of_isRoot root_member is_root,
          valueKey_of_not_isRoot related_member is_related, named]
      have same_path := (apart root root_member related related_member same_key).1
      rw [(joinPath_eq_nil_iff root_member).mpr is_root] at same_path
      rw [(joinPath_eq_nil_iff related_member).mp same_path.symm] at is_related
      cases is_related
  · rintro ⟨aliases_apart, names_apart⟩ first first_member second second_member same_key
    cases first_root : first.isRoot <;> cases second_root : second.isRoot
    · rw [valueKey_of_not_isRoot first_member first_root,
        valueKey_of_not_isRoot second_member second_root, relatedKey_eq_iff] at same_key
      obtain ⟨source_eq, texts_eq⟩ := same_key
      exact ⟨joinPath_eq_of_sourceColumn_eq first_member second_member source_eq,
        aliases_apart first first_member second second_member first_root second_root source_eq
          texts_eq⟩
    · exact absurd same_key.symm (valueKey_ne_of_rootNamesApart names_apart second_member
        first_member second_root first_root)
    · exact absurd same_key (valueKey_ne_of_rootNamesApart names_apart first_member second_member
        first_root second_root)
    · rw [valueKey_of_isRoot first_member first_root,
        valueKey_of_isRoot second_member second_root] at same_key
      rw [(joinPath_eq_nil_iff first_member).mpr first_root,
        (joinPath_eq_nil_iff second_member).mpr second_root]
      exact ⟨rfl, same_key⟩

/-- Keys can collide: an attribute of the searched entity may have the name of an alias. -/
theorem not_keysApart_ofTableColumns :
    ¬ ∀ entity columns, KeysApart (ofTableColumns entity columns) := by
  intro apart
  let near : ColumnLink := { ColumnLink.none with fromAttribute := some "primarycontactid" }
  let far : ColumnLink :=
    { ColumnLink.ofAttribute "fullname" with
      entityName := some "contact", toAttribute := some "contactid" }
  let columns : List TableColumn := [.single (.ofAttribute "col_1_fullname"), ⟨[near], far⟩]
  let root : Column := ⟨0, 0, [], "col_1_fullname", "account", none, none, "col_1_fullname", true⟩
  let related : Column :=
    ⟨1, 0, [⟨"contact", "primarycontactid", "contactid"⟩], "fullname", "contact", none, none,
      "col_1_fullname", false⟩
  have resolved : ofTableColumns "account" columns = [root, related] := rfl
  have root_member : root ∈ ofTableColumns "account" columns := by simp [resolved]
  have related_member : related ∈ ofTableColumns "account" columns := by simp [resolved]
  have same := (apart "account" columns root root_member related related_member rfl).2
  exact absurd same (by decide)

/-! ## Selected attributes -/

/-- What is selected are the keys of the columns of the searched entity. -/
theorem mem_selected_iff {entity : String} {columns : List TableColumn} {key : String} :
    key ∈ selected (ofTableColumns entity columns) ↔
      ∃ column ∈ ofTableColumns entity columns, column.isRoot = true ∧ column.valueKey = key := by
  rw [selected, Gathered.mem_ofList_iff, List.mem_map]
  constructor
  · rintro ⟨column, inside, rfl⟩
    obtain ⟨member, is_root⟩ := List.mem_filter.mp inside
    exact ⟨column, member, is_root, valueKey_of_isRoot member is_root⟩
  · rintro ⟨column, member, is_root, rfl⟩
    exact ⟨column, List.mem_filter.mpr ⟨member, is_root⟩, (valueKey_of_isRoot member is_root).symm⟩

end Column

end EntitySearch
