import EntitySearch.Proofs.Json.Records

/-!
# Edited documents

A document is edited at one place, in a field of a record or in an item of a list, and such edits
are nested in each other. A reader of records and lists reads the edited document like the original,
up to what it reads at that place.
-/

namespace EntitySearch

namespace Entries

variable {Value : Type}

theorem find?_append_cons_of_ne {name other : String} (other_ne : other ≠ name) (value : Value)
    (before after : List (String × Value)) :
    find? other (before ++ (name, value) :: after) = find? other (before ++ after) := by
  induction before with
  | nil => rw [List.nil_append, find?, if_neg (Ne.symm other_ne), List.nil_append]
  | cons entry rest ih => rw [List.cons_append, find?, ih, List.cons_append, find?]

theorem find?_append_cons_self {name : String} {before : List (String × Value)}
    (absent : name ∉ before.map Prod.fst) (value : Value) (after : List (String × Value)) :
    find? name (before ++ (name, value) :: after) = some value := by
  induction before with
  | nil => rw [List.nil_append, find?, if_pos rfl]
  | cons entry rest ih =>
      rw [List.map_cons, List.mem_cons, not_or] at absent
      rw [List.cons_append, find?, if_neg (Ne.symm absent.1), ih absent.2]

end Entries

/-- Change the item at a position of a list, if there is one and it can be changed. -/
def changeItem? {Item : Type} (change : Item → Option Item) (index : Nat) (items : List Item) :
    Option (List Item) := do
  let item ← items[index]?
  let changed ← change item
  some (items.set index changed)

section ChangeItem

variable {Item : Type} (change : Item → Option Item)

theorem changeItem?_eq_some_iff {change : Item → Option Item} {index : Nat}
    {items changed : List Item} :
    changeItem? change index items = some changed ↔
      ∃ item new, items[index]? = some item ∧ change item = some new ∧
        items.set index new = changed := by
  simp [changeItem?, Option.bind_eq_some_iff]

theorem changeItem?_zero (first : Item) (rest : List Item) :
    changeItem? change 0 (first :: rest) = (change first).map (· :: rest) := by
  cases changes : change first <;> simp [changeItem?, changes]

theorem changeItem?_succ (index : Nat) (first : Item) (rest : List Item) :
    changeItem? change (index + 1) (first :: rest) =
      (changeItem? change index rest).map (first :: ·) := by
  cases found : rest[index]? with
  | none => simp [changeItem?, found]
  | some item => cases changes : change item <;> simp [changeItem?, found, changes]

end ChangeItem

namespace Json

/-! ## Edits -/

/-- One field of a record's document is edited, be it written there already or not yet. -/
inductive FieldEdited (names : List String) (name : String) (edit : Option Json → Json → Prop) :
    Json → Json → Prop
  | replaced {old new : Json} (before after : Members) (edited : edit (some old) new) :
      FieldEdited names name edit (.object (before ++ (name, old) :: after))
        (.object (before ++ (name, new) :: after))
  | added {new : Json} (before after : Members) (absent : name ∉ (before ++ after).map Prod.fst)
      (edited : edit none new) :
      FieldEdited names name edit (.object (before ++ after))
        (.object (before ++ (name, new) :: after))
  /-- The record is a list, so the field is known by its position. -/
  | replacedItem {old new : Json} (before after : List Json)
      (position : names[before.length]? = some name) (edited : edit (some old) new) :
      FieldEdited names name edit (.array (before ++ old :: after))
        (.array (before ++ new :: after))
  | addedItem {new : Json} (items : List Json) (position : names[items.length]? = some name)
      (edited : edit none new) :
      FieldEdited names name edit (.array items) (.array (items ++ [new]))

/-- The item at a position of a list is edited. -/
inductive ItemEdited (index : Nat) (edit : Json → Json → Prop) : Json → Json → Prop
  | item {old new : Json} (before after : List Json) (position : before.length = index)
      (edited : edit old new) :
      ItemEdited index edit (.array (before ++ old :: after)) (.array (before ++ new :: after))

/-- A field gets a value, whatever it was before. -/
def Put (value : Json) (_ : Option Json) (new : Json) : Prop :=
  new = value

/-- What is written in a field is edited. -/
def Inside (edit : Json → Json → Prop) (old : Option Json) (new : Json) : Prop :=
  ∃ document, old = some document ∧ edit document new

theorem FieldEdited.ne_null {names : List String} {name : String}
    {edit : Option Json → Json → Prop} {document edited : Json}
    (edits : FieldEdited names name edit document edited) : document ≠ .null := by
  cases edits <;> simp

/-! ## Edited records -/

namespace Record

/-- The records agree on all fields but one. -/
structure AgreeApart (name : String) (record edited : Record) : Prop where
  positional : edited.positional = record.positional
  others : ∀ other, other ≠ name → edited.find? other = record.find? other

/-- One field of a record is edited. -/
structure FieldEdited (name : String) (edit : Option Json → Json → Prop)
    (record edited : Record) : Prop extends AgreeApart name record edited where
  field : ∃ new, edited.find? name = some new ∧ edit (record.find? name) new

variable {name : String} {edit : Option Json → Json → Prop} {old new : Json}

theorem FieldEdited.replaced {before : Members} (absent : name ∉ before.map Prod.fst)
    (edited : edit (some old) new) (after : Members) (positional : Bool) :
    FieldEdited name edit ⟨before ++ (name, old) :: after, positional⟩
      ⟨before ++ (name, new) :: after, positional⟩ where
  positional := rfl
  others other other_ne := by
    simp only [find?, Entries.find?_append_cons_of_ne other_ne]
  field := by
    refine ⟨new, Entries.find?_append_cons_self absent new after, ?_⟩
    simp only [find?, Entries.find?_append_cons_self absent]
    exact edited

theorem FieldEdited.added {before after : Members}
    (absent : name ∉ (before ++ after).map Prod.fst) (edited : edit none new) (positional : Bool) :
    FieldEdited name edit ⟨before ++ after, positional⟩
      ⟨before ++ (name, new) :: after, positional⟩ where
  positional := rfl
  others other other_ne := by
    simp only [find?, Entries.find?_append_cons_of_ne other_ne]
  field := by
    have absent_before : name ∉ before.map Prod.fst := fun member =>
      absent (by rw [List.map_append]; exact List.mem_append_left _ member)
    refine ⟨new, Entries.find?_append_cons_self absent_before new after, ?_⟩
    simp only [find?, (Entries.find?_eq_none_iff name _).mpr absent]
    exact edited

end Record

theorem record?_object_iff (names : List String) (members : Members) (record : Record) :
    record? names (.object members) = some record ↔
      ((members.filter fun member => names.contains member.1).map Prod.fst).Nodup ∧
        ⟨members.filter fun member => names.contains member.1, false⟩ = record := by
  rw [record?, ← allDistinct_iff, Option.ite_none_right_eq_some, Option.some.injEq]

theorem record?_array_iff (names : List String) (items : List Json) (record : Record) :
    record? names (.array items) = some record ↔
      items.length ≤ names.length ∧ ⟨names.zip items, true⟩ = record := by
  rw [record?, Option.ite_none_right_eq_some, Option.some.injEq]

/-- Of the members of an object a field of the record is kept. -/
theorem filter_listed {names : List String} {name : String} (listed : name ∈ names) (value : Json)
    (before after : Members) :
    ((before ++ (name, value) :: after).filter fun member => names.contains member.1) =
      (before.filter fun member => names.contains member.1) ++
        (name, value) :: after.filter fun member => names.contains member.1 := by
  rw [List.filter_append, List.filter_cons, if_pos (List.contains_iff_mem.mpr listed)]

/-- The names before that of a position go to the items before it. -/
theorem exists_zip_append {names : List String} {name : String} (distinct : names.Nodup)
    (before : List Json) (position : names[before.length]? = some name) :
    ∃ earlier : Members, ∃ later : List String, name ∉ earlier.map Prod.fst ∧
      ∀ rest, names.zip (before ++ rest) = earlier ++ (name :: later).zip rest := by
  have names_eq := take_append_cons_drop position
  refine ⟨(names.take before.length).zip before, names.drop (before.length + 1), ?_, ?_⟩
  · intro member
    obtain ⟨pair, pair_member, pair_name⟩ := List.mem_map.mp member
    have in_earlier : name ∈ names.take before.length :=
      pair_name ▸ (List.of_mem_zip pair_member).1
    rw [← names_eq] at distinct
    exact (List.nodup_append.mp distinct).2.2 name in_earlier name List.mem_cons_self rfl
  · intro rest
    have bound := (List.getElem?_eq_some_iff.mp position).1
    conv_lhs => rw [← names_eq]
    exact List.zip_append (List.length_take_of_le (Nat.le_of_lt bound))

/-- An edited field of a document is an edited field of the record that it is read as. -/
theorem FieldEdited.exists_record {names : List String} {name : String}
    {edit : Option Json → Json → Prop} {document edited : Json} {record : Record}
    (edits : FieldEdited names name edit document edited) (distinct : names.Nodup)
    (listed : name ∈ names) (fields : document.record? names = some record) :
    ∃ changed, edited.record? names = some changed ∧ record.FieldEdited name edit changed := by
  cases edits with
  | replaced before after edited =>
      rw [record?_object_iff, filter_listed listed] at fields
      obtain ⟨nodup, rfl⟩ := fields
      rw [List.map_append, List.map_cons] at nodup
      have absent := (List.nodup_cons.mp (List.nodup_middle.mp nodup)).1
      rw [List.mem_append, not_or] at absent
      refine ⟨_, ?_, .replaced absent.1 edited _ false⟩
      rw [record?_object_iff, filter_listed listed, List.map_append, List.map_cons]
      exact ⟨nodup, rfl⟩
  | added before after absent edited =>
      rw [record?_object_iff, List.filter_append] at fields
      obtain ⟨nodup, rfl⟩ := fields
      have absent_kept : name ∉ ((before.filter fun member => names.contains member.1) ++
          after.filter fun member => names.contains member.1).map Prod.fst := by
        rw [← List.filter_append]
        exact fun member => absent ((List.filter_sublist.map Prod.fst).subset member)
      refine ⟨_, ?_, .added absent_kept edited false⟩
      rw [List.map_append] at nodup absent_kept
      rw [record?_object_iff, filter_listed listed, List.map_append, List.map_cons]
      exact ⟨List.nodup_middle.mpr (List.nodup_cons.mpr ⟨absent_kept, nodup⟩), rfl⟩
  | replacedItem before after position edited =>
      obtain ⟨earlier, later, absent, zip_eq⟩ := exists_zip_append distinct before position
      rw [record?_array_iff, zip_eq, List.length_append, List.length_cons] at fields
      obtain ⟨bound, rfl⟩ := fields
      refine ⟨_, ?_, .replaced absent edited (later.zip after) true⟩
      rw [record?_array_iff, zip_eq, List.length_append, List.length_cons]
      exact ⟨bound, rfl⟩
  | addedItem items position edited =>
      obtain ⟨earlier, later, absent, zip_eq⟩ := exists_zip_append distinct items position
      have items_eq := zip_eq []
      rw [List.append_nil, List.zip_nil_right] at items_eq
      rw [record?_array_iff, items_eq] at fields
      obtain ⟨_, rfl⟩ := fields
      rw [← List.append_nil earlier] at absent
      refine ⟨_, ?_, .added absent edited true⟩
      rw [record?_array_iff, zip_eq, List.zip_cons_cons, List.zip_nil_right, List.length_append]
      exact ⟨(List.getElem?_eq_some_iff.mp position).1, rfl⟩

/-! ## Reading edited documents -/

/-- An edit of documents is carried over to what is read: the edited document is read as the value
of the original, changed. -/
def Carries {Value : Type} (read : Json → Option Value) (edit : Json → Json → Prop)
    (change : Value → Option Value) : Prop :=
  ∀ document edited value, edit document edited → read document = some value →
    ∃ changed, change value = some changed ∧ read edited = some changed

/-- An edit of a field is carried over to what one reader reads from the record and another one from
the edited record. -/
def Record.Carries {Value : Type} (name : String) (edit : Option Json → Json → Prop)
    (read after : Record → Option Value) (change : Value → Option Value) : Prop :=
  ∀ record edited value, FieldEdited name edit record edited → read record = some value →
    ∃ changed, change value = some changed ∧ after edited = some changed

/-- What is read from a record has nothing to do with one of the fields. -/
def Record.Ignores {Value : Type} (name : String) (read : Record → Option Value) : Prop :=
  ∀ record edited, AgreeApart name record edited → read edited = read record

namespace Record

variable {Value Whole : Type} {name other : String} {edit : Option Json → Json → Prop}

theorem nullable_of_ne_null {read : Json → Option Value} {document : Json}
    (document_ne : document ≠ .null) : nullable read document = (read document).map some := by
  cases document with
  | null => exact absurd rfl document_ne
  | _ => rfl

namespace Ignores

-- Field names are literals, so that two of them differ is decided where a field is read.
variable {read : Json → Option Value}

theorem required (other_ne : other ≠ name := by decide) : Ignores name (·.required read other) := by
  intro record edited agree
  simp only [Record.required, agree.others other other_ne]

theorem optional (other_ne : other ≠ name := by decide) : Ignores name (·.optional read other) := by
  intro record edited agree
  simp only [Record.optional, agree.others other other_ne, agree.positional]

theorem defaulted (other_ne : other ≠ name := by decide) {default : Value} :
    Ignores name (·.defaulted read default other) := by
  intro record edited agree
  simp only [Record.defaulted, agree.others other other_ne]

end Ignores

namespace Carries

/-- The last step of a reader: every field is read. -/
theorem done {change : Whole → Option Whole} {whole changed : Whole}
    (changes : change whole = some changed) :
    Carries name edit (fun _ => some whole) (fun _ => some changed) change := by
  rintro record edited value _ ⟨⟩
  exact ⟨changed, changes, rfl⟩

/-- A field is read that the edit does not concern. -/
theorem pass {field : Record → Option Value} {rest after : Record → Value → Option Whole}
    {change : Whole → Option Whole} (ignores : Ignores name field)
    (later : ∀ value, Carries name edit (rest · value) (after · value) change) :
    Carries name edit (fun record => field record >>= rest record)
      (fun record => field record >>= after record) change := by
  intro record edited whole edits reads
  obtain ⟨value, field_read, rest_read⟩ := Option.bind_eq_some_iff.mp reads
  obtain ⟨changed, changes, reads_after⟩ := later value record edited whole edits rest_read
  refine ⟨changed, changes, Option.bind_eq_some_iff.mpr ⟨value, ?_, reads_after⟩⟩
  rw [ignores record edited edits.toAgreeApart, field_read]

/-- The edited field is read. -/
theorem here {field : Record → Option Value} {rest : Record → Value → Option Whole}
    {inner : Value → Option Value} {change : Whole → Option Whole}
    (first : Carries name edit field field inner)
    (later : ∀ value changed, inner value = some changed →
      Carries name edit (rest · value) (rest · changed) change) :
    Carries name edit (fun record => field record >>= rest record)
      (fun record => field record >>= rest record) change := by
  intro record edited whole edits reads
  obtain ⟨value, field_read, rest_read⟩ := Option.bind_eq_some_iff.mp reads
  obtain ⟨new, inner_eq, new_read⟩ := first record edited value edits field_read
  obtain ⟨changed, changes, reads_after⟩ :=
    later value new inner_eq record edited whole edits rest_read
  exact ⟨changed, changes, Option.bind_eq_some_iff.mpr ⟨new, new_read, reads_after⟩⟩

variable {read : Json → Option Value} {inside : Json → Json → Prop}
  {change : Value → Option Value}

theorem defaulted (carries : Json.Carries read inside change) (default : Value) :
    Carries name (Inside inside) (·.defaulted read default name)
      (·.defaulted read default name) change := by
  rintro record edited value ⟨_, new, new_found, old, old_found, edits⟩ reads
  simp only [Record.defaulted, old_found] at reads
  obtain ⟨changed, changes, reads_after⟩ := carries old new value edits reads
  refine ⟨changed, changes, ?_⟩
  simp only [Record.defaulted, new_found, reads_after]

/-- A field that may be `null`, which is neither edited nor read. -/
theorem optional (no_null : read .null = none) (proper : ∀ new, ¬ inside .null new)
    (carries : Json.Carries read inside change) :
    Carries name (Inside inside) (·.optional read name) (·.optional read name)
      (fun value => (value.bind change).map some) := by
  rintro record edited value ⟨_, new, new_found, old, old_found, edits⟩ reads
  simp only [Record.optional, old_found] at reads
  have old_ne : old ≠ .null := by
    rintro rfl
    exact proper new edits
  rw [nullable_of_ne_null old_ne] at reads
  obtain ⟨inner, inner_read, rfl⟩ := Option.map_eq_some_iff.mp reads
  obtain ⟨changed, changes, reads_after⟩ := carries old new inner edits inner_read
  have new_ne : new ≠ .null := by
    rintro rfl
    rw [no_null] at reads_after
    cases reads_after
  refine ⟨some changed, congrArg (Option.map some) changes, ?_⟩
  simp only [Record.optional, new_found]
  rw [nullable_of_ne_null new_ne, reads_after, Option.map_some]

/-- A field with a default gets a value that can be read. -/
theorem put {document : Json} {given : Value} (reads_given : read document = some given)
    (default : Value) :
    Carries name (Put document) (·.defaulted read default name)
      (·.defaulted read default name) (fun _ => some given) := by
  rintro record edited value ⟨_, new, new_found, rfl⟩ _
  refine ⟨given, rfl, ?_⟩
  simp only [Record.defaulted, new_found, reads_given]

end Carries

end Record

variable {Value : Type}

/-- An edit of a list's item changes the item that is read. -/
theorem Carries.list {read : Json → Option Value} {edit : Json → Json → Prop}
    {change : Value → Option Value} (carries : Carries read edit change) (index : Nat) :
    Carries (list? read) (ItemEdited index edit) (changeItem? change index) := by
  rintro _ _ values ⟨before, after, position, edits⟩ reads
  rename_i old new
  rw [list?] at reads
  simp only [list?]
  induction before generalizing index values with
  | nil =>
      subst position
      rw [List.nil_append, List.mapM_cons] at reads
      obtain ⟨value, first_read, reads_rest⟩ := Option.bind_eq_some_iff.mp reads
      obtain ⟨rest, rest_read, ⟨⟩⟩ := Option.bind_eq_some_iff.mp reads_rest
      obtain ⟨changed, changes, reads_after⟩ := carries old new value edits first_read
      refine ⟨changed :: rest, ?_, ?_⟩
      · rw [List.length_nil, changeItem?_zero, changes, Option.map_some]
      · rw [List.nil_append, List.mapM_cons, reads_after, rest_read]
        rfl
  | cons item items ih =>
      subst position
      rw [List.cons_append, List.mapM_cons] at reads
      obtain ⟨value, first_read, reads_rest⟩ := Option.bind_eq_some_iff.mp reads
      obtain ⟨rest, rest_read, ⟨⟩⟩ := Option.bind_eq_some_iff.mp reads_rest
      obtain ⟨changed, changes, reads_after⟩ := ih items.length rest rfl rest_read
      refine ⟨value :: changed, ?_, ?_⟩
      · rw [List.length_cons, changeItem?_succ, changes, Option.map_some]
      · rw [List.cons_append, List.mapM_cons, first_read, reads_after]
        rfl

/-- An edit of a record's field changes the record that is read. -/
theorem Carries.record {names : List String} {name : String} {edit : Option Json → Json → Prop}
    {ofRecord : Record → Option Value} {change : Value → Option Value}
    (carries : Record.Carries name edit ofRecord ofRecord change)
    (distinct : names.Nodup := by decide) (listed : name ∈ names := by decide) :
    Carries (fun document => (document.record? names).bind ofRecord) (FieldEdited names name edit)
      change := by
  intro document edited value edits reads
  obtain ⟨record, fields, reads_record⟩ := Option.bind_eq_some_iff.mp reads
  obtain ⟨changed_record, changed_fields, record_edits⟩ :=
    edits.exists_record distinct listed fields
  obtain ⟨changed, changes, reads_after⟩ :=
    carries record changed_record value record_edits reads_record
  exact ⟨changed, changes,
    Option.bind_eq_some_iff.mpr ⟨changed_record, changed_fields, reads_after⟩⟩

end Json

end EntitySearch
