import EntitySearch.Json.Record
import EntitySearch.Proofs.Text.Splitting
import Mathlib.Data.List.Nodup

/-!
# Records in written documents

A written document and its plain value differ in the order of members only. A reader of records
looks members up by name, so what it reads back from one it reads back from the other.
-/

namespace EntitySearch

namespace Entries

variable {Value : Type}

theorem find?_eq_none_iff (name : String) (entries : List (String × Value)) :
    find? name entries = none ↔ name ∉ entries.map Prod.fst := by
  induction entries with
  | nil => simp [find?]
  | cons entry rest ih =>
      rw [find?, List.map_cons, List.mem_cons, not_or]
      split
      · rename_i same
        simp [same]
      · rename_i other
        rw [ih]
        exact ⟨fun later => ⟨fun same => other same.symm, later⟩, And.right⟩

/-- Entries that are kept by their names are found as before under names that are kept. -/
theorem find?_filter {name : String} {keep : String → Bool} (kept : keep name = true)
    (entries : List (String × Value)) :
    find? name (entries.filter fun entry => keep entry.1) = find? name entries := by
  induction entries with
  | nil => rfl
  | cons entry rest ih =>
      by_cases here : keep entry.1 = true
      · rw [List.filter_cons, if_pos here, find?, find?, ih]
      · have other : entry.1 ≠ name := fun same => here (same ▸ kept)
        rw [List.filter_cons, if_neg here, ih, find?, if_neg other]

/-- Of entries with different names it makes no difference in which order they are put. -/
theorem find?_ofList {entries : List (String × Value)} (distinct : (entries.map Prod.fst).Nodup)
    (name : String) : find? name (ofList entries) = find? name entries := by
  have step (sorted : List (String × Value)) :
      find? name (entries.foldl (fun sorted entry => insert entry.1 entry.2 sorted) sorted) =
        (find? name entries).or (find? name sorted) := by
    induction entries generalizing sorted with
    | nil => rfl
    | cons entry rest ih =>
        obtain ⟨new, distinct_rest⟩ := List.nodup_cons.mp distinct
        rw [List.foldl_cons, ih distinct_rest, find?]
        by_cases here : entry.1 = name
        · subst here
          rw [(find?_eq_none_iff entry.1 rest).mpr new, find?_insert_self, if_pos rfl]
          rfl
        · rw [find?_insert_of_ne (Ne.symm here), if_neg here]
  rw [ofList, step []]
  exact Option.or_none

theorem Sorted.nodup {entries : List (String × Value)} (sorted : Sorted entries) :
    (entries.map Prod.fst).Nodup := by
  rw [List.Nodup, List.pairwise_map]
  refine sorted.imp ?_
  intro left right before same
  rw [same] at before
  exact String.lt_irrefl _ before

/-- An entry with the last name of all comes last. -/
theorem insert_of_forall_lt {name : String} {entries : List (String × Value)}
    (last : ∀ entry ∈ entries, entry.1 < name) (value : Value) :
    insert name value entries = entries ++ [(name, value)] := by
  induction entries with
  | nil => rfl
  | cons first rest ih =>
      have before := last first List.mem_cons_self
      rw [insert, if_neg fun after => String.lt_irrefl _ (String.lt_trans before after),
        if_neg fun same => String.lt_irrefl _ (same ▸ before),
        ih fun entry member => last entry (List.mem_cons_of_mem first member), List.cons_append]

/-- Entries in the order of their names stay as they are. -/
theorem Sorted.ofList_eq {entries : List (String × Value)} (sorted : Sorted entries) :
    ofList entries = entries := by
  have step (put : List (String × Value)) (in_order : Sorted (put ++ entries)) :
      entries.foldl (fun sorted entry => Entries.insert entry.1 entry.2 sorted) put =
        put ++ entries := by
    clear sorted
    induction entries generalizing put with
    | nil => exact (List.append_nil put).symm
    | cons entry rest ih =>
        obtain ⟨_, _, before⟩ := List.pairwise_append.mp in_order
        have last : ∀ other ∈ put, other.1 < entry.1 := fun other member =>
          before other member entry List.mem_cons_self
        rw [List.foldl_cons, insert_of_forall_lt last, ih, List.append_assoc, List.singleton_append]
        rwa [List.append_assoc, List.singleton_append]
  exact step [] sorted

end Entries

namespace Json

/-! ## Forms of a document -/

/-- The document as it was written, or its plain value. -/
def IsForm (document form : Json) : Prop :=
  form = document ∨ document.normalize? = some form

/-- Reading gives a value back, from the document as it was written and from its plain value. -/
def ReadsBack {Value : Type} (read : Json → Option Value) (document : Json) (value : Value) :
    Prop :=
  read document = some value ∧
    ∃ plain, document.normalize? = some plain ∧ read plain = some value

namespace ReadsBack

variable {Value : Type} {read : Json → Option Value} {document : Json} {value : Value}

theorem of_forms (settles : ∃ plain, document.normalize? = some plain)
    (reads : ∀ form, IsForm document form → read form = some value) :
    ReadsBack read document value := by
  obtain ⟨plain, settled⟩ := settles
  exact ⟨reads document (.inl rfl), plain, settled, reads plain (.inr settled)⟩

theorem settles (back : ReadsBack read document value) :
    ∃ plain, document.normalize? = some plain := by
  obtain ⟨_, plain, settled, _⟩ := back
  exact ⟨plain, settled⟩

theorem reads (back : ReadsBack read document value) {form : Json} (is_form : IsForm document form) :
    read form = some value := by
  obtain ⟨as_written, plain, settled, as_plain⟩ := back
  rcases is_form with rfl | also_settled
  · exact as_written
  · rw [settled] at also_settled
    rwa [← Option.some.inj also_settled]

/-- A document that is plain already. -/
theorem of_plain (plain : document.normalize? = some document)
    (as_written : read document = some value) : ReadsBack read document value :=
  ⟨as_written, document, plain, as_written⟩

/-- A list is read back if each of its items is. -/
theorem list {write : Value → Json} {values : List Value}
    (each : ∀ value ∈ values, ReadsBack read (write value) value) :
    ReadsBack (list? read) (.array (values.map write)) values := by
  have items : ∃ plains, normalizeItems? (values.map write) = some plains ∧
      plains.mapM read = some values := by
    induction values with
    | nil => exact ⟨[], rfl, rfl⟩
    | cons value rest ih =>
        obtain ⟨_, plain, settled, as_plain⟩ := each value List.mem_cons_self
        obtain ⟨plains, settled_rest, as_plain_rest⟩ :=
          ih fun other member => each other (List.mem_cons_of_mem value member)
        refine ⟨plain :: plains, ?_, ?_⟩
        · rw [List.map_cons, normalizeItems?, settled, settled_rest]
        · rw [List.mapM_cons, as_plain, as_plain_rest]
          rfl
  obtain ⟨plains, settled, as_plain⟩ := items
  refine ⟨mapM_map_eq_some fun value member => (each value member).1, .array plains, ?_, as_plain⟩
  rw [normalize?, settled]
  rfl

end ReadsBack

/-! ## Records -/

theorem allDistinct_iff (names : List String) : allDistinct names = true ↔ names.Nodup := by
  induction names with
  | nil => simp [allDistinct]
  | cons name rest ih => simp [allDistinct, ih]

theorem record?_object {members : Members} (distinct : (members.map Prod.fst).Nodup)
    (names : List String) :
    record? names (.object members) =
      some ⟨members.filter fun member => names.contains member.1, false⟩ := by
  have fields_distinct :
      ((members.filter fun member => names.contains member.1).map Prod.fst).Nodup :=
    distinct.sublist (List.filter_sublist.map Prod.fst)
  simp only [record?, (allDistinct_iff _).mpr fields_distinct, if_true]

/-- Members that all have plain values have them under the same names. -/
theorem exists_normalizeMembers? {members : Members}
    (settled : ∀ member ∈ members, ∃ plain, member.2.normalize? = some plain) :
    ∃ plains, normalizeMembers? members = some plains ∧
      plains.map Prod.fst = members.map Prod.fst ∧
      ∀ name, Option.Rel IsForm (Entries.find? name members) (Entries.find? name plains) := by
  induction members with
  | nil => exact ⟨[], rfl, rfl, fun _ => .none⟩
  | cons member rest ih =>
      obtain ⟨plain, settled_first⟩ := settled member List.mem_cons_self
      obtain ⟨plains, settled_rest, names_eq, found⟩ :=
        ih fun other later => settled other (List.mem_cons_of_mem member later)
      refine ⟨(member.1, plain) :: plains, ?_, ?_, ?_⟩
      · rw [normalizeMembers?, settled_first, settled_rest]
      · rw [List.map_cons, List.map_cons, names_eq]
      · intro name
        rw [Entries.find?, Entries.find?]
        split
        · exact .some (.inr settled_first)
        · exact found name

/-- The members of a record, given by name with what is written under it, if anything. -/
def written (slots : List (String × Option Json)) : Members :=
  slots.flatMap fun slot => slot.2.toList.map (slot.1, ·)

@[simp]
theorem written_nil : written [] = [] := rfl

@[simp]
theorem written_cons_some (name : String) (document : Json)
    (slots : List (String × Option Json)) :
    written ((name, some document) :: slots) = (name, document) :: written slots := rfl

@[simp]
theorem written_cons_map {Value : Type} (name : String) (write : Value → Json)
    (value : Option Value) (slots : List (String × Option Json)) :
    written ((name, value.map write) :: slots) = member name write value ++ written slots := by
  cases value <;> rfl

theorem written_append (slots others : List (String × Option Json)) :
    written (slots ++ others) = written slots ++ written others :=
  List.flatMap_append

theorem names_written_sublist (slots : List (String × Option Json)) :
    ((written slots).map Prod.fst).Sublist (slots.map Prod.fst) := by
  induction slots with
  | nil => exact .slnil
  | cons slot rest ih =>
      obtain ⟨name, _ | document⟩ := slot
      · exact ih.cons name
      · exact ih.cons_cons name

/-- What is written under a name is found under it. -/
theorem find?_written {slots : List (String × Option Json)}
    (distinct : (slots.map Prod.fst).Nodup) {slot : String × Option Json} (member : slot ∈ slots) :
    Entries.find? slot.1 (written slots) = slot.2 := by
  induction slots with
  | nil => cases member
  | cons first rest ih =>
      obtain ⟨new, distinct_rest⟩ := List.nodup_cons.mp distinct
      rcases List.mem_cons.mp member with rfl | later
      · obtain ⟨name, _ | document⟩ := slot
        · exact (Entries.find?_eq_none_iff _ _).mpr fun found =>
            new ((names_written_sublist rest).subset found)
        · rw [written_cons_some, Entries.find?, if_pos rfl]
      · have other : first.1 ≠ slot.1 := fun same =>
          new (same ▸ List.mem_map_of_mem (f := Prod.fst) later)
        obtain ⟨name, _ | document⟩ := first
        · exact ih distinct_rest later
        · rw [written_cons_some, Entries.find?, if_neg other]
          exact ih distinct_rest later

/-- The record gives, by name, forms of what is written. -/
structure Record.Shows (record : Record) (slots : List (String × Option Json)) : Prop where
  /-- The fields are told apart by their names. -/
  named : record.positional = false
  found : ∀ slot ∈ slots, Option.Rel IsForm slot.2 (record.find? slot.1)

theorem Record.Shows.mono {record : Record} {slots others : List (String × Option Json)}
    (shows : record.Shows others) (subset : slots ⊆ others) : record.Shows slots :=
  ⟨shows.named, fun slot member => shows.found slot (subset member)⟩

/-- What is written has plain values, and a record of any forms of it is read as a value. -/
structure FieldsRead {Value : Type} (slots : List (String × Option Json))
    (read : Record → Option Value) (value : Value) : Prop where
  settled : ∀ slot ∈ slots, ∀ document ∈ slot.2, ∃ plain, document.normalize? = some plain
  reads : ∀ record : Record, record.Shows slots → read record = some value

namespace FieldsRead

variable {Value Whole : Type} {name : String} {read : Json → Option Value} {write : Value → Json}

theorem nil (whole : Whole) : FieldsRead [] (fun _ => some whole) whole :=
  ⟨nofun, fun _ _ => rfl⟩

/-- Fields are read one after the other. -/
theorem cons {slot : String × Option Json} {slots : List (String × Option Json)}
    {field : Record → Option Value} {value : Value} {rest : Record → Value → Option Whole}
    {whole : Whole} (first : FieldsRead [slot] field value)
    (others : FieldsRead slots (rest · value) whole) :
    FieldsRead (slot :: slots) (fun record => field record >>= rest record) whole := by
  refine ⟨?_, ?_⟩
  · intro other member
    rcases List.mem_cons.mp member with rfl | later
    · exact first.settled other List.mem_cons_self
    · exact others.settled other later
  · intro record shows
    have shows_first := shows.mono (List.cons_subset_cons slot (List.nil_subset slots))
    have shows_others := shows.mono (List.subset_cons_self slot slots)
    rw [first.reads record shows_first]
    exact others.reads record shows_others

/-- A field with a document, read in any form of it. -/
theorem single {document : Json} {field : Record → Option Whole} {whole : Whole}
    (settles : ∃ plain, document.normalize? = some plain)
    (reads : ∀ (record : Record) (form : Json), IsForm document form →
      record.find? name = some form → field record = some whole) :
    FieldsRead [(name, some document)] field whole := by
  refine ⟨?_, ?_⟩
  · rintro slot slot_member document document_member
    obtain rfl := List.mem_singleton.mp slot_member
    obtain rfl := Option.some.inj document_member
    exact settles
  · rintro record ⟨_, found⟩
    have shown := found _ List.mem_cons_self
    cases found_form : record.find? name with
    | none => rw [found_form] at shown; cases shown
    | some form =>
        rw [found_form, Option.rel_some_some] at shown
        exact reads record form shown found_form

/-- A field under which nothing is written. -/
theorem absent {field : Record → Option Whole} {whole : Whole}
    (reads : ∀ record : Record, record.positional = false → record.find? name = none →
      field record = some whole) : FieldsRead [(name, none)] field whole := by
  refine ⟨?_, ?_⟩
  · rintro slot slot_member document document_member
    obtain rfl := List.mem_singleton.mp slot_member
    cases document_member
  · rintro record ⟨named, found⟩
    have shown := found _ List.mem_cons_self
    cases found_form : record.find? name with
    | none => exact reads record named found_form
    | some form => rw [found_form] at shown; cases shown

theorem required {document : Json} {value : Value} (back : ReadsBack read document value) :
    FieldsRead [(name, some document)] (·.required read name) value := by
  refine .single back.settles ?_
  intro record form is_form found
  rw [Record.required, found]
  exact back.reads is_form

theorem defaulted {document : Json} {value : Value} (back : ReadsBack read document value)
    (default : Value) :
    FieldsRead [(name, some document)] (·.defaulted read default name) value := by
  refine .single back.settles ?_
  intro record form is_form found
  rw [Record.defaulted, found]
  exact back.reads is_form

/-- Forms of what is not read from `null` are not `null`. -/
theorem nullable_form {document form : Json} {value : Value} (no_null : read .null = none)
    (back : ReadsBack read document value) (is_form : IsForm document form) :
    Record.nullable read form = some (some value) := by
  have reads := back.reads is_form
  have form_ne : form ≠ .null := by
    rintro rfl
    rw [no_null] at reads
    cases reads
  rw [Record.nullable, reads]
  · rfl
  · exact form_ne

/-- A field that is left out if it has no value. -/
theorem optional {value : Option Value} (no_null : read .null = none)
    (back : ∀ given ∈ value, ReadsBack read (write given) given) :
    FieldsRead [(name, value.map write)] (·.optional read name) value := by
  cases value with
  | none =>
      refine .absent ?_
      intro record named found
      simp only [Record.optional, found, named, Bool.false_eq_true, if_false]
  | some given =>
      have given_back := back given rfl
      refine .single given_back.settles ?_
      intro record form is_form found
      simp only [Record.optional, found]
      exact nullable_form no_null given_back is_form

/-- A field that is `null` if it has no value. -/
theorem optional_ofOption {value : Option Value} (no_null : read .null = none)
    (back : ∀ given ∈ value, ReadsBack read (write given) given) :
    FieldsRead [(name, some (ofOption write value))] (·.optional read name) value := by
  cases value with
  | none =>
      refine .single ⟨.null, rfl⟩ ?_
      rintro record form (rfl | same) found
      · simp only [Record.optional, found]
        rfl
      · obtain rfl := Option.some.inj same
        simp only [Record.optional, found]
        rfl
  | some given =>
      have given_back := back given rfl
      refine .single given_back.settles ?_
      intro record form is_form found
      simp only [Record.optional, found]
      exact nullable_form no_null given_back is_form

end FieldsRead

/-- The forms of an object are records that show what is written in it. -/
theorem exists_shows {slots : List (String × Option Json)} (distinct : (slots.map Prod.fst).Nodup)
    (settled : ∀ slot ∈ slots, ∀ document ∈ slot.2, ∃ plain, document.normalize? = some plain) :
    (∃ plain, (object (written slots)).normalize? = some plain) ∧
      ∀ form, IsForm (.object (written slots)) form →
        ∃ record, form.record? (slots.map Prod.fst) = some record ∧ record.Shows slots := by
  have settled_members : ∀ member ∈ written slots,
      ∃ plain, member.2.normalize? = some plain := by
    intro member written_member
    obtain ⟨slot, slot_member, from_slot⟩ := List.mem_flatMap.mp written_member
    obtain ⟨document, document_member, rfl⟩ := List.mem_map.mp from_slot
    exact settled slot slot_member document (Option.mem_toList.mp document_member)
  have distinct_members := distinct.sublist (names_written_sublist slots)
  obtain ⟨plains, plains_eq, names_eq, found⟩ := exists_normalizeMembers? settled_members
  have plain_eq : (object (written slots)).normalize? = some (.object (Entries.ofList plains)) := by
    rw [normalize?, plains_eq]
    rfl
  have listed {slot : String × Option Json} (member : slot ∈ slots) :
      (slots.map Prod.fst).contains slot.1 = true :=
    List.contains_iff_mem.mpr (List.mem_map_of_mem member)
  refine ⟨⟨_, plain_eq⟩, ?_⟩
  rintro form (rfl | plain)
  · refine ⟨_, record?_object distinct_members _, rfl, ?_⟩
    intro slot member
    rw [Record.find?, Entries.find?_filter (listed member), find?_written distinct member]
    cases slot.2 with
    | none => exact .none
    | some document => exact .some (.inl rfl)
  · -- The members are sorted now, which does not change what is found under a name.
    rw [plain_eq] at plain
    obtain rfl := Option.some.inj plain
    refine ⟨_, record?_object (Entries.sorted_ofList plains).nodup _, rfl, ?_⟩
    intro slot member
    rw [Record.find?, Entries.find?_filter (listed member),
      Entries.find?_ofList (names_eq ▸ distinct_members), ← find?_written distinct member]
    exact found slot.1

/-- A record is read back if its fields are. -/
theorem ReadsBack.record {Value : Type} {names : List String}
    {slots : List (String × Option Json)} {ofRecord : Record → Option Value} {value : Value}
    (names_eq : slots.map Prod.fst = names) (distinct : names.Nodup)
    (fields : FieldsRead slots ofRecord value) :
    ReadsBack (fun document => (document.record? names).bind ofRecord) (.object (written slots))
      value := by
  subst names_eq
  obtain ⟨settles, shown⟩ := exists_shows distinct fields.settled
  refine .of_forms settles ?_
  intro form is_form
  obtain ⟨record, record_eq, shows⟩ := shown form is_form
  rw [record_eq, Option.bind_some]
  exact fields.reads record shows

end Json

end EntitySearch
