import EntitySearch.FilterRow
import EntitySearch.Proofs.Json.Records
import EntitySearch.Scheme.Settings

/-!
# Reading settings and rows back

Settings and filter rows are read back from the documents that are written of them, as long as a
document can hold their numbers.
-/

namespace EntitySearch

/-! ## Values -/

namespace Json

namespace ReadsBack

theorem text (value : String) : ReadsBack text? (.text value) value :=
  .of_plain rfl rfl

theorem boolean (value : Bool) : ReadsBack boolean? (.boolean value) value :=
  .of_plain rfl rfl

theorem texts (values : List String) :
    ReadsBack (list? text?) (.array (values.map .text)) values :=
  .list fun value _ => text value

theorem double {value : Double} (finite : value.isFinite = true) :
    ReadsBack double? (.ofDouble value) value := by
  cases value with
  | finite value => exact .of_plain rfl rfl
  | nan => cases finite
  | infinite negative => cases finite

theorem integer {least greatest value : Int} (within : least ≤ value ∧ value ≤ greatest) :
    ReadsBack (integer? least greatest) (.number (.integer value)) value := by
  refine .of_plain rfl ?_
  simp [integer?, within]

theorem natural {bound value : Nat} (below : value < bound) :
    ReadsBack (natural? bound) (.ofNat value) value := by
  refine .of_plain rfl ?_
  have within : (value : Int) ≤ bound - 1 := by omega
  simp [natural?, integer?, ofNat, within]

/-- A map of texts is read back. -/
theorem dictionary (texts : Dictionary String) :
    ReadsBack (dictionary? text?)
      (.object (texts.entries.map fun entry => (entry.1, .text entry.2))) texts := by
  have plain_members (entries : List (String × String)) :
      normalizeMembers? (entries.map fun entry => (entry.1, .text entry.2)) =
        some (entries.map fun entry => (entry.1, .text entry.2)) := by
    induction entries with
    | nil => rfl
    | cons entry rest ih => rw [List.map_cons, normalizeMembers?, normalize?, ih]
  have sorted : Entries.Sorted (texts.entries.map fun entry => (entry.1, Json.text entry.2)) :=
    List.pairwise_map.mpr texts.sorted
  refine .of_plain ?_ ?_
  · rw [normalize?, plain_members, Option.map_some, sorted.ofList_eq]
  · have read : (texts.entries.map fun entry => (entry.1, Json.text entry.2)).mapM
        (fun member => (text? member.2).map fun value => (member.1, value)) =
          some texts.entries :=
      mapM_map_eq_some fun entry _ => rfl
    rw [dictionary?, read, Option.map_some, Dictionary.ofList]
    simp only [texts.sorted.ofList_eq]

end ReadsBack

end Json

/-- A document can hold the value: a number is finite. -/
def FilterValue.IsStorable : FilterValue → Prop
  | number value => value.isFinite = true
  | text _ => True

theorem FilterValue.readsBack {value : FilterValue} (storable : value.IsStorable) :
    Json.ReadsBack ofDocument? value.document value := by
  cases value with
  | text value => exact .of_plain rfl rfl
  | number value =>
      cases value with
      | finite value => exact .of_plain rfl rfl
      | nan => cases storable
      | infinite negative => cases storable

theorem FilterValue.readsBack_list {values : List FilterValue}
    (storable : ∀ value ∈ values, value.IsStorable) :
    Json.ReadsBack (Json.list? ofDocument?) (.array (values.map document)) values :=
  .list fun value member => readsBack (storable value member)

theorem Operator.readsBack (operator : Operator) :
    Json.ReadsBack read? operator.document (some operator) := by
  refine .of_plain rfl ?_
  show some ((Operator.ofToken? operator.token)) = _
  rw [ofToken?_token]

/-! ## Chains -/

namespace Chain

variable {Link : Type} {names : List String} {read : Json.Record → Option Link}

theorem ofDocument?_null : ofDocument? names read .null = none := by
  rw [ofDocument?]
  rfl

/-- Once its first link is read, a chain ends there or goes on with the next document. -/
theorem ofDocument?_eq {form : Json} {record : Json.Record} {link : Link}
    (fields : form.record? names = some record) (first : read record = some link) :
    ofDocument? names read form =
      match record.find? nextField with
      | none => if record.positional then none else some (single link)
      | some .null => some (single link)
      | some next => (ofDocument? names read next).map (behind link) := by
  rw [ofDocument?]
  split
  · rename_i unread
    rw [unread] at fields
    cases fields
  · rename_i other record_eq
    rw [record_eq] at fields
    obtain rfl := Option.some.inj fields
    rw [first]
    dsimp only
    split
    · rename_i absent
      rw [absent]
    · rename_i null
      rw [null]
    · rename_i next next_ne found
      rw [found]
      cases next with
      | null => exact absurd rfl next_ne
      | _ => rfl

section Written

variable {slots : Link → List (String × Option Json)} {write : Link → Json.Members}
  {link : Link} (write_eq : write link = Json.written (slots link))
  (names_eq : (slots link).map Prod.fst ++ [nextField] = names) (distinct : names.Nodup)
  (fields : Json.FieldsRead (slots link) read link)
include write_eq names_eq distinct fields

/-- The forms of a link's document give its fields and a form of the next link. -/
theorem exists_record (next : Option Json)
    (settled : ∀ document ∈ next, ∃ plain, document.normalize? = some plain) :
    (∃ plain, (Json.object (write link ++ Json.written [(nextField, next)])).normalize? =
        some plain) ∧
      ∀ form, Json.IsForm (.object (write link ++ Json.written [(nextField, next)])) form →
        ∃ record, form.record? names = some record ∧ read record = some link ∧
          record.positional = false ∧ Option.Rel Json.IsForm next (record.find? nextField) := by
  have all_names : (slots link ++ [(nextField, next)]).map Prod.fst = names := by
    rw [List.map_append, ← names_eq]
    rfl
  have all_settled : ∀ slot ∈ slots link ++ [(nextField, next)],
      ∀ document ∈ slot.2, ∃ plain, document.normalize? = some plain := by
    intro slot member
    rcases List.mem_append.mp member with own | last
    · exact fields.settled slot own
    · obtain rfl := List.mem_singleton.mp last
      exact settled
  have all_distinct := distinct
  rw [← all_names] at all_distinct
  obtain ⟨settles, shown⟩ := Json.exists_shows all_distinct all_settled
  rw [write_eq, ← Json.written_append]
  refine ⟨settles, ?_⟩
  intro form is_form
  obtain ⟨record, record_eq, shows⟩ := shown form is_form
  rw [all_names] at record_eq
  exact ⟨record, record_eq, fields.reads record (shows.mono (List.subset_append_left _ _)),
    shows.named, shows.found (nextField, next) (List.mem_append_right _ List.mem_cons_self)⟩

theorem readsBack_single :
    Json.ReadsBack (ofDocument? names read) (.object (write link)) (single link) := by
  obtain ⟨settles, shown⟩ := exists_record write_eq names_eq distinct fields none nofun
  rw [show Json.written [(nextField, none)] = [] from rfl, List.append_nil] at settles shown
  refine .of_forms settles ?_
  intro form is_form
  obtain ⟨record, record_eq, first, named, next_form⟩ := shown form is_form
  rw [ofDocument?_eq record_eq first]
  cases found : record.find? nextField with
  | none => simp only [named, Bool.false_eq_true, if_false]
  | some next => rw [found] at next_form; cases next_form

theorem readsBack_behind {next : Json} {rest : Chain Link}
    (back : Json.ReadsBack (ofDocument? names read) next rest) :
    Json.ReadsBack (ofDocument? names read) (.object (write link ++ [(nextField, next)]))
      (behind link rest) := by
  have settled : ∀ document ∈ some next, ∃ plain, document.normalize? = some plain := by
    intro document member
    obtain rfl := Option.some.inj member
    exact back.settles
  obtain ⟨settles, shown⟩ := exists_record write_eq names_eq distinct fields (some next) settled
  refine .of_forms settles ?_
  intro form is_form
  obtain ⟨record, record_eq, first, _, next_form⟩ := shown form is_form
  cases found : record.find? nextField with
  | none => rw [found] at next_form; cases next_form
  | some given =>
      rw [found, Option.rel_some_some] at next_form
      have reads := back.reads next_form
      rw [ofDocument?_eq record_eq first, found]
      cases given with
      | null =>
          -- `null` would end the chain here, but no chain is read from it.
          rw [ofDocument?_null] at reads
          cases reads
      | _ =>
          dsimp only
          rw [reads]
          rfl

end Written

/-- A chain is read back if the fields of each of its links are. -/
theorem readsBack {slots : Link → List (String × Option Json)} {write : Link → Json.Members}
    {chain : Chain Link} (write_eq : ∀ link, write link = Json.written (slots link))
    (names_eq : ∀ link, (slots link).map Prod.fst ++ [nextField] = names)
    (distinct : names.Nodup)
    (fields : ∀ link ∈ chain.links, Json.FieldsRead (slots link) read link) :
    Json.ReadsBack (ofDocument? names read) (chain.document write) chain := by
  obtain ⟨outer, target⟩ := chain
  -- Each link's document holds that of the links behind it.
  induction outer with
  | nil =>
      exact readsBack_single (write_eq target) (names_eq target) distinct
        (fields target List.mem_cons_self)
  | cons link rest ih =>
      have later := ih fun other member => fields other (List.mem_cons_of_mem link member)
      exact readsBack_behind (write_eq link) (names_eq link) distinct
        (fields link List.mem_cons_self) later

end Chain

/-! ## Filter options -/

namespace RowDefaults

/-- A document can hold the numbers of the defaults. -/
structure IsStorable (defaults : RowDefaults) : Prop where
  orderedBy : ∀ position ∈ defaults.orderedBy,
    Int32.minValue.toInt ≤ position ∧ position ≤ Int32.maxValue.toInt
  values : ∀ values ∈ defaults.values, ∀ value ∈ values, value.IsStorable

/-- The fields of the defaults with what is written under them. -/
def slots (defaults : RowDefaults) : List (String × Option Json) :=
  [("CannotBeRemoved", defaults.cannotBeRemoved.map .boolean),
    ("Condition", defaults.condition.map Operator.document),
    ("OrderedBy", defaults.orderedBy.map fun position => .number (.integer position)),
    ("IsDisabled", defaults.isDisabled.map .boolean),
    ("IsShowed", defaults.isShowed.map .boolean),
    ("Values", defaults.values.map fun values => .array (values.map FilterValue.document))]

theorem document_eq (defaults : RowDefaults) :
    defaults.document = .object (Json.written defaults.slots) := by
  simp [document, slots]

/-- An operator that is left out stands for none. -/
theorem fieldsRead_condition (condition : Option Operator) :
    Json.FieldsRead [("Condition", condition.map Operator.document)]
      (·.defaulted Operator.read? .none "Condition") condition := by
  cases condition with
  | none =>
      refine .absent ?_
      intro record _ absent
      rw [Json.Record.defaulted, absent]
  | some operator => exact .defaulted operator.readsBack .none

theorem readsBack {defaults : RowDefaults} (storable : defaults.IsStorable) :
    Json.ReadsBack ofDocument? defaults.document defaults := by
  rw [document_eq]
  exact .record rfl (by decide) <|
    .cons (.optional rfl fun value _ => .boolean value) <|
    .cons (fieldsRead_condition defaults.condition) <|
    .cons (.optional rfl fun position given => .integer (storable.orderedBy position given)) <|
    .cons (.optional rfl fun value _ => .boolean value) <|
    .cons (.optional rfl fun value _ => .boolean value) <|
    .cons (.optional rfl fun values given =>
      FilterValue.readsBack_list (storable.values values given)) <|
    .nil defaults

end RowDefaults

namespace Selection

/-- A document can hold the numbers of the selection. -/
structure IsStorable (selection : Selection) : Prop where
  maxItems : ∀ most ∈ selection.maxItems, most < wordBound
  minItems : ∀ fewest ∈ selection.minItems, fewest < wordBound

/-- The fields of the selection with what is written under them. -/
def slots (selection : Selection) : List (String × Option Json) :=
  [("MaxItems", selection.maxItems.map Json.ofNat),
    ("MinItems", selection.minItems.map Json.ofNat),
    ("Multiple", selection.multiple.map .boolean),
    ("RelatedEntityAttributeNames", selection.relatedNames.map fun names =>
      .array (names.map .text)),
    ("RelatedEntityAttributeFormat", selection.relatedFormat.map .text)]

theorem document_eq (selection : Selection) :
    selection.document = .object (Json.written selection.slots) := by
  simp [document, slots]

theorem readsBack {selection : Selection} (storable : selection.IsStorable) :
    Json.ReadsBack ofDocument? selection.document selection := by
  rw [document_eq]
  exact .record rfl (by decide) <|
    .cons (.optional rfl fun most given => .natural (storable.maxItems most given)) <|
    .cons (.optional rfl fun fewest given => .natural (storable.minItems fewest given)) <|
    .cons (.optional rfl fun value _ => .boolean value) <|
    .cons (.optional rfl fun names _ => .texts names) <|
    .cons (.optional rfl fun format _ => .text format) <|
    .nil selection

end Selection

namespace FilterLink

/-- A document can hold the numbers of the link. -/
structure IsStorable (link : FilterLink) : Prop where
  default : ∀ defaults ∈ link.default, defaults.IsStorable
  selection : ∀ selection ∈ link.selection, selection.IsStorable

/-- The fields of the link with what is written under them. -/
def slots (link : FilterLink) : List (String × Option Json) :=
  [("DisplayName", link.displayName.map .text),
    ("AttributeName", link.attributeName.map .text),
    ("FromAttribute", link.fromAttribute.map .text),
    ("ToAttribute", link.toAttribute.map .text),
    ("AttributeType", link.attributeType.map .text),
    ("CategoryDisplayName", link.categoryDisplayName.map .text),
    ("Control", link.control.map .text),
    ("EntityName", link.entityName.map .text),
    ("Default", link.default.map RowDefaults.document),
    ("Selection", link.selection.map Selection.document)]

theorem members_eq (link : FilterLink) : link.members = Json.written link.slots := by
  simp [members, slots]

theorem fieldsRead {link : FilterLink} (storable : link.IsStorable) :
    Json.FieldsRead link.slots ofRecord? link :=
  .cons (.optional rfl fun name _ => .text name) <|
  .cons (.optional rfl fun name _ => .text name) <|
  .cons (.optional rfl fun name _ => .text name) <|
  .cons (.optional rfl fun name _ => .text name) <|
  .cons (.optional rfl fun type _ => .text type) <|
  .cons (.optional rfl fun name _ => .text name) <|
  .cons (.optional rfl fun control _ => .text control) <|
  .cons (.optional rfl fun name _ => .text name) <|
  .cons (.optional rfl fun defaults given =>
    RowDefaults.readsBack (storable.default defaults given)) <|
  .cons (.optional rfl fun selection given =>
    Selection.readsBack (storable.selection selection given)) <|
  .nil link

end FilterLink

namespace FilterOption

/-- A document can hold the numbers of the option. -/
def IsStorable (option : FilterOption) : Prop :=
  ∀ link ∈ option.links, link.IsStorable

theorem readsBack {option : FilterOption} (storable : option.IsStorable) :
    Json.ReadsBack ofDocument? option.document option :=
  Chain.readsBack FilterLink.members_eq (fun _ => rfl) (by decide) fun link member =>
    FilterLink.fieldsRead (storable link member)

end FilterOption

/-! ## Table columns -/

namespace ColumnLink

/-- The fields of the link with what is written under them. -/
def slots (link : ColumnLink) : List (String × Option Json) :=
  [("DisplayName", link.displayName.map .text),
    ("AttributeName", link.attributeName.map .text),
    ("AttributeNames", link.attributeNames.map fun names => .array (names.map .text)),
    ("AttributesFormat", link.attributesFormat.map .text),
    ("EntityName", link.entityName.map .text),
    ("FromAttribute", link.fromAttribute.map .text),
    ("ToAttribute", link.toAttribute.map .text)]

theorem members_eq (link : ColumnLink) : link.members = Json.written link.slots := by
  simp [members, slots]

theorem fieldsRead (link : ColumnLink) : Json.FieldsRead link.slots ofRecord? link :=
  .cons (.optional rfl fun name _ => .text name) <|
  .cons (.optional rfl fun name _ => .text name) <|
  .cons (.optional rfl fun names _ => .texts names) <|
  .cons (.optional rfl fun format _ => .text format) <|
  .cons (.optional rfl fun name _ => .text name) <|
  .cons (.optional rfl fun name _ => .text name) <|
  .cons (.optional rfl fun name _ => .text name) <|
  .nil link

end ColumnLink

theorem TableColumn.readsBack (column : TableColumn) :
    Json.ReadsBack ofDocument? column.document column :=
  Chain.readsBack ColumnLink.members_eq (fun _ => rfl) (by decide) fun link _ => link.fieldsRead

/-! ## Settings -/

namespace PagingScheme

/-- A document can hold the page sizes: they are finite. -/
def IsStorable (paging : PagingScheme) : Prop :=
  ∀ sizes ∈ paging.sizes, ∀ size ∈ sizes, size.isFinite = true

/-- The fields of the paging with what is written under them. -/
def slots (paging : PagingScheme) : List (String × Option Json) :=
  [("List", paging.sizes.map fun sizes => .array (sizes.map Json.ofDouble)),
    ("ListItemAll", paging.allLabel.map .text),
    ("DisplaySummary", paging.summary.map .text)]

theorem document_eq (paging : PagingScheme) :
    paging.document = .object (Json.written paging.slots) := by
  simp [document, slots]

theorem readsBack {paging : PagingScheme} (storable : paging.IsStorable) :
    Json.ReadsBack ofDocument? paging.document paging := by
  rw [document_eq]
  exact .record rfl (by decide) <|
    .cons (.optional rfl fun sizes given =>
      .list fun size member => .double (storable sizes given size member)) <|
    .cons (.optional rfl fun label _ => .text label) <|
    .cons (.optional rfl fun summary _ => .text summary) <|
    .nil paging

end PagingScheme

namespace ResultView

/-- A document can hold the numbers of the view. -/
def IsStorable (view : ResultView) : Prop :=
  ∀ paging ∈ view.paging, paging.IsStorable

/-- The fields of the view with what is written under them. -/
def slots (view : ResultView) : List (String × Option Json) :=
  [("TableColumns", some (.array (view.columns.map TableColumn.document))),
    ("Pagination", view.paging.map PagingScheme.document)]

theorem document_eq (view : ResultView) :
    view.document = .object (Json.written view.slots) := by
  simp [document, slots]

theorem readsBack {view : ResultView} (storable : view.IsStorable) :
    Json.ReadsBack ofDocument? view.document view := by
  rw [document_eq]
  exact .record rfl (by decide) <|
    .cons (.defaulted (.list fun column _ => column.readsBack) []) <|
    .cons (.optional rfl fun paging given => PagingScheme.readsBack (storable paging given)) <|
    .nil view

end ResultView

namespace EntityScheme

/-- A document can hold the numbers of the scheme. -/
structure IsStorable (entity : EntityScheme) : Prop where
  filterOptions : ∀ option ∈ entity.filterOptions, option.IsStorable
  resultView : entity.resultView.IsStorable

/-- The fields of the scheme with what is written under them. -/
def slots (entity : EntityScheme) : List (String × Option Json) :=
  [("LogicalName", some (.text entity.logicalName)),
    ("FilterOptions", some (.array (entity.filterOptions.map FilterOption.document))),
    ("ResultView", some entity.resultView.document)]

theorem document_eq (entity : EntityScheme) :
    entity.document = .object (Json.written entity.slots) := rfl

theorem readsBack {entity : EntityScheme} (storable : entity.IsStorable) :
    Json.ReadsBack ofDocument? entity.document entity := by
  rw [document_eq]
  exact .record rfl (by decide) <|
    .cons (.required (.text entity.logicalName)) <|
    .cons (.defaulted (.list fun option member =>
      FilterOption.readsBack (storable.filterOptions option member)) []) <|
    .cons (.defaulted (ResultView.readsBack storable.resultView) .empty) <|
    .nil entity

end EntityScheme

namespace SearchScheme

theorem readsBack_labels (labels : Dictionary String) :
    Json.ReadsBack labelsOfDocument? (.object [("CrmFilterConditions", labelsDocument labels)])
      labels := by
  have names_eq : [("CrmFilterConditions", some (labelsDocument labels))].map Prod.fst =
      ["CrmFilterConditions"] := rfl
  exact .record names_eq (by decide) (.defaulted (.dictionary labels) .empty)

/-- The fields of the scheme with what is written under them. -/
def slots (scheme : SearchScheme) : List (String × Option Json) :=
  [("Entities", some (.array (scheme.entities.map EntityScheme.document))),
    ("Localization",
      some (.object [("CrmFilterConditions", labelsDocument scheme.operatorLabels)]))]

theorem document_eq (scheme : SearchScheme) :
    scheme.document = .object (Json.written scheme.slots) := rfl

theorem readsBack {scheme : SearchScheme}
    (storable : ∀ entity ∈ scheme.entities, entity.IsStorable) :
    Json.ReadsBack ofDocument? scheme.document scheme := by
  rw [document_eq]
  exact .record rfl (by decide) <|
    .cons (.defaulted (.list fun entity member =>
      EntityScheme.readsBack (storable entity member)) []) <|
    .cons (.defaulted (readsBack_labels scheme.operatorLabels) .empty) <|
    .nil scheme

end SearchScheme

namespace Settings

/-- A document can hold the numbers of the settings: doubles are finite, whole numbers are within
the bounds of their fields. -/
def IsStorable (settings : Settings) : Prop :=
  ∀ entity ∈ settings.entities, entity.IsStorable

theorem document_eq (settings : Settings) :
    settings.document =
      .object (Json.written [("SearchScheme", settings.scheme.map SearchScheme.document)]) := by
  simp [document]

theorem readsBack {settings : Settings} (storable : settings.IsStorable) :
    Json.ReadsBack ofDocument? settings.document settings := by
  rw [document_eq]
  exact .record rfl (by decide) <|
    .cons (.optional rfl fun scheme given => SearchScheme.readsBack <| by
      rwa [IsStorable, entities, given] at storable) <|
    .nil settings

end Settings

/-! ## Filter rows -/

namespace FilterRow

/-- A document can hold the numbers of the row. -/
structure IsStorable (row : FilterRow) : Prop where
  option : ∀ option ∈ row.option, option.IsStorable
  values : ∀ value ∈ row.values, value.IsStorable

/-- A missing operator is written as `null`, which names none. -/
theorem readsBack_condition (condition : Option Operator) :
    Json.ReadsBack Operator.read? (Json.ofOption Operator.document condition) condition := by
  cases condition with
  | none => exact .of_plain rfl rfl
  | some operator => exact operator.readsBack

/-- The fields of the row with what is written under them. -/
def slots (row : FilterRow) : List (String × Option Json) :=
  [("filterOption", some (Json.ofOption FilterOption.document row.option)),
    ("condition", some (Json.ofOption Operator.document row.condition)),
    ("values", some (.array (row.values.map FilterValue.document))),
    ("isDisabled", some (.boolean row.disabled))]

theorem document_eq (row : FilterRow) : row.document = .object (Json.written row.slots) := rfl

theorem readsBack {row : FilterRow} (storable : row.IsStorable) :
    Json.ReadsBack ofDocument? row.document row := by
  rw [document_eq]
  exact .record rfl (by decide) <|
    .cons (.optional_ofOption Chain.ofDocument?_null fun option given =>
      FilterOption.readsBack (storable.option option given)) <|
    .cons (.defaulted (readsBack_condition row.condition) none) <|
    .cons (.defaulted (FilterValue.readsBack_list storable.values) []) <|
    .cons (.defaulted (.boolean row.disabled) false) <|
    .nil row

end FilterRow

/-- Settings and lists of filter rows are read back from their documents. -/
theorem readsBack_documents :
    (∀ settings : Settings, settings.IsStorable →
        Json.ReadsBack Settings.ofDocument? settings.document settings) ∧
      ∀ rows : List FilterRow, (∀ row ∈ rows, row.IsStorable) →
        Json.ReadsBack (Json.list? FilterRow.ofDocument?) (.array (rows.map FilterRow.document))
          rows := by
  constructor
  · intro settings storable
    exact settings.readsBack storable
  · intro rows storable
    refine .list ?_
    intro row member
    exact row.readsBack (storable row member)

/-- An option behind a join, with defaults and limits for it, in the settings and in a row. -/
theorem readsBack_documents_related :
    let near : FilterLink := { FilterLink.none with fromAttribute := some "primarycontactid" }
    let far : FilterLink :=
      { FilterLink.ofAttribute "gendercode" "Picklist" with
        entityName := some "contact", toAttribute := some "contactid"
        default := some
          { RowDefaults.none with
            condition := some .among, orderedBy := some 2, values := some [.number .one, .text "x"] }
        selection := some { Selection.none with maxItems := some 5, multiple := some true } }
    let option : FilterOption := ⟨[near], far⟩
    let paging : PagingScheme := ⟨some [.one], some "All", none⟩
    let view : ResultView := ⟨[.single (.ofAttribute "name")], some paging⟩
    let settings : Settings :=
      ⟨some ⟨[⟨"account", [option], view⟩], .ofList [("ne", "is not"), ("eq", "is")]⟩⟩
    let rows : List FilterRow := [.ofParts option .among [.number .one], ⟨none, none, [], true⟩]
    (settings.IsStorable ∧ ∀ row ∈ rows, row.IsStorable) ∧
      Settings.ofDocument? settings.document = some settings ∧
      (Json.array (rows.map FilterRow.document)).normalize?.bind
        (Json.list? FilterRow.ofDocument?) = some rows := by
  intro near far option paging view settings rows
  have option_storable : option.IsStorable := by
    intro link member
    rcases List.mem_pair.mp member with rfl | rfl
    · refine ⟨?_, ?_⟩
      · rintro _ ⟨⟩
      · rintro _ ⟨⟩
    · refine ⟨?_, ?_⟩
      · rintro _ ⟨⟩
        refine ⟨?_, ?_⟩
        · rintro _ ⟨⟩
          decide
        · rintro _ ⟨⟩ value value_member
          rcases List.mem_pair.mp value_member with rfl | rfl
          · rfl
          · trivial
      · rintro _ ⟨⟩
        refine ⟨?_, nofun⟩
        rintro _ ⟨⟩
        decide
  have settings_storable : settings.IsStorable := by
    intro entity member
    obtain rfl := List.mem_singleton.mp member
    refine ⟨?_, ?_⟩
    · intro other other_member
      obtain rfl := List.mem_singleton.mp other_member
      exact option_storable
    · rintro _ ⟨⟩ _ ⟨⟩ size size_member
      obtain rfl := List.mem_singleton.mp size_member
      rfl
  have rows_storable : ∀ row ∈ rows, row.IsStorable := by
    intro row member
    rcases List.mem_pair.mp member with rfl | rfl
    · refine ⟨?_, ?_⟩
      · rintro _ ⟨⟩
        exact option_storable
      · intro value value_member
        obtain rfl := List.mem_singleton.mp value_member
        rfl
    · refine ⟨?_, ?_⟩
      · rintro _ ⟨⟩
      · rintro _ ⟨⟩
  obtain ⟨settings_back, rows_back⟩ := readsBack_documents
  obtain ⟨as_written, _⟩ := settings_back settings settings_storable
  obtain ⟨_, plain, settled, as_plain⟩ := rows_back rows rows_storable
  refine ⟨⟨settings_storable, rows_storable⟩, as_written, ?_⟩
  rw [settled]
  exact as_plain

end EntitySearch
