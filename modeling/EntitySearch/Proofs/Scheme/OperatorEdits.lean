import EntitySearch.Proofs.ChangedRows
import EntitySearch.Proofs.Json.Edits
import EntitySearch.Proofs.Scheme.ReadBack

/-!
# Edited operators

An operator in a settings document or in a list of filter rows may be anything. Whatever is put in
its place, the document is read as before up to this operator: the one that a known token names, or
none.
-/

namespace EntitySearch

open Json (Carries FieldEdited Inside ItemEdited Put)

/-! ## Operators -/

/-- Texts are plain values, and of no other document. -/
theorem Json.normalize?_eq_some_text_iff (document : Json) (text : String) :
    document.normalize? = some (.text text) ↔ document = .text text := by
  cases document <;> simp [normalize?]

namespace Operator

theorem mem_all (operator : Operator) : operator ∈ all := by
  cases operator with
  | state test => cases test <;> decide
  | compare comparison =>
      cases comparison with
      | relation order => cases order <;> decide
      | part placement negated => cases placement <;> cases negated <;> decide
  | among => decide

/-- A document names an operator exactly if it is the operator's token. -/
theorem ofDocument_eq_some_iff (document : Json) (operator : Operator) :
    ofDocument document = some operator ↔ document = .text operator.token := by
  constructor
  · intro named
    obtain ⟨token, text_eq, known⟩ := Option.bind_eq_some_iff.mp named
    cases document with
    | text value =>
        obtain rfl := Option.some.inj text_eq
        rw [token_of_ofToken? known]
    | _ => cases text_eq
  · rintro rfl
    exact ofToken?_token operator

end Operator

/-! ## Chains -/

namespace Chain

variable {Link : Type} {names : List String} {read : Json.Record → Option Link}

/-- Change the link at a depth of a chain, if there is one and it can be changed. -/
def changeLink? (change : Link → Option Link) : Nat → Chain Link → Option (Chain Link)
  | 0, ⟨[], target⟩ => (change target).map single
  | 0, ⟨link :: outer, target⟩ => (change link).map (behind · ⟨outer, target⟩)
  | _ + 1, ⟨[], _⟩ => none
  | depth + 1, ⟨link :: outer, target⟩ =>
      (changeLink? change depth ⟨outer, target⟩).map (behind link)

/-- What a change keeps of a link it keeps in the chain. -/
theorem map_changeLink? {Kept : Type} {keep : Link → Kept} {change : Link → Option Link}
    (keeps : ∀ link changed, change link = some changed → keep changed = keep link) {depth : Nat}
    {chain changed : Chain Link} (changes : changeLink? change depth chain = some changed) :
    changed.map keep = chain.map keep := by
  induction depth generalizing chain changed with
  | zero =>
      obtain ⟨_ | ⟨link, outer⟩, target⟩ := chain
      · obtain ⟨new, new_eq, rfl⟩ := Option.map_eq_some_iff.mp changes
        simp [single, map, keeps target new new_eq]
      · obtain ⟨new, new_eq, rfl⟩ := Option.map_eq_some_iff.mp changes
        simp [behind, map, keeps link new new_eq]
  | succ depth ih =>
      obtain ⟨_ | ⟨link, outer⟩, target⟩ := chain
      · cases changes
      · obtain ⟨rest, rest_eq, rfl⟩ := Option.map_eq_some_iff.mp changes
        have rest_kept := ih rest_eq
        simp only [map, Chain.mk.injEq] at rest_kept
        simp [behind, map, rest_kept]

theorem exists_of_ofDocument? {document : Json} {chain : Chain Link}
    (reads : ofDocument? names read document = some chain) :
    ∃ record link, document.record? names = some record ∧ read record = some link := by
  rw [ofDocument?] at reads
  split at reads
  · cases reads
  · rename_i record fields
    cases first : read record with
    | none => rw [first] at reads; cases reads
    | some link => exact ⟨record, link, fields, first⟩

/-- The chain ends with the link of the record. -/
def EndsAt (record : Json.Record) : Prop :=
  record.find? nextField = none ∧ record.positional = false ∨
    record.find? nextField = some .null

/-- A chain ends with its first link, or the chain behind this link is written in the link. -/
theorem ofDocument?_eq_some_iff {document : Json} {record : Json.Record} {link : Link}
    (fields : document.record? names = some record) (first : read record = some link)
    (chain : Chain Link) :
    ofDocument? names read document = some chain ↔
      EndsAt record ∧ chain = single link ∨
        ∃ next rest, record.find? nextField = some next ∧
          ofDocument? names read next = some rest ∧ chain = behind link rest := by
  rw [ofDocument?_eq fields first, EndsAt]
  cases found : record.find? nextField with
  | none => cases record.positional <;> simp [@eq_comm _ chain]
  | some next =>
      cases next with
      | null => simp [ofDocument?_null, @eq_comm _ chain]
      | _ => simp [@eq_comm _ chain]

/-- An edit of a field of the first link changes the first link. -/
theorem carries_root {name : String} {edit : Option Json → Json → Prop}
    {change : Link → Option Link} (distinct : names.Nodup) (listed : name ∈ names)
    (next_ne : nextField ≠ name) (carries : Json.Record.Carries name edit read read change) :
    Carries (ofDocument? names read) (FieldEdited names name edit) (changeLink? change 0) := by
  intro document edited chain edits reads
  obtain ⟨record, link, fields, first⟩ := exists_of_ofDocument? reads
  obtain ⟨new_record, new_fields, record_edits⟩ := edits.exists_record distinct listed fields
  obtain ⟨changed, changes, new_first⟩ := carries record new_record link record_edits first
  have same_next := record_edits.others nextField next_ne
  rcases (ofDocument?_eq_some_iff fields first chain).mp reads with
    ⟨ends, rfl⟩ | ⟨next, rest, found, reads_rest, rfl⟩
  · refine ⟨single changed, ?_, (ofDocument?_eq_some_iff new_fields new_first _).mpr (.inl ?_)⟩
    · rw [single, changeLink?, changes]
      rfl
    · rw [EndsAt, same_next, record_edits.positional]
      exact ⟨ends, rfl⟩
  · refine ⟨behind changed rest, ?_, (ofDocument?_eq_some_iff new_fields new_first _).mpr (.inr ?_)⟩
    · rw [behind, changeLink?, changes]
      rfl
    · rw [same_next]
      exact ⟨next, rest, found, reads_rest, rfl⟩

/-- An edit behind the first link changes the chain behind it. -/
theorem carries_behind {edit : Json → Json → Prop} {change : Link → Option Link} {depth : Nat}
    (distinct : names.Nodup) (listed : nextField ∈ names)
    (ignores : Json.Record.Ignores nextField read) (proper : ∀ new, ¬ edit .null new)
    (carries : Carries (ofDocument? names read) edit (changeLink? change depth)) :
    Carries (ofDocument? names read) (FieldEdited names nextField (Inside edit))
      (changeLink? change (depth + 1)) := by
  intro document edited chain edits reads
  obtain ⟨record, link, fields, first⟩ := exists_of_ofDocument? reads
  obtain ⟨new_record, new_fields, record_edits⟩ := edits.exists_record distinct listed fields
  obtain ⟨new, new_found, old, old_found, inner_edits⟩ := record_edits.field
  have new_first : read new_record = some link := by
    rw [ignores record new_record record_edits.toAgreeApart, first]
  rcases (ofDocument?_eq_some_iff fields first chain).mp reads with
    ⟨absent | null, rfl⟩ | ⟨next, rest, found, reads_rest, rfl⟩
  · rw [old_found] at absent
    cases absent.1
  · rw [old_found] at null
    obtain rfl := Option.some.inj null
    exact absurd inner_edits (proper new)
  · rw [old_found] at found
    obtain rfl := Option.some.inj found
    obtain ⟨changed, changes, reads_new⟩ := carries old new rest inner_edits reads_rest
    refine ⟨behind link changed, ?_, (ofDocument?_eq_some_iff new_fields new_first _).mpr ?_⟩
    · rw [behind, changeLink?, changes]
      rfl
    · exact .inr ⟨new, changed, new_found, reads_new, rfl⟩

end Chain

/-! ## Settings -/

namespace RowDefaults

/-- A value is put in the place of the operator of defaults. -/
def OperatorPut (value : Json) : Json → Json → Prop :=
  FieldEdited fieldNames "Condition" (Put value)

/-- The defaults with another operator. -/
def withOperator (condition : Option Operator) (defaults : RowDefaults) : RowDefaults :=
  { defaults with condition }

theorem carries_operator {value : Json} {condition : Option Operator}
    (named : Operator.read? value = some condition) :
    Carries ofDocument? (OperatorPut value) fun defaults =>
      some (defaults.withOperator condition) := by
  refine .record ?_
  refine .pass .optional fun cannotBeRemoved => ?_
  refine .here (Json.Record.Carries.put named .none) ?_
  rintro _ _ ⟨⟩
  refine .pass .optional fun orderedBy => ?_
  refine .pass .optional fun isDisabled => ?_
  refine .pass .optional fun isShowed => ?_
  refine .pass .optional fun values => ?_
  exact .done rfl

end RowDefaults

namespace FilterLink

/-- The link with another operator in its defaults, if it has defaults. -/
def withOperator? (condition : Option Operator) (link : FilterLink) : Option FilterLink :=
  link.default.map fun defaults =>
    { link with default := some (defaults.withOperator condition) }

theorem carries_operator {value : Json} {condition : Option Operator}
    (named : Operator.read? value = some condition) :
    Json.Record.Carries "Default" (Inside (RowDefaults.OperatorPut value)) ofRecord? ofRecord?
      (withOperator? condition) := by
  refine .pass .optional fun displayName => ?_
  refine .pass .optional fun attributeName => ?_
  refine .pass .optional fun fromAttribute => ?_
  refine .pass .optional fun toAttribute => ?_
  refine .pass .optional fun attributeType => ?_
  refine .pass .optional fun categoryDisplayName => ?_
  refine .pass .optional fun control => ?_
  refine .pass .optional fun entityName => ?_
  refine .here (.optional rfl (fun _ edits => edits.ne_null rfl)
    (RowDefaults.carries_operator named)) fun default changed changes => ?_
  refine .pass .optional fun selection => ?_
  refine .done ?_
  cases default with
  | none => cases changes
  | some defaults =>
      cases changes
      rfl

theorem ignores_next : Json.Record.Ignores Chain.nextField ofRecord? := by
  intro record edited agree
  have same {Value : Type} {read : Json → Option Value} {other : String}
      (other_ne : other ≠ Chain.nextField) :
      edited.optional read other = record.optional read other :=
    Json.Record.Ignores.optional other_ne record edited agree
  simp (disch := decide) only [ofRecord?, same]

end FilterLink

namespace FilterOption

/-- A value is put in the place of the operator in the defaults of the link at a depth. -/
def OperatorPut (value : Json) : Nat → Json → Json → Prop
  | 0 => FieldEdited FilterLink.fieldNames "Default" (Inside (RowDefaults.OperatorPut value))
  | depth + 1 =>
      FieldEdited FilterLink.fieldNames Chain.nextField (Inside (OperatorPut value depth))

/-- The option with another operator in the defaults of the link at a depth, if it has any. -/
def withOperator? (condition : Option Operator) (depth : Nat) (option : FilterOption) :
    Option FilterOption :=
  option.changeLink? (FilterLink.withOperator? condition) depth

theorem OperatorPut.ne_null {value : Json} {depth : Nat} {document edited : Json}
    (edits : OperatorPut value depth document edited) : document ≠ .null := by
  cases depth <;> exact FieldEdited.ne_null edits

theorem carries_operator {value : Json} {condition : Option Operator}
    (named : Operator.read? value = some condition) (depth : Nat) :
    Carries ofDocument? (OperatorPut value depth) (withOperator? condition depth) := by
  induction depth with
  | zero =>
      exact Chain.carries_root (by decide) (by decide) (by decide)
        (FilterLink.carries_operator named)
  | succ depth ih =>
      exact Chain.carries_behind (by decide) (by decide) FilterLink.ignores_next
        (fun _ edits => edits.ne_null rfl) ih

end FilterOption

namespace EntityScheme

/-- A value is put in the place of an operator in the defaults of an option. -/
def OperatorPut (value : Json) (option depth : Nat) : Json → Json → Prop :=
  FieldEdited fieldNames "FilterOptions"
    (Inside (ItemEdited option (FilterOption.OperatorPut value depth)))

/-- The entity with another operator in the defaults of an option, if it has any. -/
def withOperator? (condition : Option Operator) (option depth : Nat) (entity : EntityScheme) :
    Option EntityScheme :=
  (changeItem? (FilterOption.withOperator? condition depth) option entity.filterOptions).map
    fun filterOptions => { entity with filterOptions }

theorem carries_operator {value : Json} {condition : Option Operator}
    (named : Operator.read? value = some condition) (option depth : Nat) :
    Carries ofDocument? (OperatorPut value option depth)
      (withOperator? condition option depth) := by
  refine .record ?_
  refine .pass .required fun logicalName => ?_
  refine .here (.defaulted (.list (FilterOption.carries_operator named depth) option) [])
    fun options changed changes => ?_
  refine .pass .defaulted fun resultView => ?_
  exact .done (congrArg (Option.map _) changes)

end EntityScheme

namespace SearchScheme

/-- A value is put in the place of an operator in the defaults of an entity's option. -/
def OperatorPut (value : Json) (entity option depth : Nat) : Json → Json → Prop :=
  FieldEdited fieldNames "Entities"
    (Inside (ItemEdited entity (EntityScheme.OperatorPut value option depth)))

/-- The scheme with another operator in the defaults of an entity's option, if it has any. -/
def withOperator? (condition : Option Operator) (entity option depth : Nat)
    (scheme : SearchScheme) : Option SearchScheme :=
  (changeItem? (EntityScheme.withOperator? condition option depth) entity scheme.entities).map
    fun entities => { scheme with entities }

theorem carries_operator {value : Json} {condition : Option Operator}
    (named : Operator.read? value = some condition) (entity option depth : Nat) :
    Carries ofDocument? (OperatorPut value entity option depth)
      (withOperator? condition entity option depth) := by
  refine .record ?_
  refine .here (.defaulted (.list (EntityScheme.carries_operator named option depth) entity) [])
    fun entities changed changes => ?_
  refine .pass .defaulted fun operatorLabels => ?_
  exact .done (congrArg (Option.map _) changes)

end SearchScheme

namespace Settings

/-- A value is put in the place of an operator in the defaults of an entity's option. -/
def OperatorPut (value : Json) (entity option depth : Nat) : Json → Json → Prop :=
  FieldEdited fieldNames "SearchScheme"
    (Inside (SearchScheme.OperatorPut value entity option depth))

/-- The settings with another operator in the defaults of an entity's option, if it has any. -/
def withOperator? (condition : Option Operator) (entity option depth : Nat)
    (settings : Settings) : Option Settings :=
  (settings.scheme.bind (SearchScheme.withOperator? condition entity option depth)).map
    fun scheme => { settings with scheme := some scheme }

theorem carries_operator {value : Json} {condition : Option Operator}
    (named : Operator.read? value = some condition) (entity option depth : Nat) :
    Carries ofDocument? (OperatorPut value entity option depth)
      (withOperator? condition entity option depth) := by
  refine .record ?_
  refine .here (.optional rfl (fun _ edits => edits.ne_null rfl)
    (SearchScheme.carries_operator named entity option depth)) fun scheme changed changes => ?_
  refine .done ?_
  obtain ⟨new, new_eq, rfl⟩ := Option.map_eq_some_iff.mp changes
  exact congrArg (Option.map _) new_eq

end Settings

/-! ## Filter rows -/

namespace FilterRow

/-- A value is put in the place of the operator of a row. -/
def OperatorPut (value : Json) : Json → Json → Prop :=
  FieldEdited fieldNames "condition" (Put value)

/-- A value is put in the place of an operator in the defaults of a row's option. -/
def DefaultOperatorPut (value : Json) (depth : Nat) : Json → Json → Prop :=
  FieldEdited fieldNames "filterOption" (Inside (FilterOption.OperatorPut value depth))

/-- The row with another operator. -/
def withOperator (condition : Option Operator) (row : FilterRow) : FilterRow :=
  { row with condition }

/-- The row with another operator in the defaults of its option, if it has any. -/
def withDefaultOperator? (condition : Option Operator) (depth : Nat) (row : FilterRow) :
    Option FilterRow :=
  (row.option.bind (FilterOption.withOperator? condition depth)).map
    fun option => { row with option := some option }

theorem carries_operator {value : Json} {condition : Option Operator}
    (named : Operator.read? value = some condition) :
    Carries ofDocument? (OperatorPut value) fun row => some (row.withOperator condition) := by
  refine .record ?_
  refine .pass .optional fun option => ?_
  refine .here (.put named none) ?_
  rintro _ _ ⟨⟩
  refine .pass .defaulted fun values => ?_
  refine .pass .defaulted fun disabled => ?_
  exact .done rfl

theorem carries_defaultOperator {value : Json} {condition : Option Operator}
    (named : Operator.read? value = some condition) (depth : Nat) :
    Carries ofDocument? (DefaultOperatorPut value depth)
      (withDefaultOperator? condition depth) := by
  refine .record ?_
  refine .here (.optional Chain.ofDocument?_null (fun _ edits => edits.ne_null rfl)
    (FilterOption.carries_operator named depth)) fun option changed changes => ?_
  refine .pass .defaulted fun condition => ?_
  refine .pass .defaulted fun values => ?_
  refine .pass .defaulted fun disabled => ?_
  refine .done ?_
  obtain ⟨new, new_eq, rfl⟩ := Option.map_eq_some_iff.mp changes
  exact congrArg (Option.map _) new_eq

/-- The operators in defaults are for new rows, so no query reads them. -/
theorem compiled_withDefaultOperator? (zone : TimeZone) (entity : String)
    {condition : Option Operator} {depth : Nat} {row changed : FilterRow}
    (changes : row.withDefaultOperator? condition depth = some changed) :
    OData.expression? zone entity changed = OData.expression? zone entity row ∧
      FetchXml.placedCriterion? changed = FetchXml.placedCriterion? row := by
  obtain ⟨other, other_eq, rfl⟩ := Option.map_eq_some_iff.mp changes
  obtain ⟨option, option_eq, option_changes⟩ := Option.bind_eq_some_iff.mp other_eq
  have keeps {Kept : Type} (keep : FilterLink → Kept)
      (no_default : ∀ link default, keep { link with default } = keep link) :
      other.map keep = option.map keep := by
    refine Chain.map_changeLink? ?_ option_changes
    intro link changed_link link_changes
    obtain ⟨defaults, _, rfl⟩ := Option.map_eq_some_iff.mp link_changes
    exact no_default link _
  have same_links : other.joins = option.joins := keeps FilterLink.toLink fun _ _ => rfl
  have same_types := keeps FilterLink.attributeType fun _ _ => rfl
  have targets : other.target.toLink = option.target.toLink := congrArg Chain.target same_links
  have types : other.target.attributeType = option.target.attributeType :=
    congrArg Chain.target same_types
  have lengths : other.length = option.length := by
    have counted := congrArg Chain.length same_links
    simpa [FilterOption.joins, Chain.length, Chain.map] using counted
  constructor
  · exact OData.expression?_congr zone entity option_eq lengths targets types
  · refine FetchXml.placedCriterion?_congr option_eq ?_ types ?_
    · exact congrArg Link.attributeName targets
    · rw [FilterOption.joinPath?, FilterOption.joinPath?, same_links]

end FilterRow

/-! ## Documents -/

/-- Whatever value is put in the place of an operator, in settings or in a list of rows, the result
is read as before up to this operator: it is the one with the token that was put, or none. Operators
in defaults make no difference to the queries of rows. Another operator of a row makes none to the
other rows, and without an operator the row is left out. -/
theorem reads_edited_operators {value plain : Json} (settled : value.normalize? = some plain) :
    Operator.all.length = 18 ∧ (Operator.all.map Operator.token).Nodup ∧
      (∀ operator, operator ∈ Operator.all) ∧
      ∃ condition : Option Operator,
        (∀ operator, condition = some operator ↔ value = .text operator.token) ∧
        (∀ entity option depth, Carries Settings.ofDocument?
          (Settings.OperatorPut value entity option depth)
          (Settings.withOperator? condition entity option depth)) ∧
        (∀ index depth document edited rows,
          ItemEdited index (FilterRow.DefaultOperatorPut value depth) document edited →
          Json.list? FilterRow.ofDocument? document = some rows →
          ∃ row changed, rows[index]? = some row ∧
            row.withDefaultOperator? condition depth = some changed ∧
            Json.list? FilterRow.ofDocument? edited = some (rows.set index changed) ∧
            ∀ zone entity columns page,
              OData.Filter.ofRows zone entity (rows.set index changed) =
                  OData.Filter.ofRows zone entity rows ∧
                FetchXml.Query.ofRows entity (rows.set index changed) columns page =
                  FetchXml.Query.ofRows entity rows columns page) ∧
        ∀ index document edited rows,
          ItemEdited index (FilterRow.OperatorPut value) document edited →
          Json.list? FilterRow.ofDocument? document = some rows →
          ∃ row, rows[index]? = some row ∧
            Json.list? FilterRow.ofDocument? edited =
              some (rows.set index (row.withOperator condition)) ∧
            ∀ zone entity columns page,
              OthersStay zone entity columns page rows index row (row.withOperator condition) ∧
                (condition = none →
                  LeavesOut zone entity columns page
                    (rows.set index (row.withOperator condition)) index
                    (if row.option.isSome then .noOperator else .noOption)) := by
  have named : Operator.read? value = some (Operator.ofDocument plain) := by
    rw [Operator.read?, settled]
    rfl
  have token_put (operator : Operator) :
      Operator.ofDocument plain = some operator ↔ value = .text operator.token := by
    rw [Operator.ofDocument_eq_some_iff, ← Json.normalize?_eq_some_text_iff value, settled,
      Option.some.injEq]
  refine ⟨rfl, by decide, Operator.mem_all, Operator.ofDocument plain, token_put, ?_, ?_, ?_⟩
  · intro entity option depth
    exact Settings.carries_operator named entity option depth
  · intro index depth document edited rows edits reads
    obtain ⟨all_rows, changes, reads_edited⟩ :=
      (FilterRow.carries_defaultOperator named depth).list index document edited rows edits reads
    obtain ⟨row, changed, found, row_changes, rfl⟩ := changeItem?_eq_some_iff.mp changes
    refine ⟨row, changed, found, row_changes, reads_edited, ?_⟩
    intro zone entity columns page
    obtain ⟨same_expression, same_criterion⟩ :=
      FilterRow.compiled_withDefaultOperator? zone entity row_changes
    exact ofRows_set_eq zone entity columns page found same_expression same_criterion
  · intro index document edited rows edits reads
    obtain ⟨all_rows, changes, reads_edited⟩ :=
      (FilterRow.carries_operator named).list index document edited rows edits reads
    obtain ⟨row, changed, found, ⟨⟩, rfl⟩ := changeItem?_eq_some_iff.mp changes
    refine ⟨row, found, reads_edited, ?_⟩
    intro zone entity columns page
    refine ⟨othersStay zone entity columns page found _, ?_⟩
    intro unset
    have lacks_operator : (row.withOperator (Operator.ofDocument plain)).condition = none := unset
    exact leavesOut_of_condition_eq_none zone entity columns page found lacks_operator

/-- An unknown token in a row, and in the defaults of an option behind a join. -/
theorem reads_edited_operators_unknown :
    let value : Json := .text "EQ"
    let near : FilterLink := { FilterLink.none with fromAttribute := some "primarycontactid" }
    let far (condition : Option Operator) : FilterLink :=
      { FilterLink.ofAttribute "fullname" "String" with
        entityName := some "contact", toAttribute := some "contactid"
        default := some { RowDefaults.none with condition } }
    let option (condition : Option Operator) : FilterOption := ⟨[near], far condition⟩
    let settings (condition : Option Operator) : Settings :=
      ⟨some ⟨[⟨"account", [option condition], .empty⟩], .empty⟩⟩
    let eq : Operator := .compare (.relation .eq)
    let row := FilterRow.ofParts (option (some eq)) eq [.text "A"]
    let unset := row.withOperator none
    let edited_row := Json.object
      [("filterOption", (option (some eq)).document), ("condition", value),
        ("values", .array [.text "A"]), ("isDisabled", .boolean false)]
    value.normalize? = some value ∧
      (∃ edited, Settings.OperatorPut value 0 0 1 (settings (some eq)).document edited ∧
        Settings.ofDocument? edited = some (settings none)) ∧
      Json.list? FilterRow.ofDocument? (.array [row.document, edited_row]) = some [row, unset] ∧
      ⟨1, .noOperator⟩ ∈ (OData.Filter.ofRows .utc "account" [row, unset]).skipped := by
  intro value near far option settings eq row unset edited_row
  have option_storable : (option (some eq)).IsStorable := by
    intro link member
    rcases List.mem_pair.mp member with rfl | rfl
    · refine ⟨?_, ?_⟩ <;> rintro _ ⟨⟩
    · refine ⟨?_, ?_⟩ <;> rintro _ ⟨⟩
      refine ⟨?_, ?_⟩ <;> rintro _ ⟨⟩
  have settings_storable : (settings (some eq)).IsStorable := by
    intro entity member
    obtain rfl := List.mem_singleton.mp member
    refine ⟨?_, ?_⟩
    · intro other other_member
      obtain rfl := List.mem_singleton.mp other_member
      exact option_storable
    · rintro _ ⟨⟩
  have row_storable : row.IsStorable := by
    refine ⟨?_, ?_⟩
    · rintro _ ⟨⟩
      exact option_storable
    · intro given given_member
      obtain rfl := List.mem_singleton.mp given_member
      trivial
  obtain ⟨_, _, _, condition, token_put, settings_read, _, rows_read⟩ :=
    reads_edited_operators (show value.normalize? = some value from rfl)
  have unset_condition : condition = none := by
    refine Option.eq_none_iff_forall_ne_some.mpr fun operator operator_eq => ?_
    have value_eq := (token_put operator).mp operator_eq
    have known := Operator.ofToken?_token operator
    rw [← Json.text.inj value_eq] at known
    cases known
  subst unset_condition
  refine ⟨rfl, ?_, ?_⟩
  · have edits : ∃ edited, Settings.OperatorPut value 0 0 1 (settings (some eq)).document edited :=
      ⟨_, .replaced [] [] ⟨_, rfl, .replaced [] [("Localization", _)] ⟨_, rfl, .item [] [] rfl
        (.replaced [("LogicalName", _)] [("ResultView", _)] ⟨_, rfl, .item [] [] rfl
          (.replaced [("FromAttribute", _)] [] ⟨_, rfl, .replaced
            [("AttributeName", _), ("ToAttribute", _), ("AttributeType", _), ("EntityName", _)] []
            ⟨_, rfl, .replaced [] [] rfl⟩⟩)⟩)⟩⟩⟩
    obtain ⟨edited, edits⟩ := edits
    obtain ⟨read_back, _⟩ := Settings.readsBack settings_storable
    obtain ⟨changed, changes, reads_edited⟩ := settings_read 0 0 1 _ edited _ edits read_back
    obtain rfl := Option.some.inj changes
    exact ⟨edited, edits, reads_edited⟩
  · have edits : ItemEdited 1 (FilterRow.OperatorPut value) (.array [row.document, row.document])
        (.array [row.document, edited_row]) :=
      .item [row.document] [] rfl
        (.replaced [("filterOption", _)] [("values", _), ("isDisabled", _)] rfl)
    have rows_back : Json.ReadsBack (Json.list? FilterRow.ofDocument?)
        (.array ([row, row].map FilterRow.document)) [row, row] := by
      refine .list ?_
      intro given member
      rcases List.mem_pair.mp member with rfl | rfl
      · exact FilterRow.readsBack row_storable
      · exact FilterRow.readsBack row_storable
    obtain ⟨read_back, _⟩ := rows_back
    obtain ⟨other, found, reads_edited, compiled⟩ := rows_read 1 _ _ _ edits read_back
    obtain rfl : row = other := Option.some.inj found
    obtain ⟨_, left_out⟩ := compiled .utc "account" [] none
    have rows_eq : [row, row].set 1 (row.withOperator none) = [row, unset] := rfl
    have has_option : row.option.isSome = true := rfl
    have skipped := (left_out rfl).filter_skipped
    rw [if_pos has_option, rows_eq] at skipped
    exact ⟨reads_edited, skipped⟩

end EntitySearch
