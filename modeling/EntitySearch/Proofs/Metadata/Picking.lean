import EntitySearch.Metadata.Picker
import EntitySearch.Proofs.Metadata.Sessions
import EntitySearch.Proofs.Repetition

/-!
# Picking a referenced record

A picker for a reference asks for the entities that it may lead to, for the set of the first one's
records, and for these records. Which requests are made, what comes of them, and which attributes
are selected is described here apart from the picker, in terms of the answers.
-/

namespace EntitySearch

/-- The request asks for records. -/
def Request.isRecords : Request → Bool
  | records _ _ _ => true
  | entities _ | attributes _ _ | lookup _ _ | picklist _ _ => false

/-- What a response lists: its own items, or those of the list under its member `value`. Any other
response lists nothing. -/
inductive Lists : Json → List Json → Prop
  | items (items : List Json) : Lists (.array items) items
  | value {members : Json.Members} {items : List Json}
      (found : Entries.find? "value" members = some (.array items)) : Lists (.object members) items
  | nothing {response : Json} (no_list : ∀ items, response ≠ .array items)
      (no_value : ∀ members items, response = .object members →
        Entries.find? "value" members ≠ some (.array items)) : Lists response []

theorem exists_lists (response : Json) :
    ∃ items, Lists response items ∧ Row.ofResponse response = Row.ofItems items := by
  cases response with
  | array items => exact ⟨items, .items items, rfl⟩
  | object members =>
      rw [Row.ofResponse]
      split
      · rename_i items found
        exact ⟨items, .value found, rfl⟩
      · rename_i unlisted
        refine ⟨[], .nothing (by simp) ?_, rfl⟩
        rintro _ items ⟨⟩
        exact unlisted items
  | null | boolean | number | text | unreadable => exact ⟨[], .nothing (by simp) (by simp), rfl⟩

namespace ValueOption

/-- The options offered for the items of a response: one for each object with an identifier, in the
order of the items. -/
inductive Offers (idName : String) (names : List String) (format : Option String) :
    List Json → List ValueOption → Prop
  | nil : Offers idName names format [] []
  | identified {row : Row} {id : Json} {items : List Json} {options : List ValueOption}
      (id_eq : row.value? idName = some id) (present : id ≠ .null)
      (others : Offers idName names format items options) :
      Offers idName names format (.object row :: items)
        (⟨.text (Row.valueText (some id)),
          recordLabel row names format (Row.valueText (some id))⟩ :: options)
  | unidentified {row : Row} {items : List Json} {options : List ValueOption}
      (missing : ∀ id, row.value? idName = some id → id = .null)
      (others : Offers idName names format items options) :
      Offers idName names format (.object row :: items) options
  | passedOver {item : Json} {items : List Json} {options : List ValueOption}
      (no_row : ∀ row, item ≠ .object row) (others : Offers idName names format items options) :
      Offers idName names format (item :: items) options

section Records

variable {idName : String} {row : Row} (names : List String) (format : Option String)

theorem ofRecord?_of_identified {id : Json} (id_eq : row.value? idName = some id)
    (present : id ≠ .null) :
    ofRecord? idName names format row =
      some ⟨.text (Row.valueText (some id)),
        recordLabel row names format (Row.valueText (some id))⟩ := by
  rw [ofRecord?, id_eq]
  cases id with
  | null => exact absurd rfl present
  | boolean | number | text | array | object | unreadable => rfl

theorem ofRecord?_of_unidentified (missing : ∀ id, row.value? idName = some id → id = .null) :
    ofRecord? idName names format row = none := by
  rw [ofRecord?]
  cases id_eq : row.value? idName with
  | none => rfl
  | some id =>
      obtain rfl := missing id id_eq
      rfl

end Records

theorem offers_ofItems (idName : String) (names : List String) (format : Option String)
    (items : List Json) :
    Offers idName names format items
      ((Row.ofItems items).filterMap (ofRecord? idName names format)) := by
  induction items with
  | nil => exact .nil
  | cons item rest ih =>
      cases item with
      | object row =>
          have items_eq : Row.ofItems (.object row :: rest) = row :: Row.ofItems rest := rfl
          rw [items_eq]
          by_cases identified : ∃ id, Row.value? row idName = some id ∧ id ≠ .null
          · obtain ⟨id, id_eq, present⟩ := identified
            rw [List.filterMap_cons_some (ofRecord?_of_identified names format id_eq present)]
            exact .identified id_eq present ih
          · have missing : ∀ id, Row.value? row idName = some id → id = .null := by
              intro id id_eq
              by_contra present
              exact identified ⟨id, id_eq, present⟩
            rw [List.filterMap_cons_none (ofRecord?_of_unidentified names format missing)]
            exact .unidentified missing ih
      | null | boolean | number | text | array | unreadable => exact .passedOver (by simp) ih

/-! ## Selected attributes -/

/-- A select serves records that are identified by one attribute and labelled by others. -/
structure Selects (idName : String) (names select : List String) : Prop where
  distinct : select.Nodup
  first : select.head? = some idName
  mem_iff : ∀ key, key ∈ select ↔ key = idName ∨ key ∈ names
  /-- What is not selected matters neither to the value of an option nor to its label. -/
  enough : ∀ (format : Option String) (row other : Row),
    (∀ key ∈ select, row.value? key = other.value? key) →
      ofRecord? idName names format row = ofRecord? idName names format other

theorem recordLabel_congr {names : List String} {row other : Row}
    (same : ∀ name ∈ names, row.value? name = other.value? name) (format : Option String)
    (fallback : String) :
    recordLabel row names format fallback = recordLabel other names format fallback := by
  have values_same : names.map (fun name => Text.trim (Row.valueText (row.value? name))) =
      names.map fun name => Text.trim (Row.valueText (other.value? name)) :=
    List.map_congr_left fun name member => by rw [same name member]
  simp only [recordLabel, values_same]

theorem selects_ofList (idName : String) (names : List String) :
    Selects idName names (Gathered.ofList (idName :: names)) := by
  have mem_iff (key : String) :
      key ∈ Gathered.ofList (idName :: names) ↔ key = idName ∨ key ∈ names := by
    rw [Gathered.mem_ofList_iff, List.mem_cons]
  refine
    { mem_iff
      distinct := Gathered.nodup_ofList _
      first := by rw [Gathered.ofList_eq_eraseDups, List.eraseDups_cons, List.head?_cons]
      enough := fun format row other same => ?_ }
  have id_same := same idName ((mem_iff idName).mpr (.inl rfl))
  have label_same := recordLabel_congr
    (fun name member => same name ((mem_iff name).mpr (.inr member))) format
  rw [ofRecord?, ofRecord?, id_same]
  simp only [label_same]

/-! ## The course of the requests -/

variable {State : Type}

/-- The attributes that label the records of a link's picker. -/
def labelNames (target : FilterLink) : List String :=
  (target.selection.getD .none).relatedNames.getD []

/-- The link names an attribute of an entity. -/
structure Names (target : FilterLink) (entity name : String) : Prop where
  entity_eq : Text.nonBlank? target.entityName = some entity
  name_eq : Text.nonBlank? target.attributeName = some name

/-- The answer about an attribute is that it leads to an entity before all others. -/
def LeadsTo (repository : Repository State) (state : State) (entity name first : String)
    (later : State) : Prop :=
  ∃ others, repository.lookup entity name state = (.ok ⟨first :: others⟩, later)

/-- The answer about an entity is that its records are a set of some name. -/
def HasSet (repository : Repository State) (state : State) (entity set : String) (later : State) :
    Prop :=
  ∃ entities, repository.entities [entity] state = (.ok entities, later) ∧
    entities.head?.bind Metadata.Entity.collectionName? = some set

/-- The ways in which a picker for a reference comes by its options or fails to: the requests made
from a state on, what comes of them, and the state that is left. -/
inductive Course (repository : Repository State) (target : FilterLink) (state : State) :
    List Request → Except SearchError (List ValueOption) → State → Prop
  | unnamed (missing : ∀ entity name, ¬ Names target entity name) :
      Course repository target state [] (.ok []) state
  | lookupFails {entity name : String} {error : SearchError} {last : State}
      (names : Names target entity name)
      (failure : repository.lookup entity name state = (.error error, last)) :
      Course repository target state [.lookup entity name] (.error error) last
  /-- The reference leads to no entity. -/
  | untargeted {entity name : String} {last : State} (names : Names target entity name)
      (no_target : repository.lookup entity name state = (.ok ⟨[]⟩, last)) :
      Course repository target state [.lookup entity name] (.ok []) last
  | entitiesFail {entity name first : String} {error : SearchError} {middle last : State}
      (names : Names target entity name)
      (leads : LeadsTo repository state entity name first middle)
      (failure : repository.entities [first] middle = (.error error, last)) :
      Course repository target state [.lookup entity name, .entities [first]] (.error error) last
  /-- The entity is unknown, or the set of its records has no name. -/
  | nameless {entity name first : String} {entities : List Metadata.Entity} {middle last : State}
      (names : Names target entity name)
      (leads : LeadsTo repository state entity name first middle)
      (described : repository.entities [first] middle = (.ok entities, last))
      (no_set : entities.head?.bind Metadata.Entity.collectionName? = none) :
      Course repository target state [.lookup entity name, .entities [first]] (.ok []) last
  | recordsFail {entity name first set : String} {select : List String} {error : SearchError}
      {middle later last : State} (names : Names target entity name)
      (leads : LeadsTo repository state entity name first middle)
      (has_set : HasSet repository middle first set later)
      (selects : Selects (first ++ "id") (labelNames target) select)
      (failure : repository.records set select .all later = (.error error, last)) :
      Course repository target state
        [.lookup entity name, .entities [first], .records set select .all] (.error error) last
  | offered {entity name first set : String} {select : List String} {response : Json}
      {items : List Json} {options : List ValueOption} {middle later last : State}
      (names : Names target entity name)
      (leads : LeadsTo repository state entity name first middle)
      (has_set : HasSet repository middle first set later)
      (selects : Selects (first ++ "id") (labelNames target) select)
      (answer : repository.records set select .all later = (.ok response, last))
      (lists : Lists response items)
      (offers : Offers (first ++ "id") (labelNames target)
        (target.selection.getD .none).relatedFormat items options) :
      Course repository target state
        [.lookup entity name, .entities [first], .records set select .all] (.ok options) last

/-- A run for a link that names an attribute of an entity takes one of the courses. -/
theorem exists_course_ofLookup (repository : Repository State) {target : FilterLink}
    {entity name : String} (names : Names target entity name) (state : State) :
    ∃ requests outcome last, ofLookup repository target entity name state = (outcome, last) ∧
      Course repository target state requests outcome last := by
  rw [ofLookup]
  rcases targets : repository.lookup entity name state with ⟨error | ⟨_ | ⟨first, others⟩⟩, middle⟩
  · exact ⟨_, _, _, Session.bind_of_error targets, .lookupFails names targets⟩
  · exact ⟨_, _, _, Session.bind_of_ok targets, .untargeted names targets⟩
  have leads : LeadsTo repository state entity name first middle := ⟨others, targets⟩
  rw [Session.bind_of_ok targets]
  dsimp only
  rcases described : repository.entities [first] middle with ⟨error | entities, later⟩
  · exact ⟨_, _, _, Session.bind_of_error described, .entitiesFail names leads described⟩
  rw [Session.bind_of_ok described]
  cases set_eq : entities.head?.bind Metadata.Entity.collectionName? with
  | none => exact ⟨_, _, _, rfl, .nameless names leads described set_eq⟩
  | some set =>
      have has_set : HasSet repository middle first set later := ⟨entities, described, set_eq⟩
      have selects := selects_ofList (first ++ "id") (labelNames target)
      rcases answer : repository.records set
        (Gathered.ofList ((first ++ "id") :: labelNames target)) .all later with
          ⟨error | response, last⟩
      · exact ⟨_, _, _, Session.bind_of_error answer,
          .recordsFail names leads has_set selects answer⟩
      · obtain ⟨items, lists, rows_eq⟩ := exists_lists response
        refine ⟨_, _, _, Session.bind_of_ok answer,
          .offered names leads has_set selects answer lists ?_⟩
        rw [rows_eq]
        exact offers_ofItems ..

theorem exists_course (repository : Repository State) {option : FilterOption}
    (reference : option.target.kind = .lookup) (state : State) :
    ∃ requests outcome last, ofOption repository option state = (outcome, last) ∧
      Course repository option.target state requests outcome last := by
  rw [ofOption]
  cases entity_eq : Text.nonBlank? option.target.entityName with
  | none =>
      refine ⟨_, _, _, rfl, .unnamed fun entity name names => ?_⟩
      cases entity_eq.symm.trans names.entity_eq
  | some entity =>
      cases name_eq : Text.nonBlank? option.target.attributeName with
      | none =>
          refine ⟨_, _, _, rfl, .unnamed fun entity name names => ?_⟩
          cases name_eq.symm.trans names.name_eq
      | some name =>
          rw [reference]
          exact exists_course_ofLookup repository ⟨entity_eq, name_eq⟩ state

/-! ## Requests noted -/

section Logged

variable {repository : Repository State} {state : State} {log : List Request}
  {last : State × List Request}

theorem leadsTo_of_logged {entity name first : String}
    (leads : LeadsTo repository.logged (state, log) entity name first last) :
    LeadsTo repository state entity name first last.1 ∧
      last.2 = log ++ [.lookup entity name] := by
  obtain ⟨others, targets⟩ := leads
  obtain ⟨targets, noted⟩ := Repository.note_eq_iff.mp targets
  exact ⟨⟨others, targets⟩, noted⟩

theorem hasSet_of_logged {entity set : String}
    (has_set : HasSet repository.logged (state, log) entity set last) :
    HasSet repository state entity set last.1 ∧ last.2 = log ++ [.entities [entity]] := by
  obtain ⟨entities, described, set_eq⟩ := has_set
  obtain ⟨described, noted⟩ := Repository.note_eq_iff.mp described
  exact ⟨⟨entities, described, set_eq⟩, noted⟩

/-- A course of a logged repository is one of the repository, and adds its requests to the log. -/
theorem Course.of_logged {target : FilterLink} {requests : List Request}
    {outcome : Except SearchError (List ValueOption)}
    (course : Course repository.logged target (state, log) requests outcome last) :
    Course repository target state requests outcome last.1 ∧ last.2 = log ++ requests := by
  cases course with
  | unnamed missing => exact ⟨.unnamed missing, (List.append_nil log).symm⟩
  | lookupFails names failure =>
      obtain ⟨failure, noted⟩ := Repository.note_eq_iff.mp failure
      exact ⟨.lookupFails names failure, noted⟩
  | untargeted names no_target =>
      obtain ⟨no_target, noted⟩ := Repository.note_eq_iff.mp no_target
      exact ⟨.untargeted names no_target, noted⟩
  | entitiesFail names leads failure =>
      obtain ⟨leads, first_noted⟩ := leadsTo_of_logged leads
      obtain ⟨failure, noted⟩ := Repository.note_eq_iff.mp failure
      refine ⟨.entitiesFail names leads failure, ?_⟩
      simp [noted, first_noted]
  | nameless names leads described no_set =>
      obtain ⟨leads, first_noted⟩ := leadsTo_of_logged leads
      obtain ⟨described, noted⟩ := Repository.note_eq_iff.mp described
      refine ⟨.nameless names leads described no_set, ?_⟩
      simp [noted, first_noted]
  | recordsFail names leads has_set selects failure =>
      obtain ⟨leads, first_noted⟩ := leadsTo_of_logged leads
      obtain ⟨has_set, second_noted⟩ := hasSet_of_logged has_set
      obtain ⟨failure, noted⟩ := Repository.note_eq_iff.mp failure
      refine ⟨.recordsFail names leads has_set selects failure, ?_⟩
      simp [noted, second_noted, first_noted]
  | offered names leads has_set selects answer lists offers =>
      obtain ⟨leads, first_noted⟩ := leadsTo_of_logged leads
      obtain ⟨has_set, second_noted⟩ := hasSet_of_logged has_set
      obtain ⟨answer, noted⟩ := Repository.note_eq_iff.mp answer
      refine ⟨.offered names leads has_set selects answer lists offers, ?_⟩
      simp [noted, second_noted, first_noted]

end Logged

theorem Course.countP_isRecords_le {repository : Repository State} {target : FilterLink}
    {state last : State} {requests : List Request}
    {outcome : Except SearchError (List ValueOption)}
    (course : Course repository target state requests outcome last) :
    requests.countP Request.isRecords ≤ 1 := by
  cases course <;> simp [Request.isRecords]

/-- A picker for a reference asks for records once at most, and takes one of the courses: a failed
request ends it with its error, a missing entity or set ends it with no options before records are
asked for, and otherwise each record with an identifier is offered, under attributes that are
selected once each, the identifier first. -/
theorem course_ofOption (repository : Repository State) {option : FilterOption}
    (reference : option.target.kind = .lookup) (state : State) (log : List Request) :
    ∃ requests outcome last,
      ofOption repository.logged option (state, log) = (outcome, (last, log ++ requests)) ∧
        requests.countP Request.isRecords ≤ 1 ∧
        Course repository option.target state requests outcome last := by
  obtain ⟨requests, outcome, ⟨last, after⟩, run, course⟩ :=
    exists_course repository.logged reference (state, log)
  obtain ⟨course, after_eq⟩ := course.of_logged
  obtain rfl : after = log ++ requests := after_eq
  exact ⟨requests, outcome, last, run, course.countP_isRecords_le, course⟩

/-- Of three items, one is a contact with an identifier; the identifier is among the label's names. -/
theorem course_ofOption_contacts :
    let target : FilterLink :=
      { FilterLink.ofAttribute "primarycontactid" "Lookup" with
        entityName := some "account"
        selection := some { Selection.none with relatedNames := some ["fullname", "contactid"] } }
    let contacts : Repository Unit :=
      { entities := fun _ => pure [⟨"contact", some "contacts", none, none, none⟩]
        attributes := fun _ _ => pure []
        lookup := fun _ _ => pure ⟨["contact", "account"]⟩
        picklist := fun _ _ => pure ⟨none⟩
        records := fun _ _ _ => pure (.array
          [.object [("contactid", .text "42"), ("fullname", .text "Ann")], .null,
            .object [("contactid", .null)]]) }
    let requests : List Request := [.lookup "account" "primarycontactid", .entities ["contact"],
      .records "contacts" ["contactid", "fullname"] .all]
    target.kind = .lookup ∧
      requests.countP Request.isRecords ≤ 1 ∧
      Course contacts target () requests (.ok [⟨.text "42", "Ann 42"⟩]) () := by
  intro target contacts requests
  have reference : (Chain.single target).target.kind = .lookup := by decide
  obtain ⟨made, outcome, last, run, once, course⟩ := course_ofOption contacts reference () []
  have evaluated : ofOption contacts.logged (.single target) ((), []) =
      (.ok [⟨.text "42", "Ann 42"⟩], ((), requests)) := rfl
  rw [run] at evaluated
  obtain ⟨outcome_eq, after_eq⟩ := Prod.mk.inj evaluated
  obtain rfl : made = requests := (Prod.mk.inj after_eq).2
  obtain rfl := outcome_eq
  exact ⟨reference, once, course⟩

end ValueOption

end EntitySearch
