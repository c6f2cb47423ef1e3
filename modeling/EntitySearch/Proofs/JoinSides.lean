import EntitySearch.Proofs.JoinPaths
import EntitySearch.Proofs.Values

/-!
# Chains written the other way

The near side of a join is named by the near link or, in a chain that is written the other way, by
the far one. A chain of the first kind becomes one of the second if every link hands the name on to
the next. The joins stay the same, gaps included, and so does every query.
-/

namespace EntitySearch

/-! ## Handing names on -/

namespace Chain

variable {Node : Type} (joins : Node → Link) (withNear : Option String → Node → Node)

/-- A chain of some outer links and a target in which every link names the near side of a join as
the link before it did, and the first one as told. -/
def handedOnFrom (carried : Option String) : List Node → Node → Chain Node
  | [], target => single (withNear carried target)
  | link :: outer, target =>
      behind (withNear carried link) (handedOnFrom (joins link).fromAttribute outer target)

/-- The chain in which every link hands the name of the near side on to the next one, and the first
link names none. -/
def handedOn (chain : Chain Node) : Chain Node :=
  handedOnFrom joins withNear none chain.outer chain.target

theorem links_behind (link : Node) (rest : Chain Node) :
    (behind link rest).links = link :: rest.links := rfl

theorem exists_links_handedOnFrom (carried : Option String) (outer : List Node) (target : Node) :
    ∃ first rest later, links ⟨outer, target⟩ = first :: rest ∧
      (handedOnFrom joins withNear carried outer target).links =
        withNear carried first :: later := by
  cases outer with
  | nil => exact ⟨target, [], [], rfl, rfl⟩
  | cons link outer => exact ⟨link, _, _, rfl, rfl⟩

theorem root_handedOn (chain : Chain Node) :
    (handedOn joins withNear chain).root = withNear none chain.root := by
  obtain ⟨outer, target⟩ := chain
  cases outer <;> rfl

/-- Nothing of the target changes but the name that it is handed. -/
theorem exists_target_handedOn (chain : Chain Node) :
    ∃ name, (handedOn joins withNear chain).target = withNear name chain.target := by
  have onward (carried : Option String) (outer : List Node) :
      ∃ name, (handedOnFrom joins withNear carried outer chain.target).target =
        withNear name chain.target := by
    induction outer generalizing carried with
    | nil => exact ⟨carried, rfl⟩
    | cons link outer ih => exact ih (joins link).fromAttribute
  exact onward none chain.outer

section Joins

variable {joins withNear}
  (renames : ∀ name node, joins (withNear name node) =
  { joins node with fromAttribute := name })
include renames

variable (joins) in
theorem fromAttributes_handedOn (chain : Chain Node) :
    (handedOn joins withNear chain).links.map (fun node => (joins node).fromAttribute) =
      none :: chain.outer.map fun node => (joins node).fromAttribute := by
  have onward (carried : Option String) (outer : List Node) :
      (handedOnFrom joins withNear carried outer chain.target).links.map
          (fun node => (joins node).fromAttribute) =
        carried :: outer.map fun node => (joins node).fromAttribute := by
    induction outer generalizing carried with
    | nil => simp [handedOnFrom, single, links, renames]
    | cons link outer ih =>
        rw [handedOnFrom, links_behind, List.map_cons, List.map_cons, ih, renames]
  exact onward none chain.outer

/-- The far link names the near side of a join as the near link did. -/
theorem between?_handedOn (carried : Option String) (near far : Node) :
    Hop.between? false (joins (withNear carried near))
        (joins (withNear (joins near).fromAttribute far)) =
      Hop.between? true (joins near) (joins far) := by
  simp [Hop.between?, renames]

theorem along?_handedOnFrom (carried : Option String) (outer : List Node) (target : Node) :
    Hop.along? false ((handedOnFrom joins withNear carried outer target).links.map joins) =
      Hop.along? true ((links ⟨outer, target⟩).map joins) := by
  -- The first link names no near side any more, so it does not matter what it is told.
  induction outer generalizing carried with
  | nil => rfl
  | cons near outer ih =>
      obtain ⟨far, rest, later, links_eq, handed_eq⟩ :=
        exists_links_handedOnFrom joins withNear (joins near).fromAttribute outer target
      have onward := ih (joins near).fromAttribute
      rw [handed_eq, links_eq, List.map_cons, List.map_cons] at onward
      have given : links ⟨near :: outer, target⟩ = near :: far :: rest :=
        congrArg (near :: ·) links_eq
      have handed : (handedOnFrom joins withNear carried (near :: outer) target).links =
          withNear carried near :: withNear (joins near).fromAttribute far :: later :=
        congrArg (withNear carried near :: ·) handed_eq
      rw [given, handed, List.map_cons, List.map_cons, List.map_cons, List.map_cons, Hop.along?,
        Hop.along?, onward, between?_handedOn renames]

/-- A chain whose near links name the near sides keeps its join path, or the lack of one. -/
theorem joinPath?_handedOn {chain : Chain Node}
    (near_named : (Text.nonBlank? (joins chain.root).fromAttribute).isSome) :
    ((handedOn joins withNear chain).map joins).joinPath? = (chain.map joins).joinPath? := by
  have unnamed : (joins (withNear none chain.root)).fromAttribute = none := by rw [renames]
  rw [joinPath?, joinPath?, root_map, root_map, root_handedOn, unnamed, near_named, links_map,
    links_map]
  exact along?_handedOnFrom renames none chain.outer chain.target

end Joins

end Chain

/-! ## Options and columns -/

/-- The option with the near sides of its joins named by the far links. -/
def FilterOption.farNamed (option : FilterOption) : FilterOption :=
  Chain.handedOn FilterLink.toLink (fun name link => { link with fromAttribute := name }) option

/-- The column with the near sides of its joins named by the far links. -/
def TableColumn.farNamed (column : TableColumn) : TableColumn :=
  Chain.handedOn ColumnLink.toLink (fun name link => { link with fromAttribute := name }) column

theorem FilterOption.joinPath?_farNamed {option : FilterOption}
    (near_named : (Text.nonBlank? option.root.fromAttribute).isSome) :
    option.farNamed.joinPath? = option.joinPath? :=
  Chain.joinPath?_handedOn (fun _ _ => rfl) near_named

theorem TableColumn.joinPath?_farNamed {column : TableColumn}
    (near_named : (Text.nonBlank? column.root.fromAttribute).isSome) :
    column.farNamed.joinPath? = column.joinPath? :=
  Chain.joinPath?_handedOn (fun _ _ => rfl) near_named

/-! ## Queries -/

/-- The second row is the first one, or filters by its option written the other way. -/
inductive FilterRow.Rewritten : FilterRow → FilterRow → Prop
  | same (row : FilterRow) : Rewritten row row
  | farNamed {row : FilterRow} {option : FilterOption} (option_eq : row.option = some option)
      (near_named : (Text.nonBlank? option.root.fromAttribute).isSome) :
      Rewritten row { row with option := some option.farNamed }

/-- A row amounts to the same condition on another option whose target has the same attribute. -/
theorem FilterRow.condition?_withOption {row : FilterRow} {option other : FilterOption}
    (option_eq : row.option = some option)
    (names : other.target.attributeName = option.target.attributeName) :
    { row with option := some other }.condition? =
      row.condition?.map fun condition => { condition with option := other } := by
  obtain ⟨given, operator | operator, values, disabled⟩ := row
  · obtain rfl : given = some option := option_eq
    rfl
  · obtain rfl : given = some option := option_eq
    rw [condition?, condition?]
    dsimp only
    rw [names]
    cases Text.nonBlank? option.target.attributeName with
    | none => rfl
    | some name =>
        cases disabled with
        | true => rfl
        | false => cases operator.test? values <;> rfl

/-- A row filters alike by options with the same join path whose targets have the same attribute. -/
theorem FetchXml.placedCriterion?_congr {row : FilterRow} {option other : FilterOption}
    (option_eq : row.option = some option)
    (names : other.target.attributeName = option.target.attributeName)
    (types : other.target.attributeType = option.target.attributeType)
    (paths : other.joinPath? = option.joinPath?) :
    placedCriterion? { row with option := some other } = placedCriterion? row := by
  rw [placedCriterion?, FilterRow.condition?_withOption option_eq names, placedCriterion?]
  cases amounts : row.condition? with
  | error reason => rfl
  | ok condition =>
      have own_option := (FilterRow.option_eq_of_condition? amounts).1
      rw [option_eq] at own_option
      obtain rfl := Option.some.inj own_option
      have kinds : other.target.kind = condition.option.target.kind := by
        rw [FilterLink.kind, FilterLink.kind, types]
      simp [Except.map, paths, kinds, Criterion.ofCondition, Condition.kind]

theorem FilterRow.Rewritten.placedCriterion?_eq {row other : FilterRow}
    (rewritten : Rewritten row other) :
    FetchXml.placedCriterion? other = FetchXml.placedCriterion? row := by
  cases rewritten with
  | same => rfl
  | @farNamed option option_eq near_named =>
      obtain ⟨name, target_eq⟩ : ∃ name, option.farNamed.target =
          { option.target with fromAttribute := name } :=
        Chain.exists_target_handedOn FilterLink.toLink _ option
      apply FetchXml.placedCriterion?_congr option_eq
      · rw [target_eq]
      · rw [target_eq]
      · exact option.joinPath?_farNamed near_named

/-- In a chain whose first link names the near side of its join, each name can be handed on to the
far link. The join path stays the same, or stays incomplete, and so do the queries of all rows and
what they skip, whichever of the rows filter by options written the other way. -/
theorem joins_farNamed :
    (∀ option : FilterOption, (Text.nonBlank? option.root.fromAttribute).isSome →
      option.farNamed.links.map (·.fromAttribute) = none :: option.outer.map (·.fromAttribute) ∧
        option.farNamed.joinPath? = option.joinPath?) ∧
    (∀ column : TableColumn, (Text.nonBlank? column.root.fromAttribute).isSome →
      column.farNamed.links.map (·.fromAttribute) = none :: column.outer.map (·.fromAttribute) ∧
        column.farNamed.joinPath? = column.joinPath?) ∧
    ∀ (entity : String) (rows others : List FilterRow),
      List.Forall₂ FilterRow.Rewritten rows others →
      ∀ (columns : List Column) (page : Option FetchXml.Page),
        FetchXml.Query.ofRows entity others columns page =
          FetchXml.Query.ofRows entity rows columns page := by
  refine ⟨fun option near_named => ⟨?_, option.joinPath?_farNamed near_named⟩,
    fun column near_named => ⟨?_, column.joinPath?_farNamed near_named⟩, ?_⟩
  · exact Chain.fromAttributes_handedOn FilterLink.toLink (fun _ _ => rfl) option
  · exact Chain.fromAttributes_handedOn ColumnLink.toLink (fun _ _ => rfl) column
  · intro entity rows others rewritten columns page
    have same := rewritten.imp fun _ _ => FilterRow.Rewritten.placedCriterion?_eq
    exact FetchXml.Query.ofRows_congr entity same columns page

/-- A path through the contact of an account to its owner, and the same path with a gap. -/
theorem joins_farNamed_owner :
    let account : FilterLink := { FilterLink.none with fromAttribute := some "primarycontactid" }
    let contact : FilterLink :=
      { FilterLink.none with
        entityName := some "contact", fromAttribute := some "owninguser"
        toAttribute := some "contactid" }
    let user : FilterLink :=
      { FilterLink.ofAttribute "fullname" "String" with
        entityName := some "systemuser", toAttribute := some "systemuserid" }
    let whole : FilterOption := ⟨[account, contact], user⟩
    let gap : FilterOption := ⟨[account, { contact with fromAttribute := none }], user⟩
    let row (option : FilterOption) : FilterRow := .ofParts option (.state .null) []
    (Text.nonBlank? whole.root.fromAttribute).isSome ∧
      whole.farNamed.joinPath? = some [⟨"contact", "primarycontactid", "contactid"⟩,
        ⟨"systemuser", "owninguser", "systemuserid"⟩] ∧
      gap.farNamed.joinPath? = none ∧
      FetchXml.Query.ofRows "account" [row whole.farNamed, row gap] [] none =
        FetchXml.Query.ofRows "account" [row whole, row gap] [] none := by
  intro account contact user whole gap row
  have whole_near : (Text.nonBlank? whole.root.fromAttribute).isSome := by decide
  have gap_near : (Text.nonBlank? gap.root.fromAttribute).isSome := by decide
  obtain ⟨options, -, queries⟩ := joins_farNamed
  have rewritten : List.Forall₂ FilterRow.Rewritten [row whole, row gap]
      [row whole.farNamed, row gap] := .cons (.farNamed rfl whole_near) (.cons (.same _) .nil)
  exact ⟨whole_near, (options whole whole_near).2.trans (by decide),
    (options gap gap_near).2.trans (by decide), queries "account" _ _ rewritten [] none⟩

end EntitySearch
