import EntitySearch.FetchXml.Query
import EntitySearch.Proofs.FetchXml.Scope
import EntitySearch.Proofs.Markup.Reader
import EntitySearch.Proofs.Number.Numeral

/-!
# Reading FetchXML documents

A transcript holds all that the text of a query says: the page, the entity, and for each of its
entities the projections, the conditions and the links with their joins and link types. A reader of
the text finds the transcript of every document, and the transcript determines the document.
-/

namespace EntitySearch

namespace FetchXml

/-- What the text of a query says about one of its entities. -/
inductive Account where
  /-- The projections, the conditions, and the linked entities, each with its join and its link
  type. -/
  | mk (projections : List Projection) (criteria : List Criterion)
      (links : List (Hop × Option String × Account))

/-- What the text of a query says. -/
structure Transcript where
  page : Option Page
  entity : String
  /-- All attributes of the entity are asked for. -/
  everything : Bool
  /-- What is said about the entity. -/
  account : Account

/-! ## Transcripts of documents -/

namespace Scope

/-- The link type that is written for the link to a scope. -/
def linkType (scope : Scope) : Option String :=
  if isRestrictive scope then none else some "outer"

mutual

/-- What the text says about an entity with a scope. -/
def account : Scope → Account
  | .mk projections criteria links => .mk projections criteria (linkAccounts links)

/-- What the text says about linked entities. -/
def linkAccounts : List (Hop × Scope) → List (Hop × Option String × Account)
  | [] => []
  | (hop, scope) :: rest => (hop, linkType scope, account scope) :: linkAccounts rest

end

end Scope

namespace Account

mutual

/-- The scope of an entity, link types left out. -/
def scope : Account → Scope
  | .mk projections criteria links => .mk projections criteria (linkScopes links)

/-- The scopes of linked entities. -/
def linkScopes : List (Hop × Option String × Account) → List (Hop × Scope)
  | [] => []
  | (hop, _, account) :: rest => (hop, scope account) :: linkScopes rest

end

end Account

/-- The transcript of a document. -/
def Document.transcript (document : Document) : Transcript :=
  ⟨document.page, document.entity, document.scope.projections.isEmpty, document.scope.account⟩

/-- The document that a transcript tells of. -/
def Transcript.document (transcript : Transcript) : Document :=
  ⟨transcript.page, transcript.entity, transcript.account.scope⟩

theorem Scope.linkAccounts_eq (links : List (Hop × Scope)) :
    linkAccounts links = links.map fun link => (link.1, linkType link.2, account link.2) := by
  induction links with
  | nil => rfl
  | cons link rest ih => rw [linkAccounts, ih, List.map_cons]

theorem Account.linkScopes_eq (links : List (Hop × Option String × Account)) :
    linkScopes links = links.map fun link => (link.1, scope link.2.2) := by
  induction links with
  | nil => rfl
  | cons link rest ih => rw [linkScopes, ih, List.map_cons]

/-- The scope is found again in what the text says about it. -/
@[simp]
theorem Account.scope_account (given : Scope) : given.account.scope = given := by
  induction given with
  | mk projections criteria links ih =>
      rw [Scope.account, Account.scope, Scope.linkAccounts_eq, linkScopes_eq, List.map_map]
      congr 1
      calc
        links.map _ = links.map id := by
          apply List.map_congr_left
          intro link member
          rw [Function.comp_apply, ih link member, id]
        _ = links := List.map_id links

/-- A transcript determines the document. -/
@[simp]
theorem Transcript.document_transcript (document : Document) :
    document.transcript.document = document := by
  rw [Document.transcript, Transcript.document, Account.scope_account]

/-! ## Readers -/

/-- The number that a run of digits denotes. -/
def natural? (text : String) : Option Nat :=
  if text.toList.isEmpty || text.toList.any (! ·.isDigit) then none
  else some (Text.digitsValue text.toList)

/-- The page in the attributes of the outermost element. -/
def Page.ofAttributes? (attributes : List (String × String)) : Option (Option Page) :=
  match attributes.lookup "count", attributes.lookup "page" with
  | none, none => some none
  | some count, some number => do
      let count ← natural? count
      let number ← natural? number
      some (some ⟨count, number⟩)
  | _, _ => none

/-- The projection in the attributes of its element. -/
def Projection.ofAttributes? (attributes : List (String × String)) : Option Projection :=
  (attributes.lookup "name").map fun name => ⟨name, attributes.lookup "alias"⟩

/-- The join in the attributes of the element of a linked entity. -/
def hopOfAttributes? (attributes : List (String × String)) : Option Hop := do
  let entityName ← attributes.lookup "name"
  let fromAttribute ← attributes.lookup "to"
  let toAttribute ← attributes.lookup "from"
  some { entityName, fromAttribute, toAttribute }

namespace Criterion

/-- The value in an element of a list. -/
def valueOfMarkup? : Markup → Option String
  | .element "value" _ [] => some ""
  | .element "value" _ [.text value] => some value
  | _ => none

/-- The condition with an operand, in the attributes of its element. -/
def ofAttributes? (attributes : List (String × String)) (operand : Operand) : Option Criterion := do
  let attributeName ← attributes.lookup "attribute"
  let operator ← attributes.lookup "operator"
  some { attributeName, operator, operand }

/-- The operand that the attributes of a condition hold. -/
def operandOfAttributes (attributes : List (String × String)) : Operand :=
  match attributes.lookup "value" with
  | some value => .value value
  | none => .none

/-- The condition in its element. -/
def ofMarkup? : Markup → Option Criterion
  | .empty "condition" attributes => ofAttributes? attributes (operandOfAttributes attributes)
  | .element "condition" attributes content =>
      match content.mapM valueOfMarkup? with
      | some (first :: rest) => ofAttributes? attributes (.list first rest)
      | _ => none
  | _ => none

end Criterion

namespace Account

/-- The account with one more projection in front. -/
def withProjection (projection : Projection) : Account → Account
  | .mk projections criteria links => .mk (projection :: projections) criteria links

/-- The account with conditions in front, unless projections or conditions follow them. -/
def withCriteria? (criteria : List Criterion) : Account → Option Account
  | .mk [] [] links => some (.mk [] criteria links)
  | _ => none

/-- The account with one more link in front, unless projections or conditions follow it. -/
def withLink? (link : Hop × Option String × Account) : Account → Option Account
  | .mk [] [] links => some (.mk [] [] (link :: links))
  | _ => none

/-- What the content of an entity's element says: projections, then a filter, then links. -/
def ofContent? : List Markup → Option Account
  | [] => some (.mk [] [] [])
  | .empty name attributes :: rest => do
      let account ← ofContent? rest
      let projection ← Projection.ofAttributes? attributes
      if name = "attribute" then some (account.withProjection projection) else none
  | .element name attributes content :: rest => do
      let account ← ofContent? rest
      if name = "filter" then
        let criteria ← content.mapM Criterion.ofMarkup?
        account.withCriteria? criteria
      else if name = "link-entity" then
        let hop ← hopOfAttributes? attributes
        let linked ← ofContent? content
        account.withLink? (hop, attributes.lookup "link-type", linked)
      else none
  | .text _ :: _ => none

end Account

namespace Transcript

/-- What the element of a query says. -/
def ofMarkup? : Markup → Option Transcript
  | .element "fetch" attributes [.element "entity" [("name", entity)] content] => do
      let page ← Page.ofAttributes? attributes
      match content with
      | .empty "all-attributes" [] :: rest =>
          let account ← Account.ofContent? rest
          some ⟨page, entity, true, account⟩
      | _ =>
          let account ← Account.ofContent? content
          some ⟨page, entity, false, account⟩
  | _ => none

/-- What the text of a query says. -/
def read? (text : String) : Option Transcript :=
  (Markup.read? text).bind ofMarkup?

end Transcript

/-! ## The markup of a document is well formed -/

theorem Projection.wellFormed_markup (projection : Projection) :
    projection.markup.WellFormed := by
  obtain ⟨name, valueKey⟩ := projection
  cases valueKey <;> exact .empty rfl

theorem Criterion.wellFormed_valueMarkup (value : String) : (valueMarkup value).WellFormed :=
  .textual value rfl

theorem Criterion.wellFormed_markup (criterion : Criterion) : criterion.markup.WellFormed := by
  obtain ⟨attributeName, operator, operand⟩ := criterion
  cases operand with
  | none => exact .empty rfl
  | value value => exact .empty rfl
  | list first rest =>
      apply Markup.WellFormed.element rfl
      intro piece member
      obtain ⟨value, _, rfl⟩ := List.mem_map.mp member
      exact wellFormed_valueMarkup value

theorem Criterion.wellFormed_filterMarkup (criteria : List Criterion) :
    ∀ piece ∈ filterMarkup criteria, piece.WellFormed := by
  cases criteria with
  | nil => simp [filterMarkup]
  | cons first rest =>
      intro piece member
      obtain rfl := List.mem_singleton.mp member
      apply Markup.WellFormed.element rfl
      intro condition inside
      obtain ⟨criterion, _, rfl⟩ := List.mem_map.mp inside
      exact wellFormed_markup criterion

theorem Scope.wellFormed_linkMarkup {link : Hop × Scope}
    (wellFormed : ∀ piece ∈ link.2.markup, piece.WellFormed) : (linkMarkup link).WellFormed := by
  refine .element ?_ wellFormed
  cases isRestrictive link.2 <;> rfl

theorem Scope.wellFormed_markup (scope : Scope) : ∀ piece ∈ scope.markup, piece.WellFormed := by
  induction scope with
  | mk projections criteria links ih =>
      intro piece member
      rw [markup, linksMarkup_eq, List.mem_append, List.mem_append] at member
      rcases member with (in_projections | in_filter) | in_links
      · obtain ⟨projection, _, rfl⟩ := List.mem_map.mp in_projections
        exact projection.wellFormed_markup
      · exact Criterion.wellFormed_filterMarkup criteria piece in_filter
      · obtain ⟨link, link_member, rfl⟩ := List.mem_map.mp in_links
        exact wellFormed_linkMarkup (ih link link_member)

/-- The pieces within the element of the searched entity. -/
def Document.content (document : Document) : List Markup :=
  (if document.scope.projections.isEmpty then [.empty "all-attributes" []] else []) ++
    document.scope.markup

theorem Document.wellFormed_content (document : Document) :
    ∀ piece ∈ document.content, piece.WellFormed := by
  intro piece member
  rcases List.mem_append.mp member with everything | in_scope
  · split_ifs at everything
    · obtain rfl := List.mem_singleton.mp everything
      exact .empty rfl
    · cases everything
  · exact document.scope.wellFormed_markup piece in_scope

theorem Document.areNamed_pageAttributes (page : Option Page) :
    Markup.areNamed (pageAttributes page) = true := by
  cases page <;> rfl

theorem Document.wellFormed_markup (document : Document) : document.markup.WellFormed := by
  apply Markup.WellFormed.element
  · rw [areNamed_pageAttributes, Bool.and_true]
    decide
  · intro piece member
    obtain rfl := List.mem_singleton.mp member
    exact .element rfl document.wellFormed_content

/-! ## What is written is read -/

theorem natural?_natText (number : Nat) : natural? (Text.natText number) = some number := by
  obtain ⟨nonempty, digits⟩ := (Text.isDigits_iff _).mp (Text.isDigits_natDigits number)
  have no_other : (Text.natDigits number).any (! ·.isDigit) = false := by
    simpa [List.any_eq_false] using digits
  rw [natural?, Text.natText, String.toList_ofList, no_other, Text.digitsValue_natDigits]
  simp [nonempty]

theorem Page.ofAttributes?_pageAttributes (page : Option Page) :
    ofAttributes? (Document.pageAttributes page) = some page := by
  cases page with
  | none => rfl
  | some page =>
      have count : (Document.pageAttributes (some page)).lookup "count" =
          some (Text.natText page.count) := rfl
      have number : (Document.pageAttributes (some page)).lookup "page" =
          some (Text.natText page.number) := rfl
      rw [ofAttributes?, count, number]
      dsimp only
      rw [natural?_natText, natural?_natText]
      rfl

theorem Criterion.mapM_valueOfMarkup? (values : List String) :
    (Markup.settledContent (values.map valueMarkup)).mapM valueOfMarkup? = some values := by
  have wellFormed : ∀ piece ∈ values.map valueMarkup, piece.WellFormed := by
    intro piece member
    obtain ⟨value, _, rfl⟩ := List.mem_map.mp member
    exact wellFormed_valueMarkup value
  rw [Markup.settledContent_of_wellFormed wellFormed, List.map_map]
  apply mapM_map_eq_some
  intro value _
  rw [Function.comp_apply, valueMarkup, Markup.settled, Markup.settledContent_text, Markup.ofText]
  split_ifs with blank
  · rw [valueOfMarkup?, String.isEmpty_iff.mp blank]
  · rw [valueOfMarkup?]

/-- A condition is read from its element. -/
theorem Criterion.ofMarkup?_markup (criterion : Criterion) :
    ofMarkup? criterion.markup.settled = some criterion := by
  obtain ⟨attributeName, operator, operand⟩ := criterion
  cases operand with
  | none => rfl
  | value value => rfl
  | list first rest =>
      have read := mapM_valueOfMarkup? (first :: rest)
      rw [markup, Markup.settled, ofMarkup?, read]
      rfl

namespace Account

theorem ofContent?_projections (projections : List Projection) {others : List Markup}
    {criteria : List Criterion} {links : List (Hop × Option String × Account)}
    (read : ofContent? others = some (.mk [] criteria links)) :
    ofContent? (projections.map Projection.markup ++ others) =
      some (.mk projections criteria links) := by
  induction projections with
  | nil => exact read
  | cons projection rest ih =>
      obtain ⟨name, valueKey⟩ := projection
      cases valueKey with
      | none =>
          rw [List.map_cons, List.cons_append, Projection.markup, ofContent?, ih]
          rfl
      | some key =>
          rw [List.map_cons, List.cons_append, Projection.markup, ofContent?, ih]
          rfl

theorem ofContent?_filter (criteria : List Criterion) {others : List Markup}
    {links : List (Hop × Option String × Account)}
    (read : ofContent? others = some (.mk [] [] links)) :
    ofContent? ((Criterion.filterMarkup criteria).map Markup.settled ++ others) =
      some (.mk [] criteria links) := by
  cases criteria with
  | nil => exact read
  | cons first rest =>
      have wellFormed : ∀ piece ∈ (first :: rest).map Criterion.markup, piece.WellFormed := by
        intro piece member
        obtain ⟨criterion, _, rfl⟩ := List.mem_map.mp member
        exact criterion.wellFormed_markup
      have conditions : (Markup.settledContent ((first :: rest).map Criterion.markup)).mapM
          Criterion.ofMarkup? = some (first :: rest) := by
        rw [Markup.settledContent_of_wellFormed wellFormed, List.map_map]
        exact mapM_map_eq_some fun criterion _ => criterion.ofMarkup?_markup
      rw [Criterion.filterMarkup, List.map_singleton, List.singleton_append, Markup.settled,
        ofContent?, read, conditions]
      rfl

theorem ofContent?_links {links : List (Hop × Scope)}
    (linked : ∀ link ∈ links,
      ofContent? (Markup.settledContent link.2.markup) = some link.2.account) :
    ofContent? ((links.map Scope.linkMarkup).map Markup.settled) =
      some (.mk [] [] (Scope.linkAccounts links)) := by
  induction links with
  | nil => simp [ofContent?, Scope.linkAccounts]
  | cons link rest ih =>
      obtain ⟨hop, scope⟩ := link
      have later := ih fun other member => linked other (List.mem_cons_of_mem _ member)
      have inside := linked (hop, scope) (by simp)
      rw [List.map_cons, List.map_cons, Scope.linkMarkup, Markup.settled, ofContent?, later,
        inside, Scope.linkAccounts, Scope.linkType]
      cases Scope.isRestrictive scope <;> rfl

/-- The content of an entity's element is read back. -/
theorem ofContent?_markup (scope : Scope) :
    ofContent? (Markup.settledContent scope.markup) = some scope.account := by
  induction scope with
  | mk projections criteria links ih =>
      have in_links := ofContent?_links ih
      have with_filter := ofContent?_filter criteria in_links
      have whole := ofContent?_projections projections with_filter
      have unchanged : (projections.map Projection.markup).map Markup.settled =
          projections.map Projection.markup := by
        rw [List.map_map]
        rfl
      rw [Markup.settledContent_of_wellFormed (Scope.wellFormed_markup _), Scope.markup,
        Scope.linksMarkup_eq, List.map_append, List.map_append, unchanged, List.append_assoc,
        whole, Scope.account]

end Account

namespace Transcript

/-- Attributes asked for one by one are not taken for all attributes. -/
theorem ofMarkup?_of_projections {page : Option Page} {attributes : List (String × String)}
    (paged : Page.ofAttributes? attributes = some page) (entity : String) {scope : Scope}
    (projected : scope.projections.isEmpty = false) :
    ofMarkup? (.element "fetch" attributes
      [.element "entity" [("name", entity)] (Markup.settledContent scope.markup)]) =
      some ⟨page, entity, false, scope.account⟩ := by
  have read := Account.ofContent?_markup scope
  obtain ⟨projections, criteria, links⟩ := scope
  cases projections with
  | nil => cases projected
  | cons first rest =>
      have leading : Markup.settledContent (Scope.mk (first :: rest) criteria links).markup =
          first.markup.settled ::
            Markup.settledContent (Scope.mk rest criteria links).markup := rfl
      rw [leading, Projection.markup, Markup.settled] at read ⊢
      simp only [ofMarkup?, paged, read]
      rfl

/-- The text of every document is read. -/
theorem read?_text (document : Document) : read? document.text = some document.transcript := by
  have paged := Page.ofAttributes?_pageAttributes document.page
  have whole : ofMarkup? document.markup.settled = some document.transcript := by
    rw [Document.markup, Document.transcript]
    cases projected : document.scope.projections.isEmpty with
    | false => exact ofMarkup?_of_projections paged document.entity projected
    | true =>
        have read := Account.ofContent?_markup document.scope
        have layout : Markup.settledContent
            ([.empty "all-attributes" []] ++ document.scope.markup) =
              .empty "all-attributes" [] :: Markup.settledContent document.scope.markup := rfl
        simp only [if_true, Markup.settled, Markup.settledContent, Markup.isEmptyText]
        rw [layout]
        simp only [ofMarkup?, paged, read, Bool.false_eq_true, if_false]
        rfl
  rw [read?, Document.text, Markup.read?_render document.wellFormed_markup, Option.bind_some,
    whole]

end Transcript

/-- The text of a query is read back to its page, its entity, the projections or the wish for all
attributes, the conditions, and the links with their joins and link types. Nothing of the document
is lost on the way. -/
theorem Query.read?_text_ofRows (entity : String) (rows : List FilterRow) (columns : List Column)
    (page : Option Page) :
    Transcript.read? (ofRows entity rows columns page).text =
        some (ofRows entity rows columns page).document.transcript ∧
      (ofRows entity rows columns page).document.transcript.document =
        (ofRows entity rows columns page).document := by
  constructor
  · exact Transcript.read?_text _
  · exact Transcript.document_transcript _

end FetchXml

end EntitySearch
