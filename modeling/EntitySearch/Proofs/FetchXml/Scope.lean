import EntitySearch.FetchXml.Document

/-!
# Induction on scopes

A scope is a tree. What holds of a scope as soon as it holds of all scopes linked to it holds of
every scope.
-/

namespace EntitySearch

namespace FetchXml

namespace Scope

mutual

/-- Induction on a scope, with the hypothesis for the scopes linked to it. -/
@[induction_eliminator]
theorem links_induction {motive : Scope → Prop}
    (mk : ∀ projections criteria links, (∀ link ∈ links, motive link.2) →
      motive (.mk projections criteria links)) : ∀ scope : Scope, motive scope
  | .mk projections criteria links => mk projections criteria links (forall_links mk links)

private theorem forall_links {motive : Scope → Prop}
    (mk : ∀ projections criteria links, (∀ link ∈ links, motive link.2) →
      motive (.mk projections criteria links)) :
    ∀ links : List (Hop × Scope), ∀ link ∈ links, motive link.2
  | [] => by simp
  | (_, scope) :: rest => by
      intro link member
      rcases List.mem_cons.mp member with rfl | later
      · exact links_induction mk scope
      · exact forall_links mk rest link later

end

theorem anyRestrictive_eq (links : List (Hop × Scope)) :
    anyRestrictive links = links.any fun link => isRestrictive link.2 := by
  induction links with
  | nil => rfl
  | cons link rest ih => rw [anyRestrictive, ih, List.any_cons]

/-- The element of one linked entity. -/
def linkMarkup (link : Hop × Scope) : Markup :=
  .element "link-entity"
    ([("name", link.1.entityName), ("from", link.1.toAttribute), ("to", link.1.fromAttribute)] ++
      if isRestrictive link.2 then [] else [("link-type", "outer")])
    (markup link.2)

theorem linksMarkup_eq (links : List (Hop × Scope)) : linksMarkup links = links.map linkMarkup := by
  induction links with
  | nil => rfl
  | cons link rest ih =>
      rw [linksMarkup, ih]
      rfl

end Scope

end FetchXml

end EntitySearch
