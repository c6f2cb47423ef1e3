import EntitySearch.Json.Record
import EntitySearch.Text.Blank

/-!
# Chains of links and the joins between them

A filter option or a table column names its attribute through a chain of links. The last link is
the target, which supplies the attribute; every step from a link to the next joins another entity.
-/

namespace EntitySearch

/-- A non-empty list of links, seen from its last one. -/
structure Chain (Link : Type) where
  /-- The links before the target, the first one on the searched entity. -/
  outer : List Link
  target : Link
  deriving DecidableEq

namespace Chain

variable {Link Other : Type}

/-- A chain of one link. -/
def single (link : Link) : Chain Link := ⟨[], link⟩

/-- A chain with one more link in front. -/
def behind (link : Link) (rest : Chain Link) : Chain Link := ⟨link :: rest.outer, rest.target⟩

/-- All links, the first one on the searched entity. -/
def links (chain : Chain Link) : List Link := chain.outer ++ [chain.target]

def root (chain : Chain Link) : Link := chain.outer.head?.getD chain.target

def length (chain : Chain Link) : Nat := chain.outer.length + 1

/-- The chain of a function's values. -/
def map (f : Link → Other) (chain : Chain Link) : Chain Other :=
  ⟨chain.outer.map f, f chain.target⟩

/-- The chain with another target. -/
def withTarget (chain : Chain Link) (f : Link → Link) : Chain Link :=
  { chain with target := f chain.target }

@[simp]
theorem length_links (chain : Chain Link) : chain.links.length = chain.length := by
  simp [links, length]

@[simp]
theorem length_map (f : Link → Other) (chain : Chain Link) :
    (chain.map f).length = chain.length := by
  simp [length, map]

@[simp]
theorem links_map (f : Link → Other) (chain : Chain Link) :
    (chain.map f).links = chain.links.map f := by
  simp [links, map]

/-- The member of a link's document that holds the next link. -/
def nextField : String := "RelatedTo"

/-- A chain as nested documents, each link holding the next one. -/
def document (write : Link → Json.Members) (chain : Chain Link) : Json :=
  chain.outer.foldr (fun link next => .object (write link ++ [(nextField, next)]))
    (.object (write chain.target))

/-- Read a chain from nested documents. -/
def ofDocument? (names : List String) (read : Json.Record → Option Link) (document : Json) :
    Option (Chain Link) :=
  match _ : document.record? names with
  | none => none
  | some record =>
      match read record with
      | none => none
      | some link =>
          match _ : record.find? nextField with
          | none => if record.positional then none else some (single link)
          | some .null => some (single link)
          | some next => (ofDocument? names read next).map (behind link)
termination_by sizeOf document
decreasing_by exact Json.sizeOf_field_lt ‹_› ‹_›

end Chain

/-- What every link of a chain may say about the entity it stands on. -/
structure Link where
  displayName : Option String
  /-- Attribute compared or shown, if the link is the target. -/
  attributeName : Option String
  /-- Entity the link stands on. -/
  entityName : Option String
  /-- Attribute on the near side of a join. -/
  fromAttribute : Option String
  /-- Attribute on the far side of the join that leads to this link. -/
  toAttribute : Option String
  deriving DecidableEq

/-- One join from an entity to another. -/
structure Hop where
  entityName : String
  /-- The attribute of the entity joined from. -/
  fromAttribute : String
  /-- The attribute of the entity that is joined. -/
  toAttribute : String
  deriving DecidableEq

namespace Hop

/-- The hop between two neighbouring links, if all its three names are given.

The far link names the entity and its attribute. The near side's attribute is named by the near
link, or by the far link in a chain that is written the other way. -/
def between? (nearNames : Bool) (near far : Link) : Option Hop := do
  let entityName ← Text.nonBlank? far.entityName
  let fromAttribute ← Text.nonBlank? (if nearNames then near else far).fromAttribute
  let toAttribute ← Text.nonBlank? far.toAttribute
  some { entityName, fromAttribute, toAttribute }

/-- The hops along a list of links. -/
def along? (nearNames : Bool) : List Link → Option (List Hop)
  | near :: far :: rest =>
      match between? nearNames near far, along? nearNames (far :: rest) with
      | some hop, some hops => some (hop :: hops)
      | _, _ => none
  | _ => some []

/-- There is one hop between any two neighbouring links. -/
theorem length_of_along?_eq_some {nearNames : Bool} {links : List Link} {hops : List Hop}
    (complete : along? nearNames links = some hops) : hops.length = links.length - 1 := by
  induction links generalizing hops with
  | nil => simp_all [along?]
  | cons near rest ih =>
      cases rest with
      | nil => simp_all [along?]
      | cons far others =>
          rw [along?] at complete
          split at complete
          · rename_i hop later _ onward
            obtain rfl := Option.some.inj complete
            rw [List.length_cons, ih onward]
            simp
          · cases complete

def document (hop : Hop) : Json :=
  .object [("entityName", .text hop.entityName), ("fromAttribute", .text hop.fromAttribute),
    ("toAttribute", .text hop.toAttribute)]

end Hop

/-- The joins from the searched entity to the target of a chain, if all of them are complete.

The near links name the near sides of the joins as soon as the first link does. -/
def Chain.joinPath? (chain : Chain Link) : Option (List Hop) :=
  Hop.along? (Text.nonBlank? chain.root.fromAttribute).isSome chain.links

theorem Chain.joinPath?_single (link : Link) : (Chain.single link).joinPath? = some [] := rfl

/-- Exactly the chains of one link need no join. -/
theorem Chain.joinPath?_eq_nil_iff (chain : Chain Link) :
    chain.joinPath? = some [] ↔ chain.length ≤ 1 := by
  constructor
  · intro complete
    have hops := Hop.length_of_along?_eq_some complete
    rw [length_links, List.length_nil] at hops
    omega
  · intro short
    obtain ⟨outer, target⟩ := chain
    have outer_nil : outer = [] := by
      apply List.eq_nil_of_length_eq_zero
      simp only [length] at short
      omega
    subst outer_nil
    exact joinPath?_single target

theorem Chain.joinPath?_map_eq_nil_iff {Other : Type} (f : Other → Link) (chain : Chain Other) :
    (chain.map f).joinPath? = some [] ↔ chain.length ≤ 1 := by
  rw [joinPath?_eq_nil_iff, length_map]

end EntitySearch
