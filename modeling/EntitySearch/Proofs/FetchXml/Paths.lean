import EntitySearch.Proofs.FetchXml.Scope
import EntitySearch.Proofs.Repetition
import Mathlib.Data.List.Nodup

/-!
# Paths through a scope

The links of a scope lead to other scopes. A scope is distinct if no two links at the same place
have the same join, so that every path leads to one scope at most. Changing the scope at the end of
a path keeps this, and every other path still leads where it led before, apart from the links that
had to be added on the way.
-/

namespace EntitySearch

namespace FetchXml

namespace Scope

/-! ## Following a path -/

/-- The joins of the links of a scope. -/
def hops (scope : Scope) : List Hop :=
  scope.links.map Prod.fst

/-- The scope behind a join, a blank one if there is no link. -/
def linked (hop : Hop) (scope : Scope) : Scope :=
  (scope.links.lookup hop).getD blank

/-- The scope at the end of a path, a blank one if a link is missing. -/
def follow : List Hop → Scope → Scope
  | [], scope => scope
  | hop :: path, scope => follow path (linked hop scope)

/-- A path leads from a scope to another one. -/
inductive Reaches : Scope → List Hop → Scope → Prop where
  | here (scope : Scope) : Reaches scope [] scope
  | step {scope next final : Scope} {hop : Hop} {path : List Hop}
      (link : (hop, next) ∈ scope.links) (onward : Reaches next path final) :
      Reaches scope (hop :: path) final

/-- No two links at the same place have the same join. -/
inductive Distinct : Scope → Prop where
  | mk {scope : Scope} (different : scope.hops.Nodup)
      (behind : ∀ link ∈ scope.links, Distinct link.2) : Distinct scope

/-- The hop after a path on the way along a longer one. -/
def nextHop? (path joined : List Hop) : Option Hop :=
  (joined.dropPrefix? path).bind List.head?

theorem follow_blank (path : List Hop) : blank.follow path = blank := by
  induction path with
  | nil => rfl
  | cons hop path ih => exact ih

theorem mem_hops_iff (scope : Scope) (hop : Hop) :
    hop ∈ scope.hops ↔ ∃ next, (hop, next) ∈ scope.links := by
  simp [hops]

theorem nextHop?_eq_some_iff {path joined : List Hop} {hop : Hop} :
    nextHop? path joined = some hop ↔ path ++ [hop] <+: joined := by
  rw [nextHop?, Option.bind_eq_some_iff]
  constructor
  · rintro ⟨rest, dropped, head⟩
    obtain ⟨front, rfl, same⟩ := List.dropPrefix?_eq_some_iff.mp dropped
    obtain ⟨others, rfl⟩ := List.head?_eq_some_iff.mp head
    rw [eq_of_beq same]
    exact ⟨others, by simp⟩
  · rintro ⟨others, rfl⟩
    refine ⟨hop :: others, ?_, rfl⟩
    rw [List.append_assoc]
    exact List.dropPrefix?_append_of_beq _ (beq_self_eq_true path)

/-- In a distinct scope a link is found by its join. -/
theorem Distinct.linked_eq {scope next : Scope} (distinct : scope.Distinct) {hop : Hop}
    (link : (hop, next) ∈ scope.links) : scope.linked hop = next := by
  obtain ⟨different, _⟩ := distinct
  obtain ⟨front, back, split⟩ := List.append_of_mem link
  have fresh : front.lookup hop = none := by
    rw [List.lookup_eq_none_iff]
    intro other member
    rw [hops, split, List.map_append, List.map_cons, List.nodup_append] at different
    have apart := different.2.2 other.1 (List.mem_map_of_mem member) hop (by simp)
    simpa using Ne.symm apart
  rw [linked, split, List.lookup_append, fresh, List.lookup_cons_self]
  rfl

/-- In a distinct scope every path leads to the scope that is found by following it. -/
theorem Distinct.follow_eq {scope final : Scope} {path : List Hop} (distinct : scope.Distinct)
    (reaches : scope.Reaches path final) : scope.follow path = final := by
  induction reaches with
  | here scope => rfl
  | step link onward ih =>
      have same := distinct.linked_eq link
      obtain ⟨_, behind⟩ := distinct
      rw [follow, same, ih (behind _ link)]

theorem exists_link_of_follow_ne {scope : Scope} {hop : Hop} {path : List Hop}
    (somewhere : scope.follow (hop :: path) ≠ blank) : ∃ next, (hop, next) ∈ scope.links := by
  cases found : scope.links.lookup hop with
  | none =>
      rw [follow, linked, found, Option.getD_none, follow_blank] at somewhere
      exact absurd rfl somewhere
  | some next =>
      obtain ⟨front, back, split, _⟩ := List.lookup_eq_some_iff.mp found
      exact ⟨next, by simp [split]⟩

/-- A path leads on to a hop exactly if the scope at its end has a link with that hop. -/
theorem Distinct.exists_reaches_append_iff {scope : Scope} (distinct : scope.Distinct)
    (path : List Hop) (hop : Hop) :
    (∃ final, scope.Reaches (path ++ [hop]) final) ↔ hop ∈ (scope.follow path).hops := by
  induction path generalizing scope with
  | nil =>
      rw [follow, mem_hops_iff]
      constructor
      · rintro ⟨final, reaches⟩
        cases reaches with
        | step link onward => exact ⟨_, link⟩
      · rintro ⟨next, link⟩
        exact ⟨next, .step link (.here next)⟩
  | cons first path ih =>
      constructor
      · rintro ⟨final, reaches⟩
        cases reaches with
        | @step _ next _ _ _ link onward =>
            rw [follow, distinct.linked_eq link]
            obtain ⟨_, behind⟩ := distinct
            exact (ih (behind _ link)).mp ⟨final, onward⟩
      · intro member
        have somewhere : scope.follow (first :: path) ≠ blank := by
          intro nowhere
          rw [nowhere] at member
          cases member
        obtain ⟨next, link⟩ := exists_link_of_follow_ne somewhere
        rw [follow, distinct.linked_eq link] at member
        obtain ⟨_, behind⟩ := distinct
        obtain ⟨final, onward⟩ := (ih (behind _ link)).mpr member
        exact ⟨final, .step link onward⟩

/-! ## Changing the end of a path -/

theorem lookup_cons_eq_ite (first : Hop) (scope : Scope) (rest : List (Hop × Scope))
    (hop : Hop) :
    ((first, scope) :: rest).lookup hop = if hop = first then some scope else rest.lookup hop := by
  by_cases same : hop = first
  · subst same
    rw [List.lookup_cons_self, if_pos rfl]
  · have different : (hop == first) = false := by simpa using same
    rw [List.lookup_cons, different, if_neg same]

theorem lookup_modifyLink (hop : Hop) (change : Scope → Scope) (links : List (Hop × Scope))
    (other : Hop) :
    (modifyLink hop change links).lookup other =
      if other = hop then some (change ((links.lookup hop).getD blank))
      else links.lookup other := by
  induction links with
  | nil => rw [modifyLink, lookup_cons_eq_ite, List.lookup_nil, List.lookup_nil, Option.getD_none]
  | cons link rest ih =>
      obtain ⟨first, scope⟩ := link
      rw [modifyLink]
      by_cases here : first = hop
      · subst here
        rw [if_pos rfl, lookup_cons_eq_ite, lookup_cons_eq_ite, lookup_cons_eq_ite, if_pos rfl,
          Option.getD_some]
        split_ifs <;> rfl
      · rw [if_neg here, lookup_cons_eq_ite, lookup_cons_eq_ite, lookup_cons_eq_ite, ih,
          if_neg (Ne.symm here)]
        split_ifs with same_first same_hop
        · exact absurd (same_first.symm.trans same_hop) here
        · rfl
        · rfl
        · rfl

theorem map_fst_modifyLink (hop : Hop) (change : Scope → Scope) (links : List (Hop × Scope)) :
    (modifyLink hop change links).map Prod.fst = Gathered.add (links.map Prod.fst) hop := by
  induction links with
  | nil => rfl
  | cons link rest ih =>
      rw [modifyLink]
      by_cases here : link.1 = hop
      · rw [if_pos here]
        simp [Gathered.add_eq, here]
      · rw [if_neg here, List.map_cons, ih]
        by_cases later : hop ∈ rest.map Prod.fst
        · rw [Gathered.add_eq, if_pos later, Gathered.add_eq, if_pos (by simp [later]),
            List.map_cons]
        · rw [Gathered.add_eq, if_neg later, Gathered.add_eq, if_neg, List.map_cons,
            List.cons_append]
          rw [List.map_cons, List.mem_cons]
          rintro (same | member)
          · exact here same.symm
          · exact later member

theorem forall_mem_modifyLink {holds : Scope → Prop} {hop : Hop} {change : Scope → Scope}
    (changed : ∀ scope, holds scope → holds (change scope)) (holds_blank : holds blank)
    {links : List (Hop × Scope)} (behind : ∀ link ∈ links, holds link.2) :
    ∀ link ∈ modifyLink hop change links, holds link.2 := by
  induction links with
  | nil =>
      intro link member
      obtain rfl := List.mem_singleton.mp member
      exact changed blank holds_blank
  | cons first rest ih =>
      have first_holds := behind first (by simp)
      have rest_hold := fun other member => behind other (List.mem_cons_of_mem first member)
      intro link member
      rw [modifyLink] at member
      split_ifs at member with here
      · rcases List.mem_cons.mp member with rfl | later
        · exact changed first.2 first_holds
        · exact rest_hold link later
      · rcases List.mem_cons.mp member with rfl | later
        · exact first_holds
        · exact ih rest_hold link later

theorem distinct_blank : blank.Distinct :=
  .mk List.nodup_nil (by simp [blank, links])

/-- A change that keeps scopes distinct keeps them distinct at the end of a path. -/
theorem Distinct.modifyAt {change : Scope → Scope}
    (keeps : ∀ scope, scope.Distinct → (change scope).Distinct) (path : List Hop) {scope : Scope}
    (distinct : scope.Distinct) : (modifyAt change path scope).Distinct := by
  induction path generalizing scope with
  | nil => exact keeps scope distinct
  | cons hop path ih =>
      obtain ⟨projections, criteria, links⟩ := scope
      obtain ⟨different, behind⟩ := distinct
      refine .mk ?_ ?_
      · rw [hops, Scope.modifyAt, Scope.links, map_fst_modifyLink]
        exact Gathered.nodup_add different hop
      · exact forall_mem_modifyLink (fun _ inner => ih inner) distinct_blank behind

theorem linked_modifyAt_cons (change : Scope → Scope) (hop : Hop) (path : List Hop)
    (scope : Scope) (other : Hop) :
    (modifyAt change (hop :: path) scope).linked other =
      if other = hop then modifyAt change path (scope.linked hop) else scope.linked other := by
  obtain ⟨projections, criteria, links⟩ := scope
  rw [modifyAt, linked, Scope.links, lookup_modifyLink]
  split_ifs <;> rfl

/-- Following a path after a change at the end of another one: the change has moved along if the
one path starts with the other, and is out of sight if not. -/
theorem follow_modifyAt {change : Scope → Scope}
    (keeps : ∀ scope : Scope, (change scope).links = scope.links) (path joined : List Hop)
    (scope : Scope) :
    (modifyAt change joined scope).follow path =
      match joined.dropPrefix? path with
      | some rest => modifyAt change rest (scope.follow path)
      | none => scope.follow path := by
  induction path generalizing joined scope with
  | nil => rw [List.dropPrefix?_nil, follow, follow]
  | cons hop path ih =>
      cases joined with
      | nil =>
          have same : (change scope).linked hop = scope.linked hop := by
            rw [linked, keeps, linked]
          rw [modifyAt, follow, same]
          rfl
      | cons first joined =>
          rw [follow, linked_modifyAt_cons, List.dropPrefix?, follow]
          by_cases here : hop = first
          · subst here
            rw [if_pos rfl, ih, if_pos (beq_self_eq_true hop)]
          · rw [if_neg here, if_neg]
            simpa using Ne.symm here

theorem hops_modifyAt {change : Scope → Scope}
    (keeps : ∀ scope : Scope, (change scope).links = scope.links) (path : List Hop)
    (scope : Scope) :
    (modifyAt change path scope).hops =
      match path.head? with
      | some hop => Gathered.add scope.hops hop
      | none => scope.hops := by
  obtain ⟨projections, criteria, links⟩ := scope
  cases path with
  | nil => rw [modifyAt, hops, keeps]; rfl
  | cons hop path => exact map_fst_modifyLink hop (modifyAt change path) links

/-- The links at a place after a change: one more at most, the next one on the way. -/
theorem hops_follow_modifyAt {change : Scope → Scope}
    (keeps : ∀ scope : Scope, (change scope).links = scope.links) (path joined : List Hop)
    (scope : Scope) :
    ((modifyAt change joined scope).follow path).hops =
      match nextHop? path joined with
      | some hop => Gathered.add (scope.follow path).hops hop
      | none => (scope.follow path).hops := by
  rw [follow_modifyAt keeps, nextHop?]
  cases joined.dropPrefix? path with
  | none => rfl
  | some rest => exact hops_modifyAt keeps rest (scope.follow path)

end Scope

end FetchXml

end EntitySearch
