/-!
# Gathered lists

A list that is gathered member by member holds each of its members once, at the place where it first
appears.
-/

namespace EntitySearch

namespace Gathered

variable {Item : Type} [BEq Item]

/-- The list with one more member at its end, unless it is there already. -/
def add (seen : List Item) (item : Item) : List Item :=
  if seen.contains item then seen else seen ++ [item]

/-- The list without later repetitions. -/
def ofList (items : List Item) : List Item :=
  items.foldl add []

end Gathered

end EntitySearch
