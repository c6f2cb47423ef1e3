/-!
# Entries by name

A list of named values in the order of the names, each name once. Putting a value under a name that
is taken replaces the value.
-/

namespace EntitySearch

namespace Entries

variable {Value : Type}

/-- Put a value under a name, in the order of the names. -/
def insert (name : String) (value : Value) : List (String × Value) → List (String × Value)
  | [] => [(name, value)]
  | entry :: rest =>
      if name < entry.1 then (name, value) :: entry :: rest
      else if name = entry.1 then (name, value) :: rest
      else entry :: insert name value rest

/-- The entries of a list in the order of their names; of equal names the last value stays. -/
def ofList (entries : List (String × Value)) : List (String × Value) :=
  entries.foldl (fun sorted entry => insert entry.1 entry.2 sorted) []

def find? (name : String) : List (String × Value) → Option Value
  | [] => none
  | entry :: rest => if entry.1 = name then some entry.2 else find? name rest

@[simp]
theorem find?_insert_self (name : String) (value : Value) (entries : List (String × Value)) :
    find? name (insert name value entries) = some value := by
  induction entries with
  | nil => simp [insert, find?]
  | cons entry rest later =>
      unfold insert
      split
      · simp [find?]
      · split
        · simp [find?]
        · rename_i different
          simp [find?, Ne.symm different, later]

theorem find?_insert_of_ne {name other : String} (different : other ≠ name) (value : Value)
    (entries : List (String × Value)) :
    find? other (insert name value entries) = find? other entries := by
  induction entries with
  | nil => simp [insert, find?, Ne.symm different]
  | cons entry rest later =>
      unfold insert
      split
      · simp [find?, Ne.symm different]
      · split
        · rename_i taken
          subst taken
          simp [find?, Ne.symm different]
        · simp [find?, later]

theorem mem_of_find? {name : String} {value : Value} {entries : List (String × Value)}
    (found : find? name entries = some value) : (name, value) ∈ entries := by
  induction entries with
  | nil => simp [find?] at found
  | cons entry rest later =>
      simp only [find?] at found
      split at found
      · rename_i same
        cases found
        exact same ▸ List.mem_cons_self
      · exact List.mem_cons_of_mem _ (later found)

/-- Each name is less than all names after it. -/
def Sorted (entries : List (String × Value)) : Prop :=
  entries.Pairwise fun left right => left.1 < right.1

theorem mem_insert {name : String} {value : Value} {entries : List (String × Value)}
    {entry : String × Value} (member : entry ∈ insert name value entries) :
    entry = (name, value) ∨ entry ∈ entries := by
  induction entries with
  | nil => simpa [insert] using member
  | cons first rest later =>
      unfold insert at member
      split at member
      · simpa using member
      · split at member
        · rcases List.mem_cons.mp member with same | old
          · exact .inl same
          · exact .inr (List.mem_cons_of_mem _ old)
        · rcases List.mem_cons.mp member with same | old
          · exact .inr (same ▸ List.mem_cons_self)
          · rcases later old with same | old
            · exact .inl same
            · exact .inr (List.mem_cons_of_mem _ old)

theorem Sorted.insert {name : String} {value : Value} {entries : List (String × Value)}
    (sorted : Sorted entries) : Sorted (Entries.insert name value entries) := by
  induction entries with
  | nil => simp [Entries.insert, Sorted]
  | cons first rest later =>
      obtain ⟨least, sortedRest⟩ := List.pairwise_cons.mp sorted
      unfold Entries.insert
      split
      · rename_i before
        refine List.pairwise_cons.mpr ⟨fun entry member => ?_, sorted⟩
        rcases List.mem_cons.mp member with same | old
        · exact same ▸ before
        · exact String.lt_trans before (least entry old)
      · split
        · rename_i taken
          subst taken
          exact List.pairwise_cons.mpr ⟨least, sortedRest⟩
        · rename_i notBefore different
          refine List.pairwise_cons.mpr ⟨fun entry member => ?_, later sortedRest⟩
          rcases mem_insert member with same | old
          · subst same
            rcases Decidable.em (first.1 < name) with before | notAfter
            · exact before
            · exact absurd
                (String.le_antisymm (String.not_lt.mp notAfter) (String.not_lt.mp notBefore))
                different
          · exact least entry old

theorem sorted_ofList (entries : List (String × Value)) : Sorted (ofList entries) := by
  have step (given sorted : List (String × Value)) (start : Sorted sorted) :
      Sorted (given.foldl (fun sorted entry => insert entry.1 entry.2 sorted) sorted) := by
    induction given generalizing sorted with
    | nil => exact start
    | cons entry rest later => exact later _ start.insert
  exact step entries [] List.Pairwise.nil

end Entries

/-- A map from names to values. -/
structure Dictionary (Value : Type) where
  /-- The entries in the order of their names. -/
  entries : List (String × Value)
  /-- Each name is less than all names after it. -/
  sorted : Entries.Sorted entries

namespace Dictionary

variable {Value : Type}

/-- The map of a list of entries; of equal names the last value stays. -/
def ofList (entries : List (String × Value)) : Dictionary Value :=
  ⟨Entries.ofList entries, Entries.sorted_ofList entries⟩

def empty : Dictionary Value :=
  ⟨[], List.Pairwise.nil⟩

def find? (dictionary : Dictionary Value) (name : String) : Option Value :=
  Entries.find? name dictionary.entries

instance [DecidableEq Value] : DecidableEq (Dictionary Value) := fun left right =>
  decidable_of_iff (left.entries = right.entries) <| by
    cases left
    cases right
    simp

end Dictionary

end EntitySearch
