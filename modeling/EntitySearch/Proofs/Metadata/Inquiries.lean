import EntitySearch.Metadata.Backfill
import EntitySearch.Proofs.Repetition

/-!
# Inquiries about options

The inquiries about a list of options in closed form: one for each entity, in the order in which the
entities first appear, about the attributes that options name on it, each once and in order.
-/

namespace EntitySearch

namespace Metadata

namespace Inquiry

/-- The attributes of an entity among subjects. -/
def namesOf (subjects : List (String × String)) (entity : String) : List String :=
  ((subjects.filter (·.1 == entity)).map Prod.snd).eraseDups

/-- The inquiries about subjects: every entity once, each of its attributes once. -/
def grouped (subjects : List (String × String)) : List Inquiry :=
  (subjects.map Prod.fst).eraseDups.map fun entity => ⟨entity, namesOf subjects entity⟩

theorem mem_namesOf_iff {subjects : List (String × String)} {entity name : String} :
    name ∈ namesOf subjects entity ↔ (entity, name) ∈ subjects := by
  simp [namesOf]

theorem namesOf_append_singleton (subjects : List (String × String)) (entity name known : String) :
    namesOf (subjects ++ [(entity, name)]) known =
      if entity = known then Gathered.add (namesOf subjects known) name
      else namesOf subjects known := by
  by_cases same : entity = known
  · simp [namesOf, Gathered.add_eq, same, eraseDups_append_singleton]
  · simp [namesOf, same]

/-- Adding an attribute of an entity changes the inquiry about the entity, or appends one. -/
theorem add_map {entities : List String} (different : entities.Nodup) {entity : String}
    (name : String) {names : String → List String} (fresh : entity ∉ entities → names entity = []) :
    add entity name (entities.map fun known => ⟨known, names known⟩) =
      (if entity ∈ entities then entities else entities ++ [entity]).map fun known =>
        ⟨known, if entity = known then Gathered.add (names known) name else names known⟩ := by
  induction entities with
  | nil => simp [add, Gathered.add, fresh]
  | cons first rest ih =>
      obtain ⟨first_new, rest_different⟩ := List.nodup_cons.mp different
      by_cases here : first = entity
      · subst here
        have untouched : ∀ known ∈ rest, first ≠ known := by
          rintro known member rfl
          exact first_new member
        have others : (rest.map fun known => (⟨known, names known⟩ : Inquiry)) =
            rest.map fun known =>
              ⟨known, if first = known then Gathered.add (names known) name else names known⟩ :=
          List.map_congr_left fun known member => by rw [if_neg (untouched known member)]
        rw [List.map_cons, add, if_pos rfl, if_pos List.mem_cons_self, List.map_cons, if_pos rfl,
          ← others]
      · have known_iff : entity ∈ first :: rest ↔ entity ∈ rest := by
          simp [Ne.symm here]
        rw [List.map_cons, add, if_neg here,
          ih rest_different fun absent => fresh fun member => absent (known_iff.mp member)]
        by_cases later : entity ∈ rest <;> simp [later, Ne.symm here]

theorem add_grouped (subjects : List (String × String)) (entity name : String) :
    add entity name (grouped subjects) = grouped (subjects ++ [(entity, name)]) := by
  have fresh : entity ∉ (subjects.map Prod.fst).eraseDups → namesOf subjects entity = [] := by
    intro absent
    rw [List.eq_nil_iff_forall_not_mem]
    intro other member
    have known := List.mem_map_of_mem (f := Prod.fst) (mem_namesOf_iff.mp member)
    exact absent (List.mem_eraseDups.mpr known)
  rw [grouped, add_map (nodup_eraseDups _) name fresh, grouped, List.map_append,
    List.map_singleton, eraseDups_append_singleton]
  simp only [namesOf_append_singleton, List.mem_eraseDups]

/-- What is asked about options are their subjects, grouped by entities. -/
theorem ofOptions_eq_grouped (options : List FilterOption) :
    ofOptions options = grouped (options.filterMap subject?) := by
  rw [ofOptions]
  induction options.filterMap subject? using List.reverseRecOn with
  | nil => rfl
  | append_singleton rest last ih =>
      rw [List.foldl_append, ih]
      exact add_grouped rest last.1 last.2

theorem nodup_entities_ofOptions (options : List FilterOption) :
    ((ofOptions options).map (·.entity)).Nodup := by
  rw [ofOptions_eq_grouped, grouped, List.map_map]
  exact (nodup_eraseDups _).map fun _ _ same => same

/-- An attribute is asked for exactly if an option names it on the inquiry's entity. -/
theorem mem_attributes_iff {options : List FilterOption} {inquiry : Inquiry}
    (member : inquiry ∈ ofOptions options) {name : String} :
    name ∈ inquiry.attributes ↔ ∃ option ∈ options, subject? option = some (inquiry.entity, name) := by
  rw [ofOptions_eq_grouped, grouped] at member
  obtain ⟨entity, _, rfl⟩ := List.mem_map.mp member
  rw [mem_namesOf_iff, List.mem_filterMap]

/-- Every inquiry is about an entity that an option stands on. -/
theorem exists_subject?_of_mem {options : List FilterOption} {inquiry : Inquiry}
    (member : inquiry ∈ ofOptions options) :
    ∃ option ∈ options, ∃ name, subject? option = some (inquiry.entity, name) := by
  rw [ofOptions_eq_grouped, grouped] at member
  obtain ⟨entity, known, rfl⟩ := List.mem_map.mp member
  obtain ⟨subject, subject_member, rfl⟩ := List.mem_map.mp (List.mem_eraseDups.mp known)
  obtain ⟨option, option_member, asked⟩ := List.mem_filterMap.mp subject_member
  exact ⟨option, option_member, subject.2, asked⟩

/-- The entity of every subject is asked about. -/
theorem exists_inquiry_of_subject? {options : List FilterOption} {option : FilterOption}
    (member : option ∈ options) {entity name : String}
    (asked : subject? option = some (entity, name)) :
    ∃ inquiry ∈ ofOptions options, inquiry.entity = entity ∧ name ∈ inquiry.attributes := by
  have subject : (entity, name) ∈ options.filterMap subject? :=
    List.mem_filterMap.mpr ⟨option, member, asked⟩
  refine ⟨⟨entity, namesOf (options.filterMap subject?) entity⟩, ?_, rfl,
    mem_namesOf_iff.mpr subject⟩
  rw [ofOptions_eq_grouped, grouped]
  exact List.mem_map.mpr
    ⟨entity, List.mem_eraseDups.mpr (List.mem_map_of_mem (f := Prod.fst) subject), rfl⟩

end Inquiry

end Metadata

end EntitySearch
