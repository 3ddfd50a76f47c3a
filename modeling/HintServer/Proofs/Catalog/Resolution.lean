import HintServer.Proofs.Catalog.Grouping
import HintServer.Proofs.Catalog.Lookup

/-! A name resolves to its first declaration in category order.
Among the entries of the name, wherever they stand in the list that a catalog is made from, the
one of the least category counts, and inside that category the one declared first.
-/

namespace HintServer.Catalog

/-- An entry is the first of its name: no entry of the name has a smaller category, and none of the
same category is declared before it.
-/
structure IsFirstNamed (utilities : List Utility) (name : String) (entry : Utility) : Prop where
  named : entry.name = name
  leads : ∀ other ∈ utilities, other.name = name → entry.category ≤ other.category
  earliest
    : ∃ before after,
        utilities = before ++ entry :: after
        ∧ ∀ other ∈ before, other.name = name → other.category ≠ entry.category

theorem IsFirstNamed.mem {utilities : List Utility} {name : String} {entry : Utility}
    (first : IsFirstNamed utilities name entry)
    : entry ∈ utilities := by
  rcases first.earliest with ⟨before, after, rfl, -⟩
  simp

/-- Two first entries of a name are the same: neither has the smaller category, and then neither
stands before the other.
-/
theorem IsFirstNamed.unique {utilities : List Utility} {name : String} {entry entry' : Utility}
    (first : IsFirstNamed utilities name entry) (second : IsFirstNamed utilities name entry')
    : entry = entry' := by
  have sameCategory : entry.category = entry'.category :=
    Category.le_antisymm (first.leads entry' second.mem second.named)
      (second.leads entry first.mem first.named)
  -- both are found by a search for the category and the name
  have found {entry : Utility} (first : IsFirstNamed utilities name entry)
      : utilities.find? (fun other => other.category = entry.category ∧ other.name = name)
        = some entry := by
    rcases first.earliest with ⟨before, after, split, others⟩
    apply List.find?_eq_some_iff_append.mpr
    refine ⟨by simp [first.named], before, after, split, ?_⟩
    intro other member
    have differs := others other member
    simp only [Bool.not_eq_true', decide_eq_false_iff_not, not_and]
    exact fun sameCategory sameName => differs sameName sameCategory
  have same := found second
  rw [← sameCategory, found first] at same
  exact Option.some.inj same

/-- The first entry of a name in a grouped list is the first of its name in the given one: the
entries after it are of no smaller category, and those of its own category stand as they were
given.
-/
theorem isFirstNamed_of_find?_group {utilities : List Utility} {name : String} {entry : Utility}
    (found : (group utilities).find? (fun other => other.name = name) = some entry)
    : IsFirstNamed utilities name entry := by
  rcases List.find?_eq_some_iff_append.mp found with ⟨isNamed, before, after, split, others⟩
  have named : entry.name = name := by simpa using isNamed
  have unnamed : ∀ other ∈ before, other.name ≠ name := by simpa using others
  constructor
  case named => exact named
  case leads =>
    intro other member sameName
    have sorted := pairwise_group utilities
    rw [split, List.pairwise_append, List.pairwise_cons] at sorted
    rcases sorted with ⟨-, ⟨later, -⟩, -⟩
    rw [← mem_group, split, List.mem_append, List.mem_cons] at member
    rcases member with member | rfl | member
    · exact absurd sameName (unnamed other member)
    · exact Nat.le_refl _
    · exact later other member
  case earliest =>
    have inCategory
        : (utilities.filter (fun other => other.category = entry.category)).find?
            (fun other => other.name = name)
          = some entry := by
      have skipped
          : (before.filter (fun other => other.category = entry.category)).find?
              (fun other => other.name = name)
            = none := by
        simp +contextual [unnamed]
      rw [← filter_group, split, List.filter_append, List.find?_append, skipped]
      simp [named]
    rw [List.find?_filter] at inCategory
    rcases List.find?_eq_some_iff_append.mp inCategory with ⟨-, before, after, split, others⟩
    refine ⟨before, after, split, ?_⟩
    intro other member sameName sameCategory
    simpa [sameName, sameCategory] using others other member

theorem lookup_ofList_eq_none_iff {utilities : List Utility} {name : String}
    : (ofList utilities).lookup name = none ↔ ∀ entry ∈ utilities, entry.name ≠ name := by
  simp [lookup_ofList, mem_group]

/-- The entry that a name resolves to is the first of the name, as there is only one. -/
theorem lookup_ofList_eq_some_iff_isFirstNamed {utilities : List Utility} {name : String}
    {entry : Utility}
    : (ofList utilities).lookup name = some entry ↔ IsFirstNamed utilities name entry := by
  constructor
  · intro found
    rw [lookup_ofList] at found
    exact isFirstNamed_of_find?_group found
  · intro first
    cases found : (ofList utilities).lookup name with
    | none => exact absurd first.named (lookup_ofList_eq_none_iff.mp found entry first.mem)
    | some other =>
        rw [lookup_ofList] at found
        rw [(isFirstNamed_of_find?_group found).unique first]

/-- The index of a catalog sends a name to the first position that holds it. -/
theorem index_ofList_getElem? (utilities : List Utility) (name : String)
    : (ofList utilities).index[name]?
      = (ofList utilities).entries.findIdx? (fun entry => entry.name = name) := by
  simp [ofList, indexOf, indexFrom_getElem?]

/-- A name resolves to its first declaration in category order, which is the first entry of the
name in the catalog; a name without declaration resolves to nothing. The index sends names to
positions of the catalog that hold them, so that the entry at such a position always exists.
-/
theorem lookup_is_first_declaration (utilities : List Utility) (name : String)
    : let catalog := ofList utilities
      (catalog.lookup name = none ↔ ∀ entry ∈ utilities, entry.name ≠ name)
      ∧ (∀ entry, catalog.lookup name = some entry ↔ IsFirstNamed utilities name entry)
      ∧ catalog.lookup name = catalog.entries.find? (fun entry => entry.name = name)
      ∧ ∀ position,
          catalog.index[name]? = some position
          → ∃ entry,
              position < catalog.size
              ∧ catalog.entries[position]? = some entry
              ∧ entry.name = name
              ∧ catalog.lookup name = some entry := by
  intro catalog
  refine ⟨lookup_ofList_eq_none_iff, fun entry => lookup_ofList_eq_some_iff_isFirstNamed,
    lookup_ofList utilities name, ?_⟩
  intro position indexed
  have holds := indexed
  rw [index_ofList_getElem?, List.findIdx?_eq_some_iff_getElem] at holds
  rcases holds with ⟨inside, isNamed, -⟩
  have held := List.getElem?_eq_getElem inside
  refine ⟨catalog.entries[position], inside, held, by simpa using isNamed, ?_⟩
  simp only [lookup, indexed, Option.bind_some]
  exact held

/-- A name declared for dates, then twice for strings, resolves to the first of the two. -/
theorem lookup_passes_over_later_category
    : let utilities : List Utility :=
        [⟨"format", .date, "dates"⟩, ⟨"format", .string, "first"⟩, ⟨"merge", .object, "objects"⟩,
          ⟨"format", .string, "second"⟩]
      (ofList utilities).index["format"]? = some 0
      ∧ IsFirstNamed utilities "format" ⟨"format", .string, "first"⟩
      ∧ (ofList utilities).lookup "format" = some ⟨"format", .string, "first"⟩
      ∧ (ofList utilities).lookup "chunk" = none
      ∧ 0 < (ofList utilities).size := by
  intro utilities
  have first : IsFirstNamed utilities "format" ⟨"format", .string, "first"⟩ := {
    named := rfl
    leads := by decide
    earliest := ⟨utilities.take 1, utilities.drop 2, rfl, by decide⟩
  }
  have grouped
      : group utilities
        = [⟨"format", .string, "first"⟩, ⟨"format", .string, "second"⟩,
            ⟨"merge", .object, "objects"⟩, ⟨"format", .date, "dates"⟩] := by
    simp [group, utilities, List.mergeSort, Category.le_iff_rank_le, Category.rank]
  have indexed : (ofList utilities).index["format"]? = some 0 := by
    rw [index_ofList_getElem?]
    simp only [ofList, grouped]
    decide
  obtain ⟨-, resolves, -, positions⟩ := lookup_is_first_declaration utilities "format"
  obtain ⟨entry, inside, -⟩ := positions 0 indexed
  refine ⟨indexed, first, (resolves _).mpr first, ?_, inside⟩
  exact (lookup_is_first_declaration utilities "chunk").1.mpr (by decide)

end HintServer.Catalog
