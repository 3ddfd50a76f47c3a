import HintServer.Catalog.Basic
import Mathlib.Data.List.Basic

/-! Grouping sorts by category and keeps the given order inside each category.
What a catalog does can so be said of the list that it was made from, and depends only on the
sublists of that list for the five categories.
-/

namespace HintServer

namespace Category

theorem le_trans {first second third : Category} (h : first ≤ second) (h' : second ≤ third)
    : first ≤ third :=
  Nat.le_trans h h'

theorem le_total (first second : Category) : first ≤ second ∨ second ≤ first :=
  Nat.le_total first.rank second.rank

theorem le_antisymm {first second : Category} (h : first ≤ second) (h' : second ≤ first)
    : first = second :=
  rank_injective (Nat.le_antisymm h h')

/-- Every category parts the catalog order into the categories before it, none of which it comes
before, and the other ones after it, by cases.
-/
theorem all_eq_append_cons (category : Category)
    : ∃ lower upper,
        all = lower ++ category :: upper
        ∧ (∀ other ∈ lower, ¬ category ≤ other)
        ∧ category ∉ upper := by
  cases category with
  | string => exact ⟨[], [.array, .object, .number, .date], rfl, by decide, by decide⟩
  | array => exact ⟨[.string], [.object, .number, .date], rfl, by decide, by decide⟩
  | object => exact ⟨[.string, .array], [.number, .date], rfl, by decide, by decide⟩
  | number => exact ⟨[.string, .array, .object], [.date], rfl, by decide, by decide⟩
  | date => exact ⟨[.string, .array, .object, .number], [], rfl, by decide, by decide⟩

end Category

namespace Catalog

theorem entries_ofList (utilities : List Utility)
    : (ofList utilities).entries = group utilities :=
  rfl

theorem group_perm (utilities : List Utility) : (group utilities).Perm utilities :=
  List.mergeSort_perm utilities _

theorem pairwise_group (utilities : List Utility)
    : (group utilities).Pairwise (fun first second => first.category ≤ second.category) := by
  have sorted
      : (group utilities).Pairwise
          (fun first second => decide (first.category ≤ second.category)) := by
    apply List.pairwise_mergeSort
    · exact fun _ _ _ => by simpa using Category.le_trans
    · exact fun _ _ => by simpa using Category.le_total _ _
  simpa using sorted

/-- Grouping leaves the entries of a category in their order: they are a sorted sublist of what is
grouped, which a stable sort keeps as a sublist, and there are no others of that category.
-/
theorem filter_group (utilities : List Utility) (category : Category)
    : (group utilities).filter (fun entry => entry.category = category)
      = utilities.filter (fun entry => entry.category = category) := by
  have kept
      : (utilities.filter (fun entry => entry.category = category)).Sublist
          (group utilities) := by
    apply List.sublist_mergeSort
    · exact fun _ _ _ => by simpa using Category.le_trans
    · exact fun _ _ => by simpa using Category.le_total _ _
    · apply List.pairwise_filter.mpr
      apply List.pairwise_of_forall
      simp +contextual [Category.le_iff_rank_le]
    · exact List.filter_sublist
  have same := kept.filter (fun entry => entry.category = category)
  simp only [List.filter_filter, Bool.and_self] at same
  exact (same.eq_of_length ((group_perm utilities).filter _).length_eq.symm).symm

-----------------------------------------------------------------------------------------
-- The sublists of the categories
-----------------------------------------------------------------------------------------

/-- The utilities of one category, in their order. -/
def ofCategory (category : Category) (utilities : List Utility) : List Utility :=
  utilities.filter (fun entry => entry.category = category)

@[simp] theorem ofCategory_append (category : Category) (first second : List Utility)
    : ofCategory category (first ++ second)
      = ofCategory category first ++ ofCategory category second :=
  List.filter_append ..

theorem ofCategory_cons_self (entry : Utility) (rest : List Utility)
    : ofCategory entry.category (entry :: rest)
      = entry :: ofCategory entry.category rest :=
  List.filter_cons_of_pos (by simp)

theorem ofCategory_cons_of_ne {category : Category} {entry : Utility}
    (differs : entry.category ≠ category) (rest : List Utility)
    : ofCategory category (entry :: rest) = ofCategory category rest :=
  List.filter_cons_of_neg (by simpa using differs)

theorem ofCategory_eq_nil_iff {category : Category} {utilities : List Utility}
    : ofCategory category utilities = [] ↔ ∀ entry ∈ utilities, entry.category ≠ category := by
  simp [ofCategory]

theorem ofCategory_group (category : Category) (utilities : List Utility)
    : ofCategory category (group utilities) = ofCategory category utilities :=
  filter_group utilities category

/-- Entries in category order are those of each category in turn, by induction on them: the
categories before that of the first entry have no entries, and it leads those of its own.
-/
theorem flatMap_ofCategory {entries : List Utility}
    (sorted : entries.Pairwise (fun first second => first.category ≤ second.category))
    : Category.all.flatMap (ofCategory · entries) = entries := by
  induction entries with
  | nil => simp [ofCategory]
  | cons entry rest ih =>
      obtain ⟨leads, sorted⟩ := List.pairwise_cons.mp sorted
      obtain ⟨lower, upper, split, notAfter, notLater⟩ := entry.category.all_eq_append_cons
      have others {categories : List Category} (absent : entry.category ∉ categories)
          : categories.flatMap (ofCategory · (entry :: rest))
            = categories.flatMap (ofCategory · rest) := by
        apply List.flatMap_congr
        intro category member
        exact ofCategory_cons_of_ne (fun same => absent (same ▸ member)) rest
      have notEarlier : entry.category ∉ lower :=
        fun before => notAfter _ before (Nat.le_refl _)
      have empty : lower.flatMap (ofCategory · rest) = [] := by
        simp only [List.flatMap_eq_nil_iff, ofCategory_eq_nil_iff]
        rintro _ before other member rfl
        exact notAfter _ before (leads other member)
      have whole := ih sorted
      rw [split, List.flatMap_append, List.flatMap_cons, empty, List.nil_append] at whole
      rw [split, List.flatMap_append, List.flatMap_cons, others notEarlier, others notLater, empty,
        List.nil_append, ofCategory_cons_self, List.cons_append, whole]

/-- Grouping puts the sublists of the categories one after the other. -/
theorem group_eq_flatMap (utilities : List Utility)
    : group utilities = Category.all.flatMap (ofCategory · utilities) := by
  rw [← flatMap_ofCategory (pairwise_group utilities)]
  simp only [ofCategory_group]

/-- A catalog depends on the sublists of the categories only. -/
theorem ofList_congr {utilities others : List Utility}
    (same : ∀ category, ofCategory category others = ofCategory category utilities)
    : ofList others = ofList utilities := by
  simp only [ofList, group_eq_flatMap, same]

-----------------------------------------------------------------------------------------
-- Rearrangements
-----------------------------------------------------------------------------------------

/-- Utilities are rearranged by exchanging neighbours of different categories, one pair after the
other.
-/
inductive Rearranged : List Utility → List Utility → Prop
  | refl (utilities : List Utility) : Rearranged utilities utilities
  | exchange (before after : List Utility) {first second : Utility}
    (differ : first.category ≠ second.category)
    : Rearranged (before ++ first :: second :: after) (before ++ second :: first :: after)
  | trans {first second third : List Utility} (left : Rearranged first second)
    (right : Rearranged second third)
    : Rearranged first third

namespace Rearranged

theorem cons {first second : List Utility} (entry : Utility)
    (rearranged : Rearranged first second)
    : Rearranged (entry :: first) (entry :: second) := by
  induction rearranged with
  | refl utilities => exact refl _
  | exchange before after differ => exact exchange (entry :: before) after differ
  | trans _ _ left right => exact left.trans right

/-- An entry moves behind entries of other categories, by induction on them. -/
theorem move {entry : Utility} {passed : List Utility}
    (differ : ∀ other ∈ passed, other.category ≠ entry.category) (after : List Utility)
    : Rearranged (entry :: (passed ++ after)) (passed ++ entry :: after) := by
  induction passed with
  | nil => exact refl _
  | cons other rest ih =>
      have neighbour : other.category ≠ entry.category := differ other List.mem_cons_self
      have others : ∀ other ∈ rest, other.category ≠ entry.category :=
        fun other member => differ other (List.mem_cons_of_mem _ member)
      exact (exchange [] (rest ++ after) neighbour.symm).trans ((ih others).cons other)

/-- Exchanging neighbours of different categories leaves each category as it is. -/
theorem ofCategory_eq {first second : List Utility} (rearranged : Rearranged first second)
    (category : Category)
    : ofCategory category first = ofCategory category second := by
  induction rearranged with
  | refl utilities => rfl
  | @exchange before after first second differ =>
      rw [ofCategory_append, ofCategory_append]
      by_cases isFirst : first.category = category
      · subst isFirst
        rw [ofCategory_cons_self, ofCategory_cons_of_ne differ.symm,
          ofCategory_cons_of_ne differ.symm, ofCategory_cons_self]
      · simp [ofCategory, List.filter_cons, isFirst]
  | trans _ _ left right => exact left.trans right

end Rearranged

/-- Lists are rearrangements of each other when they agree on each category, by induction on the
first: its first entry is the first of its category in the other list, too, and moves there behind
entries of other categories.
-/
theorem rearranged_iff {first second : List Utility}
    : Rearranged first second
      ↔ ∀ category, ofCategory category first = ofCategory category second := by
  refine ⟨Rearranged.ofCategory_eq, fun same => ?_⟩
  induction first generalizing second with
  | nil =>
      cases second with
      | nil => exact .refl []
      | cons entry rest =>
          have absent := same entry.category
          rw [ofCategory_cons_self] at absent
          contradiction
  | cons entry rest ih =>
      have own := same entry.category
      rw [ofCategory_cons_self, eq_comm, ofCategory, List.filter_eq_cons_iff] at own
      obtain ⟨passed, after, rfl, differ, -, ownAfter⟩ := own
      have differ : ∀ other ∈ passed, other.category ≠ entry.category := by simpa using differ
      refine Rearranged.trans (.cons entry (ih fun category => ?_)) (.move differ after)
      by_cases isOwn : entry.category = category
      · subst isOwn
        rw [ofCategory_append, ofCategory_eq_nil_iff.mpr differ, List.nil_append]
        exact ownAfter.symm
      · have others := same category
        rwa [ofCategory_cons_of_ne isOwn, ofCategory_append, ofCategory_cons_of_ne isOwn,
          ← ofCategory_append] at others

-----------------------------------------------------------------------------------------
-- Catalogs
-----------------------------------------------------------------------------------------

/-- Building a catalog groups stably. Its entries are those that it is made from, in category order
and in the given order inside each category, so that they are the sublists of the categories one
after the other. Two lists that agree on each category, which are those that differ by exchanging
neighbours of different categories, make the same catalog: the same entries, lookups and
validation. A catalog made from the entries of a catalog is that catalog.
-/
theorem ofList_groups_stably (utilities : List Utility)
    : let catalog := ofList utilities
      catalog.entries.Perm utilities
      ∧ catalog.entries.Pairwise (fun first second => first.category ≤ second.category)
      ∧ (∀ category, ofCategory category catalog.entries = ofCategory category utilities)
      ∧ (∀ category, catalog.byCategory category = ofCategory category utilities)
      ∧ Category.all.flatMap catalog.byCategory = catalog.entries
      ∧ (∀ others,
          (∀ category, ofCategory category others = ofCategory category utilities)
          → (ofList others).entries = catalog.entries
            ∧ (∀ name, (ofList others).lookup name = catalog.lookup name)
            ∧ (ofList others).validate = catalog.validate)
      ∧ (∀ others,
          Rearranged others utilities
          ↔ ∀ category, ofCategory category others = ofCategory category utilities)
      ∧ ofList catalog.entries = catalog := by
  intro catalog
  have kept (category : Category)
      : ofCategory category catalog.entries = ofCategory category utilities :=
    ofCategory_group category utilities
  refine ⟨group_perm utilities, pairwise_group utilities, kept, kept,
    flatMap_ofCategory (pairwise_group utilities), ?_, fun others => rearranged_iff,
    ofList_congr kept⟩
  intro others same
  have sameCatalog : ofList others = catalog := ofList_congr same
  exact ⟨congrArg entries sameCatalog, fun name => congrArg (lookup · name) sameCatalog,
    congrArg validate sameCatalog⟩

/-- A date declared before strings may as well be declared after them, and the clash of the two
strings is the same.
-/
theorem ofList_ignores_place_of_date
    : let utilities : List Utility :=
        [⟨"format", .date, "dates"⟩, ⟨"format", .string, "first"⟩,
          ⟨"format", .string, "second"⟩]
      let others : List Utility :=
        [⟨"format", .string, "first"⟩, ⟨"format", .string, "second"⟩,
          ⟨"format", .date, "dates"⟩]
      (∀ category, ofCategory category others = ofCategory category utilities)
      ∧ Rearranged others utilities
      ∧ (ofList others).lookup "format" = (ofList utilities).lookup "format"
      ∧ (ofList others).validate = (ofList utilities).validate
      ∧ (ofList others).validate = .error ⟨"format", .string, .string⟩ := by
  intro utilities others
  have same (category : Category)
      : ofCategory category others = ofCategory category utilities := by
    cases category <;> decide
  obtain ⟨-, -, -, -, -, agrees, rearranged, -⟩ := ofList_groups_stably utilities
  obtain ⟨-, lookups, validates⟩ := agrees others same
  have grouped : (ofList others).entries = others := by
    simp [ofList, group, others, List.mergeSort, Category.le_iff_rank_le, Category.rank]
  refine ⟨same, (rearranged others).mpr same, lookups "format", validates, ?_⟩
  simp [validate, grouped, others, firstClash?]

end Catalog

end HintServer
