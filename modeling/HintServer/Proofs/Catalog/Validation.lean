import HintServer.Proofs.Catalog.Resolution

/-! Validation accepts exactly the catalogs of distinct names.
What it reports otherwise is the first entry of the catalog whose name stands before it, beside the
entry that the name resolves to.
-/

namespace HintServer.Catalog

/-- The name of the entry at a position stands at an earlier position, too. -/
def RepeatsAt (entries : List Utility) (position : Nat) : Prop :=
  ∃ entry,
    entries[position]? = some entry
    ∧ ∃ earlier ∈ entries.take position, earlier.name = entry.name

/-- The first repeated name of a catalog: an entry whose name stands at one position before it and
nowhere else before it, while no entry before it repeats a name. The earlier entry is the one that
the name resolves to, and its category comes no later.
-/
structure IsFirstRepeat (catalog : Catalog) (earlierPosition position : Nat)
    (earlier entry : Utility) : Prop where
  entryAt : catalog.entries[position]? = some entry
  earlierAt : catalog.entries[earlierPosition]? = some earlier
  before : earlierPosition < position
  sameName : earlier.name = entry.name
  only
    : ∀ other < position,
        (catalog.entries[other]?.map Utility.name) = some entry.name
        → other = earlierPosition
  repeats : RepeatsAt catalog.entries position
  least : ∀ other < position, ¬ RepeatsAt catalog.entries other
  distinct : ((catalog.entries.take position).map Utility.name).Nodup
  resolved : catalog.lookup entry.name = some earlier
  ordered : earlier.category ≤ entry.category

-----------------------------------------------------------------------------------------
-- The scan for a clash
-----------------------------------------------------------------------------------------

/-- What a scan remembers of the entries that it has passed: the category of each name. -/
def Recalls (seen : Std.HashMap String Category) (passed : List Utility) : Prop :=
  ∀ name, seen[name]? = (passed.find? (fun entry => entry.name = name)).map Utility.category

theorem Recalls.empty : Recalls ∅ [] := by
  intro name
  simp

/-- A name that was not seen is remembered with its own category, and no other name changes. -/
theorem Recalls.insert {seen : Std.HashMap String Category} {passed : List Utility}
    {entry : Utility} (recalls : Recalls seen passed) (unseen : seen[entry.name]? = none)
    : Recalls (seen.insert entry.name entry.category) (passed ++ [entry]) := by
  intro name
  rw [Std.HashMap.getElem?_insert, List.find?_append]
  by_cases same : entry.name = name
  · subst same
    have absent : passed.find? (fun other => other.name = entry.name) = none := by
      simpa [recalls entry.name] using unseen
    simp [absent]
  · simp [same, recalls name]

/-- A name is unseen when the passed entries stay distinct with it. -/
theorem Recalls.distinct_append_iff {seen : Std.HashMap String Category} {passed : List Utility}
    {entry : Utility} (recalls : Recalls seen passed)
    (distinct : (passed.map Utility.name).Nodup)
    : ((passed ++ [entry]).map Utility.name).Nodup ↔ seen[entry.name]? = none := by
  rw [recalls entry.name, Option.map_eq_none_iff, List.find?_eq_none, List.map_append,
    List.nodup_append]
  simp [distinct]

/-- The scan finds no clash when all names are distinct, by induction on the entries that are left
to scan.
-/
theorem firstClash?_eq_none_iff {seen : Std.HashMap String Category}
    {passed entries : List Utility} (recalls : Recalls seen passed)
    (distinct : (passed.map Utility.name).Nodup)
    : firstClash? seen entries = none ↔ ((passed ++ entries).map Utility.name).Nodup := by
  induction entries generalizing seen passed with
  | nil => simpa [firstClash?] using distinct
  | cons entry rest ih =>
      have step
          : ((passed ++ [entry]).map Utility.name).Nodup ↔ seen[entry.name]? = none :=
        recalls.distinct_append_iff distinct
      rw [List.append_cons]
      cases held : seen[entry.name]? with
      | none =>
          simp only [firstClash?, held]
          exact ih (recalls.insert held) (step.mpr held)
      | some first =>
          simp only [firstClash?, held, reduceCtorEq, false_iff]
          intro whole
          rw [List.map_append, List.nodup_append] at whole
          simp [step.mp whole.1] at held

/-- A clash that the scan finds is one of an entry with the passed entry of its name, where the
entries before it are distinct, by induction on the entries that are left to scan.
-/
theorem exists_of_firstClash?_eq_some {seen : Std.HashMap String Category}
    {passed entries : List Utility} {clash : DuplicateName} (recalls : Recalls seen passed)
    (distinct : (passed.map Utility.name).Nodup)
    (found : firstClash? seen entries = some clash)
    : ∃ before entry after earlier,
        passed ++ entries = before ++ entry :: after
        ∧ (before.map Utility.name).Nodup
        ∧ before.find? (fun other => other.name = entry.name) = some earlier
        ∧ clash = { name := entry.name, first := earlier.category, second := entry.category } := by
  induction entries generalizing seen passed with
  | nil => contradiction
  | cons entry rest ih =>
      cases held : seen[entry.name]? with
      | none =>
          simp only [firstClash?, held] at found
          have stepped := ih (recalls.insert held)
            ((recalls.distinct_append_iff distinct).mpr held) found
          simpa using stepped
      | some first =>
          simp only [firstClash?, held, Option.some.injEq] at found
          rw [recalls entry.name, Option.map_eq_some_iff] at held
          rcases held with ⟨earlier, isEarlier, rfl⟩
          exact ⟨passed, entry, rest, earlier, rfl, distinct, isEarlier, found.symm⟩

-----------------------------------------------------------------------------------------
-- Catalogs
-----------------------------------------------------------------------------------------

theorem validate_eq_ok_iff_firstClash? {catalog : Catalog}
    : catalog.validate = .ok () ↔ firstClash? ∅ catalog.entries = none := by
  unfold validate
  cases firstClash? ∅ catalog.entries <;> simp

theorem validate_eq_error_iff_firstClash? {catalog : Catalog} {clash : DuplicateName}
    : catalog.validate = .error clash ↔ firstClash? ∅ catalog.entries = some clash := by
  unfold validate
  cases firstClash? ∅ catalog.entries <;> simp

theorem nodup_entries_ofList_iff {utilities : List Utility}
    : ((ofList utilities).entries.map Utility.name).Nodup
      ↔ (utilities.map Utility.name).Nodup :=
  ((group_perm utilities).map Utility.name).nodup_iff

theorem validate_ofList_eq_ok_iff {utilities : List Utility}
    : (ofList utilities).validate = .ok () ↔ (utilities.map Utility.name).Nodup := by
  rw [validate_eq_ok_iff_firstClash?, firstClash?_eq_none_iff Recalls.empty List.nodup_nil,
    List.nil_append, nodup_entries_ofList_iff]

/-- Names are distinct when each position is the one that its name is indexed at, since the index
gives a name its first position.
-/
theorem nodup_iff_indexed {utilities : List Utility}
    : ((ofList utilities).entries.map Utility.name).Nodup
      ↔ ∀ position (entry : Utility),
          (ofList utilities).entries[position]? = some entry
          → (ofList utilities).index[entry.name]? = some position := by
  generalize holds : (ofList utilities).entries = entries
  simp only [index_ofList_getElem?, holds]
  constructor
  · intro distinct position entry held
    rcases List.getElem?_eq_some_iff.mp held with ⟨inside, rfl⟩
    apply List.findIdx?_eq_some_iff_getElem.mpr
    refine ⟨inside, by simp, ?_⟩
    intro other less same
    have sameName : (entries.map Utility.name)[other]? = (entries.map Utility.name)[position]? := by
      simpa [Nat.lt_trans less inside, inside] using same
    exact Nat.ne_of_lt less
      ((List.getElem?_inj (by simpa using Nat.lt_trans less inside) distinct).mp sameName)
  · intro indexed
    apply List.nodup_iff_getElem?_ne_getElem?.mpr
    intro first second less inside sameName
    rw [List.length_map] at inside
    have firstAt := indexed first _ (List.getElem?_eq_getElem (Nat.lt_trans less inside))
    have secondAt := indexed second _ (List.getElem?_eq_getElem inside)
    simp only [List.getElem?_map, List.getElem?_eq_getElem inside,
      List.getElem?_eq_getElem (Nat.lt_trans less inside), Option.map_some,
      Option.some.injEq] at sameName
    rw [sameName, secondAt] at firstAt
    have := Option.some.inj firstAt
    omega

/-- An entry whose name is found among distinct names before it is the first repeat of a catalog:
those before it repeat nothing, and the search that finds the earlier entry is that of the name.
-/
theorem isFirstRepeat_of_split {utilities before after : List Utility} {earlier entry : Utility}
    (split : (ofList utilities).entries = before ++ entry :: after)
    (distinct : (before.map Utility.name).Nodup)
    (found : before.find? (fun other => other.name = entry.name) = some earlier)
    : ∃ earlierPosition,
        IsFirstRepeat (ofList utilities) earlierPosition before.length earlier entry := by
  have sameName : earlier.name = entry.name := by simpa using List.find?_some found
  have member : earlier ∈ before := List.mem_of_find?_eq_some found
  rcases List.mem_iff_getElem?.mp member with ⟨earlierPosition, earlierAt⟩
  have inside : earlierPosition < before.length :=
    (List.getElem?_eq_some_iff.mp earlierAt).1
  have upTo {other : Nat} (less : other < before.length)
      : (ofList utilities).entries[other]? = before[other]? := by
    rw [split, List.getElem?_append_left less]
  have taken : (ofList utilities).entries.take before.length = before := by
    rw [split, List.take_left]
  refine ⟨earlierPosition, ?_⟩
  constructor
  case entryAt => simp [split]
  case earlierAt => rw [upTo inside, earlierAt]
  case before => exact inside
  case sameName => exact sameName
  case only =>
    intro other less named
    rw [upTo less, ← sameName, ← Option.map_some, ← earlierAt, ← List.getElem?_map,
      ← List.getElem?_map] at named
    exact (List.getElem?_inj (by simpa using less) distinct).mp named
  case repeats => exact ⟨entry, by simp [split], earlier, by rwa [taken], sameName⟩
  case least =>
    rintro other less ⟨repeated, repeatedAt, first, isFirst, same⟩
    rw [upTo less] at repeatedAt
    rw [split, List.take_append_of_le_length (Nat.le_of_lt less)] at isFirst
    rcases List.mem_iff_getElem?.mp isFirst with ⟨position, firstAt⟩
    rw [List.getElem?_take] at firstAt
    split at firstAt
    case isTrue still =>
      have sameAt
          : (before.map Utility.name)[position]? = (before.map Utility.name)[other]? := by
        simp [firstAt, repeatedAt, same]
      exact Nat.ne_of_lt still
        ((List.getElem?_inj (by simpa using Nat.lt_trans still less) distinct).mp sameAt)
    case isFalse => contradiction
  case distinct => rwa [taken]
  case resolved =>
    rw [lookup_ofList, ← entries_ofList, split, List.find?_append, found, Option.some_or]
  case ordered =>
    have sorted := pairwise_group utilities
    rw [← entries_ofList, split, List.pairwise_append] at sorted
    exact sorted.2.2 earlier member entry List.mem_cons_self

/-- Validation is exact. A catalog is valid when the names that it was made from are distinct, in
whatever order, and when each of its entries stands where the index sends its name. When it is not
valid, the name and the categories of its first repeat are reported.
-/
theorem validate_is_exact (utilities : List Utility)
    : let catalog := ofList utilities
      (catalog.validate = .ok () ↔ (utilities.map Utility.name).Nodup)
      ∧ (∀ others : List Utility,
          others.Perm utilities
          → ((ofList others).validate = .ok () ↔ catalog.validate = .ok ()))
      ∧ (catalog.validate = .ok ()
          ↔ ∀ position (entry : Utility),
              catalog.entries[position]? = some entry
              → catalog.index[entry.name]? = some position)
      ∧ ∀ clash,
          catalog.validate = .error clash
          → ∃ earlierPosition position earlier entry,
              IsFirstRepeat catalog earlierPosition position earlier entry
              ∧ clash.name = entry.name
              ∧ clash.first = earlier.category
              ∧ clash.second = entry.category := by
  intro catalog
  refine ⟨validate_ofList_eq_ok_iff, ?_, ?_, ?_⟩
  · intro others same
    rw [validate_ofList_eq_ok_iff, validate_ofList_eq_ok_iff]
    exact (same.map Utility.name).nodup_iff
  · rw [validate_ofList_eq_ok_iff, ← nodup_entries_ofList_iff, nodup_iff_indexed]
  · intro clash reported
    rw [validate_eq_error_iff_firstClash?] at reported
    rcases exists_of_firstClash?_eq_some Recalls.empty List.nodup_nil reported with
      ⟨before, entry, after, earlier, split, distinct, found, rfl⟩
    rcases isFirstRepeat_of_split split distinct found with ⟨earlierPosition, first⟩
    exact ⟨earlierPosition, before.length, earlier, entry, first, rfl, rfl, rfl⟩

/-- Of two names declared twice the one whose second entry comes first in the catalog is reported,
though the other is declared before it.
-/
theorem validate_reports_first_repeat
    : let valid : List Utility := [⟨"format", .date, "dates"⟩, ⟨"chunk", .array, "arrays"⟩]
      let invalid : List Utility :=
        valid ++ [⟨"format", .string, "strings"⟩, ⟨"chunk", .array, "more arrays"⟩]
      (ofList valid).entries[0]? = some ⟨"chunk", .array, "arrays"⟩
      ∧ (ofList valid).index["chunk"]? = some 0
      ∧ invalid.reverse.Perm invalid
      ∧ (ofList invalid.reverse).validate ≠ .ok ()
      ∧ (ofList invalid).validate = .error ⟨"chunk", .array, .array⟩
      ∧ ∃ earlierPosition position earlier entry,
          IsFirstRepeat (ofList invalid) earlierPosition position earlier entry
          ∧ "chunk" = entry.name := by
  intro valid invalid
  have held : (ofList valid).entries[0]? = some ⟨"chunk", .array, "arrays"⟩ := by
    simp [ofList, group, valid, List.mergeSort, Category.le_iff_rank_le, Category.rank]
  have indexed := (validate_is_exact valid).2.2.1.mp
    ((validate_is_exact valid).1.mpr (by decide)) 0 _ held
  have grouped
      : (ofList invalid).entries
        = [⟨"format", .string, "strings"⟩, ⟨"chunk", .array, "arrays"⟩,
            ⟨"chunk", .array, "more arrays"⟩, ⟨"format", .date, "dates"⟩] := by
    simp [ofList, group, valid, invalid, List.mergeSort, Category.le_iff_rank_le, Category.rank]
  have reported : (ofList invalid).validate = .error ⟨"chunk", .array, .array⟩ := by
    simp [validate, grouped, firstClash?]
  obtain ⟨accepts, permuted, -, reports⟩ := validate_is_exact invalid
  have reversed := permuted invalid.reverse invalid.reverse_perm
  obtain ⟨earlierPosition, position, earlier, entry, first, named, -, -⟩ := reports _ reported
  refine ⟨held, indexed, invalid.reverse_perm, ?_, reported, earlierPosition, position, earlier,
    entry, first, named⟩
  rw [Ne, reversed, accepts]
  decide

end HintServer.Catalog
