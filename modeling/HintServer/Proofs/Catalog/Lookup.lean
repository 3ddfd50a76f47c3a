import HintServer.Catalog.Builtin
import HintServer.Text.Word
import Mathlib.Data.List.Nodup

/-! Looking up a name in a catalog finds its first entry of that name.
The names of the builtin catalog are words, and no two of its entries share one, so that each
entry is found by its name.
-/

namespace HintServer.Catalog

/-- Indexing a list keeps the names that have a position and gives each other name the first
position that holds it, by induction on the list.
-/
theorem indexFrom_getElem? (position : Nat) (index : Std.HashMap String Nat)
    (entries : List Utility) (name : String)
    : (indexFrom position index entries)[name]?
      = index[name]?.or
          ((entries.findIdx? (fun entry => entry.name = name)).map (position + ·)) := by
  induction entries generalizing position index with
  | nil => simp [indexFrom]
  | cons entry rest ih =>
      rw [indexFrom, ih, Std.HashMap.getElem?_insertIfNew, List.findIdx?_cons]
      by_cases same : entry.name = name
      · subst same
        by_cases known : entry.name ∈ index
        · simp [known]
        · simp [known]
      · rw [if_neg (by simp [same]), if_neg (by simpa using same), Option.map_map]
        congr 2
        funext count
        rw [Function.comp_apply]
        omega

/-- Resolving a name through the index of a list finds the first entry of that name. -/
theorem lookup_ofList (utilities : List Utility) (name : String)
    : (ofList utilities).lookup name
      = (group utilities).find? (fun entry => entry.name = name) := by
  rw [lookup, ofList, indexOf, indexFrom_getElem?, Std.HashMap.getElem?_empty, Option.none_or,
    List.find?_eq_bind_findIdx?_getElem?]
  simp

theorem mem_group {utilities : List Utility} {entry : Utility}
    : entry ∈ group utilities ↔ entry ∈ utilities :=
  (List.mergeSort_perm utilities _).mem_iff

/-- In a catalog of distinct names each entry is found by its name, and by no other name. -/
theorem lookup_ofList_eq_some_iff {utilities : List Utility} {name : String} {entry : Utility}
    (distinct : (utilities.map Utility.name).Nodup)
    : (ofList utilities).lookup name = some entry ↔ entry ∈ utilities ∧ entry.name = name := by
  rw [lookup_ofList]
  constructor
  · intro found
    exact ⟨mem_group.mp (List.mem_of_find?_eq_some found), by simpa using List.find?_some found⟩
  · rintro ⟨member, rfl⟩
    cases found : (group utilities).find? (fun other => other.name = entry.name) with
    | none =>
        have absent := List.find?_eq_none.mp found entry (mem_group.mpr member)
        simp at absent
    | some other =>
        have sameName : other.name = entry.name := by simpa using List.find?_some found
        have otherMember := mem_group.mp (List.mem_of_find?_eq_some found)
        exact congrArg some (List.inj_on_of_nodup_map distinct otherMember member sameName)

theorem declared_names_nodup : (Builtin.entries.map Utility.name).Nodup := by
  decide

/-- The declared names are words, by inspection of the tables. -/
theorem declared_names_are_words
    : ∀ entry ∈ Builtin.entries,
        entry.name.toList ≠ [] ∧ ∀ char ∈ entry.name.toList, Text.isWordChar char = true := by
  have checked
      : ∀ entry ∈ Builtin.entries,
          entry.name.toList ≠ [] ∧ entry.name.toList.all Text.isWordChar = true := by
    decide
  intro entry declared
  exact ⟨(checked entry declared).1, List.all_eq_true.mp (checked entry declared).2⟩

/-- The builtin catalog finds each declared utility by its name. -/
theorem builtin_lookup_eq_some_iff {name : String} {entry : Utility}
    : builtin.lookup name = some entry ↔ entry ∈ builtin.entries ∧ entry.name = name := by
  rw [builtin, lookup_ofList_eq_some_iff declared_names_nodup, ofList, mem_group]

theorem builtin_name_is_word {entry : Utility} (member : entry ∈ builtin.entries)
    : entry.name.toList ≠ [] ∧ ∀ char ∈ entry.name.toList, Text.isWordChar char = true :=
  declared_names_are_words entry (mem_group.mp member)

end HintServer.Catalog
