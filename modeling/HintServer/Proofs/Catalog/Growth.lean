import HintServer.Proofs.Catalog.Resolution
import HintServer.Proofs.Catalog.Validation

/-! Adding utilities to the list that a catalog is made from.
A name resolves to what one of the two parts resolves it to, where the lesser category is preferred
and the first part in a tie, and the whole is valid when no name is declared twice in it, be it in
one part or across both.
-/

namespace HintServer.Catalog

/-- Of what two lists resolve a name to, the entry that their join resolves it to: the one of the
second list only has precedence by a lesser category.
-/
def prefer : Option Utility → Option Utility → Option Utility
  | none, found => found
  | found, none => found
  | some first, some second =>
      if first.category ≤ second.category then some first else some second

theorem prefer_none_left (found : Option Utility) : prefer none found = found :=
  rfl

theorem prefer_none_right (found : Option Utility) : prefer found none = found := by
  cases found <;> rfl

theorem prefer_eq_none_iff {first second : Option Utility}
    : prefer first second = none ↔ first = none ∧ second = none := by
  cases first with
  | none => simp [prefer_none_left]
  | some entry =>
      cases second with
      | none => simp [prefer_none_right]
      | some entry' =>
          rw [prefer]
          split <;> simp

/-- The first entry of a name stays so if none that is added has a lesser category. -/
theorem IsFirstNamed.append_left {utilities added : List Utility} {name : String}
    {entry : Utility} (first : IsFirstNamed utilities name entry)
    (leads : ∀ other ∈ added, other.name = name → entry.category ≤ other.category)
    : IsFirstNamed (utilities ++ added) name entry where
  named := first.named
  leads := by
    intro other member
    exact (List.mem_append.mp member).elim (first.leads other) (leads other)
  earliest := by
    obtain ⟨before, after, rfl, differ⟩ := first.earliest
    exact ⟨before, after ++ added, by simp, differ⟩

/-- The first entry of a name among those that are added leads all if its category is less than
that of each entry of the name before.
-/
theorem IsFirstNamed.append_right {utilities added : List Utility} {name : String}
    {entry : Utility} (first : IsFirstNamed added name entry)
    (precedes : ∀ other ∈ utilities, other.name = name → ¬ other.category ≤ entry.category)
    : IsFirstNamed (utilities ++ added) name entry where
  named := first.named
  leads := by
    intro other member sameName
    rcases List.mem_append.mp member with member | member
    · exact (Category.le_total _ _).resolve_right (precedes other member sameName)
    · exact first.leads other member sameName
  earliest := by
    obtain ⟨before, after, rfl, differ⟩ := first.earliest
    refine ⟨utilities ++ before, after, by simp, ?_⟩
    intro other member sameName sameCategory
    rcases List.mem_append.mp member with member | member
    · exact precedes other member sameName (sameCategory ▸ Nat.le_refl _)
    · exact differ other member sameName sameCategory

/-- A name resolves in joined lists to the preferred one of what the parts resolve it to, by the
cases in which the parts know the name.
-/
theorem lookup_ofList_append (first second : List Utility) (name : String)
    : (ofList (first ++ second)).lookup name
      = prefer ((ofList first).lookup name) ((ofList second).lookup name) := by
  cases inFirst : (ofList first).lookup name with
  | none =>
      have absent := lookup_ofList_eq_none_iff.mp inFirst
      cases inSecond : (ofList second).lookup name with
      | none =>
          have absent' := lookup_ofList_eq_none_iff.mp inSecond
          apply lookup_ofList_eq_none_iff.mpr
          intro entry member
          exact (List.mem_append.mp member).elim (absent entry) (absent' entry)
      | some entry =>
          apply lookup_ofList_eq_some_iff_isFirstNamed.mpr
          apply (lookup_ofList_eq_some_iff_isFirstNamed.mp inSecond).append_right
          exact fun other member sameName => absurd sameName (absent other member)
  | some entry =>
      have leads := lookup_ofList_eq_some_iff_isFirstNamed.mp inFirst
      cases inSecond : (ofList second).lookup name with
      | none =>
          have absent := lookup_ofList_eq_none_iff.mp inSecond
          apply lookup_ofList_eq_some_iff_isFirstNamed.mpr
          apply leads.append_left
          exact fun other member sameName => absurd sameName (absent other member)
      | some entry' =>
          have leads' := lookup_ofList_eq_some_iff_isFirstNamed.mp inSecond
          rw [prefer]
          split <;> apply lookup_ofList_eq_some_iff_isFirstNamed.mpr
          case isTrue notAfter =>
            apply leads.append_left
            intro other member sameName
            exact Category.le_trans notAfter (leads'.leads other member sameName)
          case isFalse after =>
            apply leads'.append_right
            intro other member sameName notAfter
            exact after (Category.le_trans (leads.leads other member sameName) notAfter)

/-- Joined lists are valid when both are and share no name. -/
theorem validate_ofList_append_eq_ok_iff {first second : List Utility}
    : (ofList (first ++ second)).validate = .ok ()
      ↔ (ofList first).validate = .ok ()
        ∧ (ofList second).validate = .ok ()
        ∧ ∀ entry ∈ first, ∀ other ∈ second, entry.name ≠ other.name := by
  simp [validate_ofList_eq_ok_iff, List.nodup_append]

theorem exists_validate_eq_error_iff {catalog : Catalog}
    : (∃ clash, catalog.validate = .error clash) ↔ catalog.validate ≠ .ok () := by
  cases catalog.validate <;> simp

/-- Growing a catalog is predictable. A name that neither of two lists declares resolves to nothing
in both together, a name that one of them declares to what it resolves to there, and a name that
both declare to the entry of the lesser category, which is the first one's in a tie. Both together
are valid when each is and no name is declared in both, so that a clash in one of them never goes
away, and what one of them resolves a name to does not change by entries of other names.
-/
theorem joined_catalog_is_predictable (first second : List Utility)
    : let one := ofList first
      let other := ofList second
      let both := ofList (first ++ second)
      (∀ name,
        (both.lookup name = none ↔ one.lookup name = none ∧ other.lookup name = none)
        ∧ (∀ entry,
            one.lookup name = some entry
            → other.lookup name = none
            → both.lookup name = some entry)
        ∧ (∀ entry,
            one.lookup name = none
            → other.lookup name = some entry
            → both.lookup name = some entry)
        ∧ ∀ entry entry',
            one.lookup name = some entry
            → other.lookup name = some entry'
            → both.lookup name
              = if entry.category ≤ entry'.category then some entry else some entry')
      ∧ (both.validate = .ok ()
          ↔ one.validate = .ok ()
            ∧ other.validate = .ok ()
            ∧ ∀ entry ∈ first, ∀ entry' ∈ second, entry.name ≠ entry'.name)
      ∧ ((∃ clash, one.validate = .error clash) ∨ (∃ clash, other.validate = .error clash)
          → ∃ clash, both.validate = .error clash)
      ∧ (∀ name,
          (∀ entry ∈ second, entry.name ≠ name) → both.lookup name = one.lookup name)
      ∧ ∀ name, (∀ entry ∈ first, entry.name ≠ name) → both.lookup name = other.lookup name := by
  intro one other both
  have joined (name : String) : both.lookup name = prefer (one.lookup name) (other.lookup name) :=
    lookup_ofList_append first second name
  refine ⟨fun name => ⟨?_, ?_, ?_, ?_⟩, validate_ofList_append_eq_ok_iff, ?_, ?_, ?_⟩
  · rw [joined, prefer_eq_none_iff]
  · intro entry found absent
    rw [joined, absent, prefer_none_right, found]
  · intro entry absent found
    rw [joined, absent, prefer_none_left, found]
  · intro entry entry' found found'
    rw [joined, found, found', prefer]
  · simp only [exists_validate_eq_error_iff]
    intro invalid valid
    obtain ⟨first, second, -⟩ := validate_ofList_append_eq_ok_iff.mp valid
    exact invalid.elim (absurd first) (absurd second)
  · intro name absent
    have unknown : other.lookup name = none := lookup_ofList_eq_none_iff.mpr absent
    rw [joined, unknown, prefer_none_right]
  · intro name absent
    have unknown : one.lookup name = none := lookup_ofList_eq_none_iff.mpr absent
    rw [joined, unknown, prefer_none_left]

/-- A string declared later takes a name over from a date and an object of the same category does
not; names of one part stay as they are, and a name that is repeated in one part is still reported
for the whole.
-/
theorem joined_catalog_prefers_string
    : let first : List Utility := [⟨"format", .date, "dates"⟩, ⟨"merge", .object, "earlier"⟩]
      let second : List Utility :=
        [⟨"chunk", .array, "arrays"⟩, ⟨"format", .string, "strings"⟩,
          ⟨"merge", .object, "later"⟩, ⟨"chunk", .array, "repeated"⟩]
      let both := first ++ second
      (ofList first).lookup "format" = some ⟨"format", .date, "dates"⟩
      ∧ (ofList second).lookup "format" = some ⟨"format", .string, "strings"⟩
      ∧ (ofList both).lookup "format" = some ⟨"format", .string, "strings"⟩
      ∧ (ofList first).lookup "merge" = some ⟨"merge", .object, "earlier"⟩
      ∧ (ofList second).lookup "merge" = some ⟨"merge", .object, "later"⟩
      ∧ (ofList both).lookup "merge" = some ⟨"merge", .object, "earlier"⟩
      ∧ (ofList first).lookup "chunk" = none
      ∧ (ofList second).lookup "chunk" = some ⟨"chunk", .array, "arrays"⟩
      ∧ (ofList both).lookup "chunk" = some ⟨"chunk", .array, "arrays"⟩
      ∧ (∀ entry ∈ first, entry.name ≠ "chunk")
      ∧ (ofList both).lookup "chunk" = (ofList second).lookup "chunk"
      ∧ (ofList second).validate = .error ⟨"chunk", .array, .array⟩
      ∧ ∃ clash, (ofList both).validate = .error clash := by
  intro first second both
  have groupedFirst
      : group first = [⟨"merge", .object, "earlier"⟩, ⟨"format", .date, "dates"⟩] := by
    simp [group, first, List.mergeSort, Category.le_iff_rank_le, Category.rank]
  have groupedSecond
      : group second
        = [⟨"format", .string, "strings"⟩, ⟨"chunk", .array, "arrays"⟩,
            ⟨"chunk", .array, "repeated"⟩, ⟨"merge", .object, "later"⟩] := by
    simp [group, second, List.mergeSort, Category.le_iff_rank_le, Category.rank]
  have date : (ofList first).lookup "format" = some ⟨"format", .date, "dates"⟩ := by
    rw [lookup_ofList, groupedFirst]
    rfl
  have string : (ofList second).lookup "format" = some ⟨"format", .string, "strings"⟩ := by
    rw [lookup_ofList, groupedSecond]
    rfl
  have earlier : (ofList first).lookup "merge" = some ⟨"merge", .object, "earlier"⟩ := by
    rw [lookup_ofList, groupedFirst]
    rfl
  have later : (ofList second).lookup "merge" = some ⟨"merge", .object, "later"⟩ := by
    rw [lookup_ofList, groupedSecond]
    rfl
  have unknown : ∀ entry ∈ first, entry.name ≠ "chunk" := by decide
  have absent : (ofList first).lookup "chunk" = none := lookup_ofList_eq_none_iff.mpr unknown
  have array : (ofList second).lookup "chunk" = some ⟨"chunk", .array, "arrays"⟩ := by
    rw [lookup_ofList, groupedSecond]
    rfl
  have invalid : (ofList second).validate = .error ⟨"chunk", .array, .array⟩ := by
    simp [validate, entries_ofList, groupedSecond, firstClash?]
  obtain ⟨lookups, -, reports, -, others⟩ := joined_catalog_is_predictable first second
  obtain ⟨-, -, -, formats⟩ := lookups "format"
  obtain ⟨-, -, -, merges⟩ := lookups "merge"
  obtain ⟨-, -, chunks, -⟩ := lookups "chunk"
  exact ⟨date, string, formats _ _ date string, earlier, later, merges _ _ earlier later, absent,
    array, chunks _ absent array, unknown, others "chunk" unknown, invalid,
    reports (.inr ⟨_, invalid⟩)⟩

end HintServer.Catalog
