import HintServer.CommandLine.Launch
import HintServer.Proofs.Catalog.Lookup
import HintServer.Proofs.Json.RoundTrip

/-! The printed catalog spells its entries.
Each entry stands there in catalog order with a line for each of its parts, and whoever reads the
text as JSON gets the parts of every entry back.
-/

namespace HintServer

/-- An entry of a printed catalog, with a line for each of its parts. -/
def Utility.listing (entry : Utility) : String :=
  "\x7b\n    \"name\": " ++ Json.quote entry.name
    ++ ",\n    \"category\": " ++ Json.quote entry.category.label
    ++ ",\n    \"documentation\": " ++ Json.quote entry.documentation
    ++ "\n  \x7d"

/-- The entries of a printed catalog, one below the other between brackets. -/
def Catalog.listing (entries : List Utility) : String :=
  "[\n  " ++ String.intercalate ",\n  " (entries.map Utility.listing) ++ "\n]\n"

theorem Utility.prettyAt_toJson (entry : Utility) : entry.toJson.prettyAt 1 = entry.listing := by
  have lineOne : Json.newLine 1 = "\n  " := by decide
  have lineTwo : Json.newLine 2 = "\n    " := by decide
  have name : Json.quote "name" = "\"name\"" := by decide
  have category : Json.quote "category" = "\"category\"" := by decide
  have documentation : Json.quote "documentation" = "\"documentation\"" := by decide
  rw [toJson, Json.prettyAt, Json.prettyMembers_eq_map, List.map_cons, List.map_cons,
    List.map_singleton, Json.enclose_cons, String.intercalate_cons_cons,
    String.intercalate_cons_cons, String.intercalate_singleton]
  simp only [lineOne, lineTwo, name, category, documentation, Category.toJson, Json.prettyAt,
    Json.compact]
  unfold listing
  -- the quoted parts are kept closed, so that only the text around them is compared
  generalize Json.quote entry.name = name, Json.quote entry.category.label = category,
    Json.quote entry.documentation = documentation
  apply String.toList_inj.mp
  simp

namespace Catalog

/-- A catalog that is not empty is printed as the listing of its entries. -/
theorem pretty_toJson {catalog : Catalog} (nonempty : catalog.entries ≠ [])
    : catalog.toJson.pretty ++ "\n" = listing catalog.entries := by
  have lineZero : Json.newLine 0 = "\n" := by decide
  have lineOne : Json.newLine 1 = "\n  " := by decide
  have gap : "," ++ "\n  " = ",\n  " := by decide
  have printed : Json.prettyAt 1 ∘ Utility.toJson = Utility.listing :=
    funext Utility.prettyAt_toJson
  obtain ⟨entry, others, split⟩ := List.exists_cons_of_ne_nil nonempty
  rw [toJson, Json.pretty, Json.prettyAt, Json.prettyElements_eq_map, List.map_map, printed, split,
    List.map_cons, Json.enclose_cons, lineZero, lineOne, gap]
  unfold listing
  rw [List.map_cons]
  generalize String.intercalate ",\n  " (entry.listing :: others.map Utility.listing) = body
  apply String.toList_inj.mp
  simp

/-- A catalog nests no deeper than its entries, which are objects of texts. -/
theorem textual_toJson (catalog : Catalog) (depth : Nat)
    : Json.Textual (depth + 2) catalog.toJson := by
  refine .arr fun value member => ?_
  obtain ⟨entry, -, rfl⟩ := List.mem_map.mp member
  refine .obj fun part member => ?_
  simp only [List.mem_cons, List.not_mem_nil, or_false] at member
  rcases member with rfl | rfl | rfl <;> exact .str _

end Catalog

namespace CommandLine

theorem chunk_mem_builtin
    : ⟨"chunk", .array, "Splits an array into chunks of the specified size."⟩
      ∈ Catalog.builtin.entries :=
  Catalog.mem_group.mpr (by decide)

theorem catalogText_eq_listing : catalogText = Catalog.listing Catalog.builtin.entries :=
  Catalog.pretty_toJson (List.ne_nil_of_mem chunk_mem_builtin)

/-- Read as JSON, the printed catalog is the array of its entries by name, category and
documentation.
-/
theorem parse?_catalogText
    : Json.parse? catalogText
      = some
          (.arr
            (Catalog.builtin.entries.map fun entry =>
              .obj
                [
                  ("name", .str entry.name),
                  ("category", .str entry.category.label),
                  ("documentation", .str entry.documentation)
                ])) :=
  Json.parse?_pretty (Catalog.textual_toJson _ 125) fun _ => Json.Token.isBlank_of_mem_feed

end CommandLine

end HintServer
