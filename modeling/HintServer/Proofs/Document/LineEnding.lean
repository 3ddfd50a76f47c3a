import HintServer.Proofs.Document.Line

/-! Answers do not depend on how lines end.
A return more or less before a line feed changes no word and no hover at any position, whichever
lines gain one and whatever returns they had.
-/

namespace HintServer

/-- Contents of lines that are equal up to returns find the same words, by induction on them. -/
theorem Word.onLine?_of_forall₂ {contents contents' : List (List Char)}
    (same : List.Forall₂ Text.EqUpToReturn contents contents') (number column : UInt32)
    (index : Nat)
    : contents'[index]?.bind (Word.onLine? number column)
      = contents[index]?.bind (Word.onLine? number column) := by
  induction same generalizing index with
  | nil => rfl
  | cons first _ ih =>
      cases index with
      | zero => exact Word.onLine?_of_eqUpToReturn first number column
      | succ index => exact ih index

/-- Line ends do not matter. A text and one that gains carriage returns before any of its line
feeds have the same word and the same hover at every position, or both have none: a line that is
longer by a return has a further column, but no word there.
-/
theorem answers_ignore_gained_returns (text text' languageId : String) (version : Int32)
    (gains : Text.GainsReturns text.toList text'.toList) (position : Position)
    : (Document.ofText text' languageId version).wordAt? position
        = (Document.ofText text languageId version).wordAt? position
      ∧ (Document.ofText text' languageId version).hover? position
        = (Document.ofText text languageId version).hover? position := by
  have same
      : (Document.ofText text' languageId version).wordAt? position
        = (Document.ofText text languageId version).wordAt? position := by
    simp only [Document.wordAt?_ofText]
    exact Word.onLine?_of_forall₂ gains.forall₂_splitOn position.line position.character _
  exact ⟨same, Document.hover?_congr same⟩

/-- A line that ends with a return and gains another one keeps its word and has none at the column
past it, while the next line gains none.
-/
theorem line_gains_second_return
    : let text := "id\r\nup\n"
      let text' := "id\r\r\nup\n"
      Text.GainsReturns text.toList text'.toList
      ∧ (Document.ofText text' "javascript" 1).wordAt? ⟨0, 2⟩
        = some ⟨⟨⟨0, 0⟩, ⟨0, 2⟩⟩, "id"⟩
      ∧ (Document.ofText text' "javascript" 1).wordAt? ⟨0, 3⟩ = none
      ∧ (Document.ofText text' "javascript" 1).hover? ⟨1, 1⟩
        = (Document.ofText text "javascript" 1).hover? ⟨1, 1⟩ := by
  intro text text'
  have characters : text.toList = ['i', 'd', '\r', '\n', 'u', 'p', '\n'] := by decide
  have characters' : text'.toList = ['i', 'd', '\r', '\r', '\n', 'u', 'p', '\n'] := by decide
  have gains : Text.GainsReturns text.toList text'.toList := by
    rw [characters, characters']
    exact .keep 'i' (.keep 'd' (.keep '\r' (.gain (.keep 'u' (.keep 'p' (.keep '\n' .nil))))))
  have answers := answers_ignore_gained_returns text text' "javascript" 1 gains
  refine ⟨gains, ?_, ?_, (answers ⟨1, 1⟩).2⟩
  · exact (answers ⟨0, 2⟩).1.trans (by decide)
  · exact (answers ⟨0, 3⟩).1.trans (by decide)

end HintServer
