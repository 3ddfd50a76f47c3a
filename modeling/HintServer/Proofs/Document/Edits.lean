import HintServer.Document.Basic
import HintServer.Proofs.Text.Joined

/-! Documents after edits.
An edit replaces the text together with the lines kept beside it, so that after any edits the
lines are those of the text, and every answer is that of a document made anew from it.
-/

namespace HintServer

/-- A whole text as a client sends it, on opening or by an edit, with its version. -/
structure Revision where
  text : String
  version : Int32

namespace Document

/-- A document in a language at its first revision. -/
def ofRevision (languageId : String) (revision : Revision) : Document :=
  ofText revision.text languageId revision.version

/-- A document after edits in the order they came. -/
def updates (document : Document) (edits : List Revision) : Document :=
  edits.foldl (fun document edit => document.update edit.text edit.version) document

/-- An edit leaves the document of its revision, since it replaces all but the language. -/
theorem update_ofRevision (languageId : String) (first edit : Revision)
    : (ofRevision languageId first).update edit.text edit.version
      = ofRevision languageId edit :=
  rfl

/-- Edits leave the document of the last revision, by induction on them. -/
theorem updates_ofRevision (languageId : String) (first : Revision) (edits : List Revision)
    : (ofRevision languageId first).updates edits
      = ofRevision languageId (edits.getLastD first) := by
  induction edits generalizing first with
  | nil => rfl
  | cons edit later ih =>
      rw [updates, List.foldl_cons, update_ofRevision, ← updates, ih, List.getLastD_cons]

end Document

/-- The lines kept beside a text always represent it. A document that was opened and edited any
number of times has the text and version of its last revision, its first language, and the one list
of lines that represents this text; and at every position it has the word of a document opened with
that revision.
-/
theorem kept_lines_represent_text (languageId : String) (first : Revision)
    (edits : List Revision)
    : let document := (Document.ofRevision languageId first).updates edits
      let last := edits.getLastD first
      document.text = last.text
      ∧ document.version = last.version
      ∧ document.languageId = languageId
      ∧ (∀ lines, Text.Represents lines document.text.toList ↔ lines = document.lines)
      ∧ ∀ position,
          document.wordAt? position
            = (Document.ofText last.text languageId last.version).wordAt? position := by
  intro document last
  have anew : document = Document.ofText last.text languageId last.version :=
    Document.updates_ofRevision languageId first edits
  rw [anew]
  exact ⟨rfl, rfl, rfl, fun _ => Text.represents_iff, fun _ => rfl⟩

end HintServer
