import HintServer.Proofs.Document.Hover
import HintServer.Proofs.Server.Address
import Mathlib.Data.List.Induction

/-! The open documents of a run, read off its history.
A document is described looking backward: by the last call that opened its address, if nothing
has taken it away since, and by the last change after that. Every answer of a run follows.
-/

namespace HintServer

namespace Call

/-- Tells whether a call takes the document at an address away. -/
def discards (uri : Uri) : Call → Bool
  | .shutdown => true
  | .didClose closed => closed = uri
  | _ => false

/-- Tells whether a call opens a document at an address. -/
def opens (uri : Uri) : Call → Bool
  | .didOpen opened _ _ _ => opened = uri
  | _ => false

end Call

/-- A history that opens an address and does not take its document away afterwards. -/
def StaysOpen (calls : List Call) (uri : Uri) : Prop :=
  ∃ before languageId version text later,
    calls = before ++ .didOpen uri languageId version text :: later
    ∧ ∀ call ∈ later, call.discards uri = false

/-- The document that a history leaves at an address: it has the language of the last opening there,
which nothing after it takes away, and the version and text of the last change that has a text, or
those of the opening if there is none; its lines are those of its text.
-/
def Holds (calls : List Call) (uri : Uri) (document : Document) : Prop :=
  ∃ before languageId version text later,
    calls = before ++ .didOpen uri languageId version text :: later
    ∧ (∀ call ∈ later, call.discards uri = false ∧ call.opens uri = false)
    ∧ document.languageId = languageId
    ∧ (document.version, document.text)
      = (later.filterMap (Call.edit? uri)).getLast?.getD (version, text)
    ∧ document.lines = Text.lines document.text.toList

-----------------------------------------------------------------------------------------
-- The last edit
-----------------------------------------------------------------------------------------

/-- A document opened anew is known by its language, its version and text, and the lines of this
text.
-/
theorem Document.eq_ofText_iff {document : Document} {languageId : String}
    {edit : Int32 × String}
    : document = ofText edit.2 languageId edit.1
      ↔ document.languageId = languageId
        ∧ (document.version, document.text) = edit
        ∧ document.lines = Text.lines document.text.toList := by
  constructor
  · rintro rfl
    exact ⟨rfl, rfl, rfl⟩
  · rintro ⟨rfl, rfl, lines⟩
    rw [ofText, ← lines]

theorem Document.edited_ofText (text languageId : String) (version : Int32)
    (edit : Option (Int32 × String))
    : (ofText text languageId version).edited edit
      = ofText (edit.getD (version, text)).2 languageId (edit.getD (version, text)).1 := by
  cases edit <;> rfl

/-- What a history leaves is what the edits after the last opening make of the document opened. -/
theorem holds_iff_edited {calls : List Call} {uri : Uri} {document : Document}
    : Holds calls uri document
      ↔ ∃ before languageId version text later,
          calls = before ++ .didOpen uri languageId version text :: later
          ∧ (∀ call ∈ later, call.discards uri = false ∧ call.opens uri = false)
          ∧ document
            = (Document.ofText text languageId version).edited
                (later.filterMap (Call.edit? uri)).getLast? := by
  simp only [Holds, Document.edited_ofText, Document.eq_ofText_iff]

-----------------------------------------------------------------------------------------
-- One more call
-----------------------------------------------------------------------------------------

/-- A call that leaves a document has opened it or has kept the one before, by cases on the
call.
-/
theorem Call.effect_eq_some_iff {uri : Uri} {call : Call} {held : Option Document}
    {document : Document}
    : call.effect uri held = some document
      ↔ (∃ languageId version text,
            call = .didOpen uri languageId version text
            ∧ Document.ofText text languageId version = document)
        ∨ call.discards uri = false
          ∧ call.opens uri = false
          ∧ ∃ earlier, held = some earlier ∧ earlier.edited (call.edit? uri) = document := by
  cases call with
  | didOpen opened languageId version text =>
      by_cases same : opened = uri
      · subst same
        simp [Call.effect, Call.opens]
      · simp [Call.effect, Call.opens, Call.discards, Call.edit?, Document.edited, same]
  | didClose closed =>
      by_cases same : closed = uri <;>
        simp [Call.effect, Call.opens, Call.discards, Call.edit?, Document.edited, same]
  | shutdown => simp [Call.effect, Call.discards]
  | didChange changed version texts =>
      simp [Call.effect, Call.opens, Call.discards]
  | handshake | initialized | hover | completion =>
      simp [Call.effect, Call.opens, Call.discards]

/-- The last edit of a history with one more call is that call's, if it has one. -/
theorem Document.edited_append_singleton (document : Document) (uri : Uri) (later : List Call)
    (call : Call)
    : document.edited ((later ++ [call]).filterMap (Call.edit? uri)).getLast?
      = (document.edited (later.filterMap (Call.edit? uri)).getLast?).edited
          (call.edit? uri) := by
  rw [Document.edited_edited, List.filterMap_append, List.getLast?_append]
  cases edit : call.edit? uri <;> simp [edit]

/-- One more call replaces the document that a history leaves or edits it, since the calls after
the last opening end with that call.
-/
theorem holds_append_singleton {calls : List Call} {call : Call} {uri : Uri}
    {document : Document}
    : Holds (calls ++ [call]) uri document
      ↔ (∃ languageId version text,
            call = .didOpen uri languageId version text
            ∧ Document.ofText text languageId version = document)
        ∨ call.discards uri = false
          ∧ call.opens uri = false
          ∧ ∃ earlier, Holds calls uri earlier ∧ earlier.edited (call.edit? uri) = document := by
  simp only [holds_iff_edited]
  constructor
  · rintro ⟨before, languageId, version, text, later, split, quiet, rfl⟩
    cases later using List.reverseRecOn with
    | nil =>
        obtain ⟨-, same⟩ := List.append_inj' split rfl
        exact Or.inl ⟨languageId, version, text, List.singleton_inj.mp same, rfl⟩
    | append_singleton later last =>
        rw [← List.cons_append, ← List.append_assoc] at split
        obtain ⟨rfl, same⟩ := List.append_inj' split rfl
        obtain rfl := List.singleton_inj.mp same
        have lastQuiet := quiet call (by simp)
        refine Or.inr ⟨lastQuiet.1, lastQuiet.2, _, ⟨before, languageId, version, text, later, rfl,
          fun other member => quiet other (List.mem_append_left _ member), rfl⟩, ?_⟩
        exact (Document.edited_append_singleton _ uri later call).symm
  · rintro (⟨languageId, version, text, rfl, rfl⟩ | ⟨kept, unopened, earlier, holds, rfl⟩)
    · exact ⟨calls, languageId, version, text, [], rfl, by simp, rfl⟩
    · obtain ⟨before, languageId, version, text, later, rfl, quiet, rfl⟩ := holds
      refine ⟨before, languageId, version, text, later ++ [call], by simp, ?_, ?_⟩
      · intro other member
        rcases List.mem_append.mp member with member | member
        · exact quiet other member
        · obtain rfl := List.mem_singleton.mp member
          exact ⟨kept, unopened⟩
      · exact (Document.edited_append_singleton _ uri later call).symm

-----------------------------------------------------------------------------------------
-- Whole histories
-----------------------------------------------------------------------------------------

/-- The store after a run holds what its history leaves, by induction from the last call. -/
theorem run_getElem?_eq_some_iff_holds (config : Config) (calls : List Call) (uri : Uri)
    (document : Document)
    : (Server.run config ∅ calls).1[uri]? = some document ↔ Holds calls uri document := by
  rw [Server.run_getElem?, Std.ExtHashMap.getElem?_empty]
  induction calls using List.reverseRecOn generalizing document with
  | nil => simp [Holds]
  | append_singleton calls call ih =>
      rw [List.foldl_append, List.foldl_cons, List.foldl_nil, Call.effect_eq_some_iff,
        holds_append_singleton]
      simp only [ih]

/-- A history that stays open leaves a document, by induction on the calls after an opening: the
last of them has opened the address again or has kept what was there.
-/
theorem staysOpen_iff_exists_holds {calls : List Call} {uri : Uri}
    : StaysOpen calls uri ↔ ∃ document, Holds calls uri document := by
  constructor
  · rintro ⟨before, languageId, version, text, later, rfl, kept⟩
    induction later using List.reverseRecOn with
    | nil =>
        exact ⟨.ofText text languageId version, before, languageId, version, text, [], rfl, by simp,
          rfl, rfl, rfl⟩
    | append_singleton later call ih =>
        obtain ⟨earlier, holds⟩ := ih fun other member => kept other (by simp [member])
        rw [← List.cons_append, ← List.append_assoc]
        simp only [holds_append_singleton]
        by_cases opened : call.opens uri = true
        · cases call <;> simp_all [Call.opens]
        · exact ⟨_, Or.inr ⟨kept call (by simp), by simpa using opened, earlier, holds, rfl⟩⟩
  · rintro ⟨document, before, languageId, version, text, later, rfl, quiet, -⟩
    exact ⟨before, languageId, version, text, later, rfl,
      fun call member => (quiet call member).1⟩

/-- What a history leaves is a document made anew from its text, since an edit makes one. -/
theorem Holds.eq_ofText {calls : List Call} {uri : Uri} {document : Document}
    (holds : Holds calls uri document)
    : Document.ofText document.text document.languageId document.version = document := by
  obtain ⟨-, -, -, -, -, -, -, -, -, lines⟩ := holds
  rw [Document.ofText, ← lines]

theorem served?_eq_some_iff {config : Config} {store : Store} {uri : Uri} {document : Document}
    : Server.served? config store uri = some document
      ↔ store[uri]? = some document ∧ document.languageId ∈ config.languages := by
  simp [Server.served?, Config.supports, Option.filter_eq_some_iff]

theorem handle_didChange_of_not_mem {config : Config} {store : Store} {uri : Uri}
    (absent : uri ∉ store) (version : Int32) (texts : List String)
    : Server.handle config store (.didChange uri version texts)
      = (store, { reply := .silent, log := [] }) := by
  simp [Server.handle, Std.ExtHashMap.getElem?_eq_none absent]

/-- A change of a document that is not open leaves the rest of a run as it was, by splitting the
run there.
-/
theorem run_didChange_of_not_mem {config : Config} {uri : Uri} {before : List Call}
    (absent : uri ∉ (Server.run config ∅ before).1) (version : Int32) (texts : List String)
    (later : List Call)
    : let full := Server.run config ∅ (before ++ .didChange uri version texts :: later)
      full.1 = (Server.run config ∅ (before ++ later)).1
      ∧ full.2[before.length]? = some { reply := .silent, log := [] }
      ∧ full.2.eraseIdx before.length = (Server.run config ∅ (before ++ later)).2 := by
  have length := Server.run_length config ∅ before
  refine ⟨?_, ?_, ?_⟩
  · rw [Server.run_append, Server.run_cons, handle_didChange_of_not_mem absent,
      Server.run_append]
  · rw [Server.run_outcome, handle_didChange_of_not_mem absent]
  · rw [Server.run_append, Server.run_cons, handle_didChange_of_not_mem absent,
      Server.run_append, List.eraseIdx_append_of_length_le (Nat.le_of_eq length), length,
      Nat.sub_self, List.eraseIdx_cons_zero]

/-- A document is served in a run when its history holds it in a language of the settings. -/
theorem served?_run_eq_some_iff {config : Config} {calls : List Call} {uri : Uri}
    {document : Document}
    : Server.served? config (Server.run config ∅ calls).1 uri = some document
      ↔ Holds calls uri document ∧ document.languageId ∈ config.languages := by
  rw [served?_eq_some_iff, run_getElem?_eq_some_iff_holds]

/-- The runs of a server agree with their histories. A document is open when it was opened and
not taken away since, and it is the one that its history holds; a change of an address that is
not open is as good as left out; and every query is answered from a document made anew from
what the history before it holds.
-/
theorem run_agrees_with_history (config : Config) (uri : Uri)
    : (∀ calls, uri ∈ (Server.run config ∅ calls).1 ↔ StaysOpen calls uri)
      ∧ (∀ calls document,
          (Server.run config ∅ calls).1[uri]? = some document ↔ Holds calls uri document)
      ∧ (∀ before version texts later,
          uri ∉ (Server.run config ∅ before).1
          → let full := Server.run config ∅ (before ++ .didChange uri version texts :: later)
            full.1 = (Server.run config ∅ (before ++ later)).1
            ∧ full.2[before.length]? = some { reply := .silent, log := [] }
            ∧ full.2.eraseIdx before.length = (Server.run config ∅ (before ++ later)).2)
      ∧ (∀ before position later,
          ∃ outcome found,
            (Server.run config ∅ (before ++ .hover uri position :: later)).2[before.length]?
              = some outcome
            ∧ outcome.reply = .hover found
            ∧ ∀ hover,
                found = some hover
                ↔ ∃ document,
                    Holds before uri document
                    ∧ document.languageId ∈ config.languages
                    ∧ (Document.ofText document.text document.languageId
                          document.version).hover? position
                      = some hover)
      ∧ (∀ before position later,
          ∃ outcome found,
            (Server.run config ∅
                (before ++ .completion uri position :: later)).2[before.length]?
              = some outcome
            ∧ outcome.reply = .completion found
            ∧ ∀ items,
                found = some items
                ↔ ∃ document,
                    Holds before uri document
                    ∧ document.languageId ∈ config.languages
                    ∧ (Document.ofText document.text document.languageId
                          document.version).completions position
                      = items) := by
  refine ⟨?_, (run_getElem?_eq_some_iff_holds config · uri), ?_, ?_, ?_⟩
  · intro calls
    rw [Std.ExtHashMap.mem_iff_isSome_getElem?, Option.isSome_iff_exists,
      staysOpen_iff_exists_holds]
    simp only [run_getElem?_eq_some_iff_holds]
  · intro before version texts later absent
    exact run_didChange_of_not_mem absent version texts later
  · intro before position later
    refine ⟨_, _, Server.run_outcome config ∅ before _ later, Server.reply_hover _ _ _ _, ?_⟩
    intro hover
    simp only [Option.bind_eq_some_iff, served?_run_eq_some_iff, and_assoc]
    refine exists_congr fun document => and_congr_right fun holds => ?_
    rw [holds.eq_ofText]
  · intro before position later
    refine ⟨_, _, Server.run_outcome config ∅ before _ later,
      Server.reply_completion _ _ _ _, ?_⟩
    intro items
    simp only [Option.map_eq_some_iff, served?_run_eq_some_iff, and_assoc]
    refine exists_congr fun document => and_congr_right fun holds => ?_
    rw [holds.eq_ofText]

/-- A change that follows the close of its document leaves no trace in the one opened next. That one
has the last of two texts sent together, also after a change without texts, and answers from it.
-/
theorem reopened_document_has_last_text
    : let uri : Uri := ⟨"file:///a.js"⟩
      let closed := [Call.didOpen uri "javascript" 1 "chunk", .didClose uri]
      let ignored := Call.didChange uri 2 ["clamp"]
      let later :=
        [
          Call.didOpen uri "typescript" 3 "merge",
          .didChange uri 4 ["clamp", "chunk(xs)"],
          .didChange uri 5 []
        ]
      let calls := closed ++ ignored :: later
      uri ∉ (Server.run .standard ∅ closed).1
      ∧ (Server.run .standard ∅ calls).1 = (Server.run .standard ∅ (closed ++ later)).1
      ∧ (∃ document,
          (Server.run .standard ∅ calls).1[uri]? = some document
          ∧ document.languageId = "typescript"
          ∧ document.version = 4
          ∧ document.text = "chunk(xs)")
      ∧ ∃ outcome,
          (Server.run .standard ∅ (calls ++ [.hover uri ⟨0, 3⟩])).2[calls.length]?
            = some outcome
          ∧ outcome.reply
            = .hover
                (some
                  {
                    documentation := "Splits an array into chunks of the specified size.",
                    range := ⟨⟨0, 0⟩, ⟨0, 5⟩⟩
                  }) := by
  intro uri closed ignored later calls
  obtain ⟨-, held, unopened, hovers, -⟩ := run_agrees_with_history .standard uri
  have absent : uri ∉ (Server.run .standard ∅ closed).1 := by
    simp [closed, Server.run, replay_cons, Server.handle]
  have holds : Holds calls uri (Document.ofText "chunk(xs)" "typescript" 4) :=
    ⟨closed ++ [ignored], "typescript", 3, "merge", later.tail, rfl, by decide, rfl, by decide, rfl⟩
  have shown : (Document.ofText "chunk(xs)" "typescript" 4).hover? ⟨0, 3⟩
      = some
          {
            documentation := "Splits an array into chunks of the specified size.",
            range := ⟨⟨0, 0⟩, ⟨0, 5⟩⟩
          } :=
    Document.hover?_eq_some_iff.mpr
      ⟨⟨⟨⟨0, 0⟩, ⟨0, 5⟩⟩, "chunk"⟩, by decide,
        ⟨"chunk", .array, "Splits an array into chunks of the specified size."⟩,
        Catalog.builtin_lookup_eq_some_iff.mpr ⟨Catalog.mem_group.mpr (by decide), rfl⟩, rfl⟩
  obtain ⟨outcome, found, here, reply, answers⟩ := hovers calls ⟨0, 3⟩ []
  obtain rfl := (answers _).mpr ⟨_, holds, by decide, shown⟩
  exact ⟨absent, (unopened closed 2 ["clamp"] later absent).1,
    ⟨_, (held calls _).mpr holds, rfl, rfl, rfl⟩, outcome, here, reply⟩

end HintServer
