import HintServer.Proofs.Server.History
import Mathlib.Data.List.Basic

/-! The version of an open document.
An edit stores its version with its text, so the version held is that of the last opening or of
the last change with a text, whichever came later; a change without texts is answered, and traced,
with the version that was held before.
-/

namespace HintServer

namespace Call

/-- The version that a client gives the document at an address by opening or changing it. -/
def version? (uri : Uri) : Call → Option Int32
  | .didOpen opened _ version _ => if opened = uri then some version else none
  | .didChange changed version _ => if changed = uri then some version else none
  | _ => none

/-- The version that a call stores at an address: that of an opening or of an edit. -/
def storedVersion? (uri : Uri) : Call → Option Int32
  | .didOpen opened _ version _ => if opened = uri then some version else none
  | call => (call.edit? uri).map Prod.fst

/-- A change of the document at an address that carries no text. -/
def IsBareChange (uri : Uri) (call : Call) : Prop :=
  ∃ version, call = .didChange uri version []

end Call

/-- The trace of a change names the address and the version and size that the document then has. -/
def Document.changeTrace (document : Document) (uri : Uri) : String :=
  "Document changed: " ++ uri.text ++ " (v" ++ toString document.version.toInt ++ ", "
    ++ toString document.byteCount ++ " bytes)"

-----------------------------------------------------------------------------------------
-- One change
-----------------------------------------------------------------------------------------

theorem Document.version_edited (document : Document) (edit : Option (Int32 × String))
    : (document.edited edit).version = (edit.map Prod.fst).getD document.version := by
  cases edit <;> rfl

/-- A change of an open document leaves it with the change's version if there is a text to store
the version with.
-/
theorem Server.version_change (document : Document) (version : Int32) (texts : List String)
    : (Server.change document version texts).version
      = if texts = [] then document.version else version := by
  rw [change_eq_edited, Document.version_edited]
  cases texts with
  | nil => rfl
  | cons text rest =>
      rw [List.getLast?_cons, if_neg (List.cons_ne_nil _ _)]
      rfl

/-- An open document that is changed stays open, and the trace tells what it is then. -/
theorem handle_didChange_of_open (config : Config) {store : Store} {uri : Uri}
    {document : Document} (isOpen : store[uri]? = some document) (version : Int32)
    (texts : List String)
    : let changed := Server.change document version texts
      let after := Server.handle config store (.didChange uri version texts)
      after.1[uri]? = some changed
      ∧ after.2.log = Server.trace config (changed.changeTrace uri) := by
  simp only [Server.handle, isOpen]
  exact ⟨Std.ExtHashMap.getElem?_insert_self, rfl⟩

-----------------------------------------------------------------------------------------
-- Whole runs
-----------------------------------------------------------------------------------------

/-- Calls that do not open an address store versions there by edits only. -/
theorem filterMap_storedVersion? {uri : Uri} {calls : List Call}
    (unopened : ∀ call ∈ calls, call.opens uri = false)
    : calls.filterMap (Call.storedVersion? uri)
      = (calls.filterMap (Call.edit? uri)).map Prod.fst := by
  rw [List.map_filterMap]
  refine List.filterMap_congr fun call member => ?_
  cases call with
  | didOpen opened languageId version text =>
      have other : opened ≠ uri := by simpa [Call.opens] using unopened _ member
      simp [Call.storedVersion?, Call.edit?, other]
  | _ => rfl

/-- The version of the document that a history leaves is the last one stored at its address, since
after the last opening there versions are stored by edits only.
-/
theorem Holds.version {calls : List Call} {uri : Uri} {document : Document}
    (holds : Holds calls uri document)
    : (calls.filterMap (Call.storedVersion? uri)).getLast? = some document.version := by
  obtain ⟨before, languageId, version, text, later, rfl, quiet, -, edit, -⟩ := holds
  have stored : Call.storedVersion? uri (.didOpen uri languageId version text) = some version :=
    if_pos rfl
  rw [List.filterMap_append, List.filterMap_cons_some stored,
    filterMap_storedVersion? fun call member => (quiet call member).2, List.getLast?_append,
    List.getLast?_cons, List.getLast?_map, Option.some_or]
  exact congrArg some ((Option.getD_map Prod.fst (version, text) _).trans
    (congrArg Prod.fst edit).symm)

/-- A call that is no change without texts stores the version that the client gives. -/
theorem Call.storedVersion?_eq_version? {uri : Uri} {call : Call}
    (carries : ¬ call.IsBareChange uri)
    : call.storedVersion? uri = call.version? uri := by
  cases call with
  | didChange changed version texts =>
      simp only [storedVersion?, edit?, version?]
      split
      case isFalse => rfl
      case isTrue same =>
        subst same
        have nonempty : texts ≠ [] := fun empty => carries ⟨version, by rw [empty]⟩
        rw [List.getLast?_eq_some_getLast nonempty]
        rfl
  | _ => rfl

theorem Call.IsBareChange.version?_isSome {uri : Uri} {call : Call}
    (bare : call.IsBareChange uri)
    : (call.version? uri).isSome = true := by
  obtain ⟨version, rfl⟩ := bare
  rw [version?, if_pos rfl]
  rfl

theorem Call.IsBareChange.storedVersion?_eq_none {uri : Uri} {call : Call}
    (bare : call.IsBareChange uri)
    : call.storedVersion? uri = none := by
  obtain ⟨version, rfl⟩ := bare
  simp [storedVersion?, edit?]

/-- Calls that give no version store none. -/
theorem filterMap_storedVersion?_eq_nil {uri : Uri} {calls : List Call}
    (quiet : ∀ call ∈ calls, call.version? uri = none)
    : calls.filterMap (Call.storedVersion? uri) = [] := by
  rw [List.filterMap_eq_nil_iff]
  intro call member
  have carries : ¬ call.IsBareChange uri := by
    intro bare
    have given := bare.version?_isSome
    rw [quiet call member] at given
    contradiction
  rw [Call.storedVersion?_eq_version? carries, quiet call member]

/-- The version held follows the changes that carry a text. After a change of an open document it
is the change's own version, and the trace shows it, exactly when the change carries a text or
repeats the version held before. After a run it is the last version stored at the address; and it is
that of the last call that gives one there, exactly when that call is no change without texts or
repeats the version stored before it.
-/
theorem version_follows_changes_with_text (config : Config) (uri : Uri)
    : (∀ store document version texts,
        store[uri]? = some document
        → ∃ changed,
            (Server.handle config store (.didChange uri version texts)).1[uri]? = some changed
            ∧ (Server.handle config store (.didChange uri version texts)).2.log
              = Server.trace config (changed.changeTrace uri)
            ∧ (changed.version = version ↔ texts ≠ [] ∨ document.version = version)
            ∧ (texts = [] → changed = document))
      ∧ (∀ calls document,
          (Server.run config ∅ calls).1[uri]? = some document
          → (calls.filterMap (Call.storedVersion? uri)).getLast? = some document.version)
      ∧ (∀ before call later version document,
          call.version? uri = some version
          → (∀ other ∈ later, other.version? uri = none)
          → (Server.run config ∅ (before ++ call :: later)).1[uri]? = some document
          → (document.version = version
            ↔ ¬ call.IsBareChange uri
              ∨ (before.filterMap (Call.storedVersion? uri)).getLast? = some version)) := by
  refine ⟨?_, ?_, ?_⟩
  · intro store document version texts isOpen
    obtain ⟨held, traced⟩ := handle_didChange_of_open config isOpen version texts
    refine ⟨_, held, traced, ?_, ?_⟩
    · rw [Server.version_change]
      by_cases empty : texts = [] <;> simp [empty]
    · rintro rfl
      rfl
  · intro calls document held
    exact ((run_getElem?_eq_some_iff_holds config calls uri document).mp held).version
  · intro before call later version document gives quiet held
    have last := ((run_getElem?_eq_some_iff_holds config _ uri document).mp held).version
    by_cases bare : call.IsBareChange uri
    · rw [List.filterMap_append, List.filterMap_cons_none bare.storedVersion?_eq_none,
        filterMap_storedVersion?_eq_nil quiet, List.append_nil] at last
      simp [last, bare]
    · have stored : call.storedVersion? uri = some version :=
        (Call.storedVersion?_eq_version? bare).trans gives
      rw [List.filterMap_append, List.filterMap_cons_some stored,
        filterMap_storedVersion?_eq_nil quiet, List.getLast?_concat] at last
      simp [bare, Option.some.inj last]

/-- A change to version 2 that carries no text leaves a document at version 1, with which it was
opened, and is traced with that version.
-/
theorem bare_change_is_traced_as_old_version
    : let config := Config.ofLanguages true []
      let calls := [.didOpen ⟨"file:///a.js"⟩ "javascript" 1 "chunk"]
      let after :=
        Server.handle config (Server.run config ∅ calls).1 (.didChange ⟨"file:///a.js"⟩ 2 [])
      after.1[(⟨"file:///a.js"⟩ : Uri)]?.map Document.version = some 1
      ∧ after.1[(⟨"file:///a.js"⟩ : Uri)]?.map Document.version ≠ some 2
      ∧ after.2.log = [.trace "Document changed: file:///a.js (v1, 5 bytes)"] := by
  intro config calls after
  have isOpen : (Server.run config ∅ calls).1[(⟨"file:///a.js"⟩ : Uri)]?
      = some (Document.ofText "chunk" "javascript" 1) := by
    simp [calls, Server.run, replay_cons, Server.handle]
  obtain ⟨held, traced⟩ := handle_didChange_of_open config isOpen 2 []
  refine ⟨?_, ?_, traced.trans ?_⟩
  · rw [held]
    rfl
  · rw [held]
    decide
  · decide

/-- A change with two texts gives the document its version, also after a change without texts. -/
theorem version_after_change_with_two_texts
    : let before :=
        [.didOpen ⟨"file:///a.js"⟩ "javascript" 1 "chunk", .didChange ⟨"file:///a.js"⟩ 2 []]
      let change := Call.didChange ⟨"file:///a.js"⟩ 3 ["clamp", "merge"]
      let later := [Call.didClose ⟨"file:///b.js"⟩]
      change.version? ⟨"file:///a.js"⟩ = some 3
      ∧ (∀ other ∈ later, other.version? ⟨"file:///a.js"⟩ = none)
      ∧ ∃ document,
          (Server.run .standard ∅ (before ++ change :: later)).1[(⟨"file:///a.js"⟩ : Uri)]?
            = some document
          ∧ document.version = 3 := by
  intro before change later
  have gives : change.version? ⟨"file:///a.js"⟩ = some 3 := by decide
  have quiet : ∀ other ∈ later, other.version? ⟨"file:///a.js"⟩ = none := by decide
  have carries : ¬ change.IsBareChange ⟨"file:///a.js"⟩ := by
    simp [change, Call.IsBareChange]
  have held : (Server.run .standard ∅ (before ++ change :: later)).1[(⟨"file:///a.js"⟩ : Uri)]?
      = some (Document.ofText "merge" "javascript" 3) := by
    rw [Server.run_getElem?, Std.ExtHashMap.getElem?_empty]
    decide
  have follows := (version_follows_changes_with_text .standard ⟨"file:///a.js"⟩).2.2 before change
    later 3 _ gives quiet held
  exact ⟨gives, quiet, _, held, follows.mpr (Or.inl carries)⟩

end HintServer
