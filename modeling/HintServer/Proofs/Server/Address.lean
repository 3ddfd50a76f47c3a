import HintServer.Server.Handler

/-! What a call does to the document at one address.
The store is read and written address by address, so that a run is seen from an address as a
fold of the effects of its calls there.
-/

namespace HintServer

/-- A document after an edit, when there is one: a new document of the version and the text of the
edit in the language of the old one.
-/
def Document.edited (document : Document) : Option (Int32 × String) → Document
  | none => document
  | some (version, text) => .ofText text document.languageId version

/-- What a change of the document at an address leaves there: its version and the last of its
texts. A change without texts and a call that changes nothing there leave nothing.
-/
def Call.edit? (uri : Uri) : Call → Option (Int32 × String)
  | .didChange changed version texts =>
      if changed = uri then texts.getLast?.map (version, ·) else none
  | _ => none

/-- What a call makes of the document at an address. -/
def Call.effect (uri : Uri) (call : Call) (held : Option Document) : Option Document :=
  match call with
  | .shutdown => none
  | .didOpen opened languageId version text =>
      if opened = uri then some (Document.ofText text languageId version) else held
  | .didClose closed => if closed = uri then none else held
  | call => held.map (·.edited (call.edit? uri))

/-- Of two edits in a row the last one counts, since the language is all that an edit keeps. -/
theorem Document.edited_edited (document : Document) (first second : Option (Int32 × String))
    : (document.edited first).edited second = document.edited (second.or first) := by
  cases first <;> cases second <;> rfl

theorem replay_length {σ α β : Type} (step : σ → α → σ × β) (state : σ) (inputs : List α)
    : (replay step state inputs).2.length = inputs.length := by
  induction inputs generalizing state with
  | nil => rfl
  | cons input rest ih => simp [replay_cons, ih]

namespace Server

/-- Texts sent together count as the last of them, by induction on them: each replaces the text
before it together with its lines.
-/
theorem change_eq_edited (document : Document) (version : Int32) (texts : List String)
    : change document version texts = document.edited (texts.getLast?.map (version, ·)) := by
  induction texts generalizing document with
  | nil => rfl
  | cons text rest ih =>
      have first : document.update text version = document.edited (some (version, text)) := rfl
      rw [change, List.foldl_cons, ← change, ih, first, Document.edited_edited]
      cases rest <;> rfl

/-- A call is seen from an address through its effect there, by cases on the call. -/
theorem handle_getElem? (config : Config) (store : Store) (call : Call) (uri : Uri)
    : (handle config store call).1[uri]? = call.effect uri store[uri]? := by
  cases call with
  | didChange changed version texts =>
      simp only [handle, Call.effect, Call.edit?]
      cases held : store[changed]? with
      | none =>
          by_cases same : changed = uri
          · subst same
            simp [held]
          · simp [same, Document.edited]
      | some document =>
          by_cases same : changed = uri
          · subst same
            simp [held, change_eq_edited]
          · simp [Std.ExtHashMap.getElem?_insert, same, Document.edited]
  | didOpen opened languageId version text =>
      simp [handle, Call.effect, Std.ExtHashMap.getElem?_insert]
  | didClose closed =>
      simp [handle, Call.effect, Std.ExtHashMap.getElem?_erase]
  | shutdown => simp [handle, Call.effect]
  | handshake | initialized | hover | completion =>
      simp [handle, Call.effect, Call.edit?, Document.edited]

theorem run_cons (config : Config) (store : Store) (call : Call) (later : List Call)
    : run config store (call :: later)
      = ((run config (handle config store call).1 later).1,
          (handle config store call).2 :: (run config (handle config store call).1 later).2) :=
  replay_cons _ _ _ _

theorem run_append (config : Config) (store : Store) (before later : List Call)
    : run config store (before ++ later)
      = ((run config (run config store before).1 later).1,
          (run config store before).2 ++ (run config (run config store before).1 later).2) :=
  replay_append _ _ _ _

theorem run_length (config : Config) (store : Store) (calls : List Call)
    : (run config store calls).2.length = calls.length :=
  replay_length _ _ _

/-- The outcome of a call in a run is that of the call on the store before it, since a run goes
on from where it stands.
-/
theorem run_outcome (config : Config) (store : Store) (before : List Call) (call : Call)
    (later : List Call)
    : (run config store (before ++ call :: later)).2[before.length]?
      = some (handle config (run config store before).1 call).2 := by
  have length := run_length config store before
  rw [run_append, run_cons, List.getElem?_append_right (Nat.le_of_eq length), length,
    Nat.sub_self, List.getElem?_cons_zero]

/-- A run is seen from an address through the effects of its calls there, by induction on the
calls.
-/
theorem run_getElem? (config : Config) (store : Store) (calls : List Call) (uri : Uri)
    : (run config store calls).1[uri]?
      = calls.foldl (fun held call => call.effect uri held) store[uri]? := by
  induction calls generalizing store with
  | nil => rfl
  | cons call rest ih =>
      rw [run_cons, List.foldl_cons, ← handle_getElem? config]
      exact ih _

theorem reply_hover (config : Config) (store : Store) (uri : Uri) (position : Position)
    : (handle config store (.hover uri position)).2.reply
      = .hover ((served? config store uri).bind (·.hover? position)) :=
  rfl

theorem reply_completion (config : Config) (store : Store) (uri : Uri) (position : Position)
    : (handle config store (.completion uri position)).2.reply
      = .completion ((served? config store uri).map (·.completions position)) :=
  rfl

end Server

end HintServer
