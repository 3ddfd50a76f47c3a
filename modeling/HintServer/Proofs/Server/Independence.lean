import HintServer.Proofs.Server.Address

/-! Documents do not interfere.
A call about one address reads and writes the document there and no other, so that two runs about
different addresses can be merged in any order: each call is answered as in its own run, and the
documents left at its addresses are those of its own run.
-/

namespace HintServer

/-- A merge of two lists that keeps the order of each. -/
inductive Interleaves {α : Type} : List α → List α → List α → Prop where
  | nil : Interleaves [] [] []
  | left {first second merged : List α} (item : α)
    : Interleaves first second merged → Interleaves (item :: first) second (item :: merged)
  | right {first second merged : List α} (item : α)
    : Interleaves first second merged → Interleaves first (item :: second) (item :: merged)

theorem Interleaves.symm {α : Type} {first second merged : List α}
    (merge : Interleaves first second merged)
    : Interleaves second first merged := by
  induction merge with
  | nil => exact .nil
  | left item _ ih => exact ih.right item
  | right item _ ih => exact ih.left item

/-- The address that a call is about; a call about the whole session has none. -/
def Call.uri? : Call → Option Uri
  | .handshake | .initialized | .shutdown => none
  | .didOpen uri _ _ _ | .didChange uri _ _ | .didClose uri => some uri
  | .hover uri _ | .completion uri _ => some uri

/-- An address that some of the calls are about. -/
def Mentions (calls : List Call) (uri : Uri) : Prop :=
  ∃ call ∈ calls, call.uri? = some uri

theorem mentions_cons_iff {call : Call} {rest : List Call} {uri : Uri}
    : Mentions (call :: rest) uri ↔ call.uri? = some uri ∨ Mentions rest uri := by
  simp [Mentions]

-----------------------------------------------------------------------------------------
-- One call
-----------------------------------------------------------------------------------------

/-- A call about one address has no effect at another, by cases on the call. -/
theorem Call.effect_of_elsewhere {call : Call} {uri : Uri} (about : call.uri?.isSome = true)
    (elsewhere : call.uri? ≠ some uri) (held : Option Document)
    : call.effect uri held = held := by
  have unedited : held.map (·.edited none) = held := by cases held <;> rfl
  cases call with
  | handshake | initialized | shutdown => contradiction
  | didOpen opened languageId version text =>
      have other : opened ≠ uri := fun same => elsewhere (congrArg some same)
      simp [effect, other]
  | didChange changed version texts =>
      have other : changed ≠ uri := fun same => elsewhere (congrArg some same)
      simp [effect, edit?, other, unedited]
  | didClose closed =>
      have other : closed ≠ uri := fun same => elsewhere (congrArg some same)
      simp [effect, other]
  | hover | completion => exact unedited

namespace Server

/-- The outcome of a call about an address depends on the document there only, by cases on the
call.
-/
theorem handle_outcome_congr (config : Config) {store store' : Store} {call : Call} {uri : Uri}
    (about : call.uri? = some uri) (same : store[uri]? = store'[uri]?)
    : (handle config store call).2 = (handle config store' call).2 := by
  cases call with
  | handshake | initialized | shutdown | didOpen | didClose => rfl
  | didChange changed version texts =>
      obtain rfl : changed = uri := Option.some.inj about
      simp only [handle, same]
      cases store'[changed]? <;> rfl
  | hover asked position =>
      obtain rfl : asked = uri := Option.some.inj about
      simp only [handle, served?, same]
  | completion asked position =>
      obtain rfl : asked = uri := Option.some.inj about
      simp only [handle, served?, same]

-----------------------------------------------------------------------------------------
-- Stores that agree
-----------------------------------------------------------------------------------------

/-- Two stores hold the same documents at the addresses of some calls. -/
structure AgreeOn (calls : List Call) (store store' : Store) : Prop where
  same : ∀ uri, Mentions calls uri → store[uri]? = store'[uri]?

theorem AgreeOn.refl (calls : List Call) (store : Store) : AgreeOn calls store store :=
  ⟨fun _ _ => rfl⟩

/-- The first of the calls has the same outcome on both stores. -/
theorem AgreeOn.outcome (config : Config) {call : Call} {rest : List Call}
    {store store' : Store} (agree : AgreeOn (call :: rest) store store')
    (about : call.uri?.isSome = true)
    : (handle config store call).2 = (handle config store' call).2 := by
  obtain ⟨uri, about⟩ := Option.isSome_iff_exists.mp about
  exact handle_outcome_congr config about (agree.same uri (mentions_cons_iff.mpr (Or.inl about)))

/-- After a call on both, the stores still agree for the calls that follow. -/
theorem AgreeOn.step (config : Config) {call : Call} {rest : List Call}
    {store store' : Store} (agree : AgreeOn (call :: rest) store store')
    : AgreeOn rest (handle config store call).1 (handle config store' call).1 := by
  refine ⟨fun uri mentioned => ?_⟩
  rw [handle_getElem?, handle_getElem?, agree.same uri (mentions_cons_iff.mpr (Or.inr mentioned))]

/-- A call about another address on one store only does not matter. -/
theorem AgreeOn.frame (config : Config) {call : Call} {calls : List Call}
    {store store' : Store} (agree : AgreeOn calls store store')
    (about : call.uri?.isSome = true)
    (elsewhere : ∀ uri, Mentions calls uri → call.uri? ≠ some uri)
    : AgreeOn calls (handle config store call).1 store' := by
  refine ⟨fun uri mentioned => ?_⟩
  rw [handle_getElem?, Call.effect_of_elsewhere about (elsewhere uri mentioned),
    agree.same uri mentioned]

-----------------------------------------------------------------------------------------
-- Merged runs
-----------------------------------------------------------------------------------------

/-- Seen from an address that the second calls are not about, a merge has the effects of the first
calls, by induction on the merge.
-/
theorem foldl_effect_of_interleaves {first second merged : List Call} {uri : Uri}
    (merge : Interleaves first second merged)
    (documents : ∀ call ∈ second, call.uri?.isSome = true)
    (elsewhere : ¬ Mentions second uri) (held : Option Document)
    : merged.foldl (fun held call => call.effect uri held) held
      = first.foldl (fun held call => call.effect uri held) held := by
  induction merge generalizing held with
  | nil => rfl
  | left call _ ih => exact ih documents elsewhere _
  | right call _ ih =>
      rw [mentions_cons_iff, not_or] at elsewhere
      rw [List.foldl_cons,
        Call.effect_of_elsewhere (documents call List.mem_cons_self) elsewhere.1]
      exact ih (fun other member => documents other (List.mem_cons_of_mem _ member))
        elsewhere.2 held

/-- The documents at addresses that the second calls are not about are those of the first calls
alone.
-/
theorem run_getElem?_of_interleaves (config : Config) (store : Store)
    {first second merged : List Call} (merge : Interleaves first second merged)
    (documents : ∀ call ∈ second, call.uri?.isSome = true) {uri : Uri}
    (elsewhere : ¬ Mentions second uri)
    : (run config store merged).1[uri]? = (run config store first).1[uri]? := by
  rw [run_getElem?, run_getElem?, foldl_effect_of_interleaves merge documents elsewhere]

/-- Calls about other addresses leave a document alone: such a run is a merge with no calls. -/
theorem run_getElem?_of_not_mentions (config : Config) (store : Store) {calls : List Call}
    (documents : ∀ call ∈ calls, call.uri?.isSome = true) {uri : Uri}
    (elsewhere : ¬ Mentions calls uri)
    : (run config store calls).1[uri]? = store[uri]? := by
  have merge : Interleaves [] calls calls := by
    clear documents elsewhere
    induction calls with
    | nil => exact .nil
    | cons call rest ih => exact ih.right call
  exact run_getElem?_of_interleaves config store merge documents elsewhere

/-- Calls about disjoint addresses have the same outcomes in a merge as in their own runs, by
induction on the merge for all stores that agree at those addresses.
-/
theorem outcomes_of_interleaves (config : Config) {first second merged : List Call}
    (merge : Interleaves first second merged)
    (documents : ∀ call ∈ first ++ second, call.uri?.isSome = true)
    (apart : ∀ uri, Mentions first uri → ¬ Mentions second uri)
    {store firstStore secondStore : Store}
    (onFirst : AgreeOn first store firstStore) (onSecond : AgreeOn second store secondStore)
    : Interleaves (first.zip (run config firstStore first).2)
        (second.zip (run config secondStore second).2)
        (merged.zip (run config store merged).2) := by
  induction merge generalizing store firstStore secondStore with
  | nil => exact .nil
  | @left first second merged call _ ih =>
      have about := documents call List.mem_cons_self
      have elsewhere : ∀ uri, Mentions second uri → call.uri? ≠ some uri :=
        fun uri mentioned same =>
          apart uri (mentions_cons_iff.mpr (Or.inl same)) mentioned
      simp only [run_cons, List.zip_cons_cons, onFirst.outcome config about]
      refine (ih ?_ ?_ (onFirst.step config) (onSecond.frame config about elsewhere)).left _
      · intro other member
        exact documents other (List.mem_cons_of_mem _ member)
      · intro uri mentioned
        exact apart uri (mentions_cons_iff.mpr (Or.inr mentioned))
  | @right first second merged call _ ih =>
      have about := documents call (by simp)
      have elsewhere : ∀ uri, Mentions first uri → call.uri? ≠ some uri :=
        fun uri mentioned same =>
          apart uri mentioned (mentions_cons_iff.mpr (Or.inl same))
      simp only [run_cons, List.zip_cons_cons, onSecond.outcome config about]
      refine (ih ?_ ?_ (onFirst.frame config about elsewhere) (onSecond.step config)).right _
      · intro other member
        refine documents other ?_
        rcases List.mem_append.mp member with member | member
        · exact List.mem_append_left _ member
        · exact List.mem_append_right _ (List.mem_cons_of_mem _ member)
      · intro uri mentioned later
        exact apart uri mentioned (mentions_cons_iff.mpr (Or.inr later))

end Server

/-- Calls about the documents of disjoint addresses do not interfere, in any merge and from any
store. Each call has the reply and the log of its own run; the documents at the addresses of
either side are those of its own run, and all others those of the start; and so all merges end in
the same store.
-/
theorem interleaved_runs_are_independent (config : Config) (store : Store)
    {first second : List Call}
    (documents : ∀ call ∈ first ++ second, call.uri?.isSome = true)
    (apart : ∀ uri, Mentions first uri → ¬ Mentions second uri)
    : (∀ merged,
        Interleaves first second merged
        → Interleaves (first.zip (Server.run config store first).2)
            (second.zip (Server.run config store second).2)
            (merged.zip (Server.run config store merged).2)
          ∧ (∀ uri,
              Mentions first uri
              → (Server.run config store merged).1[uri]?
                = (Server.run config store first).1[uri]?)
          ∧ (∀ uri,
              Mentions second uri
              → (Server.run config store merged).1[uri]?
                = (Server.run config store second).1[uri]?)
          ∧ ∀ uri,
              ¬ Mentions first uri
              → ¬ Mentions second uri
              → (Server.run config store merged).1[uri]? = store[uri]?)
      ∧ ∀ merged merged',
          Interleaves first second merged
          → Interleaves first second merged'
          → (Server.run config store merged).1 = (Server.run config store merged').1 := by
  have firstDocuments : ∀ call ∈ first, call.uri?.isSome = true :=
    fun call member => documents call (List.mem_append_left _ member)
  have secondDocuments : ∀ call ∈ second, call.uri?.isSome = true :=
    fun call member => documents call (List.mem_append_right _ member)
  have onFirst {merged : List Call} (merge : Interleaves first second merged) {uri : Uri}
      (elsewhere : ¬ Mentions second uri) :=
    Server.run_getElem?_of_interleaves config store merge secondDocuments elsewhere
  have onSecond {merged : List Call} (merge : Interleaves first second merged) {uri : Uri}
      (elsewhere : ¬ Mentions first uri) :=
    Server.run_getElem?_of_interleaves config store merge.symm firstDocuments elsewhere
  constructor
  · intro merged merge
    refine ⟨?_, ?_, ?_, ?_⟩
    · exact Server.outcomes_of_interleaves config merge documents apart (.refl first store)
        (.refl second store)
    · intro uri mentioned
      exact onFirst merge (apart uri mentioned)
    · intro uri mentioned
      exact onSecond merge (fun other => apart uri other mentioned)
    · intro uri notFirst notSecond
      rw [onFirst merge notSecond,
        Server.run_getElem?_of_not_mentions config store firstDocuments notFirst]
  · intro merged merged' merge merge'
    refine Std.ExtHashMap.ext_getElem? fun uri => ?_
    by_cases mentioned : Mentions second uri
    · have notFirst : ¬ Mentions first uri := fun other => apart uri other mentioned
      rw [onSecond merge notFirst, onSecond merge' notFirst]
    · rw [onFirst merge mentioned, onFirst merge' mentioned]

/-- A close of one document between the calls about another does not show in them. -/
theorem close_between_calls_of_another_document
    : let first : List Call :=
        [.didOpen ⟨"file:///a.js"⟩ "javascript" 1 "chunk", .hover ⟨"file:///a.js"⟩ ⟨0, 0⟩]
      let second : List Call := [.didClose ⟨"file:///b.js"⟩]
      let merged : List Call :=
        [.didOpen ⟨"file:///a.js"⟩ "javascript" 1 "chunk", .didClose ⟨"file:///b.js"⟩,
          .hover ⟨"file:///a.js"⟩ ⟨0, 0⟩]
      (∀ call ∈ first ++ second, call.uri?.isSome = true)
      ∧ (∀ uri, Mentions first uri → ¬ Mentions second uri)
      ∧ Interleaves first second merged
      ∧ (Server.run .standard ∅ merged).1[(⟨"file:///a.js"⟩ : Uri)]?
        = some (Document.ofText "chunk" "javascript" 1) := by
  intro first second merged
  have documents : ∀ call ∈ first ++ second, call.uri?.isSome = true := by decide
  have apart : ∀ uri, Mentions first uri → ¬ Mentions second uri := by
    have elsewhere : ∀ call ∈ first, call.uri? ≠ some ⟨"file:///b.js"⟩ := by decide
    rintro uri ⟨call, member, about⟩ ⟨other, otherMember, otherAbout⟩
    obtain rfl := List.mem_singleton.mp otherMember
    exact elsewhere call member (about.trans otherAbout.symm)
  have merge : Interleaves first second merged := ((Interleaves.nil.left _).right _).left _
  refine ⟨documents, apart, merge, ?_⟩
  have kept := ((interleaved_runs_are_independent .standard ∅ documents apart).1 merged merge).2.1
    ⟨"file:///a.js"⟩ ⟨_, List.mem_cons_self, rfl⟩
  rw [kept]
  simp [first, Server.run, replay_cons, Server.handle]

end HintServer
