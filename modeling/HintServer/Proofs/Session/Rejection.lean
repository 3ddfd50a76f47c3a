import HintServer.Proofs.Session.Routing
import HintServer.Proofs.Session.Transcript
import HintServer.Session.Direct
import HintServer.Session.Rpc

/-! Rejected messages are invisible.
A message that is refused leaves the open documents and the life cycle as they were, unless it is
a `shutdown` that an initialized session still obeys; so a session goes the same way when any of
the refused ones were never sent.
-/

namespace HintServer

/-- Tells whether a response reports a fault. -/
def Response.isFault : Response → Bool
  | .fault .. | .notARequest | .exited => true
  | .silence | .result .. => false

/-- A message that a session without a life cycle refuses. -/
def Direct.Rejects (exchange : Exchange Store Json (Except Refusal Outcome)) : Prop :=
  ∃ refusal, exchange.output = .error refusal

/-- A message that a session rejects: it is answered with a fault, or with nothing though it
makes no call and is not `exit`. A `shutdown` in the initialized phase is never counted, since it
ends that phase even if it is refused.
-/
def Rpc.Rejects (exchange : Exchange State Json Answer) : Prop :=
  (exchange.output.response.isFault = true
    ∨ exchange.output.response = .silence
      ∧ exchange.state.phase.call? exchange.input = none
      ∧ exchange.input.method? ≠ some .exit)
  ∧ ¬ (exchange.state.phase = .initialized ∧ exchange.input.method? = some .shutdown)

/-- A refused message makes no call, so that nothing is stored. -/
theorem Direct.step_of_rejects {config : Config} {store : Store} {value : Json}
    {refusal : Refusal} (refused : (step config store value).2 = .error refusal)
    : (step config store value).1 = store := by
  unfold step at refused ⊢
  cases made : call value with
  | error refusal => rfl
  | ok call =>
      rw [made] at refused
      contradiction

theorem Response.isFault_ofReply (id : Option RequestId) (reply : Reply)
    : (Response.ofReply id reply).isFault = false := by
  cases id <;> rfl

namespace Rpc

/-- A rejected message leaves the session as it was, by its passage. Of the passages that move a
session, `exit` is answered with nothing, a `shutdown` is not counted, and the others are runs,
which report no fault.
-/
theorem step_of_rejects {config : Config} {exchange : Exchange State Json Answer}
    (own : exchange.output = (step config exchange.state exchange.input).2)
    (rejects : Rejects exchange)
    : (step config exchange.state exchange.input).1 = exchange.state := by
  obtain ⟨⟨phase, store⟩, value, output⟩ := exchange
  obtain ⟨refused, notShutdown⟩ := rejects
  dsimp only at own refused notShutdown ⊢
  rcases routed : phase.route value with ⟨next, verdict⟩
  have passage := phase.route_passage value
  rw [routed] at passage
  have notRun {id : Option RequestId} {call : Call} (run : verdict = .run id call) : False := by
    subst run
    have reached : phase.call? value = some call := by
      rw [Phase.call?, routed]
    rw [step_of_run routed] at own
    rcases refused with fault | ⟨-, none, -⟩
    · rw [own, Response.isFault_ofReply] at fault
      contradiction
    · rw [reached] at none
      contradiction
  cases passage with
  | refused response => rw [step_of_answer routed]
  | exits phase named =>
      rw [step_of_answer routed] at own
      rcases refused with fault | ⟨-, -, notExit⟩
      · rw [own] at fault
        contradiction
      · exact absurd named notExit
  | cutsOff response named => exact absurd ⟨rfl, named⟩ notShutdown
  | begins | shutsDown | serves => exact (notRun rfl).elim

end Rpc

-----------------------------------------------------------------------------------------
-- Changes with a malformed part
-----------------------------------------------------------------------------------------

/-- A message that reports changes of a document, one of which is malformed. -/
structure HasMalformedChange (value params : Json) (document : Option Json)
    (changes : List Json) (change : Json) : Prop where
  method : value.field? "method" = some (.str Method.didChange.name)
  given : value.field? "params" = some params
  record
    : params.record? ["textDocument", "contentChanges"] = some [document, some (.arr changes)]
  member : change ∈ changes
  malformed : Params.change? change = none

/-- One item that cannot be read makes a whole list unreadable, by induction on the list. -/
theorem mapM_eq_none_of_mem {α β : Type} {read : α → Option β} {items : List α} {item : α}
    (member : item ∈ items) (unreadable : read item = none)
    : items.mapM read = none := by
  induction items with
  | nil => contradiction
  | cons first rest ih =>
      rw [List.mapM_cons]
      rcases List.mem_cons.mp member with rfl | member
      · rw [unreadable]
        rfl
      · rw [ih member]
        cases read first <;> rfl

theorem HasMalformedChange.didChange?_eq_none {value params : Json} {document : Option Json}
    {changes : List Json} {change : Json}
    (has : HasMalformedChange value params document changes change)
    : Params.didChange? params = none := by
  refine Option.eq_none_iff_forall_ne_some.mpr fun call found => ?_
  unfold Params.didChange? at found
  rw [has.record] at found
  simp only [Option.bind_eq_bind, Option.bind_some, Option.bind_eq_some_iff] at found
  obtain ⟨item, -, fields, -, found⟩ := found
  split at found
  case h_1 =>
    simp only [Option.bind_eq_some_iff] at found
    obtain ⟨_, -, _, -, _, -, _, -, elements, same, texts, read, -⟩ := found
    obtain rfl : changes = elements := Option.some.inj same
    rw [mapM_eq_none_of_mem has.member has.malformed] at read
    contradiction
  case h_2 => contradiction

theorem HasMalformedChange.action {value params : Json} {document : Option Json}
    {changes : List Json} {change : Json}
    (has : HasMalformedChange value params document changes change)
    : Method.didChange.action (value.field? "params") = .error .malformed := by
  simp only [has.given, Method.action, Params.required, has.didChange?_eq_none]
  rfl

/-- A session without a life cycle refuses the parameters as a whole. -/
theorem Direct.step_of_malformedChange (config : Config) (store : Store) {value params : Json}
    {document : Option Json} {changes : List Json} {change : Json}
    (has : HasMalformedChange value params document changes change)
    : step config store value = (store, .error .invalidParams) := by
  have named : method? value = some .didChange := by
    rw [method?, has.method]
    exact Method.ofName?_eq_some_iff.mpr rfl
  have refused : call value = .error .invalidParams := by
    rw [call, named]
    simp only [has.action]
  rw [step, refused]

/-- A session with a life cycle neither runs such a message nor moves, in any phase. -/
theorem Rpc.step_of_malformedChange (config : Config) (state : State) {value params : Json}
    {document : Option Json} {changes : List Json} {change : Json}
    (has : HasMalformedChange value params document changes change)
    : (step config state value).1 = state ∧ (step config state value).2.log = [] := by
  have named {method : Method} (names : value.method? = some method) : method = .didChange := by
    obtain ⟨message, read, known⟩ := Option.bind_eq_some_iff.mp names
    rw [(Message.fields_of_ofJson? read).2 _ has.method] at known
    exact Option.some.inj (known.symm.trans (Method.ofName?_eq_some_iff.mpr rfl))
  have unreached : state.phase.call? value = none := by
    refine Option.eq_none_iff_forall_ne_some.mpr fun call reached => ?_
    obtain ⟨-, id, makes⟩ := Phase.call?_eq_some_iff.mp reached
    have isChange := named makes.method?
    obtain ⟨message, read, -, made⟩ := makes
    have action := made.read
    rw [isChange, (Message.fields_of_ofJson? read).1, has.action] at action
    contradiction
  have notExit : value.method? ≠ some .exit := fun names => Method.noConfusion (named names)
  have notShutdown : value.method? ≠ some .shutdown :=
    fun names => Method.noConfusion (named names)
  obtain ⟨response, routed⟩ := Phase.route_eq_answer unreached notExit notShutdown
  rw [step_of_answer routed]
  exact ⟨rfl, rfl⟩

/-- Rejected messages are invisible, in sessions of both kinds. When any of them are deleted, each
message that is left is answered and logged as before, and the session ends as before. In
particular a message with one malformed change applies none of its changes.
-/
theorem rejected_messages_are_invisible (config : Config)
    : (∀ store messages kept,
        Thins Direct.Rejects (transcript (Direct.step config) store messages) kept
        → Direct.run config store (kept.map (·.input))
          = ((Direct.run config store messages).1, kept.map (·.output)))
      ∧ (∀ state messages kept,
          Thins Rpc.Rejects (transcript (Rpc.step config) state messages) kept
          → Rpc.run config state (kept.map (·.input))
            = ((Rpc.run config state messages).1, kept.map (·.output)))
      ∧ ∀ value params document changes change,
          HasMalformedChange value params document changes change
          → (∀ store, Direct.step config store value = (store, .error .invalidParams))
            ∧ ∀ state,
                (Rpc.step config state value).1 = state
                ∧ (Rpc.step config state value).2.log = [] := by
  refine ⟨?_, ?_, ?_⟩
  · intro store messages kept thins
    refine replay_of_thins ?_ thins
    rintro exchange own ⟨refusal, refused⟩
    exact Direct.step_of_rejects (own.symm.trans refused)
  · intro state messages kept thins
    exact replay_of_thins (fun exchange => Rpc.step_of_rejects) thins
  · intro value params document changes change has
    exact ⟨fun store => Direct.step_of_malformedChange config store has,
      fun state => Rpc.step_of_malformedChange config state has⟩

/-- A `shutdown` before `initialize` and a change without a text could as well not be sent. -/
theorem refused_shutdown_and_change_are_invisible
    : let shutdown : Json := .obj [("method", .str "shutdown"), ("id", .int 1)]
      let handshake : Json :=
        .obj
          [("method", .str "initialize"), ("id", .int 2),
            ("params", .obj [("capabilities", .obj [])])]
      let document : Json := .obj [("uri", .str "file:///a.js"), ("version", .int 2)]
      let changes : List Json := [.obj [("text", .str "chunk")], .obj [("text", .int 1)]]
      let params : Json := .obj [("textDocument", document), ("contentChanges", .arr changes)]
      let change : Json := .obj [("method", .str "textDocument/didChange"), ("params", params)]
      let direct := transcript (Direct.step .standard) ∅ [change, handshake]
      let rpc := transcript (Rpc.step .standard) .fresh [shutdown, handshake, change]
      Thins Direct.Rejects direct (direct.drop 1)
        ∧ Direct.run .standard ∅ [handshake]
          = ((Direct.run .standard ∅ [change, handshake]).1, (direct.drop 1).map (·.output))
        ∧ Thins Rpc.Rejects rpc ((rpc.drop 1).take 1)
        ∧ Rpc.run .standard .fresh [handshake]
          = ((Rpc.run .standard .fresh [shutdown, handshake, change]).1,
              ((rpc.drop 1).take 1).map (·.output))
        ∧ HasMalformedChange change params (some document) changes (.obj [("text", .int 1)])
        ∧ ∀ store, Direct.step .standard store change = (store, .error .invalidParams) := by
  intro shutdown handshake document changes params change direct rpc
  obtain ⟨directs, rpcs, malformed⟩ := rejected_messages_are_invisible .standard
  have directThins : Thins Direct.Rejects direct (direct.drop 1) :=
    .delete ⟨.invalidParams, rfl⟩ (.keep _ .nil)
  have rpcThins : Thins Rpc.Rejects rpc ((rpc.drop 1).take 1) := by
    refine .delete ⟨Or.inl rfl, ?_⟩ (.keep _ (.delete ⟨Or.inr ⟨rfl, rfl, ?_⟩, ?_⟩ .nil))
    · rintro ⟨initialized, -⟩
      contradiction
    · exact fun exits => Method.noConfusion (Option.some.inj exits)
    · rintro ⟨-, shuts⟩
      exact Method.noConfusion (Option.some.inj shuts)
  have has : HasMalformedChange change params (some document) changes
      (.obj [("text", .int 1)]) := {
    method := rfl
    given := rfl
    record := rfl
    member := List.mem_cons_of_mem _ List.mem_cons_self
    malformed := rfl
  }
  exact ⟨directThins, directs _ _ _ directThins, rpcThins, rpcs _ _ _ rpcThins, has,
    (malformed _ _ _ _ _ has).1⟩

end HintServer
