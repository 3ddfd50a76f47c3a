import HintServer.Proofs.Session.Routing
import HintServer.Proofs.Session.Transcript
import HintServer.Proofs.Server.Address
import Mathlib.Data.List.Induction

/-! A session does what its calls do.
The messages that reach the server are answered as a direct run of their calls is, and no other
message is seen by the server. Which messages reach it is read off the history before them: one
`initialize` opens the window, and `exit` or an attempt to shut down closes it.
-/

namespace HintServer.Rpc

/-- The outcome that an answer reports; one that reports a fault reports none. -/
def Answer.outcome? (answer : Answer) : Option Outcome :=
  match answer.response with
  | .silence => some { reply := .silent, log := answer.log }
  | .result _ reply => some { reply, log := answer.log }
  | .fault .. | .notARequest | .exited => none

/-- The call with which the message of an exchange reaches the server, if it does. -/
def reached? (exchange : Exchange State Json Answer) : Option Call :=
  exchange.state.phase.call? exchange.input

/-- An exchange that opens the session. -/
def Begins (exchange : Exchange State Json Answer) : Prop :=
  reached? exchange = some .handshake

/-- An exchange that ends the session. -/
def Exits (exchange : Exchange State Json Answer) : Prop :=
  exchange.input.method? = some .exit

/-- An exchange with a `shutdown` in the initialized phase, run or refused. -/
def Closes (exchange : Exchange State Json Answer) : Prop :=
  exchange.state.phase = .initialized ∧ exchange.input.method? = some .shutdown

/-- The window of a call after earlier exchanges: no `exit` has come; `initialize` has its window
as long as none has run, and every other call after that until a `shutdown` is tried.
-/
def InWindow (earlier : List (Exchange State Json Answer)) (call : Call) : Prop :=
  (¬ ∃ other ∈ earlier, Exits other)
  ∧ if call = .handshake then ¬ ∃ other ∈ earlier, Begins other
    else (∃ other ∈ earlier, Begins other) ∧ ¬ ∃ other ∈ earlier, Closes other

-----------------------------------------------------------------------------------------
-- Outcomes
-----------------------------------------------------------------------------------------

/-- A call whose method is told has a silent reply and any other a reply to send, by cases on the
call.
-/
theorem reply_eq_silent_iff (config : Config) (store : Store) (call : Call)
    : (Server.handle config store call).2.reply = .silent
      ↔ call.method.isNotification = true := by
  cases call with
  | didChange uri version texts =>
      simp only [Server.handle]
      cases store[uri]? <;> simp [Call.method, Method.isNotification]
  | handshake | initialized | shutdown | didOpen | didClose | hover | completion =>
      simp [Server.handle, Call.method, Method.isNotification]

/-- The answer to a message that is run reports the outcome of its call: there is an identifier to
answer to exactly when there is a reply to send.
-/
theorem outcome?_of_makes {value : Json} {id : Option RequestId} {call : Call}
    (makes : value.Makes id call) (config : Config) (store : Store)
    : Answer.outcome?
        {
          response := .ofReply id (Server.handle config store call).2.reply,
          log := (Server.handle config store call).2.log
        }
      = some (Server.handle config store call).2 := by
  obtain ⟨message, -, rfl, made⟩ := makes
  have silent := reply_eq_silent_iff config store call
  have asked := made.asked
  cases identified : message.id with
  | some id => rfl
  | none =>
      have told : call.method.isNotification = true := by
        simpa [identified] using asked
      simp only [Response.ofReply, Answer.outcome?, ← silent.mpr told]

/-- A message that does not reach the server leaves the documents alone and logs nothing. -/
theorem step_of_unreached (config : Config) {state : State} {value : Json}
    (unreached : state.phase.call? value = none)
    : (step config state value).1.store = state.store
      ∧ (step config state value).2.log = [] := by
  rcases routed : state.phase.route value with ⟨phase, verdict⟩
  rw [Phase.call?, routed] at unreached
  cases verdict with
  | answer response =>
      rw [step_of_answer routed]
      exact ⟨rfl, rfl⟩
  | run id call => contradiction

/-- A message that reaches the server does what its call does, and its answer reports that under
the message's own identifier.
-/
theorem step_of_reached (config : Config) {state : State} {value : Json} {call : Call}
    (reached : state.phase.call? value = some call)
    : (step config state value).1.store = (Server.handle config state.store call).1
      ∧ (step config state value).2.outcome?
        = some (Server.handle config state.store call).2
      ∧ ∀ id reply,
          (step config state value).2.response = .result id reply
          → value.Makes (some id) call := by
  have passage := state.phase.route_passage value
  rcases routed : state.phase.route value with ⟨phase, verdict⟩
  rw [Phase.call?, routed] at reached
  rw [routed] at passage
  cases verdict with
  | answer response => contradiction
  | run requestId call' =>
      obtain rfl : call' = call := Option.some.inj reached
      have makes := passage.of_run.2
      rw [step_of_run routed]
      refine ⟨rfl, outcome?_of_makes makes config state.store, ?_⟩
      intro id reply isResult
      cases requestId with
      | none => contradiction
      | some own =>
          obtain ⟨rfl, -⟩ := Response.result.inj isResult
          exact makes

/-- A session answers the messages that reach the server as a direct run of their calls on its
documents, and ends with the documents of that run, by induction on the messages.
-/
theorem session_runs_calls (config : Config) (state : State) (messages : List Json)
    : let exchanges := transcript (step config) state messages
      let direct := Server.run config state.store (exchanges.filterMap reached?)
      (exchanges.filter fun exchange => (reached? exchange).isSome).map (·.output.outcome?)
          = direct.2.map some
        ∧ (run config state messages).1.store = direct.1 := by
  induction messages generalizing state with
  | nil => exact ⟨rfl, rfl⟩
  | cons value rest ih =>
      obtain ⟨outcomes, store⟩ := ih (step config state value).1
      rw [run] at store ⊢
      simp only [transcript_cons, replay_cons, List.filter_cons, List.filterMap_cons]
      cases reached : state.phase.call? value with
      | none =>
          obtain ⟨same, -⟩ := step_of_unreached config reached
          rw [same] at outcomes store
          simp only [reached?, reached]
          exact ⟨outcomes, store⟩
      | some call =>
          obtain ⟨handled, reported, -⟩ := step_of_reached config reached
          rw [handled] at outcomes store
          simp only [reached?, reached, Server.run_cons, List.map_cons, Option.isSome_some,
            if_true, reported]
          exact ⟨congrArg _ outcomes, store⟩

-----------------------------------------------------------------------------------------
-- The window
-----------------------------------------------------------------------------------------

/-- The phase that a session has come to, by whether it has ended, has begun and has met a try to
shut it down.
-/
def PhaseAfter (ended begun closed : Prop) : Phase → Prop
  | .uninitialized => ¬ ended ∧ ¬ begun ∧ ¬ closed
  | .initialized => ¬ ended ∧ begun ∧ ¬ closed
  | .shutDown => ¬ ended ∧ begun ∧ closed
  | .exited => ended

/-- One more message moves the phase as it adds to the history, by the passages of messages. -/
theorem PhaseAfter.route {ended begun closed : Prop} {phase : Phase}
    (after : PhaseAfter ended begun closed phase) (value : Json)
    : PhaseAfter (ended ∨ value.method? = some .exit)
        (begun ∨ phase.call? value = some .handshake)
        (closed ∨ phase = .initialized ∧ value.method? = some .shutdown)
        (phase.route value).1 := by
  have passage := phase.route_passage value
  rcases routed : phase.route value with ⟨next, verdict⟩
  rw [Phase.call?, routed]
  rw [routed] at passage
  dsimp only at passage ⊢
  cases passage with
  | refused phase response noExit noShutdown =>
      cases phase with
      | exited => exact Or.inl after
      | uninitialized | initialized | shutDown => simp_all [PhaseAfter]
  | exits phase named => exact Or.inr named
  | cutsOff response named =>
      obtain ⟨going, begun, -⟩ := after
      have notExit : value.method? ≠ some .exit := by simp [named]
      exact ⟨not_or.mpr ⟨going, notExit⟩, Or.inl begun, Or.inr ⟨rfl, named⟩⟩
  | begins id makes =>
      obtain ⟨going, -, unclosed⟩ := after
      have notExit : value.method? ≠ some .exit := by simp [makes.method?, Call.method]
      exact ⟨not_or.mpr ⟨going, notExit⟩, Or.inr rfl, not_or.mpr ⟨unclosed, by simp⟩⟩
  | shutsDown id makes =>
      obtain ⟨going, begun, -⟩ := after
      have notExit : value.method? ≠ some .exit := by simp [makes.method?, Call.method]
      exact ⟨not_or.mpr ⟨going, notExit⟩, Or.inl begun, Or.inr ⟨rfl, makes.method?⟩⟩
  | serves id call makes notHandshake notShutdown =>
      obtain ⟨going, begun, unclosed⟩ := after
      have notExit : value.method? ≠ some .exit := by
        simp [makes.method?, call.method_ne_exit]
      have notTried : value.method? ≠ some .shutdown := by
        rw [makes.method?]
        cases call <;> simp_all [Call.method]
      exact ⟨not_or.mpr ⟨going, notExit⟩, Or.inl begun,
        not_or.mpr ⟨unclosed, fun tried => notTried tried.2⟩⟩

theorem step_phase (config : Config) (state : State) (value : Json)
    : (step config state value).1.phase = (state.phase.route value).1 := by
  rcases routed : state.phase.route value with ⟨phase, verdict⟩
  cases verdict with
  | answer response => rw [step_of_answer routed]
  | run id call => rw [step_of_run routed]

/-- The phase of a session is read off its exchanges, by induction on the messages from the last
one back.
-/
theorem phaseAfter_transcript (config : Config) (messages : List Json)
    : let earlier := transcript (step config) .fresh messages
      PhaseAfter (∃ other ∈ earlier, Exits other) (∃ other ∈ earlier, Begins other)
        (∃ other ∈ earlier, Closes other) (run config .fresh messages).1.phase := by
  induction messages using List.reverseRecOn with
  | nil => simp [transcript, run, State.fresh, PhaseAfter]
  | append_singleton before value ih =>
      have after := ih.route value
      simp only [transcript_append_singleton, List.mem_append, List.mem_singleton,
        or_and_right, exists_or, exists_eq_left]
      rw [run, replay_append, replay_cons, replay_nil, step_phase]
      exact after

/-- The window of a call is the phase in which it has its place. -/
theorem inWindow_iff {earlier : List (Exchange State Json Answer)} {phase : Phase}
    (after
      : PhaseAfter (∃ other ∈ earlier, Exits other) (∃ other ∈ earlier, Begins other)
          (∃ other ∈ earlier, Closes other) phase)
    (call : Call)
    : InWindow earlier call ↔ phase = Phase.place call.method := by
  unfold InWindow
  by_cases first : call = .handshake
  · subst first
    cases phase <;> simp_all [PhaseAfter, Phase.place, Call.method]
  · rw [if_neg first, Phase.place_of_ne_handshake first]
    cases phase <;> simp_all [PhaseAfter]

/-- An item that is only given once is given at most once, by induction on the list from its
end.
-/
theorem count_filterMap_le_one {α β : Type} [DecidableEq β] {give : α → Option β} {item : β}
    {items : List α}
    (once
      : ∀ earlier other later,
          items = earlier ++ other :: later
          → give other = some item
          → ∀ before ∈ earlier, give before ≠ some item)
    : (items.filterMap give).count item ≤ 1 := by
  induction items using List.reverseRecOn with
  | nil => simp
  | append_singleton items last ih =>
      rw [List.filterMap_append, List.count_append]
      by_cases given : give last = some item
      · have unseen : (items.filterMap give).count item = 0 := by
          rw [List.count_eq_zero, List.mem_filterMap]
          rintro ⟨before, member, same⟩
          exact once items last [] rfl given before member same
        rw [unseen, Nat.zero_add]
        exact Nat.le_trans List.count_le_length (List.length_filterMap_le _ _)
      · have other : ([last].filterMap give).count item = 0 := by
          rw [List.count_eq_zero, List.mem_filterMap]
          rintro ⟨found, member, same⟩
          exact given (List.mem_singleton.mp member ▸ same)
        rw [other]
        refine ih fun earlier other later split => once earlier other (later ++ [last]) ?_
        rw [split, List.append_assoc, List.cons_append]

/-- A session refines a direct run of the server. The messages that reach the server are answered
as the run of their calls from no documents answers these, each under its own identifier, and
leave the documents of that run; every other message leaves the documents as they were and logs
nothing. A message reaches the server with a call exactly when it makes that call in its window;
and so the session begins and is shut down at most once.
-/
theorem session_refines_server (config : Config) (messages : List Json)
    : let exchanges := transcript (step config) .fresh messages
      let calls := exchanges.filterMap reached?
      let direct := Server.run config ∅ calls
      (exchanges.filter fun exchange => (reached? exchange).isSome).map (·.output.outcome?)
          = direct.2.map some
        ∧ (∀ exchange ∈ exchanges,
            ∀ call id reply,
              reached? exchange = some call
              → exchange.output.response = .result id reply
              → exchange.input.Makes (some id) call)
        ∧ (run config .fresh messages).1.store = direct.1
        ∧ (∀ exchange ∈ exchanges,
            reached? exchange = none
            → exchange.output.log = []
              ∧ (step config exchange.state exchange.input).1.store = exchange.state.store)
        ∧ (∀ earlier exchange later call,
            exchanges = earlier ++ exchange :: later
            → (reached? exchange = some call
                ↔ InWindow earlier call ∧ ∃ id, exchange.input.Makes id call))
        ∧ calls.count .handshake ≤ 1
        ∧ calls.count .shutdown ≤ 1 := by
  intro exchanges calls direct
  obtain ⟨outcomes, store⟩ := session_runs_calls config .fresh messages
  have window : ∀ earlier exchange later call,
      exchanges = earlier ++ exchange :: later
      → (reached? exchange = some call
          ↔ InWindow earlier call ∧ ∃ id, exchange.input.Makes id call) := by
    intro earlier exchange later call split
    obtain ⟨before, after, -, rfl, state, -⟩ := transcript_eq_append_cons split
    have phase := phaseAfter_transcript config before
    rw [run, ← state] at phase
    rw [reached?, Phase.call?_eq_some_iff, inWindow_iff phase]
  refine ⟨outcomes, ?_, store, ?_, window, ?_, ?_⟩
  · intro exchange member call id reply reached isResult
    rw [output_of_mem_transcript member] at isResult
    exact (step_of_reached config reached).2.2 id reply isResult
  · intro exchange member unreached
    rw [output_of_mem_transcript member]
    exact (step_of_unreached config unreached).symm
  · refine count_filterMap_le_one fun earlier exchange later split reached before member begins =>
      ?_
    have open' := ((window earlier exchange later _ split).mp reached).1.2
    rw [if_pos rfl] at open'
    exact open' ⟨before, member, begins⟩
  · refine count_filterMap_le_one fun earlier exchange later split reached before member shut =>
      ?_
    have open' := ((window earlier exchange later _ split).mp reached).1.2
    rw [if_neg Call.noConfusion] at open'
    obtain ⟨place, id, makes⟩ := Phase.call?_eq_some_iff.mp shut
    exact open'.2 ⟨before, member, place, makes.method?⟩

/-- A `shutdown` that comes too early is refused and leaves the window open; one that is refused
for its parameters closes it.
-/
theorem session_with_refused_shutdowns
    : let messages : List Json :=
        [.obj [("method", .str "shutdown"), ("id", .int 1)],
          .obj
            [("method", .str "initialize"), ("id", .int 2),
              ("params", .obj [("capabilities", .obj [])])],
          .obj [("method", .str "initialized"), ("params", .obj [])],
          .obj [("method", .str "shutdown"), ("id", .int 3), ("params", .null)],
          .obj [("method", .str "initialized"), ("params", .obj [])]]
      let exchanges := transcript (step .standard) .fresh messages
      exchanges.filterMap reached? = [.handshake, .initialized]
        ∧ (run .standard .fresh messages).1.store
          = (Server.run .standard ∅ [.handshake, .initialized]).1
        ∧ (∃ exchange ∈ exchanges, reached? exchange = none ∧ exchange.output.log = [])
        ∧ ∃ earlier exchange later,
            exchanges = earlier ++ exchange :: later
            ∧ reached? exchange = some .initialized
            ∧ InWindow earlier .initialized := by
  intro messages exchanges
  have calls : exchanges.filterMap reached? = [.handshake, .initialized] := by rfl
  obtain ⟨-, -, store, others, window, -, -⟩ := session_refines_server .standard messages
  refine ⟨calls, calls ▸ store, ?_, ?_⟩
  · exact ⟨_, List.mem_cons_self, rfl, (others _ List.mem_cons_self rfl).1⟩
  · refine ⟨exchanges.take 2, _, exchanges.drop 3, rfl, rfl, ?_⟩
    exact ((window (exchanges.take 2) _ (exchanges.drop 3) .initialized rfl).mp rfl).1

end HintServer.Rpc
