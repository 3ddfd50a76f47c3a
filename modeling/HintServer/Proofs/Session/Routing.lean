import HintServer.Session.Rpc

/-! What the life cycle does with a message.
A message is refused, ends the session or makes a call, and each of these moves the session in one
way only. A call reaches the server exactly when its message is well formed for it and the session
is in the phase for it; only then do the open documents matter.
-/

namespace HintServer

/-- The method of the messages that make a call. -/
def Call.method : Call → Method
  | .handshake => .handshake
  | .initialized => .initialized
  | .shutdown => .shutdown
  | .didOpen .. => .didOpen
  | .didChange .. => .didChange
  | .didClose .. => .didClose
  | .hover .. => .hover
  | .completion .. => .completion

/-- The method that a value names, if it is a message and the method is known. -/
def Json.method? (value : Json) : Option Method :=
  (Message.ofJson? value).bind fun message => Method.ofName? message.method

/-- A message that makes a call: it names the call's method, it has an identifier exactly when
that method is asked and not told, and its parameters are read as the call.
-/
structure Message.Makes (message : Message) (call : Call) : Prop where
  named : message.method = call.method.name
  asked : message.id.isSome = !call.method.isNotification
  read : call.method.action message.params = .ok (.call call)

/-- A value that is a message with an identifier or none and makes a call. -/
def Json.Makes (value : Json) (id : Option RequestId) (call : Call) : Prop :=
  ∃ message, Message.ofJson? value = some message ∧ message.id = id ∧ message.Makes call

-----------------------------------------------------------------------------------------
-- Methods
-----------------------------------------------------------------------------------------

namespace Method

theorem ofName?_eq_some_iff {name : String} {method : Method}
    : ofName? name = some method ↔ method.name = name := by
  constructor
  · intro found
    simpa using List.find?_some found
  · rintro rfl
    cases method <;> decide

end Method

/-- A message is read from an object field by field. -/
theorem Message.ofJson?_obj (members : List (String × Json))
    : Message.ofJson? (.obj members)
      = (((Json.obj members).field? "method").elim (some "") Json.text?).bind fun method =>
          (((Json.obj members).field? "id").elim (some none)
            fun id => (RequestId.ofJson? id).map some).bind fun id =>
              some { method, params := (Json.obj members).field? "params", id } := by
  dsimp only [Message.ofJson?, bind]
  cases (Json.obj members).field? "method" <;> cases (Json.obj members).field? "id" <;> rfl

/-- A message has the parameters of its value and the method that the value names as text. -/
theorem Message.fields_of_ofJson? {value : Json} {message : Message}
    (read : Message.ofJson? value = some message)
    : message.params = value.field? "params"
      ∧ ∀ name, value.field? "method" = some (.str name) → message.method = name := by
  cases value with
  | null | bool | int | decimal | str | arr => contradiction
  | obj members =>
      simp only [Message.ofJson?_obj, Option.bind_eq_some_iff, Option.some.injEq] at read
      obtain ⟨method, isMethod, id, -, rfl⟩ := read
      refine ⟨rfl, fun name named => ?_⟩
      rw [named] at isMethod
      exact (Option.some.inj isMethod).symm

theorem Json.Makes.method? {value : Json} {id : Option RequestId} {call : Call}
    (makes : value.Makes id call)
    : value.method? = some call.method := by
  obtain ⟨message, read, -, makes⟩ := makes
  rw [Json.method?, read, Option.bind_some, Method.ofName?_eq_some_iff, makes.named]

theorem Call.method_ne_exit (call : Call) : call.method ≠ .exit := by
  cases call <;> exact Method.noConfusion

-----------------------------------------------------------------------------------------
-- Parameters
-----------------------------------------------------------------------------------------

/-- A reading that can only give calls of one method. -/
def Reads (method : Method) (reading : Option Call) : Prop :=
  ∀ call, reading = some call → call.method = method

theorem Reads.none (method : Method) : Reads method none := by
  intro call found
  contradiction

theorem Reads.some (call : Call) : Reads call.method (some call) := by
  intro other found
  rw [Option.some.inj found]

theorem Reads.bind {α : Type} {method : Method} (value : Option α) {next : α → Option Call}
    (reads : ∀ found, Reads method (next found))
    : Reads method (value.bind next) := by
  intro call found
  obtain ⟨part, -, found⟩ := Option.bind_eq_some_iff.mp found
  exact reads part call found

namespace Params

theorem reads_handshake? (params : Json) : Reads .handshake (handshake? params) := by
  unfold handshake?
  refine Reads.bind _ fun capabilities => ?_
  split
  · refine Reads.bind _ fun _ => Reads.bind _ fun _ => ?_
    exact Reads.some _
  · exact Reads.none _

theorem reads_initialized? (params : Json) : Reads .initialized (initialized? params) := by
  unfold initialized?
  refine Reads.bind _ fun fields => ?_
  split
  · exact Reads.some _
  · exact Reads.none _

theorem reads_didOpen? (params : Json) : Reads .didOpen (didOpen? params) := by
  unfold didOpen?
  refine Reads.bind _ fun fields => ?_
  split
  · refine Reads.bind _ fun _ => Reads.bind _ fun fields => ?_
    split
    · refine Reads.bind _ fun _ => Reads.bind _ fun _ => Reads.bind _ fun _ => ?_
      refine Reads.bind _ fun _ => Reads.bind _ fun _ => Reads.bind _ fun _ => ?_
      exact Reads.bind _ fun _ => Reads.bind _ fun _ => Reads.some _
    · exact Reads.none _
  · exact Reads.none _

theorem reads_didChange? (params : Json) : Reads .didChange (didChange? params) := by
  unfold didChange?
  refine Reads.bind _ fun fields => ?_
  split
  · refine Reads.bind _ fun _ => Reads.bind _ fun fields => ?_
    split
    · refine Reads.bind _ fun _ => Reads.bind _ fun _ => Reads.bind _ fun _ => ?_
      refine Reads.bind _ fun _ => Reads.bind _ fun _ => Reads.bind _ fun _ => ?_
      exact Reads.bind _ fun _ => Reads.some _
    · exact Reads.none _
  · exact Reads.none _

theorem reads_didClose? (params : Json) : Reads .didClose (didClose? params) := by
  unfold didClose?
  refine Reads.bind _ fun fields => ?_
  split
  · refine Reads.bind _ fun _ => Reads.bind _ fun _ => ?_
    exact Reads.some _
  · exact Reads.none _

theorem reads_hover? (params : Json) : Reads .hover (hover? params) := by
  intro call found
  obtain ⟨query, -, rfl⟩ := Option.map_eq_some_iff.mp found
  rfl

theorem reads_completion? (params : Json) : Reads .completion (completion? params) := by
  intro call found
  obtain ⟨query, -, rfl⟩ := Option.map_eq_some_iff.mp found
  rfl

/-- What a method can do: only the calls of the method itself, and to end the session only for
`exit`.
-/
def Fits (method : Method) : Method.Action → Prop
  | .call call => call.method = method
  | .exit => method = .exit
  | .notOffered => True

/-- A served method's parameters are read as one of its calls. -/
theorem fits_of_served {method : Method} {read : Json → Option Call}
    (reads : ∀ params, Reads method (read params)) {params : Option Json}
    {action : Method.Action} (served : (required read params).map .call = .ok action)
    : Fits method action := by
  unfold required at served
  split at served
  case h_1 => contradiction
  case h_2 params =>
    split at served
    case h_1 call isRead =>
      obtain rfl : .call call = action := Except.ok.inj served
      exact reads params call isRead
    case h_2 => contradiction

end Params

/-- The parameters of a method are read as what the method can do, by cases on the method. -/
theorem Method.fits_of_action {method : Method} {params : Option Json} {action : Action}
    (read : method.action params = .ok action)
    : Params.Fits method action := by
  cases method with
  | handshake => exact Params.fits_of_served Params.reads_handshake? read
  | initialized => exact Params.fits_of_served Params.reads_initialized? read
  | shutdown =>
      cases params with
      | none =>
          obtain rfl : .call .shutdown = action := Except.ok.inj read
          rfl
      | some params => contradiction
  | exit =>
      obtain rfl : .exit = action := Except.ok.inj read
      rfl
  | didOpen => exact Params.fits_of_served Params.reads_didOpen? read
  | didChange => exact Params.fits_of_served Params.reads_didChange? read
  | didClose => exact Params.fits_of_served Params.reads_didClose? read
  | hover => exact Params.fits_of_served Params.reads_hover? read
  | completion => exact Params.fits_of_served Params.reads_completion? read
  | definition =>
      unfold Method.action at read
      cases query : Params.required Params.query? params with
      | error problem =>
          rw [query] at read
          contradiction
      | ok found =>
          rw [query] at read
          obtain rfl : .notOffered = action := Except.ok.inj read
          trivial

-----------------------------------------------------------------------------------------
-- Phases
-----------------------------------------------------------------------------------------

namespace Phase

/-- The phase in which the messages of a method have their place. -/
def place (method : Method) : Phase :=
  if method = .handshake then .uninitialized else .initialized

/-- The call with which a message reaches the server, if it does. -/
def call? (phase : Phase) (value : Json) : Option Call :=
  match (phase.route value).2 with
  | .run _ call => some call
  | .answer _ => none

/-- The passage of a message from one phase to the next, with what becomes of it. -/
inductive Passage (value : Json) : Phase → Phase → Verdict → Prop where
  | refused (phase : Phase) (response : Response)
      (noExit : value.method? = some .exit → phase = .exited)
      (noShutdown : value.method? = some .shutdown → phase ≠ .initialized)
    : Passage value phase phase (.answer response)
  | exits (phase : Phase) (named : value.method? = some .exit)
    : Passage value phase .exited (.answer .silence)
  | cutsOff (response : Response) (named : value.method? = some .shutdown)
    : Passage value .initialized .shutDown (.answer response)
  | begins (id : Option RequestId) (makes : value.Makes id .handshake)
    : Passage value .uninitialized .initialized (.run id .handshake)
  | shutsDown (id : Option RequestId) (makes : value.Makes id .shutdown)
    : Passage value .initialized .shutDown (.run id .shutdown)
  | serves (id : Option RequestId) (call : Call) (makes : value.Makes id call)
      (notHandshake : call ≠ .handshake) (notShutdown : call ≠ .shutdown)
    : Passage value .initialized .initialized (.run id call)

theorem barrier?_eq_none_iff {phase : Phase} {method : Method}
    : phase.barrier? method = none ↔ phase = place method := by
  cases phase <;> by_cases first : method = .handshake <;> simp [barrier?, place, first]

/-- A value that names no known method is refused. -/
theorem route_of_no_method (phase : Phase) {value : Json} (unnamed : value.method? = none)
    : ∃ response, phase.route value = (phase, .answer response) := by
  unfold route
  cases read : Message.ofJson? value with
  | none => exact ⟨_, rfl⟩
  | some message =>
      have unknown : Method.ofName? message.method = none := by
        simpa [Json.method?, read] using unnamed
      by_cases gone : phase = .exited
      · exact ⟨_, if_pos gone⟩
      · refine ⟨message.refuse (.unknownMethod message.method), ?_⟩
        simp only [if_neg gone, unknown]

/-- A message of a known method is routed by the method, unless the session is over. -/
theorem route_of_method {phase : Phase} {value : Json} {method : Method}
    (named : value.method? = some method) (going : phase ≠ .exited)
    : ∃ message,
        Message.ofJson? value = some message
        ∧ message.method = method.name
        ∧ phase.route value = phase.routeKnown method message := by
  obtain ⟨message, read, known⟩ := Option.bind_eq_some_iff.mp named
  refine ⟨message, read, (Method.ofName?_eq_some_iff.mp known).symm, ?_⟩
  rw [route, read]
  simp only [if_neg going, known]

theorem route_of_exited (value : Json)
    : ∃ response, Phase.exited.route value = (.exited, .answer response) := by
  unfold route
  cases Message.ofJson? value with
  | none => exact ⟨_, rfl⟩
  | some message => exact ⟨_, if_pos rfl⟩

theorem routeAdmitted_of_makes (phase : Phase) {message : Message} {call : Call}
    (makes : message.Makes call)
    : phase.routeAdmitted call.method message
      = (if call.method = .handshake then .initialized else phase, .run message.id call) := by
  have asked : ¬ call.method.isNotification = message.id.isSome := by
    rw [makes.asked]
    cases call.method.isNotification <;> decide
  rw [routeAdmitted, if_neg asked, makes.read]

/-- A message whose method is admitted makes a call of that method or is refused. -/
theorem routeAdmitted_cases (phase : Phase) {method : Method} {message : Message}
    (named : message.method = method.name) (notExit : method ≠ .exit)
    : (∃ call, call.method = method ∧ message.Makes call)
      ∨ ∃ response, phase.routeAdmitted method message = (phase, .answer response) := by
  unfold routeAdmitted
  by_cases mixed : method.isNotification = message.id.isSome
  · exact Or.inr ⟨_, if_pos mixed⟩
  · rw [if_neg mixed]
    cases read : method.action message.params with
    | error problem => exact Or.inr ⟨_, rfl⟩
    | ok action =>
        have fits := Method.fits_of_action read
        cases action with
        | notOffered => exact Or.inr ⟨_, rfl⟩
        | exit => exact absurd fits notExit
        | call call =>
            obtain rfl : call.method = method := fits
            refine Or.inl ⟨call, rfl, named, ?_, read⟩
            revert mixed
            cases call.method.isNotification <;> cases message.id.isSome <;> decide

/-- A message that makes a call in its place passes to the phase that the call leads to. -/
theorem passage_of_makes {value : Json} {id : Option RequestId} {call : Call}
    (makes : value.Makes id call)
    : Passage value (place call.method)
        (if call.method = .handshake then .initialized
          else if call.method = .shutdown then .shutDown else place call.method)
        (.run id call) := by
  cases call with
  | handshake => exact .begins id makes
  | shutdown => exact .shutsDown id makes
  | initialized | didOpen | didChange | didClose | hover | completion =>
      exact .serves id _ makes Call.noConfusion Call.noConfusion

/-- Every message has a passage: it names no method, comes after the end, names `exit`, has no
place in the phase, or is admitted and makes a call or is refused after all.
-/
theorem route_passage (phase : Phase) (value : Json)
    : Passage value phase (phase.route value).1 (phase.route value).2 := by
  by_cases gone : phase = .exited
  · subst gone
    obtain ⟨response, routed⟩ := route_of_exited value
    rw [routed]
    exact .refused _ _ (fun _ => rfl) (fun _ => Phase.noConfusion)
  cases named : value.method? with
  | none =>
      obtain ⟨response, routed⟩ := route_of_no_method phase named
      rw [routed]
      have notNamed {other : Method} : value.method? ≠ some other := by
        rw [named]
        intro same
        contradiction
      exact .refused _ _ (absurd · notNamed) (absurd · notNamed)
  | some method =>
      have notNamed {other : Method} (differs : method ≠ other) : value.method? ≠ some other := by
        rw [named]
        exact fun same => differs (Option.some.inj same)
      obtain ⟨message, read, isNamed, routed⟩ := route_of_method named gone
      rw [routed, routeKnown]
      by_cases ends : method = .exit
      · subst ends
        exact .exits _ named
      rw [if_neg ends]
      cases barrier : phase.barrier? method with
      | some fault =>
          refine .refused _ _ (absurd · (notNamed ends)) ?_
          rintro shuts rfl
          obtain rfl := Option.some.inj (named.symm.trans shuts)
          contradiction
      | none =>
          obtain rfl := barrier?_eq_none_iff.mp barrier
          rcases routeAdmitted_cases (if method = .shutdown then .shutDown else place method)
            isNamed ends with ⟨call, rfl, makes⟩ | ⟨response, refused⟩
          · rw [routeAdmitted_of_makes _ makes]
            exact passage_of_makes ⟨message, read, rfl, makes⟩
          · rw [refused]
            by_cases shuts : method = .shutdown
            · subst shuts
              exact .cutsOff _ named
            · rw [if_neg shuts]
              exact .refused _ _ (absurd · (notNamed ends)) (absurd · (notNamed shuts))

theorem place_of_ne_handshake {call : Call} (other : call ≠ .handshake)
    : place call.method = .initialized := by
  cases call with
  | handshake => contradiction
  | initialized | shutdown | didOpen | didChange | didClose | hover | completion => rfl

theorem Passage.of_run {value : Json} {phase next : Phase} {id : Option RequestId} {call : Call}
    (passage : Passage value phase next (.run id call))
    : phase = place call.method ∧ value.Makes id call := by
  cases passage with
  | begins id makes => exact ⟨rfl, makes⟩
  | shutsDown id makes => exact ⟨rfl, makes⟩
  | serves id call makes notHandshake _ =>
      exact ⟨(place_of_ne_handshake notHandshake).symm, makes⟩

/-- A message that makes a call in its place is run. -/
theorem route_of_makes {value : Json} {id : Option RequestId} {call : Call}
    (makes : value.Makes id call)
    : ((place call.method).route value).2 = .run id call := by
  obtain ⟨message, read, rfl, made⟩ := makes
  have going : place call.method ≠ .exited := by
    cases call <;> exact Phase.noConfusion
  obtain ⟨message', read', -, routed⟩ :=
    route_of_method (Json.Makes.method? ⟨message, read, rfl, made⟩) going
  obtain rfl := Option.some.inj (read.symm.trans read')
  rw [routed, routeKnown, if_neg call.method_ne_exit, barrier?_eq_none_iff.mpr rfl]
  exact congrArg Prod.snd (routeAdmitted_of_makes _ made)

/-- A call reaches the server exactly in its place and by a message that makes it. -/
theorem call?_eq_some_iff {phase : Phase} {value : Json} {call : Call}
    : phase.call? value = some call
      ↔ phase = place call.method ∧ ∃ id, value.Makes id call := by
  constructor
  · intro reaches
    have passage := route_passage phase value
    unfold call? at reaches
    split at reaches
    case h_1 id call' routed =>
      obtain rfl := Option.some.inj reaches
      rw [routed] at passage
      exact ⟨passage.of_run.1, id, passage.of_run.2⟩
    case h_2 => contradiction
  · rintro ⟨rfl, id, makes⟩
    rw [call?, route_of_makes makes]

/-- A message that does not reach the server moves nothing, unless it is `exit` or `shutdown`. -/
theorem route_eq_answer {phase : Phase} {value : Json} (unreached : phase.call? value = none)
    (notExit : value.method? ≠ some .exit) (notShutdown : value.method? ≠ some .shutdown)
    : ∃ response, phase.route value = (phase, .answer response) := by
  rcases routed : phase.route value with ⟨next, verdict⟩
  have passage := phase.route_passage value
  rw [call?, routed] at unreached
  rw [routed] at passage
  cases passage with
  | refused => exact ⟨_, rfl⟩
  | exits phase named => exact absurd named notExit
  | cutsOff response named => exact absurd named notShutdown
  | begins | shutsDown | serves => contradiction

end Phase

namespace Rpc

/-- A message that is answered at once leaves the documents alone and logs nothing. -/
theorem step_of_answer {config : Config} {state : State} {value : Json} {phase : Phase}
    {response : Response} (routed : state.phase.route value = (phase, .answer response))
    : step config state value = ({ state with phase }, { response, log := [] }) := by
  rw [step, routed]

/-- A message that is run does to the documents what its call does, and reports its outcome. -/
theorem step_of_run {config : Config} {state : State} {value : Json} {phase : Phase}
    {id : Option RequestId} {call : Call}
    (routed : state.phase.route value = (phase, .run id call))
    : step config state value
      = ({ phase, store := (Server.handle config state.store call).1 },
          {
            response := .ofReply id (Server.handle config state.store call).2.reply,
            log := (Server.handle config state.store call).2.log
          }) := by
  rw [step, routed]

end Rpc

end HintServer
