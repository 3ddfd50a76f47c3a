import HintServer.Proofs.Catalog.Lookup
import HintServer.Proofs.Catalog.Validation
import HintServer.Proofs.Session.Refinement
import HintServer.Session.Direct

/-! Debug mode only adds lines to the log.
Every call that has something to do traces it with one line, and `initialized` greets the client
besides; two sessions that differ in debug mode therefore only differ in their traces.
-/

namespace HintServer

/-- A line that begins with the mark of debugging. -/
def LogMessage.IsTrace (message : LogMessage) : Prop :=
  debugMark.toList <+: message.text.toList

instance : DecidablePred LogMessage.IsTrace :=
  fun message => inferInstanceAs (Decidable (LogMessage.debugMark.toList <+: message.text.toList))

/-- A call has nothing to do: it changes a document that is not open. -/
inductive Call.Misses (store : Store) : Call → Prop where
  | change {uri : Uri} {version : Int32} {texts : List String} (closed : uri ∉ store)
    : Misses store (.didChange uri version texts)

/-- What is seen of one message of a session: the call that it ran, if any, the documents before
and after it, its response, and the lines that were logged while it ran.
-/
structure Report (ρ : Type) where
  ran : Option Call
  before : Store
  after : Store
  response : ρ
  log : List LogMessage

variable {ρ : Type}

namespace Report

/-- A message that runs no call. -/
def idle (store : Store) (response : ρ) : Report ρ :=
  { ran := none, before := store, after := store, response, log := [] }

/-- A message that runs a call and is answered from its reply. -/
def ofCall (config : Config) (store : Store) (call : Call) (respond : Reply → ρ) : Report ρ :=
  {
    ran := some call,
    before := store,
    after := (Server.handle config store call).1,
    response := respond (Server.handle config store call).2.reply,
    log := (Server.handle config store call).2.log
  }

/-- Two reports that only differ in the traces that the second one has. -/
structure AddsTraces (quiet traced : Report ρ) : Prop where
  ran : quiet.ran = traced.ran
  before : quiet.before = traced.before
  after : quiet.after = traced.after
  response : quiet.response = traced.response
  log : quiet.log = traced.log.filter (fun message => ¬ message.IsTrace)

/-- What the log of a report holds under some settings. -/
structure Accounts (config : Config) (report : Report ρ) : Prop where
  info : ∀ message ∈ report.log, message.severity = .info
  idle : report.ran = none → report.log = []
  quiet
    : config.debug = false
      → report.log = if report.ran = some .initialized then [Server.welcome config] else []
  missed : ∀ call, report.ran = some call → call.Misses report.before → report.log = []
  traced
    : ∀ call,
        config.debug = true
        → report.ran = some call
        → ¬ call.Misses report.before
        → report.log.countP (fun message => message.IsTrace) = 1
  opened
    : ∀ uri languageId version text,
        report.ran = some (.didOpen uri languageId version text)
        → ∃ document,
            report.after[uri]? = some document
            ∧ report.log
              = Server.trace config
                  ("Document opened: " ++ uri.text ++ " (" ++ languageId ++ ", "
                    ++ toString document.text.utf8ByteSize ++ " bytes)")
  changed
    : ∀ uri version texts,
        report.ran = some (.didChange uri version texts)
        → uri ∈ report.before
        → ∃ document,
            report.after[uri]? = some document
            ∧ report.log
              = Server.trace config
                  ("Document changed: " ++ uri.text ++ " (v" ++ toString document.version.toInt
                    ++ ", " ++ toString document.text.utf8ByteSize ++ " bytes)")

end Report

-----------------------------------------------------------------------------------------
-- One call
-----------------------------------------------------------------------------------------

theorem LogMessage.isTrace_trace (text : String) : (trace text).IsTrace := by
  rw [IsTrace, trace, String.toList_append]
  exact List.prefix_append _ _

namespace Server

theorem eq_of_mem_trace {config : Config} {text : String} {message : LogMessage}
    (member : message ∈ trace config text)
    : message = .trace text := by
  unfold trace at member
  split at member
  · exact List.mem_singleton.mp member
  · contradiction

/-- The builtin catalog has nothing to complain of, since its names are distinct. -/
theorem catalogComplaint_eq_nil : catalogComplaint = [] := by
  have valid : Catalog.builtin.validate = .ok () :=
    Catalog.validate_ofList_eq_ok_iff.mpr Catalog.declared_names_nodup
  rw [catalogComplaint, valid]

theorem not_isTrace_welcome (config : Config) : ¬ (welcome config).IsTrace := by
  simp [LogMessage.IsTrace, LogMessage.debugMark, welcome]

/-- A call logs nothing if it misses; otherwise it traces its work, and `initialized` greets the
client after that. This is seen by cases on the call.
-/
theorem handle_log (config : Config) (store : Store) (call : Call)
    : call.Misses store ∧ (handle config store call).2.log = []
      ∨ ¬ call.Misses store
        ∧ ∃ text,
            (handle config store call).2.log
            = trace config text ++ if call = .initialized then [welcome config] else [] := by
  cases call with
  | didChange uri version texts =>
      by_cases isOpen : uri ∈ store
      · have works : ¬ (Call.didChange uri version texts).Misses store := by
          rintro ⟨closed⟩
          exact closed isOpen
        refine Or.inr ⟨works, ?_⟩
        simp [handle, isOpen]
      · refine Or.inl ⟨.change isOpen, ?_⟩
        simp [handle, isOpen]
  | handshake =>
      refine Or.inr ⟨by rintro ⟨⟩, ?_⟩
      simp [handle, catalogComplaint_eq_nil]
  | initialized | shutdown | didOpen | didClose | hover | completion =>
      refine Or.inr ⟨by rintro ⟨⟩, ?_⟩
      simp [handle]

theorem handle_log_of_misses {store : Store} {call : Call} (misses : call.Misses store)
    (config : Config)
    : (handle config store call).2.log = [] := by
  rcases handle_log config store call with ⟨-, silent⟩ | ⟨works, -⟩
  · exact silent
  · contradiction

/-- Without its traces the log of a call is the greeting, if it is `initialized`. -/
theorem filter_handle_log (config : Config) (store : Store) (call : Call)
    : (handle config store call).2.log.filter (fun message => ¬ message.IsTrace)
      = if call = .initialized then [welcome config] else [] := by
  rcases handle_log config store call with ⟨⟨closed⟩, silent⟩ | ⟨-, text, log⟩
  · rw [silent]
    rfl
  · have traces : (trace config text).filter (fun message => ¬ message.IsTrace) = [] := by
      refine List.filter_eq_nil_iff.mpr fun message member => ?_
      simp [eq_of_mem_trace member, LogMessage.isTrace_trace]
    rw [log, List.filter_append, traces, List.nil_append]
    split
    · simp [not_isTrace_welcome]
    · rfl

theorem handle_log_of_quiet {config : Config} (quiet : config.debug = false) (store : Store)
    (call : Call)
    : (handle config store call).2.log
      = if call = .initialized then [welcome config] else [] := by
  rcases handle_log config store call with ⟨⟨closed⟩, silent⟩ | ⟨-, text, log⟩
  · exact silent
  · simpa [trace, quiet] using log

theorem countP_handle_log_of_debug {config : Config} (debug : config.debug = true)
    {store : Store} {call : Call} (works : ¬ call.Misses store)
    : (handle config store call).2.log.countP (fun message => message.IsTrace) = 1 := by
  rcases handle_log config store call with ⟨misses, -⟩ | ⟨-, text, log⟩
  · contradiction
  · rw [log, trace, if_pos debug]
    split <;> simp [LogMessage.isTrace_trace, not_isTrace_welcome]

theorem severity_of_mem_handle_log {config : Config} {store : Store} {call : Call}
    {message : LogMessage} (member : message ∈ (handle config store call).2.log)
    : message.severity = .info := by
  rcases handle_log config store call with ⟨-, silent⟩ | ⟨-, text, log⟩
  · rw [silent] at member
    contradiction
  · rw [log, List.mem_append] at member
    rcases member with traced | greeting
    · rw [eq_of_mem_trace traced, LogMessage.trace]
    · split at greeting
      · rw [List.mem_singleton.mp greeting, welcome]
      · contradiction

/-- Settings of the same languages leave the same documents and give the same reply, by cases on
the call.
-/
theorem handle_of_languages {config config' : Config} (same : config.languages = config'.languages)
    (store : Store) (call : Call)
    : (handle config store call).1 = (handle config' store call).1
      ∧ (handle config store call).2.reply = (handle config' store call).2.reply := by
  cases call with
  | didChange uri version texts =>
      simp only [handle]
      cases store[uri]? <;> exact ⟨rfl, rfl⟩
  | hover | completion => simp [handle, served?, Config.supports, same]
  | handshake | initialized | shutdown | didOpen | didClose => exact ⟨rfl, rfl⟩

end Server

-----------------------------------------------------------------------------------------
-- One message
-----------------------------------------------------------------------------------------

namespace Report

theorem idle_addsTraces (store : Store) (response : ρ)
    : (idle store response).AddsTraces (idle store response) where
  ran := rfl
  before := rfl
  after := rfl
  response := rfl
  log := rfl

/-- A call that runs with and without debug mode is reported alike up to its traces. -/
theorem ofCall_addsTraces {config config' : Config} (quiet : config.debug = false)
    (same : config.languages = config'.languages) (store : Store) (call : Call)
    (respond : Reply → ρ)
    : (ofCall config store call respond).AddsTraces (ofCall config' store call respond) where
  ran := rfl
  before := rfl
  after := (Server.handle_of_languages same store call).1
  response := congrArg respond (Server.handle_of_languages same store call).2
  log := by
    have greeting : Server.welcome config = Server.welcome config' := by
      rw [Server.welcome, Server.welcome, same]
    rw [ofCall, Server.handle_log_of_quiet quiet, ofCall, Server.filter_handle_log, greeting]

theorem idle_accounts (config : Config) (store : Store) (response : ρ)
    : (idle store response).Accounts config where
  info := by simp [idle]
  idle _ := rfl
  quiet _ := rfl
  missed _ ran := by contradiction
  traced _ _ ran := by contradiction
  opened _ _ _ _ ran := by contradiction
  changed _ _ _ ran := by contradiction

theorem ofCall_accounts (config : Config) (store : Store) (call : Call) (respond : Reply → ρ)
    : (ofCall config store call respond).Accounts config where
  info _ member := Server.severity_of_mem_handle_log member
  idle ran := by contradiction
  quiet quiet := by simpa [ofCall] using Server.handle_log_of_quiet quiet store call
  missed other ran misses := by
    obtain rfl : call = other := Option.some.inj ran
    exact Server.handle_log_of_misses misses config
  traced other debug ran works := by
    obtain rfl : call = other := Option.some.inj ran
    exact Server.countP_handle_log_of_debug debug works
  opened uri languageId version text ran := by
    obtain rfl : call = .didOpen uri languageId version text := Option.some.inj ran
    exact ⟨_, Std.ExtHashMap.getElem?_insert_self, rfl⟩
  changed uri version texts ran isOpen := by
    obtain rfl : call = .didChange uri version texts := Option.some.inj ran
    have held : store[uri]? = some store[uri] := Std.ExtHashMap.getElem?_eq_some_getElem isOpen
    simp only [ofCall, Server.handle, held]
    exact ⟨_, Std.ExtHashMap.getElem?_insert_self, rfl⟩

end Report

namespace Direct

/-- The report of a message of a session without a life cycle. -/
def report (config : Config) (exchange : Exchange Store Json (Except Refusal Outcome))
    : Report (Except Refusal Reply) :=
  {
    ran := (call exchange.input).toOption,
    before := exchange.state,
    after := (step config exchange.state exchange.input).1,
    response := exchange.output.map (·.reply),
    log :=
      match exchange.output with
      | .ok outcome => outcome.log
      | .error _ => []
  }

def reports (config : Config) (store : Store) (messages : List Json)
    : List (Report (Except Refusal Reply)) :=
  (transcript (step config) store messages).map (report config)

/-- A message either runs its call or is refused. -/
theorem report_step (config : Config) (store : Store) (value : Json)
    : report config ⟨store, value, (step config store value).2⟩
      = match call value with
        | .error refusal => .idle store (.error refusal)
        | .ok call => .ofCall config store call .ok := by
  rw [report, step]
  cases call value <;> rfl

theorem step_addsTraces {config config' : Config} (quiet : config.debug = false)
    (same : config.languages = config'.languages) (store : Store) (value : Json)
    : Report.AddsTraces (report config ⟨store, value, (step config store value).2⟩)
        (report config' ⟨store, value, (step config' store value).2⟩) := by
  rw [report_step, report_step]
  cases call value with
  | error refusal => exact Report.idle_addsTraces store _
  | ok call => exact Report.ofCall_addsTraces quiet same store call _

theorem step_accounts (config : Config) (store : Store) (value : Json)
    : (report config ⟨store, value, (step config store value).2⟩).Accounts config := by
  rw [report_step]
  cases call value with
  | error refusal => exact Report.idle_accounts config store _
  | ok call => exact Report.ofCall_accounts config store call _

end Direct

namespace Rpc

/-- The report of a message of a session with a life cycle. -/
def report (config : Config) (exchange : Exchange State Json Answer) : Report Response :=
  {
    ran := reached? exchange,
    before := exchange.state.store,
    after := (step config exchange.state exchange.input).1.store,
    response := exchange.output.response,
    log := exchange.output.log
  }

def reports (config : Config) (state : State) (messages : List Json) : List (Report Response) :=
  (transcript (step config) state messages).map (report config)

/-- A message either runs its call or is answered at once. -/
theorem report_step (config : Config) (state : State) (value : Json)
    : report config ⟨state, value, (step config state value).2⟩
      = match state.phase.route value with
        | (_, .answer response) => .idle state.store response
        | (_, .run id call) => .ofCall config state.store call (.ofReply id) := by
  rcases routed : state.phase.route value with ⟨phase, verdict⟩
  cases verdict with
  | answer response =>
      simp only [report, reached?, Phase.call?, routed, step_of_answer routed, Report.idle]
  | run id call =>
      simp only [report, reached?, Phase.call?, routed, step_of_run routed, Report.ofCall]

/-- Settings of the same languages move a session alike. -/
theorem step_of_languages {config config' : Config} (same : config.languages = config'.languages)
    (state : State) (value : Json)
    : (step config state value).1 = (step config' state value).1 := by
  rcases routed : state.phase.route value with ⟨phase, verdict⟩
  cases verdict with
  | answer response => rw [step_of_answer routed, step_of_answer routed]
  | run id call =>
      rw [step_of_run routed, step_of_run routed,
        (Server.handle_of_languages same state.store call).1]

theorem step_addsTraces {config config' : Config} (quiet : config.debug = false)
    (same : config.languages = config'.languages) (state : State) (value : Json)
    : Report.AddsTraces (report config ⟨state, value, (step config state value).2⟩)
        (report config' ⟨state, value, (step config' state value).2⟩) := by
  rw [report_step, report_step]
  rcases state.phase.route value with ⟨phase, verdict⟩
  cases verdict with
  | answer response => exact Report.idle_addsTraces state.store response
  | run id call => exact Report.ofCall_addsTraces quiet same state.store call _

theorem step_accounts (config : Config) (state : State) (value : Json)
    : (report config ⟨state, value, (step config state value).2⟩).Accounts config := by
  rw [report_step]
  rcases state.phase.route value with ⟨phase, verdict⟩
  cases verdict with
  | answer response => exact Report.idle_accounts config state.store response
  | run id call => exact Report.ofCall_accounts config state.store call _

end Rpc

-----------------------------------------------------------------------------------------
-- Sessions
-----------------------------------------------------------------------------------------

theorem Direct.reports_addTraces {config config' : Config} (quiet : config.debug = false)
    (same : config.languages = config'.languages) (store : Store) (messages : List Json)
    : List.Forall₂ Report.AddsTraces (reports config store messages)
          (reports config' store messages)
        ∧ (run config store messages).1 = (run config' store messages).1 := by
  rw [reports, reports, List.forall₂_map_left_iff, List.forall₂_map_right_iff]
  refine transcript_forall₂ ?_ (step_addsTraces quiet same) store messages
  exact fun store value => (step_addsTraces quiet same store value).after

theorem Rpc.reports_addTraces {config config' : Config} (quiet : config.debug = false)
    (same : config.languages = config'.languages) (state : State) (messages : List Json)
    : List.Forall₂ Report.AddsTraces (reports config state messages)
          (reports config' state messages)
        ∧ (run config state messages).1 = (run config' state messages).1 := by
  rw [reports, reports, List.forall₂_map_left_iff, List.forall₂_map_right_iff]
  exact transcript_forall₂ (step_of_languages same) (step_addsTraces quiet same) state messages

theorem Direct.accounts_of_mem_reports {config : Config} {store : Store} {messages : List Json}
    {seen : Report (Except Refusal Reply)} (member : seen ∈ reports config store messages)
    : seen.Accounts config := by
  obtain ⟨⟨store, value, output⟩, entry, rfl⟩ := List.mem_map.mp member
  obtain rfl : output = (step config store value).2 := output_of_mem_transcript entry
  exact step_accounts config store value

theorem Rpc.accounts_of_mem_reports {config : Config} {state : State} {messages : List Json}
    {seen : Report Response} (member : seen ∈ reports config state messages)
    : seen.Accounts config := by
  obtain ⟨⟨state, value, output⟩, entry, rfl⟩ := List.mem_map.mp member
  obtain rfl : output = (step config state value).2 := output_of_mem_transcript entry
  exact step_accounts config state value

/-- Debug mode only adds traces. Whatever languages are served, with and without it a session of
either kind gives each message the same response and leaves the same documents after it, and logs
the same lines once traces are left out; and in any session the log of each message holds what
its report accounts for.
-/
theorem debug_mode_only_adds_traces (languages : List String)
    : let quiet : Config := { debug := false, languages }
      let traced : Config := { debug := true, languages }
      (∀ store messages,
          List.Forall₂ Report.AddsTraces (Direct.reports quiet store messages)
              (Direct.reports traced store messages)
            ∧ (Direct.run quiet store messages).1 = (Direct.run traced store messages).1)
        ∧ (∀ state messages,
            List.Forall₂ Report.AddsTraces (Rpc.reports quiet state messages)
                (Rpc.reports traced state messages)
              ∧ (Rpc.run quiet state messages).1 = (Rpc.run traced state messages).1)
        ∧ ∀ config : Config,
            (∀ store messages,
                ∀ report ∈ Direct.reports config store messages, report.Accounts config)
              ∧ ∀ state messages,
                  ∀ report ∈ Rpc.reports config state messages, report.Accounts config := by
  intro quiet traced
  refine ⟨Direct.reports_addTraces rfl rfl, Rpc.reports_addTraces rfl rfl, fun config => ?_⟩
  exact ⟨fun _ _ _ => Direct.accounts_of_mem_reports, fun _ _ _ => Rpc.accounts_of_mem_reports⟩

/-- The opening of a document of one character and two bytes is traced with its size, and a change
of another document is not traced.
-/
theorem opening_is_traced
    : let config : Config := { debug := true, languages := ["typescript"] }
      let opening : Json :=
        .obj
          [("method", .str "textDocument/didOpen"),
            ("params",
              .obj
                [("textDocument",
                    .obj
                      [("uri", .str "file:///a.js"), ("languageId", .str "javascript"),
                        ("version", .int 1), ("text", .str "é")])])]
      let change : Json :=
        .obj
          [("method", .str "textDocument/didChange"),
            ("params",
              .obj
                [("textDocument", .obj [("uri", .str "file:///b.js"), ("version", .int 2)]),
                  ("contentChanges", .arr [.obj [("text", .str "chunk")]])])]
      ∃ opened missed,
        Direct.reports config ∅ [opening, change] = [opened, missed]
        ∧ opened.ran = some (.didOpen ⟨"file:///a.js"⟩ "javascript" 1 "é")
        ∧ opened.log
          = [.trace "Document opened: file:///a.js (javascript, 2 bytes)"]
        ∧ opened.log.countP (fun message => message.IsTrace) = 1
        ∧ missed.ran = some (.didChange ⟨"file:///b.js"⟩ 2 ["chunk"])
        ∧ missed.log = [] := by
  intro config opening change
  obtain ⟨-, -, accounts⟩ := debug_mode_only_adds_traces ["typescript"]
  have account := (accounts config).1 ∅ [opening, change]
  refine ⟨_, _, rfl, rfl, rfl, ?_, rfl, ?_⟩
  · exact (account _ List.mem_cons_self).traced _ rfl rfl (by rintro ⟨⟩)
  · have held : (Direct.step config ∅ opening).1
        = (∅ : Store).insert ⟨"file:///a.js"⟩ (Document.ofText "é" "javascript" 1) := rfl
    have closed : (⟨"file:///b.js"⟩ : Uri) ∉ (Direct.step config ∅ opening).1 := by
      simp [held]
    exact (account _ (List.mem_cons_of_mem _ List.mem_cons_self)).missed _ rfl (.change closed)

end HintServer
