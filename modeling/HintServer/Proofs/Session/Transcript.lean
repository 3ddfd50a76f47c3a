import HintServer.Server.Replay
import Mathlib.Data.List.Forall2

/-! Runs step by step.
A transcript keeps each input of a run with the state that it met and the output that it got, so
that a statement about some of the steps can be made about their entries.
-/

namespace HintServer

variable {σ α β : Type}

/-- A step of a run: an input, the state before it and its output. -/
structure Exchange (σ α β : Type) where
  state : σ
  input : α
  output : β

/-- The steps of a machine's run from a state. -/
def transcript (step : σ → α → σ × β) (state : σ) : List α → List (Exchange σ α β)
  | [] => []
  | input :: rest =>
      { state, input, output := (step state input).2 }
        :: transcript step (step state input).1 rest

theorem transcript_cons (step : σ → α → σ × β) (state : σ) (input : α) (rest : List α)
    : transcript step state (input :: rest)
      = { state, input, output := (step state input).2 }
        :: transcript step (step state input).1 rest :=
  rfl

/-- The outputs of a transcript are those of the run, by induction on the inputs. -/
theorem transcript_map_output (step : σ → α → σ × β) (state : σ) (inputs : List α)
    : (transcript step state inputs).map (·.output) = (replay step state inputs).2 := by
  induction inputs generalizing state with
  | nil => rfl
  | cons input rest ih => rw [transcript_cons, List.map_cons, ih, replay_cons]

/-- A transcript grows at its end by the exchange of the next input, by induction on the inputs
before it.
-/
theorem transcript_append_singleton (step : σ → α → σ × β) (state : σ) (inputs : List α)
    (input : α)
    : transcript step state (inputs ++ [input])
      = transcript step state inputs
        ++ [{
            state := (replay step state inputs).1,
            input,
            output := (step (replay step state inputs).1 input).2
          }] := by
  induction inputs generalizing state with
  | nil => rfl
  | cons first rest ih =>
      rw [List.cons_append, transcript_cons, ih, transcript_cons, replay_cons]
      rfl

/-- A transcript can be cut before an entry: the entry is that of an input that meets the state
after the inputs before it, by induction on the part before the cut.
-/
theorem transcript_eq_append_cons {step : σ → α → σ × β} {state : σ} {inputs : List α}
    {earlier later : List (Exchange σ α β)} {exchange : Exchange σ α β}
    (split : transcript step state inputs = earlier ++ exchange :: later)
    : ∃ before after,
        inputs = before ++ exchange.input :: after
        ∧ earlier = transcript step state before
        ∧ exchange.state = (replay step state before).1
        ∧ exchange.output = (step exchange.state exchange.input).2 := by
  induction earlier generalizing state inputs with
  | nil =>
      cases inputs with
      | nil => contradiction
      | cons input rest =>
          obtain ⟨rfl, -⟩ := List.cons.inj split
          exact ⟨[], rest, rfl, rfl, rfl, rfl⟩
  | cons first earlier ih =>
      cases inputs with
      | nil => contradiction
      | cons input rest =>
          obtain ⟨rfl, tailSplit⟩ := List.cons.inj split
          obtain ⟨before, after, rfl, rfl, state, output⟩ := ih tailSplit
          exact ⟨input :: before, after, rfl, rfl, state, output⟩

/-- An entry of a transcript has the output of its own step. -/
theorem output_of_mem_transcript {step : σ → α → σ × β} {state : σ} {inputs : List α}
    {exchange : Exchange σ α β} (member : exchange ∈ transcript step state inputs)
    : exchange.output = (step exchange.state exchange.input).2 := by
  obtain ⟨earlier, later, split⟩ := List.append_of_mem member
  obtain ⟨-, -, -, -, -, output⟩ := transcript_eq_append_cons split
  exact output

-----------------------------------------------------------------------------------------
-- Two machines
-----------------------------------------------------------------------------------------

/-- Two machines that move alike go through the same states, and their entries are related when
those of single steps are, by induction on the inputs.
-/
theorem transcript_forall₂ {step step' : σ → α → σ × β}
    {related : Exchange σ α β → Exchange σ α β → Prop}
    (alike : ∀ state input, (step state input).1 = (step' state input).1)
    (relates
      : ∀ state input,
          related { state, input, output := (step state input).2 }
            { state, input, output := (step' state input).2 })
    (state : σ) (inputs : List α)
    : List.Forall₂ related (transcript step state inputs) (transcript step' state inputs)
      ∧ (replay step state inputs).1 = (replay step' state inputs).1 := by
  induction inputs generalizing state with
  | nil => exact ⟨.nil, rfl⟩
  | cons input rest ih =>
      obtain ⟨later, final⟩ := ih (step' state input).1
      rw [transcript_cons, transcript_cons, replay_cons, replay_cons, alike]
      exact ⟨.cons (relates state input) later, final⟩

-----------------------------------------------------------------------------------------
-- Leaving steps out
-----------------------------------------------------------------------------------------

/-- What is left of a list when any items with a property are deleted from it. -/
inductive Thins (removable : α → Prop) : List α → List α → Prop where
  | nil : Thins removable [] []
  | keep {items kept : List α} (item : α)
    : Thins removable items kept → Thins removable (item :: items) (item :: kept)
  | delete {items kept : List α} {item : α} (removed : removable item)
    : Thins removable items kept → Thins removable (item :: items) kept

/-- Steps that leave the state alone can be left out of a run, by induction on the inputs: every
other step meets the state that it met before, so that what is left of the transcript is the
transcript of what is left.
-/
theorem transcript_of_thins {step : σ → α → σ × β} {removable : Exchange σ α β → Prop}
    (idle
      : ∀ exchange,
          exchange.output = (step exchange.state exchange.input).2
          → removable exchange
          → (step exchange.state exchange.input).1 = exchange.state)
    {state : σ} {inputs : List α} {kept : List (Exchange σ α β)}
    (thins : Thins removable (transcript step state inputs) kept)
    : transcript step state (kept.map (·.input)) = kept
      ∧ (replay step state (kept.map (·.input))).1 = (replay step state inputs).1 := by
  induction inputs generalizing state kept with
  | nil =>
      cases thins with
      | nil => exact ⟨rfl, rfl⟩
  | cons input rest ih =>
      cases thins with
      | keep item thins =>
          obtain ⟨same, final⟩ := ih thins
          constructor
          · rw [List.map_cons, transcript_cons, same]
          · rw [List.map_cons, replay_cons, replay_cons, final]
      | delete removed thins =>
          have still := idle _ rfl removed
          rw [still] at thins
          rw [replay_cons, still]
          exact ih thins

/-- Left-out steps that leave the state alone do not show in a run. -/
theorem replay_of_thins {step : σ → α → σ × β} {removable : Exchange σ α β → Prop}
    (idle
      : ∀ exchange,
          exchange.output = (step exchange.state exchange.input).2
          → removable exchange
          → (step exchange.state exchange.input).1 = exchange.state)
    {state : σ} {inputs : List α} {kept : List (Exchange σ α β)}
    (thins : Thins removable (transcript step state inputs) kept)
    : replay step state (kept.map (·.input))
      = ((replay step state inputs).1, kept.map (·.output)) := by
  obtain ⟨same, final⟩ := transcript_of_thins idle thins
  have outputs := transcript_map_output step state (kept.map (·.input))
  rw [same] at outputs
  rw [← final, outputs]

end HintServer
