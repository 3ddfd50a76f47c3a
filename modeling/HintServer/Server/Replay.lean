/-! Running a machine over a list of inputs. -/

namespace HintServer

variable {σ α β : Type}

/-- Feeds inputs to a machine one after the other and collects its outputs. -/
def replay (step : σ → α → σ × β) (state : σ) : List α → σ × List β
  | [] => (state, [])
  | input :: rest =>
      let (next, output) := step state input
      let (final, outputs) := replay step next rest
      (final, output :: outputs)

@[simp] theorem replay_nil (step : σ → α → σ × β) (state : σ)
    : replay step state [] = (state, []) :=
  rfl

/-- The first input is taken before the rest, by definition. -/
theorem replay_cons (step : σ → α → σ × β) (state : σ) (input : α) (rest : List α)
    : replay step state (input :: rest)
      = ((replay step (step state input).1 rest).1,
          (step state input).2 :: (replay step (step state input).1 rest).2) :=
  rfl

/-- Inputs in two parts are taken part by part, by induction on the first. -/
theorem replay_append (step : σ → α → σ × β) (state : σ) (first second : List α)
    : replay step state (first ++ second)
      = ((replay step (replay step state first).1 second).1,
          (replay step state first).2 ++ (replay step (replay step state first).1 second).2) := by
  induction first generalizing state with
  | nil => simp
  | cons input rest ih => simp [replay_cons, ih]

end HintServer
