/-!
# Runs of step functions

Connections, endpoints, links, pairs and servers are all state machines, given by a
function that takes a state and an input to the next state and the outputs of that step.
This module runs such a function on a sequence of inputs and says how runs compose.
-/

namespace DuplexRpc

variable {σ α β : Type}

/-- Run a step function on a sequence of inputs: the last state, and all outputs in order. -/
def runSteps (step : σ → α → σ × List β) (s : σ) : List α → σ × List β
  | [] => (s, [])
  | input :: rest =>
    let (s, first) := step s input
    let (s, later) := runSteps step s rest
    (s, first ++ later)

variable (step : σ → α → σ × List β)

@[simp] theorem runSteps_nil (s : σ) : runSteps step s [] = (s, []) := rfl

@[simp] theorem runSteps_cons (s : σ) (input : α) (rest : List α) :
    runSteps step s (input :: rest) =
      ((runSteps step (step s input).1 rest).1,
        (step s input).2 ++ (runSteps step (step s input).1 rest).2) := rfl

theorem runSteps_append (s : σ) (inputs later : List α) :
    runSteps step s (inputs ++ later) =
      ((runSteps step (runSteps step s inputs).1 later).1,
        (runSteps step s inputs).2 ++ (runSteps step (runSteps step s inputs).1 later).2) := by
  induction inputs generalizing s with
  | nil => simp
  | cons input rest ih => simp [ih, List.append_assoc]

/-- What every step keeps of the state and all outputs so far is kept by every run. -/
theorem runSteps_trace_invariant {P : σ → List β → Prop}
    (h : ∀ s outputs input, P s outputs → P (step s input).1 (outputs ++ (step s input).2)) {s : σ}
    {outputs : List β} (hs : P s outputs) (inputs : List α) :
    P (runSteps step s inputs).1 (outputs ++ (runSteps step s inputs).2) := by
  induction inputs generalizing s outputs with
  | nil => rwa [runSteps_nil, List.append_nil]
  | cons input rest ih =>
    rw [runSteps_cons, ← List.append_assoc]
    exact ih (h s outputs input hs)

end DuplexRpc
