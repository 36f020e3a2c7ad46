import PerpClient.Api.Basic
/-!
# Requests with a list of steps

A stateful request carries `steps`, a list of step objects, each naming what it does in `do`.
The steps run in order against one state; each answers one value, and a malformed step answers
`badInput` in its own slot and leaves the state as it was, so the later steps still run.
-/

namespace PerpClient.Api

open Json

/-- Runs `step` over the steps from `init`; answers the step answers in order and the final state. -/
def runStepsFrom {σ : Type} (step : σ → Value → Option (σ × Value)) (init : σ)
    (steps : List Value) : List Value × σ :=
  let (answers, final) := steps.foldl (fun (acc : List Value × σ) (s : Value) =>
    match step acc.2 s with
    | some (st, out) => (out :: acc.1, st)
    | none => (badInput :: acc.1, acc.2)) ([], init)
  (answers.reverse, final)

/-- The answers to the `steps` of a request, run from `init`. -/
def runSteps {σ : Type} (step : σ → Value → Option (σ × Value)) (init : σ) (v : Value) :
    Option Value := do
  let steps ← (v.field? "steps").bind Value.arr?
  pure (.arr (runStepsFrom step init steps).1)

/-- The `do` of a step. -/
def stepName (v : Value) : Option String := (v.field? "do").bind Value.str?

end PerpClient.Api
