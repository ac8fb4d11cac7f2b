import InjectionPlan.Dot.Output
import InjectionPlan.Plan.Document
import InjectionPlan.Session.Basic

namespace InjectionPlan

/-!
# Rendering a plan

A rendering is the opening of the graph, a statement for each descriptor of the plan, and the
closing.  Each of the three can be cut short by the output, and the middle one also by the plan
itself; what had been written until then stays in the output.
-/

namespace Dot

/-- Where a rendering stopped, and why. -/
inductive RenderError
  | preamble (refusal : Refusal)
  | content (error : DumpError)
  | closing (refusal : Refusal)
deriving DecidableEq

/-- A finished rendering. -/
structure Rendering where
  outcome : Except RenderError Summary
  output : Output
  log : List LogEvent

end Dot

/-- Writes a plan as a DOT graph to an output that holds at most `quota` bytes. -/
def Plan.render (plan : Plan) (settings : Dot.Settings) (quota : Option Nat) : Dot.Rendering :=
  match Dot.Output.start settings quota with
  | (.error refusal, output) => ⟨.error (.preamble refusal), output, []⟩
  | (.ok (), output) =>
    match plan.graph.dump plan.root plan.unshared Dot.sink output with
    | (.error error, session) => ⟨.error (.content error), session.store, session.log.toList⟩
    | (.ok summary, session) =>
      match session.store.finish with
      | (.error refusal, output) => ⟨.error (.closing refusal), output, session.log.toList⟩
      | (.ok (), output) => ⟨.ok summary, output, session.log.toList⟩

end InjectionPlan
