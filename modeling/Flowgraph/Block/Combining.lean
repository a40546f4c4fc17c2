import Flowgraph.Block.Transfer
import Flowgraph.Integrator
import Flowgraph.Mixing

/-!
# Arithmetic blocks
-/

namespace Flowgraph

namespace Block

def limitRequest (params : Params) : Except Fault (Option Float) :=
  if (params.get "resetOnOverflow").isGiven then
    (params.getD "maxValue" (.float 1000)).toFloat.map some
  else .ok none

/-- Continue a running sum; the last sum is carried. -/
def integratorStep (limit : Option Float) (input : Signal) (total : Float) :
    Float × Except Fault (List Float) :=
  match (realGrid input).bind Grid.line? with
  | .error fault => (total, .error fault)
  | .ok samples =>
    let (total, output) := Integrator.feed limit total samples
    (total, .ok output)

def integratorRecord? : Record → Option Float
  | .integrator accumulator => some accumulator
  | _ => none

def integrator : Transfer := fun ctx record =>
  match ctx.first with
  | none => (record, ctx.silence)
  | some input =>
    match limitRequest ctx.params with
    | .error fault => (record, .error fault)
    | .ok limit =>
      let (record, result) := onRecord integratorRecord? .integrator "accumulator" record
        (integratorStep limit input)
      (record, result.map line)

def summer : Transfer := stateless fun ctx => do
  let inputs ← ctx.realInputs
  if inputs.isEmpty then ctx.silence
  else
    let buffers ← inputs.mapM Grid.line?
    return line (Mixing.sum ((buffers.head?.map List.length).getD 0) buffers)

def multiplier : Transfer := stateless fun ctx => do
  let inputs ← ctx.realInputs
  if inputs.length < 2 then ctx.silence
  else
    let buffers ← inputs.mapM Grid.line?
    return line (Mixing.product buffers)

end Block

end Flowgraph
