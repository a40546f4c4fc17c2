import Flowgraph.Block.Transfer

/-!
# One buffer after another

What a step answers when it is run again and again on the state that it carries,
and a process on its own record.
-/

namespace Flowgraph

/-! ## Steps that carry a state -/

namespace Carried

variable {σ β γ δ : Type}

/-- What a step answers to some inputs, each on the state that the one before it has left. -/
def outputs (step : σ → β → σ × γ) : σ → List β → List γ
  | _, [] => []
  | s, b :: rest => (step s b).2 :: outputs step (step s b).1 rest

def after (step : σ → β → σ × γ) : σ → List β → σ
  | s, [] => s
  | s, b :: rest => after step (step s b).1 rest

/--
Buffers whose answers each continue what a function gives for everything so far
are answered, together, with what it gives for all of them.
-/
theorem joined {step : σ → List β → σ × γ} {shown : List δ → γ} (whole : List β → List δ)
    (Holds : σ → List β → Prop)
    (next : ∀ {s : σ} {seen : List β}, Holds s seen → ∀ buffer, ∃ s' piece,
      step s buffer = (s', shown piece) ∧ Holds s' (seen ++ buffer) ∧
        whole (seen ++ buffer) = whole seen ++ piece)
    {s : σ} {seen : List β} (holds : Holds s seen) (buffers : List (List β)) :
    ∃ pieces : List (List δ), outputs step s buffers = pieces.map shown ∧
      Holds (after step s buffers) (seen ++ buffers.flatten) ∧
      whole (seen ++ buffers.flatten) = whole seen ++ pieces.flatten := by
  induction buffers generalizing s seen with
  | nil => exact ⟨[], rfl, by simpa [after] using holds, by simp⟩
  | cons buffer rest ih =>
      obtain ⟨s', piece, taken, holds', continues⟩ := next holds buffer
      obtain ⟨pieces, answered, last, together⟩ := ih holds'
      refine ⟨piece :: pieces, ?_, ?_, ?_⟩
      · rw [outputs, taken, answered, List.map_cons]
      · rwa [after, taken, List.flatten_cons, ← List.append_assoc]
      · rw [List.flatten_cons, List.flatten_cons, ← List.append_assoc, together, continues,
          List.append_assoc]

end Carried

namespace Block

/-- The rate of a buffer is a positive integer, and what it reads as. -/
structure Rated (ctx : Context) (rateHz : Float) where
  rate : Int
  positive : 0 < rate
  rate_eq : ctx.rate = .int rate
  read : Number.floatOfInt rate = .ok rateHz

namespace Transfer

/-- What a process answers in each of some cycles. -/
def outputs (process : Transfer) : Option Record → List Context → List (Except Fault Signal)
  | _, [] => []
  | record, ctx :: rest => (process ctx record).2 :: outputs process (process ctx record).1 rest

def recordAfter (process : Transfer) : Option Record → List Context → Option Record
  | record, [] => record
  | record, ctx :: rest => recordAfter process (process ctx record).1 rest

/-- A process that does the same in the first cycle does the same in all that follow. -/
theorem congr_first {process : Transfer} {record record' : Option Record} {ctx : Context}
    (same : process ctx record = process ctx record') (rest : List Context) :
    outputs process record (ctx :: rest) = outputs process record' (ctx :: rest) ∧
      recordAfter process record (ctx :: rest) = recordAfter process record' (ctx :: rest) := by
  simp only [outputs, recordAfter, same, and_self]

/-- A process that does what a step does, with its record for the state, runs as the step does. -/
theorem outputs_carried {σ β γ δ : Type} {process : Transfer} (step : σ → β → σ × γ)
    (shown : γ → Except Fault Signal) {put : σ → Record} {ctx : δ → Context} {input : δ → β}
    (carries : ∀ d s, process (ctx d) (some (put s)) =
      (some (put (step s (input d)).1), shown (step s (input d)).2))
    (s : σ) (turns : List δ) :
    outputs process (some (put s)) (turns.map ctx) =
        (Carried.outputs step s (turns.map input)).map shown ∧
      recordAfter process (some (put s)) (turns.map ctx) =
        some (put (Carried.after step s (turns.map input))) := by
  induction turns generalizing s with
  | nil => exact ⟨rfl, rfl⟩
  | cons d rest ih =>
      obtain ⟨answered, record⟩ := ih (step s (input d)).1
      simp only [List.map_cons, outputs, recordAfter, carries, answered, record, Carried.outputs,
        Carried.after, and_self]

end Transfer

end Block

end Flowgraph
