import Flowgraph.Catalog.Builtin
import Flowgraph.Proofs.Block.Redesign
import Flowgraph.Proofs.Block.Sequence
import Flowgraph.Proofs.Filter.Gain
import Flowgraph.Proofs.Number.Real

/-!
# Constants through filter blocks

A lowpass or highpass block designs its taps once and feeds its buffers to them
one after another.  In exact arithmetic a constant leaves a lowpass as it came
and a highpass as nothing, as soon as as much was fed as there are taps.
-/

namespace Flowgraph

/-! ## What a design returns -/

namespace Filter

theorem design_spec {memory : Memory} {order cutoff rate kind : Value} {taps : List Float}
    (made : design memory order cutoff rate kind = .ok taps) :
    ∃ (n : Nat) (x rateHz : Float) (name : String) (response : Response),
      order.toInt = .ok n ∧ 1 ≤ n ∧ cutoff.toFloat = .ok x ∧ rate.toFloat = .ok rateHz ∧
        kind = .text name ∧ Response.ofName? name = some response ∧
        taps? response n x rateHz = some taps := by
  obtain ⟨n, ordered, made⟩ := of_bind_eq_ok made
  by_cases few : n < 1
  · rw [if_pos few] at made
    cases made
  rw [if_neg few] at made
  obtain ⟨bound, -, made⟩ := of_bind_eq_ok made
  by_cases slow : bound.le (.int 0)
  · rw [if_pos slow] at made
    cases made
  rw [if_neg slow] at made
  cases kind with
  | text name =>
      cases known : Response.ofName? name with
      | none =>
          simp only [known] at made
          cases made
      | some response =>
          simp only [known, pure_bind] at made
          obtain ⟨x, cut, made⟩ := of_bind_eq_ok made
          obtain ⟨rateHz, read, made⟩ := of_bind_eq_ok made
          obtain ⟨count, ranged, made⟩ := of_bind_eq_ok made
          cases scaled : taps? response count x rateHz with
          | none =>
              simp only [scaled] at made
              cases made
          | some taps' =>
              simp only [scaled] at made
              cases made
              obtain ⟨-, rfl⟩ := memory.rangeLength_eq_ok_iff.mp ranged
              refine ⟨n.toNat, x, rateHz, name, response, ?_, by omega, cut, read, rfl, known,
                scaled⟩
              rw [ordered, Int.toNat_of_nonneg (by omega)]
  | _ => cases made

end Filter

namespace Block

open Flowgraph.Filter

structure Asking (memory : Memory) (p : FirDesign) where
  turn : Turn memory
  samples : List Float
  buffer_eq : turn.buffer = some samples
  design_eq : firDesign memory (some p.kind) turn = .ok p

theorem streamed_line (key : DesignKey) (design : Unit → Except Fault (List Float))
    (buffer : List Float) (s : StreamFilter) :
    streamed key design (.line buffer) s = s.serve key design buffer := by
  unfold streamed Stream.serve
  rw [Grid.line?_line]
  rcases s.prepare key design with ⟨s', fault | ⟨⟩⟩ <;> rfl

theorem outputs_fir {memory : Memory} (p : FirDesign) (turns : List (Asking memory p)) :
    (fir (some p.kind)).outputs (some (.filter .fresh)) (turns.map (·.turn.ctx)) =
      (Carried.outputs (Stream.serve p.key fun () => p.taps memory) .fresh
        (turns.map (·.samples))).map (Except.map line) := by
  refine (Transfer.outputs_carried _ (Except.map line) (fun asking s => ?_)
    Stream.fresh turns).1
  rw [(oneFilter_fir memory (some p.kind)).served asking.turn s asking.samples p asking.buffer_eq
    asking.design_eq, streamed_line]

end Block

namespace Filter

/--
Gain at zero frequency.  On doubles a filter block that is asked for one design
serves its buffers with the taps of that design, one after another; a design that
returns has given as many taps as its order says, made from a prototype by the
kernel.  In any ordered field, whatever the values of the prototype are, the taps
of a lowpass sum to one and those of a highpass to zero, and however a constant is
cut into buffers, from the last tap on a lowpass gives it as it is and a highpass
gives nothing.
-/
theorem gain_exact :
    -- on doubles
    (∀ (memory : Memory) (p : Block.FirDesign) (turns : List (Block.Asking memory p)),
      (Block.fir (some p.kind)).outputs (some (.filter .fresh)) (turns.map (·.turn.ctx)) =
          (Carried.outputs (Stream.serve p.key fun () => p.taps memory) .fresh
            (turns.map (·.samples))).map (Except.map Block.line) ∧
        (p.cutoff.isNaN = false → (p.key == p.key) = true)) ∧
    (∀ (memory : Memory) (order cutoff rate kind : Value) (taps : List Float),
      design memory order cutoff rate kind = .ok taps →
        ∃ (n : Nat) (x rateHz : Float) (name : String) (response : Response),
          order.toInt = .ok n ∧ 1 ≤ n ∧ cutoff.toFloat = .ok x ∧ rate.toFloat = .ok rateHz ∧
            kind = .text name ∧ Response.ofName? name = some response ∧
            response.scaled? (prototype n (normalized x rateHz)) = some taps ∧
            taps.length = n) ∧
    -- in any ordered field
    (∀ (K : Type) [Field K] [LinearOrder K] [Elementary K] [BEq K] (response : Response) (n : Nat)
      (cutoff rate : K),
      taps? response n cutoff rate = response.scaled? (prototype n (normalized cutoff rate)) ∧
        (prototype n (normalized cutoff rate)).length = n) ∧
    ∀ (K : Type) [Field K] [LinearOrder K] (response : Response) (values taps : List K),
      response.scaled? values = some taps →
        taps.length = values.length ∧ taps.sum = response.steady 1 ∧
          ∀ (key : DesignKey), (key == key) = true → ∀ (c : K) (sizes : List Nat),
            ∃ pieces : List (List K),
              Carried.outputs (Stream.serve key fun () => .ok taps) .fresh
                  (sizes.map (List.replicate · c)) = pieces.map .ok ∧
                pieces.flatten.length = sizes.sum ∧
                ∀ i (inside : i < pieces.flatten.length), values.length - 1 ≤ i →
                  pieces.flatten[i] = response.steady c := by
  refine ⟨fun memory p turns =>
    ⟨Block.outputs_fir p turns, fun number => Block.firKey_self _ _ number _⟩, ?_, ?_, ?_⟩
  · intro memory order cutoff rate kind taps made
    obtain ⟨n, x, rateHz, name, response, ordered, least, cut, read, named, known, made⟩ :=
      design_spec made
    rw [taps?_eq_scaled?] at made
    refine ⟨n, x, rateHz, name, response, ordered, least, cut, read, named, known, made, ?_⟩
    rw [length_of_scaled? made, length_prototype]
  · intro K _ _ _ _ response n cutoff rate
    exact ⟨taps?_eq_scaled? response n cutoff rate, length_prototype n _⟩
  · intro K _ _ response values taps made
    exact ⟨length_of_scaled? made, sum_scaled? made,
      fun key reflexive => steady_of_scaled? made reflexive⟩

/-- The built-in lowpass and highpass, which start without taps. -/
example :
    ["LOWPASS_FIR", "HIGHPASS_FIR"].map (fun id =>
        (Catalog.builtin.resolve id).map fun d => (d.process, d.initialRecord)) =
      ["lowpass", "highpass"].map fun kind =>
        some (Block.fir (some kind), .ok (some (.filter .fresh))) := by
  rfl

def Block.loweringTurn (samples : List Float) :
    Block.Asking Machine.bare.memory ⟨"lowpass", 2, 1000, 48000⟩ where
  turn :=
    { ctx :=
        { inputs := [some (Block.line samples)]
          params := [("order", .int 2), ("cutoff", .float 1000)]
          rate := .int 48000
          size := .int samples.length
          machine := .bare }
      rate := 48000
      size := samples.length
      buffer := some samples
      rate_eq := rfl
      size_eq := rfl
      first_eq := rfl
      memory_eq := rfl
      room := nofun }
  samples := samples
  buffer_eq := rfl
  design_eq := rfl

/-- From the second sample on, five leaves two taps of a lowpass as five. -/
theorem gain_exact_cut :
    let p : Block.FirDesign := ⟨"lowpass", 2, 1000, 48000⟩
    (Block.fir (some "lowpass")).outputs (some (.filter .fresh))
        [(Block.loweringTurn [1]).turn.ctx, (Block.loweringTurn [2, 3]).turn.ctx] =
      (Carried.outputs (Stream.serve p.key fun () => p.taps Machine.bare.memory) .fresh
        [[1], [2, 3]]).map (Except.map Block.line) ∧
    Response.lowpass.scaled? [1, 3] = some [1 / 4, (3 / 4 : ℚ)] ∧
    (p.key == p.key) = true ∧
    (∃ pieces : List (List ℚ),
      Carried.outputs (Stream.serve p.key fun () => .ok [1 / 4, (3 / 4 : ℚ)]) .fresh
          [[5], [], [5, 5]] =
          pieces.map .ok ∧
        pieces.flatten.length = 3 ∧ ∀ i (inside : i < pieces.flatten.length), 1 ≤ i →
          pieces.flatten[i] = 5) ∧
    Response.highpass.scaled? [1, 3] = some [-1 / 4, (1 / 4 : ℚ)] ∧
    [-1 / 4, (1 / 4 : ℚ)].sum = 0 := by
  intro p
  obtain ⟨served, -, -, laws⟩ := gain_exact
  obtain ⟨outputs, reflexive⟩ := served _ p [Block.loweringTurn [1], Block.loweringTurn [2, 3]]
  have lowpass : Response.lowpass.scaled? [1, 3] = some [1 / 4, (3 / 4 : ℚ)] := by
    decide +kernel
  have highpass : Response.highpass.scaled? [1, 3] = some [-1 / 4, (1 / 4 : ℚ)] := by
    decide +kernel
  have same : (p.key == p.key) = true := reflexive (by decide)
  exact ⟨outputs, lowpass, same, (laws ℚ _ _ _ lowpass).2.2 p.key same 5 [1, 0, 2], highpass,
    (laws ℚ _ _ _ highpass).2.1⟩

end Filter

end Flowgraph
