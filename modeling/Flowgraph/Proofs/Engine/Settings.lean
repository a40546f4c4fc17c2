import Flowgraph.Engine.Settings
import Flowgraph.Proofs.Value.Misfit
import Mathlib.Order.Basic

/-!
# Settings that are refused

A mapping has an entry for the sample rate and one for the buffer size, in
either spelling.  Both are read before either is compared.
-/

namespace Flowgraph

namespace Settings

def rateEntry (current : Settings) (entries : Params) : Value :=
  orCurrent (entries.getD "sample_rate" (entries.get "sampleRate")) current.sampleRate

def sizeEntry (current : Settings) (entries : Params) : Value :=
  orCurrent (entries.getD "buffer_size" (entries.get "bufferSize")) current.bufferSize

/-- Why a sample rate and a buffer size are refused: both are read before either is compared. -/
inductive Refuses (rate size : Value) : Fault → Prop where
  | rateUnread {fault : Fault} : rate.toInt = .error fault → Refuses rate size fault
  | sizeUnread {r : Int} {fault : Fault} :
      rate.toInt = .ok r → size.toInt = .error fault → Refuses rate size fault
  | rateNotPositive {r s : Int} :
      rate.toInt = .ok r → size.toInt = .ok s → r ≤ 0 → Refuses rate size .sampleRateNotPositive
  | sizeNotPositive {r s : Int} :
      rate.toInt = .ok r → size.toInt = .ok s → 0 < r → s ≤ 0 →
        Refuses rate size .bufferSizeNotPositive

/-- Two values are refused for one of the four reasons, and for no other. -/
theorem ofValues_eq_error_iff {rate size : Value} {fault : Fault} :
    ofValues rate size = .error fault ↔ Refuses rate size fault := by
  have spec : ofValues rate size = rate.toInt.bind fun r => size.toInt.bind fun s => ofInts r s :=
    rfl
  rw [spec]
  constructor
  · intro refused
    cases rateRead : rate.toInt with
    | error found =>
        rw [rateRead] at refused
        cases refused
        exact .rateUnread rateRead
    | ok r =>
        cases sizeRead : size.toInt with
        | error found =>
            rw [rateRead, sizeRead] at refused
            cases refused
            exact .sizeUnread rateRead sizeRead
        | ok s =>
            rw [rateRead, sizeRead] at refused
            simp only [Except.bind, ofInts] at refused
            by_cases low : r ≤ 0
            · rw [dif_pos low] at refused
              cases refused
              exact .rateNotPositive rateRead sizeRead low
            · rw [dif_neg low] at refused
              by_cases short : s ≤ 0
              · rw [dif_pos short] at refused
                cases refused
                exact .sizeNotPositive rateRead sizeRead (by omega) short
              · rw [dif_neg short] at refused
                cases refused
  · intro refuses
    cases refuses with
    | rateUnread rateRead => simp [rateRead, Except.bind]
    | sizeUnread rateRead sizeRead => simp [rateRead, sizeRead, Except.bind]
    | rateNotPositive rateRead sizeRead low =>
        simp [rateRead, sizeRead, Except.bind, ofInts, low]
    | sizeNotPositive rateRead sizeRead high short =>
        simp [rateRead, sizeRead, Except.bind, ofInts, not_le.mpr high, short]

theorem apply_overlay (current : Settings) (entries : Params) :
    Change.apply current (.overlay (.object entries)) =
      ofValues (current.rateEntry entries) (current.sizeEntry entries) := rfl

theorem misfitIff_ofInts (rate size : Int) : MisfitIff (ofInts rate size) False := by
  unfold ofInts
  split
  · exact FailsIff.refused rfl
  · split
    · exact FailsIff.refused rfl
    · exact FailsIff.ok _

def Misfit (rate size : Value) : Prop :=
  rate.Uncountable ∨ (∃ r, rate.toInt = .ok r) ∧ size.Uncountable

theorem misfitIff_ofValues (rate size : Value) : MisfitIff (ofValues rate size) (Misfit rate size) :=
  ((Value.misfitIff_toInt rate).bind fun _ _ => (Value.misfitIff_toInt size).bind fun _ _ =>
    misfitIff_ofInts _ _).congr (by simp [Misfit])

end Settings

end Flowgraph
