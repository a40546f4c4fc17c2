import Flowgraph.Audio.Source

/-!
# Playback

A read position moves through a source and fills buffers of any size.  At the
end it either starts over or leaves silence.  The position is only moved back
when another sample is asked for.
-/

namespace Flowgraph

namespace Audio

/-- What was chosen for playback: a source, or by mistake another value. -/
inductive Medium where
  | source (s : Source)
  | other (v : Value)
deriving Repr

/-- A read position in a medium that may not have been chosen yet. -/
structure Playback where
  offset : Nat
  medium : Option Medium
deriving Repr

namespace Playback

def fresh : Playback := ⟨0, none⟩

/-- `count` samples from `offset` on, and the offset after them. -/
def fill {α : Type} [OfNat α 0] (samples : List α) (loop : Bool) (offset count : Nat) :
    List α × Nat :=
  if count = 0 then ([], offset)
  else
    let chunk := (samples.drop offset).take count
    if chunk.isEmpty then
      if loop ∧ offset ≠ 0 then fill samples loop 0 count
      else (List.replicate count 0, offset)
    else
      let (rest, after) := fill samples loop (offset + chunk.length) (count - chunk.length)
      (chunk ++ rest, after)
termination_by (count, offset)
decreasing_by
  · exact Prod.Lex.right _ (by omega)
  · refine Prod.Lex.left _ _ ?_
    have : 0 < chunk.length := List.length_pos_iff.2 (by simp_all)
    change count - chunk.length < count
    omega

end Playback

end Audio

end Flowgraph
