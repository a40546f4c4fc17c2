/-!
# Past samples

A ring of the last samples pushed.  `oldest` indexes the sample that the next
one replaces; `ordered` is the ring read from there.
-/

namespace Flowgraph

namespace Filter

structure History (α : Type) where
  slots : List α
  oldest : Nat
deriving Repr

namespace History

variable {α : Type}

def zeros [OfNat α 0] (n : Nat) : History α :=
  ⟨List.replicate n 0, 0⟩

def ordered (h : History α) : List α :=
  h.slots.drop h.oldest ++ h.slots.take h.oldest

def put (h : History α) (x : α) : History α :=
  ⟨h.slots.set h.oldest x, (h.oldest + 1) % h.slots.length⟩

/-- Push samples; as many as fill the ring start it afresh. -/
def push (h : History α) (samples : List α) : History α :=
  let capacity := h.slots.length
  if capacity = 0 then h
  else if capacity ≤ samples.length then ⟨samples.drop (samples.length - capacity), 0⟩
  else samples.foldl put h

@[simp]
theorem length_slots_put (h : History α) (x : α) :
    (h.put x).slots.length = h.slots.length := by
  simp [put]

@[simp]
theorem length_ordered (h : History α) : h.ordered.length = h.slots.length := by
  simp only [ordered, List.length_append, List.length_drop, List.length_take]
  omega

end History

end Filter

end Flowgraph
