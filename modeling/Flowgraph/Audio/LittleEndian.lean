/-!
# Little-endian numbers

Naturals as byte strings of fixed width, least significant byte first.
-/

namespace Flowgraph

namespace Audio

/-- The `width` bytes of `n`; higher bytes are dropped. -/
def toBytes : (width n : Nat) → List UInt8
  | 0, _ => []
  | width + 1, n => UInt8.ofNat (n % 256) :: toBytes width (n / 256)

def ofBytes : List UInt8 → Nat
  | [] => 0
  | b :: rest => b.toNat + 256 * ofBytes rest

def toSigned (width : Nat) (n : Int) : List UInt8 :=
  toBytes width (n % (Nat.pow 256 width : Nat)).toNat

def ofSigned (bytes : List UInt8) : Int :=
  (ofBytes bytes : Int).bmod (Nat.pow 256 bytes.length)

@[simp]
theorem length_toBytes (width n : Nat) : (toBytes width n).length = width := by
  induction width generalizing n with
  | zero => rfl
  | succ width ih => simp [toBytes, ih]

end Audio

end Flowgraph
