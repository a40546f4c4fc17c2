import Flowgraph.Number.Basic

/-!
# Memory

How many doubles an array can have.  Its size in bytes has to be a machine
number, and there has to be that much memory.  Only arrays whose length is asked
for are checked: one that is as long as an array that is there can be had.
-/

namespace Flowgraph

/--
How much memory there is.  Some mebibyte can always be had, and sizes are
counted in machine numbers.
-/
structure Memory where
  /-- Fewer bytes than this can be had for one array. -/
  available : Nat
  least : Nat.pow 2 20 ≤ available
  most : available ≤ Nat.pow 2 63

namespace Memory

def cellBytes : Nat := 8

/-- The largest number of bytes, or of cells along one axis, that is counted. -/
def maxCount : Nat := Nat.pow 2 63 - 1

def units : List String := ["bytes", "KiB", "MiB", "GiB", "TiB", "PiB", "EiB"]

/-- A number below 1024 with three digits; the point is also written where no digit follows. -/
def threeDigits (x : Float) : String :=
  let hundredths := Number.fixed x 2
  let tenths := Number.fixed x 1
  if hundredths.length ≤ 4 then hundredths
  else if tenths.length ≤ 4 then tenths
  else Number.fixed x 0 ++ "."

/-- A size of some thousand bytes or more in the largest unit that fits. -/
def sizeText (bytes : Nat) : String :=
  let index := Nat.log2 bytes / 10
  let x := Float.ofNat bytes / Float.ofNat (Nat.pow 1024 index)
  let (x, index) := if Number.fixed x 0 = "1024" then (x / 1024, index + 1) else (x, index)
  threeDigits x ++ " " ++ (units[index]?).getD ""

/-- Check that there is memory for an array of a shape; an empty array needs none. -/
def reserve (memory : Memory) (shape : List Nat) : Except Fault Unit :=
  let bytes := cellBytes * (shape.filter (0 < ·)).foldl (· * ·) 1
  if shape.any (maxCount < ·) then .error .axisTooLong
  else if maxCount < bytes then .error .arrayTooLarge
  else if memory.available ≤ bytes ∧ shape.all (0 < ·) then
    .error (.outOfMemory (sizeText bytes) shape)
  else .ok ()

/--
The length of a range of `n` numbers, if there is memory for it.  Lengths are
counted in doubles, and beyond `2 ^ 63 + 1024` they pass what is counted.
-/
def rangeLength (memory : Memory) (n : Int) : Except Fault Nat := do
  if n ≤ 0 then return 0
  if (Nat.pow 2 63 : Int) + 1024 < n then throw .rangeTooLong
  memory.reserve [n.toNat]
  return n.toNat

end Memory

end Flowgraph
