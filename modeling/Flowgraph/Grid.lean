import Flowgraph.Memory
import Flowgraph.Value.Conversion

/-!
# Rectangular arrays

A grid holds its cells in row-major order together with its shape.  Signals are
grids of rank one, the lines; other ranks only occur at the edges of the
program, where a caller hands over nested lists.
-/

namespace Flowgraph

/-- A rectangular array of any rank. -/
structure Grid (α : Type) where
  shape : List Nat
  cells : List α
  size_eq : cells.length = shape.foldr (· * ·) 1

namespace Grid

variable {α β : Type}

def rank (g : Grid α) : Nat :=
  g.shape.length

def line (xs : List α) : Grid α :=
  ⟨[xs.length], xs, by simp⟩

def point (x : α) : Grid α :=
  ⟨[], [x], by simp⟩

/-- The cells of a grid of rank one. -/
def line? (g : Grid α) : Except Fault (List α) :=
  if g.rank = 1 then .ok g.cells else .error (.rank g.rank)

def length? (g : Grid α) : Except Fault Nat :=
  match g.shape with
  | [] => .error .noAxis
  | n :: _ => .ok n

def map (f : α → β) (g : Grid α) : Grid β :=
  ⟨g.shape, g.cells.map f, by simpa using g.size_eq⟩

def zip (g : Grid α) (h : Grid β) (same : g.shape = h.shape) : Grid (α × β) :=
  ⟨g.shape, g.cells.zip h.cells, by
    have hh := h.size_eq
    rw [← same] at hh
    simp [g.size_eq, hh]⟩

@[simp]
theorem line?_line (xs : List α) : (line xs).line? = .ok xs := rfl

@[simp]
theorem cells_line (xs : List α) : (line xs).cells = xs := rfl

@[simp]
theorem cells_map (f : α → β) (g : Grid α) : (g.map f).cells = g.cells.map f := rfl

@[simp]
theorem shape_map (f : α → β) (g : Grid α) : (g.map f).shape = g.shape := rfl

/-- Repeat every cell `n` times along a new last axis. -/
def stretch (n : Nat) (cells : List α) : List α :=
  cells.flatMap (List.replicate n)

/--
Combine a grid of rank one or more with a line that runs along the last axis.
An axis of length one on either side is stretched to the other's length.
-/
def alongLast (f : α → β → α) (g : Grid α) (row : List β) : Except Fault (Grid α) :=
  let width := (g.shape.getLast?).getD 1
  let outer := g.shape.dropLast
  let build (width : Nat) (cells : List α) (row : List β) : Except Fault (Grid α) :=
    let repeated := (List.replicate (cells.length / max width 1) row).flatten
    let cells := cells.zipWith f repeated
    if h : cells.length = (outer ++ [width]).foldr (· * ·) 1 then
      .ok ⟨outer ++ [width], cells, h⟩
    else .error (.shapesDiffer g.shape [row.length])
  if width = row.length then build width g.cells row
  else if row.length = 1 then build width g.cells (stretch width row)
  else if width = 1 then build row.length (stretch row.length g.cells) row
  else .error (.shapesDiffer g.shape [row.length])

/-! ## Reading nested lists -/

def commonPrefix : List Nat → List Nat → List Nat
  | a :: as, b :: bs => if a = b then a :: commonPrefix as bs else []
  | _, _ => []

mutual

/-- The shape shared by everything below a value, and whether it is the whole shape. -/
def nestedShape : Value → List Nat × Bool
  | .list [] => ([0], true)
  | .list (first :: rest) =>
    let (shape, whole) := commonShape (nestedShape first) rest
    ((rest.length + 1) :: shape, whole)
  | _ => ([], true)

/-- The shape shared by `found` and the remaining items of a list. -/
def commonShape (found : List Nat × Bool) : List Value → List Nat × Bool
  | [] => found
  | v :: rest =>
    let (shape, whole) := nestedShape v
    commonShape (commonPrefix found.1 shape, found.2 && whole && found.1 = shape) rest

end

/-- A cell of a numeric array; null stands for NaN. -/
def cell : Value → Except Fault Float
  | .null => .ok (0 / 0)
  | v => v.toFloat

mutual

def nestedCells : Value → Except Fault (List Float)
  | .list items => itemCells items
  | v => return [← cell v]

def itemCells : List Value → Except Fault (List Float)
  | [] => .ok []
  | v :: rest => do
    let cells ← nestedCells v
    let more ← itemCells rest
    return cells ++ more

end

/-- An array has at most this many axes. -/
def maxRank : Nat := 64

/-- Lengths of axes; all of them are read before any is looked at. -/
def readAxes (items : List Value) : Except Fault (List Nat) := do
  if maxRank < items.length then throw .tooManyAxes
  let axes ← items.mapM fun
    | .int n => pure n
    | v => (throw (.lengthNotInteger v.kind) : Except Fault Int)
  if axes.any (· < 0) then throw .negativeLength
  return axes.map Int.toNat

/-- A shape of one axis, of several, or of none. -/
def readShape : Value → Except Fault (List Nat)
  | .null => .ok []
  | .list items => readAxes items
  | .text s => readAxes (s.toList.map fun c => .text (String.singleton c))
  | v => readAxes [v]

/-- Zeros in a shape read from a value, if there is memory for them. -/
def zeros {α : Type} [OfNat α 0] (memory : Memory) (shape : Value) : Except Fault (Grid α) := do
  let shape ← readShape shape
  memory.reserve shape
  return ⟨shape, List.replicate (shape.foldr (· * ·) 1) 0, by simp⟩

/--
Read a number or nested lists of numbers; rows of unequal length and lists
nested too deep are refused.
-/
def ofValue (v : Value) : Except Fault (Grid Float) := do
  let (shape, whole) := nestedShape v
  if maxRank < shape.length then throw .tooManyAxes
  if !whole then throw (if shape.length = maxRank then .tooManyAxes else .ragged shape)
  let cells ← nestedCells v
  if h : cells.length = shape.foldr (· * ·) 1 then return ⟨shape, cells, h⟩
  else throw (.ragged shape)

end Grid

end Flowgraph
