import Flowgraph.Grid
import Mathlib.Data.List.Basic

/-!
# Grids with one axis

A grid with one axis is the line of its cells.  A list of numbers is read as such
a line, and a line as long as the last axis of a grid runs along it.
-/

namespace Flowgraph

namespace Grid

variable {α β : Type}

/-! ## Lines -/

theorem shape_line (xs : List α) : (line xs).shape = [xs.length] :=
  rfl

theorem length?_line (xs : List α) : (line xs).length? = .ok xs.length :=
  rfl

theorem map_line (f : α → β) (xs : List α) : (line xs).map f = line (xs.map f) := by
  simp [Grid.map, line]

theorem length_cells {g : Grid α} {n : Nat} (h : g.shape = [n]) : g.cells.length = n := by
  rw [g.size_eq, h]
  simp

theorem eq_line_of_shape {g : Grid α} {n : Nat} (shape : g.shape = [n]) : g = line g.cells := by
  have length := length_cells shape
  obtain ⟨axes, cells, size⟩ := g
  obtain rfl : axes = [n] := shape
  obtain rfl : cells.length = n := length
  rfl

theorem line?_of_shape {g : Grid α} {n : Nat} (h : g.shape = [n]) : g.line? = .ok g.cells := by
  simp [line?, rank, h]

theorem line?_eq_ok_iff {g : Grid α} {xs : List α} : g.line? = .ok xs ↔ g = line xs := by
  constructor
  · intro read
    by_cases one : g.rank = 1
    · obtain ⟨n, shape⟩ := List.length_eq_one_iff.mp one
      rw [line?_of_shape shape, Except.ok.injEq] at read
      rw [eq_line_of_shape shape, read]
    · rw [line?, if_neg one] at read
      cases read
  · rintro rfl
    exact line?_line xs

/-- A line of the same length runs along a grid of one axis cell by cell. -/
theorem alongLast_of_shape (f : α → β → α) {g : Grid α} {row : List β} {n : Nat}
    (h : g.shape = [n]) (length : row.length = n) :
    g.alongLast f row = .ok (line (g.cells.zipWith f row)) := by
  have cells : g.cells.length = n := length_cells h
  have once : (List.replicate (n / max n 1) row).flatten = row := by
    by_cases none : n = 0
    · simp [List.eq_nil_of_length_eq_zero (length.trans none)]
    · have one : n / max n 1 = 1 := by
        rw [Nat.max_eq_left (by omega), Nat.div_self (by omega)]
      simp [one]
  simp [Grid.alongLast, line, h, cells, length, once]

/-! ## Lists of numbers -/

theorem nestedShape_floats (samples : List Float) :
    nestedShape (.list (samples.map .float)) = ([samples.length], true) := by
  have rest (xs : List Float) : commonShape ([], true) (xs.map .float) = ([], true) := by
    induction xs with
    | nil => rfl
    | cons x xs ih => simpa [commonShape, nestedShape, commonPrefix] using ih
  cases samples with
  | nil => rfl
  | cons x xs => simp [nestedShape, rest]

theorem itemCells_floats (samples : List Float) : itemCells (samples.map .float) = .ok samples := by
  induction samples with
  | nil => rfl
  | cons x xs ih =>
      rw [List.map_cons, itemCells, ih]
      rfl

theorem ofValue_floats (samples : List Float) :
    ofValue (.list (samples.map .float)) = .ok (line samples) := by
  have cells : nestedCells (.list (samples.map .float)) = .ok samples := by
    rw [nestedCells, itemCells_floats]
  simp [ofValue, nestedShape_floats, maxRank, cells, bind, Except.bind, pure, Except.pure, line]

end Grid

end Flowgraph
