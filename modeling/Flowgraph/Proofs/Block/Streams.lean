import Flowgraph.Block.Transfer
import Flowgraph.Proofs.Grid

/-!
# Streams through blocks

The buffers that a node is given are cuts of one stream per input, and the
buffers it gives are cuts of its output stream.  For some blocks the output
stream is a function of the input streams alone, wherever they are cut.
-/

namespace Flowgraph

inductive Sample where
  | real (x : Float)
  | point (p : Point Float)
  | frame (f : Frame Float)

namespace Signal

def samples : Signal → List Sample
  | real g => g.cells.map .real
  | complex g => g.cells.map .point
  | frames fs => fs.map .frame

/-- The signal is a buffer along one axis of some length. -/
def HasLength (n : Nat) : Signal → Prop
  | real g => g.shape = [n]
  | complex g => g.shape = [n]
  | frames _ => False

end Signal

namespace Block

/-! ## Real samples -/

def reals (xs : List Sample) : List Float :=
  xs.filterMap fun
    | .real x => some x
    | _ => none

@[simp]
theorem reals_nil : reals [] = [] := rfl

@[simp]
theorem reals_append (xs ys : List Sample) : reals (xs ++ ys) = reals xs ++ reals ys :=
  List.filterMap_append

@[simp]
theorem reals_map_real (xs : List Float) : reals (xs.map .real) = xs := by
  simp [reals, List.filterMap_map]

@[simp]
theorem samples_line (xs : List Float) : (line xs).samples = xs.map .real := rfl

theorem hasLength_line (xs : List Float) : (line xs).HasLength xs.length := rfl

theorem realGrid_spec {s : Signal} {n : Nat} {g : Grid Float} (length : s.HasLength n)
    (read : realGrid s = .ok g) : g.shape = [n] ∧ reals s.samples = g.cells := by
  cases s with
  | real h =>
      cases read
      exact ⟨length, reals_map_real _⟩
  | complex h => cases read
  | frames fs => cases length

theorem realLines_spec {inputs : List Signal} {n : Nat} {gs : List (Grid Float)}
    (length : ∀ s ∈ inputs, s.HasLength n) (read : inputs.mapM realGrid = .ok gs) :
    gs.length = inputs.length ∧
      gs.mapM Grid.line? = .ok (inputs.map fun s => reals s.samples) ∧
      ∀ s ∈ inputs, (reals s.samples).length = n := by
  induction inputs generalizing gs with
  | nil =>
      cases read
      simp [List.mapM_nil, pure, Except.pure]
  | cons s rest ih =>
      obtain ⟨first, others⟩ := List.forall_mem_cons.mp length
      rw [List.mapM_cons] at read
      obtain ⟨g, head, read⟩ := of_bind_eq_ok read
      obtain ⟨more, tail, read⟩ := of_bind_eq_ok read
      cases read
      obtain ⟨shape, cells⟩ := realGrid_spec first head
      obtain ⟨arity, lines, lengths⟩ := ih others tail
      refine ⟨by simp [arity], ?_, List.forall_mem_cons.mpr ⟨?_, lengths⟩⟩
      · rw [List.mapM_cons, Grid.line?_of_shape shape, lines, List.map_cons, cells]
        rfl
      · rw [cells, Grid.length_cells shape]

/-! ## Silence -/

theorem readShape_int (n : Nat) : Grid.readShape (.int n) = .ok [n] := by
  have positive : ¬ (n : Int) < 0 := by omega
  simp [Grid.readShape, Grid.readAxes, Grid.maxRank, positive, bind, Except.bind, pure,
    Except.pure]

theorem zeros_int {α : Type} [OfNat α 0] (memory : Memory) (n : Nat) :
    Grid.zeros (α := α) memory (.int n) =
      (memory.reserve [n]).map fun _ => .line (List.replicate n 0) := by
  rw [Grid.zeros, readShape_int]
  cases reserved : memory.reserve [n] with
  | error fault => simp [reserved, bind, Except.bind, Except.map]
  | ok => simp [reserved, Grid.line, bind, Except.bind, Except.map, pure, Except.pure]

theorem silence_eq_ok_iff {memory : Memory} {n : Nat} {s : Signal} :
    Signal.silence memory (.int n) = .ok s ↔
      memory.reserve [n] = .ok () ∧ s = line (List.replicate n 0) := by
  rw [Signal.silence, zeros_int]
  cases memory.reserve [n] with
  | error fault => exact ⟨nofun, nofun⟩
  | ok => exact ⟨fun h => ⟨rfl, (Except.ok.inj h).symm⟩, fun h => h.2 ▸ rfl⟩

theorem origin_eq_ok_iff {memory : Memory} {n : Nat} {s : Signal} :
    Signal.origin memory (.int n) = .ok s ↔
      memory.reserve [n] = .ok () ∧ s = pointLine (List.replicate n ⟨0, 0⟩) := by
  rw [Signal.origin, Point.zeros, zeros_int]
  cases memory.reserve [n] with
  | error fault => exact ⟨nofun, nofun⟩
  | ok =>
      simp [Except.map, pointLine, Grid.map, Grid.line, eq_comm]

theorem silence_spec {memory : Memory} {n : Nat} {s : Signal}
    (h : Signal.silence memory (.int n) = .ok s) :
    s.HasLength n ∧ s.samples = List.replicate n (.real 0) := by
  obtain ⟨-, rfl⟩ := silence_eq_ok_iff.mp h
  exact ⟨by simp [line, Signal.HasLength, Grid.line], by simp [line, Signal.samples]⟩

theorem origin_spec {memory : Memory} {n : Nat} {s : Signal}
    (h : Signal.origin memory (.int n) = .ok s) :
    s.HasLength n ∧ s.samples = List.replicate n (.point ⟨0, 0⟩) := by
  obtain ⟨-, rfl⟩ := origin_eq_ok_iff.mp h
  exact ⟨by simp [pointLine, Signal.HasLength, Grid.line], by simp [pointLine, Signal.samples]⟩

/-! ## Streams -/

def given (params : Params) (rate : Nat) (machine : Machine) (inputs : List Signal) (size : Nat) :
    Context where
  inputs := inputs.map some
  params := params
  rate := .int rate
  size := .int size
  machine := machine

def feed (process : Transfer) (params : Params) (rate : Nat) (machine : Machine)
    (inputs : List Signal) (size : Nat) (record : Option Record) :
    Option Record × Except Fault Signal :=
  process (given params rate machine inputs size) record

def continued (past : List (List Sample)) (inputs : List Signal) : List (List Sample) :=
  past.zipWith (· ++ ·) (inputs.map Signal.samples)

/--
The output stream of a process is the function `total` of its input streams and
their length.  `Holds` says which records are met after which input streams.
-/
structure Streams (step : List Signal → Nat → Option Record → Option Record × Except Fault Signal)
    (initial : Option Record) (total : List (List Sample) → Nat → List Sample)
    (Holds : Option Record → List (List Sample) → Nat → Prop) : Prop where
  start : ∀ arity, Holds initial (List.replicate arity []) 0
  nothing : ∀ arity, total (List.replicate arity []) 0 = []
  next : ∀ {record past count inputs size after out},
    Holds record past count → past.length = inputs.length →
    (∀ s ∈ inputs, s.HasLength size) → step inputs size record = (after, .ok out) →
    out.HasLength size ∧ Holds after (continued past inputs) (count + size) ∧
      total (continued past inputs) (count + size) = total past count ++ out.samples

def Streamed (process : Transfer) (params : Params) (rate : Nat) (machine : Machine)
    (initial : Option Record) : Prop :=
  ∃ total Holds, Streams (feed process params rate machine) initial total Holds

/-- A function of the first stream, or constant if there is none. -/
def ofFirst (silent : Sample) (total : List Sample → List Sample) :
    List (List Sample) → Nat → List Sample
  | [], count => List.replicate count silent
  | xs :: _, _ => total xs

def OnFirst (Holds : Option Record → List Sample → Prop) :
    Option Record → List (List Sample) → Nat → Prop
  | _, [], _ => True
  | record, xs :: _, _ => Holds record xs

/-- A process that only listens to its first input, and is silent without one. -/
theorem streams_ofFirst
    {step : List Signal → Nat → Option Record → Option Record × Except Fault Signal}
    {initial : Option Record} (silent : Sample) (total : List Sample → List Sample)
    (Holds : Option Record → List Sample → Prop) (start : Holds initial []) (nothing : total [] = [])
    (quiet : ∀ {size record after out}, step [] size record = (after, .ok out) →
      out.HasLength size ∧ out.samples = List.replicate size silent)
    (heard : ∀ {record seen input rest size after out}, Holds record seen →
      input.HasLength size → step (input :: rest) size record = (after, .ok out) →
      out.HasLength size ∧ Holds after (seen ++ input.samples) ∧
        total (seen ++ input.samples) = total seen ++ out.samples) :
    Streams step initial (ofFirst silent total) (OnFirst Holds) where
  start arity := by
    cases arity with
    | zero => trivial
    | succ n => exact start
  nothing arity := by
    cases arity with
    | zero => rfl
    | succ n => exact nothing
  next := by
    intro record past count inputs size after out holds arity lengths taken
    cases inputs with
    | nil =>
        have none : past = [] := List.eq_nil_of_length_eq_zero arity
        obtain ⟨length, samples⟩ := quiet taken
        subst none
        refine ⟨length, trivial, ?_⟩
        show List.replicate (count + size) silent = List.replicate count silent ++ out.samples
        rw [samples, List.replicate_add]
    | cons input rest =>
        cases past with
        | nil => cases arity
        | cons xs others =>
            exact heard holds (lengths input List.mem_cons_self) taken

/-! ## Blocks without a record -/

theorem streamed_passFirst (params : Params) (rate : Nat) (machine : Machine)
    (initial : Option Record) : Streamed passFirst params rate machine initial := by
  refine ⟨_, _, streams_ofFirst (.real 0) id (fun _ _ => True) trivial rfl ?_ ?_⟩
  · intro size record after out taken
    obtain ⟨-, quiet⟩ := Prod.mk.inj taken
    exact silence_spec quiet
  · intro record seen input rest size after out _ length taken
    obtain ⟨-, passed⟩ := Prod.mk.inj taken
    cases passed
    exact ⟨length, trivial, rfl⟩

end Block

end Flowgraph
