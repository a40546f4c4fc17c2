import Flowgraph.Proofs.Block.Sequence
import Flowgraph.Proofs.Kernel.Lines
import Mathlib.Data.List.DropRight

/-!
# What a filter remembers

A filter takes over designs and is pushed buffers, in any order.  Of all this it
remembers its design and a window: the last samples pushed since, as many as its
taps reach back, with zeros before the first one.
-/

namespace Flowgraph

namespace Filter

inductive Call (κ β : Type) where
  | configure (key : κ) (taps : β)
  | push (buffer : β)

def Call.map {κ β γ : Type} (f : β → γ) : Call κ β → Call κ γ
  | configure key taps => .configure key (f taps)
  | push buffer => .push (f buffer)

/-- What counts of some calls: the design taken over last, and all samples since. -/
structure Account (κ α : Type) where
  key : Option κ
  taps : List α
  seen : List α

variable {κ α : Type}

namespace Account

def blank : Account κ α :=
  ⟨none, [], []⟩

variable [BEq κ]

def next (a : Account κ α) : Call κ (List α) → Account κ α
  | .configure key taps => if a.key == some key then a else ⟨some key, taps, []⟩
  | .push buffer => { a with seen := a.seen ++ buffer }

def ofCalls (calls : List (Call κ (List α))) : Account κ α :=
  calls.foldl next blank

end Account

/-! ## Windows in a ring -/

variable [OfNat α 0]

/-- A ring for `m` taps shows the last of as many zeros as it has slots, followed by a stream. -/
structure History.Window (h : History α) (m : Nat) (seen : List α) : Prop where
  length_slots : h.slots.length = m - 1
  oldest_lt : 1 < m → h.oldest < m - 1
  oldest_eq : m ≤ 1 → h.oldest = 0
  ordered_eq : h.ordered = (List.replicate (m - 1) 0 ++ seen).rtake (m - 1)

/-- What a ring shows decides how many slots it has. -/
theorem History.Valid.window {h : History α} {m : Nat} {seen : List α} (valid : h.Valid)
    (shown : h.ordered = recent (m - 1) seen) : h.Window m seen := by
  have slots : h.slots.length = m - 1 := by
    rw [← History.length_ordered, shown, length_recent]
  have inside : h.oldest < max 1 (m - 1) := slots ▸ valid
  refine ⟨slots, fun reaches => by omega, fun short => by omega, ?_⟩
  have zeros : (List.replicate (m - 1) (0 : α) ++ seen).length - (m - 1) = seen.length := by
    rw [List.length_append, List.length_replicate]
    omega
  rw [shown, recent_eq_drop, List.rtake, zeros]

/-! ## Calls on a filter -/

namespace Stream

variable [BEq κ]

def perform (s : Stream κ α) : Call κ (List α) → Stream κ α
  | .configure key taps => s.configure key taps
  | .push buffer => s.push buffer

omit [OfNat α 0] in
theorem designedFor_eq (s : Stream κ α) (key : κ) : s.designedFor key = (s.key == some key) := by
  unfold designedFor
  cases s.key <;> rfl

/-- A filter forgets all of its past for a new design, and nothing for the one that it has. -/
theorem configure_eq (s : Stream κ α) (key : κ) (taps : List α) :
    s.configure key taps = if s.key == some key then s else fresh.configure key taps := by
  rw [← designedFor_eq]
  rfl

/-- A filter has the design of an account, and its ring shows the recent part of the stream. -/
structure Recalls (s : Stream κ α) (a : Account κ α) : Prop where
  key_eq : s.key = a.key
  taps_eq : s.taps = a.taps
  valid : s.past.Valid
  ordered_eq : s.past.ordered = recent (a.taps.length - 1) a.seen

omit [BEq κ] in
theorem recalls_fresh : (fresh : Stream κ α).Recalls .blank :=
  ⟨rfl, rfl, History.valid_zeros 0, rfl⟩

variable {s : Stream κ α} {a : Account κ α}

theorem Recalls.configure (h : s.Recalls a) (key : κ) (taps : List α) :
    (s.configure key taps).Recalls (a.next (.configure key taps)) := by
  show (s.configure key taps).Recalls (if a.key == some key then a else ⟨some key, taps, []⟩)
  rw [configure_eq, h.key_eq]
  split
  · exact h
  · exact ⟨rfl, rfl, History.valid_zeros _, History.ordered_zeros_eq _⟩

theorem Recalls.push (h : s.Recalls a) (buffer : List α) :
    (s.push buffer).Recalls (a.next (.push buffer)) := by
  obtain ⟨shown, valid⟩ := History.ordered_push_eq h.valid h.ordered_eq buffer
  exact ⟨h.key_eq, h.taps_eq, valid, shown⟩

theorem Recalls.perform (h : s.Recalls a) (call : Call κ (List α)) :
    (s.perform call).Recalls (a.next call) := by
  cases call with
  | configure key taps => exact h.configure key taps
  | push buffer => exact h.push buffer

theorem Recalls.performAll (h : s.Recalls a) (calls : List (Call κ (List α))) :
    (calls.foldl Stream.perform s).Recalls (calls.foldl Account.next a) := by
  induction calls generalizing s a with
  | nil => exact h
  | cons call rest ih => exact ih (h.perform call)

omit [BEq κ] in
theorem Recalls.window (h : s.Recalls a) : s.past.Window a.taps.length a.seen :=
  h.valid.window h.ordered_eq

end Stream

end Filter

/-! ## Calls with plain values -/

namespace Kernel.Kept

open Flowgraph.Filter

def perform (k : Kept) : Call DesignKey Operand → Kept × Except Fault Unit
  | .configure key taps => k.configure key taps
  | .push buffer =>
    match k.push buffer with
    | .ok k' => (k', .ok ())
    | .error fault => (k, .error fault)

theorem designedFor_eq (k : Kept) (key : DesignKey) :
    k.designedFor key = (k.key == some key) := by
  unfold designedFor
  cases k.key <;> rfl

/-- What is kept besides the shape of the taps is a filter. -/
structure Shows (k : Kept) (s : Filter.Stream DesignKey Float) : Prop where
  key_eq : k.key = s.key
  taps_eq : k.taps = .line s.taps
  past_eq : k.past = s.past

theorem shows_fresh : fresh.Shows .fresh :=
  ⟨rfl, rfl, rfl⟩

theorem configure_line (k : Kept) (key : DesignKey) (taps : Operand.Line) :
    k.configure key taps.operand =
      if k.key == some key then (k, .ok ())
      else (⟨some key, .line taps.samples, .zeros (taps.samples.length - 1)⟩, .ok ()) := by
  rw [← designedFor_eq, configure, taps.grid_eq]
  rfl

theorem push_line (k : Kept) (buffer : Operand.Line) :
    k.push buffer.operand = .ok { k with past := k.past.push buffer.samples } := by
  unfold push
  by_cases none : k.past.slots.length = 0
  · have same : k.past.push buffer.samples = k.past := by
      rw [History.push]
      exact if_pos none
    rw [same]
    exact if_pos none
  · simp only [if_neg none, buffer.grid_eq]
    rfl

variable {k : Kept} {s : Filter.Stream DesignKey Float}

/-- A call with a line does to what is kept what the call with its samples does to the filter. -/
theorem Shows.perform (h : k.Shows s) (call : Call DesignKey Operand.Line) :
    ∃ k', k.perform (call.map (·.operand)) = (k', .ok ()) ∧
      k'.Shows (s.perform (call.map (·.samples))) := by
  cases call with
  | configure key taps =>
      show ∃ k', k.configure key taps.operand = (k', .ok ()) ∧
        k'.Shows (s.configure key taps.samples)
      rw [configure_line, Filter.Stream.configure_eq, h.key_eq]
      split
      · exact ⟨k, rfl, h⟩
      · exact ⟨_, rfl, rfl, rfl, rfl⟩
  | push buffer =>
      refine ⟨{ k with past := k.past.push buffer.samples }, ?_, h.key_eq, h.taps_eq, ?_⟩
      · simp only [Call.map, Kept.perform, push_line]
      · exact congrArg (·.push buffer.samples) h.past_eq

theorem Shows.performAll (h : k.Shows s) (calls : List (Call DesignKey Operand.Line)) :
    Carried.outputs Kept.perform k (calls.map (Call.map Operand.Line.operand)) =
        calls.map (fun _ => .ok ()) ∧
      (Carried.after Kept.perform k (calls.map (Call.map Operand.Line.operand))).Shows
        ((calls.map (Call.map Operand.Line.samples)).foldl Filter.Stream.perform s) := by
  induction calls generalizing k s with
  | nil => exact ⟨rfl, h⟩
  | cons call rest ih =>
      obtain ⟨k', performed, h'⟩ := h.perform call
      obtain ⟨answered, shows⟩ := ih h'
      simp only [List.map_cons, Carried.outputs, Carried.after, performed, answered,
        List.foldl_cons, true_and]
      exact shows

def afterCalls (calls : List (Call DesignKey Operand)) : Kept :=
  Carried.after Kept.perform fresh calls

theorem exists_recalls (calls : List (Call DesignKey Operand.Line)) :
    ∃ s : Filter.Stream DesignKey Float,
      (afterCalls (calls.map (Call.map Operand.Line.operand))).Shows s ∧
        s.Recalls (.ofCalls (calls.map (Call.map Operand.Line.samples))) :=
  ⟨_, (shows_fresh.performAll calls).2, Stream.recalls_fresh.performAll _⟩

end Kernel.Kept

namespace Filter

/--
What a filter remembers.  After any calls on a new filter, whatever the samples
and keys are, its taps are those of the design taken over last.  Its ring has as
many slots as they reach back, is read from one of these, and shows the last
samples of as many zeros followed by all that was pushed since.  A design for the
key that a filter has changes nothing; any other is taken over as by a new
filter, whatever the past.  The same holds of what is kept for callers that hand
over plain values, where all calls with lines succeed.
-/
theorem past_window :
    -- on samples and keys of any type
    (∀ (κ α : Type) [BEq κ] [OfNat α 0],
      (∀ calls : List (Call κ (List α)),
        let s := calls.foldl Stream.perform Stream.fresh
        let told := Account.ofCalls calls
        s.key = told.key ∧ s.taps = told.taps ∧ s.past.Window told.taps.length told.seen) ∧
      ∀ (s : Stream κ α) (key : κ) (taps : List α),
        s.configure key taps =
          if s.key == some key then s
          else ⟨some key, taps, ⟨List.replicate (taps.length - 1) 0, 0⟩⟩) ∧
    -- on plain values
    (∀ calls : List (Call DesignKey Operand.Line),
      let k := Kernel.Kept.afterCalls (calls.map (Call.map Operand.Line.operand))
      let told := Account.ofCalls (calls.map (Call.map Operand.Line.samples))
      Carried.outputs Kernel.Kept.perform .fresh (calls.map (Call.map Operand.Line.operand)) =
          calls.map (fun _ => .ok ()) ∧
        k.key = told.key ∧ k.taps = .line told.taps ∧
        k.past.Window told.taps.length told.seen) ∧
    ∀ (k : Kernel.Kept) (key : DesignKey) (taps : Operand.Line),
      k.configure key taps.operand =
        if k.key == some key then (k, .ok ())
        else (⟨some key, .line taps.samples,
          ⟨List.replicate (taps.samples.length - 1) 0, 0⟩⟩, .ok ()) := by
  refine ⟨fun κ α _ _ => ⟨fun calls => ?_, fun s key taps => ?_⟩, fun calls => ?_, ?_⟩
  · have recalls := Stream.recalls_fresh.performAll calls
    exact ⟨recalls.key_eq, recalls.taps_eq, recalls.window⟩
  · rw [Stream.configure_eq]
    rfl
  · obtain ⟨s, shows, recalls⟩ := Kernel.Kept.exists_recalls calls
    refine ⟨(Kernel.Kept.shows_fresh.performAll calls).1, shows.key_eq.trans recalls.key_eq, ?_, ?_⟩
    · rw [shows.taps_eq, recalls.taps_eq]
    · rw [shows.past_eq]
      exact recalls.window
  · exact fun k key taps => k.configure_line key taps

/-- Three samples, then two, go around a ring of four; the same design changes nothing. -/
example :
    let calls : List (Call String (List Nat)) :=
      [.push [9], .configure "a" [1, 1, 1, 1, 1], .push [1, 2, 3], .configure "a" [1], .push [4, 5]]
    let s := calls.foldl Stream.perform .fresh
    s.past.slots = [5, 2, 3, 4] ∧ s.past.oldest = 1 ∧ s.past.ordered = [2, 3, 4, 5] := by
  decide

end Filter

end Flowgraph
