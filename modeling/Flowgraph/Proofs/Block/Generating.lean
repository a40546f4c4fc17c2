import Flowgraph.Block.Generating
import Flowgraph.Proofs.Block.Pieces
import Flowgraph.Proofs.Block.Streams

/-!
# Streams out of playback

The medium is chosen once and does not depend on the buffers asked for, and the
read position after some samples is the same however they were asked for.
-/

namespace Flowgraph

namespace Block

open Audio

variable {params : Params} {rate : Nat} {machine : Machine} {inputs : List Signal} {size : Nat}
  {after : Option Record} {out : Signal}

def mediumOf (params : Params) (rate : Nat) (machine : Machine) : Except Fault (Option Medium) :=
  chosenMedium (given params rate machine [] 0)

/-- Neither inputs nor buffer size are looked at. -/
theorem chosenMedium_given :
    chosenMedium (given params rate machine inputs size) = mediumOf params rate machine := rfl

def played (medium : Option Medium) (loop : Bool) (count : Nat) : List Float × Nat :=
  match medium with
  | some (.source s) => Playback.fill s.samples loop 0 count
  | _ => (List.replicate count 0, 0)

theorem played_zero (medium : Option Medium) (loop : Bool) :
    played medium loop 0 = ([], 0) := by
  rcases medium with _ | s | v
  · rfl
  · exact Playback.fill_zero s.samples loop 0
  · rfl

theorem playMedium_spec {memory : Memory} {loop : Bool} {medium : Option Medium} {count : Nat}
    {p' : Playback}
    (taken : playMedium memory loop (.int size) ⟨(played medium loop count).2, medium⟩ =
      (p', .ok out)) :
    out.HasLength size ∧ p' = ⟨(played medium loop (count + size)).2, medium⟩ ∧
      (played medium loop (count + size)).1.map Sample.real =
        (played medium loop count).1.map Sample.real ++ out.samples := by
  unfold playMedium at taken
  cases quiet : Signal.silence memory (.int size) with
  | error fault =>
      rw [quiet] at taken
      cases taken
  | ok silence =>
      obtain ⟨length, samples⟩ := silence_spec quiet
      rw [quiet] at taken
      rcases medium with _ | source | v
      · cases taken
        refine ⟨length, rfl, ?_⟩
        simp only [played, samples, List.replicate_add, List.map_append, List.map_replicate]
      · by_cases empty : source.samples = []
        · have still : ∀ n, played (some (.source source)) loop n = (List.replicate n 0, 0) := by
            intro n
            rw [played, empty]
            exact Playback.fill_silent [] loop (Nat.le_refl 0) (by simp) n
          simp only [playSource, empty, List.isEmpty_nil, if_true, Prod.mk.injEq,
            Except.ok.injEq] at taken
          obtain ⟨rfl, rfl⟩ := taken
          refine ⟨length, ?_, ?_⟩
          · rw [still, still]
          · simp only [still, samples, List.replicate_add, List.map_append, List.map_replicate]
        · have some : source.samples.isEmpty = false := List.isEmpty_eq_false_iff.mpr empty
          simp only [playSource, some, Bool.false_eq_true, if_false, Int.toNat_natCast,
            Prod.mk.injEq, Except.ok.injEq] at taken
          obtain ⟨rfl, rfl⟩ := taken
          have whole := hasLength_line
            (Playback.fill source.samples loop (Playback.fill source.samples loop 0 count).2 size).1
          rw [Playback.length_fill] at whole
          refine ⟨whole, ?_, ?_⟩
          · rw [played, played, Playback.fill_add]
          · rw [played, played, Playback.fill_add, List.map_append]
            rfl
      · cases taken

def Playing (medium : Except Fault (Option Medium)) (loop : Bool) (record : Option Record)
    (_ : List (List Sample)) (count : Nat) : Prop :=
  ∃ p : Playback, record = some (.playback p) ∧
    (count = 0 ∧ p = .fresh ∨
      ∃ m, medium = .ok m ∧ p = ⟨(played m loop count).2, m⟩)

def playedOf (medium : Except Fault (Option Medium)) (loop : Bool) (_ : List (List Sample))
    (count : Nat) : List Sample :=
  match medium with
  | .ok m => (played m loop count).1.map .real
  | .error _ => []

/-- One buffer of playback takes the medium that was or would be chosen. -/
theorem playbackStep_spec {loop : Bool} {count : Nat} {p p' : Playback}
    (looped : (params.getD "loop" (.bool false)).isGiven = loop)
    (position : count = 0 ∧ p = .fresh ∨
      ∃ m, mediumOf params rate machine = .ok m ∧ p = ⟨(played m loop count).2, m⟩)
    (taken : playbackStep (given params rate machine inputs size) p = (p', .ok out)) :
    ∃ m, mediumOf params rate machine = .ok m ∧
      playMedium machine.memory loop (.int size) ⟨(played m loop count).2, m⟩ =
        (p', .ok out) := by
  have looped' : ((given params rate machine inputs size).params.getD "loop" (.bool false)).isGiven =
      loop := looped
  simp only [playbackStep, chosenMedium_given, looped'] at taken
  rcases position with ⟨rfl, rfl⟩ | ⟨m, chosen, rfl⟩
  · simp only [Playback.fresh] at taken
    cases chosen : mediumOf params rate machine with
    | error fault =>
        rw [chosen] at taken
        cases taken
    | ok m =>
        rw [chosen] at taken
        refine ⟨m, rfl, ?_⟩
        rw [played_zero]
        exact taken
  · refine ⟨m, chosen, ?_⟩
    cases m with
    | none =>
        simp only [chosen] at taken
        exact taken
    | some m => exact taken

theorem streams_audioFile :
    Streams (feed audioFile params rate machine) (some (.playback .fresh))
      (playedOf (mediumOf params rate machine) (params.getD "loop" (.bool false)).isGiven)
      (Playing (mediumOf params rate machine) (params.getD "loop" (.bool false)).isGiven) where
  start arity := ⟨.fresh, rfl, .inl ⟨rfl, rfl⟩⟩
  nothing arity := by
    unfold playedOf
    cases mediumOf params rate machine with
    | error fault => rfl
    | ok m =>
        simp only [played_zero]
        rfl
  next := by
    intro record past count inputs size after out playing arity lengths taken
    obtain ⟨p, rfl, position⟩ := playing
    rcases step : playbackStep (given params rate machine inputs size) p with ⟨p', fault | signal⟩
    · simp [feed, audioFile, onRecord, playbackRecord?, step] at taken
    · simp only [feed, audioFile, onRecord, playbackRecord?, Option.bind_some, step,
        Prod.mk.injEq, Except.ok.injEq] at taken
      obtain ⟨rfl, rfl⟩ := taken
      obtain ⟨m, chosen, taken⟩ := playbackStep_spec rfl position step
      obtain ⟨length, rfl, samples⟩ := playMedium_spec taken
      refine ⟨length, ⟨_, rfl, .inr ⟨m, chosen, rfl⟩⟩, ?_⟩
      simp only [playedOf, chosen]
      exact samples

end Block

end Flowgraph
