import Flowgraph.Catalog.Builtin
import Flowgraph.Proofs.Audio.Playback
import Flowgraph.Proofs.Block.Sequence
import Flowgraph.Proofs.Block.Streams
import Flowgraph.Proofs.Memory

/-!
# Playing a source

The buffers of a playback block are the windows of its source one after another,
however long they are, and a source cut into blocks gives the same buffers.
-/

namespace Flowgraph

namespace Block

open Audio

variable {loop : Bool} {source : Source}

/-! ## One buffer -/

/--
A buffer that is asked of a playback block, with memory for it, and whether the
block is to start over.
-/
structure Request (loop : Bool) where
  ctx : Context
  size : Nat
  size_eq : ctx.size = .int size
  room : ctx.machine.memory.reserve [size] = .ok ()
  loop_eq : (ctx.params.getD "loop" (.bool false)).isGiven = loop

theorem audioFile_playing (request : Request loop) {t offset : Nat}
    (reached : Playback.Reached source.samples loop t offset) :
    audioFile request.ctx (some (.playback ⟨offset, some (.source source)⟩)) =
      (some (.playback ⟨(Playback.fill source.samples loop offset request.size).2,
        some (.source source)⟩),
        .ok (line (window source.samples loop t request.size))) := by
  have quiet : Signal.silence request.ctx.machine.memory request.ctx.size =
      .ok (line (List.replicate request.size 0)) := by
    rw [request.size_eq]
    exact silence_eq_ok_iff.mpr ⟨request.room, rfl⟩
  have filled := (reached.fill request.size).1
  simp only [audioFile, onRecord, Option.bind_some, playbackRecord?, playbackStep, playMedium,
    request.loop_eq, quiet]
  by_cases empty : source.samples = []
  · -- nothing is read of an empty source, and reading would not get anywhere either
    obtain rfl : offset = 0 := Nat.le_zero.mp (by simpa [empty] using reached.le_length)
    have silent : Playback.fill source.samples loop 0 request.size =
        (List.replicate request.size 0, 0) :=
      Playback.fill_silent source.samples loop (by simp [empty]) (by simp) request.size
    rw [← filled, silent]
    simp only [playSource, empty, List.isEmpty_nil, if_true]
  · have some : source.samples.isEmpty = false := List.isEmpty_eq_false_iff.mpr empty
    simp only [playSource, some, Bool.false_eq_true, if_false, request.size_eq, Int.toNat_natCast,
      filled]

theorem audioFile_choosing {ctx : Context} {medium : Medium} (offset : Nat)
    (chosen : chosenMedium ctx = .ok (some medium)) :
    audioFile ctx (some (.playback ⟨offset, none⟩)) =
      audioFile ctx (some (.playback ⟨offset, some medium⟩)) := by
  simp only [audioFile, onRecord, Option.bind_some, playbackRecord?, playbackStep, chosen]

/-! ## All buffers -/

def Opens (source : Source) (p : Playback) (requests : List (Request loop)) : Prop :=
  p.offset = 0 ∧ (p.medium = some (.source source) ∨
    p.medium = none ∧ ∀ first ∈ requests.head?,
      chosenMedium first.ctx = .ok (some (.source source)))

/-- Where a block stands after some buffers of the source that it holds. -/
theorem playing_from {t offset : Nat} (reached : Playback.Reached source.samples loop t offset)
    (requests : List (Request loop)) :
    audioFile.outputs (some (.playback ⟨offset, some (.source source)⟩))
        (requests.map (·.ctx)) =
      (windows source.samples loop t (requests.map (·.size))).map (fun xs => .ok (line xs)) ∧
    ∃ after, audioFile.recordAfter (some (.playback ⟨offset, some (.source source)⟩))
        (requests.map (·.ctx)) = some (.playback ⟨after, some (.source source)⟩) ∧
      Playback.Reached source.samples loop (t + (requests.map (·.size)).sum) after := by
  induction requests generalizing t offset with
  | nil => exact ⟨rfl, offset, rfl, reached⟩
  | cons request rest ih =>
      obtain ⟨outputs, after, record, reached'⟩ := ih (reached.fill request.size).2
      have step := audioFile_playing request reached
      refine ⟨?_, after, ?_, ?_⟩
      · rw [List.map_cons, Transfer.outputs, step, outputs]
        rfl
      · rw [List.map_cons, Transfer.recordAfter, step, record]
      · rwa [List.map_cons, List.sum_cons, ← Nat.add_assoc]

variable {p : Playback} {requests : List (Request loop)}

/-- Whether the source is held already or chosen with the first buffer does not show. -/
theorem Opens.first {request : Request loop} (opens : Opens source p (request :: requests)) :
    audioFile request.ctx (some (.playback p)) =
      audioFile request.ctx (some (.playback ⟨0, some (.source source)⟩)) := by
  obtain ⟨offset, medium⟩ := p
  obtain ⟨rfl, rfl | ⟨rfl, chosen⟩⟩ := opens
  · rfl
  · exact audioFile_choosing 0 (chosen request rfl)

theorem Opens.outputs (opens : Opens source p requests) :
    audioFile.outputs (some (.playback p)) (requests.map (·.ctx)) =
      (windows source.samples loop 0 (requests.map (·.size))).map fun xs => .ok (line xs) := by
  cases requests with
  | nil => rfl
  | cons request rest =>
      rw [← (playing_from (Playback.reached_zero source.samples loop) (request :: rest)).1]
      exact (Transfer.congr_first opens.first _).1

/-- Before any of its buffers a block stands in its source and would give the same if it held it. -/
theorem Opens.before {past rest : List (Request loop)} {next : Request loop}
    (opens : Opens source p (past ++ next :: rest)) :
    ∃ before, audioFile.recordAfter (some (.playback p)) (past.map (·.ctx)) =
        some (.playback before) ∧
      Playback.Reached source.samples loop (past.map (·.size)).sum before.offset ∧
      audioFile next.ctx (some (.playback before)) =
        audioFile next.ctx (some (.playback ⟨before.offset, some (.source source)⟩)) := by
  have start := Playback.reached_zero source.samples loop
  cases past with
  | nil =>
      refine ⟨p, rfl, ?_, ?_⟩
      · rw [opens.1]
        exact start
      · rw [opens.first, opens.1]
  | cons request past =>
      obtain ⟨-, after, record, reached⟩ := playing_from start (request :: past)
      rw [Nat.zero_add] at reached
      refine ⟨⟨after, some (.source source)⟩, ?_, reached, rfl⟩
      rw [← record]
      exact (Transfer.congr_first opens.first _).2

/--
A playback block answers every buffer with as many samples as are asked for.
The sample at a time is that of the source, silence after its end, or, in a
loop, the sample at the remainder of the time; an empty source is silent.  The
read position stays in the source, and filling a buffer takes at most two turns
for each of its samples, and one.
-/
theorem playback_exact (source : Source) (p : Playback) (requests : List (Request loop))
    (opens : Opens source p requests) :
    (∃ outputs : List (List Float),
      audioFile.outputs (some (.playback p)) (requests.map (·.ctx)) =
        outputs.map (fun xs => .ok (line xs)) ∧
      outputs.map List.length = requests.map (·.size) ∧
      ∀ t < (requests.map (·.size)).sum,
        (loop = false → t < source.samples.length → outputs.flatten[t]? = source.samples[t]?) ∧
        (loop = false → source.samples.length ≤ t → outputs.flatten[t]? = some 0) ∧
        (loop = true → 0 < source.samples.length →
          outputs.flatten[t]? = source.samples[t % source.samples.length]?) ∧
        (source.samples.length = 0 → outputs.flatten[t]? = some 0)) ∧
    ∀ past next rest, requests = past ++ next :: rest → ∃ before buffer after,
      audioFile.recordAfter (some (.playback p)) (past.map (·.ctx)) = some (.playback before) ∧
      audioFile next.ctx (some (.playback before)) = (some (.playback after), .ok (line buffer)) ∧
      before.offset ≤ source.samples.length ∧ after.offset ≤ source.samples.length ∧
      (0 < source.samples.length →
        Playback.fillWithin source.samples loop (2 * next.size + 1) before.offset next.size =
          some (buffer, after.offset)) := by
  constructor
  · refine ⟨_, opens.outputs, map_length_windows .., fun t early => ?_⟩
    have sample : (windows source.samples loop 0 (requests.map (·.size))).flatten[t]? =
        some (heard source.samples loop t) := by
      rw [flatten_windows, window, List.getElem?_map, List.getElem?_range early]
      simp
    rw [sample]
    refine ⟨?_, ?_, ?_, ?_⟩
    · rintro rfl inside
      simp [heard, List.getElem?_eq_getElem inside]
    · rintro rfl after
      simp [heard, List.getElem?_eq_none after]
    · rintro rfl filled
      simp [heard, List.getElem?_eq_getElem (Nat.mod_lt t filled)]
    · intro empty
      simp [heard, List.eq_nil_of_length_eq_zero empty]
  · rintro past next rest rfl
    obtain ⟨before, record, reached, same⟩ := opens.before
    obtain ⟨filled, reached'⟩ := reached.fill next.size
    refine ⟨before, _, _, record, same.trans (audioFile_playing next reached), reached.le_length,
      reached'.le_length, fun some => ?_⟩
    rw [Playback.fillWithin_eq (List.length_pos_iff.mp some) loop (Nat.le_refl _), ← filled]

def tapeRequest (loop : Bool) (size : Nat) (few : size < Nat.pow 2 17) : Request loop where
  ctx :=
    { inputs := []
      params := [("audioData", .object [("samples", .list [.int 2, .int (-1)])]),
        ("loop", .bool loop)]
      rate := .int 8000
      size := .int size
      machine := .bare }
  size := size
  size_eq := rfl
  room := Memory.reserve_of_lt _ few
  loop_eq := by cases loop <;> rfl

theorem opens_tape (loop : Bool) {size : Nat} (few : size < Nat.pow 2 17)
    (rest : List (Request loop)) :
    Opens ⟨[2, -1], 8000, ""⟩ .fresh (tapeRequest loop size few :: rest) := by
  refine ⟨rfl, .inr ⟨rfl, ?_⟩⟩
  rintro first ⟨⟩
  rfl

/-- The built-in playback block starts at the beginning of a source that it has yet to choose. -/
example :
    (Catalog.builtin.resolve "AUDIO_FILE").map (fun d => (d.process, d.initialRecord)) =
      some (audioFile, .ok (some (.playback .fresh))) := by
  rfl

/-- Three samples and then two of a tape of two samples, over and over. -/
theorem playback_exact_tape :
    ∃ outputs : List (List Float),
      audioFile.outputs (some (.playback .fresh))
          [(tapeRequest true 3 (by decide)).ctx, (tapeRequest true 2 (by decide)).ctx] =
        outputs.map (fun xs => .ok (line xs)) ∧
      outputs.flatten[4]? = some 2 := by
  obtain ⟨⟨outputs, answered, -, sample⟩, -⟩ :=
    playback_exact ⟨[2, -1], 8000, ""⟩ .fresh
      [tapeRequest true 3 (by decide), tapeRequest true 2 (by decide)]
      (opens_tape true (by decide) _)
  exact ⟨outputs, answered, (sample 4 (by decide)).2.2.1 rfl (by decide)⟩

/--
A source cut into blocks gives the buffers of a playback block that does not
start over: as many as are needed to hold the source, the last one filled up
with silence, and nothing but silence is played after them.
-/
theorem playback_eq_blocks (memory : Memory) (source : Source) {size : Nat}
    (positive : 0 < size) (p : Playback) (requests : List (Request false))
    (sized : ∀ request ∈ requests, request.size = size) (opens : Opens source p requests) :
    let blocks := Source.blocks (size - 1) source.samples
    source.blocksOf memory (.int size) =
      (if source.samples = [] then .ok () else memory.reserve [size]).map (fun _ => blocks) ∧
    blocks.length = source.samples.length ⌈/⌉ size ∧
    (∀ block ∈ blocks, block.length = size) ∧
    audioFile.outputs (some (.playback p)) (requests.map (·.ctx)) =
      (List.range requests.length).map fun i =>
        .ok (line ((blocks[i]?).getD (List.replicate size 0))) := by
  obtain ⟨n, rfl⟩ : ∃ n, size = n + 1 := ⟨size - 1, by omega⟩
  intro blocks
  refine ⟨Source.blocksOf_eq memory source n, Source.length_blocks n source.samples,
    fun block => Source.length_of_mem_blocks, ?_⟩
  have sizes : requests.map (·.size) = List.replicate requests.length (n + 1) :=
    List.eq_replicate_iff.mpr ⟨by simp, by simpa using sized⟩
  rw [opens.outputs, sizes, Source.windows_eq_blocks, List.map_map, List.drop_zero]
  rfl

/-- A tape of two samples is one block of three, and a second buffer of three is silent. -/
theorem playback_eq_blocks_tape :
    (Source.blocks 2 ([2, -1] : List Float)).length = 1 ∧
    audioFile.outputs (some (.playback .fresh))
        [(tapeRequest false 3 (by decide)).ctx, (tapeRequest false 3 (by decide)).ctx] =
      [.ok (line [2, -1, 0]), .ok (line [0, 0, 0])] := by
  have cut : Source.blocks 2 ([2, -1] : List Float) = [[2, -1, 0]] := by simp [Source.blocks]
  obtain ⟨-, length, -, outputs⟩ := playback_eq_blocks Machine.bare.memory ⟨[2, -1], 8000, ""⟩
    (show 0 < 3 by decide) .fresh
    [tapeRequest false 3 (by decide), tapeRequest false 3 (by decide)] (by simp [tapeRequest])
    (opens_tape false (by decide) _)
  refine ⟨length.trans (by rw [Nat.ceilDiv_eq_add_pred_div]; rfl), outputs.trans ?_⟩
  show (List.range 2).map (fun i => Except.ok (line
    (((Source.blocks 2 ([2, -1] : List Float))[i]?).getD (List.replicate 3 0)))) = _
  rw [cut]
  rfl

end Block

end Flowgraph
