import Flowgraph.Catalog.Builtin
import Flowgraph.Proofs.Block.Pieces
import Flowgraph.Proofs.Block.Sequence
import Flowgraph.Proofs.Block.Streams
import Flowgraph.Proofs.Number.Real

/-!
# Integrating

The integrator carries its last sum from buffer to buffer.  On the real numbers
the sums go on after a cut as if there was none, also where they restart; and as
long as no sum of the samples passes the limit, the limit does not show.
-/

namespace Flowgraph

namespace Integrator

open Elementary

/-! ## Cuts -/

section

variable {α : Type} [Add α] [OfNat α 0] [LT α] [DecidableLT α] [Neg α]

theorem after_feed (limit : Option α) (total : α) (buffers : List (List α)) :
    Carried.after (feed limit) total buffers =
      (Carried.outputs (feed limit) total buffers).flatten.getLast?.getD total := by
  induction buffers generalizing total with
  | nil => rfl
  | cons buffer rest ih =>
      rw [Carried.after, ih, Carried.outputs, List.flatten_cons, List.getLast?_append]
      cases (Carried.outputs (feed limit) (feed limit total buffer).1 rest).flatten.getLast? <;> rfl

/-- After a cut the sums go on from the last one before it. -/
def Continues (limit : Option α) : Prop :=
  ∀ (total : α) (xs ys : List α),
    integrate limit total (xs ++ ys) =
      integrate limit total xs ++
        integrate limit ((integrate limit total xs).getLast?.getD total) ys

theorem continues_some (limit : α) : Continues (some limit) :=
  limited_append (magnitude limit)

theorem integrate_nil (limit : Option α) (total : α) : integrate limit total [] = [] := by
  cases limit <;> rfl

/-- Sums that go on after a cut are, together, those of the whole. -/
theorem flatten_outputs_feed {limit : Option α} (continues : Continues limit) (total : α)
    (buffers : List (List α)) :
    (Carried.outputs (feed limit) total buffers).flatten =
      integrate limit total buffers.flatten := by
  have next {s : α} {seen : List α} (carried : s = (integrate limit total seen).getLast?.getD total)
      (buffer : List α) : ∃ s' piece, feed limit s buffer = (s', id piece) ∧
        s' = (integrate limit total (seen ++ buffer)).getLast?.getD total ∧
        integrate limit total (seen ++ buffer) = integrate limit total seen ++ piece := by
    refine ⟨_, _, rfl, ?_, carried ▸ continues total seen buffer⟩
    rw [continues, ← carried, List.getLast?_append, carried]
    cases (integrate limit _ buffer).getLast? <;> rfl
  have start : total = (integrate limit total []).getLast?.getD total := by
    rw [integrate_nil]
    rfl
  obtain ⟨pieces, answered, -, together⟩ := Carried.joined (integrate limit total)
    (fun s seen => s = (integrate limit total seen).getLast?.getD total) next start buffers
  rw [answered, List.map_id, ← List.nil_append buffers.flatten, together, integrate_nil,
    List.nil_append]

end

/-! ## Without a limit -/

theorem map_add_sums (a start : ℝ) (xs : List ℝ) :
    (sums start xs).map (a + ·) = sums (a + start) xs := by
  induction xs generalizing start with
  | nil => rfl
  | cons x rest ih => rw [sums, List.map_cons, ih, sums, add_assoc]

theorem running_eq_sums (a : ℝ) (xs : List ℝ) : running a xs = sums a xs := by
  cases xs with
  | nil => rfl
  | cons x rest => rw [running, partialSums, List.map_cons, map_add_sums, sums]

theorem sums_append (a : ℝ) (xs ys : List ℝ) :
    sums a (xs ++ ys) = sums a xs ++ sums (a + xs.sum) ys := by
  induction xs generalizing a with
  | nil => rw [List.nil_append, List.sum_nil, add_zero, sums, List.nil_append]
  | cons x rest ih =>
      rw [List.cons_append, sums, ih, sums, List.cons_append, List.sum_cons, add_assoc]

theorem getLast?_sums (a : ℝ) (xs : List ℝ) : (sums a xs).getLast?.getD a = a + xs.sum := by
  induction xs using List.reverseRecOn with
  | nil => simp [sums]
  | append_singleton xs x _ =>
      rw [sums_append, sums, sums, List.getLast?_concat, List.sum_append, List.sum_singleton,
        add_assoc]
      rfl

theorem continues_none : Continues (none : Option ℝ) := by
  intro total xs ys
  simp only [integrate, running_eq_sums]
  rw [getLast?_sums, sums_append]

theorem continues_real (limit : Option ℝ) : Continues limit := by
  cases limit with
  | none => exact continues_none
  | some limit => exact continues_some limit

theorem sums_eq_range (a : ℝ) (xs : List ℝ) :
    sums a xs = (List.range xs.length).map fun i => a + (xs.take (i + 1)).sum := by
  induction xs generalizing a with
  | nil => rfl
  | cons x rest ih =>
      rw [sums, ih, List.length_cons, List.range_succ_eq_map, List.map_cons, List.map_map]
      congr 1
      · simp
      · refine List.map_congr_left fun i _ => ?_
        rw [Function.comp_apply, List.take_succ_cons, List.sum_cons, add_assoc]

/-! ## Under a limit -/

variable {limit : ℝ}

theorem abs_add_le (nonnegative : 0 ≤ limit) (total x : ℝ) : |add limit total x| ≤ limit := by
  rw [add, magnitude_real]
  split
  · rwa [abs_zero]
  · next inside => exact not_lt.mp inside

theorem abs_le_of_mem_limited (nonnegative : 0 ≤ limit) {total y : ℝ} {xs : List ℝ}
    (mem : y ∈ limited limit total xs) : |y| ≤ limit := by
  induction xs generalizing total with
  | nil => cases mem
  | cons x rest ih =>
      rcases List.mem_cons.mp mem with rfl | mem
      · exact abs_add_le nonnegative total x
      · exact ih mem

theorem limited_eq_sums {a : ℝ} {xs : List ℝ}
    (inside : ∀ i < xs.length, |a + (xs.take (i + 1)).sum| ≤ limit) :
    limited limit a xs = sums a xs := by
  induction xs generalizing a with
  | nil => rfl
  | cons x rest ih =>
      have first : add limit a x = a + x := by
        have low : |a + x| ≤ limit := by simpa using inside 0 (by simp)
        rw [add, magnitude_real, if_neg (not_lt.mpr low)]
      rw [limited, first, sums, ih]
      intro i more
      have later := inside (i + 1) (by simpa using more)
      rwa [List.take_succ_cons, List.sum_cons, ← add_assoc] at later

/-- The limit does not show exactly as long as no sum passes it. -/
theorem limited_eq_sums_iff (nonnegative : 0 ≤ limit) (a : ℝ) (xs : List ℝ) :
    limited limit a xs = sums a xs ↔ ∀ i < xs.length, |a + (xs.take (i + 1)).sum| ≤ limit := by
  refine ⟨fun same i inside => ?_, limited_eq_sums⟩
  have among : a + (xs.take (i + 1)).sum ∈ limited limit a xs := by
    rw [same, sums_eq_range]
    exact List.mem_map.mpr ⟨i, List.mem_range.mpr inside, rfl⟩
  exact abs_le_of_mem_limited nonnegative among

end Integrator

namespace Block

structure Summing (limit : Option Float) where
  ctx : Context
  samples : List Float
  first_eq : ctx.first = some (line samples)
  limit_eq : limitRequest ctx.params = .ok limit

theorem integrator_summing {limit : Option Float} (s : Summing limit) (total : Float) :
    integrator s.ctx (some (.integrator total)) =
      (some (.integrator (Integrator.feed limit total s.samples).1),
        .ok (line (Integrator.feed limit total s.samples).2)) := by
  simp only [integrator, s.first_eq, s.limit_eq, onRecord, Option.bind_some, integratorRecord?,
    integratorStep, line, realGrid, Except.bind, Grid.line?_line]
  rfl

/--
Running sums.  On doubles an integrator block feeds its buffers one after another
and keeps the last sum that it gave, and the kernel integrates a buffer in the
same way; with a limit the sums of the buffers are those of one buffer.  On the
real numbers this also holds without a limit.  There no sum passes the limit,
and the limit makes no difference exactly if no sum of the first samples passes it.
-/
theorem integrator_exact :
    -- on doubles
    (∀ (limit : Option Float) (total : Float) (buffers : List (Summing limit)),
      let sums := Carried.outputs (Integrator.feed limit) total (buffers.map (·.samples))
      integrator.outputs (some (.integrator total)) (buffers.map (·.ctx)) =
          sums.map (fun xs => .ok (line xs)) ∧
        integrator.recordAfter (some (.integrator total)) (buffers.map (·.ctx)) =
          some (.integrator (sums.flatten.getLast?.getD total))) ∧
    (∀ (a limit : Float) (samples : List Float),
      Integrator.run (.line samples) (.float a) .null =
          .ok (Integrator.integrate none a samples) ∧
        Integrator.run (.line samples) (.float a) (.float limit) =
          .ok (Integrator.integrate (some limit) a samples)) ∧
    (∀ (limit total : Float) (buffers : List (List Float)),
      (Carried.outputs (Integrator.feed (some limit)) total buffers).flatten =
        Integrator.integrate (some limit) total buffers.flatten) ∧
    -- on the real numbers
    (∀ (limit : Option ℝ) (total : ℝ) (buffers : List (List ℝ)),
      let sums := (Carried.outputs (Integrator.feed limit) total buffers).flatten
      sums = Integrator.integrate limit total buffers.flatten ∧
        Carried.after (Integrator.feed limit) total buffers = sums.getLast?.getD total) ∧
    ∀ (a limit : ℝ) (xs : List ℝ),
      (∀ y ∈ Integrator.integrate (some limit) a xs, |y| ≤ |limit|) ∧
        Integrator.integrate none a xs =
          (List.range xs.length).map (fun i => a + (xs.take (i + 1)).sum) ∧
        (Integrator.integrate (some limit) a xs = Integrator.integrate none a xs ↔
          ∀ i < xs.length, |a + (xs.take (i + 1)).sum| ≤ |limit|) := by
  refine ⟨?_, fun _ _ _ => ⟨rfl, rfl⟩,
    fun limit => Integrator.flatten_outputs_feed (Integrator.continues_some limit),
    fun limit total buffers =>
      ⟨Integrator.flatten_outputs_feed (Integrator.continues_real limit) total buffers,
        Integrator.after_feed limit total buffers⟩, ?_⟩
  · intro limit total buffers sums
    obtain ⟨answered, record⟩ := Transfer.outputs_carried (Integrator.feed limit)
      (fun xs => .ok (line xs)) integrator_summing total buffers
    exact ⟨answered, by rw [record, Integrator.after_feed]⟩
  · intro a limit xs
    have nonnegative := abs_nonneg limit
    simp only [Integrator.integrate, Elementary.magnitude_real, Integrator.running_eq_sums]
    exact ⟨fun y mem => Integrator.abs_le_of_mem_limited nonnegative mem,
      Integrator.sums_eq_range a xs, Integrator.limited_eq_sums_iff nonnegative a xs⟩

/-- The built-in integrator, which starts from nothing. -/
example :
    (Catalog.builtin.resolve "INTEGRATOR").map (fun d => (d.process, d.initialRecord)) =
      some (integrator, .ok (some (.integrator 0))) := by
  rfl

def filling (samples : List Float) : Summing (some 2) where
  ctx :=
    { inputs := [some (line samples)]
      params := [("resetOnOverflow", .bool true), ("maxValue", .int 2)]
      rate := .int 48000
      size := .int samples.length
      machine := .bare }
  samples := samples
  first_eq := rfl
  limit_eq := rfl

/-- Sums restart behind a buffer of no samples as they would without it. -/
theorem integrator_exact_filling :
    integrator.recordAfter (some (.integrator 0))
        [(filling [1, 1]).ctx, (filling []).ctx, (filling [1, 1]).ctx] =
      some (.integrator ((Carried.outputs (Integrator.feed (some 2)) 0
        [[1, 1], [], [1, 1]]).flatten.getLast?.getD (0 : Float))) ∧
    Integrator.integrate (some 2) 0 [1, 1, 1, 1] = [1, 2, 0, (1 : ℝ)] ∧
    (Carried.outputs (Integrator.feed (some 2)) 0 [[1, 1], [], [1, 1]]).flatten =
      [1, 2, 0, (1 : ℝ)] ∧
    |(0 : ℝ)| ≤ |2| ∧
    Integrator.integrate (some 2) 0 [1, 1] = Integrator.integrate none (0 : ℝ) [1, 1] := by
  obtain ⟨summing, -, -, joined, laws⟩ := integrator_exact
  have sums : Integrator.integrate (some 2) 0 [1, 1, 1, 1] = [1, 2, 0, (1 : ℝ)] := by
    simp only [Integrator.integrate, Integrator.limited, Integrator.add,
      Elementary.magnitude_real]
    norm_num
  refine ⟨(summing (some 2) 0 [filling [1, 1], filling [], filling [1, 1]]).2, sums,
    (joined (some 2) 0 [[1, 1], [], [1, 1]]).1.trans sums,
    (laws 0 2 [1, 1, 1, 1]).1 0 (by simp [sums]), (laws 0 2 [1, 1]).2.2.mpr ?_⟩
  intro i inside
  have few : i = 0 ∨ i = 1 := by
    have two : i < 2 := inside
    omega
  rcases few with rfl | rfl
  · norm_num
  · norm_num

end Block

end Flowgraph
