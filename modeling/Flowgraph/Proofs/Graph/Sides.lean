import Flowgraph.Proofs.Catalog.Builtin
import Flowgraph.Proofs.Graph.Compile

/-!
# Edges at a missing side

A generator takes nothing and a sink gives nothing, so an edge into the one or
out of the other has no signal at that end.  Such an edge is a type mismatch
whenever there is a signal at its other end.  Two missing sides count as equal:
an edge out of a sink into a generator is not reported.
-/

namespace Flowgraph

namespace Graph

def IsGenerator (catalog : Catalog) (n : Node) : Prop :=
  (catalog.signalsFor n.blockType).input = .ok none

def IsSink (catalog : Catalog) (n : Node) : Prop :=
  (catalog.signalsFor n.blockType).output = .ok none

variable {catalog : Catalog} {nodes : List Node} {edges : List Edge}

theorem builtin_readable (nodes : List Node) (edge : Edge) :
    ¬ Unreadable .builtin nodes edge := by
  have declared (n : Node) : ¬ Undeclared .builtin n := by
    obtain ⟨s, signals⟩ := Catalog.exists_signalsFor_builtin n.blockType
    exact (declares_iff.mpr signals).not_undeclared
  rintro ⟨s, -, t, -, -, -, undeclared | undeclared⟩
  · exact declared s undeclared
  · exact declared t undeclared

/-- Over the built-in blocks every graph compiles or has failures. -/
theorem compile_builtin_cases (nodes : List Node) (edges : List Edge) :
    (∃ c, compile .builtin nodes edges = .ok c) ∨
      ∃ failures, compile .builtin nodes edges = .error (.failures failures) := by
  have went : Outcome .builtin nodes edges (compile .builtin nodes edges) := outcome _ nodes edges
  generalize compile .builtin nodes edges = result at went
  cases went with
  | unreadable _ unreadable =>
      obtain ⟨e, -, unreadable⟩ := unreadable
      exact absurd unreadable (builtin_readable nodes e)
  | compiled => exact .inl ⟨_, rfl⟩
  | _ => exact .inr ⟨_, rfl⟩

theorem Declares.isSink_iff {n : Node} {s : Block.Signature} (h : Declares catalog n s) :
    IsSink catalog n ↔ s.output = none := by
  rw [IsSink, declares_iff.mp h, Block.Signals.output, Except.ok.injEq]

theorem Declares.isGenerator_iff {n : Node} {s : Block.Signature} (h : Declares catalog n s) :
    IsGenerator catalog n ↔ s.input = none := by
  rw [IsGenerator, declares_iff.mp h, Block.Signals.input, Except.ok.injEq]

/-- With one side missing, the signals agree exactly if the other one is missing too. -/
theorem agree_iff {s t : Node} {given taken : Block.Signature} (gives : Declares catalog s given)
    (takes : Declares catalog t taken) (side : IsGenerator catalog t ∨ IsSink catalog s) :
    given.output = taken.input ↔ IsGenerator catalog t ∧ IsSink catalog s := by
  rw [gives.isSink_iff, takes.isGenerator_iff] at *
  grind

theorem Reported.differ {edge e : Edge} {s t : Node} {given wanted : Option SignalType}
    (h : Reported catalog nodes e (.typeMismatch edge s t given wanted)) : given ≠ wanted := by
  cases h with
  | mismatch hs ht sid tid gives takes differ => exact differ

/-- Once ids are distinct and all signals are declared, a mismatch is reported where there is one. -/
theorem typeMismatch_iff (unique : (nodes.map (·.id)).Nodup)
    (readable : ∀ e ∈ edges, ¬ Unreadable catalog nodes e) {edge : Edge} (he : edge ∈ edges)
    {s t : Node} (hs : s ∈ nodes) (ht : t ∈ nodes) (sid : s.id = edge.source)
    (tid : t.id = edge.target) {given taken : Block.Signature} (gives : Declares catalog s given)
    (takes : Declares catalog t taken) :
    (∃ failures, compile catalog nodes edges = .error (.failures failures) ∧
      .typeMismatch edge s t given.output taken.input ∈ failures) ↔
      given.output ≠ taken.input := by
  have went := outcome catalog nodes edges
  constructor
  · rintro ⟨failures, failed, reported⟩
    rw [failed] at went
    cases went with
    | repeating repeating => exact absurd unique (mt not_repeating_iff.mpr (not_not.mpr repeating))
    | faulty _ _ _ each =>
        obtain ⟨e, -, reported⟩ := exists_of_forall₂ each _ reported
        exact reported.differ
    | cyclic => simp at reported
  · intro differ
    have mismatch : Reported catalog nodes edge _ := .mismatch hs ht sid tid gives takes differ
    generalize compile catalog nodes edges = result at went
    cases went with
    | repeating repeating => exact absurd unique (mt not_repeating_iff.mpr (not_not.mpr repeating))
    | unreadable _ unreadable =>
        obtain ⟨e, mem, unreadable⟩ := unreadable
        exact absurd unreadable (readable e mem)
    | faulty _ _ _ each =>
        have listed : edge ∈ edges.filter (Faulty catalog nodes ·) :=
          List.mem_filter.mpr ⟨he, by simpa using mismatch.faulty⟩
        obtain ⟨failure, mem, reported⟩ := exists_of_forall₂ each.flip _ listed
        exact ⟨_, rfl, mismatch.eq_of_reported unique reported ▸ mem⟩
    | cyclic _ fit => exact absurd mismatch.faulty (fit edge he).not_faulty
    | compiled _ fit => exact absurd mismatch.faulty (fit edge he).not_faulty

/--
In the built-in catalog every block type declares its signals.  Where this is
so, an edge into a generator or out of a sink is reported as a type mismatch if
and only if it is not both.  Only an edge that is both is found in a graph that
compiles.
-/
theorem compile_missing_side (catalog : Catalog) (nodes : List Node) (edges : List Edge) :
    let Readable := ∀ e ∈ edges, ¬ Unreadable catalog nodes e
    (catalog = .builtin → Readable) ∧
    ∀ edge ∈ edges, ∀ s ∈ nodes, ∀ t ∈ nodes, s.id = edge.source → t.id = edge.target →
      IsGenerator catalog t ∨ IsSink catalog s →
      ((nodes.map (·.id)).Nodup → Readable →
        ((∃ failures given wanted, compile catalog nodes edges = .error (.failures failures) ∧
            (catalog.signalsFor s.blockType).output = .ok given ∧
            (catalog.signalsFor t.blockType).input = .ok wanted ∧
            .typeMismatch edge s t given wanted ∈ failures) ↔
          ¬ (IsGenerator catalog t ∧ IsSink catalog s))) ∧
      ∀ c, compile catalog nodes edges = .ok c → IsGenerator catalog t ∧ IsSink catalog s := by
  intro Readable
  refine ⟨?_, ?_⟩
  · rintro rfl e -
    exact builtin_readable nodes e
  intro edge he s hs t ht sid tid side
  constructor
  · intro unique readable
    obtain ⟨given, gives⟩ := exists_declares fun undeclared =>
      readable edge he ⟨s, hs, t, ht, sid, tid, .inl undeclared⟩
    obtain ⟨taken, takes⟩ := exists_declares fun undeclared =>
      readable edge he ⟨s, hs, t, ht, sid, tid, .inr undeclared⟩
    have reported := typeMismatch_iff unique readable he hs ht sid tid gives takes
    rw [← agree_iff gives takes side, declares_iff.mp gives, declares_iff.mp takes, ← ne_eq,
      ← reported]
    simp [Block.Signals.output, Block.Signals.input]
  · intro c compiled
    obtain ⟨-, fit, -⟩ := of_compile_eq_ok compiled
    obtain ⟨given, taken, gives, takes, same⟩ := (fit edge he).2.2 s hs t ht sid tid
    exact (agree_iff gives takes side).mp same

def backwards : List Node × List Edge :=
  ([⟨"scope", "OSCILLOSCOPE", [], none⟩, ⟨"osc", "SINE_GEN", [], none⟩],
   [⟨"scope->osc", "scope", "osc", none, none⟩])

theorem compile_backwards :
    compile .builtin backwards.1 backwards.2 =
      .ok ⟨exactPlan backwards.2 backwards.1, ⟨2, 1, 2, 1, 1⟩⟩ := by
  have fit : edgeFailures .builtin backwards.1 backwards.2 = .ok [] := by rfl
  rw [compile, compileWith, fit]
  cbv

/-- A display gives nothing and an oscillator takes nothing: that is no mismatch. -/
theorem compile_missing_side_backwards :
    (∃ c, compile .builtin backwards.1 backwards.2 = .ok c) ∧
      IsGenerator .builtin ⟨"osc", "SINE_GEN", [], none⟩ ∧
      IsSink .builtin ⟨"scope", "OSCILLOSCOPE", [], none⟩ := by
  obtain ⟨-, sided⟩ := compile_missing_side .builtin backwards.1 backwards.2
  obtain ⟨-, both⟩ := sided ⟨"scope->osc", "scope", "osc", none, none⟩ (by simp [backwards])
    ⟨"scope", "OSCILLOSCOPE", [], none⟩ (by simp [backwards])
    ⟨"osc", "SINE_GEN", [], none⟩ (by simp [backwards]) rfl rfl (.inl rfl)
  exact ⟨⟨_, compile_backwards⟩, both _ compile_backwards⟩

theorem exists_compile_sink_to_generator :
    ¬ ∀ (nodes : List Node) (edges : List Edge) (c : Compiled),
      compile .builtin nodes edges = .ok c →
        ∀ edge ∈ edges, ∀ n ∈ nodes,
          (n.id = edge.target → ¬ IsGenerator .builtin n) ∧
            (n.id = edge.source → ¬ IsSink .builtin n) := by
  intro sided
  obtain ⟨target, -⟩ := sided _ _ _ compile_backwards ⟨"scope->osc", "scope", "osc", none, none⟩
    (by simp [backwards]) ⟨"osc", "SINE_GEN", [], none⟩ (by simp [backwards])
  exact target rfl rfl

end Graph

end Flowgraph
