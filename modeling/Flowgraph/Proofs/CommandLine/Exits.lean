import Flowgraph.Proofs.Application.Coherence
import Flowgraph.Proofs.Application.Rendering
import Flowgraph.Proofs.Audio.Writing
import Flowgraph.Proofs.CommandLine.Crashing
import Flowgraph.Proofs.Configuration.Storing

/-!
# How a run of the program ends

A configuration with faulty parameters or a graph that does not compile is
reported before anything is run.  Otherwise the cycles are run, and the exit
code tells whether a block failed in one of them and whether there was a sink
to write.
-/

namespace Flowgraph

namespace Configuration

open Block Engine

/-- Some parameters of a node are faulty, or the graph does not compile. -/
def Faulty (c : Configuration) : Prop :=
  (∃ n ∈ c.graph.nodes, ∃ message more,
    Catalog.builtin.checkParams n.blockType n.params = .ok (message :: more)) ∨
  ∃ failures, Graph.compile .builtin c.graph.nodes c.graph.edges = .error (.failures failures)

def sinks (c : Configuration) : List Graph.Node :=
  match Graph.compile .builtin c.graph.nodes c.graph.edges with
  | .ok compiled => compiled.plan.sinks
  | .error _ => []

/-- The sink to write, and its samples: the one asked for, or the first that gives real samples. -/
inductive Chosen (machine : Machine) (c : Configuration) :
    Option String → Graph.Node → List Float → Prop where
  | named {s : Graph.Node} {samples : List Float} : s ∈ c.sinks → c.Sounds machine s samples →
      Chosen machine c (some s.id) s samples
  | first {s : Graph.Node} {samples : List Float} {before after : List Graph.Node} :
      c.sinks = before ++ s :: after →
      (∀ t ∈ before, ∀ others, ¬ c.Sounds machine t others) → c.Sounds machine s samples →
      Chosen machine c none s samples

theorem Chosen.mem {machine : Machine} {c : Configuration} {sink : Option String} {s : Graph.Node}
    {samples : List Float} (chosen : Chosen machine c sink s samples) : s ∈ c.sinks := by
  cases chosen with
  | named mem _ => exact mem
  | first split _ _ => simp [split]

theorem Chosen.sounds {machine : Machine} {c : Configuration} {sink : Option String} {s : Graph.Node}
    {samples : List Float} (chosen : Chosen machine c sink s samples) :
    c.Sounds machine s samples := by
  cases chosen with
  | named _ sounds => exact sounds
  | first _ _ sounds => exact sounds

end Configuration

namespace Application

/-! ## Checking parameters -/

theorem report_ne_nil (known : List (String × List String)) (id : String)
    (complaints : List String) : report known id complaints ≠ [] := by
  cases known with
  | nil => exact nofun
  | cons first rest =>
      rw [report]
      split <;> exact nofun

/-- What is known of some nodes stays known, and there is more if another node is faulty. -/
theorem checkNodes_ne_nil_iff {catalog : Catalog} {known complaints : List (String × List String)}
    {nodes : List Graph.Node} (checked : checkNodes catalog known nodes = .ok complaints) :
    complaints ≠ [] ↔ known ≠ [] ∨ ∃ n ∈ nodes, ∃ message more,
      catalog.checkParams n.blockType n.params = .ok (message :: more) := by
  induction nodes generalizing known with
  | nil =>
      cases checked
      simp
  | cons n rest ih =>
      obtain ⟨messages, now, later⟩ := of_bind_eq_ok checked
      rw [ih later, List.exists_mem_cons_iff, now]
      cases messages with
      | nil => simp
      | cons message more => simp [report_ne_nil]

def withSteps (app : Application) (steps : List Step) : Application :=
  { app with engine := { app.engine with steps := steps } }

end Application

namespace CommandLine

variable {machine : Machine} {o : Options} {args : List String} {c : Configuration}

/-! ## Configuring -/

theorem cycles_pos_of_override {c' : Configuration} (before : 0 < c.cycles)
    (done : override o c = .ok c') : 0 < c'.cycles := by
  obtain ⟨settings, -, done⟩ := of_bind_eq_ok done
  cases asked : o.cycles with
  | none =>
      simp only [asked] at done
      cases done
      exact before
  | some n =>
      simp only [asked] at done
      by_cases none : n ≤ 0
      · rw [if_pos none] at done
        cases done
      · rw [if_neg none] at done
        cases done
        show 0 < n.toNat
        omega

theorem cycles_pos (made : configure machine.files o = .ok c) : 0 < c.cycles := by
  cases asked : o.config with
  | none =>
      have standard : configure machine.files o = override o .standard := by
        unfold configure
        rw [asked]
        rfl
      rw [standard] at made
      exact cycles_pos_of_override (by decide) made
  | some path =>
      rw [configure_of_path asked] at made
      obtain ⟨loaded, read, overridden⟩ := of_bind_eq_ok made
      obtain ⟨text, -, read⟩ := of_bind_eq_ok read
      obtain ⟨raw, -, read⟩ := of_bind_eq_ok read
      exact cycles_pos_of_override (Configuration.storable_of_ofValue read).cycles overridden

theorem script_of_configure (understood : parse args = some o) (helpless : o.help = false)
    (unlisted : o.listBlocks = false) (made : configure machine.files o = .ok c) :
    script machine args = execute machine o (Application.ofConfiguration .builtin c).1 := by
  rw [script_of_helpless understood helpless, runOptions_of_configure unlisted made]

/-! ## Choosing a sink -/

def soundOf (entry : String × Signal) : Option (String × List Float) :=
  match entry.2 with
  | .real g => some (entry.1, g.cells)
  | _ => none

theorem selectSink_eq (outputs : Application.Recording) (sink : Option String) :
    selectSink outputs sink = match sink with
      | some id => (outputs.lookup id).bind fun data => soundOf (id, data)
      | none => outputs.findSome? soundOf := by
  cases sink <;> rfl

theorem soundOf_eq_some_iff {id id' : String} {data : Signal} {samples : List Float} :
    soundOf (id, data) = some (id', samples) ↔
      id = id' ∧ ∃ g, data = .real g ∧ g.cells = samples := by
  cases data with
  | real g => simp [soundOf]
  | _ => simp [soundOf]

section

open Application Engine

variable {compiled : Graph.Compiled}
  (graph : Graph.compile .builtin c.graph.nodes c.graph.edges = .ok compiled)

include graph

theorem sinks_of_compile : c.sinks = compiled.plan.sinks := by
  rw [Configuration.sinks, graph]

theorem selectSink_eq_some_iff (positive : 0 < c.cycles) {cycles : List (List SinkOutput)}
    (count : cycles.length = c.cycles) (yields : Yields machine (c.engineAfter machine 0) cycles)
    {sink : Option String} {id : String} {samples : List Float} :
    selectSink (recordingOf compiled cycles) sink = some (id, samples) ↔
      ∃ s, s.id = id ∧ Configuration.Chosen machine c sink s samples := by
  have each {s : Graph.Node} (mem : s ∈ compiled.plan.sinks) {id : String}
      {samples : List Float} :
      soundOf (s.id, .join (collected s.id cycles)) = some (id, samples) ↔
        s.id = id ∧ c.Sounds machine s samples := by
    rw [soundOf_eq_some_iff, join_eq_real_iff graph positive mem count yields]
  have sinks := sinks_of_compile graph
  rw [selectSink_eq]
  cases sink with
  | some wanted =>
      dsimp only
      rw [Option.bind_eq_some_iff]
      constructor
      · rintro ⟨data, found, sound⟩
        have known := found
        rw [recordingOf, Graph.lookup_tabulated (fun n : Graph.Node => n.id)
          (fun id => Signal.join (collected id cycles))] at known
        split at known
        · next listed =>
            obtain ⟨s, mem, rfl⟩ := List.mem_map.mp listed
            cases known
            obtain ⟨same, sounds⟩ := (each mem).mp sound
            exact ⟨s, same, .named (sinks ▸ mem) sounds⟩
        · cases known
      · rintro ⟨s, rfl, chosen⟩
        cases chosen with
        | named mem sounds =>
            rw [sinks] at mem
            exact ⟨_, lookup_recordingOf mem cycles, (each mem).mpr ⟨rfl, sounds⟩⟩
  | none =>
      dsimp only
      -- the recording lists the sinks in the order of the plan, so the first match is the first sink
      rw [recordingOf, List.findSome?_map, List.findSome?_eq_some_iff]
      constructor
      · rintro ⟨before, s, after, split, sound, silent⟩
        obtain ⟨same, sounds⟩ := (each (by simp [split])).mp sound
        refine ⟨s, same, .first (sinks.trans split) (fun t mem others heard => ?_) sounds⟩
        have sound := (each (s := t) (by simp [split, mem])).mpr ⟨rfl, heard⟩
        cases (silent t mem).symm.trans sound
      · rintro ⟨s, rfl, chosen⟩
        cases chosen with
        | @first _ _ before after split silent sounds =>
            rw [sinks] at split
            refine ⟨before, s, after, split, (each (by simp [split])).mpr ⟨rfl, sounds⟩,
              fun t mem => ?_⟩
            refine Option.eq_none_iff_forall_ne_some.mpr fun found sound => ?_
            exact silent t mem found.2 ((each (by simp [split, mem])).mp sound).2

end

/-! ## Endings -/

section

variable {app : Application}

theorem execute_of_complaints {complaints : List (String × List String)}
    (checked : app.checkParams = .ok complaints) (some : complaints ≠ []) :
    execute machine o app =
      .exits (app.summary :: (complaintTexts complaints).map .ok) .invalidGraph := by
  have listed : complaints.isEmpty = false := by simpa using some
  simp only [execute, checked, listed, Bool.not_false, if_true]

theorem execute_of_error (checked : app.checkParams = .ok []) {failures : List Graph.Failure}
    (compiled : app.compiled = .error failures) :
    execute machine o app = .exits [app.summary] .invalidGraph := by
  simp only [execute, checked, compiled, List.isEmpty_nil, Bool.not_true, Bool.false_eq_true,
    if_false]

theorem execute_of_compiled (checked : app.checkParams = .ok []) {compiled : Graph.Compiled}
    (succeeded : app.compiled = .ok compiled) :
    execute machine o app = match app.run machine .null with
      | (_, .error fault, _) =>
        .exits [app.summary, .ok s!"Runtime error: {fault.message}"] .runtimeError
      | (after, .ok outputs, _) =>
        writeOutput machine.files o after.configuration.settings outputs
          [app.summary, statistics after.engine] := by
  rw [execute, checked, succeeded]
  rfl

theorem execute_of_ok (checked : app.checkParams = .ok []) {compiled : Graph.Compiled}
    (succeeded : app.compiled = .ok compiled) :
    ∃ texts, execute machine o app = match (app.run machine .null).2.1 with
      | .error _ => .exits texts .runtimeError
      | .ok outputs => writeOutput machine.files o app.configuration.settings outputs texts := by
  have kept := Application.configuration_run app machine .null
  rw [execute_of_compiled checked succeeded]
  generalize app.run machine .null = ran at kept ⊢
  rcases ran with ⟨after, fault | outputs, notices⟩
  · exact ⟨_, rfl⟩
  · dsimp only at kept
    exact ⟨[app.summary, statistics after.engine], by rw [← kept]⟩

end

section

open Application Engine

variable {complaints : List (String × List String)}

theorem faulty_iff (checked : (ofConfiguration .builtin c).1.checkParams = .ok complaints) :
    c.Faulty ↔ complaints ≠ [] ∨ ∃ failures,
      Graph.compile .builtin c.graph.nodes c.graph.edges = .error (.failures failures) := by
  rw [checkParams, ofConfiguration_catalog, ofConfiguration_configuration] at checked
  rw [Configuration.Faulty, checkNodes_ne_nil_iff checked]
  simp

/-- A faulty configuration is reported, whatever the steps of its plan would do. -/
theorem execute_of_faulty (checked : (ofConfiguration .builtin c).1.checkParams = .ok complaints)
    (faulty : c.Faulty) : ∃ texts, ∀ steps,
      execute machine o ((ofConfiguration .builtin c).1.withSteps steps) =
        .exits texts .invalidGraph := by
  by_cases clean : complaints = []
  · subst clean
    obtain ⟨failures, graph⟩ := ((faulty_iff checked).mp faulty).resolve_left (absurd rfl)
    exact ⟨[(ofConfiguration .builtin c).1.summary], fun steps =>
      @execute_of_error machine o ((ofConfiguration .builtin c).1.withSteps steps) checked failures
        (ofConfiguration_of_error graph)⟩
  · exact ⟨(ofConfiguration .builtin c).1.summary :: (complaintTexts complaints).map .ok,
      fun steps => @execute_of_complaints machine o
        ((ofConfiguration .builtin c).1.withSteps steps) complaints checked clean⟩

variable (checked : (ofConfiguration .builtin c).1.checkParams = .ok complaints)
  (sound : ¬ c.Faulty)

include checked sound

theorem exists_compiled_of_sound : (ofConfiguration .builtin c).1.checkParams = .ok [] ∧
    ∃ compiled, Graph.compile .builtin c.graph.nodes c.graph.edges = .ok compiled := by
  rw [faulty_iff checked, not_or, not_not] at sound
  obtain ⟨rfl, unfailed⟩ := sound
  exact ⟨checked, (Graph.compile_builtin_cases _ _).resolve_right unfailed⟩

variable (positive : 0 < c.cycles)

include positive

theorem execute_of_breaks (breaks : c.Breaks machine) :
    ∃ texts, execute machine o (ofConfiguration .builtin c).1 = .exits texts .runtimeError := by
  obtain ⟨clean, compiled, graph⟩ := exists_compiled_of_sound checked sound
  have succeeded := (@Reached.compiled_iff c _ _ .new).mpr graph
  obtain ⟨fault, failed⟩ := run_of_breaks graph positive breaks
  obtain ⟨texts, spec⟩ := @execute_of_ok machine o _ clean _ succeeded
  rw [failed] at spec
  exact ⟨texts, spec⟩

/-- If no block fails, it is left to write the sink that is chosen among the outputs. -/
theorem execute_of_unbroken (unbroken : ¬ c.Breaks machine) :
    ∃ (outputs : Recording) (texts : List (Except Fault String)),
      execute machine o (ofConfiguration .builtin c).1 =
        writeOutput machine.files o c.settings outputs texts ∧
      ∀ id samples, selectSink outputs o.sink = some (id, samples) ↔
        ∃ s, s.id = id ∧ Configuration.Chosen machine c o.sink s samples := by
  obtain ⟨clean, compiled, graph⟩ := exists_compiled_of_sound checked sound
  have succeeded := (@Reached.compiled_iff c _ _ .new).mpr graph
  obtain ⟨cycles, count, yields, returned⟩ := run_of_unbroken graph positive unbroken
  obtain ⟨texts, spec⟩ := @execute_of_ok machine o _ clean _ succeeded
  rw [returned, ofConfiguration_configuration] at spec
  exact ⟨_, texts, spec, fun id samples => selectSink_eq_some_iff graph positive count yields⟩

end

/-! ## Texts -/

theorem exists_summary {app : Application}
    (rate : Number.isWritable app.configuration.settings.sampleRate = true)
    (size : Number.isWritable app.configuration.settings.bufferSize = true)
    (cycles : Number.isWritable app.configuration.cycles = true) :
    ∃ line, app.summary = .ok line := by
  rw [Application.summary, Value.toText_int rate, Value.toText_int size, Value.toText_int cycles]
  exact ⟨_, rfl⟩

theorem exists_statistics {e : Engine} (cycles : Number.isWritable e.cycles = true)
    (samples : Number.isWritable e.samples = true) : ∃ line, statistics e = .ok line := by
  rw [statistics, Value.toText_int cycles, Value.toText_int samples]
  exact ⟨_, rfl⟩

theorem exists_texts_writeOutput (files : Files) (o : Options) (settings : Settings)
    (outputs : Application.Recording) (texts : List (Except Fault String)) :
    ∃ lines : List String,
      (writeOutput files o settings outputs texts).texts = texts ++ lines.map .ok := by
  unfold writeOutput
  split
  · exact ⟨[], (List.append_nil texts).symm⟩
  · split
    · exact ⟨[_], rfl⟩
    · split
      · exact ⟨[], (List.append_nil texts).symm⟩
      · exact ⟨[_], rfl⟩

/--
The summary comes first.  Behind it only the counts hold numbers that may be too
long for a text.
-/
theorem exists_texts_execute (app : Application) : ∃ rest,
    (execute machine o app).texts = app.summary :: rest ∧
      ∀ text ∈ rest, text = statistics (app.run machine .null).1.engine ∨
        ∃ line, text = .ok line := by
  cases checked : app.checkParams with
  | error fault => exact ⟨[], by rw [execute, checked], by simp⟩
  | ok complaints =>
      by_cases clean : complaints = []
      · subst clean
        cases compiled : app.compiled with
        | error failures => exact ⟨[], by rw [execute_of_error checked compiled]; rfl, by simp⟩
        | ok c =>
            rw [execute_of_compiled checked compiled]
            rcases app.run machine .null with ⟨after, fault | outputs, notices⟩
            · exact ⟨[_], rfl, by simp⟩
            · obtain ⟨lines, same⟩ := exists_texts_writeOutput machine.files o
                after.configuration.settings outputs [app.summary, statistics after.engine]
              exact ⟨statistics after.engine :: lines.map .ok, same, by simp⟩
      · exact ⟨(complaintTexts complaints).map .ok,
          by rw [execute_of_complaints checked clean]; rfl, by simp⟩

/-! ## Exit codes -/

def Sinkless (machine : Machine) (o : Options) (c : Configuration) : Prop :=
  o.output ≠ none ∧ ∀ s samples, ¬ Configuration.Chosen machine c o.sink s samples

section

variable {files : Files} {texts : List (Except Fault String)}

theorem writeOutput_of_unasked (unasked : o.output = none) (settings : Settings)
    (outputs : Application.Recording) :
    writeOutput files o settings outputs texts = .exits texts .ok := by
  rw [writeOutput, unasked]

theorem writeOutput_of_none {path : String} (asked : o.output = some path)
    {outputs : Application.Recording} (none : selectSink outputs o.sink = none)
    (settings : Settings) :
    writeOutput files o settings outputs texts =
      .exits (texts ++ [.ok (noSinkText o)]) .invalidGraph := by
  simp only [writeOutput, asked, none]

theorem ending_writeOutput_of_some {path id : String} {samples : List Float}
    (asked : o.output = some path) (writable : files.checkWritable path = .ok ())
    {outputs : Application.Recording} (selected : selectSink outputs o.sink = some (id, samples))
    (settings : Settings) :
    (writeOutput files o settings outputs texts).ending =
      (Audio.write samples (.int settings.sampleRate)).map fun content =>
        ⟨.ok, some (path, content)⟩ := by
  simp only [writeOutput, asked, selected, writable, bind, Except.bind]
  cases Audio.write samples (.int settings.sampleRate) <;> rfl

end

/--
How a run without failures ends.  A file is written only at the very end, and it
holds the samples of the chosen sink over all cycles.
-/
structure Ending.Written (machine : Machine) (o : Options) (c : Configuration) (ending : Ending) :
    Prop where
  silent : o.output = none → ending.exit.number = 0 ∧ ending.written = none
  sinkless : Sinkless machine o c → ending.exit.number = 1 ∧ ending.written = none
  wrote : ∀ path, o.output = some path → ∀ s samples,
    Configuration.Chosen machine c o.sink s samples →
    ending.exit.number = 0 ∧ ∃ content, ending.written = some (path, content) ∧
      content = Audio.encode c.settings.sampleRate (Audio.levels samples) ∧
      Audio.stored content samples.length = Audio.levels samples ∧
      ((∀ n ∈ c.graph.nodes, ¬ Engine.Transforms n) →
        samples.length = c.cycles * c.settings.bufferSize)

/--
What an ending says about a configuration whose parameters could be checked.
What is faulty is found before anything is run, so the steps of the plan do not
matter then.
-/
structure Ending.Exact (machine : Machine) (o : Options) (c : Configuration) (ending : Ending) :
    Prop where
  faulty : c.Faulty → ending.exit.number = 1 ∧ ending.written = none ∧
    ∀ steps, execute machine o ((Application.ofConfiguration .builtin c).1.withSteps steps) =
      execute machine o (Application.ofConfiguration .builtin c).1
  broken : ¬ c.Faulty → c.Breaks machine → ending.exit.number = 2 ∧ ending.written = none
  unbroken : ¬ c.Faulty → ¬ c.Breaks machine → ending.Written machine o c

def Report.ending (report : Report) : Ending :=
  ⟨report.exit, report.written⟩

section

variable {complaints : List (String × List String)}
  (checked : (Application.ofConfiguration .builtin c).1.checkParams = .ok complaints)
  (sound : ¬ c.Faulty) (positive : 0 < c.cycles) (unbroken : ¬ c.Breaks machine)

include checked sound positive unbroken

theorem length_of_chosen (plain : ∀ n ∈ c.graph.nodes, ¬ Engine.Transforms n)
    {sink : Option String} {s : Graph.Node} {samples : List Float}
    (chosen : Configuration.Chosen machine c sink s samples) :
    samples.length = c.cycles * c.settings.bufferSize := by
  obtain ⟨-, compiled, graph⟩ := exists_compiled_of_sound checked sound
  have mem := chosen.mem
  rw [sinks_of_compile graph] at mem
  exact Application.length_of_sounds graph positive unbroken plain
    ((Engine.mem_sinks_of_compile graph).mp mem).1 chosen.sounds

theorem exists_written_of_unbroken
    (writable : ∀ path, o.output = some path → machine.files.checkWritable path = .ok ())
    (room : o.output ≠ none → ∀ s samples, Configuration.Chosen machine c o.sink s samples →
      Audio.Held c.settings.sampleRate samples.length) :
    ∃ ending, (execute machine o (Application.ofConfiguration .builtin c).1).ending = .ok ending ∧
      ending.Written machine o c := by
  obtain ⟨outputs, texts, same, selects⟩ :=
    @execute_of_unbroken machine o c complaints checked sound positive unbroken
  have selects' : ∀ s samples, Configuration.Chosen machine c o.sink s samples →
      selectSink outputs o.sink = some (s.id, samples) :=
    fun s samples chosen => (selects s.id samples).mpr ⟨s, rfl, chosen⟩
  rw [same]
  cases asked : o.output with
  | none =>
      rw [writeOutput_of_unasked asked]
      exact ⟨_, rfl, {
        silent := fun _ => ⟨rfl, rfl⟩
        sinkless := fun sinkless => absurd asked sinkless.1
        wrote := fun path there => nomatch asked.symm.trans there }⟩
  | some path =>
      have wanted : o.output ≠ none := by simp [asked]
      cases selected : selectSink outputs o.sink with
      | none =>
          rw [writeOutput_of_none asked selected]
          exact ⟨_, rfl, {
            silent := fun unasked => absurd unasked wanted
            sinkless := fun _ => ⟨rfl, rfl⟩
            wrote := fun _ _ s samples chosen =>
              nomatch selected.symm.trans (selects' s samples chosen) }⟩
      | some found =>
          obtain ⟨s, -, chosen⟩ := (selects found.1 found.2).mp selected
          have rate : (0 : Int) < c.settings.sampleRate := by
            have := c.settings.sampleRate_pos
            omega
          rw [ending_writeOutput_of_some asked (writable path asked) selected,
            Audio.write_eq found.2 rfl rate (room wanted s found.2 chosen),
            Int.toNat_natCast]
          refine ⟨_, rfl, {
            silent := fun unasked => absurd unasked wanted
            sinkless := fun sinkless => absurd chosen (sinkless.2 s found.2)
            wrote := ?_ }⟩
          intro path' there t samples chosen'
          cases asked.symm.trans there
          cases selected.symm.trans (selects' t samples chosen')
          exact ⟨rfl, _, rfl, rfl, Audio.stored_levels _ _,
            fun plain => length_of_chosen checked sound positive unbroken plain chosen'⟩

end

theorem exists_exact_ending (positive : 0 < c.cycles)
    {complaints : List (String × List String)}
    (checked : (Application.ofConfiguration .builtin c).1.checkParams = .ok complaints)
    (writable : ∀ path, o.output = some path → machine.files.checkWritable path = .ok ())
    (room : ¬ c.Faulty → ¬ c.Breaks machine → o.output ≠ none → ∀ s samples,
      Configuration.Chosen machine c o.sink s samples →
      Audio.Held c.settings.sampleRate samples.length) :
    ∃ ending, (execute machine o (Application.ofConfiguration .builtin c).1).ending = .ok ending ∧
      ending.Exact machine o c := by
  by_cases sound : c.Faulty
  · obtain ⟨texts, same⟩ := @execute_of_faulty machine o c complaints checked sound
    have own := same (Application.ofConfiguration .builtin c).1.engine.steps
    exact ⟨_, congrArg Script.ending own, {
      faulty := fun _ => ⟨rfl, rfl, fun steps => (same steps).trans own.symm⟩
      broken := absurd sound
      unbroken := absurd sound }⟩
  by_cases breaks : c.Breaks machine
  · obtain ⟨texts, same⟩ := @execute_of_breaks machine o c complaints checked sound positive breaks
    exact ⟨_, congrArg Script.ending same, {
      faulty := (absurd · sound)
      broken := fun _ _ => ⟨rfl, rfl⟩
      unbroken := fun _ => absurd breaks }⟩
  · obtain ⟨ending, same, written⟩ := exists_written_of_unbroken checked sound positive breaks
      writable (room sound breaks)
    exact ⟨ending, same, {
      faulty := (absurd · sound)
      broken := fun _ => (absurd · breaks)
      unbroken := fun _ _ => written }⟩

/--
Understood arguments with something to run give a report with an exact exit
code, if the parameters of all nodes can be checked, a file that is asked for can
be created, and the texts of the program can be formed and printed.  When it comes
to writing the chosen samples, the header of the file must have room for them.
-/
theorem run_exits (understood : parse args = some o) (helpless : o.help = false)
    (unlisted : o.listBlocks = false) (made : configure machine.files o = .ok c)
    {complaints : List (String × List String)}
    (checked : (Application.ofConfiguration .builtin c).1.checkParams = .ok complaints)
    (printed : (script machine args).Printed machine)
    (writable : ∀ path, o.output = some path → machine.files.checkWritable path = .ok ())
    (room : ¬ c.Faulty → ¬ c.Breaks machine → o.output ≠ none → ∀ s samples,
      Configuration.Chosen machine c o.sink s samples →
      Audio.Held c.settings.sampleRate samples.length) :
    ∃ report, run machine args = .ok report ∧ report.ending.Exact machine o c ∧
      (script machine args).texts = report.printed.map .ok := by
  obtain ⟨ending, ended, exact⟩ :=
    @exists_exact_ending machine o c (cycles_pos made) _ checked writable room
  obtain ⟨lines, texts, performed⟩ := printed.perform_eq
  rw [script_of_configure understood helpless unlisted made, ended] at performed
  refine ⟨⟨ending.exit, lines, ending.written⟩, ?_, exact, texts⟩
  rw [run, script_of_configure understood helpless unlisted made, performed]
  rfl

/-! ## A display that nothing feeds -/

def silentScope : String :=
  "\x7b\"graph\":\x7b\"nodes\":[\x7b\"id\":\"s\",\"blockType\":\"OSCILLOSCOPE\"\x7d]\x7d," ++
    "\"buffer_size\":2,\"cycles\":1\x7d"

/-- The same document with half of a surrogate pair for the id. -/
def loneScope : String :=
  "\x7b\"graph\":\x7b\"nodes\":[\x7b\"id\":\"\\ud800\",\"blockType\":\"OSCILLOSCOPE\"\x7d]\x7d," ++
    "\"buffer_size\":2,\"cycles\":1\x7d"

def loneHalf : String :=
  String.ofList (Text.CodePoint.half 0xd800).kept

inductive Named : String → String → Prop where
  | letter : Named silentScope "s"
  | half : Named loneScope loneHalf

def scope (id : String) (rate : Nat) (positive : 0 < rate) : Configuration :=
  ⟨⟨rate, 2, positive, Nat.two_pos⟩, ⟨[⟨id, "OSCILLOSCOPE", [], none⟩], [], none⟩, 1⟩

variable {id : String}

theorem load_scope {document : String} (named : Named document id)
    (print : String → Except Fault Unit) :
    Configuration.load (holding document print).files "config.json" =
      .ok (scope id 48000 (by decide)) := by
  let raw : Value := .object [("graph", .object [("nodes", .list [.object [("id", .text id),
    ("blockType", .text "OSCILLOSCOPE")]])]), ("buffer_size", .int 2), ("cycles", .int 1)]
  have unix : Text.Unix document.toList := by
    cases named <;> decide
  have read := readText_holding unix print
  have parsed : Json.parse document = .ok raw := by
    cases named <;> cbv
  have accepted : Configuration.ofValue raw = .ok (scope id 48000 (by decide)) := by
    cases named <;> rfl
  simp only [Configuration.load, Configuration.ofText, read, parsed, accepted, bind, Except.bind]

variable (id : String) (rate : Nat) (positive : 0 < rate)

theorem compile_scope :
    Graph.compile .builtin (scope id rate positive).graph.nodes
        (scope id rate positive).graph.edges =
      .ok ⟨Graph.exactPlan [] (scope id rate positive).graph.nodes, ⟨1, 0, 1, 1, 1⟩⟩ := by
  show Graph.compile .builtin [⟨id, "OSCILLOSCOPE", [], none⟩] [] = _
  rw [Graph.compile, Graph.compileWith, Graph.edgeFailures]
  cbv

theorem checkParams_scope :
    (Application.ofConfiguration .builtin (scope id rate positive)).1.checkParams = .ok [] := by
  rw [Application.checkParams, Application.ofConfiguration_catalog,
    Application.ofConfiguration_configuration]
  rfl

theorem not_faulty_scope : ¬ (scope id rate positive).Faulty := by
  rw [faulty_iff (checkParams_scope _ rate positive), compile_scope _ rate positive]
  simp

theorem not_breaks_scope {document : String} (named : Named document id)
    (print : String → Except Fault Unit) :
    ¬ (scope id rate positive).Breaks (holding document print) := by
  have completes : (((scope id rate positive).engineAfter (holding document print) 0).cycle
      (holding document print)).result.toOption.isSome := by
    rw [Configuration.engineAfter, Application.ofConfiguration_of_ok (compile_scope _ rate positive)]
    cases named <;> rfl
  rintro ⟨k, less, fails⟩
  obtain rfl : k = 0 := Nat.lt_one_iff.mp less
  obtain ⟨fault, failed⟩ := fails.exists_fault
  rw [failed] at completes
  cases completes

def scopeMachine : Machine := holding silentScope fun _ => .ok ()

theorem chosen_scope :
    Configuration.Chosen scopeMachine (scope "s" rate positive) none ⟨"s", "OSCILLOSCOPE", [], none⟩
      [0, 0] := by
  have output : ((scope "s" rate positive).engineAfter scopeMachine 1).output? "s" =
      some (Block.line [0, 0]) := by
    rw [Configuration.engineAfter, Application.ofConfiguration_of_ok (compile_scope _ rate positive)]
    rfl
  have sinks : (scope "s" rate positive).sinks = [] ++ ⟨"s", "OSCILLOSCOPE", [], none⟩ :: [] :=
    sinks_of_compile (compile_scope _ rate positive)
  have sounds :
      (scope "s" rate positive).Sounds scopeMachine ⟨"s", "OSCILLOSCOPE", [], none⟩ [0, 0] := by
    refine ⟨[[0, 0]], rfl, fun k less => ?_, rfl⟩
    obtain rfl : k = 0 := Nat.lt_one_iff.mp less
    exact output
  exact .first sinks (fun _ mem => absurd mem List.not_mem_nil) sounds

theorem normalize_out : Path.normalize "o.wav" = "o.wav" := by
  have whole : "o.wav".splitOn "/" = ["o.wav"] := by
    rw [String.splitOn, if_neg (by decide)]
    iterate 5 rw [String.splitOnAux, if_neg (by decide), if_neg (by decide)]
    rw [String.splitOnAux, if_pos (by decide)]
    cbv
  rw [Path.normalize, Path.components, whole]
  cbv

def writing (rate : Nat) : Options :=
  { config := some "config.json", sampleRate := some rate, output := some "o.wav" }

theorem classifyAll_cons {arg : String} {token : Token} {rest : List String} {more : List Token}
    (single : arg ≠ "--") (now : classify arg = some token) (later : classifyAll rest = some more) :
    classifyAll (arg :: rest) = some (token :: more) := by
  rw [classifyAll, if_neg single, now, later]
  rfl

def writingArgs (rate : String) : List String :=
  ["--config", "config.json", "--output", "o.wav", "--sample-rate", rate]

theorem parse_writing {text : String} {rate : Nat} (single : text ≠ "--")
    (value : classify text = some (.value text)) (read : readInt text = some rate) :
    parse (writingArgs text) = some (writing rate) := by
  have sorted : classifyAll (writingArgs text) =
      some [.known .config none, .value "config.json", .known .output none, .value "o.wav",
        .known .sampleRate none, .value text] :=
    classifyAll_cons (by decide) (by cbv) <| classifyAll_cons (by decide) (by cbv) <|
      classifyAll_cons (by decide) (by cbv) <| classifyAll_cons (by decide) (by cbv) <|
      classifyAll_cons (by decide) (by cbv) <| classifyAll_cons single value rfl
  rw [parse, sorted]
  show takeTokens {} false _ = _
  simp only [takeTokens, Flag.takesValue, setValue, normalize_config, normalize_out, read,
    if_true, Bool.false_eq_true, if_false]
  rfl

theorem configure_writing :
    configure scopeMachine.files (writing rate) = .ok (scope "s" rate positive) := by
  have some : ¬ (rate : Int) ≤ 0 := by omega
  have loaded : Configuration.load scopeMachine.files "config.json" = _ :=
    load_scope .letter fun _ => .ok ()
  rw [configure_of_path rfl, loaded]
  show override (writing rate) (scope "s" 48000 (by decide)) = _
  simp only [override, overrideSettings, writing, scope, Settings.ofInts, Option.getD_some, some]
  rfl

theorem levels_silence : Audio.levels ([0, 0] : List Float) = [0, 0] := by
  decide +kernel

/-- Every text of the program is formed, and this machine prints all of them. -/
theorem printed_scope (short : Number.isWritable rate = true) :
    (execute scopeMachine (writing rate)
      (Application.ofConfiguration .builtin (scope "s" rate positive)).1).Printed scopeMachine := by
  have ran : ((Application.ofConfiguration .builtin (scope "s" rate positive)).1.run scopeMachine
      .null).1.engine.cycles = 1 ∧ ((Application.ofConfiguration .builtin
        (scope "s" rate positive)).1.run scopeMachine .null).1.engine.samples = 2 := by
    rw [Application.ofConfiguration_of_ok (compile_scope _ rate positive)]
    exact ⟨rfl, rfl⟩
  have summary : ∃ line,
      (Application.ofConfiguration .builtin (scope "s" rate positive)).1.summary = .ok line := by
    have few : Number.isWritable 2 = true ∧ Number.isWritable 1 = true := by decide
    apply exists_summary <;> rw [Application.ofConfiguration_configuration]
    · exact short
    · exact few.1
    · exact few.2
  have counts : ∃ line, statistics ((Application.ofConfiguration .builtin
      (scope "s" rate positive)).1.run scopeMachine .null).1.engine = .ok line :=
    exists_statistics (by rw [ran.1]; decide) (by rw [ran.2]; decide)
  obtain ⟨rest, texts, each⟩ := @exists_texts_execute scopeMachine (writing rate)
    (Application.ofConfiguration .builtin (scope "s" rate positive)).1
  rw [Script.Printed, texts, List.forall_mem_cons]
  constructor
  · obtain ⟨line, formed⟩ := summary
    rw [formed]
    rfl
  · intro text mem
    rcases each text mem with rfl | ⟨line, rfl⟩
    · obtain ⟨line, formed⟩ := counts
      rw [formed]
      rfl
    · rfl

/-- At a rate that a header has room for, the file that is asked for is written. -/
theorem run_exits_scope :
    ∃ report, run scopeMachine (writingArgs "8000") = .ok report ∧
      report.exit.number = 0 ∧ report.written = some ("o.wav", Audio.encode 8000 [0, 0]) := by
  have understood : parse (writingArgs "8000") = some (writing 8000) :=
    parse_writing (by decide) (by cbv) (by cbv)
  have positive : 0 < 8000 := by decide
  have sound := not_faulty_scope "s" 8000 positive
  have unbroken := not_breaks_scope _ 8000 positive .letter fun _ => .ok ()
  have writable : ∀ path, (writing 8000).output = some path →
      scopeMachine.files.checkWritable path = .ok () := by
    rintro path ⟨⟩
    rfl
  have room : ∀ s samples,
      Configuration.Chosen scopeMachine (scope "s" 8000 positive) none s samples →
      Audio.Held 8000 samples.length := by
    intro s samples chosen
    have plain : ∀ n ∈ (scope "s" 8000 positive).graph.nodes, ¬ Engine.Transforms n :=
      List.forall_mem_singleton.mpr
        (Engine.not_transforms_of_id (by rfl : _ = some "OSCILLOSCOPE") (by decide))
    rw [length_of_chosen (checkParams_scope _ 8000 positive) sound Nat.one_pos unbroken plain chosen]
    exact ⟨by decide, show 36 + 2 * (1 * 2) < Audio.fieldLimit by decide⟩
  have made := configure_writing 8000 positive
  have printed : (script scopeMachine (writingArgs "8000")).Printed scopeMachine := by
    rw [script_of_configure understood rfl rfl made]
    exact printed_scope 8000 positive (by decide)
  obtain ⟨report, same, exact, -⟩ := run_exits understood rfl rfl made
    (checkParams_scope _ 8000 positive) printed writable fun _ _ _ => room
  obtain ⟨exit, content, written, rfl, -, -⟩ :=
    (exact.unbroken sound unbroken).wrote "o.wav" rfl _ _ (chosen_scope 8000 positive)
  rw [levels_silence] at written
  exact ⟨report, same, exit, written⟩

def loneMachine : Machine := holding loneScope Text.printPlain

def loneSummary : String :=
  "Sample rate: 48000 Hz\nBuffer size: 2 samples\nCycles: 1\nCompilation: ok\n" ++
    "Execution order:\n  - " ++ loneHalf ++ " (Oscilloscope)\nSources: " ++ loneHalf ++
    "\nSinks: " ++ loneHalf

theorem printPlain_loneSummary : Text.printPlain loneSummary ≠ .ok () := by
  rw [ne_eq, Text.printPlain_eq_ok_iff]
  decide +kernel

theorem summary_lone (positive : 0 < 48000) :
    (Application.ofConfiguration .builtin (scope loneHalf 48000 positive)).1.summary =
      .ok loneSummary := by
  have outcome : (Application.ofConfiguration .builtin
      (scope loneHalf 48000 positive)).1.outcomeLines =
        ["Compilation: ok", "Execution order:", "  - " ++ loneHalf ++ " (Oscilloscope)",
          "Sources: " ++ loneHalf, "Sinks: " ++ loneHalf] := by
    rw [Application.ofConfiguration_of_ok (compile_scope _ 48000 positive)]
    rfl
  rw [Application.summary, Application.ofConfiguration_configuration, outcome]
  cbv

theorem not_printed_lone {args : List String} (positive : 0 < 48000)
    (same : script loneMachine args = execute loneMachine o
      (Application.ofConfiguration .builtin (scope loneHalf 48000 positive)).1) :
    ¬ (script loneMachine args).Printed loneMachine := by
  intro printed
  obtain ⟨rest, texts, -⟩ := @exists_texts_execute loneMachine o
    (Application.ofConfiguration .builtin (scope loneHalf 48000 positive)).1
  rw [same, Script.Printed, texts, List.forall_mem_cons] at printed
  have taken := printed.1
  simp only [summary_lone, bind, Except.bind, loneMachine, holding] at taken
  exact printPlain_loneSummary taken

/--
At a rate beyond that, nothing is wrong with the same document, but no report is
given.  Neither is one where the id of the display is no text for the terminal.
-/
theorem not_exists_run_beyond :
    (∃ c, configure scopeMachine.files (writing 2147483648) = .ok c ∧
      (Application.ofConfiguration .builtin c).1.checkParams = .ok [] ∧
      scopeMachine.files.checkWritable "o.wav" = .ok () ∧ ¬ c.Faulty ∧ ¬ c.Breaks scopeMachine ∧
      (∃ s samples, Configuration.Chosen scopeMachine c none s samples) ∧
      ¬ ∃ report, run scopeMachine (writingArgs "2147483648") = .ok report) ∧
    ∃ c, configure loneMachine.files { config := some "config.json" } = .ok c ∧
      (Application.ofConfiguration .builtin c).1.checkParams = .ok [] ∧
      ¬ c.Faulty ∧ ¬ c.Breaks loneMachine ∧
      ¬ ∃ report, run loneMachine ["--config", "config.json"] = .ok report := by
  have understood : parse (writingArgs "2147483648") = some (writing 2147483648) :=
    parse_writing (by decide) (by cbv) (by cbv)
  have positive : 0 < 2147483648 := by decide
  have made := configure_writing 2147483648 positive
  have checked := checkParams_scope "s" 2147483648 positive
  have sound := not_faulty_scope "s" 2147483648 positive
  have unbroken := not_breaks_scope _ 2147483648 positive .letter fun _ => .ok ()
  have chosen := chosen_scope 2147483648 positive
  refine ⟨⟨_, made, checked, rfl, sound, unbroken, ⟨_, _, chosen⟩, ?_⟩, ?_⟩
  · obtain ⟨outputs, texts, spec, selects⟩ :=
      @execute_of_unbroken scopeMachine (writing 2147483648) _ _ checked sound Nat.one_pos unbroken
    have selected := (selects "s" [0, 0]).mpr ⟨_, rfl, chosen⟩
    rw [run, Script.exists_perform_iff, script_of_configure understood rfl rfl made, spec,
      ending_writeOutput_of_some rfl rfl selected,
      Audio.write_of_beyond _ (n := 2147483648) rfl (by decide)]
    rintro ⟨-, _, ⟨⟩⟩
  · have lone : 0 < 48000 := by decide
    have made : configure loneMachine.files { config := some "config.json" } =
        .ok (scope loneHalf 48000 lone) := by
      have loaded : Configuration.load loneMachine.files "config.json" = _ :=
        load_scope .half Text.printPlain
      rw [configure_of_path rfl, loaded]
      rfl
    refine ⟨_, made, checkParams_scope _ 48000 lone, not_faulty_scope _ 48000 lone,
      not_breaks_scope _ 48000 lone .half Text.printPlain, ?_⟩
    rw [run, Script.exists_perform_iff]
    rintro ⟨printed, -⟩
    exact not_printed_lone lone (script_of_configure parse_config rfl rfl made) printed

end CommandLine

end Flowgraph
