import Flowgraph.Proofs.Catalog.Tripping
import Flowgraph.Proofs.CommandLine.Printing
import Flowgraph.Proofs.Configuration.Loading
import Flowgraph.Proofs.Graph.Sides
import Flowgraph.Proofs.Text.Encoding

/-!
# When the command line program crashes

The program reports what it refuses and returns an exit code for it.  It has no
report for documents of the wrong form, for parameters that a check trips over and
for texts that cannot be printed: there, and only there, a fault leaves the program.
-/

namespace Flowgraph

namespace Application

variable {c : Configuration} {catalog : Catalog}

@[simp]
theorem ofConfiguration_configuration :
    (ofConfiguration catalog c).1.configuration = c := by
  unfold ofConfiguration compile
  dsimp only
  split <;> rfl

@[simp]
theorem ofConfiguration_catalog : (ofConfiguration catalog c).1.engine.catalog = catalog := by
  unfold ofConfiguration compile
  dsimp only
  split <;> rfl

theorem tripsIff_checkNodes (known : List (String × List String)) (nodes : List Graph.Node) :
    TripsIff (checkNodes .builtin known nodes)
      (∃ n ∈ nodes, Catalog.Stumbles n.blockType n.params) := by
  induction nodes generalizing known with
  | nil => exact (FailsIff.ok known).congr (by simp)
  | cons n rest ih =>
      exact ((Catalog.tripsIff_checkParams n.blockType n.params).followed fun _ => ih _).congr
        (by simp)

end Application

namespace CommandLine

variable {machine : Machine} {files : Files} {o : Options} {args : List String}

/-! ## Loading -/

theorem misfitIff_override (o : Options) (c : Configuration) : MisfitIff (override o c) False := by
  have settings : MisfitIff (overrideSettings o c.settings) False := by
    unfold overrideSettings
    split
    · exact FailsIff.ok _
    · exact Settings.misfitIff_ofInts _ _
  refine (settings.bind (R := fun _ => False) fun _ _ => ?_).congr (by simp)
  cases o.cycles with
  | none => exact FailsIff.ok _
  | some n =>
      dsimp only
      split
      · exact FailsIff.refused rfl
      · exact FailsIff.ok _

/-- The text of the file that is asked for is nested too deep or a document of the wrong form. -/
def MisfitFile (files : Files) (o : Options) : Prop :=
  ∃ path text, o.config = some path ∧ files.readText path = .ok text ∧
    Configuration.MisfitText text

theorem configure_of_path {path : String} (asked : o.config = some path) :
    configure files o = Configuration.load files path >>= override o := by
  unfold configure
  rw [asked]

theorem misfitIff_configure (files : Files) (o : Options) :
    MisfitIff (configure files o) (MisfitFile files o) := by
  unfold MisfitFile
  cases asked : o.config with
  | none =>
      have standard : configure files o = override o .standard := by
        unfold configure
        rw [asked]
        rfl
      rw [standard]
      exact (misfitIff_override o .standard).congr (by simp)
  | some path =>
      rw [configure_of_path asked]
      exact ((Configuration.misfitIff_load files path).bind fun c _ =>
        misfitIff_override o c).congr (by simp)

/-! ## Running -/

theorem exists_ofConfiguration (c : Configuration) :
    ∃ notices, (Application.ofConfiguration .builtin c).2 = .ok notices := by
  have catalog : (Engine.new .builtin).catalog = .builtin := rfl
  simp only [Application.ofConfiguration, Application.compile, catalog]
  rcases Graph.compile_builtin_cases c.graph.nodes c.graph.edges with ⟨_, graph⟩ | ⟨_, graph⟩ <;>
    rw [graph] <;> exact ⟨_, rfl⟩

theorem runOptions_of_configure (unlisted : o.listBlocks = false) {c : Configuration}
    (made : configure machine.files o = .ok c) :
    runOptions machine o = execute machine o (Application.ofConfiguration .builtin c).1 := by
  obtain ⟨notices, compiled⟩ := exists_ofConfiguration c
  unfold runOptions
  rw [unlisted, made]
  simp only [Bool.false_eq_true, if_false]
  split
  · rename_i failed
    rw [failed] at compiled
    cases compiled
  · rename_i app _ same
    rw [same]

/-- Once the parameters have been checked the program comes to an end. -/
theorem tripsIff_execute (machine : Machine) (unwritten : o.output = none) (c : Configuration) :
    TripsIff (execute machine o (Application.ofConfiguration .builtin c).1).ending
      (∃ n ∈ c.graph.nodes, Catalog.Stumbles n.blockType n.params) := by
  have checked : TripsIff (Application.ofConfiguration .builtin c).1.checkParams
      (∃ n ∈ c.graph.nodes, Catalog.Stumbles n.blockType n.params) := by
    unfold Application.checkParams
    rw [Application.ofConfiguration_catalog, Application.ofConfiguration_configuration]
    exact Application.tripsIff_checkNodes [] _
  cases result : (Application.ofConfiguration .builtin c).1.checkParams with
  | error fault =>
      have spec : (execute machine o (Application.ofConfiguration .builtin c).1).ending =
          .error fault := by
        simp only [execute, result]
      obtain ⟨stumbles, misfit⟩ := checked.of_failure result
      rw [spec]
      exact (FailsIff.misfit misfit).congr (iff_of_true trivial stumbles)
  | ok complaints =>
      have ended : ∃ ending, (execute machine o (Application.ofConfiguration .builtin c).1).ending =
          .ok ending := by
        simp only [execute, result, writeOutput, unwritten]
        split
        · exact ⟨_, rfl⟩
        · split
          · exact ⟨_, rfl⟩
          · split <;> exact ⟨_, rfl⟩
      obtain ⟨ending, spec⟩ := ended
      rw [spec]
      exact (FailsIff.ok ending).congr (iff_of_false id (checked.not_of_eq_ok result))

/--
Nothing reports what is wrong: a document of the wrong form, or parameters of a
node of the configuration that the check of its block trips over.
-/
inductive Crashes (files : Files) (o : Options) : Prop where
  | file : MisfitFile files o → Crashes files o
  | parameters {c : Configuration} {n : Graph.Node} : configure files o = .ok c →
      n ∈ c.graph.nodes → Catalog.Stumbles n.blockType n.params → Crashes files o

def refusalText (fault : Fault) : String :=
  s!"Error loading configuration: {fault.message}"

def refusal (fault : Fault) : Report :=
  ⟨.invalidGraph, [refusalText fault], none⟩

theorem runOptions_of_refused {fault : Fault} (unlisted : o.listBlocks = false)
    (failed : configure machine.files o = .error fault) (refused : fault.isRefusal = true) :
    runOptions machine o = .exits [.ok (refusalText fault)] .invalidGraph := by
  unfold runOptions
  rw [unlisted, failed]
  simp only [Bool.false_eq_true, if_false, refused, if_true]
  rfl

theorem tripsIff_runOptions (unlisted : o.listBlocks = false) (unwritten : o.output = none) :
    TripsIff (runOptions machine o).ending (Crashes machine.files o) := by
  have loading := misfitIff_configure machine.files o
  cases made : configure machine.files o with
  | error fault =>
      have crashes : Crashes machine.files o ↔ MisfitFile machine.files o := by
        refine ⟨?_, .file⟩
        rintro (misfit | ⟨made', -, -⟩)
        · exact misfit
        · rw [made] at made'
          cases made'
      cases refused : fault.isRefusal with
      | true =>
          rw [runOptions_of_refused unlisted made refused]
          refine (FailsIff.ok _).congr (iff_of_false id fun crash => ?_)
          obtain ⟨found, failed, misfit⟩ := loading.exists_error (crashes.mp crash)
          rw [made] at failed
          cases failed
          rw [Fault.isRefusal_of_isMisfit misfit] at refused
          cases refused
      | false =>
          have spec : (runOptions machine o).ending = .error fault := by
            unfold runOptions
            rw [unlisted, made]
            simp only [Bool.false_eq_true, if_false, refused]
          obtain ⟨misfitFile, misfit⟩ := (loading.of_error fault made).resolve_left (by simp [refused])
          rw [spec]
          exact (FailsIff.misfit misfit).congr (iff_of_true trivial (.file misfitFile))
  | ok c =>
      rw [runOptions_of_configure unlisted made]
      refine (tripsIff_execute machine unwritten c).congr ⟨?_, ?_⟩
      · rintro ⟨n, mem, stumbles⟩
        exact .parameters made mem stumbles
      · rintro (misfit | ⟨made', mem, stumbles⟩)
        · exact absurd misfit (loading.not_of_eq_ok made)
        · rw [made] at made'
          cases made'
          exact ⟨_, mem, stumbles⟩

theorem script_of_helpless (understood : parse args = some o) (helpless : o.help = false) :
    script machine args = runOptions machine o := by
  unfold script
  rw [understood]
  simp only [helpless, Bool.false_eq_true, if_false]

theorem script_of_refused (understood : parse args = some o) (helpless : o.help = false)
    (unlisted : o.listBlocks = false) {path : String} (asked : o.config = some path) {fault : Fault}
    (failed : Configuration.load machine.files path = .error fault)
    (refused : fault.isRefusal = true) :
    script machine args = .exits [.ok (refusalText fault)] .invalidGraph := by
  have unmade : configure machine.files o = .error fault := by
    rw [configure_of_path asked, failed]
    rfl
  rw [script_of_helpless understood helpless]
  exact runOptions_of_refused unlisted unmade refused

/-- How understood arguments end depends on whether there is something to run. -/
theorem tripsIff_script (understood : parse args = some o) (unwritten : o.output = none) :
    TripsIff (script machine args).ending
      (o.help = false ∧ o.listBlocks = false ∧ Crashes machine.files o) := by
  cases help : o.help with
  | true =>
      have spec : script machine args = .exits [] .ok := by
        unfold script
        rw [understood]
        simp only [help, if_true]
      rw [spec]
      exact (FailsIff.ok _).congr (by simp)
  | false =>
      rw [script_of_helpless understood help]
      cases unlisted : o.listBlocks with
      | true =>
          unfold runOptions
          rw [if_pos unlisted]
          exact (FailsIff.ok _).congr (by simp)
      | false => exact (tripsIff_runOptions unlisted unwritten).congr (by simp)

/--
Understood arguments that write no file give a report, with one of the three exit
codes, exactly if every text that the program prints can be formed and printed and
it does not crash where it has something to run.  A fault that leaves the program
is that of such a text, or is about the form of a value.  A file that cannot be
read is always refused, and so is a file that no configuration can be made of
unless the program crashes on it; one text says so.
-/
theorem run_reports_iff (understood : parse args = some o) (unwritten : o.output = none) :
    ((∃ report, run machine args = .ok report) ↔
      (script machine args).Printed machine ∧
        (o.help = true ∨ o.listBlocks = true ∨ ¬ Crashes machine.files o)) ∧
    (∀ report, run machine args = .ok report → report.exit.number ∈ [0, 1, 2]) ∧
    (∀ fault, run machine args = .error fault →
      (∃ text ∈ (script machine args).texts, text >>= machine.print = .error fault) ∨
        fault.isMisfit = true) ∧
    (o.help = false → o.listBlocks = false → ∀ path fault, o.config = some path →
      (machine.files.readText path = .error fault ∨
        Configuration.load machine.files path = .error fault ∧ ¬ Crashes machine.files o) →
      (script machine args).texts = [.ok (refusalText fault)] ∧
      (machine.print (refusalText fault) = .ok () →
        run machine args = .ok (refusal fault) ∧ (refusal fault).exit.number = 1)) := by
  have trips : TripsIff (script machine args).ending _ := tripsIff_script understood unwritten
  refine ⟨?_, ?_, fun fault failed => ?_, ?_⟩
  · rw [run, Script.exists_perform_iff, trips.returns_iff]
    cases o.help <;> cases o.listBlocks <;> simp
  · intro report _
    cases report.exit <;> decide
  · exact (Script.of_perform_eq_error failed).imp_right fun ended => (trips.of_failure ended).2
  · intro helpless unlisted path fault asked reason
    have failed : Configuration.load machine.files path = .error fault ∧ fault.isRefusal = true := by
      rcases reason with unread | ⟨failed, safe⟩
      · refine ⟨?_, ((machine.files.misfitIff_readText path).of_error fault unread).resolve_right
          (·.1)⟩
        unfold Configuration.load
        rw [unread]
        rfl
      · refine ⟨failed, ?_⟩
        refine ((Configuration.misfitIff_load machine.files path).of_error fault failed).resolve_right
          ?_
        rintro ⟨⟨text, read, misfit⟩, -⟩
        exact safe (.file ⟨path, text, asked, read, misfit⟩)
    have spec : script machine args = .exits [.ok (refusalText fault)] .invalidGraph :=
      script_of_refused understood helpless unlisted asked failed.1 failed.2
    refine ⟨by rw [spec]; rfl, fun taken => ⟨?_, rfl⟩⟩
    show (script machine args).perform machine = _
    rw [spec]
    unfold Script.perform Script.exits
    rw [printAll_of_ok taken]
    rfl

theorem normalize_config : Path.normalize "config.json" = "config.json" := by
  have whole : "config.json".splitOn "/" = ["config.json"] := by
    rw [String.splitOn, if_neg (by decide)]
    iterate 11 rw [String.splitOnAux, if_neg (by decide), if_neg (by decide)]
    rw [String.splitOnAux, if_pos (by decide)]
    cbv
  rw [Path.normalize, Path.components, whole]
  cbv

theorem parse_config :
    parse ["--config", "config.json"] = some { config := some "config.json" } := by
  have sorted : classifyAll ["--config", "config.json"] =
      some [.known .config none, .value "config.json"] := by cbv
  have taken : setValue {} .config "config.json" = some { config := some "config.json" } := by
    rw [setValue, normalize_config]
  rw [parse, sorted]
  show takeTokens {} false [.known .config none, .value "config.json"] = _
  rw [takeTokens, if_pos (by decide), taken]
  rfl

/-- A file that is not there is reported. -/
theorem run_reports_iff_missing :
    parse ["--config", "config.json"] = some { config := some "config.json" } ∧
      run .bare ["--config", "config.json"] = .ok (refusal (.noSuchFile "config.json")) := by
  obtain ⟨-, -, -, refuses⟩ := @run_reports_iff .bare _ _ parse_config rfl
  exact ⟨parse_config, ((refuses rfl rfl _ _ rfl (.inl rfl)).2 rfl).1⟩

def infiniteRate : String := "\x7b\"sampleRate\":Infinity\x7d"

theorem parse_infiniteRate :
    Json.parse infiniteRate = .ok (.object [("sampleRate", .float (1 / 0))]) := by
  let behind : List Char := [':', 'I', 'n', 'f', 'i', 'n', 'i', 't', 'y', '\x7d']
  let name : List Char := ['s', 'a', 'm', 'p', 'l', 'e', 'R', 'a', 't', 'e', '"'] ++ behind
  have opened : infiniteRate.toList = '\x7b' :: '"' :: name := by decide
  have named : Json.string name = .ok ("sampleRate", behind) := by cbv
  have entries (fuel depth : Nat) : Json.entries (fuel + 2) depth ('"' :: name) =
      .ok ([("sampleRate", .float (1 / 0))], []) := by
    rw [Json.entries, named]
    rfl
  have value (fuel : Nat) : Json.value (fuel + 3) 0 ('\x7b' :: '"' :: name) =
      .ok (.object [("sampleRate", .float (1 / 0))], []) := by
    rw [Json.value, if_neg (by decide)]
    show (Json.entries (fuel + 2) (0 + 1) ('"' :: name) >>= _) = _
    rw [entries]
    rfl
  have document : Json.document ('\x7b' :: '"' :: name) =
      .ok (.object [("sampleRate", .float (1 / 0))]) := by
    rw [Json.document_eq]
    show (Json.value (45 + 3) 0 ('\x7b' :: '"' :: name) >>= _) = _
    rw [value]
    rfl
  unfold Json.parse
  dsimp only
  rw [opened, document]

def holding (text : String) (print : String → Except Fault Unit) : Machine :=
  { Machine.bare with
    files := fun _ => .file text.toUTF8.data.toList
    print := print }

theorem readText_holding {text : String} (unix : Text.Unix text.toList)
    (print : String → Except Fault Unit) :
    (holding text print).files.readText "config.json" = .ok text :=
  Files.readText_of_file (by decide) rfl unix

/-- The infinite sample rate is read, crashes the program, and is not reported. -/
theorem not_exists_run_infiniteRate :
    ¬ ∃ report, run (holding infiniteRate fun _ => .ok ()) ["--config", "config.json"] =
      .ok report := by
  have read := @readText_holding infiniteRate (by decide) fun _ => .ok ()
  have infinite : (1 / 0 : Float).isInf = true := by decide +kernel
  have misfit : Configuration.Misfit (.object [("sampleRate", .float (1 / 0))]) :=
    .settings rfl (.inl (.infinite infinite))
  have trips := @tripsIff_script (holding infiniteRate fun _ => .ok ()) _ _ parse_config rfl
  rw [run, Script.exists_perform_iff, trips.returns_iff]
  rintro ⟨-, safe⟩
  exact safe ⟨rfl, rfl, .file ⟨_, _, rfl, read, .document parse_infiniteRate misfit⟩⟩

end CommandLine

end Flowgraph
