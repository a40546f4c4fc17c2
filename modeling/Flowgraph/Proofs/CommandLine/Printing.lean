import Flowgraph.CommandLine.Run

/-!
# Printing

A script is performed to its end exactly if every text of it can be formed and
printed.  The first text that cannot ends it, with the fault of that text.
-/

namespace Flowgraph

namespace CommandLine

variable {print : String → Except Fault Unit} {text : Except Fault String}
  {texts : List (Except Fault String)} {fault : Fault}

/-! ## Texts -/

theorem printAll_of_error (failed : text >>= print = .error fault) :
    printAll print (text :: texts) = .error fault := by
  cases text with
  | error cause => exact Except.error.inj failed ▸ rfl
  | ok line =>
      have failed : print line = .error fault := failed
      rw [printAll]
      simp only [failed, bind, Except.bind]

theorem printAll_of_ok {line : String} (printed : print line = .ok ()) :
    printAll print (.ok line :: texts) = (printAll print texts).map (line :: ·) := by
  rw [printAll]
  simp only [printed, bind, Except.bind]
  cases printAll print texts <;> rfl

theorem printed_or_fails (print : String → Except Fault Unit) (text : Except Fault String) :
    (∃ line, text = .ok line ∧ print line = .ok ()) ∨ ∃ fault, text >>= print = .error fault := by
  cases text with
  | error fault => exact .inr ⟨fault, rfl⟩
  | ok line =>
      cases printed : print line with
      | error fault => exact .inr ⟨fault, printed⟩
      | ok _ => exact .inl ⟨line, rfl, printed⟩

theorem exists_printAll (printed : ∀ text ∈ texts, text >>= print = .ok ()) :
    ∃ lines : List String, texts = lines.map .ok ∧ printAll print texts = .ok lines := by
  induction texts with
  | nil => exact ⟨[], rfl, rfl⟩
  | cons text rest ih =>
      obtain ⟨now, later⟩ := List.forall_mem_cons.mp printed
      obtain ⟨line, rfl, done⟩ := of_bind_eq_ok now
      obtain ⟨lines, same, all⟩ := ih later
      refine ⟨line :: lines, by rw [same]; rfl, ?_⟩
      rw [printAll_of_ok done, all]
      rfl

/-- Unless all texts are printed, one of them fails and its fault ends it. -/
theorem exists_failing (unprinted : ¬ ∀ text ∈ texts, text >>= print = .ok ()) :
    ∃ text ∈ texts, ∃ fault, text >>= print = .error fault ∧
      printAll print texts = .error fault := by
  induction texts with
  | nil => exact absurd (fun _ mem => absurd mem List.not_mem_nil) unprinted
  | cons text rest ih =>
      rcases printed_or_fails print text with ⟨line, rfl, printed⟩ | ⟨fault, failed⟩
      · obtain ⟨other, mem, fault, failed, all⟩ :=
          ih fun later => unprinted (List.forall_mem_cons.mpr ⟨printed, later⟩)
        refine ⟨other, List.mem_cons_of_mem _ mem, fault, failed, ?_⟩
        rw [printAll_of_ok printed, all]
        rfl
      · exact ⟨text, List.mem_cons_self, fault, failed, printAll_of_error failed⟩

/-! ## Scripts -/

namespace Script

variable {machine : Machine} {s : Script}

/-- Every text of a script can be formed, and the terminal takes it. -/
def Printed (machine : Machine) (s : Script) : Prop :=
  ∀ text ∈ s.texts, text >>= machine.print = .ok ()

theorem Printed.perform_eq (printed : s.Printed machine) :
    ∃ lines : List String, s.texts = lines.map .ok ∧
      s.perform machine = s.ending.map fun e => ⟨e.exit, lines, e.written⟩ := by
  obtain ⟨lines, same, done⟩ := exists_printAll printed
  refine ⟨lines, same, ?_⟩
  unfold perform
  rw [done]
  cases s.ending <;> rfl

/-- A script that is not printed fails with the fault of one of its texts. -/
theorem perform_of_not_printed (unprinted : ¬ s.Printed machine) :
    ∃ text ∈ s.texts, ∃ fault, text >>= machine.print = .error fault ∧
      s.perform machine = .error fault := by
  obtain ⟨text, mem, fault, failed, all⟩ := exists_failing unprinted
  refine ⟨text, mem, fault, failed, ?_⟩
  unfold perform
  rw [all]
  rfl

theorem exists_perform_iff : (∃ report, s.perform machine = .ok report) ↔
    s.Printed machine ∧ ∃ ending, s.ending = .ok ending := by
  by_cases printed : s.Printed machine
  · obtain ⟨lines, -, performed⟩ := printed.perform_eq
    rw [performed]
    cases s.ending <;> simp [Except.map, printed]
  · obtain ⟨_, _, fault, -, performed⟩ := perform_of_not_printed printed
    simp [performed, printed]

theorem of_perform_eq_error (failed : s.perform machine = .error fault) :
    (∃ text ∈ s.texts, text >>= machine.print = .error fault) ∨ s.ending = .error fault := by
  by_cases printed : s.Printed machine
  · obtain ⟨lines, -, performed⟩ := printed.perform_eq
    rw [performed] at failed
    cases ended : s.ending with
    | error cause =>
        rw [ended] at failed
        cases failed
        exact .inr rfl
    | ok ending =>
        rw [ended] at failed
        cases failed
  · obtain ⟨text, mem, cause, stuck, performed⟩ := perform_of_not_printed printed
    cases performed.symm.trans failed
    exact .inl ⟨text, mem, stuck⟩

end Script

end CommandLine

end Flowgraph
