import Flowgraph.Json.Reader
import Flowgraph.Proofs.Value.Misfit
import Flowgraph.Proofs.Value.Writable

/-!
# What the JSON reader gives

Whatever the text, a reader either stops at a problem of the text or at values
that are nested too deep, or it gives a value whose keys are texts and whose integers can be written again.
-/

namespace Flowgraph

namespace Json

/-- A reader stops for what the text says, or because values are nested too deep. -/
def Stop.Foreseen : Stop → Prop
  | .fault cause => cause.isRefusal = true ∨ cause = .nestedTooDeep
  | _ => True

/-- A reader gives something with a property, or stops for a foreseen reason. -/
structure Yields {α : Type} (x : Except Stop α) (P : α → Prop) : Prop where
  of_ok : ∀ a, x = .ok a → P a
  of_error : ∀ s, x = .error s → s.Foreseen

namespace Yields

variable {α β : Type} {x : Except Stop α} {f : α → Except Stop β} {P : α → Prop} {Q : β → Prop}

theorem ok {a : α} (p : P a) : Yields (.ok a) P :=
  ⟨fun _ same => Except.ok.inj same ▸ p, nofun⟩

theorem error {s : Stop} (foreseen : s.Foreseen) : Yields (.error s) P :=
  ⟨nofun, fun _ same => Except.error.inj same ▸ foreseen⟩

theorem bind (h : Yields x P) (next : ∀ a, P a → Yields (f a) Q) : Yields (x >>= f) Q := by
  cases x with
  | ok a => exact next a (h.of_ok a rfl)
  | error s => exact .error (h.of_error s rfl)

theorem map {g : α → β} (h : Yields x P) (each : ∀ a, P a → Q (g a)) : Yields (x.map g) Q := by
  cases x with
  | ok a => exact .ok (each a (h.of_ok a rfl))
  | error s => exact .error (h.of_error s rfl)

end Yields

theorem yields_stop {α : Type} {P : α → Prop} (text : String) (rest : List Char) :
    Yields (stop text rest) P :=
  .error trivial

theorem yields_stringBody (cs : List Char) : Yields (stringBody cs) fun _ => True := by
  fun_induction stringBody cs with
  | case1 => exact .error trivial
  | case2 => exact .ok trivial
  | case3 => exact .error trivial
  | _ => first | exact yields_stop _ _ | exact Yields.map ‹_› fun _ _ => trivial

theorem yields_string (cs : List Char) : Yields (string cs) fun _ => True := by
  unfold string
  cases body : stringBody cs with
  | ok read => exact .ok trivial
  | error s =>
      cases s with
      | unterminated => exact .error trivial
      | problem text remaining => exact .error trivial
      | fault cause => exact .error ((yields_stringBody cs).of_error _ body)

/-- What a document can say: keys are texts, and no integer is too long to be written. -/
structure Stated (v : Value) : Prop where
  keyed : v.TextKeyed
  written : v.isWritable = true

def StatedEntry (entry : Key × Value) : Prop :=
  (∃ name, entry.1 = .text name) ∧ Stated entry.2

theorem Stated.list {items : List Value} (each : ∀ v ∈ items, Stated v) : Stated (.list items) where
  keyed := .list fun v mem => (each v mem).keyed
  written := Value.areWritable_of_forall fun v mem => (each v mem).written

theorem Stated.object {entries : Params} (each : ∀ entry ∈ entries, StatedEntry entry) :
    Stated (.object entries) where
  keyed := .object (fun entry mem => (each entry mem).1) fun entry mem => (each entry mem).2.keyed
  written := Value.entriesWritable_of_forall fun entry mem =>
    ⟨(each entry mem).1, (each entry mem).2.written⟩

theorem lt_ten_of_mem_wholePart (cs : List Char) : ∀ d ∈ (wholePart cs).1, d < 10 := by
  unfold wholePart
  split
  · simp
  · exact Number.lt_ten_of_mem_spanDigits _

theorem stated_int {cs : List Char} (few : (wholePart cs).1.length ≤ Number.maxDigits)
    (negative : Bool) :
    let n : Int := Number.ofDigits (wholePart cs).1
    Stated (.int (if negative then -n else n)) := by
  refine ⟨.int _, ?_⟩
  have short := Number.isWritable_ofDigits (lt_ten_of_mem_wholePart cs) few
  cases negative with
  | false => exact short
  | true => exact (Number.isWritable_neg _).trans short

theorem yields_number (cs : List Char) : Yields (number cs) fun read => Stated read.1 := by
  unfold number
  dsimp only
  -- Behind the sign both cases are alike.
  split
  all_goals
    split
    · exact yields_stop _ _
    · split
      · split
        · exact .error (.inl rfl)
        · exact .ok (stated_int (Nat.le_of_not_lt ‹_›) _)
      · exact .ok ⟨.float _, rfl⟩

theorem stated_of_constant {cs : List Char} {read : Value × List Char}
    (found : constant? cs = some read) : Stated read.1 := by
  unfold constant? at found
  split at found <;> cases found
  all_goals first | exact ⟨.null, rfl⟩ | exact ⟨.bool _, rfl⟩ | exact ⟨.float _, rfl⟩

/-! ## Values -/

structure Reads (fuel : Nat) : Prop where
  value : ∀ depth cs, Yields (value fuel depth cs) fun read => Stated read.1
  items : ∀ depth cs, Yields (items fuel depth cs) fun read => ∀ v ∈ read.1, Stated v
  entries : ∀ depth cs, Yields (entries fuel depth cs) fun read =>
    ∀ entry ∈ read.1, StatedEntry entry

variable {fuel : Nat}

theorem Reads.value_succ (h : Reads fuel) (depth : Nat) (cs : List Char) :
    Yields (Json.value (fuel + 1) depth cs) fun read => Stated read.1 := by
  unfold Json.value
  split
  · exact (yields_string _).bind fun read _ => .ok ⟨.text _, rfl⟩
  · split
    · exact .error (.inr rfl)
    · split
      · exact .ok (.list (by simp))
      · exact (h.items _ _).bind fun read stated => .ok (.list stated)
  · split
    · exact .error (.inr rfl)
    · split
      · exact .ok (.object (by simp))
      · exact (h.entries _ _).bind fun read stated =>
          .ok (.object (Params.forall_update (K := fun key => ∃ name, key = .text name)
            (V := Stated) nofun stated))
  · split
    · exact .ok (stated_of_constant ‹_›)
    · exact yields_number _

theorem Reads.items_succ (h : Reads fuel) (depth : Nat) (cs : List Char) :
    Yields (Json.items (fuel + 1) depth cs) fun read => ∀ v ∈ read.1, Stated v := by
  unfold Json.items
  refine (h.value depth cs).bind fun ⟨v, rest⟩ first => ?_
  dsimp only
  split
  · exact .ok (by simpa using first)
  · exact (h.items _ _).bind fun read later => .ok (List.forall_mem_cons.mpr ⟨first, later⟩)
  · exact yields_stop _ _

theorem Reads.entries_succ (h : Reads fuel) (depth : Nat) (cs : List Char) :
    Yields (Json.entries (fuel + 1) depth cs) fun read =>
      ∀ entry ∈ read.1, StatedEntry entry := by
  unfold Json.entries
  split
  · refine (yields_string _).bind fun ⟨name, rest⟩ _ => ?_
    dsimp only
    split
    · refine (h.value _ _).bind fun ⟨v, rest⟩ stated => ?_
      have named : StatedEntry (.text name, v) := ⟨⟨name, rfl⟩, stated⟩
      dsimp only
      split
      · exact .ok (by simpa using named)
      · exact (h.entries _ _).bind fun read later => .ok (List.forall_mem_cons.mpr ⟨named, later⟩)
      · exact yields_stop _ _
    · exact yields_stop _ _
  · exact yields_stop _ _

theorem reads (fuel : Nat) : Reads fuel := by
  induction fuel with
  | zero => exact ⟨fun _ _ => yields_stop _ _, fun _ _ => yields_stop _ _, fun _ _ => yields_stop _ _⟩
  | succ fuel ih => exact ⟨ih.value_succ, ih.items_succ, ih.entries_succ⟩

def unmarked (cs : List Char) : Except Stop Unit :=
  match cs with
  | c :: _ =>
      if c.toNat = 0xfeff then stop "Unexpected UTF-8 BOM (decode using utf-8-sig)" cs else .ok ()
  | [] => .ok ()

theorem yields_unmarked (cs : List Char) : Yields (unmarked cs) fun _ => True := by
  unfold unmarked
  split
  · split
    · exact yields_stop _ _
    · exact .ok trivial
  · exact .ok trivial

theorem document_eq (cs : List Char) :
    document cs = unmarked cs >>= fun _ =>
      value (2 * cs.length + 2) 0 (skip cs) >>= fun read =>
      match skip read.2 with
      | [] => .ok read.1
      | rest => stop "Extra data" rest := by
  unfold document unmarked
  cases cs with
  | nil => rfl
  | cons c rest =>
      dsimp only
      split <;> rfl

theorem yields_document (cs : List Char) : Yields (document cs) Stated := by
  rw [document_eq]
  refine (yields_unmarked cs).bind fun _ _ => ((reads _).value 0 (skip cs)).bind fun read stated => ?_
  split
  · exact .ok stated
  · exact yields_stop _ _

theorem stated_of_parse {text : String} {v : Value} (parsed : parse text = .ok v) : Stated v := by
  unfold parse at parsed
  dsimp only at parsed
  cases read : document text.toList with
  | ok found =>
      rw [read] at parsed
      cases parsed
      exact (yields_document _).of_ok _ read
  | error s =>
      rw [read] at parsed
      cases s <;> cases parsed

/-- A text that is nested too deep is no document, and nothing else is amiss with its form. -/
theorem misfitIff_parse (text : String) :
    MisfitIff (parse text) (parse text = .error .nestedTooDeep) := by
  refine ⟨fun fault failed => ?_, fun deep => ⟨_, deep, rfl⟩⟩
  have foreseen := (yields_document text.toList).of_error
  have reading := failed
  unfold parse at reading
  dsimp only at reading
  cases read : document text.toList with
  | ok found =>
      rw [read] at reading
      cases reading
  | error s =>
      rw [read] at reading
      cases s with
      | problem problem remaining =>
          cases reading
          exact .inl rfl
      | unterminated =>
          cases reading
          exact .inl rfl
      | fault cause =>
          cases reading
          rcases foreseen _ read with refusal | rfl
          · exact .inl refusal
          · exact .inr ⟨failed, rfl⟩

end Json

end Flowgraph
