import Flowgraph.Fault.Kind
import Flowgraph.Proofs.Number.Infinite
import Flowgraph.Value.Conversion

/-!
# Values of the wrong form

A conversion fails on a value either because of what the value says, which is a
refusal, or because the value is not of a form that can say such a thing at all.
Programs that recover from refusals do not recover from the latter, so for each
conversion the values that it fails on in this way are singled out.
-/

namespace Flowgraph

namespace Fault

/-- Whether a fault is about the form of a value: its type, its reach or its depth. -/
def isMisfit (fault : Fault) : Bool :=
  match fault.kind with
  | .type | .attribute | .overflow | .nesting => true
  | _ => false

theorem isRefusal_of_isMisfit {fault : Fault} (misfit : fault.isMisfit = true) :
    fault.isRefusal = false := by
  unfold isMisfit at misfit
  unfold isRefusal
  cases kind : fault.kind <;> rw [kind] at misfit <;> first | rfl | cases misfit

end Fault

/--
Exactly under a condition a computation fails on the form of a value.  Whatever
else it fails on is one of the `others`.
-/
structure FailsIff {α : Type} (others : Fault → Prop) (x : Except Fault α) (P : Prop) : Prop where
  of_error : ∀ fault, x = .error fault → others fault ∨ (P ∧ fault.isMisfit = true)
  exists_error : P → ∃ fault, x = .error fault ∧ fault.isMisfit = true

/-- Exactly under a condition a computation fails on the form of a value, else it may refuse. -/
abbrev MisfitIff {α : Type} (x : Except Fault α) (P : Prop) : Prop :=
  FailsIff (·.isRefusal = true) x P

namespace FailsIff

variable {α β : Type} {others : Fault → Prop} {x : Except Fault α} {f : α → Except Fault β}
  {P Q : Prop} {R : α → Prop} {fault : Fault}

theorem ok (a : α) : FailsIff others (.ok a : Except Fault α) False :=
  ⟨nofun, False.elim⟩

theorem refused (refusal : fault.isRefusal = true) :
    MisfitIff (.error fault : Except Fault α) False :=
  ⟨fun _ same => .inl (by cases same; exact refusal), False.elim⟩

theorem misfit (misfit : fault.isMisfit = true) :
    FailsIff others (.error fault : Except Fault α) True :=
  ⟨fun _ same => .inr ⟨trivial, by cases same; exact misfit⟩, fun _ => ⟨fault, rfl, misfit⟩⟩

theorem congr (h : FailsIff others x P) (same : P ↔ Q) : FailsIff others x Q :=
  ⟨fun fault failed => (h.of_error fault failed).imp_right (.imp_left same.mp),
    fun q => h.exists_error (same.mpr q)⟩

theorem not_of_eq_ok (h : FailsIff others x P) {a : α} (done : x = .ok a) : ¬ P := by
  intro p
  obtain ⟨fault, failed, -⟩ := h.exists_error p
  rw [done] at failed
  cases failed

/-- The first part that fails decides. -/
theorem bind (h : FailsIff others x P) (next : ∀ a, x = .ok a → FailsIff others (f a) (R a)) :
    FailsIff others (x >>= f) (P ∨ ∃ a, x = .ok a ∧ R a) := by
  cases x with
  | error fault =>
      refine ⟨fun found failed => ?_, ?_⟩
      · cases failed
        exact (h.of_error fault rfl).imp_right (.imp_left .inl)
      · rintro (p | ⟨a, done, -⟩)
        · obtain ⟨found, same, misfit⟩ := h.exists_error p
          cases same
          exact ⟨fault, rfl, misfit⟩
        · cases done
  | ok a =>
      refine ⟨fun found failed => ?_, ?_⟩
      · exact ((next a rfl).of_error found failed).imp_right (.imp_left fun r => .inr ⟨a, rfl, r⟩)
      · rintro (p | ⟨b, done, r⟩)
        · exact absurd p (h.not_of_eq_ok rfl)
        · cases done
          exact (next a rfl).exists_error r

theorem map (h : FailsIff others x P) (g : α → β) : FailsIff others (x.map g) P := by
  cases x with
  | error fault =>
      refine ⟨fun found failed => ?_, fun p => ?_⟩
      · cases failed
        exact h.of_error fault rfl
      · obtain ⟨fault, failed, misfit⟩ := h.exists_error p
        cases failed
        exact ⟨fault, rfl, misfit⟩
  | ok a => exact ⟨nofun, fun p => absurd p (h.not_of_eq_ok rfl)⟩

end FailsIff

namespace Value

variable {v : Value}

/-! ## Numbers -/

def Oversized (v : Value) : Prop :=
  ∃ n, v = .int n ∧ (Float.ofInt n).isInf = true

def Infinite (v : Value) : Prop :=
  ∃ x, v = .float x ∧ x.isInf = true

inductive Uncountable : Value → Prop where
  | null : Uncountable .null
  | list (items : List Value) : Uncountable (.list items)
  | object (entries : Params) : Uncountable (.object entries)
  | infinite {x : Float} : x.isInf = true → Uncountable (.float x)

theorem misfitIff_toInt (v : Value) : MisfitIff v.toInt v.Uncountable := by
  cases v with
  | null => exact (FailsIff.misfit rfl).congr (iff_of_true trivial .null)
  | bool b => exact (FailsIff.ok _).congr (iff_of_false id nofun)
  | int n => exact (FailsIff.ok _).congr (iff_of_false id nofun)
  | list items => exact (FailsIff.misfit rfl).congr (iff_of_true trivial (.list items))
  | object entries => exact (FailsIff.misfit rfl).congr (iff_of_true trivial (.object entries))
  | text s =>
      refine ⟨fun fault failed => .inl ?_, nofun⟩
      rcases Number.of_readInt_eq_error failed with rfl | ⟨count, rfl⟩ <;> rfl
  | float x =>
      refine ⟨fun fault failed => ?_, ?_⟩
      · rcases Number.of_intOfFloat_eq_error failed with ⟨rfl, infinite⟩ | rfl
        · exact .inr ⟨.infinite infinite, rfl⟩
        · exact .inl rfl
      · rintro (_ | _ | _ | infinite)
        exact ⟨_, Number.intOfFloat_of_isInf infinite, rfl⟩

theorem toInt_eq_infinite_iff : v.toInt = .error .infiniteInteger ↔ v.Infinite := by
  constructor
  · intro failed
    cases v with
    | float x =>
        rcases Number.of_intOfFloat_eq_error failed with ⟨-, infinite⟩ | same
        · exact ⟨x, rfl, infinite⟩
        · cases same
    | text s => rcases Number.of_readInt_eq_error failed with same | ⟨count, same⟩ <;> cases same
    | _ => cases failed
  · rintro ⟨x, rfl, infinite⟩
    exact Number.intOfFloat_of_isInf infinite

theorem toFloat_eq_tooLarge_iff : v.toFloat = .error .integerTooLarge ↔ v.Oversized := by
  constructor
  · intro failed
    cases v with
    | int n => exact ⟨n, rfl, (Number.floatOfInt_eq_error_iff.mp failed).1⟩
    | bool b =>
        have large := (Number.floatOfInt_eq_error_iff.mp failed).1
        cases b <;> cases large
    | text s => cases Number.of_readFloat_eq_error failed
    | _ => cases failed
  · rintro ⟨n, rfl, large⟩
    exact Number.floatOfInt_eq_error_iff.mpr ⟨large, rfl⟩

/-! ## Mappings and sequences -/

inductive Single : Value → Prop where
  | null : Single .null
  | bool (b : Bool) : Single (.bool b)
  | int (n : Int) : Single (.int n)
  | float (x : Float) : Single (.float x)

theorem misfitIff_asObject (v : Value) : MisfitIff v.asObject (v.entries? = none) := by
  cases v with
  | object entries => exact (FailsIff.ok _).congr (iff_of_false id nofun)
  | _ => exact (FailsIff.misfit rfl).congr (iff_of_true trivial rfl)

theorem misfitIff_elements (v : Value) : MisfitIff v.elements v.Single := by
  cases v with
  | null => exact (FailsIff.misfit rfl).congr (iff_of_true trivial .null)
  | bool b => exact (FailsIff.misfit rfl).congr (iff_of_true trivial (.bool b))
  | int n => exact (FailsIff.misfit rfl).congr (iff_of_true trivial (.int n))
  | float x => exact (FailsIff.misfit rfl).congr (iff_of_true trivial (.float x))
  | _ => exact (FailsIff.ok _).congr (iff_of_false id nofun)

inductive Composite : Value → Prop where
  | list (items : List Value) : Composite (.list items)
  | object (entries : Params) : Composite (.object entries)

theorem misfitIff_toKey (v : Value) : MisfitIff v.toKey v.Composite := by
  cases v with
  | list items => exact (FailsIff.misfit rfl).congr (iff_of_true trivial (.list items))
  | object entries => exact (FailsIff.misfit rfl).congr (iff_of_true trivial (.object entries))
  | _ => exact (FailsIff.ok _).congr (iff_of_false id nofun)

/-- An element that is no entry, whatever it says: it has no parts, or no key in front. -/
inductive NoEntry : Value → Prop where
  | single {v : Value} : v.Single → NoEntry v
  | key {k v : Value} : k.Composite → NoEntry (.list [k, v])

theorem misfitIff_pair? (index : Nat) (v : Value) : MisfitIff (pair? index v) v.NoEntry := by
  cases v with
  | list items =>
      match items with
      | [k, v] =>
          refine ((misfitIff_toKey k).bind fun key _ => FailsIff.ok (key, v)).congr ⟨?_, ?_⟩
          · rintro (composite | ⟨-, -, impossible⟩)
            · exact .key composite
            · exact impossible.elim
          · rintro (⟨⟨⟩⟩ | composite)
            exact .inl composite
      | [] | [_] | _ :: _ :: _ :: _ =>
          refine ⟨fun fault failed => .inl ?_, by rintro ⟨⟨⟩⟩⟩
          cases failed
          rfl
  | text s =>
      refine ⟨fun fault failed => .inl ?_, by rintro ⟨⟨⟩⟩⟩
      simp only [pair?] at failed
      split at failed <;> cases failed
      rfl
  | object entries =>
      refine ⟨fun fault failed => .inl ?_, by rintro ⟨⟨⟩⟩⟩
      simp only [pair?] at failed
      split at failed <;> cases failed
      rfl
  | null => exact (FailsIff.misfit rfl).congr (iff_of_true trivial (.single .null))
  | bool b => exact (FailsIff.misfit rfl).congr (iff_of_true trivial (.single (.bool b)))
  | int n => exact (FailsIff.misfit rfl).congr (iff_of_true trivial (.single (.int n)))
  | float x => exact (FailsIff.misfit rfl).congr (iff_of_true trivial (.single (.float x)))

/-! ## Texts -/

theorem misfitIff_toText (v : Value) : MisfitIff v.toText False := by
  unfold toText
  split
  · exact FailsIff.ok _
  · exact FailsIff.refused rfl

theorem isRefusal_named {v : Value} {cause : String → Fault}
    (refusal : ∀ s, (cause s).isRefusal = true) : (v.named cause).isRefusal = true := by
  unfold named toText
  split_ifs
  · exact refusal _
  · rfl

end Value

end Flowgraph
