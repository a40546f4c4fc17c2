import Flowgraph.Proofs.Configuration.Misfit
import Flowgraph.Proofs.Json.Reader

/-!
# Loading documents

Files that are missing or malformed are refused.  So what is amiss with a file
beyond refusal is amiss with the document that its text is read as.
-/

namespace Flowgraph

namespace Text

theorem isRefusal_malformed (first position count : Nat) (reason : String) :
    (malformed first position count reason).isRefusal = true := by
  unfold malformed
  split <;> rfl

theorem misfitIff_continueChar (first position missing seen payload : Nat) (bytes : List UInt8) :
    MisfitIff (continueChar first position missing seen payload bytes) False := by
  fun_induction continueChar first position missing seen payload bytes with
  | case1 => exact FailsIff.ok _
  | case2 => exact FailsIff.refused (isRefusal_malformed _ _ _ _)
  | case3 _ _ _ _ _ _ _ _ _ ih => exact ih
  | case4 => exact FailsIff.refused (isRefusal_malformed _ _ _ _)

theorem misfitIff_decodeFrom (position : Nat) (bytes : List UInt8) :
    MisfitIff (decodeFrom position bytes) False := by
  fun_induction decodeFrom position bytes with
  | case1 => exact FailsIff.ok _
  | case2 => exact FailsIff.refused rfl
  | case3 position b rest missing payload _ fault failed =>
      refine FailsIff.refused ?_
      exact ((misfitIff_continueChar _ _ _ _ _ _).of_error fault failed).resolve_right (·.1)
  | case4 position b rest missing payload _ code rest' _ ih =>
      exact (ih.bind fun more _ => FailsIff.ok (Char.ofNat code :: more)).congr (by simp)

end Text

namespace Files

theorem misfitIff_read (files : Files) (path : String) : MisfitIff (files.read path) False := by
  unfold read
  split
  · exact FailsIff.refused rfl
  · split
    · exact FailsIff.ok _
    all_goals exact FailsIff.refused rfl

theorem misfitIff_readText (files : Files) (path : String) :
    MisfitIff (files.readText path) False :=
  ((misfitIff_read files path).bind fun content _ =>
    ((Text.misfitIff_decodeFrom 0 content).map String.ofList).bind fun _ _ =>
      FailsIff.ok _).congr (by simp)

end Files

namespace Configuration

/-- A text that is nested too deep, or that is read as a document of the wrong form. -/
inductive MisfitText : String → Prop where
  | nested {text : String} : Json.parse text = .error .nestedTooDeep → MisfitText text
  | document {text : String} {raw : Value} :
      Json.parse text = .ok raw → Misfit raw → MisfitText text

theorem misfitIff_ofText (text : String) : MisfitIff (ofText text) (MisfitText text) := by
  refine ((Json.misfitIff_parse text).bind fun raw _ => misfitIff_ofValue raw).congr ⟨?_, ?_⟩
  · rintro (deep | ⟨raw, parsed, misfit⟩)
    · exact .nested deep
    · exact .document parsed misfit
  · rintro (deep | ⟨parsed, misfit⟩)
    · exact .inl deep
    · exact .inr ⟨_, parsed, misfit⟩

theorem misfitIff_load (files : Files) (path : String) :
    MisfitIff (load files path) (∃ text, files.readText path = .ok text ∧ MisfitText text) :=
  ((files.misfitIff_readText path).bind fun text _ => misfitIff_ofText text).congr (by simp)

end Configuration

end Flowgraph
