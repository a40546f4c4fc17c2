import Flowgraph.Files
import Mathlib.Tactic.SplitIfs

/-!
# Texts as bytes

A text that is written as UTF-8 is decoded to itself.  A character is led by a
byte that says how many follow, and each of these adds six bits to it.
-/

namespace Flowgraph

namespace Text

variable {first position missing seen payload : Nat} {rest : List UInt8}

/-! ## Single bytes -/

/-- A byte within its bounds adds six bits to the payload of a character. -/
theorem continueChar_cons {byte : Nat} (small : byte < 256)
    (bounded : (if seen = 1 then secondBounds first else (0x80, 0xbf)).1 ≤ byte ∧
      byte ≤ (if seen = 1 then secondBounds first else (0x80, 0xbf)).2) :
    continueChar first position (missing + 1) seen payload (UInt8.ofNat byte :: rest) =
      continueChar first position missing (seen + 1) (payload * 64 + (byte - 0x80)) rest := by
  have value : (UInt8.ofNat byte).toNat = byte := UInt8.toNat_ofNat_of_lt' small
  rw [continueChar, value]
  exact if_pos bounded

theorem continueChar_later {byte : Nat} (low : 0x80 ≤ byte) (high : byte ≤ 0xbf) :
    continueChar first position (missing + 1) (seen + 2) payload (UInt8.ofNat byte :: rest) =
      continueChar first position missing (seen + 3) (payload * 64 + (byte - 0x80)) rest :=
  continueChar_cons (by omega) (by rw [if_neg (by omega)]; exact ⟨low, high⟩)

theorem decodeFrom_cons {byte code : Nat} {behind : List UInt8} (small : byte < 256)
    (lead : lead? byte = some (missing, payload))
    (read : continueChar byte position missing 1 payload rest = .ok (code, behind)) :
    decodeFrom position (UInt8.ofNat byte :: rest) =
      (decodeFrom (position + missing + 1) behind).map (Char.ofNat code :: ·) := by
  have value : (UInt8.ofNat byte).toNat = byte := UInt8.toNat_ofNat_of_lt' small
  rw [decodeFrom]
  split
  · rename_i none
    rw [value, lead] at none
    cases none
  · rename_i missing' payload' some
    rw [value, lead] at some
    cases some
    split
    · rename_i failed
      rw [value, read] at failed
      cases failed
    · rename_i code' rest' read'
      rw [value, read] at read'
      cases read'
      cases decodeFrom (position + missing + 1) behind <;> rfl

/-! ## Characters -/

theorem lead?_single {byte : Nat} (high : byte < 0x80) : lead? byte = some (0, byte) :=
  if_pos high

theorem lead?_double {byte : Nat} (low : 0xc2 ≤ byte) (high : byte < 0xe0) :
    lead? byte = some (1, byte - 0xc0) := by
  simp only [lead?, if_neg (show ¬ byte < 0x80 by omega), if_neg (show ¬ byte < 0xc2 by omega),
    if_pos high]

theorem lead?_triple {byte : Nat} (low : 0xe0 ≤ byte) (high : byte < 0xf0) :
    lead? byte = some (2, byte - 0xe0) := by
  simp only [lead?, if_neg (show ¬ byte < 0x80 by omega), if_neg (show ¬ byte < 0xc2 by omega),
    if_neg (show ¬ byte < 0xe0 by omega), if_pos high]

theorem lead?_quadruple {byte : Nat} (low : 0xf0 ≤ byte) (high : byte < 0xf5) :
    lead? byte = some (3, byte - 0xf0) := by
  simp only [lead?, if_neg (show ¬ byte < 0x80 by omega), if_neg (show ¬ byte < 0xc2 by omega),
    if_neg (show ¬ byte < 0xe0 by omega), if_neg (show ¬ byte < 0xf0 by omega), if_pos high]

/-- The bytes of a character are read as that character, whatever follows them. -/
theorem decodeFrom_utf8EncodeChar (position : Nat) (c : Char) (rest : List UInt8) :
    ∃ next, decodeFrom position (String.utf8EncodeChar c ++ rest) =
      (decodeFrom next rest).map (c :: ·) := by
  obtain ⟨v, same⟩ : ∃ v, v = c.val.toNat := ⟨_, rfl⟩
  have code : Char.ofNat v = c := by rw [same]; exact Char.ofNat_toNat c
  have valid : v < 0xd800 ∨ (0xdfff < v ∧ v < 0x110000) := same ▸ c.valid
  unfold String.utf8EncodeChar
  rw [← same]
  dsimp only
  -- One case for each number of bytes; surrogates and what lies beyond the last plane are ruled out.
  split
  · exact ⟨_, code ▸ decodeFrom_cons (by omega) (lead?_single (by omega)) rfl⟩
  · split
    · simp only [List.cons_append, List.nil_append]
      refine ⟨_, code ▸ decodeFrom_cons (by omega) (lead?_double (by omega) (by omega)) ?_⟩
      rw [continueChar_cons (by omega) (by simp only [secondBounds]; split_ifs <;> omega),
        continueChar]
      simp only [Except.ok.injEq, Prod.mk.injEq, and_true]
      omega
    · split
      · simp only [List.cons_append, List.nil_append]
        refine ⟨_, code ▸ decodeFrom_cons (by omega) (lead?_triple (by omega) (by omega)) ?_⟩
        rw [continueChar_cons (by omega) (by simp only [secondBounds]; split_ifs <;> omega),
          continueChar_later (by omega) (by omega), continueChar]
        simp only [Except.ok.injEq, Prod.mk.injEq, and_true]
        omega
      · simp only [List.cons_append, List.nil_append]
        refine ⟨_, code ▸ decodeFrom_cons (by omega) (lead?_quadruple (by omega) (by omega)) ?_⟩
        rw [continueChar_cons (by omega) (by simp only [secondBounds]; split_ifs <;> omega),
          continueChar_later (by omega) (by omega), continueChar_later (by omega) (by omega),
          continueChar]
        simp only [Except.ok.injEq, Prod.mk.injEq, and_true]
        omega

theorem decodeFrom_flatMap (position : Nat) (cs : List Char) :
    decodeFrom position (cs.flatMap String.utf8EncodeChar) = .ok cs := by
  induction cs generalizing position with
  | nil => rw [List.flatMap_nil, decodeFrom]
  | cons c rest ih =>
      obtain ⟨next, read⟩ := decodeFrom_utf8EncodeChar position c
        (rest.flatMap String.utf8EncodeChar)
      rw [List.flatMap_cons, read, ih next]
      rfl

theorem decode_toUTF8 (s : String) : decode s.toUTF8.data.toList = .ok s := by
  have bytes : s.toUTF8.data.toList = s.toList.flatMap String.utf8EncodeChar := by
    rw [show s.toUTF8 = (String.ofList s.toList).toUTF8 by rw [String.ofList_toList]]
    exact List.toList_data_toByteArray
  rw [decode, bytes, decodeFrom_flatMap]
  simp [Except.map]

/-! ## Lone surrogates -/

theorem exists_plainFrom_iff {points : List CodePoint} :
    (∃ cs, plainFrom position points = .ok cs) ↔ points.any CodePoint.isHalf = false := by
  induction points generalizing position with
  | nil => simp [plainFrom]
  | cons p rest ih =>
      cases p with
      | half n => simp [plainFrom, CodePoint.isHalf]
      | char c =>
          rw [plainFrom, List.any_cons, CodePoint.isHalf, Bool.false_or, ← @ih (position + 1)]
          cases plainFrom (position + 1) rest <;> simp [Except.map]

/-- A text has bytes exactly if no half of a surrogate pair stands alone in it. -/
theorem printPlain_eq_ok_iff {s : String} :
    printPlain s = .ok () ↔ (codePoints s.toList).any CodePoint.isHalf = false := by
  rw [← @exists_plainFrom_iff 0, printPlain, toPlain]
  cases plainFrom 0 (codePoints s.toList) <;> simp [Except.map]

/-! ## Line ends -/

/-- Characters without a carriage return: all line ends among them are line feeds. -/
def Unix (cs : List Char) : Prop :=
  '\r' ∉ cs

instance (cs : List Char) : Decidable (Unix cs) :=
  inferInstanceAs (Decidable ('\r' ∉ cs))

theorem unifyLines_of_unix {cs : List Char} (unix : Unix cs) : unifyLines cs = cs := by
  fun_induction unifyLines cs with
  | case1 => exact absurd List.mem_cons_self unix
  | case2 => exact absurd List.mem_cons_self unix
  | case3 c rest _ _ ih => rw [ih fun mem => unix (List.mem_cons_of_mem _ mem)]
  | case4 => rfl

end Text

namespace Files

theorem readText_of_file {files : Files} {path text : String}
    (named : path.toList.contains '\x00' = false)
    (holds : files path = .file text.toUTF8.data.toList) (unix : Text.Unix text.toList) :
    files.readText path = .ok text := by
  have read : files.read path = .ok text.toUTF8.data.toList := by
    rw [Files.read, named, holds]
    rfl
  show (files.read path >>= fun content => Text.decode content >>= fun text =>
    .ok (String.ofList (Text.unifyLines text.toList))) = _
  rw [read]
  show (Text.decode text.toUTF8.data.toList >>= fun text =>
    .ok (String.ofList (Text.unifyLines text.toList))) = _
  rw [Text.decode_toUTF8]
  show Except.ok (String.ofList (Text.unifyLines text.toList)) = _
  rw [Text.unifyLines_of_unix unix, String.ofList_toList]

end Files

end Flowgraph
