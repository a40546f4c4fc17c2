import Flowgraph.Json.Writer
import Flowgraph.Proofs.Text.Encoding

/-!
# What the JSON writer gives

Control characters inside strings are escaped, and line breaks between entries
are line feeds.  So a written document has no carriage return anywhere.
-/

namespace Flowgraph

namespace Text

/-! ## Pieces of texts -/

theorem Unix.append {cs ds : List Char} (front : Unix cs) (back : Unix ds) : Unix (cs ++ ds) :=
  fun mem => (List.mem_append.mp mem).elim front back

theorem Unix.subset {cs ds : List Char} (unix : Unix cs) (sub : ∀ c ∈ ds, c ∈ cs) : Unix ds :=
  fun mem => unix (sub _ mem)

theorem Unix.intercalate {separator : String} {parts : List String}
    (between : Unix separator.toList) (each : ∀ part ∈ parts, Unix part.toList) :
    Unix (separator.intercalate parts).toList := by
  induction parts with
  | nil => exact nofun
  | cons first rest ih =>
      obtain ⟨now, later⟩ := List.forall_mem_cons.mp each
      cases rest with
      | nil => rwa [String.intercalate_singleton]
      | cons second rest =>
          rw [String.intercalate_cons_cons, String.toList_append, String.toList_append]
          exact (now.append between).append (ih later)

theorem unix_digitChar {n : Nat} (small : n < 16) : Unix [n.digitChar] := by
  have all : ∀ m < 16, Unix [Nat.digitChar m] := by decide
  exact all n small

theorem unix_toDigits {base : Nat} (some : 1 < base) (few : base ≤ 16) (n : Nat) :
    Unix (Nat.toDigits base n) := by
  induction n using Nat.strongRecOn with
  | _ n ih =>
      rw [Nat.toDigits_eq_if some]
      split
      · exact unix_digitChar (by omega)
      · have smaller : n / base < n := Nat.div_lt_self (by omega) some
        have digit : n % base < base := Nat.mod_lt _ (by omega)
        exact (ih _ smaller).append (unix_digitChar (by omega))

theorem unix_replicate {c : Char} (other : c ≠ '\r') (n : Nat) : Unix (List.replicate n c) :=
  fun mem => other (List.eq_of_mem_replicate mem).symm

theorem unix_hex (width n : Nat) : Unix (hex width n) :=
  (unix_replicate (by decide) _).append (unix_toDigits (by decide) (by decide) n)

end Text

namespace Number

open Text

theorem unix_toString_nat (n : Nat) : Unix (toString n).toList := by
  show Unix (String.ofList (Nat.toDigits 10 n)).toList
  rw [String.toList_ofList]
  exact unix_toDigits (by decide) (by decide) n

theorem unix_toString_int (n : Int) : Unix (toString n).toList := by
  cases n with
  | ofNat n => exact unix_toString_nat n
  | negSucc n =>
      show Unix ("-" ++ toString (n + 1)).toList
      rw [String.toList_append]
      exact Unix.append (by decide) (unix_toString_nat _)

theorem unix_dropZeros {digits : List Char} (unix : Unix digits) : Unix (dropZeros digits) :=
  unix.subset fun _ mem =>
    List.mem_reverse.mp (List.dropWhile_subset _ (List.mem_reverse.mp mem))

theorem unix_text (x : Float) : Unix (text x).toList := by
  unfold text
  split
  · split_ifs <;> decide
  · rename_i e _
    have sign : Unix (if e.negative then "-" else "").toList := by split <;> decide
    have digits : Unix (dropZeros (Nat.toDigits 10 e.shortest.digits)) :=
      unix_dropZeros (unix_toDigits (by decide) (by decide) _)
    have zeros (n : Nat) : Unix (List.replicate n '0') := unix_replicate (by decide) n
    dsimp only
    split
    · rw [String.toList_append]
      exact sign.append (by decide)
    · rw [String.toList_append]
      refine sign.append ?_
      split
      -- One digit before the point, and an exponent.
      · simp only [String.toList_append]
        refine ((Unix.append ?_ (by decide)).append ?_).append ?_
        · split
          · rename_i same
            rw [String.toList_ofList]
            rw [same] at digits
            simpa [Unix] using digits
          · rw [String.toList_ofList]
            exact digits
        · split <;> decide
        · split
          · rw [String.toList_append]
            exact Unix.append (by decide) (unix_toString_nat _)
          · exact unix_toString_nat _
      · split
        · simp only [String.toList_append, String.toList_ofList]
          exact Unix.append (by decide) ((zeros _).append digits)
        · simp only [String.toList_append, String.toList_ofList]
          have filled (n : Nat) := digits.append (zeros n)
          refine (((filled _).subset fun _ mem => List.mem_of_mem_take mem).append (by decide)).append ?_
          split
          · decide
          · rw [String.toList_ofList]
            exact (filled _).subset fun _ mem => List.mem_of_mem_drop mem

end Number

namespace Json

open Text

/-! ## Documents -/

theorem unix_unitEscape (n : Nat) : Unix (unitEscape n) := by
  have opening : Unix ['\\', 'u'] := by decide
  exact opening.append (unix_hex 4 n)

theorem unix_escapeChar (c : Char) : Unix (escapeChar c) := by
  unfold escapeChar
  split
  · rename_i quoted
    rcases quoted with rfl | rfl <;> decide
  · split_ifs with _ _ _ _ _ control visible
    · decide
    · decide
    · decide
    · decide
    · decide
    · exact unix_unitEscape _
    · refine fun mem => control ?_
      rw [← List.mem_singleton.mp mem]
      decide
    · exact unix_unitEscape _
    · exact (unix_unitEscape _).append (unix_unitEscape _)

theorem unix_escape (p : CodePoint) : Unix (escape p) := by
  cases p with
  | char c => exact unix_escapeChar c
  | half n => exact unix_unitEscape n

theorem unix_quote (s : String) : Unix (quote s).toList := by
  rw [quote, String.toList_ofList]
  refine Unix.append ?_ (by decide)
  rintro (_ | ⟨_, mem⟩)
  obtain ⟨p, -, mem⟩ := List.mem_flatMap.mp mem
  exact unix_escape p mem

theorem unix_float (x : Float) : Unix (float x).toList := by
  unfold float
  split
  · decide
  · split
    · split <;> decide
    · exact Number.unix_text x

theorem unix_newline (level : Nat) : Unix (newline level).toList := by
  have break' : Unix ['\n'] := by decide
  rw [newline, String.toList_ofList]
  exact break'.append (unix_replicate (by decide) _)

theorem unix_bracketed {level : Nat} {opening closing : String} {parts : List String}
    (first : Unix opening.toList) (last : Unix closing.toList)
    (each : ∀ part ∈ parts, Unix part.toList) :
    Unix (opening ++ ",".intercalate parts ++ newline level ++ closing).toList := by
  simp only [String.toList_append]
  exact ((first.append (.intercalate (by decide) each)).append (unix_newline level)).append last

mutual

theorem unix_pretty (level : Nat) : ∀ v : Value, Unix (pretty level v).toList
  | .null => by rw [pretty]; decide
  | .bool b => by rw [pretty]; split <;> decide
  | .int n => by rw [pretty]; exact Number.unix_toString_int n
  | .float x => by rw [pretty]; exact unix_float x
  | .text s => by rw [pretty]; exact unix_quote s
  | .list [] => by rw [pretty]; decide
  | .list (v :: rest) => by
      show Unix ("[" ++ ",".intercalate (prettyItems (level + 1) (v :: rest)) ++ newline level ++
        "]").toList
      exact unix_bracketed (by decide) (by decide) (unix_prettyItems (level + 1) (v :: rest))
  | .object [] => by rw [pretty]; decide
  | .object (entry :: rest) => by
      show Unix ("\x7b" ++ ",".intercalate (prettyEntries (level + 1) (entry :: rest)) ++
        newline level ++ "\x7d").toList
      exact unix_bracketed (by decide) (by decide) (unix_prettyEntries (level + 1) (entry :: rest))

theorem unix_prettyItems (level : Nat) : ∀ items : List Value,
    ∀ part ∈ prettyItems level items, Unix part.toList
  | [] => nofun
  | v :: rest => by
      rw [prettyItems]
      refine List.forall_mem_cons.mpr ⟨?_, unix_prettyItems level rest⟩
      rw [String.toList_append]
      exact (unix_newline level).append (unix_pretty level v)

theorem unix_prettyEntries (level : Nat) : ∀ entries : List (Key × Value),
    ∀ part ∈ prettyEntries level entries, Unix part.toList
  | [] => nofun
  | (key, v) :: rest => by
      rw [prettyEntries]
      refine List.forall_mem_cons.mpr ⟨?_, unix_prettyEntries level rest⟩
      simp only [String.toList_append]
      exact (((unix_newline level).append (unix_quote _)).append (by decide)).append
        (unix_pretty level v)

end

end Json

end Flowgraph
