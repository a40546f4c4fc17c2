import Flowgraph.Catalog.Builtin
import Mathlib.Data.List.Basic

/-!
# The built-in block types

What holds of a block type that the built-in catalog resolves holds of one of
the blocks that it is made of.
-/

namespace Flowgraph

open Block

namespace Catalog

theorem mem_blocks_of_resolve {blockType : String} {d : Descriptor}
    (h : Catalog.builtin.resolve blockType = some d) : d ∈ Builtin.blocks := by
  have entered : ∀ (key : Descriptor → String) (k : String),
      (Builtin.blocks.map fun d => (key d, d)).lookup k = some d → d ∈ Builtin.blocks := by
    intro key k found
    obtain ⟨before, after, split, -⟩ := List.lookup_eq_some_iff.mp found
    have mem : (k, d) ∈ Builtin.blocks.map fun d => (key d, d) := by
      rw [split]
      exact List.mem_append_right _ List.mem_cons_self
    obtain ⟨d', mem', same⟩ := List.mem_map.mp mem
    cases same
    exact mem'
  rcases Option.or_eq_some_iff.mp h with found | ⟨-, found⟩
  · exact entered (·.id) blockType found
  · exact entered (·.name) blockType found

theorem exists_initialRecord_of_mem {d : Descriptor} (mem : d ∈ Builtin.blocks) :
    ∃ initial, d.initialRecord = .ok initial := by
  have all : Builtin.blocks.all (·.initialRecord.toOption.isSome) := by rfl
  have readable := List.all_eq_true.mp all d mem
  cases fresh : d.initialRecord with
  | ok initial => exact ⟨initial, rfl⟩
  | error fault =>
      rw [fresh] at readable
      cases readable

theorem exists_declared_of_mem {d : Descriptor} (mem : d ∈ Builtin.blocks) :
    ∃ s, d.signals = .declared s := by
  have all : Builtin.blocks.all (·.signals.input.toOption.isSome) := by rfl
  have readable := List.all_eq_true.mp all d mem
  cases signals : d.signals with
  | declared s => exact ⟨s, rfl⟩
  | other v =>
      rw [signals] at readable
      cases readable

/-- Every block type declares its signals, as far as the built-in catalog is asked. -/
theorem exists_signalsFor_builtin (blockType : String) :
    ∃ s, Catalog.builtin.signalsFor blockType = .declared s := by
  unfold signalsFor
  cases resolved : Catalog.builtin.resolve blockType with
  | none => exact ⟨_, rfl⟩
  | some d => exact exists_declared_of_mem (mem_blocks_of_resolve resolved)

end Catalog

end Flowgraph
