import Flowgraph.Proofs.Catalog.Registration
import Mathlib.Data.List.Perm.Basic

/-!
# The view by groups

Groups and their block types are shown in an order of their own, and ties are
broken by when a group was first defined and by when a block type was
registered.  A group that is defined anew keeps its place among its ties.
-/

namespace Flowgraph

/-! ## Stable order -/

section

variable {α : Type}

theorem pairwise_mergeSort_key (key : α → Int) (place : α → Nat) {l : List α}
    (placed : l.Pairwise fun a b => place a < place b) :
    (l.mergeSort fun a b => decide (key a ≤ key b)).Pairwise fun a b =>
      key a < key b ∨ key a = key b ∧ place a < place b := by
  have trans (a b c : α) (ab : decide (key a ≤ key b) = true)
      (bc : decide (key b ≤ key c) = true) : decide (key a ≤ key c) = true :=
    decide_eq_true (Int.le_trans (of_decide_eq_true ab) (of_decide_eq_true bc))
  have total (a b : α) : (decide (key a ≤ key b) || decide (key b ≤ key a)) = true := by
    simpa using Int.le_total (key a) (key b)
  -- what has one key is sorted as it stands, and so it stands in the sorted list
  have ties (k : Int) : l.filter (key · = k) =
      (l.mergeSort fun a b => decide (key a ≤ key b)).filter (key · = k) := by
    have equal : (l.filter (key · = k)).Pairwise fun a b => decide (key a ≤ key b) = true := by
      refine List.pairwise_of_forall_mem_list fun a memA b memB => ?_
      simp only [List.mem_filter, decide_eq_true_eq] at memA memB ⊢
      omega
    have kept := (List.sublist_mergeSort trans total equal List.filter_sublist).filter (key · = k)
    simp only [List.filter_filter, Bool.and_self] at kept
    exact kept.eq_of_length ((List.mergeSort_perm l _).filter _).length_eq.symm
  have sorted := List.pairwise_mergeSort trans total l
  rw [List.pairwise_iff_forall_sublist] at sorted placed ⊢
  intro a b shown
  rcases Int.lt_or_eq_of_le (of_decide_eq_true (sorted shown)) with less | same
  · exact .inl less
  · have stood := shown.filter (key · = key b)
    rw [← ties, List.filter_cons_of_pos (by simpa using same), List.filter_cons_of_pos (by simp),
      List.filter_nil] at stood
    exact .inr ⟨same, placed (stood.trans List.filter_sublist)⟩

theorem pairwise_idxOf [DecidableEq α] {l : List α} (distinct : l.Nodup) :
    l.Pairwise fun a b => l.idxOf a < l.idxOf b := by
  rw [List.pairwise_iff_getElem]
  intro i j hi hj less
  rwa [distinct.idxOf_getElem, distinct.idxOf_getElem]

end

namespace Catalog

open Block

/-! ## What calls register and define -/

def episodes (c : Catalog) : List Call → List (Catalog × Call)
  | [] => []
  | call :: rest => (c, call) :: episodes (c.after call) rest

def registers? (c : Catalog) : Call → Option Descriptor
  | .register offer => (c.register offer).toOption.map (·.2)
  | _ => none

def defines? (c : Catalog) : Call → Option Group
  | .defineGroup id name order =>
    match c.defineGroup id name order, order.toInt with
    | .ok _, .ok n => some ⟨id, name, n⟩
    | _, _ => none
  | _ => none

def registered (c : Catalog) (calls : List Call) : List Descriptor :=
  (c.episodes calls).filterMap fun now => now.1.registers? now.2

def defined (c : Catalog) (calls : List Call) : List Group :=
  (c.episodes calls).filterMap fun now => now.1.defines? now.2

variable {c : Catalog} {call : Call} {calls : List Call} {d : Descriptor} {g h : Group}

theorem episodes_concat (c : Catalog) (calls : List Call) (call : Call) :
    c.episodes (calls ++ [call]) = c.episodes calls ++ [(c.afterAll calls, call)] := by
  induction calls generalizing c with
  | nil => rfl
  | cons first rest ih => exact congrArg ((c, first) :: ·) (ih (c.after first))

theorem registered_concat (c : Catalog) (calls : List Call) (call : Call) :
    c.registered (calls ++ [call]) =
      c.registered calls ++ ((c.afterAll calls).registers? call).toList := by
  cases found : (c.afterAll calls).registers? call <;>
    simp [registered, episodes_concat, found]

theorem defined_concat (c : Catalog) (calls : List Call) (call : Call) :
    c.defined (calls ++ [call]) =
      c.defined calls ++ ((c.afterAll calls).defines? call).toList := by
  cases found : (c.afterAll calls).defines? call <;>
    simp [defined, episodes_concat, found]

theorem descriptors_after (c : Catalog) (call : Call) :
    (c.after call).descriptors = c.descriptors ++ (c.registers? call).toList := by
  unfold after registers?
  cases call with
  | register offer =>
      rw [run_register, register]
      cases accepted : c.accept offer <;>
        simp [register, accepted, Except.toOption, descriptors, add]
  | defineGroup id name order =>
      rw [run_defineGroup]
      cases made : c.defineGroup id name order with
      | error fault => simp
      | ok c' =>
          obtain ⟨n, -, -, rfl⟩ := of_defineGroup made
          simp [descriptors]
  | freeze => simp [run_freeze, freeze, descriptors]

theorem groups_after (c : Catalog) (call : Call) :
    (c.after call).groups = (c.defines? call).toList.foldl writeGroup c.groups := by
  unfold after defines?
  cases call with
  | register offer =>
      rw [run_register, register]
      cases c.accept offer <;> simp [add]
  | defineGroup id name order =>
      rw [run_defineGroup]
      cases made : c.defineGroup id name order with
      | error fault => simp [made]
      | ok c' =>
          obtain ⟨n, read, -, rfl⟩ := of_defineGroup made
          simp [made, read]
  | freeze => simp [run_freeze, freeze]

theorem descriptors_afterAll (calls : List Call) :
    (empty.afterAll calls).descriptors = empty.registered calls := by
  induction calls using List.reverseRecOn with
  | nil => rfl
  | append_singleton calls call ih =>
      rw [afterAll_concat, descriptors_after, ih, registered_concat]

/-! ## Writing groups -/

def lastDefined? (definitions : List Group) (id : String) : Option Group :=
  definitions.reverse.find? (·.id = id)

theorem lastDefined?_concat (definitions : List Group) (g : Group) (id : String) :
    lastDefined? (definitions ++ [g]) id =
      if g.id = id then some g else lastDefined? definitions id := by
  unfold lastDefined?
  rw [List.reverse_concat, List.find?_cons]
  split <;> simp_all

theorem id_of_lastDefined? {definitions : List Group} {id : String}
    (last : lastDefined? definitions id = some g) : g.id = id := by
  simpa using List.find?_some last

theorem exists_lastDefined? {definitions : List Group} (mem : g ∈ definitions) :
    ∃ h, lastDefined? definitions g.id = some h :=
  Option.isSome_iff_exists.mp
    (List.find?_isSome.mpr ⟨g, List.mem_reverse.mpr mem, decide_eq_true rfl⟩)

theorem mem_of_lastDefined? {definitions : List Group} {id : String}
    (last : lastDefined? definitions id = some g) : g ∈ definitions :=
  List.mem_reverse.mp (List.mem_of_find?_eq_some last)

/-- The table of groups after some definitions, a group at the place of its first one. -/
structure Tabled (definitions : List Group) (groups : List (String × Group)) : Prop where
  mem_iff : ∀ {id : String} {g : Group},
    (id, g) ∈ groups ↔ lastDefined? definitions id = some g
  placed : (groups.map (·.1)).Pairwise fun a b =>
    (definitions.map (·.id)).idxOf a < (definitions.map (·.id)).idxOf b

theorem map_fst_writeGroup (groups : List (String × Group)) (g : Group) :
    (writeGroup groups g).map (·.1) =
      if g.id ∈ groups.map (·.1) then groups.map (·.1) else groups.map (·.1) ++ [g.id] := by
  induction groups with
  | nil => rfl
  | cons entry rest ih =>
      obtain ⟨k, h⟩ := entry
      by_cases same : k = g.id
      · simp [writeGroup, same]
      · have apart : g.id ≠ k := fun eq => same eq.symm
        simp only [writeGroup, if_neg same, List.map_cons, ih, List.mem_cons, apart, false_or]
        split <;> rfl

theorem mem_writeGroup {groups : List (String × Group)} (distinct : (groups.map (·.1)).Nodup)
    {id : String} :
    (id, h) ∈ writeGroup groups g ↔ if g.id = id then g = h else (id, h) ∈ groups := by
  induction groups with
  | nil =>
      rw [writeGroup, List.mem_singleton, Prod.mk.injEq]
      grind
  | cons entry rest ih =>
      obtain ⟨k, old⟩ := entry
      obtain ⟨fresh, distinct'⟩ := List.nodup_cons.mp distinct
      have absent (h' : Group) : (k, h') ∉ rest := fun mem =>
        fresh (List.mem_map.mpr ⟨(k, h'), mem, rfl⟩)
      by_cases same : k = g.id
      · rw [writeGroup, if_pos same, List.mem_cons, List.mem_cons, Prod.mk.injEq, Prod.mk.injEq]
        grind
      · rw [writeGroup, if_neg same, List.mem_cons, List.mem_cons, ih distinct', Prod.mk.injEq]
        grind

theorem Tabled.distinct {definitions : List Group} {groups : List (String × Group)}
    (tabled : Tabled definitions groups) : (groups.map (·.1)).Nodup :=
  tabled.placed.imp fun less same => by
    rw [same] at less
    exact Nat.lt_irrefl _ less

theorem Tabled.defined_of_mem {definitions : List Group} {groups : List (String × Group)}
    (tabled : Tabled definitions groups) {id : String} (mem : id ∈ groups.map (·.1)) :
    id ∈ definitions.map (·.id) := by
  obtain ⟨⟨_, g⟩, entry, rfl⟩ := List.mem_map.mp mem
  have last := tabled.mem_iff.mp entry
  exact List.mem_map.mpr ⟨g, mem_of_lastDefined? last, id_of_lastDefined? last⟩

theorem Tabled.mem_of_defined {definitions : List Group} {groups : List (String × Group)}
    (tabled : Tabled definitions groups) {id : String} (mem : id ∈ definitions.map (·.id)) :
    id ∈ groups.map (·.1) := by
  obtain ⟨g, listed, rfl⟩ := List.mem_map.mp mem
  obtain ⟨h, last⟩ := exists_lastDefined? listed
  exact List.mem_map.mpr ⟨(g.id, h), tabled.mem_iff.mpr last, rfl⟩

/-- A group that is defined anew stays where it is; a new one comes to the end. -/
theorem Tabled.write {definitions : List Group} {groups : List (String × Group)}
    (tabled : Tabled definitions groups) (g : Group) :
    Tabled (definitions ++ [g]) (writeGroup groups g) where
  mem_iff := by
    intro id h
    rw [mem_writeGroup tabled.distinct, lastDefined?_concat, tabled.mem_iff]
    split <;> simp
  placed := by
    have old {id : String} (mem : id ∈ groups.map (·.1)) :
        ((definitions ++ [g]).map (·.id)).idxOf id = (definitions.map (·.id)).idxOf id := by
      rw [List.map_append, List.idxOf_append_of_mem (tabled.defined_of_mem mem)]
    have kept : (groups.map (·.1)).Pairwise fun a b =>
        ((definitions ++ [g]).map (·.id)).idxOf a < ((definitions ++ [g]).map (·.id)).idxOf b :=
      tabled.placed.imp_of_mem fun memA memB less => by rwa [old memA, old memB]
    rw [map_fst_writeGroup]
    split
    · exact kept
    · next fresh =>
        refine List.pairwise_append.mpr ⟨kept, List.pairwise_singleton _ _, fun a mem b last => ?_⟩
        have unseen : g.id ∉ definitions.map (·.id) := mt tabled.mem_of_defined fresh
        rw [List.mem_singleton.mp last, old mem, List.map_append,
          List.idxOf_append_of_notMem unseen]
        exact Nat.lt_add_right _ (List.idxOf_lt_length_of_mem (tabled.defined_of_mem mem))

theorem tabled_afterAll (calls : List Call) :
    Tabled (empty.defined calls) (empty.afterAll calls).groups := by
  induction calls using List.reverseRecOn with
  | nil => exact ⟨by simp [afterAll, empty, defined, episodes, lastDefined?], .nil⟩
  | append_singleton calls call ih =>
      rw [afterAll_concat, groups_after, defined_concat]
      cases (empty.afterAll calls).defines? call with
      | none => simpa using ih
      | some g => exact ih.write g

/-! ## The view -/

theorem mem_members {group : String} :
    d ∈ c.members group ↔ d ∈ c.descriptors ∧ d.group = group := by
  rw [members, List.mem_mergeSort, List.mem_filter, decide_eq_true_iff]

theorem members_perm (c : Catalog) (group : String) :
    (c.members group).Perm (c.descriptors.filter (·.group = group)) :=
  List.mergeSort_perm _ _

/-- Members are shown by their order in the group, ties in order of registration. -/
theorem pairwise_members (distinct : (c.descriptors.map (·.id)).Nodup) (group : String) :
    (c.members group).Pairwise fun a b => a.groupOrder < b.groupOrder ∨
      a.groupOrder = b.groupOrder ∧
        (c.descriptors.map (·.id)).idxOf a.id < (c.descriptors.map (·.id)).idxOf b.id := by
  have placed := List.pairwise_map.mp (pairwise_idxOf distinct)
  exact pairwise_mergeSort_key (fun d : Descriptor => d.groupOrder)
    (fun d : Descriptor => (c.descriptors.map (·.id)).idxOf d.id) (placed.filter _)

theorem map_fst_groupView (c : Catalog) :
    c.groupView.map (·.1) =
      (c.groups.map (·.2)).mergeSort fun a b => decide (a.order ≤ b.order) := by
  rw [groupView, List.map_map]
  exact List.map_id _

theorem snd_of_mem_groupView {entry : Group × List Descriptor} (mem : entry ∈ c.groupView) :
    entry.2 = c.members entry.1.id := by
  obtain ⟨g, -, rfl⟩ := List.mem_map.mp mem
  rfl

theorem mem_snd_iff {entry : Group × List Descriptor} (mem : entry ∈ c.groupView) :
    d ∈ entry.2 ↔ d ∈ c.descriptors ∧ d.group = entry.1.id := by
  rw [snd_of_mem_groupView mem, mem_members]

namespace Tabled

variable {definitions : List Group}

theorem map_id (tabled : Tabled definitions c.groups) :
    (c.groups.map (·.2)).map (·.id) = c.groups.map (·.1) := by
  rw [List.map_map]
  exact List.map_congr_left fun entry mem => id_of_lastDefined? (tabled.mem_iff.mp mem)

theorem mem_shown_iff (tabled : Tabled definitions c.groups) :
    g ∈ c.groupView.map (·.1) ↔ lastDefined? definitions g.id = some g := by
  rw [map_fst_groupView, List.mem_mergeSort, List.mem_map, ← tabled.mem_iff]
  constructor
  · rintro ⟨⟨id, _⟩, mem, rfl⟩
    rwa [id_of_lastDefined? (tabled.mem_iff.mp mem)]
  · intro mem
    exact ⟨(g.id, g), mem, rfl⟩

theorem nodup_shown (tabled : Tabled definitions c.groups) :
    ((c.groupView.map (·.1)).map (·.id)).Nodup := by
  rw [map_fst_groupView]
  have perm := (List.mergeSort_perm (c.groups.map (·.2)) fun a b => decide (a.order ≤ b.order)).map
    (·.id)
  rw [tabled.map_id] at perm
  exact perm.symm.nodup tabled.distinct

/-- Groups are shown by their order, ties in order of first definition. -/
theorem pairwise_shown (tabled : Tabled definitions c.groups) :
    (c.groupView.map (·.1)).Pairwise fun g h => g.order < h.order ∨ g.order = h.order ∧
      (definitions.map (·.id)).idxOf g.id < (definitions.map (·.id)).idxOf h.id := by
  have placed := tabled.placed
  rw [← tabled.map_id, List.pairwise_map] at placed
  rw [map_fst_groupView]
  exact pairwise_mergeSort_key Group.order
    (fun g : Group => (definitions.map (·.id)).idxOf g.id) placed

/-- The whole view holds each block type of a defined group once, and no other. -/
theorem flatMap_groupView_perm (tabled : Tabled definitions c.groups)
    (distinct : (c.descriptors.map (·.id)).Nodup) :
    (c.groupView.flatMap (·.2)).Perm
      (c.descriptors.filter fun d => definitions.any (·.id = d.group)) := by
  have different : c.descriptors.Nodup := .of_map _ distinct
  have nodup : (c.groupView.flatMap (·.2)).Nodup := by
    refine List.nodup_flatMap.mpr ⟨fun entry mem => ?_, ?_⟩
    · rw [snd_of_mem_groupView mem]
      exact (members_perm c _).symm.nodup (different.filter _)
    · have apart := tabled.nodup_shown
      rw [List.Nodup, List.pairwise_map, List.pairwise_map] at apart
      exact apart.imp_of_mem fun first second ne d here there =>
        ne (((mem_snd_iff first).mp here).2.symm.trans ((mem_snd_iff second).mp there).2)
  refine (List.perm_ext_iff_of_nodup nodup (different.filter _)).mpr fun d => ?_
  rw [List.mem_flatMap, List.mem_filter, List.any_eq_true]
  constructor
  · rintro ⟨entry, mem, member⟩
    have shown : entry.1 ∈ c.groupView.map (·.1) := List.mem_map.mpr ⟨entry, mem, rfl⟩
    have last := tabled.mem_shown_iff.mp shown
    obtain ⟨registered, named⟩ := (mem_snd_iff mem).mp member
    exact ⟨registered, entry.1, mem_of_lastDefined? last, decide_eq_true named.symm⟩
  · rintro ⟨registered, g, defined, names⟩
    have same : g.id = d.group := by simpa using names
    obtain ⟨h, last⟩ := exists_lastDefined? defined
    have shown : h ∈ c.groupView.map (·.1) := by
      rwa [tabled.mem_shown_iff, id_of_lastDefined? last]
    obtain ⟨entry, mem, rfl⟩ := List.mem_map.mp shown
    refine ⟨entry, mem, (mem_snd_iff mem).mpr ⟨registered, ?_⟩⟩
    rw [id_of_lastDefined? last, same]

end Tabled

/--
After any calls, refused ones and groups defined anew or never included: the view
shows each defined group once, as it was defined last, by increasing order, and
groups of one order as they were first defined.  The members of a group are the
registered block types that name it, each once, by increasing order in the group,
and those of one order as they were registered.  So the view as a whole holds each
block type of a defined group once.
-/
theorem groupView_exact (calls : List Call) :
    let c := empty.afterAll calls
    let registered := empty.registered calls
    let defined := empty.defined calls
    let shown := c.groupView.map (·.1)
    (∀ g, g ∈ shown ↔ lastDefined? defined g.id = some g) ∧
    (shown.map (·.id)).Nodup ∧
    shown.Pairwise (fun g h => g.order < h.order ∨ g.order = h.order ∧
      (defined.map (·.id)).idxOf g.id < (defined.map (·.id)).idxOf h.id) ∧
    (∀ entry ∈ c.groupView,
      entry.2.Perm (registered.filter (·.group = entry.1.id)) ∧
      entry.2.Pairwise fun a b => a.groupOrder < b.groupOrder ∨ a.groupOrder = b.groupOrder ∧
        (registered.map (·.id)).idxOf a.id < (registered.map (·.id)).idxOf b.id) ∧
    (c.groupView.flatMap (·.2)).Perm
      (registered.filter fun d => defined.any (·.id = d.group)) ∧
    (registered.map (·.id)).Nodup := by
  intro c registered defined shown
  have tabled : Tabled defined c.groups := tabled_afterAll calls
  have listed : c.descriptors = registered := descriptors_afterAll calls
  have distinct : (c.descriptors.map (·.id)).Nodup := (indexed_afterAll calls).ids
  refine ⟨fun g => tabled.mem_shown_iff, tabled.nodup_shown, tabled.pairwise_shown,
    fun entry mem => ?_, ?_, ?_⟩
  · rw [snd_of_mem_groupView mem, ← listed]
    exact ⟨members_perm c _, pairwise_members distinct _⟩
  · rw [← listed]
    exact tabled.flatMap_groupView_perm distinct
  · rwa [← listed]

/-- A group that is defined anew stays before another of the same order. -/
example :
    (empty.afterAll [.defineGroup "b" "Old" (.int 7), .defineGroup "a" "First" (.int 1),
      .defineGroup "b" "New" (.int 1)]).groupView.map (·.1.name) = ["New", "First"] := by
  cbv

end Catalog

end Flowgraph
