import LineAsm.Proofs.Stores
import Std.Data.HashMap

/-!
# Memory by containers

Memory may also be kept on two levels, as a table of containers with a table of slots in each of
them. A container comes into being with its first cell. Tables are in no order, so a snapshot has to
flatten the two levels and sort what it gets.

Flattening turns such a memory into one of the machine. Reads, snapshots and counts give the same on
both sides, and a write before the flattening is a write after it. So no sequence of writes tells
the two apart.

Results:
* `Containers.mem_cells`, `Containers.cells_distinct`: the cells of both levels, each once.
* `Containers.getElem?_flat`, `Containers.flat_write`: what flattening keeps, and a write under it.
* `Containers.snapshot_eq`, `Containers.size_eq`: the sorted cells and the number of containers.
* `Containers.flat_after`, `Containers.occupied_after`: sequences of writes.
* `containers_agree_with_memory`: what follows for reads, snapshots and counts.
-/
namespace LineAsm

deriving instance Hashable for Slot

/-- Cells by container and then by slot. -/
abbrev Containers := Std.HashMap String (Std.HashMap Slot Word)

namespace Containers

/-- What was written to a slot, if anything was. -/
def held? (m : Containers) (container : String) (slot : Slot) : Option Word :=
  m[container]?.bind (·[slot]?)

/-- The value at a slot, zero if it was never written. -/
def read (m : Containers) (container : String) (slot : Slot) : Word :=
  (m.held? container slot).getD 0

/-- Writes a cell, in a new container if there is none of that name. -/
def write (m : Containers) (container : String) (slot : Slot) (value : Word) : Containers :=
  m.alter container fun slots => some ((slots.getD ∅).insert slot value)

/-- The cells of one container after the other. -/
def cells (m : Containers) : List (Location × Word) :=
  m.toList.flatMap fun (container, slots) =>
    slots.toList.map fun (slot, value) => (⟨container, slot⟩, value)

/-- The written cells in the order of their locations. -/
def snapshot (m : Containers) : List (Location × Word) :=
  m.cells.mergeSort fun a b => (Location.order a.1 b.1).isLE

/-- The same cells on one level. -/
def flat (m : Containers) : Memory := .ofList m.cells Location.order

variable {m : Containers}

/-! ## Cells -/

theorem held?_write (m : Containers) (container container' : String) (slot slot' : Slot)
    (value : Word) :
    (m.write container slot value).held? container' slot' =
      if container = container' ∧ slot = slot' then some value else m.held? container' slot' := by
  unfold held? write
  rw [Std.HashMap.getElem?_alter]
  by_cases hcontainer : container = container'
  · subst hcontainer
    by_cases hslot : slot = slot'
    · simp [hslot]
    · cases m[container]? <;> simp [Std.HashMap.getElem?_insert, hslot]
  · simp [hcontainer]

theorem mem_cells {l : Location} {value : Word} :
    (l, value) ∈ m.cells ↔ m.held? l.container l.slot = some value := by
  unfold cells held?
  simp only [List.mem_flatMap, List.mem_map, Option.bind_eq_some_iff, Prod.exists,
    Std.HashMap.mem_toList_iff_getElem?_eq_some]
  constructor
  · rintro ⟨container, slots, hslots, slot, _, hvalue, heq⟩
    cases heq
    exact ⟨slots, hslots, hvalue⟩
  · rintro ⟨slots, hslots, hvalue⟩
    exact ⟨l.container, slots, hslots, l.slot, value, hvalue, rfl⟩

/-- No two cells have the same location. -/
theorem cells_distinct (m : Containers) : m.cells.Pairwise fun a b => a.1 ≠ b.1 := by
  unfold cells
  rw [List.pairwise_flatMap]
  constructor
  · rintro ⟨container, slots⟩ -
    rw [List.pairwise_map]
    refine slots.distinct_keys_toList.imp fun hne heq => ?_
    exact beq_eq_false_iff_ne.1 hne (congrArg Location.slot heq)
  · refine m.distinct_keys_toList.imp fun hne a ha b hb heq => ?_
    obtain ⟨_, -, rfl⟩ := List.mem_map.1 ha
    obtain ⟨_, -, rfl⟩ := List.mem_map.1 hb
    exact beq_eq_false_iff_ne.1 hne (congrArg Location.container heq)

/-! ## Flattening -/

/-- Nothing is lost or moved when the levels are flattened. -/
theorem getElem?_flat (m : Containers) (l : Location) :
    m.flat[l]? = m.held? l.container l.slot := by
  unfold flat
  cases hheld : m.held? l.container l.slot with
  | some value =>
    refine Std.ExtTreeMap.getElem?_ofList_of_mem Std.ReflCmp.compare_self ?_ (mem_cells.2 hheld)
    exact m.cells_distinct.imp fun hne heq => hne (Std.LawfulEqCmp.eq_of_compare heq)
  | none =>
    apply Std.ExtTreeMap.getElem?_ofList_of_contains_eq_false
    rw [← Bool.not_eq_true, List.contains_iff_mem]
    intro hmem
    obtain ⟨⟨_, value⟩, hcell, rfl⟩ := List.mem_map.1 hmem
    rw [mem_cells.1 hcell] at hheld
    cases hheld

theorem read_eq (m : Containers) (container : String) (slot : Slot) :
    m.read container slot = m.flat.read container slot := by
  unfold read Memory.read
  rw [Std.ExtTreeMap.getD_eq_getD_getElem?, getElem?_flat]

/-- A write before the flattening is a write after it. -/
theorem flat_write (m : Containers) (container : String) (slot : Slot) (value : Word) :
    (m.write container slot value).flat = m.flat.write container slot value := by
  apply Std.ExtTreeMap.ext_getElem?
  rintro ⟨container', slot'⟩
  rw [getElem?_flat, held?_write, ← getElem?_flat]
  unfold Memory.write
  rw [Std.ExtTreeMap.getElem?_insert]
  simp only [Std.LawfulEqCmp.compare_eq_iff_eq, Location.mk.injEq]

theorem isListing_snapshot (m : Containers) :
    IsListing Location.Before (fun l value => m.flat[l]? = some value) m.snapshot where
  ascending := by
    have hsorted : m.snapshot.Pairwise fun a b => (Location.order a.1 b.1).isLE = true := by
      unfold snapshot
      apply List.pairwise_mergeSort
      · intro a b c
        exact Std.TransCmp.isLE_trans
      · intro a b
        rw [← Std.OrientedCmp.isGE_eq_isLE]
        cases Location.order b.1 a.1 <;> rfl
    have hdistinct : m.snapshot.Pairwise fun a b => a.1 ≠ b.1 :=
      (List.mergeSort_perm m.cells _).symm.pairwise m.cells_distinct Ne.symm
    refine (hsorted.and hdistinct).imp fun {a b} h => Location.order_eq_lt_iff.1 ?_
    cases horder : Location.order a.1 b.1 with
    | lt => rfl
    | eq => exact absurd (Std.LawfulEqCmp.eq_of_compare horder) h.2
    | gt => simp [horder] at h
  mem_iff l value := by
    rw [getElem?_flat]
    exact List.mem_mergeSort.trans mem_cells

/-- **Sorting.** The flattened cells come out of the sorting as the snapshot of the machine. -/
theorem snapshot_eq (m : Containers) : m.snapshot = m.flat.snapshot :=
  m.isListing_snapshot.unique Location.order_eq_lt_iff
    (isListing_toList Location.order_eq_lt_iff Iff.rfl)

/-! ## Counting containers -/

/-- There is a cell in every container. -/
def Occupied (m : Containers) : Prop := ∀ container ∈ m, ∃ slot, (m.held? container slot).isSome

theorem mem_of_held? {container : String} {slot : Slot}
    (h : (m.held? container slot).isSome) : container ∈ m := by
  obtain ⟨value, hvalue⟩ := Option.isSome_iff_exists.1 h
  obtain ⟨slots, hslots, -⟩ := Option.bind_eq_some_iff.1 hvalue
  exact Std.HashMap.mem_iff_isSome_getElem?.2 (by rw [hslots]; rfl)

theorem Occupied.write (h : m.Occupied) (container : String) (slot : Slot) (value : Word) :
    (m.write container slot value).Occupied := by
  intro container' hmem
  by_cases hcontainer : container = container'
  · exact ⟨slot, by simp [held?_write, hcontainer]⟩
  · have hold : container' ∈ m := by
      simpa [Containers.write, Std.HashMap.mem_alter, hcontainer] using hmem
    obtain ⟨slot', hslot'⟩ := h container' hold
    exact ⟨slot', by simpa [held?_write, hcontainer] using hslot'⟩

theorem Occupied.size_eq (h : m.Occupied) : m.size = m.flat.containers.length := by
  have hperm : m.keys.Perm m.flat.containers := by
    refine (List.perm_ext_iff_of_nodup m.nodup_keys (nodup_eraseDups _)).2 fun container => ?_
    simp only [List.mem_eraseDups, List.mem_map, Std.ExtTreeMap.mem_keys,
      Std.HashMap.mem_keys, Std.ExtTreeMap.mem_iff_isSome_getElem?, getElem?_flat]
    constructor
    · intro hmem
      obtain ⟨slot, hslot⟩ := h container hmem
      exact ⟨⟨container, slot⟩, hslot, rfl⟩
    · rintro ⟨l, hl, rfl⟩
      exact mem_of_held? hl
  rw [← Std.HashMap.length_keys, hperm.length_eq]

/-! ## Sequences of writes -/

/-- Makes a write if it is one to a cell. -/
def store (m : Containers) (w : Write) : Containers :=
  match w.target with
  | .register _ => m
  | .cell l => m.write l.container l.slot w.value

/-- No containers, after a sequence of writes. -/
def after (writes : List Write) : Containers := writes.foldl store ∅

theorem flat_store (m : Containers) {s : Storage} (h : m.flat = s.memory) (w : Write) :
    (m.store w).flat = (s.write w).memory := by
  unfold store Storage.write
  cases w.target with
  | register name => exact h
  | cell l => rw [flat_write, h]

theorem flat_after (writes : List Write) : (after writes).flat = (Storage.after writes).memory := by
  induction writes using List.reverseRecOn with
  | nil => simp [after, Storage.after, flat, cells]
  | append_singleton writes w ih =>
    unfold after Storage.after
    rw [List.foldl_concat, List.foldl_concat]
    exact flat_store _ ih w

theorem occupied_after (writes : List Write) : (after writes).Occupied := by
  induction writes using List.reverseRecOn with
  | nil => simp [after, Occupied]
  | append_singleton writes w ih =>
    unfold after
    rw [List.foldl_concat, store]
    cases w.target with
    | register name => exact ih
    | cell l => exact ih.write l.container l.slot w.value

end Containers

/-- **Two levels are like one.** After any sequence of writes, containers with their slots read as
the memory of the machine does, their flattened and sorted cells are its snapshot, and there are as
many of them as it counts. -/
theorem containers_agree_with_memory (writes : List Write) :
    let m := Containers.after writes
    let memory := (Storage.after writes).memory
    (∀ container slot, m.read container slot = memory.read container slot) ∧
    m.snapshot = memory.snapshot ∧ m.size = memory.containers.length := by
  intro m memory
  have hflat : m.flat = memory := Containers.flat_after writes
  rw [← hflat]
  exact ⟨m.read_eq, m.snapshot_eq, (Containers.occupied_after writes).size_eq⟩

end LineAsm
