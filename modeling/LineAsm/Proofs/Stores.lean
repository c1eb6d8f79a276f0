import LineAsm.Proofs.ByteOrder
import LineAsm.Proofs.Completion
import Mathlib.Data.Finset.Card
import Mathlib.Data.List.Induction

/-!
# Registers and memory after a sequence of writes

What a store holds depends on the last write to each target only: a register, or a slot of a
container. A snapshot is determined by the last writes, too. It lists them in strictly ascending
order, so that there is one such list.

Results:
* `Storage.held?_write`, `Storage.held?_after`: what one write and what a sequence of writes leave.
* `Location.order_eq_lt_iff`: the order of locations in words.
* `isListing_toList`, `IsListing.unique`: a snapshot lists the last writes, and only one list does.
* `Storage.size_registers`, `Storage.length_containers`: how many names and containers there are.
* `stores_keep_last_writes`: what follows for reads, snapshots and counts.
-/
namespace LineAsm

/-! ## Writes -/

/-- Where a value is written. -/
inductive Target where
  | register (name : String)
  | cell (location : Location)
  deriving DecidableEq

/-- A value that is written. -/
structure Write where
  target : Target
  value : Word

/-- The value is that of the last write to the target. -/
def LastWrite (writes : List Write) (target : Target) (value : Word) : Prop :=
  ∃ earlier later, writes = earlier ++ ⟨target, value⟩ :: later ∧ ∀ w ∈ later, w.target ≠ target

/-- The value is that of the last write to the target, or zero if there was none. -/
def ReadsAs (writes : List Write) (target : Target) (value : Word) : Prop :=
  LastWrite writes target value ∨ (∀ w ∈ writes, w.target ≠ target) ∧ value = 0

section
variable {writes : List Write} {w : Write} {target : Target} {value : Word}

theorem not_lastWrite_nil : ¬ LastWrite [] target value := by
  rintro ⟨earlier, later, h, -⟩
  simp at h

theorem lastWrite_concat :
    LastWrite (writes ++ [w]) target value ↔
      if w.target = target then w.value = value else LastWrite writes target value := by
  constructor
  · rintro ⟨earlier, later, h, hlater⟩
    -- with nothing behind it the last write is `w`, and otherwise `w` is the end of what is behind
    rcases List.eq_nil_or_concat later with rfl | ⟨later, last, rfl⟩
    · obtain ⟨-, rfl⟩ := List.concat_inj.1 (by simpa using h)
      simp
    · rw [List.concat_eq_append, ← List.cons_append, ← List.append_assoc] at h
      obtain ⟨hwrites, hlast⟩ := List.append_inj' h rfl
      cases hlast
      rw [if_neg (hlater w (by simp))]
      exact ⟨earlier, later, hwrites, fun x hx => hlater x (by simp [hx])⟩
  · intro h
    split at h
    · rename_i htarget
      subst htarget h
      exact ⟨writes, [], by simp, by simp⟩
    · rename_i htarget
      obtain ⟨earlier, later, rfl, hlater⟩ := h
      refine ⟨earlier, later ++ [w], by simp, ?_⟩
      simpa [or_imp, forall_and] using ⟨hlater, htarget⟩

theorem exists_lastWrite_iff :
    (∃ value, LastWrite writes target value) ↔ ∃ w ∈ writes, w.target = target := by
  induction writes using List.reverseRecOn with
  | nil => simp [not_lastWrite_nil]
  | append_singleton writes w ih =>
    simp only [lastWrite_concat]
    by_cases hw : w.target = target
    · simp [hw]
    · simp [hw, ih]

end

/-! ## What a store holds -/

/-- Registers and memory, fresh unless something was written. -/
structure Storage where
  registers : Registers := ∅
  memory : Memory := ∅

namespace Storage

def write (s : Storage) (w : Write) : Storage :=
  match w.target with
  | .register name => { s with registers := s.registers.write name w.value }
  | .cell l => { s with memory := s.memory.write l.container l.slot w.value }

/-- Fresh registers and memory after a sequence of writes. -/
def after (writes : List Write) : Storage := writes.foldl write {}

/-- What was written to a target, if anything was. -/
def held? (s : Storage) : Target → Option Word
  | .register name => s.registers[name]?
  | .cell l => s.memory[l]?

theorem held?_write (s : Storage) (w : Write) (target : Target) :
    (s.write w).held? target = if w.target = target then some w.value else s.held? target := by
  obtain ⟨written, value⟩ := w
  cases written <;> cases target <;>
    simp [write, held?, Registers.write, Memory.write, Std.ExtTreeMap.getElem?_insert]

/-- **Last write wins.** -/
theorem held?_after (writes : List Write) (target : Target) {value : Word} :
    (after writes).held? target = some value ↔ LastWrite writes target value := by
  -- the writes are made from the left, so the last one is taken off
  induction writes using List.reverseRecOn with
  | nil => cases target <;> simp [after, held?, not_lastWrite_nil]
  | append_singleton writes w ih =>
    have hstep : after (writes ++ [w]) = (after writes).write w := List.foldl_concat ..
    rw [hstep, held?_write, lastWrite_concat]
    split
    · rw [Option.some_inj]
    · exact ih

theorem isSome_held?_after (writes : List Write) (target : Target) :
    ((after writes).held? target).isSome ↔ ∃ w ∈ writes, w.target = target := by
  rw [← exists_lastWrite_iff, Option.isSome_iff_exists]
  exact exists_congr fun _ => held?_after writes target

theorem readsAs_held? (writes : List Write) (target : Target) :
    ReadsAs writes target (((after writes).held? target).getD 0) := by
  cases hheld : (after writes).held? target with
  | some value => exact .inl ((held?_after writes target).1 hheld)
  | none =>
    refine .inr ⟨fun w hw htarget => ?_, rfl⟩
    have hsome := (isSome_held?_after writes target).2 ⟨w, hw, htarget⟩
    simp [hheld] at hsome

theorem read_registers (s : Storage) (name : String) :
    s.registers.read name = (s.held? (.register name)).getD 0 :=
  Std.ExtTreeMap.getD_eq_getD_getElem?

theorem read_memory (s : Storage) (container : String) (slot : Slot) :
    s.memory.read container slot = (s.held? (.cell ⟨container, slot⟩)).getD 0 :=
  Std.ExtTreeMap.getD_eq_getD_getElem?

end Storage

/-- A write to one location shows at no other. -/
theorem Memory.read_write_of_ne (m : Memory) {c c' : String} {s s' : Slot}
    (h : (⟨c, s⟩ : Location) ≠ ⟨c', s'⟩) (value : Word) :
    (m.write c s value).read c' s' = m.read c' s' := by
  unfold Memory.read Memory.write
  rw [Std.ExtTreeMap.getD_insert, if_neg]
  rwa [Std.LawfulEqCmp.compare_eq_iff_eq]

/-! ## The order of a snapshot -/

/-- Indices are in numerical order, keys in the order of their bytes, and all indices come before
all keys. -/
def Slot.Before : Slot → Slot → Prop
  | .index i, .index j => i.toInt < j.toInt
  | .index _, .key _ => True
  | .key _, .index _ => False
  | .key k, .key l => utf8Bytes k < utf8Bytes l

/-- Containers are in the order of the bytes of their names. -/
def Location.Before (a b : Location) : Prop :=
  utf8Bytes a.container < utf8Bytes b.container ∨ a.container = b.container ∧ a.slot.Before b.slot

theorem Location.order_eq_lt_iff {a b : Location} : Location.order a b = .lt ↔ a.Before b := by
  obtain ⟨c, s⟩ := a
  obtain ⟨c', s'⟩ := b
  have hirrefl : ¬ utf8Bytes "" < utf8Bytes "" := List.lt_irrefl _
  unfold Location.order Location.Before
  simp only [compareLex, compareOn, Ordering.then_eq_lt, Std.LawfulEqCmp.compare_eq_iff_eq,
    compare_eq_lt_iff_bytes, Nat.compare_eq_lt, Int.compare_eq_lt]
  cases s <;> cases s' <;> simp [Location.rank, Slot.Before, hirrefl]

/-! ## Listings -/

/-- The entries are the given ones, each once, in strictly ascending order. -/
structure IsListing {α : Type} (before : α → α → Prop) (entry : α → Word → Prop)
    (entries : List (α × Word)) : Prop where
  ascending : entries.Pairwise fun a b => before a.1 b.1
  mem_iff : ∀ a value, (a, value) ∈ entries ↔ entry a value

section
variable {α : Type} {cmp : α → α → Ordering} [Std.TransCmp cmp] {before : α → α → Prop}
  {entry : α → Word → Prop} (hbefore : ∀ {a b}, cmp a b = .lt ↔ before a b)
include hbefore

theorem isListing_toList [Std.LawfulEqCmp cmp] {m : Std.ExtTreeMap α Word cmp}
    (hentry : ∀ {a value}, m[a]? = some value ↔ entry a value) :
    IsListing before entry m.toList where
  ascending := Std.ExtTreeMap.ordered_keys_toList.imp hbefore.1
  mem_iff _ _ := Std.ExtTreeMap.mem_toList_iff_getElem?_eq_some.trans hentry

/-- Entries in strictly ascending order can be listed in one way. -/
theorem IsListing.unique {entries entries' : List (α × Word)}
    (h : IsListing before entry entries) (h' : IsListing before entry entries') :
    entries = entries' := by
  have hasymm : ∀ {a b}, before a b → ¬ before b a := by
    intro a b hab hba
    have hgt := Std.OrientedCmp.gt_of_lt (hbefore.2 hba)
    rw [hbefore.2 hab] at hgt
    cases hgt
  have hnodup : ∀ {l : List (α × Word)}, l.Pairwise (fun a b => before a.1 b.1) → l.Nodup := by
    intro l hl
    refine hl.imp ?_
    rintro a _ hab rfl
    exact hasymm hab hab
  have hperm : entries.Perm entries' := by
    rw [List.perm_ext_iff_of_nodup (hnodup h.ascending) (hnodup h'.ascending)]
    exact fun e => (h.mem_iff e.1 e.2).trans (h'.mem_iff e.1 e.2).symm
  exact hperm.eq_of_pairwise (fun _ _ _ _ hab hba => absurd hba (hasymm hab)) h.ascending
    h'.ascending

end

namespace Storage

theorem isListing_registers (writes : List Write) :
    IsListing (fun a b => utf8Bytes a < utf8Bytes b)
      (fun name value => LastWrite writes (.register name) value)
      (after writes).registers.snapshot :=
  isListing_toList compare_eq_lt_iff_bytes fun {name _} => held?_after writes (.register name)

theorem isListing_memory (writes : List Write) :
    IsListing Location.Before (fun l value => LastWrite writes (.cell l) value)
      (after writes).memory.snapshot :=
  isListing_toList Location.order_eq_lt_iff fun {l _} => held?_after writes (.cell l)

end Storage

/-! ## Counts -/

/-- The register that is written. -/
def Write.name? (w : Write) : Option String :=
  match w.target with
  | .register name => some name
  | .cell _ => none

/-- The container that is written to. -/
def Write.container? (w : Write) : Option String :=
  match w.target with
  | .register _ => none
  | .cell l => some l.container

theorem Write.name?_eq_some {w : Write} {name : String} :
    w.name? = some name ↔ w.target = .register name := by
  unfold Write.name?
  cases w.target <;> simp

theorem Write.container?_eq_some {w : Write} {container : String} :
    w.container? = some container ↔ ∃ slot, w.target = .cell ⟨container, slot⟩ := by
  unfold Write.container?
  cases w.target with
  | register name => simp
  | cell l =>
    obtain ⟨c, s⟩ := l
    simp

namespace Storage

theorem mem_registers {writes : List Write} {name : String} :
    name ∈ (after writes).registers ↔ ∃ w ∈ writes, w.target = .register name :=
  Std.ExtTreeMap.mem_iff_isSome_getElem?.trans (isSome_held?_after writes (.register name))

theorem mem_memory {writes : List Write} {l : Location} :
    l ∈ (after writes).memory ↔ ∃ w ∈ writes, w.target = .cell l :=
  Std.ExtTreeMap.mem_iff_isSome_getElem?.trans (isSome_held?_after writes (.cell l))

theorem size_registers (writes : List Write) :
    (after writes).registers.size = (writes.filterMap Write.name?).toFinset.card := by
  rw [← Std.ExtTreeMap.length_keys, ← List.toFinset_card_of_nodup Std.ExtTreeMap.nodup_keys]
  congr 1
  ext name
  simp [mem_registers, Write.name?_eq_some]

theorem length_containers (writes : List Write) :
    (after writes).memory.containers.length =
      (writes.filterMap Write.container?).toFinset.card := by
  unfold Memory.containers
  rw [← List.toFinset_card_of_nodup (nodup_eraseDups _)]
  congr 1
  ext container
  simp only [List.mem_toFinset, List.mem_eraseDups, List.mem_map, Std.ExtTreeMap.mem_keys,
    mem_memory, List.mem_filterMap, Write.container?_eq_some]
  constructor
  · rintro ⟨l, ⟨w, hw, hl⟩, rfl⟩
    exact ⟨w, hw, l.slot, hl⟩
  · rintro ⟨w, hw, slot, hl⟩
    exact ⟨⟨container, slot⟩, ⟨w, hw, hl⟩, rfl⟩

end Storage

/-- **Stores keep the last writes.** After any sequence of writes to fresh registers and memory, a
read gives the value of the last write to just that register or that slot of a container, and zero
if there was none; index and key slots do not meet. The snapshots list the last writes once each, in
strictly ascending order, and depend on nothing else. The counts are those of the different names
and of the different containers that were written. -/
theorem stores_keep_last_writes (writes : List Write) :
    let s := Storage.after writes
    (∀ name, ReadsAs writes (.register name) (s.registers.read name)) ∧
    (∀ container slot, ReadsAs writes (.cell ⟨container, slot⟩) (s.memory.read container slot)) ∧
    (∀ container i key value,
      (s.memory.write container (.index i) value).read container (.key key) =
        s.memory.read container (.key key) ∧
      (s.memory.write container (.key key) value).read container (.index i) =
        s.memory.read container (.index i)) ∧
    IsListing (fun a b => utf8Bytes a < utf8Bytes b)
      (fun name value => LastWrite writes (.register name) value) s.registers.snapshot ∧
    IsListing Location.Before
      (fun l value => LastWrite writes (.cell l) value) s.memory.snapshot ∧
    s.registers.size = (writes.filterMap Write.name?).toFinset.card ∧
    s.memory.containers.length = (writes.filterMap Write.container?).toFinset.card ∧
    ∀ writes' : List Write,
      ((∀ name value, LastWrite writes' (.register name) value ↔
          LastWrite writes (.register name) value) →
        (Storage.after writes').registers.snapshot = s.registers.snapshot) ∧
      ((∀ l value, LastWrite writes' (.cell l) value ↔ LastWrite writes (.cell l) value) →
        (Storage.after writes').memory.snapshot = s.memory.snapshot) := by
  intro s
  have hregisters := Storage.isListing_registers writes
  have hmemory := Storage.isListing_memory writes
  refine ⟨fun name => ?_, fun container slot => ?_, fun container i key value => ⟨?_, ?_⟩,
    hregisters, hmemory, Storage.size_registers writes, Storage.length_containers writes,
    fun writes' => ⟨fun hsame => ?_, fun hsame => ?_⟩⟩
  · rw [Storage.read_registers]
    exact Storage.readsAs_held? writes _
  · rw [Storage.read_memory]
    exact Storage.readsAs_held? writes _
  · exact s.memory.read_write_of_ne (by simp) value
  · exact s.memory.read_write_of_ne (by simp) value
  · have hregisters' := Storage.isListing_registers writes'
    simp only [hsame] at hregisters'
    exact hregisters'.unique compare_eq_lt_iff_bytes hregisters
  · have hmemory' := Storage.isListing_memory writes'
    simp only [hsame] at hmemory'
    exact hmemory'.unique Location.order_eq_lt_iff hmemory

/-- A register that is written twice, and an index and a key that look alike. -/
def mixedWrites : List Write :=
  [⟨.register "r", 1⟩, ⟨.cell ⟨"a", .key "2"⟩, 7⟩, ⟨.cell ⟨"a", .index 2⟩, 9⟩, ⟨.register "r", 3⟩,
    ⟨.cell ⟨"a", .index (-1)⟩, 4⟩]

/-- The last of these writes to each target, in another order. -/
def lastMixedWrites : List Write :=
  [⟨.cell ⟨"a", .index (-1)⟩, 4⟩, ⟨.register "r", 3⟩, ⟨.cell ⟨"a", .index 2⟩, 9⟩,
    ⟨.cell ⟨"a", .key "2"⟩, 7⟩]

theorem stores_keep_last_writes_mixed :
    let s := Storage.after mixedWrites
    s.registers.read "r" = 3 ∧ s.memory.read "a" (.index 2) = 9 ∧ s.memory.read "a" (.key "2") = 7 ∧
    (Storage.after lastMixedWrites).registers.snapshot = [("r", 3)] ∧
    (Storage.after lastMixedWrites).memory.snapshot =
      [(⟨"a", .index (-1)⟩, 4), (⟨"a", .index 2⟩, 9), (⟨"a", .key "2"⟩, 7)] ∧
    s.registers.size = 1 ∧ s.memory.containers.length = 1 := by
  have hmixed : mixedWrites = [] ++ [⟨.register "r", 1⟩] ++ [⟨.cell ⟨"a", .key "2"⟩, 7⟩] ++
      [⟨.cell ⟨"a", .index 2⟩, 9⟩] ++ [⟨.register "r", 3⟩] ++ [⟨.cell ⟨"a", .index (-1)⟩, 4⟩] := rfl
  have hlast : lastMixedWrites = [] ++ [⟨.cell ⟨"a", .index (-1)⟩, 4⟩] ++ [⟨.register "r", 3⟩] ++
      [⟨.cell ⟨"a", .index 2⟩, 9⟩] ++ [⟨.cell ⟨"a", .key "2"⟩, 7⟩] := rfl
  have hnames : ∀ name value, LastWrite lastMixedWrites (.register name) value ↔
      LastWrite mixedWrites (.register name) value := by
    intro name value
    simp only [hmixed, hlast, lastWrite_concat, reduceCtorEq, if_false]
    split <;> rfl
  have hcells : ∀ l value, LastWrite lastMixedWrites (.cell l) value ↔
      LastWrite mixedWrites (.cell l) value := by
    intro l value
    simp only [hmixed, hlast, lastWrite_concat, Target.cell.injEq, reduceCtorEq, if_false]
    split_ifs <;> subst_vars <;> first | rfl | simp_all
  have hshown :
      let s := Storage.after mixedWrites
      s.registers.read "r" = 3 ∧ s.memory.read "a" (.index 2) = 9 ∧
      s.memory.read "a" (.key "2") = 7 ∧ s.registers.snapshot = [("r", 3)] ∧
      s.memory.snapshot =
        [(⟨"a", .index (-1)⟩, 4), (⟨"a", .index 2⟩, 9), (⟨"a", .key "2"⟩, 7)] := by
    decide +kernel
  obtain ⟨hr, hindex, hkey, hregisters, hmemory⟩ := hshown
  obtain ⟨-, -, -, -, -, hsize, hcontainers, hsame⟩ := stores_keep_last_writes mixedWrites
  obtain ⟨hsameRegisters, hsameMemory⟩ := hsame lastMixedWrites
  exact ⟨hr, hindex, hkey, (hsameRegisters hnames).trans hregisters,
    (hsameMemory hcells).trans hmemory, hsize.trans (by decide), hcontainers.trans (by decide)⟩

end LineAsm
