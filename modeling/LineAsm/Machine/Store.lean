import LineAsm.Program.Basic

/-!
# Registers and memory

Registers and memory cells read as zero until they are written. A cell of memory lies at a slot of a
container; a slot is an index or a key, and the two never meet. Snapshots are in the order of the
names, and in a container index slots come first, in numerical order, and then key slots.
-/
namespace LineAsm

/-! ## Registers -/

/-- The written registers. -/
abbrev Registers := Std.ExtTreeMap String Word

namespace Registers

/-- The value of a register, zero if it was never written. -/
def read (r : Registers) (name : String) : Word := r.getD name 0

def write (r : Registers) (name : String) (value : Word) : Registers := r.insert name value

/-- The written registers in the order of their names. -/
def snapshot (r : Registers) : List (String × Word) := r.toList

end Registers

/-! ## Memory -/

/-- Where in its container a value lies. -/
inductive Slot where
  | index (index : Word)
  | key (key : String)
  deriving DecidableEq

/-- A slot as it is written behind the name of its container. -/
def Slot.render : Slot → String
  | .index i => "[" ++ i.render ++ "]"
  | .key k => "\x7b" ++ k ++ "\x7d"

/-- A container and a slot in it. -/
structure Location where
  container : String
  slot : Slot
  deriving DecidableEq

/-- The rank of a location: its container, then indices before keys. -/
def Location.rank (l : Location) : String × Nat × Int × String :=
  match l.slot with
  | .index index => (l.container, 0, index.toInt, "")
  | .key key => (l.container, 1, 0, key)

/-- Orders locations by container and then by slot. -/
def Location.order : Location → Location → Ordering :=
  compareLex (compareOn (·.rank.1)) (compareLex (compareOn (·.rank.2.1))
    (compareLex (compareOn (·.rank.2.2.1)) (compareOn (·.rank.2.2.2))))

instance : Std.TransCmp Location.order := by unfold Location.order; infer_instance

theorem Location.rank_injective {a b : Location} (h : a.rank = b.rank) : a = b := by
  obtain ⟨ca, sa⟩ := a
  obtain ⟨cb, sb⟩ := b
  cases sa <;> cases sb <;>
    simp_all [Location.rank, Int64.toInt_inj]

instance : Std.LawfulEqCmp Location.order where
  eq_of_compare {a b} h := by
    simp only [Location.order, compareLex, compareOn, Ordering.then_eq_eq,
      Std.LawfulEqCmp.compare_eq_iff_eq] at h
    exact Location.rank_injective (by
      ext1
      · exact h.1
      · ext1
        · exact h.2.1
        · ext1
          · exact h.2.2.1
          · exact h.2.2.2)

/-- The written memory cells. -/
abbrev Memory := Std.ExtTreeMap Location Word Location.order

namespace Memory

/-- The value at a slot, zero if it was never written. -/
def read (m : Memory) (container : String) (slot : Slot) : Word := m.getD ⟨container, slot⟩ 0

def write (m : Memory) (container : String) (slot : Slot) (value : Word) : Memory :=
  m.insert ⟨container, slot⟩ value

/-- The written cells in the order of their locations. -/
def snapshot (m : Memory) : List (Location × Word) := m.toList

/-- The containers with a written cell. -/
def containers (m : Memory) : List String := (m.keys.map (·.container)).eraseDups

end Memory

/-- A cell as a snapshot shows it. -/
def renderCell (cell : Location × Word) : String :=
  cell.1.container ++ cell.1.slot.render ++ " = " ++ cell.2.render

end LineAsm
