import Mathlib.Data.Int.Basic
import Mathlib.Tactic.Common

/-!
# Cell memory and block operations

A memory is a total map from integer addresses to cells. This file has the
block operations a C program performs on it — single stores, an ascending copy
loop within one memory, a copy between two objects, a fill loop — each defined
as its loop, with a closed form that says what every cell holds afterwards.

## Key results

- `Mem.copyUp_outside`: an ascending copy changes no cell outside its target
- `Mem.copyUp_of_le`: an ascending copy to a lower address is a faithful shift,
  even when the two blocks overlap
- `Mem.copyFrom_apply`, `Mem.fill_apply`: closed forms of the other two loops
-/

namespace ForStd

/-- A memory of cells over `α`, addressed by integers. -/
abbrev Mem (α : Type) := Int → α

namespace Mem

variable {α : Type}

/-- Store `v` at address `a`. -/
def set (m : Mem α) (a : Int) (v : α) : Mem α := fun b => if b = a then v else m b

@[simp] theorem set_same (m : Mem α) (a : Int) (v : α) : m.set a v a = v := by
  simp [set]

theorem set_other (m : Mem α) {a b : Int} (v : α) (h : b ≠ a) : m.set a v b = m b := by
  simp [set, h]

/-- The second of two stores to a cell stays. -/
theorem set_set (m : Mem α) (a : Int) (v w : α) : (m.set a v).set a w = m.set a w := by
  funext b
  simp only [set]
  split <;> rfl

/-! ## The ascending copy loop -/

/-- `for (i = 0; i < n; i++) m[dst+i] = m[src+i]`, in one memory. -/
def copyUp (m : Mem α) (dst src : Int) : Nat → Mem α
  | 0 => m
  | n + 1 =>
    let m' := copyUp m dst src n
    m'.set (dst + n) (m' (src + n))

/-- The copy loop writes nothing outside its target block. -/
theorem copyUp_outside (m : Mem α) (dst src : Int) (n : Nat) (a : Int)
    (h : a < dst ∨ dst + n ≤ a) : copyUp m dst src n a = m a := by
  induction n with
  | zero => rfl
  | succ n ih =>
    have hne : a ≠ dst + n := by omega
    simp only [copyUp]
    rw [set_other _ _ hne]
    exact ih (by omega)

/-- Copying down to a lower (or the same) address moves the old block
    unchanged: cell `i` of the source is read before the loop overwrites it. -/
theorem copyUp_of_le (m : Mem α) {dst src : Int} (hle : dst ≤ src) (n : Nat) (a : Int) :
    copyUp m dst src n a =
      if dst ≤ a ∧ a < dst + n then m (src + (a - dst)) else m a := by
  induction n generalizing a with
  | zero =>
    rw [if_neg (by omega)]
    rfl
  | succ n ih =>
    simp only [copyUp]
    by_cases ha : a = dst + n
    · -- the cell this iteration stores: its source lies above everything written so far
      subst ha
      rw [set_same, ih, if_neg (by omega), if_pos (by omega)]
      congr 1
      omega
    · rw [set_other _ _ ha, ih]
      by_cases hin : dst ≤ a ∧ a < dst + n
      · rw [if_pos hin, if_pos (by omega)]
      · rw [if_neg hin, if_neg (by omega)]

/-- Copying up to a block behind the source moves the old block unchanged, too. -/
theorem copyUp_of_disjoint (m : Mem α) {dst src : Int} {n : Nat} (h : src + n ≤ dst) (a : Int) :
    copyUp m dst src n a =
      if dst ≤ a ∧ a < dst + n then m (src + (a - dst)) else m a := by
  induction n generalizing a with
  | zero =>
    rw [if_neg (by omega)]
    rfl
  | succ n ih =>
    simp only [copyUp]
    by_cases ha : a = dst + n
    · subst ha
      rw [set_same, ih (by omega), if_neg (by omega), if_pos (by omega)]
      congr 1
      omega
    · rw [set_other _ _ ha, ih (by omega)]
      by_cases hin : dst ≤ a ∧ a < dst + n
      · rw [if_pos hin, if_pos (by omega)]
      · rw [if_neg hin, if_neg (by omega)]

/-! ## Copying between two objects -/

/-- `for (i = 0; i < n; i++) m[dst+i] = o[src+i]`, where `o` is another object. -/
def copyFrom (m : Mem α) (dst : Int) (o : Mem α) (src : Int) : Nat → Mem α
  | 0 => m
  | n + 1 => (copyFrom m dst o src n).set (dst + n) (o (src + n))

theorem copyFrom_apply (m : Mem α) (dst : Int) (o : Mem α) (src : Int) (n : Nat) (a : Int) :
    copyFrom m dst o src n a =
      if dst ≤ a ∧ a < dst + n then o (src + (a - dst)) else m a := by
  induction n with
  | zero =>
    rw [if_neg (by omega)]
    rfl
  | succ n ih =>
    simp only [copyFrom]
    by_cases ha : a = dst + n
    · subst ha
      rw [set_same, if_pos (by omega)]
      congr 1
      omega
    · rw [set_other _ _ ha, ih]
      by_cases hin : dst ≤ a ∧ a < dst + n
      · rw [if_pos hin, if_pos (by omega)]
      · rw [if_neg hin, if_neg (by omega)]

/-- Two copies of adjacent blocks are one copy. -/
theorem copyFrom_add (m : Mem α) (dst : Int) (o : Mem α) (src : Int) (n k : Nat) :
    copyFrom (copyFrom m dst o src n) (dst + n) o (src + n) k = copyFrom m dst o src (n + k) := by
  induction k with
  | zero => rfl
  | succ k ih =>
    rw [← Nat.add_assoc, copyFrom, ih, copyFrom]
    push_cast
    rw [Int.add_assoc, Int.add_assoc]

/-! ## Filling -/

/-- `for (i = 0; i < n; i++) m[start+i] = v`. -/
def fill (m : Mem α) (start : Int) (v : α) : Nat → Mem α
  | 0 => m
  | n + 1 => (fill m start v n).set (start + n) v

theorem fill_apply (m : Mem α) (start : Int) (v : α) (n : Nat) (a : Int) :
    fill m start v n a = if start ≤ a ∧ a < start + n then v else m a := by
  induction n with
  | zero =>
    rw [if_neg (by omega)]
    rfl
  | succ n ih =>
    simp only [fill]
    by_cases ha : a = start + n
    · subst ha
      rw [set_same, if_pos (by omega)]
    · rw [set_other _ _ ha, ih]
      by_cases hin : start ≤ a ∧ a < start + n
      · rw [if_pos hin, if_pos (by omega)]
      · rw [if_neg hin, if_neg (by omega)]

/-! ## Blocks as lists -/

/-- The `n` cells from address `off` on, as a list. -/
def read (m : Mem α) (off : Int) (n : Nat) : List α :=
  (List.range n).map fun i : Nat => m (off + i)

@[simp] theorem length_read (m : Mem α) (off : Int) (n : Nat) : (m.read off n).length = n := by
  simp [read]

@[simp] theorem read_zero (m : Mem α) (off : Int) : m.read off 0 = [] := rfl

theorem getElem_read (m : Mem α) (off : Int) (n i : Nat) (h : i < (m.read off n).length) :
    (m.read off n)[i] = m (off + i) := by
  simp [read]

/-- A block read starts with its first cell. -/
theorem read_succ (m : Mem α) (off : Int) (n : Nat) :
    m.read off (n + 1) = m off :: m.read (off + 1) n := by
  rw [read, List.range_succ_eq_map, List.map_cons, List.map_map]
  congr 1
  · congr 1
    omega
  · apply List.map_congr_left
    intro i _
    simp only [Function.comp_apply]
    congr 1
    omega

/-- A block read ends with its last cell. -/
theorem read_succ_last (m : Mem α) (off : Int) (n : Nat) :
    m.read off (n + 1) = m.read off n ++ [m (off + n)] := by
  simp [read, List.range_succ]

theorem read_add (m : Mem α) (off : Int) (n k : Nat) :
    m.read off (n + k) = m.read off n ++ m.read (off + n) k := by
  induction k with
  | zero => simp
  | succ k ih =>
    rw [← Nat.add_assoc, read_succ_last, ih, read_succ_last, List.append_assoc]
    congr 4
    push_cast
    omega

theorem take_read (m : Mem α) (off : Int) {n k : Nat} (h : k ≤ n) :
    (m.read off n).take k = m.read off k := by
  obtain ⟨j, rfl⟩ := Nat.exists_eq_add_of_le h
  rw [read_add, List.take_left' (length_read m off k)]

theorem read_const (v : α) (off : Int) (n : Nat) : read (fun _ => v) off n = List.replicate n v := by
  rw [read, List.map_const', List.length_range]

/-- Two memories that agree on a block read the same list there. -/
theorem read_congr {m m' : Mem α} {off off' : Int} {n : Nat}
    (h : ∀ i < n, m (off + (i : Nat)) = m' (off' + (i : Nat))) :
    m.read off n = m'.read off' n := by
  apply List.map_congr_left
  intro i hi
  exact h i (List.mem_range.mp hi)

/-- Two blocks that read as the same list agree in every cell. -/
theorem eq_of_read_eq {m m' : Mem α} {off off' : Int} {n : Nat} (h : m.read off n = m'.read off' n)
    {i : Nat} (hi : i < n) : m (off + i) = m' (off' + i) := by
  rw [← getElem_read m off n i (by simpa using hi), ← getElem_read m' off' n i (by simpa using hi)]
  simp only [h]

/-- A copied block reads as its source. -/
theorem read_copyFrom (m : Mem α) (dst : Int) (o : Mem α) (src : Int) {n k : Nat} (h : k ≤ n) :
    (copyFrom m dst o src n).read dst k = o.read src k := by
  apply read_congr
  intro i hi
  rw [copyFrom_apply, if_pos (by omega)]
  congr 1
  omega

/-- A list is what a block reads as soon as its cells agree with it. -/
theorem read_eq_iff (m : Mem α) (off : Int) (l : List α) :
    m.read off l.length = l ↔ ∀ (i : Nat) (h : i < l.length), m (off + i) = l[i] := by
  constructor
  · intro h i hi
    have := getElem_read m off l.length i (by simpa using hi)
    simp only [h] at this
    exact this.symm
  · intro h
    apply List.ext_getElem (by simp)
    intro i h1 h2
    rw [getElem_read, h i h2]

end Mem

end ForStd
