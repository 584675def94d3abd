import SoreOS.ForStd.Mem
import Mathlib.Data.Nat.Basic
import Mathlib.Tactic.Ring

/-!
# Little-endian numbers in memory

Numbers of `n` bytes, least significant byte first, read from and written to a
byte-addressed memory.

## Key results

- `Mem.loadLE_storeLE`: a stored number is loaded back, cut to its width
- `Mem.loadLE_storeLE_disjoint`: a store elsewhere does not change a load
- `Mem.storeLE_outside`: a store writes nothing outside its bytes
-/

namespace ForStd.Mem

/-- The number in the `n` bytes from address `a` on. -/
def loadLE (m : Mem UInt8) (a : Int) : Nat → Nat
  | 0 => 0
  | n + 1 => (m a).toNat + 256 * loadLE m (a + 1) n

/-- Write `v` to the `n` bytes from address `a` on. -/
def storeLE (m : Mem UInt8) (a : Int) : Nat → Nat → Mem UInt8
  | 0, _ => m
  | n + 1, v => storeLE (m.set a (UInt8.ofNat v)) (a + 1) n (v / 256)

theorem storeLE_outside (m : Mem UInt8) (a : Int) (n v : Nat) {b : Int} (h : b < a ∨ a + n ≤ b) :
    m.storeLE a n v b = m b := by
  induction n generalizing m a v with
  | zero => rfl
  | succ n ih =>
    simp only [storeLE]
    rw [ih _ _ _ (by omega), set_other _ _ (by omega)]

theorem loadLE_congr {m m' : Mem UInt8} {a a' : Int} {n : Nat}
    (h : ∀ i < n, m (a + (i : Nat)) = m' (a' + (i : Nat))) : m.loadLE a n = m'.loadLE a' n := by
  induction n generalizing a a' with
  | zero => rfl
  | succ n ih =>
    have hfirst := h 0 (by omega)
    simp only [Int.natCast_zero, Int.add_zero] at hfirst
    have hrest : m.loadLE (a + 1) n = m'.loadLE (a' + 1) n := by
      apply ih
      intro i hi
      have := h (i + 1) (by omega)
      push_cast at this
      rwa [show a + (i + 1 : Int) = a + 1 + i from by omega,
        show a' + (i + 1 : Int) = a' + 1 + i from by omega] at this
    simp only [loadLE, hfirst, hrest]

theorem loadLE_lt (m : Mem UInt8) (a : Int) (n : Nat) : m.loadLE a n < 256 ^ n := by
  induction n generalizing a with
  | zero => simp [loadLE]
  | succ n ih =>
    have hbyte := (m a).toNat_lt
    have hrest := ih (a + 1)
    simp only [loadLE, Nat.pow_succ]
    omega

/-- The high bytes are a number of their own. -/
theorem loadLE_add (m : Mem UInt8) (a : Int) (n k : Nat) :
    m.loadLE a (n + k) = m.loadLE a n + 256 ^ n * m.loadLE (a + n) k := by
  induction n generalizing a with
  | zero => simp [loadLE]
  | succ n ih =>
    rw [Nat.succ_add, loadLE, loadLE, ih, Nat.pow_succ, show a + 1 + (n : Int) = a + (n + 1 : Nat) from by omega]
    ring

/-- Equal numbers have equal bytes. -/
theorem eq_of_loadLE_eq {m m' : Mem UInt8} {a a' : Int} {n : Nat} (h : m.loadLE a n = m'.loadLE a' n) {i : Nat}
    (hi : i < n) : m (a + i) = m' (a' + i) := by
  induction n generalizing a a' i with
  | zero => exact absurd hi (Nat.not_lt_zero i)
  | succ n ih =>
    have hlow := (m a).toNat_lt
    have hlow' := (m' a').toNat_lt
    simp only [loadLE] at h
    cases i with
    | zero =>
      rw [Int.natCast_zero, Int.add_zero, Int.add_zero]
      exact UInt8.toNat_inj.mp (by omega)
    | succ i =>
      have hrest := @ih (a + 1) (a' + 1) (by omega) i (Nat.lt_of_succ_lt_succ hi)
      rwa [show a + 1 + (i : Int) = a + (i + 1 : Nat) from by omega,
        show a' + 1 + (i : Int) = a' + (i + 1 : Nat) from by omega] at hrest

/-- A number is zero exactly when its bytes are. -/
theorem loadLE_eq_zero_iff (m : Mem UInt8) (a : Int) (n : Nat) :
    m.loadLE a n = 0 ↔ ∀ i < n, m (a + (i : Nat)) = 0 := by
  induction n generalizing a with
  | zero => simp [loadLE]
  | succ n ih =>
    have hsum : (m a).toNat + 256 * m.loadLE (a + 1) n = 0 ↔ m a = 0 ∧ m.loadLE (a + 1) n = 0 := by
      rw [← UInt8.toNat_inj, UInt8.toNat_zero]
      omega
    rw [loadLE, hsum, ih, Nat.forall_lt_succ_left']
    simp only [Int.natCast_zero, Int.add_zero, Int.natCast_add, Int.natCast_one, and_congr_right_iff]
    intro _
    apply forall_congr'
    intro i
    rw [show a + 1 + (i : Int) = a + ((i : Int) + 1) from by omega]

/-- The number whose bytes are the digits of `v`. -/
theorem loadLE_digits {m : Mem UInt8} {a : Int} {n v : Nat}
    (h : ∀ i < n, m (a + (i : Nat)) = UInt8.ofNat (v / 256 ^ i)) : m.loadLE a n = v % 256 ^ n := by
  induction n generalizing a v with
  | zero => simp [loadLE, Nat.mod_one]
  | succ n ih =>
    have hlow := h 0 (by omega)
    rw [Int.natCast_zero, Int.add_zero, Nat.pow_zero, Nat.div_one] at hlow
    have hrest : m.loadLE (a + 1) n = v / 256 % 256 ^ n := by
      apply ih
      intro i hi
      have := h (i + 1) (by omega)
      rw [Nat.pow_succ', ← Nat.div_div_eq_div_mul] at this
      rw [← this]
      congr 1
      push_cast
      omega
    rw [loadLE, hlow, hrest, Nat.pow_succ, Nat.mul_comm (256 ^ n), Nat.mod_mul]
    simp

/-- What was stored is loaded back, up to the width of the field. -/
theorem loadLE_storeLE (m : Mem UInt8) (a : Int) (n v : Nat) :
    (m.storeLE a n v).loadLE a n = v % 256 ^ n := by
  induction n generalizing m a v with
  | zero => simp [loadLE, Nat.mod_one]
  | succ n ih =>
    have hlow : (m.storeLE a (n + 1) v) a = UInt8.ofNat v := by
      simp only [storeLE]
      rw [storeLE_outside _ _ _ _ (by omega), set_same]
    have hrest : (m.storeLE a (n + 1) v).loadLE (a + 1) n = v / 256 % 256 ^ n := ih _ _ _
    rw [loadLE, hlow, hrest, Nat.pow_succ, Nat.mul_comm (256 ^ n), Nat.mod_mul]
    simp

/-- A store to other bytes does not change a load. -/
theorem loadLE_storeLE_disjoint (m : Mem UInt8) {a b : Int} {n k : Nat} (v : Nat)
    (h : a + n ≤ b ∨ b + k ≤ a) : (m.storeLE b k v).loadLE a n = m.loadLE a n := by
  apply loadLE_congr
  intro i hi
  exact storeLE_outside _ _ _ _ (by omega)

end ForStd.Mem
