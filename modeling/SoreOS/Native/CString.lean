import SoreOS.ForStd.Mem

/-!
# Integers, kernel arrays and `string.h`

C's `int`, the kernel's fixed-size arrays with their bounds, and `memcpy` and `memset` as
the loops of `libc/string`. An object that a pointer argument points into is a
`Mem UInt8`; a call whose two pointers point into the same memory is `memcpy`,
one between two objects `memcpyObj`.
-/

namespace SoreOS

open ForStd

/-- Byte-addressed memory. -/
abbrev Bytes := Mem UInt8

/-- `'\n'`. -/
def NEWLINE : UInt8 := 10

/-- `' '`. -/
def SPACE : UInt8 := 32

/-- The value an `int` gets from a number: the low 32 bits, in two's complement. -/
def toInt (n : Int) : Int := n.bmod 4294967296

theorem toInt_eq {n : Int} (h : -2147483648 ≤ n) (h' : n < 2147483648) : toInt n = n :=
  Int.bmod_eq_of_le (by omega) (by omega)

/-- An `int` has 32 bits. -/
theorem toInt_range (n : Int) : -2147483648 ≤ toInt n ∧ toInt n < 2147483648 := by
  rw [toInt, Int.bmod_def]
  omega

/-! ## Arrays -/

/-- The arrays whose indices are computed at run time; `buffer n` is any other one of `n` bytes, as a pointer
    may lead to. -/
inductive Obj where
  | tempBuffer
  | inputBuffer
  | normCharset
  | shiftCharset
  | sector
  | FATBuffer
  | ClusterBuffer
  | clusters
  | longName
  | sysPath
  | buffer (n : Nat)
  deriving DecidableEq, Repr

/-- Number of elements of an array; `FATBuffer` is counted in bytes, and `sector` is
    the local buffer of `loadFileSystem`. -/
def Obj.size : Obj → Int
  | .tempBuffer => 2048
  | .inputBuffer => 2048
  | .normCharset => 90
  | .shiftCharset => 90
  | .sector => 512
  | .FATBuffer => 512
  | .ClusterBuffer => 2048
  | .clusters => 8
  | .longName => 105
  | .sysPath => 256
  | .buffer n => n

/-- An access outside an array. C leaves what happens then undefined. -/
structure Fault where
  obj : Obj
  index : Int
  deriving DecidableEq, Repr

/-- `o[i]` -/
def load {α : Type} (o : Obj) (m : Mem α) (i : Int) : Except Fault α :=
  if 0 ≤ i ∧ i < o.size then .ok (m i) else .error ⟨o, i⟩

/-- `o[i] = v` -/
def store {α : Type} (o : Obj) (m : Mem α) (i : Int) (v : α) : Except Fault (Mem α) :=
  if 0 ≤ i ∧ i < o.size then .ok (m.set i v) else .error ⟨o, i⟩

theorem load_ok {α : Type} {o : Obj} {i : Int} (m : Mem α) (h : 0 ≤ i) (h' : i < o.size) :
    load o m i = .ok (m i) := if_pos ⟨h, h'⟩

theorem store_ok {α : Type} {o : Obj} {i : Int} (m : Mem α) (v : α) (h : 0 ≤ i) (h' : i < o.size) :
    store o m i v = .ok (m.set i v) := if_pos ⟨h, h'⟩

theorem load_eq_ok {α : Type} {o : Obj} {m : Mem α} {i : Int} {v : α} (h : load o m i = .ok v) :
    0 ≤ i ∧ i < o.size ∧ v = m i := by
  by_cases hin : 0 ≤ i ∧ i < o.size
  · rw [load_ok m hin.1 hin.2] at h
    exact ⟨hin.1, hin.2, (Except.ok.inj h).symm⟩
  · rw [load, if_neg hin] at h
    exact nomatch h

theorem store_eq_ok {α : Type} {o : Obj} {m m' : Mem α} {i : Int} {v : α} (h : store o m i v = .ok m') :
    0 ≤ i ∧ i < o.size ∧ m' = m.set i v := by
  by_cases hin : 0 ≤ i ∧ i < o.size
  · rw [store_ok m v hin.1 hin.2] at h
    exact ⟨hin.1, hin.2, (Except.ok.inj h).symm⟩
  · rw [store, if_neg hin] at h
    exact nomatch h

/-- An element-wise copying loop from array `src` to array `dst`, `n` rounds. -/
def copyArray {α : Type} (dst : Obj) (m : Mem α) (di : Int) (src : Obj) (m' : Mem α) (si : Int) :
    Nat → Except Fault (Mem α)
  | 0 => .ok m
  | n + 1 => do
    let m ← copyArray dst m di src m' si n
    let b ← load src m' (si + n)
    store dst m (di + n) b

/-- Inside the bounds of both arrays the loop copies the block. -/
theorem copyArray_ok {α : Type} (dst : Obj) (m : Mem α) (di : Int) (src : Obj) (m' : Mem α)
    (si : Int) {n : Nat}
    (hd : 0 ≤ di) (hd' : di + n ≤ dst.size) (hs : 0 ≤ si) (hs' : si + n ≤ src.size) :
    copyArray dst m di src m' si n = .ok (m.copyFrom di m' si n) := by
  induction n with
  | zero => rfl
  | succ n ih =>
    have hload := load_ok (o := src) (i := si + n) m' (by omega) (by omega)
    have hstore := store_ok (o := dst) (i := di + n) (m.copyFrom di m' si n) (m' (si + n))
      (by omega) (by omega)
    simp only [copyArray, bind, Except.bind, ih (by omega) (by omega), hload, hstore]
    rfl

/-- It runs through only inside these bounds. -/
theorem copyArray_bounds {α : Type} {dst src : Obj} {m m' m'' : Mem α} {di si : Int} {n : Nat}
    (h : copyArray dst m di src m' si n = .ok m'') (hn : 0 < n) :
    0 ≤ di ∧ di + n ≤ dst.size ∧ 0 ≤ si ∧ si + n ≤ src.size := by
  induction n generalizing m'' with
  | zero => exact absurd hn (Nat.lt_irrefl 0)
  | succ n ih =>
    simp only [copyArray, bind, Except.bind] at h
    split at h
    · exact nomatch h
    · rename_i m₁ hcopy
      split at h
      · exact nomatch h
      · rename_i b hload
        obtain ⟨hs, hs', -⟩ := load_eq_ok hload
        obtain ⟨hd, hd', -⟩ := store_eq_ok h
        -- the first round, or the rounds in front of the last one
        obtain rfl | hpos := Nat.eq_zero_or_pos n
        · omega
        · obtain ⟨hdi, -, hsi, -⟩ := ih hcopy hpos
          omega

/-- An element-wise move inside array `o`, ascending, `n` rounds. -/
def moveArray {α : Type} (o : Obj) (m : Mem α) (di si : Int) : Nat → Except Fault (Mem α)
  | 0 => .ok m
  | n + 1 => do
    let m ← moveArray o m di si n
    let b ← load o m (si + n)
    store o m (di + n) b

/-- Inside the bounds of the array the loop is the ascending copy. -/
theorem moveArray_ok {α : Type} (o : Obj) (m : Mem α) (di si : Int) {n : Nat}
    (hd : 0 ≤ di) (hd' : di + n ≤ o.size) (hs : 0 ≤ si) (hs' : si + n ≤ o.size) :
    moveArray o m di si n = .ok (m.copyUp di si n) := by
  induction n with
  | zero => rfl
  | succ n ih =>
    have hload := load_ok (o := o) (i := si + n) (m.copyUp di si n) (by omega) (by omega)
    have hstore := store_ok (o := o) (i := di + n) (m.copyUp di si n)
      (m.copyUp di si n (si + n)) (by omega) (by omega)
    simp only [moveArray, bind, Except.bind, ih (by omega) (by omega), hload, hstore]
    rfl

/-! ## `memcpy` and `memset` -/

/-- `memcpy(dst, src, size)` within one memory. -/
def memcpy (m : Bytes) (dst src : Int) (size : Nat) : Bytes := m.copyUp dst src size

theorem memcpy_outside (m : Bytes) (dst src : Int) (size : Nat) {a : Int}
    (h : a < dst ∨ dst + size ≤ a) : memcpy m dst src size a = m a :=
  m.copyUp_outside dst src size a h

theorem memcpy_inside (m : Bytes) {dst src : Int} (hle : dst ≤ src) (size : Nat) {a : Int}
    (h : dst ≤ a) (h' : a < dst + size) : memcpy m dst src size a = m (src + (a - dst)) := by
  rw [memcpy, m.copyUp_of_le hle, if_pos ⟨h, h'⟩]

/-- `memcpy(dst, src, size)` where `src` points into another object. -/
def memcpyObj (m : Bytes) (dst : Int) (obj : Bytes) (src : Int) (size : Nat) : Bytes :=
  m.copyFrom dst obj src size

/-- `memset(ptr, val, size)`. -/
def memset (m : Bytes) (ptr : Int) (val : UInt8) (size : Nat) : Bytes := m.fill ptr val size

end SoreOS
