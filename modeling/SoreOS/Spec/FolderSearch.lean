import SoreOS.Native.LoaderSearch
import SoreOS.ForStd.Halting
import SoreOS.Spec.LoaderRun

/-!
# The search of the loader

`find_file` compares records until one begins with 0 or has the name that is searched for.
It is not told how many records were loaded, so a full folder is searched on into the
memory behind it.

## Key results

- `record_passed`, `record_named`, `record_ends`: a round of the outer loop
- `findsFile_iff`: when the search is right
- `not_findsFile`: a full folder with an old record behind it
- `load_findsFile`: a folder with an end mark, from the disk to its search
-/

namespace SoreOS.Boot

open ForStd StateTransition

/-! ## Records in memory -/

theorem add_ofNat_add (a : Word) (i j : Nat) : a + BitVec.ofNat 16 i + BitVec.ofNat 16 j = a + BitVec.ofNat 16 (i + j) := by
  rw [BitVec.ofNat_add, BitVec.add_assoc]

/-- The address of a record of the folder at `bx`. -/
def recordAddress (bx : Word) (i : Nat) : Word := bx + BitVec.ofNat 16 (32 * i)

theorem recordAddress_succ (bx : Word) (i : Nat) : recordAddress bx i + 32 = recordAddress bx (i + 1) :=
  add_ofNat_add bx (32 * i) 32

/-- The cluster number in a record. -/
def recordCluster (m : Bytes) (record : Word) : BitVec 32 :=
  movw m (record + 0x14).toNat ++ movw m (record + 0x1A).toNat

/-- The record marks the end of the folder. -/
def EndsFolder (m : Bytes) (bx : Word) (i : Nat) : Prop := m (recordAddress bx i).toNat = 0

/-- A character of the record's name is that of the template. -/
def SameChar (m : Bytes) (bx si : Word) (i j : Nat) : Prop :=
  m (recordAddress bx i + BitVec.ofNat 16 j).toNat = m (si + BitVec.ofNat 16 j).toNat

/-- The first 11 bytes of the record are the template. -/
def HasName (m : Bytes) (bx si : Word) (i : Nat) : Prop := ∀ j < 11, SameChar m bx si i j

instance (m : Bytes) (bx : Word) (i : Nat) : Decidable (EndsFolder m bx i) := inferInstanceAs (Decidable (_ = _))

instance (m : Bytes) (bx si : Word) (i j : Nat) : Decidable (SameChar m bx si i j) := inferInstanceAs (Decidable (_ = _))

instance (m : Bytes) (bx si : Word) (i : Nat) : Decidable (HasName m bx si i) :=
  inferInstanceAs (Decidable (∀ j < 11, SameChar m bx si i j))

/-- The search goes on behind the record. -/
def Passes (m : Bytes) (bx si : Word) (i : Nat) : Prop := ¬ EndsFolder m bx i ∧ ¬ HasName m bx si i

instance (m : Bytes) (bx si : Word) (i : Nat) : Decidable (Passes m bx si i) := inferInstanceAs (Decidable (_ ∧ _))

/-- The record is the first one with the name, and no record up to it marks the end. -/
structure IsFile (m : Bytes) (bx si : Word) (i : Nat) : Prop where
  before : ∀ j < i, Passes m bx si j
  goes : ¬ EndsFolder m bx i
  named : HasName m bx si i

/-! ## The steps -/

/-- The stack inside the outer loop, for a call from the state `c`. -/
structure InRecord (c : Find) (i : Nat) (l : FindLabel) (s : Find) : Prop where
  label : s.label = l
  stack : s.stack = c.si :: recordAddress c.bx i :: c.bx :: c.cx :: c.stack

/-- The state before a record. -/
structure AtFile (c : Find) (i : Nat) (s : Find) : Prop where
  label : s.label = .file
  bx : s.bx = recordAddress c.bx i
  si : s.si = c.si
  stack : s.stack = c.bx :: c.cx :: c.stack

/-- The state before a character of its name. -/
structure AtChar (c : Find) (i j : Nat) (s : Find) : Prop extends InRecord c i .char s where
  bx : s.bx = recordAddress c.bx i + BitVec.ofNat 16 j
  si : s.si = c.si + BitVec.ofNat 16 j
  cx : s.cx = BitVec.ofNat 16 j

/-- The state after the call. -/
structure Returned (m : Bytes) (c : Find) (i : Nat) (carry : Bool) (s : Find) : Prop where
  label : s.label = .returned
  bx : s.bx = c.bx
  cx : s.cx = c.cx
  si : s.si = c.si
  stack : s.stack = c.stack
  carry : s.carry = carry
  cluster : s.dx ++ s.ax = recordCluster m (recordAddress c.bx i)

section Steps

variable {m : Bytes} {c s : Find} {i j : Nat}

theorem find_file_enters (m : Bytes) (c : Find) :
    ∃ t, find_file m { c with label := .findFile } = some t ∧ AtFile c 0 t := by
  refine ⟨_, rfl, rfl, ?_, rfl, rfl⟩
  rw [recordAddress, Nat.mul_zero]
  exact (BitVec.add_zero _).symm

theorem find_file_ends (h : AtFile c i s) (hend : EndsFolder m c.bx i) :
    ∃ t, find_file m s = some t ∧ InRecord c i .notFound t := by
  have hzero : m s.bx.toNat = 0 := by rw [h.bx]; exact hend
  simp only [find_file, h.label, hzero, if_true]
  exact ⟨_, rfl, rfl, by rw [h.si, h.bx, h.stack]⟩

theorem find_file_begins (h : AtFile c i s) (hgoes : ¬ EndsFolder m c.bx i) :
    ∃ t, find_file m s = some t ∧ AtChar c i 0 t := by
  have hzero : m s.bx.toNat ≠ 0 := by rw [h.bx]; exact hgoes
  simp only [find_file, h.label, hzero, if_false]
  exact ⟨_, rfl, ⟨rfl, by rw [h.si, h.bx, h.stack]⟩, by rw [h.bx]; exact (BitVec.add_zero _).symm,
    by rw [h.si]; exact (BitVec.add_zero _).symm, rfl⟩

/-- The bytes that are compared. -/
theorem AtChar.xor_eq_zero_iff (h : AtChar c i j s) :
    m s.bx.toNat ^^^ m s.si.toNat = 0 ↔ SameChar m c.bx c.si i j := by
  rw [UInt8.xor_eq_zero_iff, h.bx, h.si]
  exact Iff.rfl

theorem find_file_differs (h : AtChar c i j s) (hne : ¬ SameChar m c.bx c.si i j) :
    ∃ t, find_file m s = some t ∧ InRecord c i .next t := by
  have hxor : m s.bx.toNat ^^^ m s.si.toNat ≠ 0 := mt h.xor_eq_zero_iff.mp hne
  simp only [find_file, h.label, ne_eq, hxor, not_false_eq_true, if_true]
  exact ⟨_, rfl, rfl, h.stack⟩

theorem find_file_equal (h : AtChar c i j s) (heq : SameChar m c.bx c.si i j) (hj : j < 10) :
    ∃ t, find_file m s = some t ∧ AtChar c i (j + 1) t := by
  have hxor : m s.bx.toNat ^^^ m s.si.toNat = 0 := h.xor_eq_zero_iff.mpr heq
  have hcx : s.cx ≠ 10 := by
    rw [h.cx]
    intro hten
    have hnat := congrArg BitVec.toNat hten
    rw [BitVec.toNat_ofNat] at hnat
    simp at hnat
    omega
  simp only [find_file, h.label, hxor, ne_eq, not_true_eq_false, hcx, if_false]
  refine ⟨_, rfl, ⟨rfl, h.stack⟩, ?_, ?_, ?_⟩
  · rw [h.bx]
    exact add_ofNat_add _ j 1
  · rw [h.si]
    exact add_ofNat_add _ j 1
  · rw [h.cx]
    exact (BitVec.ofNat_add j 1).symm

theorem find_file_last (h : AtChar c i 10 s) (heq : SameChar m c.bx c.si i 10) :
    ∃ t, find_file m s = some t ∧ InRecord c i .found t ∧ t.carry = false := by
  have hxor : m s.bx.toNat ^^^ m s.si.toNat = 0 := h.xor_eq_zero_iff.mpr heq
  simp only [find_file, h.label, hxor, ne_eq, not_true_eq_false, h.cx, if_false]
  exact ⟨_, if_pos rfl, ⟨rfl, h.stack⟩, rfl⟩

theorem find_file_next (h : InRecord c i .next s) : ∃ t, find_file m s = some t ∧ AtFile c (i + 1) t := by
  simp only [find_file, h.label, h.stack]
  exact ⟨_, rfl, rfl, recordAddress_succ _ _, rfl, rfl⟩

theorem find_file_notFound (h : InRecord c i .notFound s) :
    ∃ t, find_file m s = some t ∧ InRecord c i .found t ∧ t.carry = true := by
  simp only [find_file, h.label]
  exact ⟨_, rfl, ⟨rfl, h.stack⟩, rfl⟩

/-- Whatever has been pushed is popped again. -/
theorem find_file_returns (h : InRecord c i .found s) : ∃ t, find_file m s = some t ∧ Returned m c i s.carry t := by
  simp only [find_file, h.label, h.stack]
  exact ⟨_, rfl, rfl, rfl, rfl, rfl, rfl, rfl, rfl⟩

/-! ## Rounds -/

/-- The first characters of a name are compared as long as they are equal. -/
theorem chars_reached (h : AtFile c i s) (hgoes : ¬ EndsFolder m c.bx i) (hj : j ≤ 10)
    (heq : ∀ k < j, SameChar m c.bx c.si i k) : ∃ t, Reaches₁ (find_file m) s t ∧ AtChar c i j t := by
  have hround : ∀ k < j, ∀ u, AtChar c i k u → ∃ v, Reaches (find_file m) u v ∧ AtChar c i (k + 1) v := by
    intro k hk u hu
    obtain ⟨v, hv, hnext⟩ := find_file_equal hu (heq k hk) (by omega)
    exact ⟨v, reaches_step hv, hnext⟩
  obtain ⟨s₁, hstep, hs₁⟩ := find_file_begins h hgoes
  obtain ⟨t, hreach, ht⟩ := reaches_loop hround hs₁
  exact ⟨t, .head' hstep hreach, ht⟩

/-- A record that is not the end and has another name. -/
theorem record_passed (h : AtFile c i s) (hpass : Passes m c.bx c.si i) :
    ∃ t, Reaches₁ (find_file m) s t ∧ AtFile c (i + 1) t := by
  obtain ⟨hgoes, hname⟩ := hpass
  have hdiff : ∃ j, j < 11 ∧ ¬ SameChar m c.bx c.si i j := by
    simpa only [HasName, not_forall, exists_prop] using hname
  obtain ⟨j, hj, hne⟩ := hdiff
  -- the first character that is different
  obtain ⟨k, hk, heq, hne'⟩ := exists_first_not hne
  obtain ⟨s₁, hreach, hs₁⟩ := chars_reached h hgoes (by omega) heq
  obtain ⟨s₂, hstep, hs₂⟩ := find_file_differs hs₁ hne'
  obtain ⟨t, hnext, ht⟩ := find_file_next hs₂
  exact ⟨t, (hreach.tail hstep).tail hnext, ht⟩

theorem record_named (h : AtFile c i s) (hgoes : ¬ EndsFolder m c.bx i) (hname : HasName m c.bx c.si i) :
    ∃ t, Reaches (find_file m) s t ∧ Returned m c i false t := by
  obtain ⟨s₁, hreach, hs₁⟩ := chars_reached h hgoes (Nat.le_refl 10) fun k hk => hname k (by omega)
  obtain ⟨s₂, hstep, hs₂, hcarry⟩ := find_file_last hs₁ (hname 10 (by omega))
  obtain ⟨t, hret, ht⟩ := find_file_returns (m := m) hs₂
  rw [hcarry] at ht
  exact ⟨t, ((hreach.tail hstep).tail hret).to_reflTransGen, ht⟩

theorem record_ends (h : AtFile c i s) (hend : EndsFolder m c.bx i) :
    ∃ t, Reaches (find_file m) s t ∧ Returned m c i true t := by
  obtain ⟨s₁, hstep, hs₁⟩ := find_file_ends h hend
  obtain ⟨s₂, herror, hs₂, hcarry⟩ := find_file_notFound (m := m) hs₁
  obtain ⟨t, hret, ht⟩ := find_file_returns (m := m) hs₂
  rw [hcarry] at ht
  exact ⟨t, ((reaches_step hstep).tail herror).tail hret, ht⟩

end Steps

/-! ## The search -/

section Search

variable (m : Bytes) (c : Find)

/-- The search gets to a record if it goes on behind all records before it. -/
theorem file_reached {i : Nat} (hpass : ∀ j < i, Passes m c.bx c.si j) :
    ∃ t, Reaches (find_file m) { c with label := .findFile } t ∧ AtFile c i t := by
  have hround : ∀ j < i, ∀ u, AtFile c j u → ∃ v, Reaches (find_file m) u v ∧ AtFile c (j + 1) v := by
    intro j hj u hu
    obtain ⟨v, hv, hnext⟩ := record_passed hu (hpass j hj)
    exact ⟨v, hv.to_reflTransGen, hnext⟩
  obtain ⟨s, hstep, hs⟩ := find_file_enters m c
  obtain ⟨t, hreach, ht⟩ := reaches_loop hround hs
  exact ⟨t, (reaches_step hstep).trans hreach, ht⟩

/-- The search ends with the first record that makes it return. -/
theorem search_returns {i : Nat} {carry : Bool} (hpass : ∀ j < i, Passes m c.bx c.si j)
    (hrecord : ∀ s, AtFile c i s → ∃ t, Reaches (find_file m) s t ∧ Returned m c i carry t) :
    ∃ t ∈ eval (find_file m) { c with label := .findFile }, Returned m c i carry t := by
  obtain ⟨s, hreach, hs⟩ := file_reached m c hpass
  obtain ⟨t, hround, ht⟩ := hrecord s hs
  refine ⟨t, mem_eval.mpr ⟨hreach.trans hround, ?_⟩, ht⟩
  simp only [find_file, ht.label]

/-- It does not end if there is none. -/
theorem search_runs (hpass : ∀ i, Passes m c.bx c.si i) (t : Find) :
    t ∉ eval (find_file m) { c with label := .findFile } := by
  obtain ⟨s, hreach, hs⟩ := file_reached m c (i := 0) fun j hj => absurd hj (Nat.not_lt_zero j)
  rw [reaches_eval hreach]
  refine not_mem_eval_loop (I := fun s => ∃ i, AtFile c i s) ?_ ⟨0, hs⟩
  rintro u ⟨i, hu⟩
  obtain ⟨v, hround, hv⟩ := record_passed hu (hpass i)
  exact ⟨v, hround, i + 1, hv⟩

end Search

/-- `find_file` returns, with the caller's `%bx`, `%cx`, `%si` and stack. If there is such a file among the
    first `count` records, the carry flag is clear and `%dx:%ax` is its cluster; otherwise the flag is set. -/
def FindsFile (m : Bytes) (count : Nat) (c : Find) : Prop :=
  ∃ t ∈ eval (find_file m) { c with label := .findFile }, t.label = .returned ∧ t.bx = c.bx ∧ t.cx = c.cx ∧
    t.si = c.si ∧ t.stack = c.stack ∧
    ((∃ i < count, IsFile m c.bx c.si i ∧ t.carry = false ∧ t.dx ++ t.ax = recordCluster m (recordAddress c.bx i)) ∨
      (∀ i < count, ¬ IsFile m c.bx c.si i) ∧ t.carry = true)

theorem IsFile.unique {m : Bytes} {bx si : Word} {i j : Nat} (hi : IsFile m bx si i) (hj : IsFile m bx si j) : i = j := by
  obtain hlt | heq | hlt := Nat.lt_trichotomy i j
  · exact absurd hi.named (hj.before i hlt).2
  · exact heq
  · exact absurd hj.named (hi.before j hlt).2

/-- The first record that ends the search. -/
theorem exists_first {m : Bytes} {bx si : Word} {i : Nat} (hstop : ¬ Passes m bx si i) :
    ∃ k ≤ i, (∀ j < k, Passes m bx si j) ∧ (EndsFolder m bx k ∨ IsFile m bx si k) := by
  obtain ⟨k, hk, hpass, hstop'⟩ := exists_first_not hstop
  refine ⟨k, hk, hpass, ?_⟩
  by_cases hend : EndsFolder m bx k
  · exact .inl hend
  · exact .inr ⟨hpass, hend, not_not.mp fun hname => hstop' ⟨hend, hname⟩⟩

/-- No file lies behind the end of the folder. -/
theorem not_isFile_of_ends {m : Bytes} {bx si : Word} {i : Nat} (hpass : ∀ j < i, Passes m bx si j)
    (hend : EndsFolder m bx i) (k : Nat) : ¬ IsFile m bx si k := by
  intro hk
  obtain hlt | heq | hlt := Nat.lt_trichotomy i k
  · exact (hk.before i hlt).1 hend
  · exact hk.goes (heq ▸ hend)
  · exact (hpass k hlt).2 hk.named

theorem findsFile_of_ends {m : Bytes} {c : Find} {i : Nat} (hpass : ∀ j < i, Passes m c.bx c.si j)
    (hend : EndsFolder m c.bx i) (count : Nat) : FindsFile m count c := by
  obtain ⟨t, hmem, ht⟩ := search_returns m c hpass fun _ hs => record_ends hs hend
  exact ⟨t, hmem, ht.label, ht.bx, ht.cx, ht.si, ht.stack,
    .inr ⟨fun k _ => not_isFile_of_ends hpass hend k, ht.carry⟩⟩

/-- If the first record that ends the search has the name, it has to be a loaded one. -/
theorem findsFile_iff_lt {m : Bytes} {c : Find} {i : Nat} (hfile : IsFile m c.bx c.si i) (count : Nat) :
    FindsFile m count c ↔ i < count := by
  obtain ⟨t, hmem, ht⟩ := search_returns m c hfile.before fun _ hs => record_named hs hfile.goes hfile.named
  constructor
  · intro h
    obtain ⟨t', hmem', -, -, -, -, -, hresult⟩ := h
    obtain rfl := Part.mem_unique hmem hmem'
    obtain ⟨k, hk, hfile', -⟩ | ⟨-, hcarry⟩ := hresult
    · rwa [hfile.unique hfile']
    · exact absurd (ht.carry.symm.trans hcarry) Bool.false_ne_true
  · intro hi
    exact ⟨t, hmem, ht.label, ht.bx, ht.cx, ht.si, ht.stack, .inl ⟨i, hi, hfile, ht.carry, ht.cluster⟩⟩

/-- The search is right exactly if the first record that marks the end or has the name does mark the end, or was
    loaded. -/
theorem findsFile_iff (m : Bytes) (count : Nat) (c : Find) :
    FindsFile m count c ↔ ∃ i, (∀ j < i, Passes m c.bx c.si j) ∧
      (EndsFolder m c.bx i ∨ i < count ∧ HasName m c.bx c.si i) := by
  constructor
  · intro hfinds
    have hstops : ∃ i, ¬ Passes m c.bx c.si i := by
      obtain ⟨t, hmem, -⟩ := hfinds
      by_contra hnone
      exact search_runs m c (fun i => not_not.mp fun hi => hnone ⟨i, hi⟩) t hmem
    obtain ⟨_, hstop⟩ := hstops
    obtain ⟨i, -, hpass, hend | hfile⟩ := exists_first hstop
    · exact ⟨i, hpass, .inl hend⟩
    · exact ⟨i, hpass, .inr ⟨(findsFile_iff_lt hfile count).mp hfinds, hfile.named⟩⟩
  · intro h
    obtain ⟨i, hpass, hstop⟩ := h
    by_cases hend : EndsFolder m c.bx i
    · exact findsFile_of_ends hpass hend count
    · obtain ⟨hi, hname⟩ := hstop.resolve_left hend
      exact (findsFile_iff_lt ⟨hpass, hend, hname⟩ count).mpr hi

/-- The bytes of `KERNEL_NAME`. -/
def kernelName : List UInt8 := [75, 69, 82, 78, 69, 76, 32, 32, 83, 89, 83]

/-- A full cluster of other records, and a record with the name behind it; the template is at `0x7F00`. -/
def fullFolder : Bytes := fun a =>
  if 0x7F00 ≤ a ∧ a < 0x7F0B then kernelName.getD (a - 0x7F00).toNat 0
  else if 0x8200 ≤ a ∧ a < 0x8A00 then 0x41
  else if 0x8A00 ≤ a ∧ a < 0x8A0B then kernelName.getD (a - 0x8A00).toNat 0
  else 0

theorem not_findsFile : ¬ FindsFile fullFolder 64 ⟨.findFile, 0, 0x8200, 0, 0, 0x7F00, false, []⟩ := by
  have hfile : IsFile fullFolder 0x8200 0x7F00 64 := ⟨by decide +kernel, by decide, by decide⟩
  rw [findsFile_iff_lt hfile]
  exact Nat.lt_irrefl 64

/-! ## Loaded folders -/

theorem recordAddress_toNat {i j : Nat} (h : 32 * i + j < 0x7E00) :
    (recordAddress 0x8200 i + BitVec.ofNat 16 j).toNat = 0x8200 + 32 * i + j := by
  rw [recordAddress, add_ofNat_add, BitVec.toNat_add, BitVec.toNat_ofNat]
  show (0x8200 + (32 * i + j) % 65536) % 65536 = _
  omega

/-- Where a record of the file that begins at a cluster is on the disk. -/
def recordOnDisk (disk : Bytes) (hdr : FAT32_HEADER) (start : BitVec 32) (i : Nat) : Int :=
  (clusterLBA hdr (clusterAt disk hdr start (i / 64))).toNat * 512 + 32 * (i % 64 : Nat)

/-- The records of the loaded clusters are those of the disk. -/
theorem record_placed {m disk : Bytes} {hdr : FAT32_HEADER} {start : BitVec 32} {n : Nat} (hn : n ≤ 15)
    (hplaced : ∀ i < n, PlacedAt m disk hdr (clusterAt disk hdr start i) i) {i j : Nat} (hi : i < 64 * n) (hj : j < 32) :
    m (recordAddress 0x8200 i + BitVec.ofNat 16 j).toNat = disk (recordOnDisk disk hdr start i + j) := by
  rw [recordAddress_toNat (by omega)]
  have hbyte := hplaced (i / 64) (by omega) (32 * (i % 64 : Nat) + j) (by omega) (by omega)
  rw [recordOnDisk, Int.add_assoc, ← hbyte]
  congr 1
  omega

/-- An end mark among the first records makes the search right. -/
theorem findsFile_of_endMark {m : Bytes} {c : Find} {count i : Nat} (hi : i < count) (hend : EndsFolder m c.bx i) :
    FindsFile m count c := by
  obtain ⟨k, hk, hpass, hend' | hfile⟩ := exists_first fun hpass : Passes m c.bx c.si i => hpass.1 hend
  · exact findsFile_of_ends hpass hend' count
  · exact (findsFile_iff_lt hfile count).mpr (Nat.lt_of_le_of_lt hk hi)

/-- A folder of up to 15 clusters with an end mark is loaded, and any name is searched for as it should be. -/
theorem load_findsFile {b : Bios} {hdr : FAT32_HEADER} (h4 : FourSectors hdr) (hgood : ∀ n, b.succeeds n = true)
    {m : Bytes} (hm : HoldsHeader m hdr) {ax dx : Word} {n : Nat} (hn : n ≤ 15)
    (hchain : HasClusters b.disk hdr (dx ++ ax) n) {i : Nat} (hi : i < 64 * n)
    (hend : b.disk (recordOnDisk b.disk hdr (dx ++ ax) i) = 0) :
    ∃ rounds s, load_file b rounds ax dx 0x8200 ⟨m, []⟩ = .returned false s ∧
      ∀ c : Find, c.bx = 0x8200 → FindsFile s.mem (64 * n) c := by
  obtain ⟨k, rfl⟩ := Nat.exists_eq_add_one_of_ne_zero (Nat.ne_of_gt hchain.pos)
  obtain ⟨s, hafter, hrun⟩ := load_file_end h4 hgood hm rfl (by omega) (fun j hj => hchain.goes j (by omega)) hchain.ends
  refine ⟨_, s, hrun, fun c hbx => findsFile_of_endMark hi ?_⟩
  have hbyte := record_placed hn (hafter.placed hn) hi (j := 0) (by omega)
  rw [hbx, EndsFolder, ← hend, ← Int.add_zero (recordOnDisk _ _ _ _)]
  rw [show BitVec.ofNat 16 0 = 0#16 from rfl, BitVec.add_zero] at hbyte
  exact hbyte

end SoreOS.Boot
