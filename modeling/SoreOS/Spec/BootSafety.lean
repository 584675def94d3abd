import SoreOS.Native.BootLoader
import SoreOS.Spec.FolderSearch

/-!
# How booting ends

What is known when the kernel is called or a message stands on the screen, whatever the disk holds and
whichever of its reads fail.

## Key results

- `Returns.reads`: the reads of a call of `load_file`
- `loads_of_kernel_loader`, `Loads.kernel_loader`: the ends of `kernel_loader`
- `boot_message`: what a message says about the reads
- `enable_a20_iff`: when line A20 is enabled
-/

namespace SoreOS.Boot

open ForStd StateTransition

/-! ## Reads -/

/-- `s'` comes from `s` by reads below the first megabyte and outside the loader's bytes, all of which
    succeed but for the last one if the carry flag is set. -/
structure Reads (b : Bios) (s : Loader) (carry : Bool) (s' : Loader) : Prop where
  log : s.log <+: s'.log
  failed : ∀ i, s.log.length ≤ i → i < s'.log.length →
    (b.succeeds i = false ↔ carry = true ∧ i + 1 = s'.log.length)
  last : carry = true → s.log.length < s'.log.length
  loader : ∀ a, 0x7C00 ≤ a → a < 0x8000 → s'.mem a = s.mem a
  high : ∀ a, 0x100000 ≤ a → s'.mem a = s.mem a

section Reads

variable {b : Bios} {s s₁ s₂ : Loader} {carry : Bool}

theorem Reads.refl (b : Bios) (s : Loader) : Reads b s false s where
  log := List.prefix_refl _
  failed := fun _ hle hlt => absurd hle (Nat.not_le.mpr hlt)
  last := fun h => absurd h Bool.false_ne_true
  loader := fun _ _ _ => rfl
  high := fun _ _ => rfl

theorem Reads.trans (h : Reads b s false s₁) (h' : Reads b s₁ carry s₂) : Reads b s carry s₂ where
  log := h.log.trans h'.log
  failed := by
    intro i hle hlt
    by_cases hi : s₁.log.length ≤ i
    · exact h'.failed i hi hlt
    · -- a read of the first part, which was not the last of all
      have hgood := h.failed i hle (Nat.not_le.mp hi)
      constructor
      · intro hbad
        exact absurd (hgood.mp hbad).1 Bool.false_ne_true
      · intro hlast
        have hlt' := h'.last hlast.1
        omega
  last := fun hcarry => Nat.lt_of_le_of_lt h.log.length_le (h'.last hcarry)
  loader := fun a ha ha' => (h'.loader a ha ha').trans (h.loader a ha ha')
  high := fun a ha => (h'.high a ha).trans (h.high a ha)

/-- A failed read leaves the memory alone, wherever it was to go. -/
theorem load_disk_reads {p : Dap} (hmiss : carry = false → p.hitsLoader = false) (hsize : p.size ≤ 255 * 512)
    (hread : load_disk b s p = (carry, s₁)) : Reads b s carry s₁ := by
  have hlog : s₁.log = s.log ++ [p] := by rw [← load_disk_log b, hread]
  have hlen : s₁.log.length = s.log.length + 1 := by rw [hlog, List.length_append]; rfl
  rw [load_disk] at hread
  by_cases hgood : b.succeeds s.log.length = true
  · rw [if_pos hgood] at hread
    obtain ⟨rfl, rfl⟩ := Prod.mk.inj hread
    refine ⟨List.prefix_append _ _, fun i hle hlt => ?_, fun h => absurd h Bool.false_ne_true,
      fun a ha ha' => Dap.hitsLoader_false (hmiss rfl) _ _ _ ha ha', fun a ha => ?_⟩
    · obtain rfl : i = s.log.length := by omega
      simp [hgood]
    · -- a transfer begins below `0x10000`
      have hdst := p.DAP_DST_LOW.isLt
      have hlt : p.dst < 65536 := hdst
      show memcpyObj s.mem p.dst b.disk (p.lba * 512) p.size a = _
      rw [memcpyObj, Mem.copyFrom_apply, if_neg (by omega)]
  · rw [if_neg hgood] at hread
    obtain ⟨rfl, rfl⟩ := Prod.mk.inj hread
    refine ⟨List.prefix_append _ _, fun i hle hlt => ?_, fun _ => by omega, fun _ _ _ => rfl, fun _ _ => rfl⟩
    obtain rfl : i = s.log.length := by omega
    exact ⟨fun _ => ⟨rfl, hlen.symm⟩, fun _ => Bool.not_eq_true _ ▸ hgood⟩

theorem clusterPacket_size (m : Bytes) (ax dx bx : Word) : (clusterPacket m ax dx bx).size ≤ 255 * 512 := by
  have hlt := (m 0x7E0D).toNat_lt
  show (movb m 0x7E0D).toNat * 512 ≤ 255 * 512
  rw [toNat_movb]
  omega

/-- The packet for the FAT fills the buffer at `0x8000`. -/
theorem fatPacket_buffer {m : Bytes} {ax dx offset : Word} {p : Dap} (h : fatPacket m ax dx = some (p, offset)) :
    p.hitsLoader = false ∧ p.size = 512 := by
  rw [fatPacket, Option.bind_eq_bind, Option.bind_eq_some_iff] at h
  obtain ⟨r, -, hp⟩ := h
  obtain ⟨rfl, -⟩ := Prod.mk.inj (Option.some.inj hp)
  have hsize : (1 : Word).toNat * 512 = 512 := rfl
  refine ⟨?_, hsize⟩
  rw [Dap.hitsLoader, decide_eq_false_iff_not]
  exact fun hhits => Nat.lt_irrefl _ hhits.1

/-! ## Calls of `load_file` -/

/-- A round up to the read of the FAT. -/
structure RoundRead (b : Bios) (ax dx bx : Word) (s : Loader) (p : Dap) (cx : Word) (s₁ : Loader) : Prop where
  cluster : load_disk b s (clusterPacket s.mem ax dx bx) = (false, s₁)
  miss : (clusterPacket s.mem ax dx bx).hitsLoader = false
  packet : fatPacket s₁.mem ax dx = some (p, cx)

/-- The words of the entry in the buffer. -/
def entryLow (m : Bytes) (cx : Word) : Word := movw m (0x8000 + cx).toNat

def entryHigh (m : Bytes) (cx : Word) : Word := movw m (0x8000 + cx + 2).toNat

/-- The calls of `load_file` that return, with the carry flag and the state after them. -/
inductive Returns (b : Bios) : Word → Word → Word → Loader → Bool → Loader → Prop where
  | clusterError {ax dx bx : Word} {s t : Loader} (h : load_disk b s (clusterPacket s.mem ax dx bx) = (true, t)) :
    Returns b ax dx bx s true t
  | fatError {ax dx bx cx : Word} {s s₁ t : Loader} {p : Dap} (hround : RoundRead b ax dx bx s p cx s₁)
    (h : load_disk b s₁ p = (true, t)) : Returns b ax dx bx s true t
  | ends {ax dx bx cx : Word} {s s₁ t : Loader} {p : Dap} (hround : RoundRead b ax dx bx s p cx s₁)
    (h : load_disk b s₁ p = (false, t)) (hend : entryLow t.mem cx = 0xFFFF ∧ entryHigh t.mem cx = 0x0FFF) :
    Returns b ax dx bx s false t
  | next {ax dx bx cx : Word} {s s₁ s₂ t : Loader} {p : Dap} {carry : Bool} (hround : RoundRead b ax dx bx s p cx s₁)
    (h : load_disk b s₁ p = (false, s₂)) (hgoes : ¬ (entryLow s₂.mem cx = 0xFFFF ∧ entryHigh s₂.mem cx = 0x0FFF))
    (hrest : Returns b (entryLow s₂.mem cx) (entryHigh s₂.mem cx) (bx + shl (movb s₂.mem 0x7E62) 0x0200) s₂ carry t) :
    Returns b ax dx bx s carry t

theorem returns_of_load_file {rounds : Nat} {ax dx bx : Word} {t : Loader}
    (h : load_file b rounds ax dx bx s = .returned carry t) : Returns b ax dx bx s carry t := by
  induction rounds generalizing ax dx bx s with
  | zero => cases h
  | succ rounds ih =>
    rw [load_file] at h
    -- the read of the cluster
    generalize hread : load_disk b s (clusterPacket s.mem ax dx bx) = r at h
    obtain ⟨carry₁, s₁⟩ := r
    dsimp only at h
    split at h
    · rename_i hcarry
      subst hcarry
      obtain ⟨rfl, rfl⟩ := Outcome.returned.inj h
      exact .clusterError hread
    split at h
    · cases h
    rename_i hcarry hmiss
    rw [Bool.not_eq_true] at hcarry hmiss
    subst hcarry
    split at h
    · cases h
    rename_i p cx hpacket
    have hround : RoundRead b ax dx bx s p cx s₁ := ⟨hread, hmiss, hpacket⟩
    -- the read of its entry, and whether that is the end mark
    generalize hread' : load_disk b s₁ p = r at h
    obtain ⟨carry₂, s₂⟩ := r
    dsimp only at h
    split at h
    · rename_i hcarry
      subst hcarry
      obtain ⟨rfl, rfl⟩ := Outcome.returned.inj h
      exact .fatError hround hread'
    rename_i hcarry
    rw [Bool.not_eq_true] at hcarry
    subst hcarry
    split at h
    · rename_i hend
      obtain ⟨rfl, rfl⟩ := Outcome.returned.inj h
      exact .ends hround hread' hend
    · rename_i hgoes
      exact .next hround hread' hgoes (ih h)

/-- Rounds that are not needed change nothing. -/
theorem Returns.load_file {ax dx bx : Word} {t : Loader} (h : Returns b ax dx bx s carry t) :
    ∃ n, ∀ rounds ≥ n, load_file b rounds ax dx bx s = .returned carry t := by
  induction h with
  | clusterError h =>
    refine ⟨1, fun rounds hrounds => ?_⟩
    obtain ⟨rounds, rfl⟩ := Nat.exists_eq_add_of_le' hrounds
    simp only [Boot.load_file, h, if_true]
  | fatError hround h =>
    refine ⟨1, fun rounds hrounds => ?_⟩
    obtain ⟨rounds, rfl⟩ := Nat.exists_eq_add_of_le' hrounds
    simp only [Boot.load_file, hround.cluster, hround.miss, hround.packet, h, Bool.false_eq_true, if_true, if_false]
  | ends hround h hend =>
    refine ⟨1, fun rounds hrounds => ?_⟩
    obtain ⟨rounds, rfl⟩ := Nat.exists_eq_add_of_le' hrounds
    simp only [Boot.load_file, hround.cluster, hround.miss, hround.packet, h, Bool.false_eq_true, if_false]
    exact if_pos hend
  | next hround h hgoes _ ih =>
    obtain ⟨n, hn⟩ := ih
    refine ⟨n + 1, fun rounds hrounds => ?_⟩
    obtain ⟨rounds, rfl⟩ := Nat.exists_eq_add_of_le' hrounds
    rw [← Nat.add_assoc]
    simp only [Boot.load_file, hround.cluster, hround.miss, hround.packet, h, Bool.false_eq_true, if_false]
    exact (if_neg hgoes).trans (hn _ (Nat.le_add_left _ _))

theorem RoundRead.reads {ax dx bx cx : Word} {p : Dap} (h : RoundRead b ax dx bx s p cx s₁)
    (hread : load_disk b s₁ p = (carry, s₂)) : Reads b s carry s₂ := by
  obtain ⟨hmiss, hsize⟩ := fatPacket_buffer h.packet
  exact (load_disk_reads (fun _ => h.miss) (clusterPacket_size ..) h.cluster).trans
    (load_disk_reads (fun _ => hmiss) (by omega) hread)

/-- The carry flag of a call is that of its last read. -/
theorem Returns.reads {ax dx bx : Word} {t : Loader} (h : Returns b ax dx bx s carry t) : Reads b s carry t := by
  induction h with
  | clusterError h => exact load_disk_reads (fun h => absurd h (by decide)) (clusterPacket_size ..) h
  | fatError hround h => exact hround.reads h
  | ends hround h _ => exact hround.reads h
  | next hround h _ _ ih => exact (hround.reads h).trans ih

end Reads

/-! ## The kernel loader -/

/-- A search that ends has found the end of the folder, or the file. -/
theorem search_result {m : Bytes} {c t : Find} (h : t ∈ eval (find_file m) { c with label := .findFile }) :
    (t.carry = true ∧ ∃ i, (∀ j < i, Passes m c.bx c.si j) ∧ EndsFolder m c.bx i) ∨
      ∃ i, IsFile m c.bx c.si i ∧ t.carry = false ∧ t.dx ++ t.ax = recordCluster m (recordAddress c.bx i) := by
  have hstops : ∃ i, ¬ Passes m c.bx c.si i := by
    by_contra hnone
    exact search_runs m c (fun i => not_not.mp fun hi => hnone ⟨i, hi⟩) t h
  obtain ⟨i, hstop⟩ := hstops
  obtain ⟨k, -, hpass, hend | hfile⟩ := exists_first hstop
  · obtain ⟨t', hmem, ht⟩ := search_returns m c hpass fun _ hs => record_ends hs hend
    obtain rfl := Part.mem_unique h hmem
    exact .inl ⟨ht.carry, k, hpass, hend⟩
  · obtain ⟨t', hmem, ht⟩ := search_returns m c hfile.before fun _ hs => record_named hs hfile.goes hfile.named
    obtain rfl := Part.mem_unique h hmem
    exact .inr ⟨k, hfile, ht.carry, ht.cluster⟩

section KernelLoader

variable {b : Bios} {f : BootFile}

/-- The root folder was loaded, and its first record with the kernel's name gives a cluster. -/
structure FindsKernel (b : Bios) (f : BootFile) (s s₁ : Loader) (ax dx : Word) : Prop where
  root : Returns b 0x0002 0x0000 0x8200 s false s₁
  record : ∃ i, IsFile s₁.mem 0x8200 f.nameAddress i ∧ dx ++ ax = recordCluster s₁.mem (recordAddress 0x8200 i)

/-- The calls of `kernel_loader` that load the kernel or print a message. -/
inductive Loads (b : Bios) (f : BootFile) (s : Loader) : Loading → Prop where
  | rootError {t : Loader} (h : Returns b 0x0002 0x0000 0x8200 s true t) : Loads b f s (.hangs .ROOT_ERROR t)
  | findError {t : Loader} (h : Returns b 0x0002 0x0000 0x8200 s false t)
    (hends : ∃ i, (∀ j < i, Passes t.mem 0x8200 f.nameAddress j) ∧ EndsFolder t.mem 0x8200 i) :
    Loads b f s (.hangs .FIND_ERROR t)
  | kernError {s₁ t : Loader} {ax dx : Word} (h : FindsKernel b f s s₁ ax dx)
    (hkernel : Returns b ax dx 0x8200 s₁ true t) :
    Loads b f s (.hangs .KERN_ERROR t)
  | loaded {s₁ t : Loader} {ax dx : Word} (h : FindsKernel b f s s₁ ax dx)
    (hkernel : Returns b ax dx 0x8200 s₁ false t) :
    Loads b f s (.loaded t)

/-- The kernel is loaded, or a message is printed. -/
def Loading.settled : Loading → Bool
  | .loaded _ => true
  | .hangs _ _ => true
  | _ => false

theorem andThen_returned (t : Loader) (message : Message) (next : Loader → Loading) :
    (Outcome.returned false t).andThen message next = next t := rfl

/-- A call of `load_file` in front of such an end has returned. -/
theorem andThen_settled {o : Outcome} {message : Message} {next : Loader → Loading}
    (h : (o.andThen message next).settled = true) :
    (∃ t, o = .returned true t) ∨ ∃ t, o = .returned false t ∧ (next t).settled = true := by
  cases o with
  | returned carry t =>
    cases carry with
    | true => exact .inl ⟨t, rfl⟩
    | false => exact .inr ⟨t, rfl, h⟩
  | divideError _ => exact absurd h Bool.false_ne_true
  | overwritten _ => exact absurd h Bool.false_ne_true
  | running _ => exact absurd h Bool.false_ne_true

theorem loads_of_kernel_loader {rounds : Nat} {regs : Find} {s : Loader}
    (h : (kernel_loader b f rounds regs s).settled = true) : Loads b f s (kernel_loader b f rounds regs s) := by
  rw [kernel_loader] at h ⊢
  obtain ⟨s₁, hroot⟩ | ⟨s₁, hroot, hnext⟩ := andThen_settled h
  · rw [hroot]
    exact .rootError (returns_of_load_file hroot)
  · have hroot' := returns_of_load_file hroot
    rw [hroot, andThen_returned]
    dsimp only at hnext ⊢
    split at hnext
    · exact absurd hnext Bool.false_ne_true
    rename_i t hsearch
    have hresult := search_result (c := { regs with si := f.nameAddress, bx := 0x8200 }) (mem_eval_of_evalFor hsearch)
    obtain ⟨hcarry, hends⟩ | ⟨i, hfile, hcarry, hcluster⟩ := hresult
    · rw [if_pos hcarry]
      exact .findError hroot' hends
    · have hfinds : FindsKernel b f s s₁ t.ax t.dx := ⟨hroot', i, hfile, hcluster⟩
      rw [hcarry, if_neg Bool.false_ne_true] at hnext ⊢
      obtain ⟨s₂, hkernel⟩ | ⟨s₂, hkernel, -⟩ := andThen_settled hnext
      · rw [hkernel]
        exact .kernError hfinds (returns_of_load_file hkernel)
      · rw [hkernel]
        exact .loaded hfinds (returns_of_load_file hkernel)

/-- A call with enough rounds gets to the search. -/
private theorem kernel_loader_searches {s s₁ : Loader} (hroot : Returns b 0x0002 0x0000 0x8200 s false s₁) (regs : Find)
    {t : Find} (ht : t ∈ eval (find_file s₁.mem) { regs with label := .findFile, si := f.nameAddress, bx := 0x8200 }) :
    ∃ n, ∀ rounds ≥ n, kernel_loader b f rounds regs s =
      if t.carry then .hangs .FIND_ERROR s₁
      else (load_file b rounds t.ax t.dx 0x8200 s₁).andThen .KERN_ERROR .loaded := by
  obtain ⟨n, hn⟩ := hroot.load_file
  obtain ⟨n', hn'⟩ := exists_evalFor ht
  refine ⟨max n n', fun rounds hrounds => ?_⟩
  have hload := hn rounds (by omega)
  have hsearch := hn' rounds (by omega)
  simp only [kernel_loader, hload, Outcome.andThen, hsearch]

/-- The search of a call that finds the kernel. -/
private theorem FindsKernel.searches {s s₁ : Loader} {ax dx : Word} (h : FindsKernel b f s s₁ ax dx) (regs : Find) :
    ∃ n, ∀ rounds ≥ n, kernel_loader b f rounds regs s =
      (load_file b rounds ax dx 0x8200 s₁).andThen .KERN_ERROR .loaded := by
  obtain ⟨i, hfile, hcluster⟩ := h.record
  obtain ⟨t, hmem, ht⟩ := search_returns s₁.mem { regs with si := f.nameAddress, bx := 0x8200 } hfile.before
    fun _ hs => record_named hs hfile.goes hfile.named
  obtain ⟨n, hn⟩ := kernel_loader_searches h.root regs hmem
  obtain ⟨hdx, hax⟩ := append_inj.mp (ht.cluster.trans hcluster.symm)
  refine ⟨n, fun rounds hrounds => ?_⟩
  rw [hn rounds hrounds, ht.carry, if_neg Bool.false_ne_true, hdx, hax]

theorem Loads.kernel_loader {s : Loader} {o : Loading} (h : Loads b f s o) (regs : Find) :
    ∃ n, ∀ rounds ≥ n, kernel_loader b f rounds regs s = o := by
  cases h with
  | rootError h =>
    obtain ⟨n, hn⟩ := h.load_file
    refine ⟨n, fun rounds hrounds => ?_⟩
    simp only [Boot.kernel_loader, hn rounds hrounds, Outcome.andThen]
  | findError h hends =>
    rename_i s₁
    obtain ⟨i, hpass, hend⟩ := hends
    -- the search comes to the end of the folder with the carry flag set
    obtain ⟨t, hmem, ht⟩ := search_returns s₁.mem { regs with si := f.nameAddress, bx := 0x8200 } hpass
      fun _ hs => record_ends hs hend
    obtain ⟨n, hn⟩ := kernel_loader_searches h regs hmem
    refine ⟨n, fun rounds hrounds => ?_⟩
    rw [hn rounds hrounds, if_pos ht.carry]
  -- rounds enough for the folder and for the kernel
  | kernError h hkernel =>
    obtain ⟨n, hn⟩ := h.searches regs
    obtain ⟨n', hn'⟩ := hkernel.load_file
    refine ⟨max n n', fun rounds hrounds => ?_⟩
    rw [hn rounds (by omega), hn' rounds (by omega)]
    rfl
  | loaded h hkernel =>
    obtain ⟨n, hn⟩ := h.searches regs
    obtain ⟨n', hn'⟩ := hkernel.load_file
    refine ⟨max n n', fun rounds hrounds => ?_⟩
    rw [hn rounds (by omega), hn' rounds (by omega)]
    rfl

/-- The message is that of a failed read. -/
def Message.ofRead (message : Message) : Prop := message = .ROOT_ERROR ∨ message = .KERN_ERROR

theorem Loads.reads_loaded {s t : Loader} (h : Loads b f s (.loaded t)) : Reads b s false t := by
  cases h with
  | loaded h hkernel => exact h.root.reads.trans hkernel.reads

theorem Loads.reads_hangs {s t : Loader} {message : Message} (h : Loads b f s (.hangs message t)) :
    message ≠ .BOOT_ERROR ∧ ∃ carry, Reads b s carry t ∧ (carry = true ↔ message.ofRead) := by
  cases h with
  | rootError h => exact ⟨by decide, true, h.reads, by simp [Message.ofRead]⟩
  | findError h _ => exact ⟨by decide, false, h.reads, by simp [Message.ofRead]⟩
  | kernError h hkernel => exact ⟨by decide, true, h.root.reads.trans hkernel.reads, by simp [Message.ofRead]⟩

end KernelLoader

/-! ## Line A20 -/

section A20

variable (g : A20Gate) (s : A20State)

theorem address_test : s.address 0x0000 0x0500 = 0x500 := by
  rw [A20State.address]
  split <;> rfl

theorem address_high : s.address 0xFFFF 0x0510 = if s.line then 0x100500 else 0x500 := by
  rw [A20State.address]
  split <;> rfl

/-- With the line enabled the test still fails if the byte above one megabyte happens to be 1. -/
theorem A20Test_eq :
    A20Test s = (!(s.line && decide (s.mem 0x100500 ≠ 1)), { s with mem := s.mem.set 0x500 1 }) := by
  have hhigh : s.mem.set 0x500 1 0x100500 = s.mem 0x100500 := Mem.set_other _ _ (by decide)
  have hxor := fun x : UInt8 => UInt8.xor_eq_zero_iff (a := x) (b := 1)
  rw [A20Test]
  simp only [address_test, address_high, hxor]
  cases s.line with
  | true => simp [hhigh]
  | false => simp

/-- The line after the last test that was made. -/
def lineAfter (g : A20Gate) (s : A20State) : Bool :=
  let high := decide (s.mem 0x100500 ≠ 1)
  if s.line && high then s.line
  else if g.int15 s.line && high then g.int15 s.line
  else g.out92 (g.in92 ||| 2) (g.int15 s.line)

/-- The last test decides, whatever the hardware does; the tests write one byte. -/
theorem enable_a20_eq :
    enable_a20 g s = (lineAfter g s && decide (s.mem 0x100500 ≠ 1), ⟨s.mem.set 0x500 1, lineAfter g s⟩) := by
  have hhigh : s.mem.set 0x500 1 0x100500 = s.mem 0x100500 := Mem.set_other _ _ (by decide)
  simp only [enable_a20, A20Test_eq, lineAfter, Mem.set_set, hhigh]
  cases hline : s.line && decide (s.mem 0x100500 ≠ 1) with
  | true => simp_all
  | false =>
    cases hbios : g.int15 s.line && decide (s.mem 0x100500 ≠ 1) with
    | true => simp_all
    | false => simp

theorem enable_a20_mem : (enable_a20 g s).2.mem = s.mem.set 0x500 1 := by rw [enable_a20_eq]

/-- The kernel is not entered without the line. -/
theorem enable_a20_line (h : (enable_a20 g s).1 = true) : (enable_a20 g s).2.line = true := by
  rw [enable_a20_eq] at h ⊢
  exact (Bool.and_eq_true_iff.mp h).1

theorem enable_a20_iff : (enable_a20 g s).1 = true ↔
    s.mem 0x100500 ≠ 1 ∧
      (s.line = true ∨ g.int15 s.line = true ∨ g.out92 (g.in92 ||| 2) (g.int15 s.line) = true) := by
  rw [enable_a20_eq, Bool.and_eq_true_iff, decide_eq_true_iff, lineAfter, and_comm]
  refine and_congr_right fun hhigh => ?_
  rw [decide_eq_true hhigh, Bool.and_true, Bool.and_true]
  cases s.line with
  | true => simp
  | false => cases g.int15 false <;> simp

end A20

/-! ## The whole boot -/

/-- The partition entry in the first sector has the type FAT32 and a sector number. -/
def Fat32Entry (m : Bytes) : Prop := m 0x7DC2 = 0x0C ∧ m 0x7DC1 ≠ 0

instance (m : Bytes) : Decidable (Fat32Entry m) := inferInstanceAs (Decidable (_ ∧ _))

/-- The state after the sector of the volume was read, or not. -/
def volumeRead (b : Bios) (s : Loader) : Loader := (load_disk b s (volumePacket s.mem 0x7DBE)).2

theorem isLoaded_iff (f : BootFile) (m : Bytes) : f.isLoaded m = true ↔
    ∀ i < 410, f.isVariable i = false → m (0x7E64 + (i : Nat)) = f.code.getD (0x264 + i) 0 := by
  rw [BootFile.isLoaded, List.all_eq_true]
  simp only [List.mem_range, Bool.or_eq_true, decide_eq_true_eq, or_iff_not_imp_left, Bool.not_eq_true]

section Boot

variable {b : Bios} {f : BootFile} {g : A20Gate} {rounds : Nat} {regs : Find} {line : Bool}

theorem boot_loader_eq (b : Bios) (f : BootFile) (rounds : Nat) (regs : Find) (s : Loader) :
    boot_loader b f rounds regs s =
      if Fat32Entry s.mem then
        if f.isLoaded (volumeRead b s).mem then kernel_loader b f rounds regs (volumeRead b s)
        else .foreign (volumeRead b s)
      else .hangs .BOOT_ERROR s := by
  show (if s.mem 0x7DC2 ≠ 0x0C then _ else if s.mem 0x7DC1 = 0 then _ else _) = _
  by_cases h : s.mem 0x7DC2 = 0x0C
  · by_cases h' : s.mem 0x7DC1 = 0
    · rw [if_neg (not_not.mpr h), if_pos h', if_neg (fun hentry => hentry.2 h')]
    · rw [if_neg (not_not.mpr h), if_neg h', if_pos ⟨h, h'⟩]
      rfl
  · rw [if_pos h, if_neg (fun hentry => h hentry.1)]

theorem volumeRead_log (b : Bios) (s : Loader) : (volumeRead b s).log = s.log ++ [volumePacket s.mem 0x7DBE] :=
  load_disk_log b s _

/-- The results of `boot_loader` behind the check of the partition. -/
theorem boot_loader_loads {m : Bytes} (hentry : Fat32Entry m)
    (h : (boot_loader b f rounds regs ⟨m, []⟩).settled = true) :
    f.isLoaded (volumeRead b ⟨m, []⟩).mem = true ∧
      Loads b f (volumeRead b ⟨m, []⟩) (boot_loader b f rounds regs ⟨m, []⟩) := by
  rw [boot_loader_eq, if_pos hentry] at h ⊢
  split at h
  · rename_i hcode
    rw [if_pos hcode]
    exact ⟨hcode, loads_of_kernel_loader h⟩
  · exact absurd h Bool.false_ne_true

/-- Memory that agrees with the loader's own bytes holds the same code. -/
theorem isLoaded_congr {m m' : Bytes} (h : ∀ a, 0x7C00 ≤ a → a < 0x8000 → m' a = m a) (hm : f.isLoaded m = true) :
    f.isLoaded m' = true := by
  rw [isLoaded_iff] at hm ⊢
  intro i hi hconst
  rw [h _ (by omega) (by omega), hm i hi hconst]

/-- A read after the first one is a read of `kernel_loader`. -/
theorem Reads.of_first {m : Bytes} {carry : Bool} {s : Loader} (h : Reads b (volumeRead b ⟨m, []⟩) carry s) {i : Nat}
    (h0 : 0 < i) (hi : i < s.log.length) : b.succeeds i = false ↔ carry = true ∧ i + 1 = s.log.length := by
  apply h.failed i _ hi
  rw [volumeRead_log]
  exact h0

/-- The reads in front of a message other than that of the missing partition. -/
theorem message_reads {m : Bytes} (hentry : Fat32Entry m) {message : Message} {s : Loader}
    (h : boot b f g rounds regs line ⟨m, []⟩ = .failed (.hangs message s)) :
    message ≠ .BOOT_ERROR ∧ ∃ carry, Reads b (volumeRead b ⟨m, []⟩) carry s ∧ (carry = true ↔ message.ofRead) := by
  have hloads := @boot_loader_loads b f rounds regs m hentry
  rw [boot] at h
  split at h
  · -- the kernel was loaded, but the line is not enabled
    rename_i s₁ hload
    rw [hload] at hloads
    have hreads := (hloads rfl).2.reads_loaded
    dsimp only at h
    split at h
    · cases h
    · obtain ⟨rfl, rfl⟩ := Loading.hangs.inj (Booted.failed.inj h)
      have hmem : ∀ a, 0x7C00 ≤ a → (enable_a20 g ⟨s₁.mem, line⟩).2.mem a = s₁.mem a := by
        intro a ha
        rw [enable_a20_mem, Mem.set_other _ _ (by omega)]
      refine ⟨by decide, false, ?_, by simp [Message.ofRead]⟩
      exact {
        log := hreads.log
        failed := hreads.failed
        last := fun h => absurd h Bool.false_ne_true
        loader := fun a ha ha' => (hmem a ha).trans (hreads.loader a ha ha')
        high := fun a ha => (hmem a (by omega)).trans (hreads.high a ha) }
  · rw [Booted.failed.inj h] at hloads
    exact (hloads rfl).2.reads_hangs

/-- A message tells a missing partition and failed reads from everything else; nothing is read after a read
    of `kernel_loader` has failed. -/
theorem boot_message {m : Bytes} {message : Message} {s : Loader}
    (h : boot b f g rounds regs line ⟨m, []⟩ = .failed (.hangs message s)) :
    (message = .BOOT_ERROR ↔ ¬ Fat32Entry m) ∧
      (message.ofRead ↔ ∃ i, 0 < i ∧ i < s.log.length ∧ b.succeeds i = false) ∧
      ∀ i, 0 < i → i + 1 < s.log.length → b.succeeds i = true := by
  by_cases hentry : Fat32Entry m
  · obtain ⟨hmessage, carry, hreads, hcarry⟩ := message_reads hentry h
    refine ⟨iff_of_false hmessage (not_not.mpr hentry), ?_, fun i h0 hi => ?_⟩
    · rw [← hcarry]
      constructor
      · intro hset
        -- the last read has failed
        have hlast := hreads.last hset
        rw [volumeRead_log] at hlast
        have hlen : 1 < s.log.length := hlast
        exact ⟨s.log.length - 1, by omega, by omega, (hreads.of_first (by omega) (by omega)).mpr ⟨hset, by omega⟩⟩
      · intro hfailed
        obtain ⟨i, h0, hi, hbad⟩ := hfailed
        exact ((hreads.of_first h0 hi).mp hbad).1
    · by_contra hbad
      have hlast := (hreads.of_first h0 (by omega)).mp (Bool.eq_false_of_not_eq_true hbad)
      omega
  · -- nothing has been read
    rw [boot, boot_loader_eq, if_neg hentry] at h
    obtain ⟨rfl, rfl⟩ := Loading.hangs.inj (Booted.failed.inj h)
    refine ⟨iff_of_true rfl hentry, ?_, fun i _ hi => absurd hi (Nat.not_lt_zero _)⟩
    simp [Message.ofRead]

end Boot

/-- A file with the variables, the name and nothing else. -/
def nameOnly : BootFile where
  code := List.replicate 616 0 ++ KERNEL_NAME
  lowerAddress := 0x7E64
  nameAddress := 0x7E68
  inSecond := by decide
  name := by decide +kernel

/-- The code is in memory, but no read succeeds: the root folder is not loaded. -/
theorem boot_message_failed :
    let m : Bytes := fun a => if a = 0x7DC1 then 2 else if a = 0x7DC2 then 0x0C else nameOnly.code.getD (a - 0x7C00).toNat 0
    let b : Bios := ⟨fun _ => 0, fun _ => false⟩
    (∃ i, 0 < i ∧ i < 2 ∧ b.succeeds i = false) ∧ Fat32Entry m := by
  intro m b
  have hentry : Fat32Entry m := by decide
  have hcode : nameOnly.isLoaded m = true := by
    rw [isLoaded_iff]
    intro i hi _
    show (if (0x7E64 + (i : Int)) = 0x7DC1 then 2 else if (0x7E64 + (i : Int)) = 0x7DC2 then 0x0C else
      nameOnly.code.getD (0x7E64 + (i : Int) - 0x7C00).toNat 0) = nameOnly.code.getD (0x264 + i) 0
    have hindex : (0x7E64 + (i : Int) - 0x7C00).toNat = 0x264 + i := by omega
    rw [if_neg (by omega), if_neg (by omega), hindex]
  have hrun : boot b nameOnly ⟨id, 0, fun _ => id⟩ 1 ⟨.findFile, 0, 0, 0, 0, 0, false, []⟩ false ⟨m, []⟩ =
      .failed (.hangs .ROOT_ERROR ⟨m, [volumePacket m 0x7DBE, clusterPacket m 2 0 0x8200]⟩) := by
    have hread : volumeRead b ⟨m, []⟩ = ⟨m, [volumePacket m 0x7DBE]⟩ := rfl
    rw [boot, boot_loader_eq, if_pos hentry, hread, if_pos hcode]
    rfl
  obtain ⟨hpartition, hread, -⟩ := boot_message hrun
  exact ⟨hread.mp (.inl rfl), not_not.mp (mt hpartition.mpr (by decide))⟩

end SoreOS.Boot
