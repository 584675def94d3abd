import SoreOS.Native.Loader
import SoreOS.Spec.Division
import SoreOS.Spec.Partition

/-!
# The loader's arithmetic

The 16-bit code computes the sectors of a cluster and of its FAT entry like the 32-bit
kernel, from the header that the media utility wrote.

## Key results

- `clusterPacket_lba`: the sector of a cluster
- `div32_eq`, `fatPacket_eq`: the sector of a FAT entry, and where the entry is in it
- `load_file_round`: a round of the loop, in terms of cluster numbers
-/

namespace SoreOS.Boot

open ForStd

/-! ## The header in memory -/

/-- What the loader reads of the header is the header's. -/
structure HoldsHeader (m : Bytes) (hdr : FAT32_HEADER) : Prop where
  sectorsPerCluster : m 0x7E0D = hdr.A_BF_BPB_SectorsPerCluster
  fat : movw m 0x7E5C ++ movw m 0x7E5A = hdr.LBA_FAT_Location.toBitVec
  clusters : movw m 0x7E60 ++ movw m 0x7E5E = hdr.LBA_Cluster_Location.toBitVec
  scale : m 0x7E62 = hdr.Scale_SectorsPerCluster
  mask : m 0x7E63 = hdr.Mask_SectorRotation

/-- Two words in memory are a number of four bytes. -/
theorem movw_append (m : Bytes) (a : Int) : movw m (a + 2) ++ movw m a = BitVec.ofNat 32 (m.loadLE a 4) := by
  have hlow := m.loadLE_lt a 2
  have hhigh := m.loadLE_lt (a + 2) 2
  have hsum : m.loadLE a 4 = m.loadLE a 2 + 65536 * m.loadLE (a + 2) 2 := m.loadLE_add a 2 2
  apply append_eq_ofNat
  · rw [movw, BitVec.toNat_ofNat]
    omega
  · rw [movw, BitVec.toNat_ofNat]
    omega

/-- With the sector of the header at `0x7E00`, the loader reads what `writeBinary` wrote. -/
theorem holdsHeader_writeBinary {m b : Bytes} {hdr : FAT32_HEADER}
    (hm : ∀ i, 0 ≤ i → i < 512 → m (0x7E00 + i) = writeBinary hdr b i) : HoldsHeader m hdr := by
  have hread := readHeader_writeBinary hdr b
  have hbyte : ∀ i : Int, 0 ≤ i → i < 512 → m (0x7E00 + i) = readDB (writeBinary hdr b) i := by
    intro i h0 hi
    rw [hm i h0 hi, readDB, Mem.loadLE, Mem.loadLE, Nat.mul_zero, Nat.add_zero, UInt8.ofNat_toNat]
  have hdword : ∀ i : Int, 0 ≤ i → i < 508 →
      movw m (0x7E00 + i + 2) ++ movw m (0x7E00 + i) = (readDD (writeBinary hdr b) i).toBitVec := by
    intro i h0 hi
    rw [movw_append, readDD]
    congr 1
    apply Mem.loadLE_congr
    intro j hj
    rw [Int.add_assoc, hm _ (by omega) (by omega)]
  constructor
  · exact (hbyte 0x0D (by decide) (by decide)).trans (congrArg (·.A_BF_BPB_SectorsPerCluster) hread)
  · exact (hdword 0x5A (by decide) (by decide)).trans (congrArg (·.LBA_FAT_Location.toBitVec) hread)
  · exact (hdword 0x5E (by decide) (by decide)).trans (congrArg (·.LBA_Cluster_Location.toBitVec) hread)
  · exact (hbyte 0x62 (by decide) (by decide)).trans (congrArg (·.Scale_SectorsPerCluster) hread)
  · exact (hbyte 0x63 (by decide) (by decide)).trans (congrArg (·.Mask_SectorRotation) hread)

/-! ## The sector of a cluster -/

theorem shl_eq {cx : Word} {s : Nat} (hcx : cx.toNat = s) (hs : s < 16) (r : Word) : shl cx r = r <<< s := by
  rw [shl, hcx, Nat.mod_eq_of_lt (by omega)]

theorem rol_eq {cx : Word} {s : Nat} (hcx : cx.toNat = s) (hs : s < 16) (r : Word) :
    rol cx r = r.rotateLeft s := by
  rw [rol, hcx, Nat.mod_eq_of_lt (by omega)]

theorem toNat_movb (m : Bytes) (a : Int) : (movb m a).toNat = (m a).toNat := by
  have := (m a).toNat_lt
  rw [movb, BitVec.toNat_ofNat]
  omega

section Cluster

variable {m : Bytes} {hdr : FAT32_HEADER} (hm : HoldsHeader m hdr) {s : Nat} (hs : s ≤ 7)
  (hscale : hdr.Scale_SectorsPerCluster.toNat = s) (hmask : hdr.Mask_SectorRotation.toNat = 2 ^ s - 1)
include hm hs hscale hmask

theorem clusterPacket_lba (ax dx bx : Word) :
    (clusterPacket m ax dx bx).DAP_LBA_2 ++ (clusterPacket m ax dx bx).DAP_LBA_1 =
      (dx ++ ax - 2#32) <<< s + hdr.LBA_Cluster_Location.toBitVec := by
  have hcount : (movb m 0x7E62).toNat = s := by rw [toNat_movb, hm.scale, hscale]
  have hbits : movb m 0x7E63 = mask s := by
    rw [movb, hm.mask, hmask]
    rfl
  unfold clusterPacket
  dsimp only
  rw [shl_eq hcount (by omega), rol_eq hcount (by omega), hbits, rotateLeft_and_mask _ (by omega),
    rotateLeft_and_not_mask _ (by omega), append_add, append_shl _ _ (by omega), append_sub, hm.clusters]
  rfl

end Cluster

/-! ## The sector of an entry -/

/-- The two remainders are less than `0x8000` together, so that comparing them as signed
    numbers does no harm. -/
theorem div32_eq {cx : Word} (h0 : 0 < cx.toNat) (hcx : cx.toNat ≤ 0x4000) (ax dx : Word) :
    ∃ LOWER UPPER rest : Word, div32 ax dx cx = some (LOWER, UPPER, rest) ∧
      (UPPER ++ LOWER).toNat = (dx ++ ax).toNat / cx.toNat ∧ rest.toNat = (dx ++ ax).toNat % cx.toNat := by
  have hslt := (slt_sum_iff (remainders_lt h0 ax dx)).mpr (compares_of_le h0 hcx)
  exact (divides_iff_slt h0 ax dx).mpr hslt

/-- The sector that holds the entry, and the byte in it where the entry begins. -/
theorem fatPacket_eq {m : Bytes} {hdr : FAT32_HEADER} (hm : HoldsHeader m hdr) (ax dx : Word) :
    ∃ p offset, fatPacket m ax dx = some (p, offset) ∧
      p.DAP_LBA_2 ++ p.DAP_LBA_1 = (dx ++ ax) / 128#32 + hdr.LBA_FAT_Location.toBitVec ∧
      p.DAP_DST_LOW = 0x8000 ∧ p.DAP_SECTORS = 1 ∧ offset.toNat = 4 * ((dx ++ ax).toNat % 128) := by
  obtain ⟨LOWER, UPPER, rest, hdiv, hquotient, hrest⟩ := @div32_eq 128 (by decide) (by decide) ax dx
  have hquotient' : UPPER ++ LOWER = (dx ++ ax) / 128#32 := by
    apply BitVec.eq_of_toNat_eq
    rw [hquotient, BitVec.toNat_udiv]
    rfl
  unfold fatPacket
  simp only [hdiv, Option.bind_eq_bind, Option.bind_some, Option.pure_def]
  refine ⟨_, _, rfl, ?_, rfl, rfl, ?_⟩
  · dsimp only
    rw [append_add, hquotient', hm.fat]
  · have hlt := Nat.mod_lt (dx ++ ax).toNat (show 0 < 128 by omega)
    rw [BitVec.toNat_shiftLeft, hrest, Nat.shiftLeft_eq]
    show (dx ++ ax).toNat % 128 * 4 % 65536 = _
    omega

/-! ## A round -/

theorem load_disk_good {b : Bios} {s : Loader} (hgood : b.succeeds s.log.length = true) (p : Dap) :
    load_disk b s p =
      (false, { mem := memcpyObj s.mem p.dst b.disk (p.lba * 512) p.size, log := s.log ++ [p] }) := by
  rw [load_disk, if_pos hgood]

/-- The number in the four bytes at which a cluster's entry begins. -/
def nextCluster (disk : Bytes) (hdr : FAT32_HEADER) (c : BitVec 32) : BitVec 32 :=
  BitVec.ofNat 32 (disk.loadLE
    ((c / 128#32 + hdr.LBA_FAT_Location.toBitVec).toNat * 512 + 4 * (c.toNat % 128) : Nat) 4)

theorem HoldsHeader.congr {m m' : Bytes} {hdr : FAT32_HEADER} (h : HoldsHeader m hdr)
    (heq : ∀ a, 0x7C00 ≤ a → a < 0x8000 → m' a = m a) : HoldsHeader m' hdr := by
  have hword : ∀ a, 0x7C00 ≤ a → a < 0x7FFF → movw m' a = movw m a := by
    intro a ha ha'
    rw [movw, movw]
    congr 1
    apply Mem.loadLE_congr
    intro i hi
    exact heq _ (by omega) (by omega)
  constructor
  · rw [heq _ (by omega) (by omega), h.sectorsPerCluster]
  · rw [hword _ (by omega) (by omega), hword _ (by omega) (by omega), h.fat]
  · rw [hword _ (by omega) (by omega), hword _ (by omega) (by omega), h.clusters]
  · rw [heq _ (by omega) (by omega), h.scale]
  · rw [heq _ (by omega) (by omega), h.mask]

/-- A transfer that misses the loader's bytes leaves them alone. -/
theorem Dap.hitsLoader_false {p : Dap} (h : p.hitsLoader = false) (m disk : Bytes) (src : Int) {a : Int}
    (ha : 0x7C00 ≤ a) (ha' : a < 0x8000) : memcpyObj m p.dst disk src p.size a = m a := by
  rw [Dap.hitsLoader, decide_eq_false_iff_not] at h
  rw [memcpyObj, Mem.copyFrom_apply, if_neg (by omega)]

/-- With a sector of the FAT in the buffer at `0x8000`, the two words of an entry are the four bytes on
    the disk. -/
theorem movw_entry {m disk : Bytes} {lba k : Nat} {offset : Word} (hk : k < 128) (hoffset : offset.toNat = 4 * k)
    (hbuffer : ∀ i : Int, 0 ≤ i → i < 512 → m (0x8000 + i) = disk (lba * 512 + i)) :
    movw m (0x8000 + offset + 2 : Word).toNat ++ movw m (0x8000 + offset : Word).toNat =
      BitVec.ofNat 32 (disk.loadLE (lba * 512 + 4 * k : Nat) 4) := by
  have hstart : (0x8000 : Word).toNat = 0x8000 := rfl
  have htwo : (2 : Word).toNat = 2 := rfl
  -- the entry ends inside the buffer, so the offsets do not wrap around
  have hentry : (0x8000 + offset : Word).toNat = 0x8000 + 4 * k := by
    rw [BitVec.toNat_add, hoffset, hstart]
    exact Nat.mod_eq_of_lt (by omega)
  have hentry' : (0x8000 + offset + 2 : Word).toNat = (0x8000 + offset : Word).toNat + 2 := by
    rw [BitVec.toNat_add, hentry, htwo]
    exact Nat.mod_eq_of_lt (by omega)
  rw [hentry', Nat.cast_add, Nat.cast_two, movw_append]
  congr 1
  apply Mem.loadLE_congr
  intro i hi
  have h := hbuffer (4 * k + i) (by omega) (by omega)
  rw [hentry]
  refine Eq.trans (congrArg m ?_) (h.trans (congrArg disk ?_))
  · push_cast
    exact Int.add_assoc ..
  · push_cast
    exact (Int.add_assoc ..).symm

/-- A round reads the cluster and the sector of its entry, and goes on with the entry. -/
theorem load_file_succ {b : Bios} {s : Loader} {hdr : FAT32_HEADER} (hm : HoldsHeader s.mem hdr) {ax dx bx : Word}
    (hgood : b.succeeds s.log.length = true) (hgood' : b.succeeds (s.log.length + 1) = true)
    (hmiss : (clusterPacket s.mem ax dx bx).hitsLoader = false) (rounds : Nat) :
    let p := clusterPacket s.mem ax dx bx
    let next := nextCluster b.disk hdr (dx ++ ax)
    ∃ (q : Dap) (s' : Loader) (ax' dx' : Word),
      q.DAP_LBA_2 ++ q.DAP_LBA_1 = (dx ++ ax) / 128#32 + hdr.LBA_FAT_Location.toBitVec ∧
      q.DAP_DST_LOW = 0x8000 ∧ q.DAP_SECTORS = 1 ∧ s'.log = s.log ++ [p, q] ∧
      s'.mem = memcpyObj (memcpyObj s.mem p.dst b.disk (p.lba * 512) p.size) q.dst b.disk (q.lba * 512) q.size ∧
      dx' ++ ax' = next ∧
      load_file b (rounds + 1) ax dx bx s =
        if next = 0x0FFFFFFF#32 then .returned false s'
        else load_file b rounds ax' dx' (bx + shl (movb s'.mem 0x7E62) 0x0200) s' := by
  intro p next
  have hm₁ : HoldsHeader (memcpyObj s.mem p.dst b.disk (p.lba * 512) p.size) hdr :=
    hm.congr fun a ha ha' => Dap.hitsLoader_false hmiss _ _ _ ha ha'
  -- the header is still there after the cluster was read
  obtain ⟨q, offset, hpacket, hlba, hdst, hsectors, hoffset⟩ := fatPacket_eq hm₁ ax dx
  generalize hmem₁ : memcpyObj s.mem p.dst b.disk (p.lba * 512) p.size = m₁ at hm₁ hpacket
  have hrest := Nat.mod_lt (dx ++ ax).toNat (show 0 < 128 by omega)
  have hqdst : q.dst = 0x8000 := by rw [Dap.dst, hdst]; rfl
  have hqsize : q.size = 512 := by rw [Dap.size, hsectors]; rfl
  obtain ⟨m₂, hmem₂⟩ : ∃ m₂, memcpyObj m₁ q.dst b.disk (q.lba * 512) q.size = m₂ := ⟨_, rfl⟩
  -- the second transfer fills the buffer
  have hbyte : ∀ i : Int, 0 ≤ i → i < 512 → m₂ (0x8000 + i) = b.disk (q.lba * 512 + i) := by
    intro i h0 hi
    rw [← hmem₂, memcpyObj, hqdst, hqsize, Mem.copyFrom_apply, if_pos (by omega)]
    congr 1
    omega
  have hnext : movw m₂ (0x8000 + offset + 2 : Word).toNat ++ movw m₂ (0x8000 + offset : Word).toNat = next := by
    rw [movw_entry hrest hoffset hbyte, Dap.lba, hlba]
    rfl
  refine ⟨q, ⟨m₂, s.log ++ [p, q]⟩, _, _, hlba, hdst, hsectors, rfl, hmem₂.symm, hnext, ?_⟩
  have hfirst : load_disk b s p = (false, ⟨m₁, s.log ++ [p]⟩) := hmem₁ ▸ load_disk_good hgood p
  have hsecond : load_disk b ⟨m₁, s.log ++ [p]⟩ q = (false, ⟨m₂, s.log ++ [p, q]⟩) := by
    rw [load_disk_good (by rw [List.length_append]; exact hgood'), List.append_assoc, hmem₂]
    rfl
  -- the two comparisons look at the whole number
  have hend : (movw m₂ (0x8000 + offset : Word).toNat = 0xFFFF ∧ movw m₂ (0x8000 + offset + 2 : Word).toNat = 0x0FFF) ↔
      next = 0x0FFFFFFF#32 := by
    rw [← hnext, show 0x0FFFFFFF#32 = (0x0FFF : Word) ++ (0xFFFF : Word) from rfl, append_inj, and_comm]
  simp only [load_file, p, hfirst, hmiss, hpacket, hsecond, hend, Bool.false_eq_true, if_false]

/-! ## In numbers -/

theorem toNat_ofNat_add (n : Nat) (v : UInt32) :
    (BitVec.ofNat 32 n + v.toBitVec).toNat = (v.toNat + n) % 4294967296 := by
  rw [BitVec.toNat_add, BitVec.toNat_ofNat, Nat.mod_add_mod, Nat.add_comm]
  rfl

theorem udiv_128 (c : BitVec 32) : c / 128#32 = BitVec.ofNat 32 (c.toNat / 128) := by
  have hlt := c.isLt
  apply BitVec.eq_of_toNat_eq
  rw [BitVec.toNat_udiv, BitVec.toNat_ofNat]
  show c.toNat / 128 = c.toNat / 128 % 4294967296
  omega

/-- With `2 ^ s` sectors per cluster and a matching mask, the packets of a round are for the
    sectors that the kernel's plain arithmetic gives, and the next cluster comes from the
    entry's bytes. -/
theorem load_file_addresses {hdr : FAT32_HEADER} {s : Nat} (hs : s ≤ 7)
    (hspc : hdr.A_BF_BPB_SectorsPerCluster.toNat = 2 ^ s) (hscale : hdr.Scale_SectorsPerCluster.toNat = s)
    (hmask : hdr.Mask_SectorRotation.toNat = 2 ^ s - 1) {m : Bytes} (hm : HoldsHeader m hdr) (ax dx : Word)
    (hN : 2 ≤ (dx ++ ax).toNat) :
    let N := (dx ++ ax).toNat
    let clusterLBA := (hdr.LBA_Cluster_Location.toNat + (N - 2) * 2 ^ s) % 4294967296
    let fatLBA := (hdr.LBA_FAT_Location.toNat + N / 128) % 4294967296
    (∀ bx, (clusterPacket m ax dx bx).lba = clusterLBA) ∧
    (N < 2147483648 → toInt (clusterAddress hdr N) % 4294967296 = clusterLBA) ∧
    (∃ p offset, fatPacket m ax dx = some (p, offset) ∧ p.lba = fatLBA ∧ offset.toNat = 4 * (N % 128)) ∧
    ∀ b log bx rounds, b.succeeds log.length = true → b.succeeds (log.length + 1) = true →
      (clusterPacket m ax dx bx).hitsLoader = false →
      ∃ q s' ax' dx', q.lba = fatLBA ∧ s'.log = log ++ [clusterPacket m ax dx bx, q] ∧
        (dx' ++ ax').toNat = b.disk.loadLE (fatLBA * 512 + 4 * (N % 128) : Nat) 4 ∧
        load_file b (rounds + 1) ax dx bx ⟨m, log⟩ =
          if dx' ++ ax' = 0x0FFFFFFF#32 then .returned false s'
          else load_file b rounds ax' dx' (bx + shl (movb s'.mem 0x7E62) 0x0200) s' := by
  intro N clusterLBA fatLBA
  have hfat : ((dx ++ ax) / 128#32 + hdr.LBA_FAT_Location.toBitVec).toNat = fatLBA := by
    rw [udiv_128, toNat_ofNat_add]
  refine ⟨fun bx => ?_, fun _ => ?_, ?_, fun b log bx rounds hgood hgood' hmiss => ?_⟩
  · -- the shift is a multiplication, with the same overflow
    have hshift : (dx ++ ax - 2#32) <<< s = BitVec.ofNat 32 ((N - 2) * 2 ^ s) := by
      apply BitVec.eq_of_toNat_eq
      rw [BitVec.toNat_shiftLeft, BitVec.toNat_sub_of_le hN, BitVec.toNat_ofNat, Nat.shiftLeft_eq]
      rfl
    rw [Dap.lba, clusterPacket_lba hm hs hscale hmask, hshift, toNat_ofNat_add]
  · -- the kernel multiplies by the number itself
    show toInt (hdr.LBA_Cluster_Location.toNat + ((N : Int) - 2) * hdr.A_BF_BPB_SectorsPerCluster.toNat) % _ = _
    rw [toInt_emod_word, hspc]
    have hcast : ((N - 2 : Nat) : Int) = (N : Int) - 2 := Nat.cast_sub hN
    push_cast [clusterLBA]
    rw [hcast]
  · obtain ⟨p, offset, hpacket, hlba, -, -, hoffset⟩ := fatPacket_eq hm ax dx
    exact ⟨p, offset, hpacket, by rw [Dap.lba, hlba, hfat], hoffset⟩
  · obtain ⟨q, s', ax', dx', hlba, -, -, hlog, -, hnext, hrun⟩ :=
      load_file_succ (s := ⟨m, log⟩) hm hgood hgood' hmiss rounds
    refine ⟨q, s', ax', dx', by rw [Dap.lba, hlba, hfat], hlog, ?_, ?_⟩
    · rw [hnext, nextCluster, hfat, BitVec.toNat_ofNat]
      exact Nat.mod_eq_of_lt (Mem.loadLE_lt ..)
    · rw [hrun, hnext]

/-- The memory after the sector of the header was loaded. -/
def withHeader (hdr : FAT32_HEADER) : Bytes :=
  memcpyObj (fun _ => 0) 0x7E00 (writeBinary hdr fun _ => 0) 0 512

theorem holdsHeader_withHeader (hdr : FAT32_HEADER) : HoldsHeader (withHeader hdr) hdr := by
  apply holdsHeader_writeBinary
  intro i h0 hi
  rw [withHeader, memcpyObj, Mem.copyFrom_apply, if_pos (by omega)]
  congr 1
  omega

/-- The last cluster of the volume that the media utility makes. -/
theorem load_file_addresses_standard :
    (clusterPacket (withHeader defaultHeader) 0xDFFD#16 0x1F#16 0x8200).lba = 8388603 := by
  have h := (load_file_addresses (s := 2) (by decide) (by decide) (by decide) (by decide)
    (holdsHeader_withHeader defaultHeader) 0xDFFD#16 0x1F#16 (by decide)).1 0x8200
  rw [h]
  decide

end SoreOS.Boot
