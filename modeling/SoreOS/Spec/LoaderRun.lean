import SoreOS.Spec.LoaderAddress
import SoreOS.Spec.Volume

/-!
# Loading a file

`load_file` on a volume of four sectors per cluster, from `0x8200` on. The destination is a
16-bit register and the chain is followed without a bound: fifteen clusters fit.

## Key results

- `load_file_next`: a round in terms of the clusters of the chain
- `load_file_rounds`: the first rounds of a run
- `loadsFile_iff`: when a file is loaded as it should be
-/

namespace SoreOS.Boot

open ForStd

/-! ## Packets -/

/-- The packet for sectors from `lba` on. -/
def packet (lba : BitVec 32) (dst sectors : Word) : Dap where
  DAP_SECTORS := sectors
  DAP_DST_LOW := dst
  DAP_LBA_1 := lba.extractLsb' 0 16
  DAP_LBA_2 := lba.extractLsb' 16 16

theorem append_extractLsb' (x : BitVec 32) : x.extractLsb' 16 16 ++ x.extractLsb' 0 16 = x := by
  have hx := x.isLt
  apply BitVec.eq_of_toNat_eq
  rw [toNat_append, BitVec.extractLsb'_toNat, BitVec.extractLsb'_toNat, Nat.shiftRight_eq_div_pow,
    Nat.shiftRight_eq_div_pow]
  omega

theorem eq_packet {p : Dap} {lba : BitVec 32} (h : p.DAP_LBA_2 ++ p.DAP_LBA_1 = lba) :
    p = packet lba p.DAP_DST_LOW p.DAP_SECTORS := by
  obtain ⟨hhi, hlo⟩ := append_inj.mp (h.trans (append_extractLsb' lba).symm)
  rw [packet, ← hhi, ← hlo]

@[simp] theorem packet_lba (lba : BitVec 32) (dst sectors : Word) : (packet lba dst sectors).lba = lba.toNat :=
  congrArg BitVec.toNat (append_extractLsb' lba)

@[simp] theorem packet_dst (lba : BitVec 32) (dst sectors : Word) : (packet lba dst sectors).dst = dst.toNat := rfl

@[simp] theorem packet_size (lba : BitVec 32) (dst sectors : Word) :
    (packet lba dst sectors).size = sectors.toNat * 512 := rfl

/-! ## A round with four sectors per cluster -/

/-- The fields of a volume of four sectors per cluster. -/
structure FourSectors (hdr : FAT32_HEADER) : Prop where
  sectorsPerCluster : hdr.A_BF_BPB_SectorsPerCluster = 4
  scale : hdr.Scale_SectorsPerCluster = 2
  mask : hdr.Mask_SectorRotation = 3

/-- The first sector of a cluster. -/
def clusterLBA (hdr : FAT32_HEADER) (c : BitVec 32) : BitVec 32 :=
  (c - 2#32) <<< 2 + hdr.LBA_Cluster_Location.toBitVec

/-- The sector of a cluster's entry. -/
def fatLBA (hdr : FAT32_HEADER) (c : BitVec 32) : BitVec 32 := c / 128#32 + hdr.LBA_FAT_Location.toBitVec

/-- The packets of a round. -/
def roundLog (hdr : FAT32_HEADER) (c : BitVec 32) (bx : Word) : List Dap :=
  [packet (clusterLBA hdr c) bx 4, packet (fatLBA hdr c) 0x8000 1]

section Round

variable {b : Bios} {hdr : FAT32_HEADER} (h4 : FourSectors hdr) (hgood : ∀ n, b.succeeds n = true)
include h4

theorem clusterPacket_eq {m : Bytes} (hm : HoldsHeader m hdr) (ax dx bx : Word) :
    clusterPacket m ax dx bx = packet (clusterLBA hdr (dx ++ ax)) bx 4 := by
  have hsectors : movb m 0x7E0D = 4 := by rw [movb, hm.sectorsPerCluster, h4.sectorsPerCluster]; rfl
  have hscale : hdr.Scale_SectorsPerCluster.toNat = 2 := by rw [h4.scale]; rfl
  have hmask : hdr.Mask_SectorRotation.toNat = 2 ^ 2 - 1 := by rw [h4.mask]; rfl
  have hpacket := eq_packet (clusterPacket_lba hm (by omega) hscale hmask ax dx bx)
  rw [hpacket]
  show packet _ bx (movb m 0x7E0D) = _
  rw [hsectors, clusterLBA]

include hgood

/-- A round reads the cluster to `bx` and goes on with its entry. -/
theorem load_file_next {s : Loader} (hm : HoldsHeader s.mem hdr) (ax dx bx : Word)
    (hmiss : 0x8000 ≤ bx.toNat ∨ bx.toNat ≤ 0x7400) (rounds : Nat) :
    let c := dx ++ ax
    let next := nextCluster b.disk hdr c
    ∃ (s' : Loader) (ax' dx' : Word), HoldsHeader s'.mem hdr ∧ s'.log = s.log ++ roundLog hdr c bx ∧
      s'.mem = memcpyObj (memcpyObj s.mem bx.toNat b.disk ((clusterLBA hdr c).toNat * 512) 2048) 0x8000 b.disk
        ((fatLBA hdr c).toNat * 512) 512 ∧
      dx' ++ ax' = next ∧
      load_file b (rounds + 1) ax dx bx s =
        if next = 0x0FFFFFFF#32 then .returned false s' else load_file b rounds ax' dx' (bx + 0x0800) s' := by
  intro c next
  have hpacket := clusterPacket_eq h4 hm ax dx bx
  -- 2048 bytes from `bx` on do not reach the loader
  have hmiss' : (clusterPacket s.mem ax dx bx).hitsLoader = false := by
    rw [hpacket, Dap.hitsLoader, decide_eq_false_iff_not, packet_dst, packet_size]
    show ¬ (_ ∧ 0x7C00 < bx.toNat + 2048)
    omega
  obtain ⟨q, s', ax', dx', hlba, hdst, hsectors, hlog, hmem, hnext, hrun⟩ :=
    load_file_succ hm (hgood _) (hgood _) hmiss' rounds
  have hq : q = packet (fatLBA hdr c) 0x8000 1 := by rw [eq_packet hlba, hdst, hsectors, fatLBA]
  have hbuffer : (packet (fatLBA hdr c) 0x8000 1).dst = 0x8000 := packet_dst ..
  have hsize : (packet (fatLBA hdr c) 0x8000 1).size = 512 := by rw [packet_size]; rfl
  have hsize' : (packet (clusterLBA hdr c) bx 4).size = 2048 := by rw [packet_size]; rfl
  rw [hq, hpacket] at hlog hmem
  -- neither transfer touches the header
  have hm' : HoldsHeader s'.mem hdr := by
    apply hm.congr
    intro a ha ha'
    rw [hmem, memcpyObj, Mem.copyFrom_apply, if_neg (by omega), Dap.hitsLoader_false (hpacket ▸ hmiss') _ _ _ ha ha']
  -- the destination moves on by four sectors
  have hshl : shl (movb s'.mem 0x7E62) 0x0200 = (0x0800 : Word) := by
    have hcount : (movb s'.mem 0x7E62).toNat = 2 := by rw [toNat_movb, hm'.scale, h4.scale]; rfl
    rw [shl_eq hcount (by omega)]
    decide
  rw [hshl] at hrun
  refine ⟨s', ax', dx', hm', hlog, ?_, hnext, hrun⟩
  rw [hmem, packet_lba, packet_lba, hbuffer, hsize, hsize', packet_dst, Nat.cast_ofNat]

end Round

/-! ## A run -/

/-- The `i`th cluster of the chain from `start` on, as far as it is followed. -/
def clusterAt (disk : Bytes) (hdr : FAT32_HEADER) (start : BitVec 32) (i : Nat) : BitVec 32 :=
  (nextCluster disk hdr)^[i] start

theorem clusterAt_succ (disk : Bytes) (hdr : FAT32_HEADER) (start : BitVec 32) (i : Nat) :
    clusterAt disk hdr start (i + 1) = nextCluster disk hdr (clusterAt disk hdr start i) :=
  Function.iterate_succ_apply' _ _ _

/-- What `%bx` holds in round `i`. -/
def destination (i : Nat) : Word := BitVec.ofNat 16 (0x8200 + 2048 * i)

theorem destination_succ (i : Nat) : destination i + 0x0800 = destination (i + 1) := by
  rw [destination, destination, show (0x0800 : Word) = BitVec.ofNat 16 2048 from rfl, ← BitVec.ofNat_add,
    Nat.mul_succ, Nat.add_assoc]

theorem destination_toNat (i : Nat) : (destination i).toNat = (0x8200 + 2048 * i) % 65536 := BitVec.toNat_ofNat ..

/-- The bytes of cluster `i` are where they belong. -/
def PlacedAt (m disk : Bytes) (hdr : FAT32_HEADER) (c : BitVec 32) (i : Nat) : Prop :=
  ∀ k : Int, 0 ≤ k → k < 2048 → m (0x8200 + 2048 * i + k) = disk ((clusterLBA hdr c).toNat * 512 + k)

/-- The state after `i` rounds. -/
structure AfterRounds (disk : Bytes) (hdr : FAT32_HEADER) (start : BitVec 32) (i : Nat) (s : Loader) : Prop where
  header : HoldsHeader s.mem hdr
  log : s.log = (List.range i).flatMap fun j => roundLog hdr (clusterAt disk hdr start j) (destination j)
  placed : i ≤ 15 → ∀ j < i, PlacedAt s.mem disk hdr (clusterAt disk hdr start j) j

section Run

variable {b : Bios} {hdr : FAT32_HEADER} (h4 : FourSectors hdr) (hgood : ∀ n, b.succeeds n = true)
  {start : BitVec 32}
include h4 hgood

/-- One more round, up to the one whose transfer would hit the loader. -/
theorem AfterRounds.step {i : Nat} {s : Loader} (h : AfterRounds b.disk hdr start i s) (hi : i ≤ 30) {ax dx : Word}
    (hc : dx ++ ax = clusterAt b.disk hdr start i) (rounds : Nat) :
    ∃ s' ax' dx', AfterRounds b.disk hdr start (i + 1) s' ∧ dx' ++ ax' = clusterAt b.disk hdr start (i + 1) ∧
      load_file b (rounds + 1) ax dx (destination i) s =
        if clusterAt b.disk hdr start (i + 1) = 0x0FFFFFFF#32 then .returned false s'
        else load_file b rounds ax' dx' (destination (i + 1)) s' := by
  have hdst := destination_toNat i
  obtain ⟨s', ax', dx', hheader, hlog, hmem, hnext, hrun⟩ :=
    load_file_next h4 hgood h.header ax dx (destination i) (by omega) rounds
  rw [hc] at hlog hmem hnext hrun
  rw [← clusterAt_succ] at hnext hrun
  rw [destination_succ] at hrun
  refine ⟨s', ax', dx', ⟨hheader, ?_, fun hi' j hj k h0 hk => ?_⟩, hnext, hrun⟩
  · rw [hlog, h.log, List.range_succ, List.flatMap_append, List.flatMap_singleton]
  · rw [hmem, memcpyObj, Mem.copyFrom_apply, if_neg (by omega), memcpyObj, Mem.copyFrom_apply, hdst]
    by_cases hlast : j = i
    · -- the cluster of this round
      subst hlast
      rw [if_pos (by omega)]
      congr 1
      omega
    · rw [if_neg (by omega)]
      exact h.placed (by omega) j (by omega) k h0 hk

/-- The rounds in front of the end mark. -/
theorem load_file_rounds {m : Bytes} (hm : HoldsHeader m hdr) {ax dx : Word} (hstart : dx ++ ax = start) {i : Nat}
    (hi : i ≤ 31) (hgo : ∀ j < i, clusterAt b.disk hdr start (j + 1) ≠ 0x0FFFFFFF#32) (rounds : Nat) :
    ∃ s ax' dx', AfterRounds b.disk hdr start i s ∧ dx' ++ ax' = clusterAt b.disk hdr start i ∧
      load_file b (i + rounds) ax dx 0x8200 ⟨m, []⟩ = load_file b rounds ax' dx' (destination i) s := by
  induction i generalizing rounds with
  | zero =>
    refine ⟨⟨m, []⟩, ax, dx, ⟨hm, rfl, fun _ _ hj => absurd hj (Nat.not_lt_zero _)⟩, hstart, ?_⟩
    rw [Nat.zero_add]
    rfl
  | succ i ih =>
    obtain ⟨s, ax', dx', hafter, hc, hrun⟩ := ih (by omega) (fun j hj => hgo j (by omega)) (rounds + 1)
    obtain ⟨s', ax'', dx'', hafter', hc', hround⟩ := hafter.step h4 hgood (by omega) hc rounds
    refine ⟨s', ax'', dx'', hafter', hc', ?_⟩
    rw [Nat.add_right_comm, Nat.add_assoc, hrun, hround, if_neg (hgo i (Nat.lt_succ_self i))]

/-- A run that returns has not stopped in front of the end mark. -/
theorem lt_rounds_of_returned {m : Bytes} (hm : HoldsHeader m hdr) {ax dx : Word} (hstart : dx ++ ax = start)
    {i : Nat} (hi : i ≤ 31) (hgo : ∀ j < i, clusterAt b.disk hdr start (j + 1) ≠ 0x0FFFFFFF#32) {rounds : Nat}
    {carry : Bool} {s : Loader} (hrun : load_file b rounds ax dx 0x8200 ⟨m, []⟩ = .returned carry s) : i < rounds := by
  by_contra hle
  obtain ⟨_, _, _, -, -, hfirst⟩ := load_file_rounds h4 hgood hm hstart (i := rounds) (by omega)
    (fun j hj => hgo j (by omega)) 0
  -- after that many rounds it is still running
  rw [Nat.add_zero, hrun] at hfirst
  exact nomatch hfirst

/-- The run of a chain whose end mark is found. -/
theorem load_file_end {m : Bytes} (hm : HoldsHeader m hdr) {ax dx : Word} (hstart : dx ++ ax = start) {i : Nat}
    (hi : i ≤ 30) (hgo : ∀ j < i, clusterAt b.disk hdr start (j + 1) ≠ 0x0FFFFFFF#32)
    (hend : clusterAt b.disk hdr start (i + 1) = 0x0FFFFFFF#32) :
    ∃ s, AfterRounds b.disk hdr start (i + 1) s ∧ load_file b (i + 1) ax dx 0x8200 ⟨m, []⟩ = .returned false s := by
  obtain ⟨s, ax', dx', hafter, hc, hrun⟩ := load_file_rounds h4 hgood hm hstart (by omega) hgo 1
  obtain ⟨s', _, _, hafter', -, hround⟩ := hafter.step h4 hgood hi hc 0
  exact ⟨s', hafter', by rw [hrun, hround, if_pos hend]⟩

end Run

/-! ## The log of a run -/

/-- The loader's state, however `load_file` ends. -/
def Outcome.loader : Outcome → Loader
  | .returned _ s => s
  | .divideError s => s
  | .overwritten s => s
  | .running s => s

theorem load_disk_log (b : Bios) (s : Loader) (p : Dap) : (load_disk b s p).2.log = s.log ++ [p] := by
  rw [load_disk]
  split <;> rfl

/-- The log after the first transfer is the beginning of the log, if the other rounds only add to it. -/
private theorem load_file_log_succ {b : Bios} {rounds : Nat}
    (hrest : ∀ ax dx bx s, s.log <+: (load_file b rounds ax dx bx s).loader.log) (ax dx bx : Word) (s : Loader) :
    s.log ++ [clusterPacket s.mem ax dx bx] <+: (load_file b (rounds + 1) ax dx bx s).loader.log := by
  rw [← load_disk_log b, load_file]
  generalize load_disk b s (clusterPacket s.mem ax dx bx) = r
  obtain ⟨carry, s₁⟩ := r
  dsimp only
  split
  · exact List.prefix_refl _
  split
  · exact List.prefix_refl _
  split
  · exact List.prefix_refl _
  · rename_i q offset _
    -- the second packet follows the first
    have hlog := load_disk_log b s₁ q
    generalize load_disk b s₁ q = r at hlog
    obtain ⟨carry', s₂⟩ := r
    have hadd : s₁.log <+: s₂.log := hlog ▸ List.prefix_append _ _
    dsimp only
    split
    · exact hadd
    split
    · exact hadd
    · exact hadd.trans (hrest _ _ _ _)

/-- Packets are added to the log at its end. -/
theorem load_file_log (b : Bios) (rounds : Nat) (ax dx bx : Word) (s : Loader) :
    s.log <+: (load_file b rounds ax dx bx s).loader.log := by
  induction rounds generalizing ax dx bx s with
  | zero => exact List.prefix_refl _
  | succ rounds ih => exact (List.prefix_append _ _).trans (load_file_log_succ ih ax dx bx s)

/-- The packet of the first round comes first. -/
theorem load_file_first (b : Bios) (rounds : Nat) (ax dx bx : Word) (s : Loader) :
    s.log ++ [clusterPacket s.mem ax dx bx] <+: (load_file b (rounds + 1) ax dx bx s).loader.log :=
  load_file_log_succ (load_file_log b rounds) ax dx bx s

/-! ## Files that fit -/

/-- The chain from `start` on has `n` clusters: the entry of the last one, and of no other, is
    the end mark that `load_file` looks for. -/
structure HasClusters (disk : Bytes) (hdr : FAT32_HEADER) (start : BitVec 32) (n : Nat) : Prop where
  pos : 0 < n
  goes : ∀ i, i + 1 < n → clusterAt disk hdr start (i + 1) ≠ 0x0FFFFFFF#32
  ends : clusterAt disk hdr start n = 0x0FFFFFFF#32

/-- The transfer fills the buffer of the FAT sector, or stays in the memory from `0x8200` to
    `0xFFFF`. -/
def InArea (p : Dap) : Prop :=
  p.dst = 0x8000 ∧ p.size = 512 ∨ 0x8200 ≤ p.dst ∧ p.dst + p.size ≤ 0x10000

/-- `load_file`, called with `0x8200`, returns without an error after finitely many rounds. Then each
    cluster of the chain is at its place, and nothing was written outside the area. -/
def LoadsFile (b : Bios) (hdr : FAT32_HEADER) (m : Bytes) (ax dx : Word) : Prop :=
  ∃ rounds n s, load_file b rounds ax dx 0x8200 ⟨m, []⟩ = .returned false s ∧
    HasClusters b.disk hdr (dx ++ ax) n ∧
    (∀ i < n, PlacedAt s.mem b.disk hdr (clusterAt b.disk hdr (dx ++ ax) i) i) ∧ ∀ p ∈ s.log, InArea p

section Fits

variable {b : Bios} {hdr : FAT32_HEADER} (h4 : FourSectors hdr) (hgood : ∀ n, b.succeeds n = true) {m : Bytes}
  (hm : HoldsHeader m hdr) {ax dx : Word}
include h4 hgood hm

theorem loadsFile_of_hasClusters {n : Nat} (hn : n ≤ 15) (h : HasClusters b.disk hdr (dx ++ ax) n) :
    LoadsFile b hdr m ax dx := by
  obtain ⟨i, rfl⟩ := Nat.exists_eq_add_one_of_ne_zero (Nat.ne_of_gt h.pos)
  obtain ⟨s, hafter, hrun⟩ := load_file_end h4 hgood hm rfl (by omega) (fun j hj => h.goes j (by omega)) h.ends
  refine ⟨_, _, s, hrun, h, fun j hj => hafter.placed hn j hj, fun p hp => ?_⟩
  rw [hafter.log, List.mem_flatMap] at hp
  obtain ⟨j, hj, hp⟩ := hp
  have hdst := destination_toNat j
  rw [List.mem_range] at hj
  rw [roundLog, List.mem_cons, List.mem_singleton] at hp
  obtain rfl | rfl := hp
  · -- the packet of a cluster
    refine .inr ?_
    rw [packet_dst, packet_size]
    show 0x8200 ≤ (destination j).toNat ∧ (destination j).toNat + 2048 ≤ 0x10000
    omega
  · -- the packet of a FAT sector
    exact .inl ⟨packet_dst .., by rw [packet_size]; rfl⟩

/-- A sixteenth cluster does not fit. -/
theorem not_loadsFile (hgo : ∀ i < 15, clusterAt b.disk hdr (dx ++ ax) (i + 1) ≠ 0x0FFFFFFF#32) :
    ¬ LoadsFile b hdr m ax dx := by
  intro h
  obtain ⟨rounds, n, s, hrun, -, -, harea⟩ := h
  have hlt := lt_rounds_of_returned h4 hgood hm rfl (by omega) hgo hrun
  obtain ⟨rest, rfl⟩ := Nat.exists_eq_add_of_lt hlt
  obtain ⟨s', ax', dx', hafter, _, hfirst⟩ := load_file_rounds h4 hgood hm rfl (i := 15) (by omega) hgo (rest + 1)
  rw [← Nat.add_assoc, hrun] at hfirst
  -- the packet of the next round is in the log, and ends behind the area
  have hlog := load_file_first b rest ax' dx' (destination 15) s'
  rw [← hfirst, clusterPacket_eq h4 hafter.header] at hlog
  have hmem := hlog.subset (List.mem_append_right _ (List.mem_singleton_self _))
  have hdst := destination_toNat 15
  have hsize : (4 : Word).toNat * 512 = 2048 := rfl
  have hbad := harea _ hmem
  rw [InArea, packet_dst, packet_size] at hbad
  omega

theorem loadsFile_iff :
    LoadsFile b hdr m ax dx ↔ ∃ i < 15, clusterAt b.disk hdr (dx ++ ax) (i + 1) = 0x0FFFFFFF#32 := by
  constructor
  · intro h
    by_contra hnone
    exact not_loadsFile h4 hgood hm (fun i hi hend => hnone ⟨i, hi, hend⟩) h
  · intro hgiven
    obtain ⟨i, hi, hend⟩ := hgiven
    -- the first entry with the end mark
    have hex : ∃ i, clusterAt b.disk hdr (dx ++ ax) (i + 1) = 0x0FFFFFFF#32 := ⟨i, hend⟩
    have hle : Nat.find hex ≤ i := Nat.find_min' hex hend
    exact loadsFile_of_hasClusters h4 hgood hm (n := Nat.find hex + 1) (by omega)
      ⟨Nat.succ_pos _, fun j hj => Nat.find_min hex (by omega), Nat.find_spec hex⟩

end Fits

/-! ## Chains on a volume -/

/-- The loader and `fatNext` read the same entry. -/
theorem nextCluster_ofNat (disk : Bytes) {hdr : FAT32_HEADER} {c : Nat} (hc : c < 4294967296)
    (hfat : hdr.LBA_FAT_Location.toNat + c / 128 < 4294967296) :
    nextCluster disk hdr (BitVec.ofNat 32 c) = BitVec.ofNat 32 (fatNext disk hdr c) := by
  have hmod : (BitVec.ofNat 32 c).toNat = c := by
    rw [BitVec.toNat_ofNat]
    exact Nat.mod_eq_of_lt hc
  refine congrArg (fun a => BitVec.ofNat 32 (disk.loadLE a 4)) ?_
  rw [udiv_128, toNat_ofNat_add, hmod, Nat.mod_eq_of_lt hfat]
  omega

theorem nextCluster_volume (fat : Nat → Nat) (data : Nat → Int → UInt8) {c : Nat} (hc : c < 16385 * 128)
    (hfat : fat c < 256 ^ 4) :
    nextCluster (volume fat data) defaultHeader (BitVec.ofNat 32 c) = BitVec.ofNat 32 (fat c) := by
  have hloc := defaultHeader_layout.fat_toNat
  rw [nextCluster_ofNat _ (by omega) (by omega), fatNext_volume _ _ hc hfat]

/-- The first sector of a valid cluster. -/
theorem clusterLBA_toNat {hdr : FAT32_HEADER} (hl : StandardLayout hdr) {c : Nat} (hv : ValidCluster c) :
    (clusterLBA hdr (BitVec.ofNat 32 c)).toNat = hdr.LBA_Cluster_Location.toNat + (c - 2) * 4 := by
  have hdata := hl.clusters_toNat
  unfold ValidCluster dataClusters at hv
  have hsub : BitVec.ofNat 32 c - 2#32 = BitVec.ofNat 32 (c - 2) :=
    BitVec.ofNat_sub_ofNat_of_le _ _ (by omega) hv.1
  have hshift : BitVec.ofNat 32 (c - 2) <<< 2 = BitVec.ofNat 32 ((c - 2) * 4) := by
    apply BitVec.eq_of_toNat_eq
    rw [BitVec.toNat_shiftLeft, BitVec.toNat_ofNat, BitVec.toNat_ofNat, Nat.shiftLeft_eq]
    omega
  rw [clusterLBA, hsub, hshift, toNat_ofNat_add, Nat.mod_eq_of_lt (by omega)]

/-- A BIOS whose reads all succeed. -/
def goodBios (disk : Bytes) : Bios where
  disk := disk
  succeeds := fun _ => true

theorem fourSectors_standard : FourSectors defaultHeader where
  sectorsPerCluster := defaultHeader_layout.sectorsPerCluster
  scale := rfl
  mask := rfl

/-- A FAT with a file in the clusters from 2 up to `last`. -/
def clustersTo (last c : Nat) : Nat := if c = last then 0x0FFFFFFF else c + 1

theorem clusterAt_clustersTo (data : Nat → Int → UInt8) {last i : Nat} (hlast : last < 16385 * 128) (hi : i + 2 ≤ last) :
    clusterAt (volume (clustersTo last) data) defaultHeader 2#32 i = BitVec.ofNat 32 (i + 2) := by
  induction i with
  | zero => rfl
  | succ i ih =>
    have hnext : clustersTo last (i + 2) = i + 1 + 2 := if_neg (by omega)
    rw [clusterAt_succ, ih (by omega), nextCluster_volume _ _ (by omega) (by rw [hnext]; omega), hnext]

/-- A file of three clusters. -/
theorem loadsFile_three :
    LoadsFile (goodBios (volume (clustersTo 4) fun c _ => UInt8.ofNat (63 + c))) defaultHeader (withHeader defaultHeader)
      2 0 := by
  have hmark : clustersTo 4 (2 + 2) = 0x0FFFFFFF := rfl
  have hend : clusterAt (volume (clustersTo 4) fun c _ => UInt8.ofNat (63 + c)) defaultHeader 2#32 (2 + 1) = 0x0FFFFFFF#32 := by
    rw [clusterAt_succ, clusterAt_clustersTo _ (by omega) (by omega),
      nextCluster_volume _ _ (by omega) (by rw [hmark]; omega), hmark]
  exact (loadsFile_iff fourSectors_standard (fun _ => rfl) (holdsHeader_withHeader _)).mpr ⟨2, by omega, hend⟩

/-- The last of sixteen clusters leaves the area. -/
theorem not_loadsFile_sixteen :
    ¬ ∀ (b : Bios) (hdr : FAT32_HEADER) (m : Bytes) (ax dx : Word), FourSectors hdr → HoldsHeader m hdr →
      (∀ n, b.succeeds n = true) → LoadsFile b hdr m ax dx := by
  intro hall
  have hloads := hall (goodBios (volume (clustersTo 17) fun _ _ => 65)) defaultHeader (withHeader defaultHeader) 2 0
    fourSectors_standard (holdsHeader_withHeader _) fun _ => rfl
  refine not_loadsFile fourSectors_standard (fun _ => rfl) (holdsHeader_withHeader _) (fun i hi hend => ?_) hloads
  have hnat := congrArg BitVec.toNat ((@clusterAt_clustersTo (fun _ _ => 65) 17 (i + 1) (by omega) (by omega)).symm.trans hend)
  rw [BitVec.toNat_ofNat, BitVec.toNat_ofNat] at hnat
  omega

end SoreOS.Boot
