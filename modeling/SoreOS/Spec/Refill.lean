import SoreOS.Spec.DirectoryScan
import SoreOS.Spec.ReadFile

/-!
# Other contents of a file

A drive on which some clusters have other contents, with the same FAT, the same
directory and the same read errors: what the driver does up to the first read of one
of these clusters is the same.

## Key results

- `FatChain.nodup`: no cluster occurs twice in a chain
- `clusterData_refill`, `FatChain.refill`: the contents and the FAT of the other drive
- `findRecord_refill`: a search on the other drive
-/

namespace SoreOS

open ForStd

/-! ## Chains -/

/-- A cluster begins one chain only. -/
theorem FatChain.unique {disk : Bytes} {hdr : FAT32_HEADER} {c : Nat} {cs cs' : List Nat}
    (h : FatChain disk hdr (c :: cs)) (h' : FatChain disk hdr (c :: cs')) : cs = cs' := by
  have hend : ¬ ValidCluster 0x0FFFFFFF := by
    unfold ValidCluster dataClusters
    omega
  induction cs generalizing c cs' with
  | nil =>
    cases cs' with
    | nil => rfl
    | cons c' cs' => exact absurd (h'.2.2.valid c' List.mem_cons_self) (h'.2.1 ▸ h.2 ▸ hend)
  | cons x cs ih =>
    cases cs' with
    | nil => exact absurd (h.2.2.valid x List.mem_cons_self) (h.2.1 ▸ h'.2 ▸ hend)
    | cons x' cs' =>
      obtain rfl : x = x' := h.2.1.symm.trans h'.2.1
      rw [ih h.2.2 h'.2.2]

theorem FatChain.tail {disk : Bytes} {hdr : FAT32_HEADER} (cs : List Nat) {cs' : List Nat} (hne : cs' ≠ [])
    (h : FatChain disk hdr (cs ++ cs')) : FatChain disk hdr cs' := by
  induction cs with
  | nil => exact h
  | cons c cs ih =>
    cases hrest : cs ++ cs' with
    | nil => exact absurd (List.append_eq_nil_iff.mp hrest).2 hne
    | cons x rest =>
      rw [List.cons_append, hrest] at h
      exact ih (hrest ▸ h.2.2)

/-- A chain that came back to a cluster would never end. -/
theorem FatChain.nodup {disk : Bytes} {hdr : FAT32_HEADER} {cs : List Nat} (h : FatChain disk hdr cs) :
    cs.Nodup := by
  induction cs with
  | nil => exact List.nodup_nil
  | cons c cs ih =>
    rw [List.nodup_cons]
    refine ⟨fun hmem => ?_, ?_⟩
    · obtain ⟨l, r, rfl⟩ := List.append_of_mem hmem
      have htail := FatChain.tail (c :: l) (List.cons_ne_nil c r) h
      have := congrArg List.length (h.unique htail)
      simp only [List.length_append, List.length_cons] at this
      omega
    · cases cs with
      | nil => exact List.nodup_nil
      | cons x cs => exact ih h.2.2

/-! ## The drive -/

/-- Where the data region begins. -/
def dataStart (hdr : FAT32_HEADER) : Int := hdr.LBA_Cluster_Location.toNat * 512

/-- The disk with other contents in some clusters. -/
def refill (disk : Bytes) (hdr : FAT32_HEADER) (cs : List Nat) (data : Nat → Bytes) : Bytes := fun a =>
  if dataStart hdr ≤ a ∧ (2 + (a - dataStart hdr) / 2048).toNat ∈ cs then
    data (2 + (a - dataStart hdr) / 2048).toNat ((a - dataStart hdr) % 2048)
  else disk a

def Drive.refill (d : Drive) (hdr : FAT32_HEADER) (cs : List Nat) (data : Nat → Bytes) : Drive :=
  { d with disk := SoreOS.refill d.disk hdr cs data }

theorem Drive.refill_disk (d : Drive) (hdr : FAT32_HEADER) (cs : List Nat) (data : Nat → Bytes) :
    (d.refill hdr cs data).disk = SoreOS.refill d.disk hdr cs data := rfl

section Disk

variable {disk : Bytes} {hdr : FAT32_HEADER} {cs : List Nat} {data : Nat → Bytes}

/-- A byte of a cluster with other contents. -/
theorem refill_cluster {c : Nat} (hc : c ∈ cs) (hv : ValidCluster c) {i : Nat} (hi : i < 2048) :
    refill disk hdr cs data ((hdr.LBA_Cluster_Location.toNat + ((c : Int) - 2) * 4) * 512 + i) = data c i := by
  have := hv.1
  unfold refill dataStart
  rw [show ((hdr.LBA_Cluster_Location.toNat + ((c : Int) - 2) * 4) * 512 + i -
    hdr.LBA_Cluster_Location.toNat * 512) = 2048 * ((c : Int) - 2) + i from by omega]
  rw [show (2 + (2048 * ((c : Int) - 2) + i) / 2048).toNat = c from by omega,
    show (2048 * ((c : Int) - 2) + i) % 2048 = i from by omega, if_pos ⟨by omega, hc⟩]

/-- A byte of another cluster. -/
theorem refill_other {c : Nat} (hc : c ∉ cs) (hv : ValidCluster c) {i : Nat} (hi : i < 2048) :
    refill disk hdr cs data ((hdr.LBA_Cluster_Location.toNat + ((c : Int) - 2) * 4) * 512 + i) =
      disk ((hdr.LBA_Cluster_Location.toNat + ((c : Int) - 2) * 4) * 512 + i) := by
  have := hv.1
  unfold refill dataStart
  rw [show ((hdr.LBA_Cluster_Location.toNat + ((c : Int) - 2) * 4) * 512 + i -
    hdr.LBA_Cluster_Location.toNat * 512) = 2048 * ((c : Int) - 2) + i from by omega]
  rw [show (2 + (2048 * ((c : Int) - 2) + i) / 2048).toNat = c from by omega,
    if_neg fun hand => hc hand.2]

/-- The first bytes of both. -/
theorem refill_cluster_first {c : Nat} (hc : c ∈ cs) (hv : ValidCluster c) :
    refill disk hdr cs data ((hdr.LBA_Cluster_Location.toNat + ((c : Int) - 2) * 4) * 512) = data c 0 := by
  have h := @refill_cluster disk hdr cs data c hc hv 0 (by decide)
  rwa [Int.natCast_zero, Int.add_zero] at h

theorem refill_other_first {c : Nat} (hc : c ∉ cs) (hv : ValidCluster c) :
    refill disk hdr cs data ((hdr.LBA_Cluster_Location.toNat + ((c : Int) - 2) * 4) * 512) =
      disk ((hdr.LBA_Cluster_Location.toNat + ((c : Int) - 2) * 4) * 512) := by
  have h := @refill_other disk hdr cs data c hc hv 0 (by decide)
  rwa [Int.natCast_zero, Int.add_zero] at h

theorem refill_front {a : Int} (ha : a < dataStart hdr) : refill disk hdr cs data a = disk a := by
  unfold refill
  rw [if_neg (by omega)]

theorem clusterData_refill {c : Nat} (hc : c ∈ cs) (hv : ValidCluster c) :
    clusterData (refill disk hdr cs data) hdr c = (data c).read 0 2048 := by
  apply Mem.read_congr
  intro i hi
  rw [refill_cluster hc hv hi, Int.zero_add]

variable (hl : StandardLayout hdr)
include hl

theorem fatNext_refill {c : Nat} (hv : ValidCluster c) :
    fatNext (refill disk hdr cs data) hdr c = fatNext disk hdr c := by
  unfold ValidCluster dataClusters at hv
  have hfat := hl.fat_toNat
  have hdata := hl.clusters_toNat
  apply Mem.loadLE_congr
  intro i hi
  apply refill_front
  rw [dataStart, hfat, hdata]
  omega

theorem FatChain.refill {l : List Nat} (h : FatChain disk hdr l) :
    FatChain (refill disk hdr cs data) hdr l := by
  induction l with
  | nil => exact h
  | cons c l ih =>
    cases l with
    | nil => exact ⟨h.1, (fatNext_refill hl h.1).trans h.2⟩
    | cons x l => exact ⟨h.1, (fatNext_refill hl h.1).trans h.2.1, ih h.2.2⟩

end Disk

/-! ## Searches -/

section Search

variable {d d' : Drive}

/-- The end of a round that stays in its cluster does not depend on the drive. -/
theorem nextRecord_drive {R : Type} {s t : FsState} {v w : Scan}
    (h : nextRecord (R := R) d s v = .ok (.next t w)) (hoff : w.recordOffset ≠ clusterBytes s.fileSys) :
    nextRecord (R := R) d' s v = .ok (.next t w) := by
  cases nextRecord_step h with
  | within => exact nextRecord_within hoff
  | loaded i t hload hend => exact absurd hend hoff

/-- A round that the search goes on after, in the same cluster. -/
theorem scanRound_next_drive {R : Type} {visit : Visit R} (hquiet : Quiet visit) {s t : FsState}
    {v w : Scan} (h : scanRound d visit s v = .ok (.next t w))
    (hoff : w.recordOffset ≠ clusterBytes s.fileSys) : scanRound d' visit s v = .ok (.next t w) := by
  obtain ⟨hin, hin', hstep⟩ := scanRound_step h
  cases hstep with
  | deleted hdel hnext =>
    rw [scanRound_deleted hin hin' hdel]
    exact nextRecord_drive hnext hoff
  | piece h0 hdel hlfn idx longName hidx hexp hname hnext =>
    rw [scanRound_piece hin hin' h0 hdel hlfn idx hidx hexp, hname, ok_bind]
    exact nextRecord_drive hnext hoff
  | file h0 hdel hfile hvisit hnext =>
    obtain ⟨out, hout⟩ := hquiet s v.recordOffset (cstr v.longName 105)
    rw [hvisit] at hout
    obtain rfl := hout
    rw [scanRound_file hin hin' h0 hdel hfile hvisit]
    exact nextRecord_drive hnext hoff

/-- A round that ends the search with a result. -/
theorem scanRound_found_drive {R : Type} {visit : Visit R} {s t : FsState} {v : Scan} {res : R}
    (h : scanRound d visit s v = .ok (.ended (some res) t)) :
    scanRound d' visit s v = .ok (.ended (some res) t) := by
  obtain ⟨hin, hin', hstep⟩ := scanRound_step h
  cases hstep with
  | deleted _ hnext => exact nomatch nextRecord_ended hnext
  | piece _ _ _ idx longName _ _ _ hnext => exact nomatch nextRecord_ended hnext
  | found h0 hdel hfile hvisit => exact scanRound_found hin hin' h0 hdel hfile hvisit
  | file _ _ _ _ hnext => exact nomatch nextRecord_ended hnext

/-- A search that ends at a record reads nothing but the first cluster. -/
theorem scanLoop_found_drive {name : List UInt8} {rounds : Nat} {s t : FsState} {v : Scan} {off : Int}
    (h4 : FourSectors s.fileSys) (h : scanLoop d (findVisit name) rounds s v = .ok (some off, t)) :
    scanLoop d' (findVisit name) rounds s v = .ok (some off, t) := by
  induction rounds generalizing s v with
  | zero => cases h
  | succ rounds ih =>
    rw [scanLoop] at h ⊢
    obtain ⟨round, hround, h⟩ := bind_eq_ok.mp h
    cases round with
    | ended res u =>
      obtain ⟨rfl, rfl⟩ := Prod.mk.inj (Except.ok.inj h)
      rw [scanRound_found_drive hround]
      rfl
    | next u w =>
      have hrest : scanLoop d (findVisit name) rounds u w = .ok (some off, t) := h
      have hin : w.recordOffset ≠ clusterBytes s.fileSys := by
        -- the next round would begin behind the buffer
        intro hoff
        rw [h4.clusterBytes_eq] at hoff
        have hfault : scanRound d (findVisit name) u w = .error ⟨.ClusterBuffer, w.recordOffset⟩ := by
          rw [scanRound, load, if_neg (by rw [hoff]; decide), error_bind]
        cases rounds with
        | zero => cases hrest
        | succ rounds =>
          rw [scanLoop, hfault, error_bind] at hrest
          cases hrest
      rw [scanRound_next_drive (findVisit_quiet name) hround hin]
      obtain rfl | hoff := scanRound_next hround
      · exact ih h4 hrest
      · exact absurd hoff hin

end Search

/-! ## The driver on the other drive -/

section Refilled

variable {d : Drive} {s t : FsState} {cs : List Nat} (data : Nat → Bytes)

/-- The next directory load does not read the clusters. -/
def DirectoryApart (s : FsState) (cs : List Nat) : Prop :=
  s.dirClusterIndex ≠ 0 → ∃ c, s.currentDir.clusters 0 = (c : Nat) ∧ ValidCluster c ∧ c ∉ cs

theorem goodSectors_refill (hdr : FAT32_HEADER) (n sectors : Nat) :
    goodSectors (d.refill hdr cs data) n sectors = goodSectors d n sectors := by
  induction sectors generalizing n with
  | zero => rfl
  | succ sectors ih =>
    rw [goodSectors, goodSectors, ih]
    rfl

variable (hl : StandardLayout s.fileSys)
include hl

/-- The cached FAT sector is the one on the other drive, too. -/
theorem FatCached.refill (h : FatCached d s) : FatCached (d.refill s.fileSys cs data) s := by
  intro c hv hidx i hi hi'
  have hfat := hl.fat_toNat
  have hdata := hl.clusters_toNat
  rw [h c hv hidx i hi hi', Drive.refill]
  unfold ValidCluster dataClusters at hv
  refine (refill_front ?_).symm
  rw [dataStart, fatSectorBase, hidx, hfat, hdata]
  omega

/-- The directory is loaded from the other drive as it is from the drive. -/
theorem loadFirst_refill (hdir : DirectoryApart s cs) :
    loadFirst (d.refill s.fileSys cs data) s = loadFirst d s := by
  unfold loadFirst
  split
  · rename_i hidx
    obtain ⟨c, hc, hv, hmem⟩ := hdir hidx
    have hspc := hl.sectorsPerCluster_toNat
    have hle := goodSectors_le d s.waits 4
    have hcopy : memcpyObj s.ClusterBuffer 0 (d.refill s.fileSys cs data).disk (clusterBase s.fileSys c)
        (512 * goodSectors d s.waits 4) =
        memcpyObj s.ClusterBuffer 0 d.disk (clusterBase s.fileSys c) (512 * goodSectors d s.waits 4) := by
      funext a
      rw [memcpyObj, memcpyObj, Mem.copyFrom_apply, Mem.copyFrom_apply, clusterBase_valid hl hv, Drive.refill]
      split
      · rename_i ha
        obtain ⟨n, rfl⟩ := Int.eq_ofNat_of_zero_le ha.1
        rw [Int.sub_zero]
        exact refill_other hmem hv (by omega)
      · rfl
    rw [hc, load_Cluster_eq _ s c hspc (by omega), load_Cluster_eq d s c hspc (by omega),
      goodSectors_refill, hcopy]
  · rfl

/-- A search that ends at a record does so on the other drive. -/
theorem findRecord_refill (hdir : DirectoryApart s cs) {q : List UInt8} {off : Int}
    (h : findRecord d s q = .ok (some off, t)) :
    findRecord (d.refill s.fileSys cs data) s q = .ok (some off, t) := by
  unfold findRecord at h ⊢
  split at h
  · cases h
  · rename_i hlen
    unfold scan at h ⊢
    rw [if_neg hlen, loadFirst_refill data hl hdir]
    obtain ⟨⟨ok, u⟩, hload, h⟩ := bind_eq_ok.mp h
    rw [hload, ok_bind]
    cases ok with
    | true =>
      have hfs := loadFirst_fileSys hload
      exact scanLoop_found_drive ⟨hfs ▸ hl.sectorsPerCluster, hfs ▸ hl.bytesPerSector⟩ h
    | false => cases h

end Refilled

end SoreOS
