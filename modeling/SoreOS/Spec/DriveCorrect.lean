import SoreOS.Native.Filesys

/-!
# What a read delivers

`readSector` in closed form: the sectors up to the first error, from the address
that the ports hold, which is the requested one in its low 24 bits. The loads of
a FAT sector and of a cluster follow from it.

## Key results

- `commandPorts_address`: the address the drive is given
- `readSector_eq`: what a read returns and leaves in the buffer
- `load_FATSect_eq`, `load_Cluster_eq`: the same for the two loads
- `load_Cluster_good`: a cluster load without errors
- `traverseFAT_returns`, `fillFile_returns`, `printFileLoop_returns`: they do, whatever the
  disk holds
-/

namespace SoreOS

open ForStd

/-! ## The ports -/

private theorem toNat_ofInt_byte (n : Int) : (UInt8.ofInt n).toNat = (n % 256).toNat := by
  rw [UInt8.ofInt, UInt8.toNat_ofNat']
  omega

/-- The drive is given the low 24 bits of the address. -/
theorem commandPorts_address (sectors LBA : Int) :
    (commandPorts sectors LBA).address = (LBA % 16777216).toNat := by
  unfold Ports.address commandPorts
  simp only [toNat_ofInt_byte]
  rw [show ((0x40 : UInt8) &&& 0x0F).toNat = 0 from rfl]
  omega

/-- A wait ends with the byte that ends it. -/
theorem Drive.status_eq (d : Drive) (n : Nat) : d.status n = (d.wait n).ready := by
  have hwaits := (d.wait n).busy_waits
  unfold Drive.status
  generalize (d.wait n).busy = busy at hwaits
  induction busy with
  | nil => rfl
  | cons status rest ih =>
    rw [pollStatus, if_pos (hwaits status List.mem_cons_self)]
    exact ih fun status hmem => hwaits status (List.mem_cons_of_mem _ hmem)

/-- The `n`th wait ends without an error. -/
def Drive.good (d : Drive) (n : Nat) : Bool := noError (d.status n)

/-- How many of the next `sectors` waits end well before one does not. -/
def goodSectors (d : Drive) (n : Nat) : Nat → Nat
  | 0 => 0
  | sectors + 1 => if d.good n then goodSectors d (n + 1) sectors + 1 else 0

theorem goodSectors_le (d : Drive) (n sectors : Nat) : goodSectors d n sectors ≤ sectors := by
  induction sectors generalizing n with
  | zero => simp [goodSectors]
  | succ sectors ih =>
    rw [goodSectors]
    split
    · have := ih (n + 1)
      omega
    · omega

/-- All of them do, if none of their waits fails. -/
theorem goodSectors_all {d : Drive} {n sectors : Nat} (h : ∀ k, n ≤ k → k < n + sectors → d.good k = true) :
    goodSectors d n sectors = sectors := by
  induction sectors generalizing n with
  | zero => rfl
  | succ sectors ih =>
    rw [goodSectors, if_pos (h n (Nat.le_refl n) (by omega)), ih fun k hk hk' => h k (by omega) (by omega)]

theorem goodSectors_eq {d : Drive} {n : Nat} (h : ∀ k, n ≤ k → d.good k = true) (sectors : Nat) :
    goodSectors d n sectors = sectors :=
  goodSectors_all fun k hk _ => h k hk

/-! ## The sector loop -/

/-- The word loop copies the bytes of a sector. -/
theorem readWords_eq (disk : Bytes) (base : Int) (buffer : Bytes) (off : Int) (n : Nat) :
    readWords disk base buffer off n = memcpyObj buffer off disk base (2 * n) := by
  induction n with
  | zero => rfl
  | succ n ih =>
    simp only [readWords, ih]
    -- a round copies two bytes more
    show _ = ((memcpyObj buffer off disk base (2 * n)).set (off + (2 * n : Nat))
      (disk (base + (2 * n : Nat)))).set (off + (2 * n + 1 : Nat)) (disk (base + (2 * n + 1 : Nat)))
    push_cast
    rw [Int.add_assoc, Int.add_assoc]

/-- The loop over the sectors, from sector `s` on. -/
theorem readSectorLoop_eq (d : Drive) {o : Obj} (address : Nat) (sectors : Nat) {s : Nat} (n : Nat)
    (buffer : Bytes) (h : (s + sectors) * 512 ≤ o.size) :
    readSectorLoop d o address sectors s n buffer =
      .ok (decide (goodSectors d n sectors = sectors),
        memcpyObj buffer (s * 512) d.disk ((address + s) * 512) (512 * goodSectors d n sectors),
        n + min (goodSectors d n sectors + 1) sectors) := by
  induction sectors generalizing s n buffer with
  | zero => simp [readSectorLoop, goodSectors, memcpyObj, Mem.copyFrom]
  | succ sectors ih =>
    rw [readSectorLoop, goodSectors]
    by_cases hgood : d.good n = true
    · -- one sector more, then the rest of the request
      have hok : noError (d.status n) = true := hgood
      rw [if_pos hgood, if_pos hok, if_pos (by push_cast at h; omega),
        ih _ _ (by push_cast at h ⊢; omega), readWords_eq]
      have hcopy := Mem.copyFrom_add buffer (s * 512) d.disk ((address + s) * 512) 512
        (512 * goodSectors d (n + 1) sectors)
      simp only [memcpyObj]
      rw [show (((s + 1 : Nat) : Int) * 512) = (s : Int) * 512 + (512 : Nat) from by push_cast; omega,
        show (((address : Int) + ((s + 1 : Nat) : Int)) * 512) = ((address : Int) + s) * 512 + (512 : Nat)
          from by push_cast; omega, hcopy]
      simp only [Nat.add_right_cancel_iff]
      congr 3
      · congr 1
        omega
      · omega
    · have herr : ¬ noError (d.status n) = true := hgood
      rw [if_neg hgood, if_neg herr]
      simp [memcpyObj, Mem.copyFrom]

/-- A read writes nothing outside its array, whatever is asked for. -/
theorem readSectorLoop_frame {d : Drive} {o : Obj} {address sectors s n n' : Nat} {buffer m : Bytes} {ok : Bool}
    (h : readSectorLoop d o address sectors s n buffer = .ok (ok, m, n')) :
    n ≤ n' ∧ ∀ i : Int, i < 0 ∨ o.size ≤ i → m i = buffer i := by
  induction sectors generalizing s n buffer with
  | zero =>
    cases h
    exact ⟨Nat.le_refl _, fun _ _ => rfl⟩
  | succ sectors ih =>
    rw [readSectorLoop] at h
    split at h
    · split at h
      · rename_i hfits
        obtain ⟨hwaits, hkeep⟩ := ih h
        refine ⟨by omega, fun i hi => (hkeep i hi).trans ?_⟩
        rw [readWords_eq, memcpyObj, Mem.copyFrom_apply, if_neg (by push_cast; omega)]
      · exact nomatch h
    · cases h
      exact ⟨Nat.le_succ _, fun _ _ => rfl⟩

/-- A read that fits its buffer delivers the sectors before the first error. -/
theorem readSector_eq (d : Drive) {o : Obj} (n sectors : Nat) (LBA : Int) (buffer : Bytes)
    (h : sectors * 512 ≤ o.size) :
    readSector d n sectors LBA o buffer =
      .ok (decide (goodSectors d n sectors = sectors),
        memcpyObj buffer 0 d.disk (LBA % 16777216 * 512) (512 * goodSectors d n sectors),
        n + min (goodSectors d n sectors + 1) sectors) := by
  have haddress : ((LBA % 16777216).toNat : Int) = LBA % 16777216 := by omega
  rw [readSector, commandPorts_address, Int.toNat_natCast,
    readSectorLoop_eq d _ _ _ _ (by push_cast; omega)]
  simp only [Int.natCast_zero, Int.zero_mul, Int.add_zero, haddress]

/-! ## FAT sectors and clusters -/

theorem toInt_toNat_eq_zero {n : UInt32} : toInt n.toNat = 0 ↔ n = 0 := by
  have hlt : n.toNat < 4294967296 := n.toNat_lt
  rw [toInt, ← Int.dvd_iff_bmod_eq_zero, ← UInt32.toNat_inj, UInt32.toNat_zero]
  constructor
  · intro hdvd
    have hdvd : 4294967296 ∣ n.toNat := Int.natCast_dvd_natCast.mp hdvd
    exact Nat.eq_zero_of_dvd_of_lt hdvd hlt
  · intro hzero
    rw [hzero]
    exact Int.dvd_zero _

theorem toInt_emod_word (n : Int) : toInt n % 4294967296 = n % 4294967296 := @Int.bmod_emod n 4294967296

/-- The address registers take the low 24 bits, which the conversion keeps. -/
theorem toInt_emod (n : Int) : toInt n % 16777216 = n % 16777216 := by
  have hdvd : (16777216 : Int) ∣ 4294967296 := by decide
  rw [← Int.emod_emod_of_dvd (toInt n) hdvd, toInt_emod_word, Int.emod_emod_of_dvd n hdvd]

/-- Address on the disk from which the driver reads a FAT sector. -/
def fatSectorBase (hdr : FAT32_HEADER) (offset : Int) : Int :=
  (hdr.LBA_FAT_Location.toNat + offset) % 16777216 * 512

/-- Address on the disk from which the driver reads a cluster. -/
def clusterBase (hdr : FAT32_HEADER) (index : Int) : Int :=
  (hdr.LBA_Cluster_Location.toNat + (index - 2) * hdr.A_BF_BPB_SectorsPerCluster.toNat) %
    16777216 * 512

/-- A FAT sector is loaded as a whole, or the buffer and its index stay. -/
theorem load_FATSect_eq (d : Drive) (s : FsState) (offset : Int) :
    load_FATSect d s offset = .ok (d.good s.waits,
      { s with
        FATBuffer := if d.good s.waits then
          memcpyObj s.FATBuffer 0 d.disk (fatSectorBase s.fileSys offset) 512 else s.FATBuffer
        FATSecIdx := if d.good s.waits then offset else s.FATSecIdx
        waits := s.waits + 1 }) := by
  have hread := readSector_eq d (o := .FATBuffer) s.waits 1
    (toInt (s.fileSys.LBA_FAT_Location.toNat + offset)) s.FATBuffer (by decide)
  rw [toInt_emod] at hread
  unfold load_FATSect fatSectorBase
  cases hgood : d.good s.waits with
  | true =>
    simp [goodSectors, hgood] at hread
    simp [hread]
  | false =>
    simp [goodSectors, hgood, memcpyObj, Mem.copyFrom] at hread
    simp [hread]

/-- A cluster is loaded up to the first error. Its index is kept only if there is none. -/
theorem load_Cluster_eq (d : Drive) (s : FsState) (index : Int) {spc : Nat}
    (hspc : s.fileSys.A_BF_BPB_SectorsPerCluster.toNat = spc) (h : spc ≤ 4) :
    load_Cluster d s index = .ok (decide (goodSectors d s.waits spc = spc),
      { s with
        ClusterBuffer := memcpyObj s.ClusterBuffer 0 d.disk (clusterBase s.fileSys index)
          (512 * goodSectors d s.waits spc)
        ClusterSecIdx := if goodSectors d s.waits spc = spc then index else s.ClusterSecIdx
        waits := s.waits + min (goodSectors d s.waits spc + 1) spc }) := by
  have hread := readSector_eq d (o := .ClusterBuffer) s.waits spc
    (toInt (s.fileSys.LBA_Cluster_Location.toNat + (index - 2) * spc)) s.ClusterBuffer
    (by simp only [Obj.size]; omega)
  rw [toInt_emod] at hread
  unfold load_Cluster clusterBase
  rw [hspc]
  by_cases hall : goodSectors d s.waits spc = spc
  · simp [hread, hall]
  · simp [hread, hall]

/-- A cluster load whose reads succeed. -/
theorem load_Cluster_whole {d : Drive} {s : FsState} (index : Int)
    (h : s.fileSys.A_BF_BPB_SectorsPerCluster = 4) (hread : goodSectors d s.waits 4 = 4) :
    load_Cluster d s index = .ok (true,
      { s with
        ClusterBuffer := memcpyObj s.ClusterBuffer 0 d.disk (clusterBase s.fileSys index) 2048
        ClusterSecIdx := index
        waits := s.waits + 4 }) := by
  have hspc : s.fileSys.A_BF_BPB_SectorsPerCluster.toNat = 4 := by rw [h]; rfl
  rw [load_Cluster_eq d s index hspc (by omega), hread]
  simp

/-- A cluster load without errors. -/
theorem load_Cluster_good {d : Drive} {s : FsState} (index : Int)
    (h : s.fileSys.A_BF_BPB_SectorsPerCluster = 4) (hgood : ∀ n, s.waits ≤ n → d.good n = true) :
    load_Cluster d s index = .ok (true,
      { s with
        ClusterBuffer := memcpyObj s.ClusterBuffer 0 d.disk (clusterBase s.fileSys index) 2048
        ClusterSecIdx := index
        waits := s.waits + 4 }) :=
  load_Cluster_whole index h (goodSectors_eq hgood 4)

/-- A cluster load whose first read fails changes nothing. -/
theorem load_Cluster_bad {d : Drive} {s : FsState} (index : Int)
    (h : s.fileSys.A_BF_BPB_SectorsPerCluster = 4) (hbad : d.good s.waits = false) :
    load_Cluster d s index = .ok (false, { s with waits := s.waits + 1 }) := by
  have hspc : s.fileSys.A_BF_BPB_SectorsPerCluster.toNat = 4 := by rw [h]; rfl
  have hnone : goodSectors d s.waits 4 = 0 := by rw [goodSectors, if_neg (by simp [hbad])]
  rw [load_Cluster_eq d s index hspc (by omega), hnone]
  simp [memcpyObj, Mem.copyFrom]

/-- A cluster load changes the cluster buffer, its index and the number of waits. -/
theorem load_Cluster_frame {d : Drive} {s s' : FsState} {index : Int} {ok : Bool}
    (h : load_Cluster d s index = .ok (ok, s')) :
    ∃ m i n, s' = { s with ClusterBuffer := m, ClusterSecIdx := i, waits := n } := by
  unfold load_Cluster at h
  obtain ⟨⟨ok', m, n⟩, _, h⟩ := bind_eq_ok.mp h
  cases ok' with
  | true =>
    simp only [if_true, pure_eq_ok, Except.ok.injEq, Prod.mk.injEq] at h
    exact ⟨m, index, n, h.2.symm⟩
  | false =>
    simp only [Bool.false_eq_true, if_false, pure_eq_ok, Except.ok.injEq, Prod.mk.injEq] at h
    exact ⟨m, s.ClusterSecIdx, n, h.2.symm⟩

/-- A cluster load takes no wait back and writes nothing outside the buffer. -/
theorem load_Cluster_outside {d : Drive} {s s' : FsState} {index : Int} {ok : Bool}
    (h : load_Cluster d s index = .ok (ok, s')) :
    s.waits ≤ s'.waits ∧ ∀ i : Int, i < 0 ∨ 2048 ≤ i → s'.ClusterBuffer i = s.ClusterBuffer i := by
  unfold load_Cluster readSector at h
  obtain ⟨⟨ok', m, n⟩, hread, h⟩ := bind_eq_ok.mp h
  have hframe := readSectorLoop_frame hread
  cases ok' with
  | true =>
    cases h
    exact hframe
  | false =>
    cases h
    exact hframe

/-- What fetching a FAT sector may change. -/
structure FatFrame (s s' : FsState) : Prop where
  waits : s.waits ≤ s'.waits
  eq : s' = { s with FATSecIdx := s'.FATSecIdx, FATBuffer := s'.FATBuffer, waits := s'.waits }

theorem FatFrame.refl (s : FsState) : FatFrame s s := ⟨Nat.le_refl _, rfl⟩

theorem FatFrame.trans {s t u : FsState} (h : FatFrame s t) (h' : FatFrame t u) : FatFrame s u := by
  refine ⟨h.waits.trans h'.waits, ?_⟩
  rw [h'.eq, h.eq]

/-- Fetching a FAT sector always returns. -/
theorem reachFATSect_returns (d : Drive) (s : FsState) (offset : Int) :
    ∃ ok t, reachFATSect d s offset = .ok (ok, t) ∧ FatFrame s t := by
  unfold reachFATSect
  split
  · exact ⟨_, _, load_FATSect_eq d s offset, Nat.le_succ _, rfl⟩
  · exact ⟨true, s, rfl, .refl s⟩

/-- The walk of a chain from `clusters[i - 1]` on always returns, whatever the FAT holds. -/
theorem traverseFATLoop_returns (d : Drive) (rounds : Nat) {i : Int} (hi : 0 < i) (s : FsState)
    (clusters : Mem Int) : ∃ ok clusters' t,
      traverseFATLoop d rounds i s clusters = .ok (ok, clusters', t) ∧ FatFrame s t ∧
        clusters' 0 = clusters 0 := by
  induction rounds generalizing i s clusters with
  | zero => exact ⟨_, _, _, rfl, .refl s, rfl⟩
  | succ rounds ih =>
    rw [traverseFATLoop]
    split
    · exact ⟨_, _, _, rfl, .refl s, rfl⟩
    · obtain ⟨ok, t, hreach, hframe⟩ := reachFATSect_returns d s (clusters (i - 1) / 128)
      rw [hreach, ok_bind]
      cases ok with
      | true =>
        obtain ⟨ok, clusters', u, hrun, hframe', hfirst⟩ := ih (i := i + 1) (by omega) t (clusters.set i _)
        exact ⟨ok, clusters', u, hrun, hframe.trans hframe', by rw [hfirst, Mem.set_other _ _ (by omega)]⟩
      | false => exact ⟨_, _, _, rfl, hframe, rfl⟩

theorem traverseFAT_returns (d : Drive) (s : FsState) (startCluster : Int) (clusters : Mem Int) :
    ∃ ok clusters' t, traverseFAT d s startCluster clusters = .ok (ok, clusters', t) ∧
      FatFrame s t ∧ clusters' 0 = startCluster := by
  obtain ⟨ok, clusters', t, hrun, hframe, hfirst⟩ :=
    traverseFATLoop_returns d 7 (i := 1) (by omega) s (clusters.set 0 startCluster)
  exact ⟨ok, clusters', t, hrun, hframe, hfirst.trans (Mem.set_same _ _ _)⟩

/-- Filling a file from a record always returns, and the start cluster is the record's. -/
theorem fillFile_returns (d : Drive) (s : FsState) (r : Bytes) (file : File) :
    ∃ file' t, fillFile d s r file = .ok (file', t) ∧ FatFrame s t ∧
      file'.type = (if attrib r &&& 0x10 ≠ 0 then FTYPE_DIRECTORY else FTYPE_FILE) ∧
      file'.size = toInt (readDD r 0x1C).toNat ∧
      file'.clusters 0 = if recordCluster r = 0 then toInt s.fileSys.A_BF_BPB_RootDirStrtClus.toNat
        else recordCluster r := by
  rw [fillFile]
  dsimp only
  obtain ⟨ok, clusters', t, hwalk, hframe, hfirst⟩ := traverseFAT_returns d s
    (if recordCluster r = 0 then toInt s.fileSys.A_BF_BPB_RootDirStrtClus.toNat else recordCluster r)
    file.clusters
  rw [hwalk]
  exact ⟨_, t, rfl, hframe, rfl, by dsimp only, hfirst⟩

/-! ## Printing -/

/-- What printing a file may change. -/
def PrintFrame (s s' : FsState) : Prop :=
  s' = { s with
    ClusterBuffer := s'.ClusterBuffer
    ClusterSecIdx := s'.ClusterSecIdx
    waits := s'.waits
    out := s'.out }

/-- Printing always returns, whatever the cluster list holds. -/
theorem printFileLoop_returns (d : Drive) (clusters : Mem Int) (rounds : Nat) {i : Int} {s : FsState}
    (h : s.fileSys.A_BF_BPB_SectorsPerCluster = 4) (size : Int) :
    ∃ t, printFileLoop d clusters rounds i s size = .ok t ∧ PrintFrame s t ∧ s.out <+: t.out := by
  induction rounds generalizing i s size with
  | zero => exact ⟨s, rfl, rfl, List.prefix_refl _⟩
  | succ rounds ih =>
    rw [printFileLoop]
    split
    · have hspc : s.fileSys.A_BF_BPB_SectorsPerCluster.toNat = 4 := by rw [h]; rfl
      have hload := load_Cluster_eq d s (clusters i) hspc (by omega)
      obtain ⟨m, idx, n, hframe⟩ := load_Cluster_frame hload
      rw [hframe] at hload
      rw [hload, ok_bind]
      dsimp only
      generalize (if size > 2048 then 2048 else size) = length
      obtain ⟨u, hrun, hprint, hout⟩ := @ih (i + 1)
        { s with ClusterBuffer := m, ClusterSecIdx := idx, waits := n, out := s.out ++ m.read 0 length.toNat }
        h (toInt (size - 2048))
      refine ⟨u, hrun, ?_, (List.prefix_append _ _).trans hout⟩
      rw [PrintFrame, hprint]
    · exact ⟨s, rfl, rfl, List.prefix_refl _⟩

end SoreOS
