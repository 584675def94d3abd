import SoreOS.Spec.FatCache
import SoreOS.Spec.Volume

/-!
# Reading a file

On the media utility's volume, without read errors: the FAT walk finds the
clusters of a chain, and printing them shows the bytes of the file.

## Key results

- `traverseFAT_chain`: the clusters of a chain, from any state with a good cache
- `printFile_chain`: the bytes that are printed
- `printFile_traverseFAT`: both together, from every reachable state
-/

namespace SoreOS

open ForStd

/-! ## Where the driver reads -/

/-- The cached sector is the one on the disk if it has the entry of a valid cluster. -/
def FatCached (d : Drive) (s : FsState) : Prop :=
  ∀ c, ValidCluster c → s.FATSecIdx = (c : Int) / 128 → ∀ i : Int, 0 ≤ i → i < 512 →
    s.FATBuffer i = d.disk (fatSectorBase s.fileSys s.FATSecIdx + i)

theorem CacheOk.fatCached {d : Drive} {s : FsState} (h : CacheOk d s) : FatCached d s :=
  fun c _ hidx => h (by omega)

section Layout

variable {d : Drive} {s : FsState} (hl : StandardLayout s.fileSys)
include hl

/-- The cached sector holds the entry of a cluster. -/
theorem fatNext_cached (hc : FatCached d s) {c : Nat} (hv : ValidCluster c)
    (hidx : s.FATSecIdx = (c : Int) / 128) :
    s.FATBuffer.loadLE (4 * ((c : Int) % 128)) 4 = fatNext d.disk s.fileSys c := by
  have hfat := hl.fat_toNat
  apply Mem.loadLE_congr
  intro i hi
  rw [hc c hv hidx _ (by omega) (by omega), hidx, fatSectorBase, hfat]
  unfold ValidCluster dataClusters at hv
  apply congrArg d.disk
  omega

/-- What the driver takes from the cached sector as the next cluster. -/
theorem next_cached (hc : FatCached d s) {c next : Nat} (hv : ValidCluster c)
    (hidx : s.FATSecIdx = (c : Int) / 128) (hnext : fatNext d.disk s.fileSys c = next)
    (hsmall : next < 2147483648) : toInt (readDD s.FATBuffer (4 * ((c : Int) % 128))).toNat = next := by
  have hentry := fatNext_cached hl hc hv hidx
  rw [hnext] at hentry
  rw [readDD, hentry, UInt32.toNat_ofNat', Nat.mod_eq_of_lt (by omega), toInt_eq (by omega) (by omega)]

/-- The driver reads a valid cluster from its place. -/
theorem clusterBase_valid {c : Nat} (hv : ValidCluster c) :
    clusterBase s.fileSys c = (s.fileSys.LBA_Cluster_Location.toNat + ((c : Int) - 2) * 4) * 512 := by
  unfold ValidCluster dataClusters at hv
  have hdata := hl.clusters_toNat
  have hspc := hl.sectorsPerCluster_toNat
  rw [clusterBase, hdata, hspc]
  omega

end Layout

/-- No valid cluster is the end mark. -/
theorem ValidCluster.ne_END_OF_CHAIN {c : Nat} (hv : ValidCluster c) : (c : Int) ≠ END_OF_CHAIN := by
  have := hv.2
  unfold dataClusters at this
  unfold END_OF_CHAIN
  omega

/-! ## The walk -/

/-- The cluster array lists a chain from index `i` on, and the end mark behind it
    if there is room. -/
structure Lists (clusters : Mem Int) (i : Int) (cs : List Nat) : Prop where
  cluster : ∀ (k : Nat) (h : k < cs.length), clusters (i + k) = cs[k]
  mark : i + cs.length < 8 → clusters (i + cs.length) = END_OF_CHAIN

namespace Lists

variable {clusters : Mem Int} {i : Int} {c : Nat} {cs : List Nat}

theorem nil (h : i < 8 → clusters i = END_OF_CHAIN) : Lists clusters i [] := by
  refine ⟨fun _ hk => absurd hk (Nat.not_lt_zero _), ?_⟩
  rw [List.length_nil, Int.natCast_zero, Int.add_zero]
  exact h

theorem cons (hc : clusters i = c) (h : Lists clusters (i + 1) cs) : Lists clusters i (c :: cs) := by
  refine ⟨fun k hk => ?_, ?_⟩
  · cases k with
    | zero =>
      rw [Int.natCast_zero, Int.add_zero]
      exact hc
    | succ k =>
      rw [Int.natCast_succ, Int.add_comm (k : Int), ← Int.add_assoc]
      exact h.cluster k (Nat.lt_of_succ_lt_succ hk)
  · rw [List.length_cons, Int.natCast_succ, Int.add_comm (cs.length : Int), ← Int.add_assoc]
    exact h.mark

theorem head (h : Lists clusters i (c :: cs)) : clusters i = c := by
  have hfirst := h.cluster 0 (Nat.zero_lt_succ _)
  rwa [Int.natCast_zero, Int.add_zero] at hfirst

theorem tail (h : Lists clusters i (c :: cs)) : Lists clusters (i + 1) cs := by
  refine ⟨fun k hk => ?_, ?_⟩
  · have hnext := h.cluster (k + 1) (Nat.succ_lt_succ hk)
    rwa [Int.natCast_succ, Int.add_comm (k : Int), ← Int.add_assoc] at hnext
  · have hmark := h.mark
    rwa [List.length_cons, Int.natCast_succ, Int.add_comm (cs.length : Int), ← Int.add_assoc] at hmark

end Lists

/-- The walk stops at the end mark. -/
theorem traverseFATLoop_end (d : Drive) (rounds : Nat) {i : Int} (s : FsState) {clusters : Mem Int}
    (h : clusters (i - 1) = END_OF_CHAIN) :
    traverseFATLoop d rounds i s clusters = .ok (true, clusters, s) := by
  cases rounds with
  | zero => rfl
  | succ rounds =>
    rw [traverseFATLoop, if_pos h]
    rfl

/-- One round of the walk, at a valid cluster. -/
theorem traverseFATLoop_step {d : Drive} {s : FsState} (hl : StandardLayout s.fileSys)
    (hc : CacheOk d s) (hgood : d.good s.waits = true) {c next : Nat} (hv : ValidCluster c)
    (hnext : fatNext d.disk s.fileSys c = next) (hsmall : next < 2147483648) (rounds : Nat) {i : Int}
    {clusters : Mem Int} (hi : clusters (i - 1) = c) :
    ∃ t, FatFrame s t ∧ CacheOk d t ∧ traverseFATLoop d (rounds + 1) i s clusters =
      traverseFATLoop d rounds (i + 1) t (clusters.set i next) := by
  obtain ⟨t, hreach, hframe, hct, hidx⟩ := @reachFATSect_good d s ((c : Int) / 128) hc hgood
  have hfs : t.fileSys = s.fileSys := by rw [hframe.eq]
  have hread := next_cached (hfs ▸ hl) hct.fatCached hv hidx (hfs ▸ hnext) hsmall
  refine ⟨t, hframe, hct, ?_⟩
  rw [traverseFATLoop, hi, if_neg hv.ne_END_OF_CHAIN, hreach]
  simp only [ok_bind, if_true, hread]

/-- The walk from `clusters[i - 1]` on, which begins the chain. -/
theorem traverseFATLoop_chain {d : Drive} {cs : List Nat} {s : FsState}
    (hl : StandardLayout s.fileSys) (hc : CacheOk d s)
    (hgood : ∀ n, s.waits ≤ n → d.good n = true) (hchain : FatChain d.disk s.fileSys cs)
    {rounds : Nat} {i : Int} (hrounds : i + rounds = 8) {clusters : Mem Int}
    (hlen : i - 1 + cs.length ≤ 8) (hfirst : ∀ c ∈ cs.head?, clusters (i - 1) = (c : Nat)) :
    ∃ clusters' s', traverseFATLoop d rounds i s clusters = .ok (true, clusters', s') ∧
      FatFrame s s' ∧ Lists clusters' (i - 1) cs ∧ ∀ k < i, clusters' k = clusters k := by
  induction cs generalizing s rounds i clusters with
  | nil => exact absurd hchain id
  | cons c cs ih =>
    have hhead : clusters (i - 1) = c := hfirst c rfl
    have hv := hchain.valid c List.mem_cons_self
    cases rounds with
    | zero =>
      -- the eighth cluster: the array is full, so the chain ends here
      obtain rfl : cs = [] := by
        cases cs with
        | nil => rfl
        | cons _ _ => simp only [List.length_cons] at hlen; omega
      refine ⟨clusters, s, rfl, .refl s, .cons hhead (.nil fun h => ?_), fun _ _ => rfl⟩
      omega
    | succ rounds =>
      cases cs with
      | nil =>
        obtain ⟨t, hframe, _, hstep⟩ := traverseFATLoop_step hl hc (hgood _ (Nat.le_refl _)) hv
          hchain.2 (by decide) rounds hhead
        have hmark : (clusters.set i (0x0FFFFFFF : Nat)) i = END_OF_CHAIN := Mem.set_same _ _ _
        have hend : (clusters.set i (0x0FFFFFFF : Nat)) (i + 1 - 1) = END_OF_CHAIN := by
          rw [Int.add_sub_cancel]
          exact hmark
        refine ⟨_, t, hstep.trans (traverseFATLoop_end d rounds t hend), hframe,
          .cons ?_ (.nil fun _ => ?_), fun k hk => Mem.set_other _ _ (by omega)⟩
        · rw [Mem.set_other _ _ (by omega)]
          exact hhead
        · rw [Int.sub_add_cancel]
          exact hmark
      | cons c' cs =>
        obtain ⟨hvc, hnext, hrest⟩ := hchain
        have hv' := hrest.valid c' List.mem_cons_self
        obtain ⟨t, hframe, hct, hstep⟩ := traverseFATLoop_step hl hc (hgood _ (Nat.le_refl _)) hv
          hnext (by have := hv'.2; unfold dataClusters at this; omega) rounds hhead
        have hfs : t.fileSys = s.fileSys := by rw [hframe.eq]
        obtain ⟨clusters', s', hrun, hframe', hlists, hkeep⟩ := @ih t (hfs ▸ hl) hct
          (fun n hn => hgood n (hframe.waits.trans hn)) (hfs ▸ hrest)
          rounds (i + 1) (by omega) (clusters.set i c')
          (by simp only [List.length_cons] at hlen ⊢; push_cast at hlen ⊢; omega) (by
            intro c'' hc''
            cases hc''
            rw [Int.add_sub_cancel, Mem.set_same])
        rw [Int.add_sub_cancel] at hlists
        refine ⟨clusters', s', hstep.trans hrun, hframe.trans hframe', .cons ?_ ?_, fun k hk => ?_⟩
        · rw [hkeep _ (by omega), Mem.set_other _ _ (by omega)]
          exact hhead
        · rw [Int.sub_add_cancel]
          exact hlists
        · rw [hkeep k (by omega), Mem.set_other _ _ (by omega)]

/-- The walk from the start cluster of a chain. -/
theorem traverseFAT_chain {d : Drive} {cs : List Nat} {s : FsState} (hl : StandardLayout s.fileSys)
    (hc : CacheOk d s) (hgood : ∀ n, s.waits ≤ n → d.good n = true) {c : Nat}
    (hchain : FatChain d.disk s.fileSys (c :: cs)) (hlen : (c :: cs).length ≤ 8) (clusters : Mem Int) :
    ∃ clusters' s', traverseFAT d s c clusters = .ok (true, clusters', s') ∧
      FatFrame s s' ∧ Lists clusters' 0 (c :: cs) := by
  obtain ⟨clusters', s', hrun, hframe, hlists, _⟩ := @traverseFATLoop_chain d (c :: cs) s hl hc hgood
    hchain 7 1 (by omega) (clusters.set 0 c) (by omega) (by
      intro c' hc'
      cases hc'
      exact Mem.set_same _ _ _)
  exact ⟨clusters', s', hrun, hframe, hlists⟩

/-! ## Loading the file system -/

/-- The state after the root directory, whose chain begins with cluster 2, was opened. -/
structure Booted (d : Drive) (cs : List Nat) (s : FsState) : Prop where
  fileSys : s.fileSys = volumeHeader d.disk
  root : Lists s.currentDir.clusters 0 (2 :: cs)
  dirClusterIndex : s.dirClusterIndex = 0
  ClusterSecIdx : s.ClusterSecIdx = 2
  buffer : s.ClusterBuffer.read 0 2048 = clusterData d.disk s.fileSys 2
  sysPath : s.sysPath = fun _ => 0

theorem two_valid : ValidCluster 2 := by
  unfold ValidCluster dataClusters
  omega

/-- Opening a directory without errors. -/
theorem openDirectory_whole {d : Drive} {s : FsState} (directory : File) {c : Int}
    (hc : directory.clusters 0 = c) (h : s.fileSys.A_BF_BPB_SectorsPerCluster = 4)
    (hread : goodSectors d s.waits 4 = 4) :
    openDirectory d s directory = .ok (true,
      { s with
        ClusterBuffer := memcpyObj s.ClusterBuffer 0 d.disk (clusterBase s.fileSys c) 2048
        ClusterSecIdx := c
        dirClusterIndex := 0
        waits := s.waits + 4 }) := by
  rw [openDirectory, hc, load_Cluster_whole c h hread]
  rfl

theorem openDirectory_good {d : Drive} {s : FsState} (directory : File) {c : Int}
    (hc : directory.clusters 0 = c) (h : s.fileSys.A_BF_BPB_SectorsPerCluster = 4)
    (hgood : ∀ n, s.waits ≤ n → d.good n = true) :
    openDirectory d s directory = .ok (true,
      { s with
        ClusterBuffer := memcpyObj s.ClusterBuffer 0 d.disk (clusterBase s.fileSys c) 2048
        ClusterSecIdx := c
        dirClusterIndex := 0
        waits := s.waits + 4 }) :=
  openDirectory_whole directory hc h (goodSectors_eq hgood 4)

/-- A drive that is there is loaded if the reads of the boot sector, of the root directory's chain
    and of its first cluster succeed. -/
theorem loadFileSystem_reads {d : Drive} {t : FsState} {clusters : Mem Int} {cs : List Nat}
    (hid : identify d = some true) (hfirst : d.good 0 = true) (hl : StandardLayout (volumeHeader d.disk))
    (hwalk : traverseFAT d { FsState.boot with waits := 1, fileSys := volumeHeader d.disk } (2 : Nat)
      FsState.boot.currentDir.clusters = .ok (true, clusters, t))
    (hframe : FatFrame { FsState.boot with waits := 1, fileSys := volumeHeader d.disk } t)
    (hlists : Lists clusters 0 (2 :: cs)) (hread : goodSectors d t.waits 4 = 4) :
    ∃ s, loadFileSystem d .boot = some (.ok (true, s)) ∧ Booted d cs s ∧ s.waits = t.waits + 4 := by
  obtain ⟨buffer, hsector, hhdr⟩ : ∃ buffer, readSector d 0 1 1 .sector (fun _ => 0) =
      .ok (true, buffer, 1) ∧ readHeader buffer = volumeHeader d.disk := by
    have hread := readSector_eq d (o := .sector) 0 1 1 (fun _ => 0) (by decide)
    rw [show goodSectors d 0 1 = 1 from if_pos hfirst] at hread
    refine ⟨_, by simpa using hread, ?_⟩
    apply readHeader_congr
    intro i hi hi'
    rw [memcpyObj, Mem.copyFrom_apply, if_pos (by omega), subBuffer, Int.sub_zero]
  have hfs : t.fileSys = volumeHeader d.disk := by rw [hframe.eq]
  have hroot : toInt (volumeHeader d.disk).A_BF_BPB_RootDirStrtClus.toNat = (2 : Nat) := by
    rw [hl.rootCluster]; decide
  -- the first cluster of the root directory is loaded
  have hopen := openDirectory_whole
    (s := { t with currentDir := { t.currentDir with clusters := clusters } })
    { t.currentDir with clusters := clusters } (hlists.cluster 0 (Nat.succ_pos _))
    (by rw [hfs]; exact hl.sectorsPerCluster) hread
  refine ⟨{ t with
    currentDir := { t.currentDir with clusters := clusters }
    ClusterBuffer := memcpyObj t.ClusterBuffer 0 d.disk (clusterBase t.fileSys (2 : Nat)) 2048
    ClusterSecIdx := (2 : Nat)
    dirClusterIndex := 0
    waits := t.waits + 4 }, ?_, ⟨hfs, hlists, rfl, rfl, ?_, by rw [hframe.eq]; rfl⟩, rfl⟩
  · unfold loadFileSystem
    rw [hid, Option.map_some, if_pos rfl]
    refine congrArg some (bind_of_ok hsector ?_)
    show openRoot d { FsState.boot with waits := 1, fileSys := readHeader buffer } = _
    rw [hhdr, openRoot]
    refine bind_of_ok (a := (true, clusters, t)) ?_ hopen
    rw [hroot]
    exact hwalk
  · simp only [clusterData, memcpyObj]
    rw [Mem.read_copyFrom _ _ _ _ (Nat.le_refl _), clusterBase_valid (hfs ▸ hl) two_valid]

/-- A drive that is there and reads without errors is loaded. -/
theorem loadFileSystem_good {d : Drive} (hid : identify d = some true)
    (hgood : ∀ n, d.good n = true) (hl : StandardLayout (volumeHeader d.disk)) {cs : List Nat}
    (hchain : FatChain d.disk (volumeHeader d.disk) (2 :: cs)) (hlen : (2 :: cs).length ≤ 8) :
    ∃ s, loadFileSystem d .boot = some (.ok (true, s)) ∧ Booted d cs s := by
  -- the root directory's chain is walked with an empty cache
  obtain ⟨clusters, t, hwalk, hframe, hlists⟩ := traverseFAT_chain (d := d)
    (s := { FsState.boot with waits := 1, fileSys := volumeHeader d.disk }) hl
    (fun hne => absurd rfl hne) (fun n _ => hgood n) hchain hlen FsState.boot.currentDir.clusters
  obtain ⟨s, hload, hboot, -⟩ := loadFileSystem_reads hid (hgood 0) hl hwalk hframe hlists
    (goodSectors_eq (fun n _ => hgood n) 4)
  exact ⟨s, hload, hboot⟩

/-! ## Printing -/

/-- What the loop prints of clusters with these contents, from a value of its counter on. -/
def printedData : List (List UInt8) → Int → List UInt8
  | [], _ => []
  | data :: rest, size => data.take (min size 2048).toNat ++ printedData rest (toInt (size - 2048))

/-- A counter that stays in range counts the bytes. -/
theorem printedData_flatten {l : List (List UInt8)} (hlen : ∀ data ∈ l, data.length = 2048) {size : Int}
    (hlow : 2048 * l.length ≤ size + 2147485696) (hhigh : size < 2147483648) :
    printedData l size = l.flatten.take size.toNat := by
  induction l generalizing size with
  | nil => rw [printedData, List.flatten_nil, List.take_nil]
  | cons data rest ih =>
    have hdata := hlen data List.mem_cons_self
    have htake : data.take (min size 2048).toNat = data.take size.toNat := by
      by_cases hfull : 2048 ≤ size
      · rw [List.take_of_length_le (by omega), List.take_of_length_le (by omega)]
      · rw [Int.min_eq_left (by omega)]
    rw [printedData, List.flatten_cons, List.take_append, hdata, htake]
    cases rest with
    | nil => rw [printedData, List.flatten_nil, List.take_nil]
    | cons data' rest =>
      simp only [List.length_cons] at hlow
      rw [toInt_eq (by omega) (by omega),
        ih (fun d hd => hlen d (List.mem_cons_of_mem _ hd)) (by simp only [List.length_cons]; omega) (by omega),
        show (size - 2048).toNat = size.toNat - 2048 from by omega]

/-- The round of the loop in which a negative counter comes back as a positive number. -/
def overflowRound (size : Int) : Nat := ((size + 2147483648) / 2048 + 1).toNat

/-- A negative counter leaves out the clusters in front of that round and prints the others in full. -/
theorem printedData_negative {l : List (List UInt8)} (hlen : ∀ data ∈ l, data.length = 2048) (hle : l.length ≤ 8)
    {size : Int} (hlow : -2147483648 ≤ size) (hneg : size < 0) :
    printedData l size = (l.drop (overflowRound size)).flatten := by
  induction l generalizing size with
  | nil => rw [List.drop_nil]; rfl
  | cons data rest ih =>
    have hrest : ∀ d ∈ rest, d.length = 2048 := fun d hd => hlen d (List.mem_cons_of_mem _ hd)
    have hfew : rest.length ≤ 8 := by
      rw [List.length_cons] at hle
      omega
    rw [printedData, Int.min_eq_left (by omega), Int.toNat_of_nonpos (by omega), List.take_zero, List.nil_append]
    by_cases hin : -2147483648 ≤ size - 2048
    · have hround : overflowRound size = overflowRound (size - 2048) + 1 := by
        unfold overflowRound
        omega
      rw [toInt_eq hin (by omega), ih hrest hfew hin (by omega), hround, List.drop_succ_cons]
    · -- the counter is the greatest it has ever been
      have hround : overflowRound size = 1 := by
        unfold overflowRound
        omega
      have hback : toInt (size - 2048) = size - 2048 + 4294967296 := by
        rw [toInt, Int.bmod_def]
        omega
      have hall : rest.flatten.length = 2048 * rest.length := by
        rw [List.length_flatten, List.map_congr_left hrest, List.map_const', List.sum_replicate_nat, Nat.mul_comm]
      rw [hback, printedData_flatten hrest (by omega) (by omega), hround, List.drop_succ_cons, List.drop_zero,
        List.take_of_length_le (by omega)]

/-- Printing from the `i`th cluster on without errors, if the array has the clusters that the rounds reach. -/
theorem printFileLoop_data {d : Drive} (rounds : Nat) {cs : List Nat} {s : FsState}
    (hl : StandardLayout s.fileSys) (hgood : ∀ n, s.waits ≤ n → d.good n = true)
    (hv : ∀ c ∈ cs, ValidCluster c) {i : Int} {clusters : Mem Int}
    (hknown : ∀ k : Nat, k < rounds → (∀ hk : k < cs.length, clusters (i + k) = cs[k]) ∧
      (k = cs.length → clusters (i + k) = END_OF_CHAIN)) (size : Int) :
    ∃ t, printFileLoop d clusters rounds i s size = .ok t ∧
      t.out = s.out ++ printedData ((cs.take rounds).map (clusterData d.disk s.fileSys)) size := by
  induction rounds generalizing cs s i size with
  | zero => exact ⟨s, rfl, by simp [printedData]⟩
  | succ rounds ih =>
    obtain ⟨hcluster, hmark⟩ := hknown 0 (Nat.succ_pos _)
    rw [Int.natCast_zero, Int.add_zero] at hcluster hmark
    rw [printFileLoop]
    cases cs with
    | nil =>
      rw [if_neg (not_not.mpr (hmark rfl))]
      exact ⟨s, rfl, by simp [printedData]⟩
    | cons c cs =>
      have hvc := hv c List.mem_cons_self
      have hhead : clusters i = c := hcluster (Nat.succ_pos _)
      have hload := load_Cluster_good c hl.sectorsPerCluster hgood
      rw [clusterBase_valid hl hvc] at hload
      rw [hhead, if_pos hvc.ne_END_OF_CHAIN, hload, ok_bind, List.take_succ_cons, List.map_cons, printedData]
      dsimp only
      rw [show (if size > 2048 then 2048 else size) = min size 2048 from by split <;> omega]
      obtain ⟨t, hrun, hout⟩ := @ih cs { s with
          ClusterBuffer := memcpyObj s.ClusterBuffer 0 d.disk
            ((s.fileSys.LBA_Cluster_Location.toNat + ((c : Int) - 2) * 4) * 512) 2048
          ClusterSecIdx := c
          waits := s.waits + 4
          out := s.out ++ (clusterData d.disk s.fileSys c).take (min size 2048).toNat }
        hl (fun n hn => hgood n (by simp only at hn; omega))
        (fun c' hc' => hv c' (List.mem_cons_of_mem _ hc')) (i + 1)
        (fun k hk => by
          obtain ⟨hcluster, hmark⟩ := hknown (k + 1) (by omega)
          rw [show i + 1 + (k : Int) = i + ((k + 1 : Nat) : Int) from by push_cast; omega]
          exact ⟨fun hk => hcluster (by simpa using hk), fun hk => hmark (by simpa using hk)⟩)
        (toInt (size - 2048))
      refine ⟨t, ?_, by rw [hout, List.append_assoc]⟩
      -- a full cluster, or the part of it that the file still has
      rw [memcpyObj, Mem.read_copyFrom _ _ _ _ (by omega), ← Mem.take_read _ _ (by omega : (min size 2048).toNat ≤ 2048)]
      exact hrun

/-- The first `size` bytes of a chain that the counter does not run out of range in. -/
theorem printedData_chain (disk : Bytes) (hdr : FAT32_HEADER) (cs : List Nat) {size : Int}
    (hlow : 2048 * cs.length ≤ size + 2147485696) (hhigh : size < 2147483648) :
    printedData (cs.map (clusterData disk hdr)) size = (chainData disk hdr cs).take size.toNat := by
  have hlen : ∀ data ∈ cs.map (clusterData disk hdr), data.length = 2048 := by
    intro data hdata
    obtain ⟨c, _, rfl⟩ := List.mem_map.mp hdata
    exact length_clusterData disk hdr c
  rw [printedData_flatten hlen (by rwa [List.length_map]) hhigh, chainData, List.flatMap_def]

/-- A file on the utility's volume is printed as it is on the disk: from every state
    that the file system can reach, if no read fails from then on, walking the chain of
    the start cluster and printing shows the first `size` bytes of the chain. -/
theorem printFile_traverseFAT {d : Drive} {s : FsState} (hreach : Reachable d s)
    (hl : StandardLayout s.fileSys) (hgood : ∀ n, s.waits ≤ n → d.good n = true) {c : Nat}
    {cs : List Nat} (hchain : FatChain d.disk s.fileSys (c :: cs)) (hlen : (c :: cs).length ≤ 8)
    (clusters : Mem Int) (type : UInt8) {size : Nat} (hsize : size < 2147483648) :
    ∃ clusters' s₁ s₂, traverseFAT d s c clusters = .ok (true, clusters', s₁) ∧
      printFile d s₁ { type := type, size := size, clusters := clusters' } = .ok s₂ ∧
      s₂.out = s.out ++ (chainData d.disk s.fileSys (c :: cs)).take size := by
  obtain ⟨clusters', s₁, hwalk, hframe, hlists⟩ :=
    traverseFAT_chain hl hreach.cacheOk hgood hchain hlen clusters
  have hfs : s₁.fileSys = s.fileSys := by rw [hframe.eq]
  have hout : s₁.out = s.out := by rw [hframe.eq]
  obtain ⟨s₂, hprint, hout₂⟩ := @printFileLoop_data d 8 (c :: cs)
    { s₁ with dirClusterIndex := -1 } (hfs ▸ hl) (fun n hn => hgood n (hframe.waits.trans hn))
    hchain.valid 0 clusters' (fun k hk => ⟨fun hlt => hlists.cluster k hlt, fun hend => by
      subst hend
      exact hlists.mark (by omega)⟩) size
  refine ⟨clusters', s₁, s₂, hwalk, hprint, ?_⟩
  rw [hout₂, List.take_of_length_le hlen, printedData_chain _ _ _ (by omega) (by omega), Int.toNat_natCast]
  simp only [hout, hfs]

/-! ## A volume with one file -/

/-- A drive that reads without errors. -/
def healthyDrive (disk : Bytes) : Drive where
  disk := disk
  wait := fun _ => .good
  identifyStatus := [0x08, 0x08]

theorem healthyDrive_good (disk : Bytes) (n : Nat) : (healthyDrive disk).good n = true := by
  rw [Drive.good, Drive.status_eq]
  show noError 0x08 = true
  decide

/-- A drive of the utility's layout is loaded. -/
theorem loadFileSystem_healthy (fat : Nat → Nat) (data : Nat → Int → UInt8) {cs : List Nat}
    (hroot : FatChain (volume fat data) defaultHeader (2 :: cs)) (hlen : (2 :: cs).length ≤ 8) :
    ∃ s, loadFileSystem (healthyDrive (volume fat data)) .boot = some (.ok (true, s)) ∧
      Booted (healthyDrive (volume fat data)) cs s ∧ s.fileSys = defaultHeader := by
  have hhdr : volumeHeader (healthyDrive (volume fat data)).disk = defaultHeader :=
    volumeHeader_volume fat data
  obtain ⟨s, hload, hboot⟩ := loadFileSystem_good (d := healthyDrive (volume fat data)) rfl
    (healthyDrive_good _) (hhdr ▸ defaultHeader_layout) (hhdr ▸ hroot) hlen
  exact ⟨s, hload, hboot, hboot.fileSys.trans hhdr⟩

/-- The root directory of a volume, as the buffer holds it. -/
theorem Booted.ClusterBuffer_volume {fat : Nat → Nat} {data : Nat → Int → UInt8} {cs : List Nat}
    {s : FsState} (h : Booted (healthyDrive (volume fat data)) cs s) (hhdr : s.fileSys = defaultHeader)
    {i : Nat} (hi : i < 2048) : s.ClusterBuffer i = data 2 i := by
  have hread := h.buffer
  rw [hhdr, show (healthyDrive (volume fat data)).disk = volume fat data from rfl,
    clusterData_volume fat data (by omega)] at hread
  have := Mem.eq_of_read_eq hread hi
  rwa [Int.zero_add] at this

/-- The FAT of a volume with a file in the clusters 5, 9 and 4. -/
def lettersFat (c : Nat) : Nat := if c = 5 then 9 else if c = 9 then 4 else 0x0FFFFFFF

/-- The file's contents: one letter to a cluster. -/
def lettersData (c : Nat) (_ : Int) : UInt8 := if c = 5 then 65 else if c = 9 then 66 else 67

theorem letters_chain : FatChain (volume lettersFat lettersData) defaultHeader [5, 9, 4] := by
  have hvalid : ∀ c, 2 ≤ c → c < 10 → ValidCluster c := by
    intro c h h'
    unfold ValidCluster dataClusters
    omega
  exact ⟨hvalid 5 (by omega) (by omega), fatNext_volume _ _ (by omega) (by decide),
    hvalid 9 (by omega) (by omega), fatNext_volume _ _ (by omega) (by decide),
    hvalid 4 (by omega) (by omega), fatNext_volume _ _ (by omega) (by decide)⟩

/-- The file of that volume, with three bytes in its last cluster. -/
theorem printFile_traverseFAT_letters :
    let d := healthyDrive (volume lettersFat lettersData)
    ∃ s clusters' s₁ s₂, traverseFAT d s (5 : Nat) (fun _ => 0) = .ok (true, clusters', s₁) ∧
      printFile d s₁ { type := FTYPE_FILE, size := (4099 : Nat), clusters := clusters' } = .ok s₂ ∧
      s₂.out = s.out ++ (List.replicate 2048 65 ++ (List.replicate 2048 66 ++ [67, 67, 67])) := by
  intro d
  obtain ⟨s, hload, _, hhdr⟩ := @loadFileSystem_healthy lettersFat lettersData []
    ⟨two_valid, fatNext_volume _ _ (by omega) (by decide)⟩ (by decide)
  have hdisk : d.disk = volume lettersFat lettersData := rfl
  have hchain : FatChain d.disk s.fileSys [5, 9, 4] := hhdr ▸ letters_chain
  obtain ⟨clusters', s₁, s₂, hwalk, hprint, hout⟩ := printFile_traverseFAT (.load hload)
    (hhdr ▸ defaultHeader_layout) (fun n _ => healthyDrive_good _ n) hchain (by decide)
    (fun _ => 0) FTYPE_FILE (show 4099 < 2147483648 by omega)
  refine ⟨s, clusters', s₁, s₂, hwalk, hprint, ?_⟩
  have hdata : ∀ c, 2 ≤ c → clusterData d.disk defaultHeader c = List.replicate 2048 (lettersData c 0) := by
    intro c hc
    rw [hdisk, clusterData_volume _ _ hc]
    exact Mem.read_const _ _ _
  rw [hout, hhdr, chainData, List.flatMap_cons, List.flatMap_cons, List.flatMap_cons, List.flatMap_nil,
    hdata 5 (by omega), hdata 9 (by omega), hdata 4 (by omega), List.append_nil, List.take_append, List.take_append,
    List.take_replicate, List.take_replicate, List.take_replicate, List.length_replicate, List.length_replicate,
    show min 4099 2048 = 2048 from by omega, show min (4099 - 2048) 2048 = 2048 from by omega,
    show min (4099 - 2048 - 2048) 2048 = 3 from by omega]
  exact congrArg (s.out ++ ·) (congrArg (List.replicate 2048 65 ++ ·) (congrArg (List.replicate 2048 66 ++ ·) (by decide)))

end SoreOS
