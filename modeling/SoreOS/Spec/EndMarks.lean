import Mathlib.Data.List.Basic
import SoreOS.Spec.FreshWalk
import SoreOS.Spec.LoaderRun
import SoreOS.Spec.ReadFile

/-!
# End marks

Other systems end a chain with any of the marks `0x0FFFFFF8` to `0x0FFFFFFF`. The kernel
and the boot loader compare with the last one only, and take the others for clusters.

## Key results

- `printFileLoop_loads`: the loads of `printFile`
- `kernelReads_iff`, `loaderReads_iff`: when the sectors of a chain are read, and no others
- `chainReads_iff`: the two together
-/

namespace SoreOS

open ForStd

/-! ## Chains with a mark -/

/-- A mark that ends a chain: the upper four bits of an entry do not count. -/
def IsEndMark (e : Nat) : Prop := 0x0FFFFFF8 ≤ e % 0x10000000 ∧ e < 4294967296

/-- The FAT chains the clusters of the list, and `e` is the entry of the last one. -/
def ChainTo (disk : Bytes) (hdr : FAT32_HEADER) (e : Nat) : List Nat → Prop
  | [] => False
  | [c] => ValidCluster c ∧ fatNext disk hdr c = e
  | c :: c' :: cs => ValidCluster c ∧ fatNext disk hdr c = c' ∧ ChainTo disk hdr e (c' :: cs)

/-- The sectors of a cluster. -/
def clusterSectors (hdr : FAT32_HEADER) (c : Nat) : List Nat :=
  List.range' (hdr.LBA_Cluster_Location.toNat + (c - 2) * 4) 4

theorem ChainTo.valid {disk : Bytes} {hdr : FAT32_HEADER} {e : Nat} {cs : List Nat} (h : ChainTo disk hdr e cs) :
    ∀ c ∈ cs, ValidCluster c := by
  induction cs with
  | nil => exact absurd h id
  | cons c cs ih =>
    cases cs with
    | nil =>
      intro c' hc'
      rw [List.mem_singleton.mp hc']
      exact h.1
    | cons c' cs => exact List.forall_mem_cons.mpr ⟨h.1, ih h.2.2⟩

/-! ## The kernel -/

/-- The clusters that the loop of `printFile` loads. -/
def loadedClusters (clusters : Mem Int) : Nat → Int → List Int
  | 0, _ => []
  | rounds + 1, i =>
    if clusters i ≠ END_OF_CHAIN then clusters i :: loadedClusters clusters rounds (i + 1) else []

/-- The loop's reaction to a cluster. -/
def printCluster (d : Drive) (p : FsState × Int) (cluster : Int) : Except Fault (FsState × Int) := do
  let (_, s) ← load_Cluster d p.1 cluster
  let length := if p.2 > 2048 then 2048 else p.2
  return ({ s with out := s.out ++ s.ClusterBuffer.read 0 length.toNat }, toInt (p.2 - 2048))

/-- `printFile` loads those clusters, each once, in their order, and nothing else. -/
theorem printFileLoop_loads (d : Drive) (clusters : Mem Int) (rounds : Nat) (i : Int) (s : FsState) (size : Int) :
    printFileLoop d clusters rounds i s size =
      (·.1) <$> (loadedClusters clusters rounds i).foldlM (printCluster d) (s, size) := by
  induction rounds generalizing i s size with
  | zero => rfl
  | succ rounds ih =>
    rw [printFileLoop, loadedClusters]
    by_cases hend : clusters i ≠ END_OF_CHAIN
    · rw [if_pos hend, if_pos hend, List.foldlM_cons, printCluster]
      cases hload : load_Cluster d s (clusters i) with
      | error f => rfl
      | ok p => exact ih (i + 1) _ (toInt (size - 2048))
    · rw [if_neg hend, if_neg hend]
      rfl

/-- The sectors that the driver's address registers name for a cluster number. -/
def driverSectors (hdr : FAT32_HEADER) (index : Int) : List Nat :=
  List.range' (commandPorts hdr.A_BF_BPB_SectorsPerCluster.toNat (toInt (clusterAddress hdr index))).address
    hdr.A_BF_BPB_SectorsPerCluster.toNat

/-- `printFile` loads the clusters one after the other, whatever the type and the size of the file. -/
def PrintLoads (d : Drive) (s : FsState) (clusters : Mem Int) (loaded : List Int) : Prop :=
  ∀ (type : UInt8) (size : Int), printFile d s { type := type, size := size, clusters := clusters } =
    (·.1) <$> loaded.foldlM (printCluster d) ({ s with dirClusterIndex := -1 }, size)

theorem printLoads (d : Drive) (s : FsState) (clusters : Mem Int) : PrintLoads d s clusters (loadedClusters clusters 8 0) :=
  fun _ size => printFileLoop_loads d clusters 8 0 { s with dirClusterIndex := -1 } size

/-- The walk succeeds, and the sectors of what `printFile` loads then are those of the clusters. -/
def KernelReads (d : Drive) (s : FsState) (start : Nat) (clusters : Mem Int) (cs : List Nat) : Prop :=
  ∃ clusters' t, traverseFAT d s start clusters = .ok (true, clusters', t) ∧
    PrintLoads d t clusters' (loadedClusters clusters' 8 0) ∧
    (loadedClusters clusters' 8 0).flatMap (driverSectors t.fileSys) = cs.flatMap (clusterSectors s.fileSys)

/-- What is loaded is the chain in front of the end mark. -/
theorem loadedClusters_freshChain {disk : Bytes} {hdr : FAT32_HEADER} {clusters : Mem Int} {n : Nat} {i c : Int}
    (h : ListsFrom clusters i (freshChain disk hdr n c)) :
    loadedClusters clusters n i = (freshChain disk hdr n c).takeWhile (· ≠ END_OF_CHAIN) := by
  induction n generalizing i c with
  | zero => rfl
  | succ n ih =>
    rw [freshChain] at h ⊢
    rw [loadedClusters]
    by_cases hend : c = END_OF_CHAIN
    · rw [if_pos hend] at h ⊢
      rw [h.head, if_neg (not_not.mpr hend), List.takeWhile_cons_of_neg (by simp [hend])]
    · rw [if_neg hend] at h ⊢
      rw [h.head, if_pos hend, List.takeWhile_cons_of_pos (by simp [hend]), ih h.tail]

/-- The kernel looks for one of the marks. -/
theorem toInt_eq_END_OF_CHAIN {e : Nat} (he : e < 4294967296) : toInt e = END_OF_CHAIN ↔ e = 0x0FFFFFFF := by
  rw [toInt, Int.bmod_def, END_OF_CHAIN]
  split
  · omega
  · omega

/-- There is nothing to load behind a mark that the kernel knows, or where the walk ends. -/
theorem takeWhile_freshChain_eq_nil {disk : Bytes} {hdr : FAT32_HEADER} {e : Nat} (he : e < 4294967296) (n : Nat) :
    (freshChain disk hdr n (toInt e)).takeWhile (· ≠ END_OF_CHAIN) = [] ↔ e = 0x0FFFFFFF ∨ n = 0 := by
  rw [← toInt_eq_END_OF_CHAIN he]
  cases n with
  | zero => exact ⟨fun _ => .inr rfl, fun _ => rfl⟩
  | succ n =>
    rw [freshChain]
    by_cases hend : toInt e = END_OF_CHAIN
    · rw [if_pos hend, List.takeWhile_cons_of_neg (by simp [hend])]
      exact ⟨fun _ => .inl hend, fun _ => rfl⟩
    · rw [if_neg hend, List.takeWhile_cons_of_pos (by simp [hend])]
      exact ⟨fun hnil => absurd hnil (List.cons_ne_nil _ _),
        fun hor => absurd hor (not_or.mpr ⟨hend, Nat.succ_ne_zero n⟩)⟩

section Layout

variable {disk : Bytes} {hdr : FAT32_HEADER} (hl : StandardLayout hdr)
include hl

/-- The walk takes the next cluster from the cluster's entry. -/
theorem freshNext_valid {c : Nat} (hv : ValidCluster c) : freshNext disk hdr c = toInt (fatNext disk hdr c) := by
  have hfat := hl.fat_toNat
  have hentry : (fatSector disk hdr (c / 128)).loadLE (4 * ((c : Int) % 128)) 4 = fatNext disk hdr c := by
    apply Mem.loadLE_congr
    intro i hi
    rw [fatSector, subBuffer, fatSectorBase, hfat]
    unfold ValidCluster dataClusters at hv
    apply congrArg disk
    omega
  have hlt : fatNext disk hdr c < 4294967296 := Mem.loadLE_lt ..
  rw [freshNext, readDD, hentry, UInt32.toNat_ofNat', Nat.mod_eq_of_lt hlt]

/-- The clusters of the chain, then what the walk finds behind the mark. -/
theorem freshChain_chainTo {e : Nat} {c : Nat} {cs : List Nat} (h : ChainTo disk hdr e (c :: cs)) (n : Nat) :
    freshChain disk hdr n c =
      ((c :: cs).take n).map (fun c : Nat => (c : Int)) ++ freshChain disk hdr (n - (cs.length + 1)) (toInt e) := by
  induction cs generalizing c n with
  | nil =>
    cases n with
    | zero => rfl
    | succ n =>
      have hnext : freshNext disk hdr c = _ := freshNext_valid hl h.1
      rw [freshChain, if_neg h.1.ne_END_OF_CHAIN, hnext, h.2, List.take_succ_cons, List.take_nil, List.length_nil,
        Nat.zero_add, Nat.add_sub_cancel]
      rfl
  | cons c' cs ih =>
    cases n with
    | zero => rw [Nat.zero_sub]; rfl
    | succ n =>
      have hv' : ValidCluster c' := h.2.2.valid c' (List.mem_cons_self ..)
      have hnext : freshNext disk hdr c = _ := freshNext_valid hl h.1
      have hsmall := hv'.2
      unfold dataClusters at hsmall
      rw [h.2.1, toInt_eq (by omega) (by omega)] at hnext
      rw [freshChain, if_neg h.1.ne_END_OF_CHAIN, hnext, ih h.2.2, List.take_succ_cons, List.map_cons, List.cons_append,
        List.length_cons, Nat.add_sub_add_right]

/-- The registers name the sectors of a valid cluster. -/
theorem driverSectors_valid {c : Nat} (hv : ValidCluster c) : driverSectors hdr c = clusterSectors hdr c := by
  have hdata := hl.clusters_toNat
  have hspc := hl.sectorsPerCluster_toNat
  unfold ValidCluster dataClusters at hv
  rw [driverSectors, clusterSectors, commandPorts_address, toInt_emod, clusterAddress, hdata, hspc]
  congr 1
  omega

theorem flatMap_driverSectors_valid {cs : List Nat} (hv : ∀ c ∈ cs, ValidCluster c) :
    (cs.map fun c : Nat => (c : Int)).flatMap (driverSectors hdr) = cs.flatMap (clusterSectors hdr) := by
  rw [List.flatMap_map]
  apply List.flatMap_congr
  intro c hc
  exact driverSectors_valid hl (hv c hc)

/-- Every load reads sectors. -/
theorem flatMap_driverSectors_eq_nil {cs : List Int} : cs.flatMap (driverSectors hdr) = [] ↔ cs = [] := by
  have hspc := hl.sectorsPerCluster_toNat
  cases cs with
  | nil => exact ⟨fun _ => rfl, fun _ => rfl⟩
  | cons c cs =>
    rw [List.flatMap_cons, driverSectors, hspc]
    exact ⟨fun hnil => absurd hnil (List.cons_ne_nil _ _), fun hnil => absurd hnil (List.cons_ne_nil _ _)⟩

/-- What is loaded: the clusters of the chain, and then what the walk took for clusters. -/
theorem takeWhile_chainTo {e c : Nat} {cs : List Nat} (h : ChainTo disk hdr e (c :: cs)) (n : Nat) :
    (freshChain disk hdr n c).takeWhile (· ≠ END_OF_CHAIN) =
      ((c :: cs).take n).map (fun c : Nat => (c : Int)) ++
        (freshChain disk hdr (n - (cs.length + 1)) (toInt e)).takeWhile (· ≠ END_OF_CHAIN) := by
  rw [freshChain_chainTo hl h]
  apply List.takeWhile_append_of_pos
  intro c' hc'
  obtain ⟨c'', hmem, rfl⟩ := List.mem_map.mp hc'
  exact decide_eq_true (h.valid c'' (List.mem_of_mem_take hmem)).ne_END_OF_CHAIN

end Layout

/-- The kernel reads the first eight clusters of a chain and no other sectors, if the mark is the one
    it knows or is out of its reach. -/
theorem kernelReads_iff {d : Drive} {s : FsState} (hl : StandardLayout s.fileSys) (hc : CacheOk d s)
    (hgood : ∀ n, d.good n = true) {e c : Nat} {cs : List Nat} (he : IsEndMark e)
    (h : ChainTo d.disk s.fileSys e (c :: cs)) (clusters : Mem Int) :
    KernelReads d s c clusters ((c :: cs).take 8) ↔ e = 0x0FFFFFFF ∨ 8 ≤ (c :: cs).length := by
  obtain ⟨ok, clusters', t, hrun, hframe, -⟩ := traverseFAT_returns d s c clusters
  have hfirst : (clusters.set 0 (c : Int)) (1 - 1) = c := Mem.set_same _ _ _
  obtain ⟨rfl, -, hlist⟩ := traverseFATLoop_freshChain (by omega) (.inr ⟨hc, by rw [hfirst]; omega⟩) hrun
    fun n _ _ => hgood n
  rw [hfirst] at hlist
  have hfs : t.fileSys = s.fileSys := by rw [hframe.eq]
  have hown := flatMap_driverSectors_valid hl fun c' hc' => h.valid c' (List.mem_of_mem_take (i := 8) hc')
  -- the clusters of the chain are loaded, and then perhaps others
  have hloaded := loadedClusters_freshChain hlist
  rw [takeWhile_chainTo hl h] at hloaded
  have hnone := @takeWhile_freshChain_eq_nil d.disk s.fileSys e he.2 (7 + 1 - (cs.length + 1))
  generalize (freshChain d.disk s.fileSys (7 + 1 - (cs.length + 1)) (toInt e)).takeWhile (· ≠ END_OF_CHAIN) = rest
    at hloaded hnone
  have hreads : KernelReads d s c clusters ((c :: cs).take 8) ↔ rest.flatMap (driverSectors s.fileSys) = [] := by
    have hall : (loadedClusters clusters' 8 0).flatMap (driverSectors t.fileSys) =
        ((c :: cs).take 8).flatMap (clusterSectors s.fileSys) ++ rest.flatMap (driverSectors s.fileSys) := by
      rw [hfs, ← hown, ← List.flatMap_append]
      exact congrArg (List.flatMap (driverSectors s.fileSys)) hloaded
    constructor
    · intro hboth
      obtain ⟨clusters'', t', hrun', -, hsame⟩ := hboth
      rw [hrun, Except.ok.injEq, Prod.mk.injEq, Prod.mk.injEq] at hrun'
      obtain ⟨-, rfl, rfl⟩ := hrun'
      exact List.append_right_eq_self.mp (hall.symm.trans hsame)
    · intro hnil
      exact ⟨clusters', t, hrun, printLoads d t clusters', by rw [hall, hnil, List.append_nil]⟩
  rw [hreads, flatMap_driverSectors_eq_nil hl, hnone, List.length_cons]
  omega

/-! ## The loader -/

namespace Boot

/-- The sectors of all transfers that do not go to the buffer of the FAT sector. -/
def fileSectors (log : List Dap) : List Nat :=
  (log.filter (·.DAP_DST_LOW ≠ 0x8000)).flatMap fun p => List.range' p.lba p.DAP_SECTORS.toNat

/-- `load_file` returns without an error, and the sectors it read are those of the clusters. -/
def LoaderReads (b : Bios) (hdr : FAT32_HEADER) (m : Bytes) (ax dx : Word) (cs : List Nat) : Prop :=
  ∃ rounds s, load_file b rounds ax dx 0x8200 ⟨m, []⟩ = .returned false s ∧
    fileSectors s.log = cs.flatMap (clusterSectors hdr)

theorem fileSectors_append (log log' : List Dap) : fileSectors (log ++ log') = fileSectors log ++ fileSectors log' := by
  rw [fileSectors, List.filter_append, List.flatMap_append]
  rfl

/-- No cluster goes to the buffer. -/
theorem destination_ne (i : Nat) : destination i ≠ 0x8000 := by
  intro heq
  have hdst := destination_toNat i
  rw [heq] at hdst
  have hbuffer : (0x8000 : Word).toNat = 0x8000 := rfl
  omega

theorem fileSectors_cluster (lba : BitVec 32) (i : Nat) :
    fileSectors [packet lba (destination i) 4] = List.range' lba.toNat 4 := by
  have hkeep : decide ((packet lba (destination i) 4).DAP_DST_LOW ≠ 0x8000) = true :=
    decide_eq_true (destination_ne i)
  rw [fileSectors, List.filter_cons, if_pos hkeep, List.filter_nil, List.flatMap_singleton, packet_lba]
  rfl

theorem fileSectors_round (hdr : FAT32_HEADER) (c : BitVec 32) (i : Nat) :
    fileSectors (roundLog hdr c (destination i)) = List.range' (clusterLBA hdr c).toNat 4 := by
  rw [roundLog, ← List.singleton_append, fileSectors_append, fileSectors_cluster]
  exact List.append_nil _

theorem fileSectors_rounds (hdr : FAT32_HEADER) (f : Nat → BitVec 32) (i : Nat) :
    fileSectors ((List.range i).flatMap fun j => roundLog hdr (f j) (destination j)) =
      ((List.range i).map f).flatMap fun c => List.range' (clusterLBA hdr c).toNat 4 := by
  induction i with
  | zero => rfl
  | succ i ih =>
    rw [List.range_succ, List.flatMap_append, fileSectors_append, ih, List.map_append, List.flatMap_append,
      List.flatMap_singleton, fileSectors_round, List.map_singleton, List.flatMap_singleton]

section Chain

variable {disk : Bytes} {hdr : FAT32_HEADER} (hl : StandardLayout hdr)
include hl

theorem clusterLBA_valid {c : Nat} (hv : ValidCluster c) :
    List.range' (clusterLBA hdr (BitVec.ofNat 32 c)).toNat 4 = clusterSectors hdr c := by
  rw [clusterLBA_toNat hl hv, clusterSectors]

/-- The loader follows the chain to its mark. -/
theorem clusterAt_chainTo {e c : Nat} {cs : List Nat} (h : ChainTo disk hdr e (c :: cs)) :
    (List.range (cs.length + 1)).map (clusterAt disk hdr (BitVec.ofNat 32 c)) = (c :: cs).map (BitVec.ofNat 32) ∧
      clusterAt disk hdr (BitVec.ofNat 32 c) (cs.length + 1) = BitVec.ofNat 32 e := by
  have hfat := hl.fat_toNat
  have hnext : ∀ c', ValidCluster c' →
      nextCluster disk hdr (BitVec.ofNat 32 c') = BitVec.ofNat 32 (fatNext disk hdr c') := by
    intro c' hv
    unfold ValidCluster dataClusters at hv
    exact nextCluster_ofNat disk (by omega) (by omega)
  have hshift : ∀ start i, clusterAt disk hdr start (i + 1) = clusterAt disk hdr (nextCluster disk hdr start) i :=
    fun start i => Function.iterate_succ_apply _ _ _
  induction cs generalizing c with
  | nil => exact ⟨rfl, by rw [hshift, hnext c h.1, h.2]; rfl⟩
  | cons c' cs ih =>
    obtain ⟨hall, hend⟩ := ih h.2.2
    have hstep : nextCluster disk hdr (BitVec.ofNat 32 c) = BitVec.ofNat 32 c' := by rw [hnext c h.1, h.2.1]
    constructor
    · rw [List.length_cons, List.range_succ_eq_map, List.map_cons, List.map_map, List.map_cons, ← hall]
      refine congrArg _ (List.map_congr_left fun i _ => ?_)
      rw [← hstep]
      exact hshift _ i
    · rw [List.length_cons, hshift, hstep, hend]

/-- No entry in front of the last one is the mark that the loader looks for. -/
theorem clusterAt_ne_mark {e c : Nat} {cs : List Nat} (h : ChainTo disk hdr e (c :: cs)) {j : Nat} (hj : j < cs.length) :
    clusterAt disk hdr (BitVec.ofNat 32 c) (j + 1) ≠ 0x0FFFFFFF#32 := by
  intro hmark
  have hmem : clusterAt disk hdr (BitVec.ofNat 32 c) (j + 1) ∈ (c :: cs).map (BitVec.ofNat 32) := by
    rw [← (clusterAt_chainTo hl h).1]
    exact List.mem_map_of_mem (List.mem_range.mpr (Nat.succ_lt_succ hj))
  obtain ⟨c', hc', heq⟩ := List.mem_map.mp hmem
  have hv := (h.valid c' hc').2
  unfold dataClusters at hv
  have hnat := congrArg BitVec.toNat (heq.trans hmark)
  rw [BitVec.toNat_ofNat, BitVec.toNat_ofNat] at hnat
  omega

/-- The rounds of a chain read the sectors of its clusters. -/
theorem fileSectors_chain {e c : Nat} {cs : List Nat} (h : ChainTo disk hdr e (c :: cs)) :
    fileSectors ((List.range (cs.length + 1)).flatMap fun j =>
      roundLog hdr (clusterAt disk hdr (BitVec.ofNat 32 c) j) (destination j)) =
      (c :: cs).flatMap (clusterSectors hdr) := by
  rw [fileSectors_rounds, (clusterAt_chainTo hl h).1, List.flatMap_map]
  apply List.flatMap_congr
  intro c' hc'
  exact clusterLBA_valid hl (h.valid c' hc')

end Chain

section Reads

variable {b : Bios} {hdr : FAT32_HEADER} (hl : StandardLayout hdr) (h4 : FourSectors hdr)
  (hgood : ∀ n, b.succeeds n = true)
include h4 hgood

/-- The thirty-second cluster would lie on the loader itself. -/
theorem load_file_overwrites {s : Loader} (hm : HoldsHeader s.mem hdr) (rounds : Nat) (ax dx : Word) :
    ∃ s', load_file b (rounds + 1) ax dx (destination 31) s = .overwritten s' := by
  have hhit : (clusterPacket s.mem ax dx (destination 31)).hitsLoader = true := by
    rw [clusterPacket_eq h4 hm, Dap.hitsLoader, packet_dst, packet_size]
    rfl
  rw [load_file, load_disk_good (hgood _)]
  simp only [hhit, Bool.false_eq_true, if_false, if_true]
  exact ⟨_, rfl⟩

include hl

/-- The loader reads the clusters of a chain and no other sectors, if the mark is the one it knows and the
    chain ends in front of the loader. -/
theorem loaderReads_iff {e c : Nat} {cs : List Nat} (he : IsEndMark e) (h : ChainTo b.disk hdr e (c :: cs))
    {m : Bytes} (hm : HoldsHeader m hdr) {ax dx : Word} (hstart : dx ++ ax = BitVec.ofNat 32 c) :
    LoaderReads b hdr m ax dx (c :: cs) ↔ e = 0x0FFFFFFF ∧ (c :: cs).length ≤ 31 := by
  obtain ⟨-, hend⟩ := clusterAt_chainTo hl h
  have hgo : ∀ j < cs.length, clusterAt b.disk hdr (BitVec.ofNat 32 c) (j + 1) ≠ 0x0FFFFFFF#32 :=
    fun j hj => clusterAt_ne_mark hl h hj
  have hsectors := fileSectors_chain hl h
  rw [List.length_cons]
  constructor
  · intro hboth
    obtain ⟨rounds, s, hrun, hreads⟩ := hboth
    by_contra hnot
    -- so the loader goes on behind the chain, or runs into itself
    have hgo' : ∀ j < min (cs.length + 1) 31, clusterAt b.disk hdr (BitVec.ofNat 32 c) (j + 1) ≠ 0x0FFFFFFF#32 := by
      intro j hj hmark
      by_cases hinner : j < cs.length
      · exact hgo j hinner hmark
      · rw [show j = cs.length from by omega, hend] at hmark
        have hnat := congrArg BitVec.toNat hmark
        rw [BitVec.toNat_ofNat, BitVec.toNat_ofNat] at hnat
        have hlt := he.2
        exact hnot ⟨by omega, by omega⟩
    have hlt := lt_rounds_of_returned h4 hgood hm hstart (Nat.min_le_right ..) hgo' hrun
    obtain ⟨rest, rfl⟩ := Nat.exists_eq_add_of_lt hlt
    obtain ⟨s', ax', dx', hafter, -, hfirst⟩ :=
      load_file_rounds h4 hgood hm hstart (Nat.min_le_right ..) hgo' (rest + 1)
    rw [← Nat.add_assoc, hrun] at hfirst
    by_cases hlong : 31 ≤ cs.length + 1
    · rw [Nat.min_eq_right hlong] at hfirst hafter
      obtain ⟨s'', hover⟩ := load_file_overwrites h4 hgood hafter.header rest ax' dx'
      rw [hover] at hfirst
      exact nomatch hfirst
    · -- the mark was taken for a cluster
      rw [Nat.min_eq_left (by omega)] at hfirst hafter
      have hlog := load_file_first b rest ax' dx' (destination (cs.length + 1)) s'
      rw [← hfirst, clusterPacket_eq h4 hafter.header, hafter.log] at hlog
      obtain ⟨more, hmore⟩ := hlog
      have hlen := congrArg (fun log => (fileSectors log).length) hmore
      simp only [fileSectors_append, fileSectors_cluster, hsectors, List.length_append, List.length_range',
        Outcome.loader, hreads] at hlen
      omega
  · intro hboth
    obtain ⟨rfl, hlen⟩ := hboth
    obtain ⟨s, hafter, hrun⟩ := load_file_end h4 hgood hm hstart (by omega) hgo hend
    refine ⟨_, s, hrun, ?_⟩
    rw [hafter.log, hsectors]

end Reads

end Boot

/-! ## Both walkers -/

/-- On the same disk, the kernel and the loader read the sectors of a chain and no others exactly if its mark
    is `0x0FFFFFFF` and at most thirty-one clusters are in front of it. -/
theorem chainReads_iff {d : Drive} {s : FsState} {b : Boot.Bios} {m : Bytes} (hl : StandardLayout s.fileSys)
    (h4 : Boot.FourSectors s.fileSys) (hs : CacheReachable d s) (hd : ∀ n, d.good n = true)
    (hb : ∀ n, b.succeeds n = true) (hdisk : b.disk = d.disk) (hm : Boot.HoldsHeader m s.fileSys) {e c : Nat}
    {cs : List Nat} (he : IsEndMark e) (h : ChainTo d.disk s.fileSys e (c :: cs)) (clusters : Mem Int)
    {ax dx : Boot.Word} (hstart : dx ++ ax = BitVec.ofNat 32 c) :
    KernelReads d s c clusters ((c :: cs).take 8) ∧ Boot.LoaderReads b s.fileSys m ax dx (c :: cs) ↔
      e = 0x0FFFFFFF ∧ (c :: cs).length ≤ 31 := by
  rw [kernelReads_iff hl hs.cacheOk hd he h, Boot.loaderReads_iff hl h4 hb he (hdisk ▸ h) hm hstart]
  constructor
  · exact fun hboth => hboth.2
  · exact fun hboth => ⟨.inl hboth.1, hboth⟩

/-- A kernel that has read the header of the utility's volume. -/
def mounted : FsState := { fileSys := defaultHeader }

/-- On a volume where every entry is the same mark, the first cluster is a chain. -/
theorem chainTo_marks {e : Nat} (he : e < 4294967296) :
    ChainTo (volume (fun _ => e) fun _ _ => 65) mounted.fileSys e [2] :=
  ⟨two_valid, fatNext_volume _ _ (by omega) he⟩

/-- A chain of three clusters with the mark that is looked for. -/
theorem chainReads_last_mark :
    let disk := volume lettersFat lettersData
    KernelReads (healthyDrive disk) mounted 5 (fun _ => 0) [5, 9, 4] ∧
      Boot.LoaderReads (Boot.goodBios disk) defaultHeader (Boot.withHeader defaultHeader) 5 0 [5, 9, 4] := by
  intro disk
  have he : IsEndMark 0x0FFFFFFF := ⟨by omega, by omega⟩
  have hchain : ChainTo (healthyDrive disk).disk mounted.fileSys 0x0FFFFFFF [5, 9, 4] := letters_chain
  have hstart : (0 : Boot.Word) ++ (5 : Boot.Word) = BitVec.ofNat 32 5 := rfl
  exact (chainReads_iff (b := Boot.goodBios disk) defaultHeader_layout Boot.fourSectors_standard (.empty rfl)
    (healthyDrive_good _) (fun _ => rfl) rfl (Boot.holdsHeader_withHeader _) he hchain _ hstart).mpr ⟨rfl, by decide⟩

/-- A chain of one cluster with another mark: the kernel loads the mark, too, and so does the loader. -/
theorem not_chainReads_first_mark :
    let disk := volume (fun _ => 0x0FFFFFF8) fun _ _ => 65
    IsEndMark 0x0FFFFFF8 ∧ ChainTo disk defaultHeader 0x0FFFFFF8 [2] ∧
      ¬ KernelReads (healthyDrive disk) mounted 2 (fun _ => 0) [2] ∧
      ¬ Boot.LoaderReads (Boot.goodBios disk) defaultHeader (Boot.withHeader defaultHeader) 2 0 [2] := by
  intro disk
  have he : IsEndMark 0x0FFFFFF8 := ⟨by omega, by omega⟩
  have hchain : ChainTo (healthyDrive disk).disk mounted.fileSys 0x0FFFFFF8 [2] := chainTo_marks (by omega)
  have hstart : (0 : Boot.Word) ++ (2 : Boot.Word) = BitVec.ofNat 32 2 := rfl
  have hkernel := kernelReads_iff defaultHeader_layout (fun hne => absurd rfl hne) (healthyDrive_good _) he hchain
    fun _ => 0
  have hloader := Boot.loaderReads_iff (b := Boot.goodBios disk) defaultHeader_layout Boot.fourSectors_standard
    (fun _ => rfl) he hchain (Boot.holdsHeader_withHeader _) hstart
  refine ⟨he, hchain, fun h => ?_, fun h => ?_⟩
  · obtain hmark | hlong := hkernel.mp h
    · omega
    · exact absurd hlong (by decide)
  · have hmark := (hloader.mp h).1
    omega

end SoreOS
