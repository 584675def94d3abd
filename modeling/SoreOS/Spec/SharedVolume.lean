import SoreOS.Spec.BootBuilt
import SoreOS.Spec.Console
import SoreOS.Spec.EndMarks
import SoreOS.Spec.Refill
import Mathlib.Data.List.Find

/-!
# One volume for the boot loader and the kernel

The boot loader and the kernel's driver read the volume each in their own way: the loader follows 32-bit cluster
numbers and compares records of raw bytes, the driver works with trees of directories and long names. On a volume that
holds a tree both find the same files.

## Key results

- `Holds.other`, `rootFolder_of_onDisk`: the records that the loader passes over
- `read_contents`: the bytes of a file that the loader placed are the contents that the driver prints
- `lookup_kernelFile`: both find the same file by the kernel's name
- `system_boots`: the kernel is loaded and runs as the console over the same tree
- `system_without_kernel`: no file has the kernel's name
-/

namespace SoreOS

open ForStd

/-! ## Records -/

/-- Another first byte than `K`. -/
theorem read_ne_kernelName {m : Bytes} {a : Int} (h : m a ≠ 75) : m.read a 11 ≠ Boot.KERNEL_NAME := by
  intro hname
  rw [Mem.read_succ] at hname
  exact h (List.cons.inj hname).1

/-- The number of a piece is not the letter. -/
theorem IsPiece.first_ne {r : Bytes} {name : List UInt8} {j : Nat} (h : IsPiece r name j) (hpos : 0 < j) (hle : j ≤ 8) :
    r 0 ≠ 75 := by
  obtain ⟨-, -, hnumber, -⟩ := h.number_cases hpos hle
  intro hfirst
  rw [hfirst] at hnumber
  have h11 : (75 &&& 0x0F : UInt8).toNat = 11 := by decide
  omega

theorem subBuffer_zero (m : Bytes) (a : Int) : subBuffer m a 0 = m a := congrArg m (Int.add_zero a)

theorem read_subBuffer (m : Bytes) (a : Int) (n : Nat) : (subBuffer m a).read 0 n = m.read a n := by
  apply Mem.read_congr
  intro i _
  rw [subBuffer, Int.zero_add]

/-- The records in front of the first file with the kernel's name are not the end and have other names. -/
theorem Holds.other {buf : Bytes} {es : List Entry} {k i j : Nat} (h : Holds buf k es) (hi : i ≤ k + recordCount es)
    (hnone : ∀ p ∈ placed k es, p.1 < i → p.2.raw ≠ Boot.KERNEL_NAME) (hj : k ≤ j) (hji : j < i) :
    buf (32 * j) ≠ 0 ∧ buf.read (32 * j) 11 ≠ Boot.KERNEL_NAME := by
  induction es generalizing k with
  | nil =>
    rw [recordCount] at hi
    omega
  | cons e es ih =>
    cases e with
    | deleted =>
      rw [recordCount] at hi
      obtain rfl | hlt := Nat.eq_or_lt_of_le hj
      · have hne : buf (32 * k) ≠ 75 := by
          rw [h.1]
          decide
        refine ⟨?_, read_ne_kernelName hne⟩
        rw [h.1]
        decide
      · exact ih h.2 (by omega) hnone hlt
    | live f =>
      rw [recordCount] at hi
      obtain ⟨hpieces, hshort, hrest⟩ := h
      have hle := pieces_le f.long_length
      rcases Nat.lt_trichotomy j (k + pieces f.long) with hlt | rfl | hgt
      · -- a piece of the long name
        obtain ⟨n, rfl⟩ := Nat.exists_eq_add_of_le hj
        have hpiece := hpieces n (by omega)
        have h0 := (hpiece.number_cases (by omega) (by omega)).1
        have h75 := hpiece.first_ne (by omega) (by omega)
        rw [subBuffer_zero] at h0 h75
        exact ⟨h0, read_ne_kernelName h75⟩
      · -- the short record
        have h0 := hshort.first.1
        rw [subBuffer_zero] at h0
        have hname := hnone _ List.mem_cons_self hji
        rw [← hshort.raw, read_subBuffer] at hname
        exact ⟨h0, hname⟩
      · exact ih hrest (by omega) (fun p hp => hnone p (List.mem_cons_of_mem _ hp)) hgt

/-- Behind the entries is the end. -/
theorem Holds.end {buf : Bytes} {es : List Entry} {k : Nat} (h : Holds buf k es) :
    buf (32 * (k + recordCount es : Nat)) = 0 := by
  induction es generalizing k with
  | nil => exact h
  | cons e es ih =>
    cases e with
    | deleted =>
      rw [recordCount, ← Nat.add_assoc]
      exact ih h.2
    | live f =>
      rw [recordCount, ← Nat.add_assoc, ← Nat.add_assoc]
      exact ih h.2.2

/-- The files are in the order of their records, in front of the end. -/
theorem placed_pairwise (k : Nat) (es : List Entry) : (placed k es).Pairwise fun p p' => p.1 < p'.1 := by
  induction es generalizing k with
  | nil => exact .nil
  | cons e es ih =>
    cases e with
    | deleted => exact ih (k + 1)
    | live f => exact .cons (fun p hp => placed_le p hp) (ih _)

theorem placed_lt {k : Nat} {es : List Entry} {p : Nat × LiveFile} (hp : p ∈ placed k es) : p.1 < k + recordCount es := by
  induction es generalizing k with
  | nil => exact absurd hp List.not_mem_nil
  | cons e es ih =>
    cases e with
    | deleted =>
      have hlt := ih hp
      rw [recordCount]
      omega
    | live f =>
      rw [recordCount]
      obtain rfl | hp := List.mem_cons.mp hp
      · dsimp only
        omega
      · have hlt := ih hp
        omega

end SoreOS

namespace SoreOS.Boot

open ForStd

/-! ## Chains -/

theorem chainTo_of_fatChain {disk : Bytes} {hdr : FAT32_HEADER} {cs : List Nat} (h : FatChain disk hdr cs) :
    ChainTo disk hdr 0x0FFFFFFF cs := by
  induction cs with
  | nil => exact h
  | cons c cs ih =>
    cases cs with
    | nil => exact h
    | cons c' cs => exact ⟨h.1, h.2.1, ih h.2.2⟩

section Chain

variable {disk : Bytes} {hdr : FAT32_HEADER} (hl : StandardLayout hdr) {c : Nat}
include hl

/-- The loader's address of a cluster does not wrap. -/
theorem toNat_clusterLBA (hc : ValidCluster c) :
    (clusterLBA hdr (BitVec.ofNat 32 c)).toNat = hdr.LBA_Cluster_Location.toNat + (c - 2) * 4 :=
  (List.cons.inj (clusterLBA_valid hl hc)).1

/-- The loader goes through the clusters of a chain. -/
theorem clusterAt_chain {cs : List Nat} (h : FatChain disk hdr (c :: cs)) {i : Nat} (hi : i < (c :: cs).length) :
    clusterAt disk hdr (BitVec.ofNat 32 c) i = BitVec.ofNat 32 (c :: cs)[i] := by
  have hall := (clusterAt_chainTo hl (chainTo_of_fatChain h)).1
  have hcluster : ((List.range (c :: cs).length).map _)[i]? = ((c :: cs).map _)[i]? := congrArg (·[i]?) hall
  rw [List.getElem?_map, List.getElem?_map, List.getElem?_range hi, List.getElem?_eq_getElem hi] at hcluster
  exact Option.some.inj hcluster

theorem hasClusters_of_fatChain {cs : List Nat} (h : FatChain disk hdr (c :: cs)) :
    HasClusters disk hdr (BitVec.ofNat 32 c) (c :: cs).length where
  pos := Nat.succ_pos _
  goes := fun _ hi => clusterAt_ne_mark hl (chainTo_of_fatChain h) (Nat.lt_of_succ_lt_succ hi)
  ends := (clusterAt_chainTo hl (chainTo_of_fatChain h)).2

/-! ## Bytes -/

/-- A cluster at its place reads as the driver reads it. -/
theorem PlacedAt.read {m : Bytes} {i : Nat} (hc : ValidCluster c) (h : PlacedAt m disk hdr (BitVec.ofNat 32 c) i) :
    m.read (0x8200 + 2048 * i) 2048 = clusterData disk hdr c := by
  apply Mem.read_congr
  intro k hk
  rw [h k (by omega) (by omega), toNat_clusterLBA hl hc]
  congr 1
  have := hc.1
  omega

end Chain

/-- Blocks one behind the other are the bytes of a chain. -/
theorem read_chainData {m disk : Bytes} {hdr : FAT32_HEADER} {cs : List Nat} {a : Int}
    (h : ∀ (i : Nat) (hi : i < cs.length), m.read (a + 2048 * i) 2048 = clusterData disk hdr cs[i]) :
    m.read a (2048 * cs.length) = chainData disk hdr cs := by
  induction cs generalizing a with
  | nil => rfl
  | cons c cs ih =>
    have hfirst : m.read a 2048 = clusterData disk hdr c := by
      have := h 0 (Nat.succ_pos _)
      rwa [Nat.cast_zero, Int.mul_zero, Int.add_zero] at this
    have hrest : m.read (a + (2048 : Nat)) (2048 * cs.length) = chainData disk hdr cs := by
      apply ih
      intro i hi
      have hblock : m.read (a + 2048 * (i + 1 : Nat)) 2048 = clusterData disk hdr cs[i] := h (i + 1) (Nat.succ_lt_succ hi)
      rw [← hblock]
      refine congrArg (fun b => m.read b 2048) ?_
      push_cast
      omega
    rw [List.length_cons, Nat.mul_succ, Nat.add_comm, Mem.read_add, hfirst, hrest]
    rfl

/-- A file whose clusters are at their places is in memory. -/
theorem read_contents {m disk : Bytes} {hdr : FAT32_HEADER} (hl : StandardLayout hdr) {c : Nat} {cs : List Nat}
    (h : FatChain disk hdr (c :: cs))
    (hplaced : ∀ i < (c :: cs).length, PlacedAt m disk hdr (clusterAt disk hdr (BitVec.ofNat 32 c) i) i) (size : UInt32) :
    m.read 0x8200 (contents disk hdr (c :: cs) size).length = contents disk hdr (c :: cs) size := by
  -- the clusters lie one behind the other from 0x8200 on
  have hread : m.read 0x8200 (2048 * (c :: cs).length) = chainData disk hdr (c :: cs) := by
    apply read_chainData
    intro i hi
    have hi' := hplaced i hi
    rw [clusterAt_chain hl h hi] at hi'
    exact hi'.read hl (h.valid _ (List.getElem_mem hi))
  have hlen : (chainData disk hdr (c :: cs)).length = 2048 * (c :: cs).length := by
    rw [← hread, Mem.length_read]
  have hle : (contents disk hdr (c :: cs) size).length ≤ 2048 * (c :: cs).length := by
    rw [contents, List.length_take, hlen]
    exact Nat.min_le_right _ _
  rw [← Mem.take_read m 0x8200 hle, hread, contents]
  exact List.take_eq_take_iff.mpr (by rw [List.length_take, Nat.min_assoc, Nat.min_self])

/-! ## The root folder -/

/-- The file that the loader looks for: the first one of the root directory with the kernel's name. -/
def kernelFile (T : DirectoryTree) : Option LiveFile := (liveFiles (T.entries 2)).find? fun f => f.raw = KERNEL_NAME

/-- Its record is the first one with the name. -/
theorem kernelFile_some {T : DirectoryTree} {f : LiveFile} (h : kernelFile T = some f) :
    ∃ k, (k, f) ∈ placed 0 (T.entries 2) ∧ f.raw = KERNEL_NAME ∧
      ∀ p ∈ placed 0 (T.entries 2), p.1 < k → p.2.raw ≠ KERNEL_NAME := by
  rw [kernelFile, ← map_placed 0, List.find?_map, Option.map_eq_some_iff] at h
  obtain ⟨⟨k, _⟩, hfind, rfl⟩ := h
  obtain ⟨hname, front, back, hplaced, hfront⟩ := List.find?_eq_some_iff_append.mp hfind
  have hpairwise := placed_pairwise 0 (T.entries 2)
  rw [hplaced, List.pairwise_append, List.pairwise_cons] at hpairwise
  refine ⟨k, List.mem_of_find?_eq_some hfind, of_decide_eq_true hname, fun p hp hlt hp' => ?_⟩
  rw [hplaced, List.mem_append, List.mem_cons] at hp
  -- in front of the record there is no file with the name, and behind it the numbers are larger
  obtain hp | rfl | hp := hp
  · have hne := hfront p hp
    rw [Function.comp_apply, hp'] at hne
    exact absurd hne (by decide)
  · exact absurd hlt (Nat.lt_irrefl _)
  · exact absurd hlt (Nat.lt_asymm (hpairwise.2.1.1 p hp))

theorem kernelFile_none {T : DirectoryTree} (h : kernelFile T = none) :
    ∀ p ∈ placed 0 (T.entries 2), p.2.raw ≠ KERNEL_NAME := by
  intro p hp hname
  have hmem : p.2 ∈ liveFiles (T.entries 2) := by
    rw [← map_placed 0]
    exact List.mem_map_of_mem hp
  exact absurd (decide_eq_true hname) (List.find?_eq_none.mp h p.2 hmem)

/-- The driver finds the same file by the padded name, if no file has that for its long name. -/
theorem lookup_kernelFile {T : DirectoryTree} (hlong : ∀ f ∈ liveFiles (T.entries 2), f.long ≠ KERNEL_NAME) :
    T.lookup 2 KERNEL_NAME = kernelFile T := by
  have hterm : searchTerm KERNEL_NAME = KERNEL_NAME := by decide
  rw [DirectoryTree.lookup, if_pos (by decide), hterm, kernelFile]
  refine List.find?_congr fun f hf => decide_eq_decide.mpr ?_
  exact or_iff_left fun hboth => hlong f hf hboth.2

theorem recordCount_root {T : DirectoryTree} {disk : Bytes} {hdr : FAT32_HEADER} (h : T.OnDisk disk hdr) :
    recordCount (T.entries 2) < 64 := by
  have hfits := h.fits 2 T.root
  omega

section Root

variable (disk : Bytes) {hdr : FAT32_HEADER} (hl : StandardLayout hdr)
include hl

/-- The records in the first cluster of the root directory. -/
theorem rootRecord_eq {i : Nat} (hi : i < 64) (j : Int) :
    disk (rootRecord disk hdr i + j) = clusterByte disk hdr 2 (32 * i + j) := by
  have hfirst : rootRecord disk hdr i = 32783 * 512 + 32 * (i % 64 : Nat) := by
    rw [rootRecord, recordOnDisk, Nat.div_eq_of_lt hi]
    show ((clusterLBA hdr (BitVec.ofNat 32 2)).toNat : Int) * 512 + _ = _
    rw [toNat_clusterLBA hl two_valid, hl.clusters_toNat]
    rfl
  rw [hfirst, clusterByte, hl.clusters_toNat, Nat.mod_eq_of_lt hi, Int.add_assoc]
  rfl

theorem read_rootRecord {i : Nat} (hi : i < 64) (n : Nat) :
    disk.read (rootRecord disk hdr i) n = Mem.read (clusterByte disk hdr 2) (32 * i) n :=
  Mem.read_congr fun j _ => rootRecord_eq disk hl hi j

theorem rootRecord_first {i : Nat} (hi : i < 64) : disk (rootRecord disk hdr i) = clusterByte disk hdr 2 (32 * i) := by
  have hbyte := rootRecord_eq disk hl hi 0
  rwa [Int.add_zero, Int.add_zero] at hbyte

variable {disk} {T : DirectoryTree} (hdisk : T.OnDisk disk hdr)
include hdisk

/-- The root folder up to a record. -/
theorem rootFolder_of_onDisk {cs : List Nat} (hroot : FatChain disk hdr (2 :: cs)) (hlen : (2 :: cs).length ≤ 15) {i : Nat}
    (hi : i ≤ recordCount (T.entries 2)) (hnone : ∀ p ∈ placed 0 (T.entries 2), p.1 < i → p.2.raw ≠ KERNEL_NAME) :
    RootFolder disk hdr (2 :: cs).length i where
  chain := hasClusters_of_fatChain hl hroot
  fits := hlen
  inside := by
    have hlt := recordCount_root hdisk
    rw [List.length_cons]
    omega
  others := fun j hj => by
    have hlt := recordCount_root hdisk
    have hother := (hdisk.holds 2 T.root).other (by omega) hnone (Nat.zero_le j) hj
    rw [OtherRecord, read_rootRecord disk hl (by omega), rootRecord_first disk hl (by omega)]
    exact hother

/-- The start cluster in the record of a file, as the loader puts it together. -/
theorem recordStart_root {p : Nat × LiveFile} (hp : p ∈ placed 0 (T.entries 2)) :
    recordStart disk (rootRecord disk hdr p.1) = BitVec.ofNat 32 p.2.cluster.toNat := by
  have hlt := placed_lt hp
  have hin := recordCount_root hdisk
  have hshort := (hdisk.holds 2 T.root).isShort p hp
  have hword : ∀ off : Int, (movw disk (rootRecord disk hdr p.1 + off)).toNat =
      (readDW (subBuffer (clusterByte disk hdr (2 : Nat)) (32 * p.1)) off).toNat := by
    intro off
    rw [movw, readDW, BitVec.toNat_ofNat, UInt16.toNat_ofNat']
    refine congrArg (· % 2 ^ 16) (Mem.loadLE_congr ?_)
    intro i _
    rw [Int.add_assoc, rootRecord_eq disk hl (by omega), subBuffer]
    rfl
  apply BitVec.eq_of_toNat_eq
  rw [recordStart, toNat_append, hword, hword, BitVec.toNat_ofNat, Nat.mod_eq_of_lt p.2.cluster.toNat_lt]
  exact hshort.cluster

end Root

/-! ## A built drive with files -/

section Built

open MediaUtility (Windows Machine build)

variable {w : Windows} {machine : Machine} {driveNum : Int} (h : (build w machine driveNum).1 = 0) {f : BootFile}
  (hcode : w.bootLoader = some f.code) {b : Bios}
  (himage : ∀ i, 0 ≤ i → i < 1024 → b.disk i = (build w machine driveNum).2.drive i) (hgood : ∀ n, b.succeeds n = true)
  {m : Bytes} (hfirst : FirstSector m b.disk) {T : DirectoryTree} {cs : List Nat}
  (hroot : FatChain b.disk (volumeHeader b.disk) (2 :: cs)) (hlen : (2 :: cs).length ≤ 15)
  (hdisk : T.OnDisk b.disk (volumeHeader b.disk))
include h himage

theorem built_layout : StandardLayout (volumeHeader b.disk) := by
  rw [built_header h himage]
  exact MediaUtility.writtenHeader_layout w (machine.calls + 1)

include hcode hgood hfirst hroot hlen hdisk

/-- The loader places the contents of the file with the kernel's name. -/
theorem kernelFile_booted {contents : LiveFile → List UInt8} (hfiles : T.HoldsFiles b.disk (volumeHeader b.disk) contents)
    {kernel : LiveFile} (hkernel : kernelFile T = some kernel) (hfile : kernel.directory = false)
    (hstart : kernel.cluster ≠ 0) {cs' : List Nat} (hchain : FatChain b.disk (volumeHeader b.disk) (kernel.target :: cs'))
    (hlen' : (kernel.target :: cs').length ≤ 15) {g : A20Gate} {line : Bool} (hhigh : m 0x100500 ≠ 1)
    (hline : line = true ∨ g.int15 line = true ∨ g.out92 (g.in92 ||| 2) (g.int15 line) = true) (regs : Find) :
    ∃ N, ∀ rounds ≥ N, ∃ a log, boot b f g rounds regs line ⟨m, []⟩ = .kernel a log ∧
      a.mem.read 0x8200 (contents kernel).length = contents kernel := by
  have hl := built_layout h himage
  obtain ⟨hbootable, h4⟩ := built_bootable h hcode himage
  obtain ⟨k, hmem, hraw, hfront⟩ := kernelFile_some hkernel
  have hk := placed_lt hmem
  have hin := recordCount_root hdisk
  have hfolder := rootFolder_of_onDisk hl hdisk hroot hlen (i := k) (by omega) hfront
  have hshort := (hdisk.holds 2 T.root).isShort _ hmem
  have hname : b.disk.read (rootRecord b.disk (volumeHeader b.disk) k) 11 = KERNEL_NAME := by
    rw [read_rootRecord b.disk hl (by omega), ← hraw, ← hshort.raw, read_subBuffer]
    rfl
  -- the loader starts where the driver does
  have hcluster : recordStart b.disk (rootRecord b.disk (volumeHeader b.disk) k) = BitVec.ofNat 32 kernel.target := by
    rw [recordStart_root hl hdisk hmem, LiveFile.target, if_neg hstart]
  obtain ⟨N, hN⟩ := kernel_entered hbootable hfirst h4 hgood hfolder hname hlen'
    (hcluster ▸ hasClusters_of_fatChain hl hchain) hhigh hline regs
  refine ⟨N, fun rounds hrounds => ?_⟩
  obtain ⟨a, log, hrun, hplaced⟩ := hN rounds hrounds
  refine ⟨a, log, hrun, ?_⟩
  -- the file has one chain only
  obtain ⟨cs'', hchain', hcontents⟩ := hfiles 2 T.root kernel (mem_liveFiles.mpr ⟨k, hmem⟩) hfile
  obtain rfl := hchain.unique hchain'
  rw [hcluster] at hplaced
  rw [hcontents]
  exact read_contents hl hchain hplaced kernel.size

end Built

/-! ## A drive with one file -/

section OneFile

/-- A tree of one file. -/
def rootTree (f : LiveFile) (hlegal : f.Legal) (hfile : f.directory = false) (hdots : f.raw ∉ dotNames) : DirectoryTree where
  isDirectory c := c ∈ [2]
  entries _ := [.live f]
  parent _ := 2
  depth _ := 0
  root := List.mem_singleton_self 2
  legal := fun _ _ _ hf => List.mem_singleton.mp hf ▸ hlegal
  closed := fun _ _ _ hf hdir => absurd (List.mem_singleton.mp hf ▸ hdir) (Bool.eq_false_iff.mp hfile)
  dots := fun _ _ _ hf hraw => absurd (List.mem_singleton.mp hf ▸ hraw) hdots
  dot := fun _ _ _ hf hraw => absurd (mem_dotNames.mpr (.inl (List.mem_singleton.mp hf ▸ hraw))) hdots
  dotDot := fun _ _ _ hf hraw => absurd (mem_dotNames.mpr (.inr (List.mem_singleton.mp hf ▸ hraw))) hdots
  parent_target := fun _ _ _ hf hdir => absurd (List.mem_singleton.mp hf ▸ hdir) (Bool.eq_false_iff.mp hfile)
  depth_parent := fun _ hc hne => absurd (List.mem_singleton.mp hc) hne

/-- The record of the file, and the three bytes that are all other clusters' contents. -/
def fileData (f : LiveFile) (c : Nat) : Bytes := ofString (if c = 2 then shortRecord f else [0xFA, 0xF4, 0xEB])

/-- A built drive with the file. -/
def fileDisk (f : LiveFile) : Bytes := builtVolume (fun _ => 0x0FFFFFFF) (fileData f)

variable (f : LiveFile)

theorem fileDisk_chain {c : Nat} (hc : ValidCluster c) : FatChain (fileDisk f) (volumeHeader (fileDisk f)) [c] := by
  refine ⟨hc, builtVolume_fatNext (fun _ => 0x0FFFFFFF) (fileData f) ?_ (by decide)⟩
  unfold ValidCluster dataClusters at hc
  omega

variable {f} (hlegal : f.Legal) (hfile : f.directory = false) (hdots : f.raw ∉ dotNames)

theorem rootTree_onDisk (hlong : f.long = []) (hshort : IsShort (ofString (shortRecord f)) f) :
    (rootTree f hlegal hfile hdots).OnDisk (fileDisk f) (volumeHeader (fileDisk f)) := by
  have hlen : (shortRecord f).length = 32 := by
    simp [shortRecord, f.raw_length]
  have hcount : recordCount [.live f] = 1 := by
    rw [recordCount, recordCount, hlong]
    rfl
  refine ⟨?_, ?_, ?_⟩
  · intro c hc
    exact List.mem_singleton.mp hc ▸ two_valid
  · intro c hc
    obtain rfl := List.mem_singleton.mp hc
    -- behind the record the cluster is empty
    have hholds : Holds (ofString (shortRecord f)) 0 [.live f] := by
      refine .short hlong (hshort.congr fun i _ _ => congrArg (ofString (shortRecord f)) (Int.zero_add i)) ?_
      show (shortRecord f).getD 32 0 = 0
      rw [List.getD_eq_default _ _ (Nat.le_of_eq hlen)]
    refine hholds.congr fun i hi hi' => ?_
    rw [hcount] at hi'
    obtain ⟨n, rfl⟩ := Int.eq_ofNat_of_zero_le hi
    have hbyte := Mem.eq_of_read_eq (builtVolume_clusterData (fun _ => 0x0FFFFFFF) (fileData f) (Nat.le_refl 2)) (i := n) (by omega)
    rw [Int.zero_add] at hbyte
    exact hbyte
  · intro c _
    show 32 * (recordCount [.live f] + 1) ≤ 2048
    rw [hcount]
    decide

theorem rootTree_holdsFiles (htarget : f.target = 3) (hsize : f.size = 3) :
    (rootTree f hlegal hfile hdots).HoldsFiles (fileDisk f) (volumeHeader (fileDisk f)) fun _ => [0xFA, 0xF4, 0xEB] := by
  have hvalid : ValidCluster 3 := ⟨by decide, by decide⟩
  rintro c _ g hg _
  obtain rfl := List.mem_singleton.mp hg
  refine ⟨[], htarget ▸ fileDisk_chain g hvalid, ?_⟩
  have hdata : clusterData (fileDisk g) (volumeHeader (fileDisk g)) 3 = (fileData g 3).read 0 2048 :=
    builtVolume_clusterData (fun _ => 0x0FFFFFFF) (fileData g) (by decide)
  rw [htarget, contents, hsize, chainData, List.flatMap_singleton, hdata, Mem.take_read _ _ (by decide)]
  rfl

end OneFile

/-! ## The system -/

section System

open MediaUtility (Windows Machine build)
open Screen (LogsText)

variable {w : Windows} {machine : Machine} {driveNum : Int}

/-- A drive that the media utility built, with a tree of directories and files copied to its volume since: the boot
    loader enters the kernel with the contents of the first file of the root directory that has its name, and behind
    the start of `main` the kernel is the console over the same tree. -/
theorem system_boots (h : (build w machine driveNum).1 = 0) {f : BootFile} (hcode : w.bootLoader = some f.code) {d : Drive}
    (himage : ∀ i, 0 ≤ i → i < 1024 → d.disk i = (build w machine driveNum).2.drive i) (hid : identify d = some true)
    (hgood : ∀ n, d.good n = true) {b : Bios} (hbios : b.disk = d.disk) (hreads : ∀ n, b.succeeds n = true)
    {T : DirectoryTree} {contents : LiveFile → List UInt8} {cs : List Nat}
    (hroot : FatChain d.disk (volumeHeader d.disk) (2 :: cs)) (hlen : (2 :: cs).length ≤ 8)
    (hdisk : T.OnDisk d.disk (volumeHeader d.disk)) (hfiles : T.HoldsFiles d.disk (volumeHeader d.disk) contents)
    {kernel : LiveFile} (hkernel : kernelFile T = some kernel) (hfile : kernel.directory = false)
    (hstart : kernel.cluster ≠ 0) {cs' : List Nat} (hchain : FatChain d.disk (volumeHeader d.disk) (kernel.target :: cs'))
    (hlen' : (kernel.target :: cs').length ≤ 15) {m : Bytes} (hfirst : FirstSector m d.disk) {g : A20Gate} {line : Bool}
    (hhigh : m 0x100500 ≠ 1)
    (hline : line = true ∨ g.int15 line = true ∨ g.out92 (g.in92 ||| 2) (g.int15 line) = true) (regs : Find)
    (screen : Screen) :
    (∃ N, ∀ rounds ≥ N, ∃ a log, boot b f g rounds regs line ⟨m, []⟩ = .kernel a log ∧
      a.mem.read 0x8200 (contents kernel).length = contents kernel) ∧
    ∃ k₀, Kernel.boot d screen = some (.ok k₀) ∧
      ∀ (es : List KernelStep) (v : Console), es.foldlM (Console.step T contents) {} = some v →
      ∃ k, es.foldlM (Kernel.step d) k₀ = .ok k ∧ LogsText k.keyboard.screen v.dialogue.text ∧
        HoldsPath k.files.sysPath v.dialogue.path := by
  rw [← hbios] at himage hroot hdisk hfiles hchain hfirst
  have hl := built_layout h himage
  -- the loader reads through the BIOS, the kernel through its own driver, the same disk
  refine ⟨kernelFile_booted h hcode himage hreads hfirst hroot (by omega) hdisk hfiles hkernel hfile hstart hchain hlen'
    hhigh hline regs, ?_⟩
  rw [hbios] at hl hroot hdisk hfiles
  obtain ⟨k₀, hboot, hshows⟩ := shows_boot T hid hgood hl hroot hlen screen
  refine ⟨k₀, hboot, fun es v hrun => ?_⟩
  obtain ⟨k, hkernel, hshows⟩ := hshows.run hdisk hl hgood hfiles hrun
  exact ⟨k, hkernel, hshows.logs.logsText, hshows.files.path⟩

/-- The kernel, three bytes in the cluster 3. -/
def kernelEntry : LiveFile := shortEntry KERNEL_NAME false 3 3

theorem kernelEntry_isShort : IsShort (ofString (shortRecord kernelEntry)) kernelEntry :=
  ⟨by decide, by decide, by decide, by decide, by decide⟩

theorem kernelEntry_legal : kernelEntry.Legal := ⟨by decide, by decide, by decide, by decide⟩

/-- The three bytes are loaded, and `ls` behind the prompt prints the kernel's name. -/
theorem system_boots_kernelEntry :
    (∃ N, ∀ rounds ≥ N, ∃ a log, boot (goodBios (fileDisk kernelEntry)) nameOnly ⟨id, 0, fun _ => id⟩ rounds
      ⟨.findFile, 0, 0, 0, 0, 0, false, []⟩ true ⟨sectorLoaded (fileDisk kernelEntry), []⟩ = .kernel a log ∧
      a.mem.read 0x8200 3 = [0xFA, 0xF4, 0xEB]) ∧
    ∃ k₀ k, Kernel.boot (healthyDrive (fileDisk kernelEntry)) { vidmem := fun _ => 0 } = some (.ok k₀) ∧
      [.call {}, .interrupt 1 0x26, .interrupt 1 0x1F, .interrupt 1 0x1C, .call {}, .call {}].foldlM
        (Kernel.step (healthyDrive (fileDisk kernelEntry))) k₀ = .ok k ∧
      LogsText k.keyboard.screen
        (str ['/', '$', ' ', 'l', 's', '\n'] ++ (KERNEL_NAME ++ [NEWLINE]) ++ str ['/', '$', ' ']) := by
  have hdots : kernelEntry.raw ∉ dotNames := by decide
  have hvalid : ValidCluster 3 := ⟨by decide, by decide⟩
  obtain ⟨hloaded, k₀, hboot, hruns⟩ := system_boots (f := nameOnly) withName_builds rfl
    (d := healthyDrive (fileDisk kernelEntry)) (builtVolume_built (fun _ => 0x0FFFFFFF) (fileData kernelEntry)) rfl (healthyDrive_good _)
    (b := goodBios (fileDisk kernelEntry)) rfl (fun _ => rfl) (fileDisk_chain kernelEntry two_valid) (by decide)
    (rootTree_onDisk kernelEntry_legal rfl hdots rfl kernelEntry_isShort) (rootTree_holdsFiles _ _ _ rfl rfl) rfl rfl
    (by decide) (fileDisk_chain kernelEntry hvalid) (by decide) (firstSector_sectorLoaded _) (g := ⟨id, 0, fun _ => id⟩)
    (sectorLoaded_high _) (.inl (Eq.refl true)) ⟨.findFile, 0, 0, 0, 0, 0, false, []⟩ { vidmem := fun _ => 0 }
  obtain ⟨k, hrun, hlogs, -⟩ := hruns
    [.call {}, .interrupt 1 0x26, .interrupt 1 0x1F, .interrupt 1 0x1C, .call {}, .call {}] _ rfl
  exact ⟨hloaded, k₀, k, hboot, hrun, hlogs⟩

/-- Without a file that has the name, the boot ends with the message that there is no kernel, whatever else is on the
    volume. -/
theorem system_without_kernel (h : (build w machine driveNum).1 = 0) {f : BootFile} (hcode : w.bootLoader = some f.code)
    {b : Bios} (himage : ∀ i, 0 ≤ i → i < 1024 → b.disk i = (build w machine driveNum).2.drive i)
    (hgood : ∀ n, b.succeeds n = true) {m : Bytes} (hfirst : FirstSector m b.disk) {T : DirectoryTree} {cs : List Nat}
    (hroot : FatChain b.disk (volumeHeader b.disk) (2 :: cs)) (hlen : (2 :: cs).length ≤ 15)
    (hdisk : T.OnDisk b.disk (volumeHeader b.disk)) (hnone : kernelFile T = none) (g : A20Gate) (line : Bool) (regs : Find) :
    ∃ N, ∀ rounds ≥ N, ∃ s, boot b f g rounds regs line ⟨m, []⟩ = .failed (.hangs .FIND_ERROR s) := by
  have hl := built_layout h himage
  obtain ⟨hbootable, h4⟩ := built_bootable h hcode himage
  have hfolder := rootFolder_of_onDisk hl hdisk hroot hlen (Nat.le_refl _) fun p hp _ => kernelFile_none hnone p hp
  -- the loader comes to the end of the directory
  have hend : b.disk (rootRecord b.disk (volumeHeader b.disk) (recordCount (T.entries 2))) = 0 := by
    have hzero := (hdisk.holds 2 T.root).end
    rw [Nat.zero_add] at hzero
    rw [rootRecord_first b.disk hl (recordCount_root hdisk)]
    exact hzero
  exact kernel_missing hbootable hfirst h4 hgood hfolder hend g line regs

/-- A file `K` in the kernel's place. -/
def otherEntry : LiveFile := shortEntry (str ['K']) false 3 3

theorem system_without_kernel_otherEntry :
    ∃ N, ∀ rounds ≥ N, ∃ s, boot (goodBios (fileDisk otherEntry)) nameOnly ⟨id, 0, fun _ => id⟩ rounds
      ⟨.findFile, 0, 0, 0, 0, 0, false, []⟩ true ⟨sectorLoaded (fileDisk otherEntry), []⟩ =
        .failed (.hangs .FIND_ERROR s) := by
  have hlegal : otherEntry.Legal := ⟨by decide, by decide, by decide, by decide⟩
  have hshort : IsShort (ofString (shortRecord otherEntry)) otherEntry :=
    ⟨by decide, by decide, by decide, by decide, by decide⟩
  have hdots : otherEntry.raw ∉ dotNames := by decide
  exact system_without_kernel (f := nameOnly) withName_builds rfl (b := goodBios (fileDisk otherEntry))
    (builtVolume_built (fun _ => 0x0FFFFFFF) (fileData otherEntry)) (fun _ => rfl) (firstSector_sectorLoaded _) (fileDisk_chain otherEntry two_valid) (by decide)
    (rootTree_onDisk hlegal rfl hdots rfl hshort) rfl _ _ _

end System

end SoreOS.Boot
