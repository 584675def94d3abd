import SoreOS.Spec.ClusterScan
import SoreOS.Spec.FreshWalk
import SoreOS.Spec.FilledFile
import SoreOS.Spec.Shell

/-!
# Searching a directory again

Whether `findFile` still finds what it finds right after its directory was opened, when
files were searched for, listed and printed in between. Printing takes the directory
out of the buffer, and the scans behind it begin with a cluster of `currentDir`, which
`openDirectory` does not set.

## Key results

- `JustOpened.cached`: an opened directory comes with a cached FAT sector
- `DirCall.follows`: what a call leaves, and when it returns
- `sameResult_iff`: when a search has the result it had at first
- `not_sameResult`: a file of a subdirectory that is not found a second time
-/

namespace SoreOS

open ForStd

/-! ## An opened directory -/

/-- The states after `loadFileSystem` has succeeded and any operations. -/
inductive Mounted (d : Drive) : FsState → Prop where
  | load {s : FsState} (h : loadFileSystem d .boot = some (.ok (true, s))) : Mounted d s
  | step {s s' : FsState} (op : FsOp) (hs : Mounted d s) (h : op.apply d s = .ok s') : Mounted d s'

/-- A directory was opened just now: the root directory with the file system, or any other. -/
def JustOpened (d : Drive) (s : FsState) : Prop :=
  loadFileSystem d .boot = some (.ok (true, s)) ∨
    ∃ t directory, Mounted d t ∧ openDirectory d t directory = .ok (true, s)

/-- What no call for a directory changes: the header and `currentDir`, and what lies outside
    the cluster buffer; the cached FAT sector stays the one that its index names. -/
structure Keeps (d : Drive) (s s' : FsState) : Prop where
  fileSys : s'.fileSys = s.fileSys
  currentDir : s'.currentDir = s.currentDir
  waits : s.waits ≤ s'.waits
  outside : ∀ i : Int, i < 0 ∨ 2048 ≤ i → s'.ClusterBuffer i = s.ClusterBuffer i
  cached : Cached d s → Cached d s'

namespace Keeps

variable {d : Drive} {s s' t u : FsState}

theorem refl (s : FsState) : Keeps d s s := ⟨rfl, rfl, Nat.le_refl _, fun _ _ => rfl, id⟩

theorem trans (h : Keeps d s t) (h' : Keeps d t u) : Keeps d s u :=
  ⟨h'.fileSys.trans h.fileSys, h'.currentDir.trans h.currentDir, Nat.le_trans h.waits h'.waits,
    fun i hi => (h'.outside i hi).trans (h.outside i hi), fun hc => h'.cached (h.cached hc)⟩

theorem load_Cluster {i : Int} {ok : Bool} (h : load_Cluster d s i = .ok (ok, s')) : Keeps d s s' := by
  obtain ⟨hwaits, hkeep⟩ := load_Cluster_outside h
  obtain ⟨m, i', n, rfl⟩ := load_Cluster_frame h
  exact ⟨rfl, rfl, hwaits, hkeep, id⟩

theorem load_FATSect {offset : Int} {ok : Bool} (h : load_FATSect d s offset = .ok (ok, s')) : Keeps d s s' := by
  rw [load_FATSect_eq] at h
  obtain ⟨-, rfl⟩ := Prod.mk.inj (Except.ok.inj h)
  refine ⟨rfl, rfl, Nat.le_succ _, fun _ _ => rfl, fun hc => ?_⟩
  cases d.good s.waits with
  | true =>
    -- a good read replaces the sector as a whole
    intro i hi hi'
    simp only [if_true]
    rw [memcpyObj, Mem.copyFrom_apply, if_pos (by omega), Int.sub_zero]
    rfl
  | false => exact hc

theorem traverseFATLoop {rounds : Nat} {i : Int} {m m' : Mem Int} {ok : Bool}
    (h : traverseFATLoop d rounds i s m = .ok (ok, m', s')) : Keeps d s s' :=
  traverseFATLoop_rel refl trans load_FATSect h

theorem index (s : FsState) (i : Int) : Keeps d s { s with dirClusterIndex := i } :=
  ⟨rfl, rfl, Nat.le_refl _, fun _ _ => rfl, id⟩

theorem out (s : FsState) (out : List UInt8) : Keeps d s { s with out := out } :=
  ⟨rfl, rfl, Nat.le_refl _, fun _ _ => rfl, id⟩

theorem openDirectory {directory : File} {ok : Bool}
    (h : openDirectory d s directory = .ok (ok, s')) : Keeps d s s' :=
  @openDirectory_rel d (Keeps d) trans load_Cluster index s s' _ _ h

theorem apply {op : FsOp} (h : op.apply d s = .ok s') : Keeps d s s' :=
  FsOp.rel refl trans load_FATSect load_Cluster index out
    (fun _ _ => ⟨rfl, rfl, Nat.le_refl _, fun _ _ => rfl, id⟩) h

end Keeps

/-- The sector of an entry is loaded unless the index names it already. -/
theorem reachFATSect_loads {d : Drive} {s t : FsState} {offset : Int} (hne : offset ≠ s.FATSecIdx)
    (h : reachFATSect d s offset = .ok (true, t)) : Cached d t := by
  rw [reachFATSect, if_pos hne, load_FATSect_eq] at h
  obtain ⟨hread, rfl⟩ := Prod.mk.inj (Except.ok.inj h)
  simp only [hread, if_true]
  intro i hi hi'
  dsimp only
  rw [memcpyObj, Mem.copyFrom_apply, if_pos (by omega), Int.sub_zero]
  rfl

/-- A successful walk from an empty cache loads a sector, at the latest for its second entry. -/
theorem traverseFAT_loads {d : Drive} {s t : FsState} {start : Int} {m m' : Mem Int} (hidx : s.FATSecIdx = -1)
    (hbuf : s.FATBuffer = fun _ => 0) (hstart : start ≠ END_OF_CHAIN)
    (h : traverseFAT d s start m = .ok (true, m', t)) : Cached d t := by
  rw [traverseFAT, traverseFATLoop, if_neg (by rw [Int.sub_self, Mem.set_same]; exact hstart)] at h
  obtain ⟨⟨ok, u⟩, hreach, h⟩ := bind_eq_ok.mp h
  cases ok with
  | false => cases h
  | true =>
    simp only [if_true] at h
    by_cases hne : (m.set 0 start) (1 - 1) / 128 = s.FATSecIdx
    · -- the entry is looked up in the empty cache, and the next one lies in sector 0
      rw [reachFATSect, if_neg (not_not.mpr hne)] at hreach
      obtain ⟨-, rfl⟩ := Prod.mk.inj (Except.ok.inj hreach)
      have hzero : ∀ off, toInt (readDD s.FATBuffer off).toNat = 0 := by
        intro off
        rw [hbuf, readDD, (Mem.loadLE_eq_zero_iff (fun _ => (0 : UInt8)) off 4).mpr fun _ _ => rfl]
        exact toInt_toNat_eq_zero.mpr rfl
      rw [hzero, traverseFATLoop, show (1 : Int) + 1 - 1 = 1 from rfl, Mem.set_same, if_neg (by decide)] at h
      obtain ⟨⟨ok, w⟩, hreach, h⟩ := bind_eq_ok.mp h
      cases ok with
      | false => cases h
      | true =>
        have hcw : Cached d w := by
          refine reachFATSect_loads ?_ hreach
          rw [hidx]
          decide
        simp only [if_true] at h
        exact (Keeps.traverseFATLoop h).cached hcw
    · exact (Keeps.traverseFATLoop h).cached (reachFATSect_loads hne hreach)

/-- Loading the file system leaves a FAT sector in the cache, if the root directory has a cluster. -/
theorem loadFileSystem_cached {d : Drive} {s : FsState} (h : loadFileSystem d .boot = some (.ok (true, s)))
    (hroot : s.currentDir.clusters 0 ≠ END_OF_CHAIN) : Cached d s ∧ s.dirClusterIndex = 0 := by
  unfold loadFileSystem at h
  obtain ⟨identified, -, h⟩ := Option.map_eq_some_iff.mp h
  cases identified with
  | false => cases h
  | true =>
    obtain ⟨⟨ok, buffer, n⟩, -, h⟩ := bind_eq_ok.mp h
    cases ok with
    | false => cases h
    | true =>
      unfold openRoot at h
      obtain ⟨⟨ok', clusters, t⟩, hwalk, h⟩ := bind_eq_ok.mp h
      cases ok' with
      | false => cases h
      | true =>
        have hopen : openDirectory d { t with currentDir := { t.currentDir with clusters := clusters } }
            { t.currentDir with clusters := clusters } = .ok (true, s) := h
        have hkeeps := Keeps.openDirectory hopen
        rw [hkeeps.currentDir] at hroot
        -- the first cluster of the root directory is the one that the walk started from
        obtain ⟨ok'', clusters', t', hrun, -, hfirst⟩ := traverseFAT_returns d
          { FsState.boot with waits := n, fileSys := readHeader buffer }
          (toInt (readHeader buffer).A_BF_BPB_RootDirStrtClus.toNat) FsState.boot.currentDir.clusters
        rw [hwalk] at hrun
        obtain ⟨-, hpair⟩ := Prod.mk.inj (Except.ok.inj hrun)
        obtain ⟨rfl, rfl⟩ := Prod.mk.inj hpair
        have hct : Cached d t := traverseFAT_loads (by rfl) (by rfl) (fun hend => hroot (hfirst.trans hend)) hwalk
        refine ⟨hkeeps.cached hct, ?_⟩
        unfold openDirectory at hopen
        obtain ⟨⟨ok3, w⟩, -, hopen⟩ := bind_eq_ok.mp hopen
        cases ok3 with
        | false => cases hopen
        | true =>
          cases hopen
          rfl

theorem Mounted.cached {d : Drive} {s : FsState} (h : Mounted d s) (hroot : s.currentDir.clusters 0 ≠ END_OF_CHAIN) :
    Cached d s := by
  induction h with
  | load h => exact (loadFileSystem_cached h hroot).1
  | step op _ h ih =>
    have hkeeps := Keeps.apply h
    rw [hkeeps.currentDir] at hroot
    exact hkeeps.cached (ih hroot)

/-- An opened directory comes with a FAT sector in the cache. -/
theorem JustOpened.cached {d : Drive} {s : FsState} (h : JustOpened d s) (hroot : s.currentDir.clusters 0 ≠ END_OF_CHAIN) :
    Cached d s ∧ s.dirClusterIndex = 0 := by
  obtain h | ⟨t, directory, hmounted, hopen⟩ := h
  · exact loadFileSystem_cached h hroot
  · have hkeeps := Keeps.openDirectory hopen
    rw [hkeeps.currentDir] at hroot
    refine ⟨hkeeps.cached (hmounted.cached hroot), ?_⟩
    unfold openDirectory at hopen
    obtain ⟨⟨ok, w⟩, -, hopen⟩ := bind_eq_ok.mp hopen
    cases ok with
    | false => cases hopen
    | true =>
      cases hopen
      rfl

/-! ## Filling a file -/

/-- The file that is filled with some data, without a cache. -/
def fileOf (disk : Bytes) (hdr : FAT32_HEADER) (data : UInt8 × Int × Int) (file : File) : File where
  type := data.1
  size := data.2.1
  clusters := freshWalk disk hdr 7 1 (file.clusters.set 0 data.2.2)

/-- Different data fill different files. -/
theorem fileOf_inj {disk : Bytes} {hdr : FAT32_HEADER} {data data' : UInt8 × Int × Int} {file : File}
    (h : fileOf disk hdr data file = fileOf disk hdr data' file) : data = data' := by
  have hcluster := congrFun (congrArg File.clusters h) 0
  simp only [fileOf] at hcluster
  rw [freshWalk_before _ _ _ (by decide), freshWalk_before _ _ _ (by decide), Mem.set_same, Mem.set_same] at hcluster
  exact Prod.ext (congrArg File.type h) (Prod.ext (congrArg File.size h) hcluster)

/-- Without errors, `findFile` fills the file from the record alone, whatever the cache holds. -/
theorem fillFile_cached {d : Drive} {s : FsState} (r : Bytes) (file : File) (hc : Cached d s)
    (hgood : ∀ n, s.waits ≤ n → d.good n = true) :
    ∃ t, fillFile d s r file = .ok (fileOf d.disk s.fileSys (fileData s.fileSys r) file, t) ∧
      FatFrame s t ∧ Cached d t := by
  obtain ⟨t, hwalk, hframe, hct⟩ := traverseFATLoop_cached 7 (i := 1)
    (file.clusters.set 0 (fileData s.fileSys r).2.2) hc hgood
  refine ⟨t, ?_, hframe, hct⟩
  rw [fillFile_eq, walkFile, traverseFAT, hwalk, ok_bind]
  simp only [fileOf, pure_eq_ok]

/-! ## Calls for a directory -/

/-- The calls between the opening of a directory and a further search of it. -/
inductive DirCall where
  | findFile (filename : List UInt8) (file : File)
  | listFiles
  | printFile (file : File)

/-- The state that a call leaves. -/
def DirCall.apply (d : Drive) (s : FsState) : DirCall → Except Fault FsState
  | .findFile filename file => (·.2.2) <$> SoreOS.findFile d s filename file
  | .listFiles => SoreOS.listFiles d s
  | .printFile file => SoreOS.printFile d s file

/-- The call takes the directory out of the cluster buffer. -/
def DirCall.prints : DirCall → Bool
  | .printFile _ => true
  | _ => false

/-- After the calls, a search returns, with the result it has right after the directory was opened. -/
def SameResult (d : Drive) (s₀ : FsState) (calls : List DirCall) (q : List UInt8) (file : File) : Prop :=
  ∃ t res file' u u', calls.foldlM (DirCall.apply d) s₀ = .ok t ∧
    findFile d t q file = .ok (res, file', u) ∧ findFile d s₀ q file = .ok (res, file', u')

section Calls

variable {d : Drive} {s₀ : FsState}

/-- The cluster buffer with the first cluster of `currentDir`. -/
def reloaded (d : Drive) (s₀ : FsState) : Bytes :=
  memcpyObj s₀.ClusterBuffer 0 d.disk (clusterBase s₀.fileSys (s₀.currentDir.clusters 0)) 2048

/-- The buffer that a scan works on, in which a file was printed before or not. -/
def scanned (d : Drive) (s₀ : FsState) (printed : Bool) : Bytes :=
  if printed then reloaded d s₀ else s₀.ClusterBuffer

/-- A scan that no file ends comes to its end in the buffer: at a record that ends it, or
    behind the last record of a directory with one cluster, unless a file was printed. -/
def ScanEnds (d : Drive) (s₀ : FsState) (printed : Bool) : Prop :=
  clusterEnd (scanned d s₀ printed) = .stops ∨
    (clusterEnd (scanned d s₀ printed) = .through ∧ printed = false ∧ s₀.currentDir.clusters 1 = END_OF_CHAIN)

/-- The file that a search ends at. -/
def foundFile (d : Drive) (s₀ : FsState) (printed : Bool) (q : List UInt8) : Option Nat :=
  if q.length > 104 then none else clusterLookup (scanned d s₀ printed) (searchTerm q)

/-- What the record of that file says. -/
def foundData (d : Drive) (s₀ : FsState) (printed : Bool) (q : List UInt8) : Option (UInt8 × Int × Int) :=
  (foundFile d s₀ printed q).map fun k : Nat => fileData s₀.fileSys (subBuffer (scanned d s₀ printed) (32 * k))

/-- A search ends at a file, or comes to its end in the buffer. -/
def SearchEnds (d : Drive) (s₀ : FsState) (printed : Bool) (q : List UInt8) : Prop :=
  q.length > 104 ∨ (foundFile d s₀ printed q).isSome ∨ ScanEnds d s₀ printed

/-- The result of a search, and the file it leaves. -/
def searchResult (d : Drive) (s₀ : FsState) (printed : Bool) (q : List UInt8) (file : File) : Int × File :=
  match foundData d s₀ printed q with
  | some data => (0, fileOf d.disk s₀.fileSys data file)
  | none => (-1, file)

/-- A call comes to an end in the buffer. -/
def DirCall.Ends (d : Drive) (s₀ : FsState) (printed : Bool) : DirCall → Prop
  | .findFile q _ => SearchEnds d s₀ printed q
  | .listFiles => ScanEnds d s₀ printed
  | .printFile _ => True

/-- All the calls do. -/
def CallsEnd (d : Drive) (s₀ : FsState) : Bool → List DirCall → Prop
  | _, [] => True
  | printed, c :: calls => c.Ends d s₀ printed ∧ CallsEnd d s₀ (printed || c.prints) calls

/-- What the state of the driver keeps of the state `s₀` in which the directory was opened. -/
structure Follows (d : Drive) (s₀ : FsState) (printed : Bool) (t : FsState) : Prop where
  keeps : Keeps d s₀ t
  dirClusterIndex : t.dirClusterIndex = if printed then -1 else 0
  buffer : printed = false → t.ClusterBuffer = s₀.ClusterBuffer

namespace Follows

theorem withOut {printed : Bool} {t : FsState} (h : Follows d s₀ printed t) (out : List UInt8) :
    Follows d s₀ printed { t with out := out } :=
  ⟨h.keeps.trans (.out t out), h.dirClusterIndex, h.buffer⟩

/-- Fetching FAT sectors keeps it. -/
theorem fatFrame {printed : Bool} {t u : FsState} (h : Follows d s₀ printed t) (hframe : FatFrame t u)
    (hc : Cached d u) : Follows d s₀ printed u := by
  have hkeeps : Keeps d t u :=
    ⟨by rw [hframe.eq], by rw [hframe.eq], hframe.waits, fun _ _ => by rw [hframe.eq], fun _ => hc⟩
  refine ⟨h.keeps.trans hkeeps, ?_, fun hp => ?_⟩
  · rw [hframe.eq]
    exact h.dirClusterIndex
  · rw [hframe.eq]
    exact h.buffer hp

variable (h4 : FourSectors s₀.fileSys) (hroot : s₀.currentDir.clusters 0 ≠ END_OF_CHAIN)
  (hgood : ∀ n, s₀.waits ≤ n → d.good n = true) {printed : Bool} {t : FsState}
  (h : Follows d s₀ printed t)
include h4 hgood h

/-- A scan begins with the buffer that was loaded, or loads the first cluster of `currentDir`. -/
theorem loadFirst : ∃ t', loadFirst d t = .ok (true, t') ∧ Follows d s₀ printed t' ∧
    t'.ClusterBuffer = scanned d s₀ printed := by
  cases printed with
  | false =>
    exact ⟨t, if_neg (not_not.mpr h.dirClusterIndex), h, h.buffer rfl⟩
  | true =>
    have hspc : t.fileSys.A_BF_BPB_SectorsPerCluster = 4 := by rw [h.keeps.fileSys, h4.sectorsPerCluster]
    have hload := load_Cluster_good (t.currentDir.clusters 0) hspc
      fun n hn => hgood n (Nat.le_trans h.keeps.waits hn)
    refine ⟨_, ?_, ⟨h.keeps.trans (.load_Cluster hload), h.dirClusterIndex, fun hp => by cases hp⟩, ?_⟩
    · rw [SoreOS.loadFirst, if_pos (by rw [h.dirClusterIndex]; decide), hload]
    · -- the load replaces all that earlier loads have changed
      funext i
      simp only [scanned, if_true, reloaded, memcpyObj, h.keeps.fileSys, h.keeps.currentDir]
      rw [Mem.copyFrom_apply, Mem.copyFrom_apply]
      split
      · rfl
      · exact h.keeps.outside i (by omega)

include hroot

/-- Behind the cluster a scan ends only if the directory has one cluster and nothing was printed. -/
theorem leave {R : Type} :
    (printed = false ∧ s₀.currentDir.clusters 1 = END_OF_CHAIN → leaveCluster (R := R) d t = .ok (none, t)) ∧
      (¬ (printed = false ∧ s₀.currentDir.clusters 1 = END_OF_CHAIN) →
        leaveCluster (R := R) d t = .error ⟨.ClusterBuffer, 2048⟩) := by
  have hspc : t.fileSys.A_BF_BPB_SectorsPerCluster = 4 := by rw [h.keeps.fileSys, h4.sectorsPerCluster]
  have hnext : ∀ i : Int, t.currentDir.clusters i = s₀.currentDir.clusters i :=
    fun i => by rw [h.keeps.currentDir]
  have hload := fun c => load_Cluster_good (d := d) c hspc fun n hn => hgood n (Nat.le_trans h.keeps.waits hn)
  unfold leaveCluster
  cases printed with
  | true =>
    -- after printing, the "next" cluster is the first one again
    have hidx : t.dirClusterIndex = -1 := h.dirClusterIndex
    refine ⟨fun hp => absurd hp.1 (by decide), fun _ => ?_⟩
    rw [hidx, if_pos (by decide), load_ok _ (by decide) (by decide), ok_bind, show (-1 : Int) + 1 = 0 from rfl,
      hnext, if_pos hroot, hload, ok_bind]
    rfl
  | false =>
    have hidx : t.dirClusterIndex = 0 := h.dirClusterIndex
    rw [hidx, if_pos (by decide), load_ok _ (by decide) (by decide), ok_bind, Int.zero_add, hnext]
    constructor
    · intro hgiven
      obtain ⟨-, hend⟩ := hgiven
      rw [if_neg (not_not.mpr hend)]
      rfl
    · intro hmore
      rw [if_pos fun hend => hmore ⟨rfl, hend⟩, hload, ok_bind]
      rfl

/-- A listing returns exactly if its scan comes to an end in the buffer. -/
theorem listFiles : (ScanEnds d s₀ printed → ∃ u, listFiles d t = .ok u ∧ Follows d s₀ printed u) ∧
    (¬ ScanEnds d s₀ printed → ∃ f, SoreOS.listFiles d t = .error f) := by
  obtain ⟨t', hload, h', hbuf⟩ := h.loadFirst h4 hgood
  have hrun := listFiles_cluster (by rw [h.keeps.fileSys]; exact h4) hload
  have hlisted := h'.withOut (t'.out ++ clusterListing t'.ClusterBuffer)
  obtain ⟨hends, hfaults⟩ := hlisted.leave h4 hroot hgood (R := Unit)
  rw [hbuf] at hrun hends hfaults hlisted
  rw [hrun]
  unfold ScanEnds
  cases clusterEnd (scanned d s₀ printed) with
  | stops => exact ⟨fun _ => ⟨_, rfl, hlisted⟩, fun hno => absurd (.inl rfl) hno⟩
  | fault f => exact ⟨fun hor => by simp at hor, fun _ => ⟨f, rfl⟩⟩
  | through =>
    dsimp only
    refine ⟨fun hor => ?_, fun hno => ?_⟩
    · rw [hends (by simpa using hor)]
      exact ⟨_, rfl, hlisted⟩
    · rw [hfaults fun hor => hno (.inr ⟨rfl, hor⟩)]
      exact ⟨_, rfl⟩

/-- A search returns exactly if it ends at a file or its scan comes to an end in the buffer. -/
theorem findRecord (q : List UInt8) :
    (SearchEnds d s₀ printed q → ∃ u, findRecord d t q =
        .ok ((foundFile d s₀ printed q).map fun k : Nat => 32 * (k : Int), u) ∧ Follows d s₀ printed u ∧
          ((foundFile d s₀ printed q).isSome → u.ClusterBuffer = scanned d s₀ printed)) ∧
      (¬ SearchEnds d s₀ printed q → ∃ f, SoreOS.findRecord d t q = .error f) := by
  unfold SearchEnds foundFile
  by_cases hlen : q.length > 104
  · rw [if_pos hlen, SoreOS.findRecord, if_pos hlen]
    exact ⟨fun _ => ⟨t, rfl, h, fun hsome => by cases hsome⟩, fun hno => absurd (.inl hlen) hno⟩
  obtain ⟨t', hload, h', hbuf⟩ := h.loadFirst h4 hgood
  obtain ⟨hends, hfaults⟩ := h'.leave h4 hroot hgood (R := Int)
  rw [if_neg hlen, findRecord_cluster (by rw [h.keeps.fileSys]; exact h4) hload (by omega), hbuf]
  cases clusterLookup (scanned d s₀ printed) (searchTerm q) with
  | some k => exact ⟨fun _ => ⟨t', rfl, h', fun _ => hbuf⟩, fun hno => absurd (.inr (.inl rfl)) hno⟩
  | none =>
    unfold ScanEnds
    cases clusterEnd (scanned d s₀ printed) with
    | stops => exact ⟨fun _ => ⟨t', rfl, h', fun _ => hbuf⟩, fun hno => absurd (.inr (.inr (.inl rfl))) hno⟩
    | fault f => exact ⟨fun hor => by simp [hlen] at hor, fun _ => ⟨f, rfl⟩⟩
    | through =>
      dsimp only
      refine ⟨fun hor => ?_, fun hno => ?_⟩
      · rw [hends (by simpa [hlen] using hor)]
        exact ⟨t', rfl, h', fun _ => hbuf⟩
      · rw [hfaults fun hor => hno (.inr (.inr (.inr ⟨rfl, hor⟩)))]
        exact ⟨_, rfl⟩

/-- `findFile`, likewise; its result depends on the buffer that is scanned alone. -/
theorem findFile (hc : Cached d s₀) (q : List UInt8) (file : File) :
    (SearchEnds d s₀ printed q → ∃ u, findFile d t q file =
        .ok ((searchResult d s₀ printed q file).1, (searchResult d s₀ printed q file).2, u) ∧
          Follows d s₀ printed u) ∧
      (¬ SearchEnds d s₀ printed q → ∃ f, SoreOS.findFile d t q file = .error f) := by
  obtain ⟨hends, hfaults⟩ := h.findRecord h4 hroot hgood q
  constructor
  · intro hsearch
    obtain ⟨u, hrun, hu, hbuf⟩ := hends hsearch
    unfold searchResult foundData
    rw [SoreOS.findFile, hrun, ok_bind]
    cases hfound : foundFile d s₀ printed q with
    | none => exact ⟨u, rfl, hu⟩
    | some k =>
      obtain ⟨w, hfill, hframe, hcw⟩ := fillFile_cached (subBuffer u.ClusterBuffer (32 * k)) file (hu.keeps.cached hc)
        fun n hn => hgood n (Nat.le_trans hu.keeps.waits hn)
      rw [hfound] at hbuf
      rw [hu.keeps.fileSys, hbuf rfl] at hfill
      refine ⟨w, ?_, hu.fatFrame hframe hcw⟩
      simp only [Option.map_some]
      rw [hbuf rfl, hfill]
      rfl
  · intro hsearch
    obtain ⟨f, hrun⟩ := hfaults hsearch
    exact ⟨f, by rw [SoreOS.findFile, hrun]; rfl⟩

omit hroot hgood in
/-- Printing always returns, and takes the directory out of the buffer. -/
theorem printFile (file : File) : ∃ u, printFile d t file = .ok u ∧ Follows d s₀ true u := by
  have hspc : t.fileSys.A_BF_BPB_SectorsPerCluster = 4 := by rw [h.keeps.fileSys, h4.sectorsPerCluster]
  obtain ⟨u, hrun, hframe, -⟩ := printFileLoop_returns d file.clusters 8 (i := 0)
    (s := { t with dirClusterIndex := -1 }) hspc file.size
  have hprint : SoreOS.printFile d t file = .ok u := hrun
  have hkeeps : Keeps d t u := printFile_rel .refl .trans .load_Cluster .index .out hprint
  exact ⟨u, hprint, h.keeps.trans hkeeps, by rw [hframe]; rfl, fun hp => by cases hp⟩

/-- A call returns exactly if it comes to an end in the buffer. -/
theorem apply (hc : Cached d s₀) (c : DirCall) :
    (c.Ends d s₀ printed → ∃ u, c.apply d t = .ok u ∧ Follows d s₀ (printed || c.prints) u) ∧
      (¬ c.Ends d s₀ printed → ∃ f, c.apply d t = .error f) := by
  cases c with
  | findFile q file =>
    obtain ⟨hends, hfaults⟩ := h.findFile h4 hroot hgood hc q file
    simp only [DirCall.prints, Bool.or_false, DirCall.apply]
    refine ⟨fun hsearch => ?_, fun hsearch => ?_⟩
    · obtain ⟨u, hrun, hu⟩ := hends hsearch
      exact ⟨u, by rw [hrun]; rfl, hu⟩
    · obtain ⟨f, hrun⟩ := hfaults hsearch
      exact ⟨f, by rw [hrun]; rfl⟩
  | listFiles =>
    simp only [DirCall.prints, Bool.or_false]
    exact h.listFiles h4 hroot hgood
  | printFile file =>
    simp only [DirCall.prints, Bool.or_true]
    exact ⟨fun _ => h.printFile h4 file, fun hno => absurd trivial hno⟩

/-- A run of calls returns exactly if each of them comes to an end in the buffer. -/
theorem run (hc : Cached d s₀) (calls : List DirCall) :
    (CallsEnd d s₀ printed calls → ∃ u, calls.foldlM (DirCall.apply d) t = .ok u ∧
        Follows d s₀ (printed || calls.any DirCall.prints) u) ∧
      (¬ CallsEnd d s₀ printed calls → ∃ f, calls.foldlM (DirCall.apply d) t = .error f) := by
  induction calls generalizing printed t with
  | nil => exact ⟨fun _ => ⟨t, rfl, by simpa using h⟩, fun hno => absurd trivial hno⟩
  | cons c calls ih =>
    obtain ⟨hends, hfaults⟩ := h.apply h4 hroot hgood hc c
    rw [List.foldlM_cons, List.any_cons, ← Bool.or_assoc, CallsEnd]
    by_cases hc : c.Ends d s₀ printed
    · obtain ⟨u, hrun, hu⟩ := hends hc
      rw [hrun, ok_bind, and_iff_right hc]
      exact ih hu
    · obtain ⟨f, hrun⟩ := hfaults hc
      rw [hrun, error_bind]
      exact ⟨fun hall => absurd hall.1 hc, fun _ => ⟨f, rfl⟩⟩

end Follows

/-- Two searches have the same result if their files have the same data. -/
theorem searchResult_eq_iff {printed printed' : Bool} {q : List UInt8} {file : File} :
    searchResult d s₀ printed q file = searchResult d s₀ printed' q file ↔
      foundData d s₀ printed q = foundData d s₀ printed' q := by
  unfold searchResult
  cases foundData d s₀ printed q with
  | none => cases foundData d s₀ printed' q <;> simp
  | some data =>
    cases foundData d s₀ printed' q with
    | none => simp
    | some data' =>
      simp only [Prod.mk.injEq, true_and, Option.some.injEq]
      exact ⟨fileOf_inj, fun heq => by rw [heq]⟩

end Calls

/-- After calls for an opened directory, a search has the result it has right after the opening
    exactly if the scans come to an end in the buffer, those after a printed file in the first
    cluster of `currentDir`, and the search finds the same there as in the buffer at first. -/
theorem sameResult_iff {d : Drive} {s₀ : FsState} (hopen : JustOpened d s₀) (h4 : FourSectors s₀.fileSys)
    (hroot : s₀.currentDir.clusters 0 ≠ END_OF_CHAIN) (hgood : ∀ n, s₀.waits ≤ n → d.good n = true)
    (calls : List DirCall) (q : List UInt8) (file : File) :
    SameResult d s₀ calls q file ↔
      CallsEnd d s₀ false calls ∧ SearchEnds d s₀ false q ∧
        SearchEnds d s₀ (calls.any DirCall.prints) q ∧
        foundData d s₀ (calls.any DirCall.prints) q = foundData d s₀ false q := by
  obtain ⟨hc, hidx⟩ := hopen.cached hroot
  have hstart : Follows d s₀ false s₀ := ⟨.refl s₀, hidx, fun _ => rfl⟩
  obtain ⟨hruns, hrunf⟩ := hstart.run h4 hroot hgood hc calls
  obtain ⟨hfirst, hfirstf⟩ := hstart.findFile h4 hroot hgood hc q file
  rw [Bool.false_or] at hruns
  constructor
  · intro h
    obtain ⟨t, res, file', u, u', hrun, hfind, hfind'⟩ := h
    -- a run or a search that returns has come to an end
    have hcalls : CallsEnd d s₀ false calls := by
      by_contra hno
      obtain ⟨f, hfault⟩ := hrunf hno
      rw [hrun] at hfault
      cases hfault
    have hsearch : SearchEnds d s₀ false q := by
      by_contra hno
      obtain ⟨f, hfault⟩ := hfirstf hno
      rw [hfind'] at hfault
      cases hfault
    obtain ⟨t', hrun', ht'⟩ := hruns hcalls
    rw [hrun] at hrun'
    obtain rfl := Except.ok.inj hrun'
    obtain ⟨hlast, hlastf⟩ := ht'.findFile h4 hroot hgood hc q file
    have hsearch' : SearchEnds d s₀ (calls.any DirCall.prints) q := by
      by_contra hno
      obtain ⟨f, hfault⟩ := hlastf hno
      rw [hfind] at hfault
      cases hfault
    refine ⟨hcalls, hsearch, hsearch', ?_⟩
    obtain ⟨w, hw, -⟩ := hlast hsearch'
    obtain ⟨w', hw', -⟩ := hfirst hsearch
    rw [hfind] at hw
    rw [hfind'] at hw'
    refine (@searchResult_eq_iff d s₀ _ _ q file).mp ?_
    cases hw
    simp only [Except.ok.injEq, Prod.mk.injEq] at hw'
    exact Prod.ext hw'.1 hw'.2.1
  · intro h
    obtain ⟨hcalls, hsearch, hsearch', hdata⟩ := h
    obtain ⟨t, hrun, ht⟩ := hruns hcalls
    obtain ⟨w, hw, -⟩ := (ht.findFile h4 hroot hgood hc q file).1 hsearch'
    obtain ⟨w', hw', -⟩ := hfirst hsearch
    rw [searchResult_eq_iff.mpr hdata] at hw
    exact ⟨t, _, _, w, w', hrun, hw, hw'⟩

/-- Listing the root directory of a volume with a subdirectory. -/
theorem sameResult_iff_ls : ∃ s, loadFileSystem (healthyDrive subDisk) .boot = some (.ok (true, s)) ∧
    (SameResult (healthyDrive subDisk) s [.listFiles] (str ['S', 'U', 'B']) {} ↔
      CallsEnd (healthyDrive subDisk) s false [.listFiles] ∧
        SearchEnds (healthyDrive subDisk) s false (str ['S', 'U', 'B']) ∧
        SearchEnds (healthyDrive subDisk) s false (str ['S', 'U', 'B']) ∧
        foundData (healthyDrive subDisk) s false (str ['S', 'U', 'B']) =
          foundData (healthyDrive subDisk) s false (str ['S', 'U', 'B'])) := by
  have hhdr : volumeHeader (healthyDrive subDisk).disk = defaultHeader := volumeHeader_subDisk
  obtain ⟨s, hload, h⟩ := loadFileSystem_subDisk
  have h4 : FourSectors s.fileSys := by
    rw [h.fileSys, hhdr]
    exact ⟨by decide, by decide⟩
  have hroot : s.currentDir.clusters 0 ≠ END_OF_CHAIN := by
    rw [h.currentDir]
    decide
  exact ⟨s, hload, sameResult_iff (.inl hload) h4 hroot (fun n _ => healthyDrive_good _ n) [.listFiles] _ {}⟩

/-- The scans of an opened directory of a tree find its entries. -/
theorem Opened.directoryLoads {d : Drive} {T : DirectoryTree} {s : FsState} {c : Nat} (h : Opened d s c)
    (hdisk : T.OnDisk d.disk (volumeHeader d.disk)) (hl : StandardLayout (volumeHeader d.disk))
    (hc : T.isDirectory c) : DirectoryLoads d s s (T.entries c) := by
  have hfits := hdisk.fits c hc
  have hbytes : clusterBytes s.fileSys = 2048 :=
    FourSectors.clusterBytes_eq ⟨h.fileSys ▸ hl.sectorsPerCluster, h.fileSys ▸ hl.bytesPerSector⟩
  refine ⟨if_neg (not_not.mpr h.dirClusterIndex), ?_, by omega, by omega⟩
  refine (hdisk.holds c hc).congr fun i hi hi' => ?_
  obtain ⟨n, rfl⟩ := Int.eq_ofNat_of_zero_le hi
  have := Mem.eq_of_read_eq h.buffer (i := n) (by omega)
  rw [Int.zero_add, h.fileSys] at this
  exact this

/-- In the subdirectory, the file `B` is found, and not found again after it was printed. -/
theorem not_sameResult : ∃ s folder t s₀ file u,
    loadFileSystem (healthyDrive subDisk) .boot = some (.ok (true, s)) ∧
    findFile (healthyDrive subDisk) s (str ['S', 'U', 'B']) {} = .ok (0, folder, t) ∧
    openDirectory (healthyDrive subDisk) t folder = .ok (true, s₀) ∧
    findFile (healthyDrive subDisk) s₀ (str ['B']) {} = .ok (0, file, u) ∧
    ¬ SameResult (healthyDrive subDisk) s₀ [.printFile file] (str ['B']) {} := by
  have hhdr : volumeHeader (healthyDrive subDisk).disk = defaultHeader := volumeHeader_subDisk
  have hl : StandardLayout (volumeHeader (healthyDrive subDisk).disk) := hhdr ▸ defaultHeader_layout
  have hdisk : subTree.OnDisk (healthyDrive subDisk).disk (volumeHeader (healthyDrive subDisk).disk) :=
    hhdr ▸ subTree_onDisk
  have hgood : ∀ n, (healthyDrive subDisk).good n = true := healthyDrive_good _
  -- the subdirectory is found and opened
  obtain ⟨s, hload, h⟩ := loadFileSystem_subDisk
  obtain ⟨folder, t, hfolder, ht, -, hcluster⟩ := h.findFile_some hdisk hl hgood (q := str ['S', 'U', 'B'])
    (by decide) (f := subEntry) rfl {}
  obtain ⟨s₀, hopen, hs₀, hpath⟩ := openDirectory_opened hl hgood ht.fileSys ht.currentDir (hcluster rfl)
    (hdisk.valid 3 (.inr rfl))
  -- its file is found
  have hloads := hs₀.directoryLoads hdisk hl (.inr rfl)
  have hrecord := findRecord_holds hloads (q := str ['B']) (by decide) (by decide)
  have hplace : (2, letterEntry) ∈ placed 0 (subTree.entries 3) := by
    show _ ∈ [_, _, _]
    exact List.mem_cons_of_mem _ (List.mem_cons_of_mem _ List.mem_cons_self)
  obtain ⟨file, u, hfind, -⟩ := findFile_found hloads hplace (hrecord.trans rfl) {}
  refine ⟨s, folder, t, s₀, file, u, hload, hfolder, hopen, hfind, ?_⟩
  intro hgiven
  obtain ⟨v, res, file', w, w', hrun, hagain, hfirst⟩ := hgiven
  rw [hfind] at hfirst
  cases hfirst
  -- after printing, the root directory is searched
  obtain ⟨v', hprint, hframe, -⟩ := printFileLoop_returns (healthyDrive subDisk) file.clusters 8 (i := 0)
    (s := { s₀ with dirClusterIndex := -1 }) (hs₀.fileSys ▸ hl.sectorsPerCluster) file.size
  have hrun' : [DirCall.printFile file].foldlM (DirCall.apply (healthyDrive subDisk)) s₀ = .ok v' := by
    rw [List.foldlM_cons]
    exact bind_of_ok hprint rfl
  rw [hrun] at hrun'
  obtain rfl := Except.ok.inj hrun'
  have hclosed : Closed (healthyDrive subDisk) v [] := by
    rw [hframe]
    exact ⟨hs₀.fileSys, hs₀.currentDir, rfl, hpath ▸ ht.path⟩
  have hinv : ShellInv (healthyDrive subDisk) subTree v 2 [] :=
    hclosed.shellInv rfl fun name hname => absurd hname List.not_mem_nil
  obtain ⟨w'', hnone, -⟩ := hinv.findFile_none hdisk hl hgood (q := str ['B']) (by decide) rfl {}
  rw [hagain] at hnone
  cases hnone

end SoreOS
