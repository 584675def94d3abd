import SoreOS.Native.Kernel
import SoreOS.Spec.ScanFrame

/-!
# The FAT cache

The one FAT sector the driver keeps in memory is the one its index names, in every
state that the operations of the file system can reach, whatever reads fail on
the way.

## Key results

- `CacheOk`: the cached sector is the one on the disk
- `Reachable.cacheOk`: so it is in every reachable state
- `reachFATSect_good`: fetching a sector without errors
-/

namespace SoreOS

open ForStd

/-- The cached FAT sector, if there is one, is the one on the disk. -/
def CacheOk (d : Drive) (s : FsState) : Prop :=
  s.FATSecIdx ≠ -1 → ∀ i : Int, 0 ≤ i → i < 512 →
    s.FATBuffer i = d.disk (fatSectorBase s.fileSys s.FATSecIdx + i)

/-- A step keeps the header, and with it the cache stays good. -/
structure KeepsCache (d : Drive) (s s' : FsState) : Prop where
  fileSys : s'.fileSys = s.fileSys
  cache : CacheOk d s → CacheOk d s'

namespace KeepsCache

variable {d : Drive} {s s' t u : FsState}

theorem refl (s : FsState) : KeepsCache d s s := ⟨rfl, id⟩

theorem trans (h : KeepsCache d s t) (h' : KeepsCache d t u) : KeepsCache d s u :=
  ⟨h'.fileSys.trans h.fileSys, fun hc => h'.cache (h.cache hc)⟩

/-- A step that touches neither the header nor the cache. -/
theorem of_eq (hhdr : s'.fileSys = s.fileSys) (hidx : s'.FATSecIdx = s.FATSecIdx)
    (hbuf : s'.FATBuffer = s.FATBuffer) : KeepsCache d s s' := by
  refine ⟨hhdr, fun hc => ?_⟩
  unfold CacheOk
  rw [hhdr, hidx, hbuf]
  exact hc

theorem load_Cluster {i : Int} {ok : Bool} (h : load_Cluster d s i = .ok (ok, s')) :
    KeepsCache d s s' := by
  obtain ⟨m, i', n, rfl⟩ := load_Cluster_frame h
  exact of_eq rfl rfl rfl

/-- A failed read leaves the cached sector alone, a good one replaces it as a whole. -/
theorem load_FATSect {offset : Int} {ok : Bool} (h : load_FATSect d s offset = .ok (ok, s')) :
    KeepsCache d s s' := by
  rw [load_FATSect_eq] at h
  obtain ⟨-, rfl⟩ := Prod.mk.inj (Except.ok.inj h)
  refine ⟨rfl, fun hc => ?_⟩
  unfold CacheOk
  cases d.good s.waits with
  | true =>
    simp only [if_true]
    intro _ i hi hi'
    rw [memcpyObj, Mem.copyFrom_apply, if_pos (by omega), Int.sub_zero]
  | false => exact hc

theorem traverseFAT {c : Int} {m m' : Mem Int} {ok : Bool}
    (h : traverseFAT d s c m = .ok (ok, m', s')) : KeepsCache d s s' :=
  traverseFATLoop_rel refl trans load_FATSect h

theorem openDirectory {directory : File} {ok : Bool}
    (h : openDirectory d s directory = .ok (ok, s')) : KeepsCache d s s' :=
  @openDirectory_rel d (KeepsCache d) trans load_Cluster (fun _ _ => of_eq rfl rfl rfl) s s' _ _ h

end KeepsCache

/-! ## Reachable states -/

/-- The operations of the file system, and printing in between. -/
inductive FsOp where
  | load_FATSect (offset : Int)
  | load_Cluster (index : Int)
  | traverseFAT (startCluster : Int) (clusters : Mem Int)
  | openDirectory (directory : File)
  | findFile (filename : List UInt8) (file : File)
  | printFile (file : File)
  | listFiles
  | addPath (name : List UInt8)
  | delPath
  | printStrZ (buffer : List UInt8)

/-- The state an operation leaves. -/
def FsOp.apply (d : Drive) (s : FsState) : FsOp → Except Fault FsState
  | .load_FATSect offset => (·.2) <$> SoreOS.load_FATSect d s offset
  | .load_Cluster index => (·.2) <$> SoreOS.load_Cluster d s index
  | .traverseFAT c m => (·.2.2) <$> SoreOS.traverseFAT d s c m
  | .openDirectory directory => (·.2) <$> SoreOS.openDirectory d s directory
  | .findFile filename file => (·.2.2) <$> SoreOS.findFile d s filename file
  | .printFile file => SoreOS.printFile d s file
  | .listFiles => SoreOS.listFiles d s
  | .addPath name => SoreOS.addPath s name
  | .delPath => SoreOS.delPath s
  | .printStrZ buffer => .ok (SoreOS.printStrZ s buffer)

/-- The states of the file system after `loadFileSystem` and any operations. -/
inductive Reachable (d : Drive) : FsState → Prop where
  | load {s : FsState} {ok : Bool} (h : loadFileSystem d .boot = some (.ok (ok, s))) : Reachable d s
  | step {s s' : FsState} (op : FsOp) (hs : Reachable d s) (h : op.apply d s = .ok s') :
      Reachable d s'

theorem addPath_frame {s s' : FsState} {name : List UInt8} (h : addPath s name = .ok s') :
    ∃ m, s' = { s with sysPath := m } := by
  unfold addPath at h
  obtain ⟨m, _, h⟩ := bind_eq_ok.mp h
  obtain ⟨m', _, h⟩ := bind_eq_ok.mp h
  exact ⟨m', (Except.ok.inj h).symm⟩

theorem delPath_frame {s s' : FsState} (h : delPath s = .ok s') : ∃ m, s' = { s with sysPath := m } := by
  unfold delPath at h
  obtain ⟨m, _, h⟩ := bind_eq_ok.mp h
  exact ⟨m, (Except.ok.inj h).symm⟩

/-- Every operation respects a relation that its parts respect. -/
theorem FsOp.rel {d : Drive} {Rel : FsState → FsState → Prop} (hrefl : ∀ s, Rel s s)
    (htrans : ∀ {s t u}, Rel s t → Rel t u → Rel s u)
    (hfat : ∀ {s s' offset ok}, SoreOS.load_FATSect d s offset = .ok (ok, s') → Rel s s')
    (hload : ∀ {s s' i ok}, SoreOS.load_Cluster d s i = .ok (ok, s') → Rel s s')
    (hindex : ∀ s i, Rel s { s with dirClusterIndex := i }) (hout : ∀ s out, Rel s { s with out := out })
    (hpath : ∀ s m, Rel s { s with sysPath := m }) {s s' : FsState} {op : FsOp} (h : op.apply d s = .ok s') :
    Rel s s' := by
  have hwalk : ∀ {s s' c m m' ok}, SoreOS.traverseFAT d s c m = .ok (ok, m', s') → Rel s s' :=
    fun h => traverseFATLoop_rel hrefl htrans hfat h
  cases op with
  | load_FATSect offset =>
    obtain ⟨⟨ok, t⟩, hrun, rfl⟩ := map_eq_ok.mp h
    exact hfat hrun
  | load_Cluster index =>
    obtain ⟨⟨ok, t⟩, hrun, rfl⟩ := map_eq_ok.mp h
    exact hload hrun
  | traverseFAT c m =>
    obtain ⟨⟨ok, m', t⟩, hrun, rfl⟩ := map_eq_ok.mp h
    exact hwalk hrun
  | openDirectory directory =>
    obtain ⟨⟨ok, t⟩, hrun, rfl⟩ := map_eq_ok.mp h
    exact @openDirectory_rel d Rel htrans hload hindex s t _ _ hrun
  | findFile filename file =>
    obtain ⟨⟨res, file', t⟩, hrun, rfl⟩ := map_eq_ok.mp h
    exact findFile_rel hrefl htrans hload hindex hwalk hrun
  | printFile file => exact printFile_rel hrefl htrans hload hindex hout h
  | listFiles => exact listFiles_rel hrefl htrans hload hindex hout h
  | addPath name =>
    obtain ⟨m, rfl⟩ := addPath_frame h
    exact hpath s m
  | delPath =>
    obtain ⟨m, rfl⟩ := delPath_frame h
    exact hpath s m
  | printStrZ buffer =>
    cases h
    exact hout _ _

/-- Every operation keeps the cache. -/
theorem FsOp.keepsCache {d : Drive} {s s' : FsState} {op : FsOp} (h : op.apply d s = .ok s') :
    KeepsCache d s s' :=
  FsOp.rel .refl .trans .load_FATSect .load_Cluster (fun _ _ => .of_eq rfl rfl rfl)
    (fun _ _ => .of_eq rfl rfl rfl) (fun _ _ => .of_eq rfl rfl rfl) h

/-- Loading the file system starts with an empty cache. -/
theorem loadFileSystem_cacheOk {d : Drive} {s : FsState} {ok : Bool}
    (h : loadFileSystem d .boot = some (.ok (ok, s))) : CacheOk d s := by
  have hempty : ∀ s : FsState, s.FATSecIdx = -1 → CacheOk d s := fun s hs hne => absurd hs hne
  unfold loadFileSystem at h
  obtain ⟨identified, -, h⟩ := Option.map_eq_some_iff.mp h
  cases identified with
  | false =>
    cases h
    exact hempty _ rfl
  | true =>
    obtain ⟨⟨ok', buffer, n⟩, -, h⟩ := bind_eq_ok.mp h
    cases ok' with
    | false =>
      cases h
      exact hempty _ rfl
    | true =>
      unfold openRoot at h
      obtain ⟨⟨ok'', clusters, t⟩, hwalk, h⟩ := bind_eq_ok.mp h
      -- the walk to the root directory is the first to fill the cache
      have ht := (KeepsCache.traverseFAT hwalk).cache (hempty _ rfl)
      have ht' : CacheOk d { t with currentDir := { t.currentDir with clusters := clusters } } := ht
      cases ok'' with
      | false =>
        cases h
        exact ht'
      | true => exact (KeepsCache.openDirectory h).cache ht'

theorem Reachable.cacheOk {d : Drive} {s : FsState} (h : Reachable d s) : CacheOk d s := by
  induction h with
  | load h => exact loadFileSystem_cacheOk h
  | step op _ h ih => exact (FsOp.keepsCache h).cache ih

/-! ## Fetching a sector -/

/-- Without errors the wanted sector is in the buffer afterwards. -/
theorem reachFATSect_good {d : Drive} {s : FsState} {offset : Int} (hc : CacheOk d s)
    (hgood : d.good s.waits = true) :
    ∃ s', reachFATSect d s offset = .ok (true, s') ∧ FatFrame s s' ∧ CacheOk d s' ∧
      s'.FATSecIdx = offset := by
  unfold reachFATSect
  split
  · have hload := load_FATSect_eq d s offset
    simp only [hgood, if_true] at hload
    exact ⟨_, hload, ⟨Nat.le_succ _, rfl⟩, (KeepsCache.load_FATSect hload).cache hc, rfl⟩
  · rename_i hhit
    exact ⟨s, rfl, .refl s, hc, (not_not.mp hhit).symm⟩

end SoreOS
