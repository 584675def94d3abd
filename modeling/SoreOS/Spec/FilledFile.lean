import SoreOS.Spec.ReadErrors

/-!
# The file that a search fills

`findFile` fills its file from three fields of a record and a walk of the FAT, in which
the cluster buffer has no part.

## Key results

- `fillFile_eq`: the file by the fields of its record
- `walkFile_buffer`: the walk leaves the cluster buffer as it is, whatever it holds
- `filledFile_inj`: different fields fill different files
-/

namespace SoreOS

open ForStd

/-- What the record of a file says of its type, its size and its start cluster. -/
def fileData (hdr : FAT32_HEADER) (r : Bytes) : UInt8 × Int × Int :=
  (if attrib r &&& 0x10 ≠ 0 then FTYPE_DIRECTORY else FTYPE_FILE, toInt (readDD r 0x1C).toNat, startCluster hdr r)

/-- A file with some type, size and start cluster; its other clusters come from the FAT. -/
def walkFile (d : Drive) (s : FsState) (data : UInt8 × Int × Int) (file : File) : Except Fault (File × FsState) := do
  let (_, clusters, s) ← traverseFAT d s data.2.2 file.clusters
  return ({ type := data.1, size := data.2.1, clusters := clusters }, s)

theorem fillFile_eq (d : Drive) (s : FsState) (r : Bytes) (file : File) :
    fillFile d s r file = walkFile d s (fileData s.fileSys r) file := by
  simp only [fillFile, walkFile, fileData, startCluster]

/-- A state with another cluster in the buffer. -/
def FsState.withBuffer (s : FsState) (b : Bytes) : FsState := { s with ClusterBuffer := b }

@[simp] theorem withBuffer_ClusterBuffer (s : FsState) (b : Bytes) : (s.withBuffer b).ClusterBuffer = b := rfl
@[simp] theorem withBuffer_fileSys (s : FsState) (b : Bytes) : (s.withBuffer b).fileSys = s.fileSys := rfl
@[simp] theorem withBuffer_currentDir (s : FsState) (b : Bytes) : (s.withBuffer b).currentDir = s.currentDir := rfl
@[simp] theorem withBuffer_waits (s : FsState) (b : Bytes) : (s.withBuffer b).waits = s.waits := rfl

/-- A sector of the FAT is fetched whatever the cluster buffer holds. -/
theorem reachFATSect_buffer {d : Drive} {s t : FsState} {offset : Int} {ok : Bool}
    (h : reachFATSect d s offset = .ok (ok, t)) (b : Bytes) :
    reachFATSect d (s.withBuffer b) offset = .ok (ok, t.withBuffer b) := by
  unfold reachFATSect at h ⊢
  rw [show (s.withBuffer b).FATSecIdx = s.FATSecIdx from rfl]
  split at h
  · rename_i hne
    rw [if_pos hne, load_FATSect_eq]
    rw [load_FATSect_eq] at h
    cases h
    rfl
  · rename_i heq
    cases h
    rw [if_neg heq]

theorem traverseFATLoop_buffer {d : Drive} {rounds : Nat} {i : Int} {s t : FsState} {m m' : Mem Int} {ok : Bool}
    (h : traverseFATLoop d rounds i s m = .ok (ok, m', t)) (b : Bytes) :
    traverseFATLoop d rounds i (s.withBuffer b) m = .ok (ok, m', t.withBuffer b) := by
  induction rounds generalizing i s m with
  | zero =>
    cases h
    rfl
  | succ rounds ih =>
    rw [traverseFATLoop] at h ⊢
    split at h
    · rename_i hend
      cases h
      rw [if_pos hend]
      rfl
    · rename_i hend
      obtain ⟨⟨ok', u⟩, hreach, h⟩ := bind_eq_ok.mp h
      rw [if_neg hend, reachFATSect_buffer hreach b, ok_bind]
      cases ok' with
      | true => exact ih h
      | false =>
        cases h
        rfl

/-- The file that a walk fills. -/
def filledFile (d : Drive) (s : FsState) (data : UInt8 × Int × Int) (file : File) : File :=
  match walkFile d s data file with
  | .ok (file', _) => file'
  | .error _ => file

/-- So a file is filled, with any cluster in the buffer. -/
theorem walkFile_buffer (d : Drive) (s : FsState) (data : UInt8 × Int × Int) (file : File) :
    ∃ t, walkFile d s data file = .ok (filledFile d s data file, t) ∧ FatFrame s t ∧
      ∀ b, walkFile d (s.withBuffer b) data file = .ok (filledFile d s data file, t.withBuffer b) := by
  obtain ⟨ok, clusters, t, hwalk, hframe, -⟩ := traverseFAT_returns d s data.2.2 file.clusters
  have hrun : walkFile d s data file = .ok ({ type := data.1, size := data.2.1, clusters := clusters }, t) := by
    rw [walkFile, hwalk]
    rfl
  rw [filledFile, hrun]
  refine ⟨t, rfl, hframe, fun b => ?_⟩
  rw [walkFile, traverseFAT, traverseFATLoop_buffer hwalk b]
  rfl

theorem filledFile_withBuffer (d : Drive) (s : FsState) (b : Bytes) (data : UInt8 × Int × Int) (file : File) :
    filledFile d (s.withBuffer b) data file = filledFile d s data file := by
  obtain ⟨t, -, -, hall⟩ := walkFile_buffer d s data file
  rw [filledFile, hall b]

/-- Different fields fill different files. -/
theorem filledFile_inj {d : Drive} {s : FsState} {data data' : UInt8 × Int × Int} {file : File}
    (h : filledFile d s data file = filledFile d s data' file) : data = data' := by
  obtain ⟨ok, clusters, t, hwalk, -, hfirst⟩ := traverseFAT_returns d s data.2.2 file.clusters
  obtain ⟨ok', clusters', t', hwalk', -, hfirst'⟩ := traverseFAT_returns d s data'.2.2 file.clusters
  have hfile : filledFile d s data file = { type := data.1, size := data.2.1, clusters := clusters } := by
    rw [filledFile, walkFile, hwalk]
    rfl
  have hfile' : filledFile d s data' file = { type := data'.1, size := data'.2.1, clusters := clusters' } := by
    rw [filledFile, walkFile, hwalk']
    rfl
  rw [hfile, hfile'] at h
  obtain ⟨htype, hsize, hclusters⟩ := File.mk.inj h
  -- the first cluster is the one that the walk started from
  refine Prod.ext htype (Prod.ext hsize ?_)
  rw [← hfirst, ← hfirst', hclusters]

end SoreOS
