import SoreOS.Spec.ReadFile
import SoreOS.Spec.Vfat

/-!
# Listing a directory

`listFiles` prints a line for each live file of a directory, in order.

## Key results

- `listFiles_holds`: the lines that are printed
-/

namespace SoreOS

open ForStd

/-- What a line of a listing says of a file: its long name, or else its raw short name. -/
def LiveFile.printed (f : LiveFile) : List UInt8 := if f.long = [] then f.raw else f.long

/-- The live files of a directory, in order. -/
def liveFiles : List Entry → List LiveFile
  | [] => []
  | .deleted :: es => liveFiles es
  | .live f :: es => f :: liveFiles es

theorem map_placed (k : Nat) (es : List Entry) : (placed k es).map Prod.snd = liveFiles es := by
  induction es generalizing k with
  | nil => rfl
  | cons e es ih =>
    cases e with
    | deleted => exact ih (k + 1)
    | live f => rw [placed, List.map_cons, ih, liveFiles]

/-- The placed files have their short records at their places. -/
theorem Holds.isShort {buf : Bytes} {k : Nat} {es : List Entry} (h : Holds buf k es) :
    ∀ p ∈ placed k es, IsShort (subBuffer buf (32 * p.1)) p.2 := by
  induction es generalizing k with
  | nil => exact fun p hp => absurd hp List.not_mem_nil
  | cons e es ih =>
    cases e with
    | deleted => exact ih h.2
    | live f =>
      obtain ⟨_, hshort, hrest⟩ := h
      intro p hp
      obtain rfl | hp := List.mem_cons.mp hp
      · exact hshort
      · exact ih hrest p hp

/-- The cluster that the scans of the current directory load, or have loaded, holds the
    entries and a zero record. -/
structure DirectoryLoads (d : Drive) (s t : FsState) (es : List Entry) : Prop where
  load : loadFirst d s = .ok (true, t)
  holds : Holds t.ClusterBuffer 0 es
  fits : 32 * (recordCount es + 1 : Int) ≤ clusterBytes t.fileSys
  bytes : clusterBytes t.fileSys ≤ 2048

/-- A scan of a directory visits its files. -/
theorem scan_holds {R : Type} {d : Drive} {visit : Visit R} (hquiet : Quiet visit) {s t : FsState}
    {es : List Entry} (h : DirectoryLoads d s t es) :
    scan d visit s = .ok (visitFiles visit (placed 0 es) t) := by
  have hfits := h.fits
  have hbytes := h.bytes
  rw [scan, h.load, ok_bind]
  exact scanLoop_holds hquiet es h.holds rfl (fun _ _ => rfl) (by push_cast; omega) hbytes (by omega)

/-- The visits of a listing print the lines. -/
theorem visitFiles_listVisit {files : List (Nat × LiveFile)} {s : FsState}
    (h : ∀ p ∈ files, IsShort (subBuffer s.ClusterBuffer (32 * p.1)) p.2) :
    visitFiles listVisit files s =
      (none, { s with out := s.out ++ files.flatMap fun p => p.2.printed ++ [NEWLINE] }) := by
  induction files generalizing s with
  | nil =>
    rw [List.flatMap_nil, List.append_nil]
    rfl
  | cons p files ih =>
    obtain ⟨k, f⟩ := p
    have hname : (if f.long = [] then shortName (subBuffer s.ClusterBuffer (32 * k)) else f.long) =
        f.printed := by
      rw [(h (k, f) List.mem_cons_self).shortName]
      rfl
    rw [visitFiles, listVisit]
    dsimp only
    rw [hname, ih (s := { s with out := s.out ++ f.printed ++ [NEWLINE] })
      fun p hp => h p (List.mem_cons_of_mem _ hp), List.flatMap_cons]
    simp only [List.append_assoc]

theorem loadFirst_out {d : Drive} {s t : FsState} {ok : Bool} (h : loadFirst d s = .ok (ok, t)) :
    t.out = s.out := by
  unfold loadFirst at h
  split at h
  · obtain ⟨m, i, n, rfl⟩ := load_Cluster_frame h
    rfl
  · cases h
    rfl

/-- `listFiles` prints exactly the names of the live files, each on a line. -/
theorem listFiles_holds {d : Drive} {s t : FsState} {es : List Entry} (h : DirectoryLoads d s t es) :
    ∃ u, listFiles d s = .ok u ∧
      u.out = s.out ++ (liveFiles es).flatMap fun f => f.printed ++ [NEWLINE] := by
  have hrun := scan_holds listVisit_quiet h
  rw [visitFiles_listVisit h.holds.isShort] at hrun
  refine ⟨_, by rw [listFiles, hrun]; rfl, ?_⟩
  rw [← map_placed 0 es, List.flatMap_map, ← loadFirst_out h.load]

/-! ## A small directory -/

/-- A file with the long name `a`. -/
def letterFile : LiveFile where
  long := [97]
  raw := [65, 32, 32, 32, 32, 32, 32, 32, 32, 32, 32]
  directory := false
  cluster := 3
  size := 3
  long_length := by decide
  long_chars := by decide
  raw_length := rfl
  raw_chars := by decide
  raw_first := by decide

/-- A deleted record, the piece of the long name and the short record of the file. -/
def letterRecords : List UInt8 :=
  0xE5 :: List.replicate 31 0 ++
  [0x41, 97, 0, 0, 0, 0xFF, 0xFF, 0xFF, 0xFF, 0xFF, 0xFF, 0x0F, 0, 0, 0xFF, 0xFF,
    0xFF, 0xFF, 0xFF, 0xFF, 0xFF, 0xFF, 0xFF, 0xFF, 0xFF, 0xFF, 0, 0, 0xFF, 0xFF, 0xFF, 0xFF] ++
  [65, 32, 32, 32, 32, 32, 32, 32, 32, 32, 32, 0x20, 0, 0, 0, 0,
    0, 0, 0, 0, 0, 0, 0, 0, 0, 0, 3, 0, 3, 0, 0, 0]

theorem letterRecords_holds : Holds (ofString letterRecords) 0 [.deleted, .live letterFile] := by
  refine ⟨rfl, fun j hj => ?_, ?_, rfl⟩
  · obtain rfl : j = 0 := by
      have : pieces letterFile.long = 1 := rfl
      omega
    refine ⟨rfl, rfl, fun i hi => ?_⟩
    have hall : ∀ i : Fin 13, (subBuffer (ofString letterRecords) (32 * (0 + 1 + 0 : Nat)) (charOffset i),
      subBuffer (ofString letterRecords) (32 * (0 + 1 + 0 : Nat)) (charOffset i + 1)) =
        LFNWord [97] (13 * (1 - 1) + i) := by decide
    exact hall ⟨i, hi⟩
  · exact ⟨by decide, by decide, by decide, by decide, by decide⟩

/-- A state in which a directory is loaded. -/
def withDirectory (records : List UInt8) : FsState where
  fileSys := defaultHeader
  ClusterBuffer := ofString records
  dirClusterIndex := 0

/-- The listing of the small directory. -/
theorem listFiles_holds_letter :
    ∃ u, listFiles (healthyDrive fun _ => 0) (withDirectory letterRecords) = .ok u ∧
      u.out = [97, 10] :=
  listFiles_holds (t := withDirectory letterRecords)
    ⟨rfl, letterRecords_holds, by decide, by decide⟩

end SoreOS
