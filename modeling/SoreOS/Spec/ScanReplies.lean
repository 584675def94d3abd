import SoreOS.ForStd.Run
import SoreOS.Spec.FilledFile
import SoreOS.Spec.ScanOutput

/-!
# What the calls make of a buffer

`listFiles` and `findFile` with a directory in the cluster buffer: what they print, whether
they fault, and the fields of the file that is found are functions of the buffer. Two
buffers are the same to all of these calls if their records have the same lines, the same
first file for every name, and end alike.

## Key results

- `ScanCall.gives_reply`: a call does what the reply of the buffer says
- `output_reply`: so does its output, if it faults
- `reply_iff`: which buffers all calls make the same of
-/

namespace SoreOS

open ForStd

/-! ## Calls -/

/-- The calls that scan the current directory. -/
inductive ScanCall where
  | listFiles
  | findFile (filename : List UInt8) (file : File)

/-- What a call returns, and the state it leaves. -/
def ScanCall.apply (d : Drive) (s : FsState) : ScanCall → Except Fault (Option (Int × File) × FsState)
  | .listFiles => do
    let s ← SoreOS.listFiles d s
    return (none, s)
  | .findFile filename file => do
    let (res, file, s) ← SoreOS.findFile d s filename file
    return (some (res, file), s)

/-- A name is a string. -/
def ScanCall.Named : ScanCall → Prop
  | .listFiles => True
  | .findFile q _ => 0 ∉ q

/-- What has been printed when a call returns or faults: a search prints nothing. -/
def ScanCall.output (d : Drive) (s : FsState) : ScanCall → List UInt8
  | .listFiles => listOutput d s
  | .findFile _ _ => s.out

theorem load_Cluster_out {d : Drive} {s t : FsState} {i : Int} {ok : Bool} (h : load_Cluster d s i = .ok (ok, t)) :
    t.out = s.out := by
  obtain ⟨m, i, n, rfl⟩ := load_Cluster_frame h
  rfl

theorem load_FATSect_out {d : Drive} {s t : FsState} {offset : Int} {ok : Bool}
    (h : load_FATSect d s offset = .ok (ok, t)) : t.out = s.out := by
  rw [load_FATSect_eq] at h
  obtain ⟨-, rfl⟩ := Prod.mk.inj (Except.ok.inj h)
  rfl

theorem findFile_out {d : Drive} {s t : FsState} {q : List UInt8} {file file' : File} {res : Int}
    (h : findFile d s q file = .ok (res, file', t)) : t.out = s.out :=
  @findFile_rel d (fun s t => t.out = s.out) (fun _ => rfl) (fun h h' => h'.trans h) load_Cluster_out (fun _ _ => rfl)
    (fun hwalk => @traverseFATLoop_rel d (fun s t => t.out = s.out) (fun _ => rfl) (fun h h' => h'.trans h)
      load_FATSect_out _ _ _ _ _ _ _ hwalk) _ _ _ _ _ _ h

/-- If a call returns, this is the output of its state. -/
theorem ScanCall.apply_out {d : Drive} {s t : FsState} {c : ScanCall} {r : Option (Int × File)}
    (h : c.apply d s = .ok (r, t)) : t.out = c.output d s := by
  cases c with
  | listFiles =>
    obtain ⟨u, hlist, hret⟩ := bind_eq_ok.mp h
    cases hret
    exact listFiles_out hlist
  | findFile q file =>
    obtain ⟨⟨res, file', u⟩, hfind, hret⟩ := bind_eq_ok.mp h
    cases hret
    exact findFile_out hfind

/-- What calls return, up to one that faults, and what has been printed by then. -/
def observed (d : Drive) (s : FsState) (calls : List ScanCall) : List (Option (Option (Int × File))) × List UInt8 :=
  observe (ScanCall.apply d) FsState.out (ScanCall.output d) s calls

/-! ## The records of a buffer -/

/-- The names of a file that a search compares with. -/
def fileNames (b : Bytes) (p : Nat × List UInt8) : List (List UInt8) :=
  shortName (subBuffer b (32 * p.1)) :: if p.2 = [] then [] else [p.2]

/-- The names of the files in a cluster. -/
def clusterNames (b : Bytes) : List (List UInt8) := (clusterFiles b).flatMap (fileNames b)

/-- What the first file of a name says of its type, its size and its start cluster. -/
def firstData (hdr : FAT32_HEADER) (b : Bytes) (name : List UInt8) : Option (UInt8 × Int × Int) :=
  (clusterLookup b name).map fun k : Nat => fileData hdr (subBuffer b (32 * k))

/-- A scan ends with a piece of a long name that does not fit. -/
def ScanEnd.faults : ScanEnd → Bool
  | .fault _ => true
  | _ => false

/-- A name that a search can look for: its rules for names lead to this one. -/
def Searchable (name : List UInt8) : Prop := ∃ q : List UInt8, 0 ∉ q ∧ q.length ≤ 104 ∧ searchTerm q = name

/-- The records of two buffers have the same lines, the same first file for every name of theirs that can be
    searched for, and run both into a piece that does not fit or none of them. -/
structure RecordsAlike (hdr : FAT32_HEADER) (b b' : Bytes) : Prop where
  listing : clusterListing b = clusterListing b'
  files : ∀ name ∈ clusterNames b ++ clusterNames b', Searchable name → firstData hdr b name = firstData hdr b' name
  faults : (clusterEnd b).faults = (clusterEnd b').faults

theorem zero_not_mem_clusterScan {buf : Bytes} {n k : Nat} {idx : Int} {longName : Bytes} :
    ∀ p ∈ (clusterScan buf n k idx longName).1, 0 ∉ p.2 := by
  induction n generalizing k idx longName with
  | zero => exact fun p hp => absurd hp (List.not_mem_nil)
  | succ n ih =>
    rw [clusterScan]
    dsimp only
    split
    · exact fun p hp => absurd hp (List.not_mem_nil)
    · split
      · exact ih
      · split
        · split
          · split
            · exact ih
            · exact fun p hp => absurd hp (List.not_mem_nil)
          · exact fun p hp => absurd hp (List.not_mem_nil)
        · exact List.forall_mem_cons.mpr ⟨zero_not_mem_cstr _ _, ih⟩

/-- A search compares with the names of a file. -/
theorem nameMatches_iff {b : Bytes} {p : Nat × List UInt8} (hp : 0 ∉ p.2) {name : List UInt8} (hname : 0 ∉ name) :
    nameMatches name (subBuffer b (32 * p.1)) p.2 = true ↔ name ∈ fileNames b p := by
  have hshort : strcmp (shortName (subBuffer b (32 * p.1))) name = 0 ↔ name = shortName (subBuffer b (32 * p.1)) :=
    (strcmp_eq_zero_iff (zero_not_mem_cstr _ _) hname).trans eq_comm
  have hlong : strcmp p.2 name = 0 ↔ name = p.2 := (strcmp_eq_zero_iff hp hname).trans eq_comm
  rw [nameMatches, fileNames]
  by_cases hnil : p.2 = []
  · simp [hnil, hshort]
  · simp [hnil, hshort, hlong]

/-- A name that no file has leads nowhere. -/
theorem firstData_eq_none (hdr : FAT32_HEADER) {b : Bytes} {name : List UInt8} (hname : 0 ∉ name)
    (h : name ∉ clusterNames b) : firstData hdr b name = none := by
  have hnone : (clusterFiles b).find? (fun p => nameMatches name (subBuffer b (32 * p.1)) p.2) = none := by
    rw [List.find?_eq_none]
    intro p hp hmatches
    exact h (List.mem_flatMap.mpr ⟨p, hp, (nameMatches_iff (zero_not_mem_clusterScan p hp) hname).mp hmatches⟩)
  rw [firstData, clusterLookup, hnone]
  rfl

/-! ## Replies -/

/-- What a scan comes to: the file that it looks for, or its end, unless it faults there. -/
def scanReply {α : Type} (faults : Bool) : Option α → Option (Option α)
  | some a => some (some a)
  | none => if faults then none else some none

theorem scanReply_inj {α : Type} {faults : Bool} {x y : Option α} (h : scanReply faults x = scanReply faults y) : x = y := by
  cases x <;> cases y <;> cases faults <;> simp_all [scanReply]

/-- What a call makes of a cluster: what it prints, and if it does not fault there, the fields of the file that it
    fills, if there is one. -/
def ScanCall.reply (hdr : FAT32_HEADER) (b : Bytes) : ScanCall → List UInt8 × Option (Option (UInt8 × Int × Int))
  | .listFiles => (clusterListing b, scanReply (clusterEnd b).faults none)
  | .findFile q _ =>
    ([], if q.length > 104 then some none else scanReply (clusterEnd b).faults (firstData hdr b (searchTerm q)))

/-- All calls make the same of two buffers exactly if their records are alike. -/
theorem reply_iff (hdr : FAT32_HEADER) (b b' : Bytes) :
    (∀ c : ScanCall, c.Named → c.reply hdr b = c.reply hdr b') ↔ RecordsAlike hdr b b' := by
  constructor
  · intro h
    obtain ⟨hlisting, hend⟩ := Prod.mk.inj (h .listFiles trivial)
    have hfaults : (clusterEnd b).faults = (clusterEnd b').faults := by
      generalize (clusterEnd b).faults = x at hend
      generalize (clusterEnd b').faults = y at hend
      cases x <;> cases y <;> first | rfl | cases hend
    refine ⟨hlisting, ?_, hfaults⟩
    rintro name - ⟨q, hq, hlen, rfl⟩
    obtain ⟨-, hreply⟩ := Prod.mk.inj (h (.findFile q {}) hq)
    rw [if_neg (by omega), if_neg (by omega), hfaults] at hreply
    exact scanReply_inj hreply
  · intro h c hc
    cases c with
    | listFiles => rw [ScanCall.reply, ScanCall.reply, h.listing, h.faults]
    | findFile q file =>
      rw [ScanCall.reply, ScanCall.reply]
      by_cases hlen : q.length > 104
      · rw [if_pos hlen, if_pos hlen]
      · have hzero := zero_not_mem_searchTerm hc
        have hdata : firstData hdr b (searchTerm q) = firstData hdr b' (searchTerm q) := by
          by_cases hmem : searchTerm q ∈ clusterNames b ++ clusterNames b'
          · exact h.files _ hmem ⟨q, hc, by omega, rfl⟩
          · -- no record of either buffer has the name
            rw [List.mem_append, not_or] at hmem
            rw [firstData_eq_none hdr hzero hmem.1, firstData_eq_none hdr hzero hmem.2]
        rw [if_neg hlen, if_neg hlen, hdata, h.faults]

/-! ## Loads of a cluster -/

/-- A cluster buffer after the first `n` sectors of a cluster were read. -/
def overwritten (disk : Bytes) (hdr : FAT32_HEADER) (c : Int) (n : Nat) (b : Bytes) : Bytes :=
  memcpyObj b 0 disk (clusterBase hdr c) (512 * n)

theorem overwritten_apply (disk : Bytes) (hdr : FAT32_HEADER) (c : Int) (n : Nat) (b : Bytes) (i : Int) :
    overwritten disk hdr c n b i = if 0 ≤ i ∧ i < 512 * n then disk (clusterBase hdr c + i) else b i := by
  rw [overwritten, memcpyObj, Mem.copyFrom_apply]
  split
  · rename_i hin
    rw [if_pos (by omega), Int.sub_zero]
  · rename_i hout
    rw [if_neg (by omega)]

theorem overwritten_zero (disk : Bytes) (hdr : FAT32_HEADER) (c : Int) (b : Bytes) : overwritten disk hdr c 0 b = b := by
  funext i
  rw [overwritten_apply, if_neg (by omega)]

/-- Reading a cluster again leaves the larger part of it. -/
theorem overwritten_overwritten (disk : Bytes) (hdr : FAT32_HEADER) (c : Int) (n m : Nat) (b : Bytes) :
    overwritten disk hdr c n (overwritten disk hdr c m b) = overwritten disk hdr c (max n m) b := by
  funext i
  rw [overwritten_apply, overwritten_apply, overwritten_apply]
  by_cases hn : 0 ≤ i ∧ i < 512 * n
  · rw [if_pos hn, if_pos (by omega)]
  · rw [if_neg hn]
    by_cases hm : 0 ≤ i ∧ i < 512 * m
    · rw [if_pos hm, if_pos (by omega)]
    · rw [if_neg hm, if_neg (by omega)]

/-- A load of a cluster into any buffer: it reads the sectors in front of the first one that fails. -/
theorem load_Cluster_withBuffer {d : Drive} {s : FsState} (h4 : FourSectors s.fileSys) (c : Int) (b : Bytes) :
    load_Cluster d (s.withBuffer b) c = .ok (decide (goodSectors d s.waits 4 = 4),
      { s with
        ClusterBuffer := overwritten d.disk s.fileSys c (goodSectors d s.waits 4) b
        ClusterSecIdx := if goodSectors d s.waits 4 = 4 then c else s.ClusterSecIdx
        waits := s.waits + min (goodSectors d s.waits 4 + 1) 4 }) :=
  load_Cluster_eq d (s.withBuffer b) c (by rw [withBuffer_fileSys, h4.sectorsPerCluster]; rfl) (Nat.le_refl 4)

/-! ## Calls on a buffer -/

/-- The file that a call may fill. -/
def ScanCall.file : ScanCall → File
  | .listFiles => {}
  | .findFile _ file => file

/-- What a call returns if it fills no file. -/
def ScanCall.missed : ScanCall → Option (Int × File)
  | .listFiles => none
  | .findFile _ file => some (-1, file)

/-- What a call returns, by the fields of the file that it fills. -/
def ScanCall.result (d : Drive) (s : FsState) (c : ScanCall) : Option (UInt8 × Int × Int) → Option (Int × File)
  | none => c.missed
  | some data => some (0, filledFile d s data c.file)

/-- Whether a call scans the directory: names that are too long are not searched. -/
def ScanCall.scans : ScanCall → Bool
  | .listFiles => true
  | .findFile q _ => q.length ≤ 104

/-- The end of a scan behind the first cluster of a directory: the next one is loaded, if there is one. -/
def leaveFirst (d : Drive) (s : FsState) : Except Fault FsState :=
  if s.currentDir.clusters 1 ≠ END_OF_CHAIN then
    if goodSectors d s.waits 4 = 4 then .error ⟨.ClusterBuffer, 2048⟩
    else .ok { s with
      ClusterBuffer := overwritten d.disk s.fileSys (s.currentDir.clusters 1) (goodSectors d s.waits 4) s.ClusterBuffer
      waits := s.waits + min (goodSectors d s.waits 4 + 1) 4 }
  else .ok s

/-- A call with a reply: it faults, or fills a file, or prints and ends, in the first cluster or behind it. -/
def ScanCall.Gives (d : Drive) (s : FsState) (c : ScanCall) : List UInt8 × Option (Option (UInt8 × Int × Int)) → Prop
  | (_, none) => ∃ f, c.apply d s = .error f
  | (printed, some (some data)) => printed = [] ∧
      c.apply d s = (fun p => (some (0, p.1), p.2)) <$> walkFile d s data c.file
  | (printed, some none) =>
      c.apply d s = (fun u => (c.missed, u)) <$>
        if c.scans = true ∧ clusterEnd s.ClusterBuffer = .through then leaveFirst d { s with out := s.out ++ printed }
        else .ok { s with out := s.out ++ printed }

section Scan

variable {d : Drive} {s : FsState} (h4 : FourSectors s.fileSys) (hidx : s.dirClusterIndex = 0)
include h4 hidx

theorem leaveCluster_first {R : Type} : leaveCluster (R := R) d s = (fun u => (none, u)) <$> leaveFirst d s := by
  have hload := load_Cluster_withBuffer (d := d) h4 (s.currentDir.clusters 1) s.ClusterBuffer
  have hnext : load .clusters s.currentDir.clusters (s.dirClusterIndex + 1) = .ok (s.currentDir.clusters 1) := by
    rw [hidx]
    rfl
  unfold leaveCluster leaveFirst
  rw [if_pos (by omega), hnext, ok_bind]
  split
  · rw [show load_Cluster d s _ = _ from hload, ok_bind]
    by_cases hall : goodSectors d s.waits 4 = 4
    · rw [decide_eq_true hall, if_pos hall, if_pos hall]
      rfl
    · rw [decide_eq_false hall, if_neg hall, if_neg hall]
      rfl
  · rfl

/-- A listing gives the reply of the buffer. -/
theorem listFiles_gives : ScanCall.listFiles.Gives d s (ScanCall.listFiles.reply s.fileSys s.ClusterBuffer) := by
  have hrun := listFiles_cluster h4 (show loadFirst d s = .ok (true, s) from if_neg (not_not.mpr hidx))
  rw [ScanCall.reply]
  cases hend : clusterEnd s.ClusterBuffer with
  | fault f =>
    rw [hend] at hrun
    exact ⟨f, by rw [ScanCall.apply, hrun]; rfl⟩
  | stops =>
    rw [hend] at hrun
    show ScanCall.listFiles.apply d s = _
    rw [ScanCall.apply, hrun, if_neg fun hgo => absurd (hend.symm.trans hgo.2) (by decide)]
    rfl
  | through =>
    rw [hend] at hrun
    dsimp only at hrun
    rw [leaveCluster_first (s := { s with out := s.out ++ clusterListing s.ClusterBuffer }) h4 hidx] at hrun
    show ScanCall.listFiles.apply d s = _
    rw [ScanCall.apply, hrun, if_pos ⟨rfl, hend⟩]
    generalize leaveFirst d { s with out := s.out ++ clusterListing s.ClusterBuffer } = left
    cases left with
    | error f => rfl
    | ok u => rfl

/-- So does a search. -/
theorem findFile_gives (q : List UInt8) (file : File) : (ScanCall.findFile q file).Gives d s
    ((ScanCall.findFile q file).reply s.fileSys s.ClusterBuffer) := by
  have hnil : { s with out := s.out ++ [] } = s := by rw [List.append_nil]
  rw [ScanCall.reply]
  by_cases hlen : q.length > 104
  · -- the name is not searched
    have hscans : (ScanCall.findFile q file).scans = false := decide_eq_false (by omega)
    rw [if_pos hlen]
    show (ScanCall.findFile q file).apply d s = _
    rw [if_neg fun hgo => absurd (hscans.symm.trans hgo.1) (by decide), hnil, ScanCall.apply, findFile, findRecord,
      if_pos hlen]
    rfl
  have hscans : (ScanCall.findFile q file).scans = true := decide_eq_true (by omega)
  have hrun := findRecord_cluster h4 (show loadFirst d s = .ok (true, s) from if_neg (not_not.mpr hidx))
    (q := q) (by omega)
  rw [if_neg hlen, firstData]
  cases hlookup : clusterLookup s.ClusterBuffer (searchTerm q) with
  | some k =>
    rw [hlookup] at hrun
    refine ⟨rfl, ?_⟩
    rw [ScanCall.apply, findFile, hrun, ok_bind, ScanCall.file]
    dsimp only
    rw [fillFile_eq]
    generalize walkFile d s (fileData s.fileSys (subBuffer s.ClusterBuffer (32 * k))) file = walked
    cases walked with
    | error f => rfl
    | ok p => rfl
  | none =>
    rw [hlookup] at hrun
    cases hend : clusterEnd s.ClusterBuffer with
    | fault f =>
      rw [hend] at hrun
      exact ⟨f, by rw [ScanCall.apply, findFile, hrun]; rfl⟩
    | stops =>
      rw [hend] at hrun
      show (ScanCall.findFile q file).apply d s = _
      rw [if_neg fun hgo => absurd (hend.symm.trans hgo.2) (by decide), hnil, ScanCall.apply, findFile, hrun]
      rfl
    | through =>
      rw [hend] at hrun
      dsimp only at hrun
      rw [leaveCluster_first h4 hidx] at hrun
      show (ScanCall.findFile q file).apply d s = _
      rw [if_pos ⟨hscans, hend⟩, hnil, ScanCall.apply, findFile, hrun]
      generalize leaveFirst d s = left
      cases left with
      | error f => rfl
      | ok u => rfl

/-- With the directory in the buffer, a call gives the reply of the buffer. -/
theorem ScanCall.gives_reply (c : ScanCall) : c.Gives d s (c.reply s.fileSys s.ClusterBuffer) := by
  cases c with
  | listFiles => exact listFiles_gives h4 hidx
  | findFile q file => exact findFile_gives h4 hidx q file

/-- And it prints what the reply of the buffer says, if it returns or not. -/
theorem output_reply (c : ScanCall) : c.output d s = s.out ++ (c.reply s.fileSys s.ClusterBuffer).1 := by
  cases c with
  | listFiles => exact listOutput_cluster h4 (if_neg (not_not.mpr hidx))
  | findFile q file => exact (List.append_nil _).symm

end Scan

end SoreOS
