import SoreOS.Spec.Shell
import SoreOS.Spec.WideNames

/-!
# The system path over runs

`sysPath` after any sequence of successful directory changes, against the stack of the
directories that were entered and not left yet. The path has 255 characters, and
`addPath` does not look at their number.

## Key results

- `Change.apply_holds`: a change does to the path what it does to the stack
- `pathFollows_iff`: when the path follows the stack over a whole run
- `not_pathFollows`: three directories whose names do not fit
-/

namespace SoreOS

open ForStd

/-! ## Changes of the directory -/

/-- A change of the directory: a name, and the uninitialised file structure it finds. -/
structure Change where
  name : List UInt8
  file : File := {}

/-- The state after the change. -/
def Change.apply (d : Drive) (s : FsState) (c : Change) : Except Fault FsState := changeDirCMD d s c.name c.file

/-- The change is successful: a directory is found by the name, and opened. -/
def Change.Succeeds (d : Drive) (s : FsState) (c : Change) : Prop :=
  ∃ file t u, findFile d s c.name c.file = .ok (0, file, t) ∧ file.type = FTYPE_DIRECTORY ∧
    openDirectory d t file = .ok (true, u)

/-- The directories that were entered and not left, after a change. -/
def entered (p : List (List UInt8)) (c : Change) : List (List UInt8) :=
  if c.name = [DOT, DOT] then p.dropLast else if c.name = [DOT] then p else p ++ [c.name]

/-- A name of 1 to 104 characters, none of them a slash; the parent is entered only from a
    directory that was entered before. -/
structure ValidChange (p : List (List UInt8)) (c : Change) : Prop where
  length : 1 ≤ c.name.length ∧ c.name.length ≤ 104
  slash : SLASH ∉ c.name
  zero : 0 ∉ c.name
  parent : c.name = [DOT, DOT] → p ≠ []

/-- The names, with a slash in front of each, leave room for a terminator in `sysPath`. -/
def PathFits (p : List (List UInt8)) : Prop := (joined SLASH p).length < 256

theorem ValidChange.component {p : List (List UInt8)} {c : Change} (h : ValidChange p c) : Component c.name :=
  ⟨List.length_pos_iff.mp h.length.1, h.slash, h.zero⟩

/-! ## One change -/

section Step

variable {d : Drive} {s t : FsState}

/-- Loading a cluster does not touch the path. -/
theorem load_Cluster_sysPath {i : Int} {ok : Bool} (h : load_Cluster d s i = .ok (ok, t)) : t.sysPath = s.sysPath := by
  obtain ⟨m, i', n, rfl⟩ := load_Cluster_frame h
  rfl

theorem load_FATSect_sysPath {offset : Int} {ok : Bool} (h : load_FATSect d s offset = .ok (ok, t)) :
    t.sysPath = s.sysPath := by
  rw [load_FATSect_eq] at h
  cases h
  rfl

/-- Neither does a search or the opening of a directory. -/
theorem findFile_sysPath {q : List UInt8} {file file' : File} {res : Int}
    (h : findFile d s q file = .ok (res, file', t)) : t.sysPath = s.sysPath :=
  @findFile_rel d (fun s t => t.sysPath = s.sysPath) (fun _ => rfl) (fun h h' => h'.trans h) load_Cluster_sysPath
    (fun _ _ => rfl)
    (fun hwalk => @traverseFATLoop_rel d (fun s t => t.sysPath = s.sysPath) (fun _ => rfl) (fun h h' => h'.trans h)
      load_FATSect_sysPath _ _ _ _ _ _ _ hwalk)
    s t q file file' res h

theorem openDirectory_sysPath {file : File} {ok : Bool} (h : openDirectory d s file = .ok (ok, t)) :
    t.sysPath = s.sysPath :=
  @openDirectory_rel d (fun s t => t.sysPath = s.sysPath) (fun h h' => h'.trans h) load_Cluster_sysPath (fun _ _ => rfl)
    s t file ok h

/-- What a successful change comes to. -/
theorem Change.Succeeds.apply_eq {c : Change} (h : c.Succeeds d s) (hzero : 0 ∉ c.name) :
    ∃ t, t.sysPath = s.sysPath ∧ c.apply d s =
      if c.name = [DOT, DOT] then delPath t else if c.name = [DOT] then .ok t else addPath t c.name := by
  obtain ⟨file, t, u, hfind, htype, hopen⟩ := h
  have hdotDot := strcmp_eq_zero_iff hzero (show 0 ∉ [DOT, DOT] by decide)
  have hdot := strcmp_eq_zero_iff hzero (show 0 ∉ [DOT] by decide)
  refine ⟨u, (openDirectory_sysPath hopen).trans (findFile_sysPath hfind), ?_⟩
  rw [Change.apply, changeDirCMD, hfind, ok_bind]
  dsimp only
  rw [if_pos rfl, if_pos htype, hopen, ok_bind]
  dsimp only
  rw [if_pos rfl, if_congr hdotDot rfl rfl, if_congr (not_congr hdot) rfl rfl, ite_not]
  rfl

/-- A change does to the path what it does to the stack, if there is room for it. -/
theorem Change.apply_holds {p : List (List UInt8)} {c : Change} (hsucceeds : c.Succeeds d s) (hvalid : ValidChange p c)
    (h : HoldsPath s.sysPath p) (hfits : PathFits (entered p c)) :
    ∃ t, c.apply d s = .ok t ∧ HoldsPath t.sysPath (entered p c) := by
  obtain ⟨t, hpath, hrun⟩ := hsucceeds.apply_eq hvalid.zero
  rw [← hpath] at h
  rw [hrun]
  unfold entered PathFits at hfits
  unfold entered
  by_cases hdotDot : c.name = [DOT, DOT]
  · rw [if_pos hdotDot, if_pos hdotDot]
    -- there is a name to remove
    obtain rfl | ⟨p', name, rfl⟩ := List.eq_nil_or_concat' p
    · exact absurd rfl (hvalid.parent hdotDot)
    · obtain ⟨m, hdel, hm⟩ := delPath_holds h
      rw [List.dropLast_concat]
      exact ⟨_, hdel, hm⟩
  · rw [if_neg hdotDot] at hfits
    rw [if_neg hdotDot, if_neg hdotDot]
    by_cases hdot : c.name = [DOT]
    · rw [if_pos hdot, if_pos hdot]
      exact ⟨t, rfl, h⟩
    · rw [if_neg hdot] at hfits
      rw [if_neg hdot, if_neg hdot]
      rw [joined_append_singleton, List.length_append, List.length_cons] at hfits
      obtain ⟨m, hadd, hm⟩ := addPath_holds h hvalid.component (by omega)
      exact ⟨_, hadd, hm⟩

end Step

/-! ## Runs -/

/-- A change to a directory of a tree is successful. -/
theorem ShellInv.succeeds {d : Drive} {T : DirectoryTree} {s : FsState} {c : Nat} {p : List (List UInt8)}
    (h : ShellInv d T s c p) (hdisk : T.OnDisk d.disk (volumeHeader d.disk)) (hl : StandardLayout (volumeHeader d.disk))
    (hgood : ∀ n, d.good n = true) {b : Change} (hzero : 0 ∉ b.name) {f : LiveFile}
    (hfound : T.lookup c b.name = some f) (hdir : f.directory = true) : b.Succeeds d s := by
  obtain ⟨file, t, hfind, ht, htype, hcluster⟩ := h.findFile_some hdisk hl hgood hzero hfound b.file
  rw [LiveFile.type, if_pos hdir] at htype
  obtain ⟨u, hopen, -⟩ := openDirectory_opened hl hgood ht.fileSys ht.currentDir (hcluster hdir)
    (hdisk.valid _ (T.closed c h.isDirectory f (DirectoryTree.lookup_mem hfound).1 hdir))
  exact ⟨file, t, u, hfind, htype, hopen⟩

/-- In every state of a run, `sysPath` is the path of the stack, with its terminator inside the array. -/
def PathFollows (d : Drive) (s : FsState) (cs : List Change) : Prop :=
  ∀ n, ∃ t, (cs.take n).foldlM (Change.apply d) s = .ok t ∧ HoldsPath t.sysPath (run entered [] (cs.take n))

/-- In a run of successful changes from the root the path follows the stack exactly if the names of the
    stack, with a slash in front of each, have at most 255 characters at any time. -/
theorem pathFollows_iff {d : Drive} {s : FsState} (hroot : s.sysPath 0 = 0) {cs : List Change}
    (hvalid : ∀ n (h : n < cs.length), ValidChange (run entered [] (cs.take n)) cs[n])
    (hsucceeds : StepsOk (Change.apply d) (Change.Succeeds d) s cs) :
    PathFollows d s cs ↔ ∀ n, PathFits (run entered [] (cs.take n)) := by
  have hstart : HoldsPath s.sysPath [] :=
    ⟨fun _ hname => absurd hname List.not_mem_nil, by decide, fun i hi => absurd hi (Nat.not_lt_zero i), hroot⟩
  constructor
  · intro h n
    obtain ⟨t, -, hpath⟩ := h n
    exact hpath.fits
  · intro hfits
    refine run_simulates_take (fun (t : FsState) p => HoldsPath t.sysPath p) ?_ hstart hsucceeds hvalid hfits
    intro t p c hsucceeds hvalid h _ hfits
    exact Change.apply_holds hsucceeds hvalid h hfits

/-- The change that enters `SUB`. -/
def enterSub : Change := ⟨str ['S', 'U', 'B'], {}⟩

/-- Entering a directory of the root directory. -/
theorem pathFollows_iff_sub : ∃ s, loadFileSystem (healthyDrive subDisk) .boot = some (.ok (true, s)) ∧
    (PathFollows (healthyDrive subDisk) s [enterSub] ↔ ∀ n, PathFits (run entered [] ([enterSub].take n))) := by
  obtain ⟨s, hload, h⟩ := loadFileSystem_subDisk
  have hhdr : volumeHeader (healthyDrive subDisk).disk = defaultHeader := volumeHeader_subDisk
  have hl : StandardLayout (volumeHeader (healthyDrive subDisk).disk) := hhdr ▸ defaultHeader_layout
  have hdisk : subTree.OnDisk (healthyDrive subDisk).disk (volumeHeader (healthyDrive subDisk).disk) :=
    hhdr ▸ subTree_onDisk
  have hsucceeds : enterSub.Succeeds (healthyDrive subDisk) s :=
    h.succeeds hdisk hl (healthyDrive_good _) (by decide) (f := subEntry) rfl rfl
  have hvalid : ValidChange [] enterSub := ⟨by decide, by decide, by decide, by decide⟩
  refine ⟨s, hload, pathFollows_iff h.path.terminator (fun n hn => ?_) ⟨hsucceeds, fun _ _ => trivial⟩⟩
  obtain rfl : n = 0 := Nat.lt_one_iff.mp hn
  exact hvalid

/-! ## Three directories with long names -/

/-- A name of 104 characters. -/
def deepName : List UInt8 := List.replicate 104 0x78

/-- A directory with this name. -/
def deepEntry (c : UInt32) : LiveFile where
  long := deepName
  raw := pad11 [88]
  directory := true
  cluster := c
  size := 0
  long_length := by decide
  long_chars := by decide
  raw_length := by decide
  raw_chars := by decide
  raw_first := by decide

/-- Each directory but the last one holds the next one. -/
def deepFiles : Nat → List LiveFile
  | 2 => [deepEntry 3]
  | 3 => [dotEntry 3, dotDotEntry 0, deepEntry 4]
  | 4 => [dotEntry 4, dotDotEntry 3, deepEntry 5]
  | _ => [dotEntry 5, dotDotEntry 4]

/-- The tree of the four directories. -/
def deepTree : DirectoryTree where
  isDirectory c := c ∈ [2, 3, 4, 5]
  entries c := (deepFiles c).map .live
  parent c := if c = 3 then 2 else c - 1
  depth c := c
  root := by decide
  legal := by
    have hall : ∀ c ∈ [2, 3, 4, 5], ∀ f ∈ liveFiles ((deepFiles c).map .live), SLASH ∉ f.raw ∧ SLASH ∉ f.long ∧
      f.raw ≠ pad11 [] ∧ f.long.getLast? ≠ some SPACE := by decide
    intro c hc f hf
    obtain ⟨hraw, hlong, hblank, hlast⟩ := hall c hc f hf
    exact ⟨hraw, hlong, hblank, hlast⟩
  closed := by decide
  dots := by decide
  dot := by decide
  dotDot := by decide
  parent_target := by decide
  depth_parent := by decide

def deepEntries (c : Nat) : List WideEntry := (deepFiles c).map fun f => .live f.wide

/-- The volume with the four directories. -/
def deepDisk : Bytes := volume (fun _ => 0x0FFFFFFF) fun c => clusterOf (deepEntries c)

theorem volumeHeader_deepDisk : volumeHeader deepDisk = defaultHeader := volumeHeader_volume _ _

theorem deepEntries_isShort {c : Nat} (hc : c ∈ [2, 3, 4, 5]) :
    ∀ f, .live f ∈ deepEntries c → IsShort (ofString (shortRecord f.entry)) f.entry := by
  have hall : ∀ c ∈ [2, 3, 4, 5], ∀ f ∈ deepFiles c,
      let r := ofString (shortRecord f.wide.entry)
      r.read 0 11 = f.raw ∧ isLFN r = false ∧ ((attrib r &&& 0x10 ≠ 0) ↔ f.directory = true) ∧
        (readDW r 0x14).toNat * 65536 + (readDW r 0x1A).toNat = f.cluster.toNat ∧ readDD r 0x1C = f.size := by decide
  intro f hf
  obtain ⟨g, hg, heq⟩ := List.mem_map.mp hf
  obtain rfl := WideEntry.live.inj heq
  obtain ⟨hraw, hlfn, hdirectory, hcluster, hsize⟩ := hall c hc g hg
  exact ⟨hraw, hlfn, hdirectory, hcluster, hsize⟩

theorem deepTree_onDisk : deepTree.OnDisk deepDisk defaultHeader := by
  have hcount : ∀ c ∈ [2, 3, 4, 5], 2 ≤ c ∧ c ≤ 5 ∧ recordCount ((deepFiles c).map .live) < 63 := by decide
  refine ⟨fun c hc => ?_, fun c hc => ?_, fun c hc => ?_⟩
  · obtain ⟨hge, hle, -⟩ := hcount c hc
    unfold ValidCluster dataClusters
    omega
  · obtain ⟨hge, -, hlt⟩ := hcount c hc
    have hwide := clusterOf_holds (deepEntries_isShort hc)
    have hmap : deepEntries c = ((deepFiles c).map .live).map Entry.wide := by
      rw [List.map_map]
      rfl
    rw [hmap] at hwide
    refine (hwide.holds (by omega)).congr fun i hi hi' => ?_
    obtain ⟨n, rfl⟩ := Int.eq_ofNat_of_zero_le hi
    have hdata := clusterData_volume (fun _ => 0x0FFFFFFF) (fun c => clusterOf (deepEntries c)) hge
    have := Mem.eq_of_read_eq hdata (i := n) (by
      change (n : Int) < 32 * ((0 : Nat) + recordCount ((deepFiles c).map .live) + 1) at hi'
      omega)
    rw [Int.zero_add, hmap] at this
    exact this
  · obtain ⟨-, -, hlt⟩ := hcount c hc
    change 32 * (recordCount ((deepFiles c).map .live) + 1) ≤ 2048
    omega

theorem deepDisk_root : FatChain deepDisk defaultHeader [2] :=
  ⟨two_valid, fatNext_volume _ _ (by omega) (by omega)⟩

/-- The drive with the four directories is loaded. -/
theorem loadFileSystem_deepDisk : ∃ s, loadFileSystem (healthyDrive deepDisk) .boot = some (.ok (true, s)) ∧
    ShellInv (healthyDrive deepDisk) deepTree s 2 [] := by
  obtain ⟨s, hload, hboot, _⟩ := loadFileSystem_healthy _ _ deepDisk_root (by decide)
  exact ⟨s, hload, hboot.shellInv deepTree⟩

/-- Entering the next directory. -/
def enterDeep : Change := ⟨deepName, {}⟩

theorem lookup_deepName : deepTree.lookup 2 deepName = some (deepEntry 3) ∧
    deepTree.lookup 3 deepName = some (deepEntry 4) ∧ deepTree.lookup 4 deepName = some (deepEntry 5) := by
  exact ⟨rfl, rfl, rfl⟩

theorem enterDeep_valid {p : List (List UInt8)} : ValidChange p enterDeep :=
  ⟨by decide, by decide, by decide, fun h => absurd h (by decide)⟩

/-- The third of three directories whose names have 104 characters is entered: its name is stored
    over the end of `sysPath`. -/
theorem not_pathFollows : ∃ s, loadFileSystem (healthyDrive deepDisk) .boot = some (.ok (true, s)) ∧
    (∀ n (h : n < [enterDeep, enterDeep, enterDeep].length),
      ValidChange (run entered [] ([enterDeep, enterDeep, enterDeep].take n)) [enterDeep, enterDeep, enterDeep][n]) ∧
    StepsOk (Change.apply (healthyDrive deepDisk)) (Change.Succeeds (healthyDrive deepDisk)) s
      [enterDeep, enterDeep, enterDeep] ∧
    ¬ PathFollows (healthyDrive deepDisk) s [enterDeep, enterDeep, enterDeep] := by
  have hhdr : volumeHeader (healthyDrive deepDisk).disk = defaultHeader := volumeHeader_deepDisk
  have hl : StandardLayout (volumeHeader (healthyDrive deepDisk).disk) := hhdr ▸ defaultHeader_layout
  have hdisk : deepTree.OnDisk (healthyDrive deepDisk).disk (volumeHeader (healthyDrive deepDisk).disk) :=
    hhdr ▸ deepTree_onDisk
  have hgood : ∀ n, (healthyDrive deepDisk).good n = true := healthyDrive_good _
  have hzero : 0 ∉ deepName := by decide
  have hproper : deepName ≠ [DOT] ∧ deepName ≠ [DOT, DOT] := by decide
  obtain ⟨hlookup, hlookup', hlookup''⟩ := lookup_deepName
  obtain ⟨s, hload, h⟩ := loadFileSystem_deepDisk
  -- two names fit
  obtain ⟨t, hrun, ht⟩ := h.changeDirCMD_name hdisk hl hgood hzero hlookup rfl hproper (by decide) {}
  obtain ⟨u, hrun', hu⟩ := ht.changeDirCMD_name hdisk hl hgood hzero hlookup' rfl hproper (by decide) {}
  -- the third one does not
  obtain ⟨v, -, hpath, hrun''⟩ := hu.changeDirCMD_directory hdisk hl hgood hzero hlookup'' rfl {}
  obtain ⟨f, hfault⟩ := @addPath_fault v _ hpath deepName (by decide)
  rw [if_neg hproper.2, if_pos hproper.1, hfault] at hrun''
  refine ⟨s, hload, fun n hn => ?_, ⟨?_, fun t' ht' => ⟨?_, fun u' hu' => ⟨?_, fun _ _ => trivial⟩⟩⟩, fun hfollows => ?_⟩
  · have hall : ∀ c ∈ [enterDeep, enterDeep, enterDeep], c = enterDeep := by simp
    rw [hall _ (List.getElem_mem hn)]
    exact enterDeep_valid
  · exact h.succeeds hdisk hl hgood hzero hlookup rfl
  · obtain rfl := Except.ok.inj (hrun.symm.trans ht')
    exact ht.succeeds hdisk hl hgood hzero hlookup' rfl
  · obtain rfl := Except.ok.inj (hrun.symm.trans ht')
    obtain rfl := Except.ok.inj (hrun'.symm.trans hu')
    exact hu.succeeds hdisk hl hgood hzero hlookup'' rfl
  · obtain ⟨w, hw, -⟩ := hfollows 3
    rw [List.take_succ_cons, List.foldlM_cons, show enterDeep.apply (healthyDrive deepDisk) s = .ok t from hrun, ok_bind,
      List.take_succ_cons, List.foldlM_cons, show enterDeep.apply (healthyDrive deepDisk) t = .ok u from hrun', ok_bind,
      List.take_succ_cons, List.foldlM_cons, show enterDeep.apply (healthyDrive deepDisk) u = .error f from hrun''] at hw
    cases hw

end SoreOS
