import SoreOS.ForStd.Run
import SoreOS.Native.Kernel
import SoreOS.Spec.DirectoryTree

/-!
# Runs of the shell

Which directory the next scan works on, after any sequence of commands. The driver
keeps the cluster of the current directory only in the cluster buffer: `currentDir` is
the root directory for ever, and a file that is printed takes the buffer.

## Key results

- `ShellInv`: what every state of a well-behaved run satisfies
- `ShellInv.mainRound`: a command keeps it
- `shell_scans_workingDirectory`: so the scans work on the working directory
- `shell_loses_workingDirectory`: printing a file of a subdirectory leads back to the root
-/

namespace SoreOS

open ForStd

/-- A command with its argument, and the uninitialised file structure it finds. -/
structure Command where
  buffer : List UInt8
  line : List UInt8
  file : File := {}
  buffer_chars : 0 ∉ buffer := by decide
  line_chars : 0 ∉ line := by decide

/-- The state after the prompt. -/
def prompt (s : FsState) : FsState := printStrZ (printStrZ s (getWorkingDirectory s)) (str ['$', ' '])

/-- A round of the main loop with a command. -/
def Command.round (d : Drive) (s : FsState) (cmd : Command) : Except Fault FsState :=
  mainRound d s cmd.buffer cmd.line cmd.file

/-- Which command it is. -/
theorem Command.strcmp_buffer (cmd : Command) {name : List UInt8} (h : 0 ∉ name) :
    strcmp cmd.buffer name = 0 ↔ cmd.buffer = name := strcmp_eq_zero_iff cmd.buffer_chars h

/-- The command `cd`. -/
theorem Command.round_cd {cmd : Command} (h : cmd.buffer = str ['c', 'd']) (d : Drive) (s : FsState) :
    cmd.round d s = changeDirCMD d (prompt s) cmd.line cmd.file := by
  rw [round, mainRound, if_pos ((cmd.strcmp_buffer (by decide)).mpr h)]
  rfl

/-- The command `cat`. -/
theorem Command.round_cat {cmd : Command} (h : cmd.buffer = str ['c', 'a', 't']) (d : Drive) (s : FsState) :
    cmd.round d s = printFileCMD d (prompt s) cmd.line cmd.file := by
  have hcd : ¬ strcmp cmd.buffer (str ['c', 'd']) = 0 := by
    rw [cmd.strcmp_buffer (by decide), h]
    decide
  rw [round, mainRound, if_neg hcd, if_pos ((cmd.strcmp_buffer (by decide)).mpr h)]
  rfl

/-- Any other command. -/
theorem Command.round_other {cmd : Command} (hcd : cmd.buffer ≠ str ['c', 'd'])
    (hcat : cmd.buffer ≠ str ['c', 'a', 't']) (d : Drive) (s : FsState) :
    cmd.round d s = SoreOS.listFiles d (prompt s) ∨ cmd.round d s = .ok (prompt s) := by
  unfold round mainRound
  rw [if_neg fun h => hcd ((cmd.strcmp_buffer (by decide)).mp h),
    if_neg fun h => hcat ((cmd.strcmp_buffer (by decide)).mp h)]
  split
  · exact .inl rfl
  · exact .inr rfl

/-- A sequence of commands. -/
def shell (d : Drive) (s : FsState) (cmds : List Command) : Except Fault FsState :=
  cmds.foldlM (Command.round d) s

/-- The next `findFile` or `listFiles` scans a cluster. -/
def ScansCluster (d : Drive) (s : FsState) (c : Nat) : Prop :=
  ∃ t, loadFirst d s = .ok (true, t) ∧ t.ClusterSecIdx = c ∧
    t.ClusterBuffer.read 0 2048 = clusterData d.disk s.fileSys c

/-- The components of the working directory lead from the root to a directory, and this is
    the one that the next scan works on. -/
def ScansWorkingDirectory (d : Drive) (T : DirectoryTree) (s : FsState) : Prop :=
  ∃ c, T.follow 2 (components (getWorkingDirectory s)) = some c ∧ ScansCluster d s c

/-- The entry of the working directory that a name leads to. -/
def DirectoryTree.found (T : DirectoryTree) (s : FsState) (name : List UInt8) : Option LiveFile :=
  (T.follow 2 (components (getWorkingDirectory s))).bind (T.lookup · name)

/-- The commands that the driver keeps up with: only files of the root directory are
    printed, the path has room for a directory's name, and the parent is not entered from a
    path that ends with a padded `.` or `..`. -/
structure KeepsUp (T : DirectoryTree) (s : FsState) (cmd : Command) : Prop where
  cat : cmd.buffer = str ['c', 'a', 't'] → ∀ f, T.found s cmd.line = some f →
    f.directory = false → T.follow 2 (components (getWorkingDirectory s)) = some 2
  room : cmd.buffer = str ['c', 'd'] → ∀ f, T.found s cmd.line = some f →
    f.directory = true → cmd.line ≠ [DOT] → cmd.line ≠ [DOT, DOT] →
    (cstr s.sysPath 256).length + 1 + cmd.line.length < 256
  parent : cmd.buffer = str ['c', 'd'] → ∀ f, T.found s cmd.line = some f →
    f.directory = true → cmd.line = [DOT, DOT] →
    ∀ name ∈ (components (getWorkingDirectory s)).getLast?, name ∉ dotNames

/-- The state of the driver when the path `p` leads to the directory in cluster `c`. -/
structure ShellInv (d : Drive) (T : DirectoryTree) (s : FsState) (c : Nat) (p : List (List UInt8)) :
    Prop where
  fileSys : s.fileSys = volumeHeader d.disk
  currentDir : s.currentDir.clusters 0 = (2 : Nat)
  opened : s.dirClusterIndex = 0 → s.ClusterSecIdx = c ∧
    s.ClusterBuffer.read 0 2048 = clusterData d.disk s.fileSys c
  closed : s.dirClusterIndex ≠ 0 → c = 2
  path : HoldsPath s.sysPath p
  follow : T.follow 2 p = some c
  proper : ∀ name ∈ p, name ≠ [DOT] ∧ name ≠ [DOT, DOT]

/-- The state of the driver right after a directory was opened. -/
structure Opened (d : Drive) (s : FsState) (c : Nat) : Prop where
  fileSys : s.fileSys = volumeHeader d.disk
  currentDir : s.currentDir.clusters 0 = (2 : Nat)
  dirClusterIndex : s.dirClusterIndex = 0
  ClusterSecIdx : s.ClusterSecIdx = c
  buffer : s.ClusterBuffer.read 0 2048 = clusterData d.disk s.fileSys c

/-- With a path that leads to the directory, this satisfies the invariant. -/
theorem Opened.shellInv {d : Drive} {T : DirectoryTree} {s : FsState} {c : Nat} (h : Opened d s c)
    {m : Bytes} {p : List (List UInt8)} (hpath : HoldsPath m p) (hfollow : T.follow 2 p = some c)
    (hproper : ∀ name ∈ p, name ≠ [DOT] ∧ name ≠ [DOT, DOT]) :
    ShellInv d T { s with sysPath := m } c p :=
  ⟨h.fileSys, h.currentDir, fun _ => ⟨h.ClusterSecIdx, h.buffer⟩, fun hne => absurd h.dirClusterIndex hne,
    hpath, hfollow, hproper⟩

/-- The state of the driver after it printed a file: no directory is open. -/
structure Closed (d : Drive) (s : FsState) (p : List (List UInt8)) : Prop where
  fileSys : s.fileSys = volumeHeader d.disk
  currentDir : s.currentDir.clusters 0 = (2 : Nat)
  dirClusterIndex : s.dirClusterIndex = -1
  path : HoldsPath s.sysPath p

/-- With a path that leads to the root directory, this satisfies the invariant. -/
theorem Closed.shellInv {d : Drive} {T : DirectoryTree} {s : FsState} {p : List (List UInt8)}
    (h : Closed d s p) (hfollow : T.follow 2 p = some 2)
    (hproper : ∀ name ∈ p, name ≠ [DOT] ∧ name ≠ [DOT, DOT]) : ShellInv d T s 2 p := by
  refine ⟨h.fileSys, h.currentDir, fun h0 => ?_, fun _ => rfl, h.path, hfollow, hproper⟩
  rw [h.dirClusterIndex] at h0
  exact absurd h0 (by decide)

/-- The opened directory is the one that is scanned. -/
theorem Opened.scans_eq {d : Drive} {s : FsState} {c c' : Nat} (h : Opened d s c)
    (hscans : ScansCluster d s c') : c' = c := by
  obtain ⟨t, hload, hcluster, _⟩ := hscans
  rw [loadFirst, if_neg (not_not.mpr h.dirClusterIndex)] at hload
  obtain rfl : s = t := (Prod.mk.inj (Except.ok.inj hload)).2
  rw [h.ClusterSecIdx] at hcluster
  exact (Int.ofNat.inj hcluster).symm

/-- Without one it is the root directory. -/
theorem Closed.scans_iff {d : Drive} {T : DirectoryTree} {s : FsState} {c : Nat} {p : List (List UInt8)}
    (hl : StandardLayout (volumeHeader d.disk)) (hgood : ∀ n, d.good n = true) (h : Closed d s p)
    (hfollow : T.follow 2 p = some c) : ScansWorkingDirectory d T s ↔ c = 2 := by
  have hload := load_Cluster_good (2 : Nat) (h.fileSys ▸ hl.sectorsPerCluster) fun n _ => hgood n
  rw [clusterBase_valid (h.fileSys ▸ hl) two_valid] at hload
  have hfirst : loadFirst d s = load_Cluster d s (2 : Nat) := by
    rw [loadFirst, h.currentDir, if_pos (by rw [h.dirClusterIndex]; decide)]
  constructor
  · intro hgiven
    obtain ⟨c', hc', t, hrun, hcluster, _⟩ := hgiven
    rw [h.path.components, hfollow] at hc'
    obtain rfl := Option.some.inj hc'
    rw [hfirst, hload] at hrun
    obtain rfl := (Prod.mk.inj (Except.ok.inj hrun)).2
    exact (Int.ofNat.inj hcluster).symm
  · rintro rfl
    refine ⟨2, by rw [h.path.components, hfollow], _, hfirst.trans hload, rfl, ?_⟩
    exact Mem.read_copyFrom _ _ _ _ (Nat.le_refl _)

/-- Opening a directory of the tree, whatever was open before. -/
theorem openDirectory_opened {d : Drive} {s : FsState} {directory : File} {c : Nat}
    (hl : StandardLayout (volumeHeader d.disk)) (hgood : ∀ n, d.good n = true)
    (hfs : s.fileSys = volumeHeader d.disk) (hroot : s.currentDir.clusters 0 = (2 : Nat))
    (hc : directory.clusters 0 = c) (hv : ValidCluster c) :
    ∃ t, openDirectory d s directory = .ok (true, t) ∧ Opened d t c ∧ t.sysPath = s.sysPath := by
  have hopen := openDirectory_good directory hc (hfs ▸ hl.sectorsPerCluster) fun n _ => hgood n
  rw [clusterBase_valid (hfs ▸ hl) hv] at hopen
  refine ⟨_, hopen, ⟨hfs, hroot, rfl, rfl, ?_⟩, rfl⟩
  exact Mem.read_copyFrom _ _ _ _ (Nat.le_refl _)

section Steps

variable {d : Drive} {T : DirectoryTree} (hdisk : T.OnDisk d.disk (volumeHeader d.disk))
  (hl : StandardLayout (volumeHeader d.disk)) (hgood : ∀ n, d.good n = true)

namespace ShellInv

variable {s : FsState} {c : Nat} {p : List (List UInt8)} (h : ShellInv d T s c p)
include h

theorem isDirectory : T.isDirectory c := DirectoryTree.follow_isDirectory T.root h.follow

/-- What is printed does not matter. -/
theorem withOut (out : List UInt8) : ShellInv d T { s with out := out } c p :=
  ⟨h.fileSys, h.currentDir, h.opened, h.closed, h.path, h.follow, h.proper⟩

/-- The cached FAT sector does not matter. -/
theorem fatFrame {t : FsState} (hframe : FatFrame s t) : ShellInv d T t c p := by
  rw [hframe.eq]
  exact ⟨h.fileSys, h.currentDir, h.opened, h.closed, h.path, h.follow, h.proper⟩

/-- The entry that a name leads to. -/
theorem found (name : List UInt8) : T.found s name = T.lookup c name := by
  rw [DirectoryTree.found, h.path.components, h.follow, Option.bind_some]

/-! ## Scans -/

include hl hgood

/-- The scans start with the directory in the buffer. -/
theorem loadFirst : ∃ t, loadFirst d s = .ok (true, t) ∧ t.ClusterSecIdx = c ∧
    t.ClusterBuffer.read 0 2048 = clusterData d.disk s.fileSys c ∧ ShellInv d T t c p := by
  unfold SoreOS.loadFirst
  by_cases hidx : s.dirClusterIndex = 0
  · obtain ⟨hcluster, hbuf⟩ := h.opened hidx
    rw [if_neg (not_not.mpr hidx)]
    exact ⟨s, rfl, hcluster, hbuf, h⟩
  · -- the root directory is loaded again
    obtain rfl := h.closed hidx
    have hspc : s.fileSys.A_BF_BPB_SectorsPerCluster = 4 := h.fileSys ▸ hl.sectorsPerCluster
    have hload := load_Cluster_good (2 : Nat) hspc fun n _ => hgood n
    rw [clusterBase_valid (h.fileSys ▸ hl) two_valid] at hload
    rw [if_pos hidx, h.currentDir]
    refine ⟨_, hload, rfl, ?_, ?_⟩
    · dsimp only
      rw [memcpyObj, Mem.read_copyFrom _ _ _ _ (Nat.le_refl _), clusterData]
    · exact ⟨h.fileSys, h.currentDir, fun h0 => absurd h0 hidx, fun _ => rfl, h.path, h.follow, h.proper⟩

/-- The scans work on the working directory. -/
theorem scans : ScansWorkingDirectory d T s := by
  obtain ⟨t, hload, hcluster, hbuf, _⟩ := h.loadFirst hl hgood
  refine ⟨c, ?_, t, hload, hcluster, hbuf⟩
  rw [h.path.components, h.follow]

include hdisk

/-- The scans find the entries of the directory. -/
theorem directoryLoads : ∃ t, DirectoryLoads d s t (T.entries c) ∧ ShellInv d T t c p := by
  obtain ⟨t, hload, hcluster, hbuf, ht⟩ := h.loadFirst hl hgood
  have hfits := hdisk.fits c h.isDirectory
  have hbytes : clusterBytes t.fileSys = 2048 :=
    FourSectors.clusterBytes_eq ⟨ht.fileSys ▸ hl.sectorsPerCluster, ht.fileSys ▸ hl.bytesPerSector⟩
  refine ⟨t, ⟨hload, ?_, by omega, by omega⟩, ht⟩
  refine (hdisk.holds c h.isDirectory).congr fun i hi hi' => ?_
  obtain ⟨n, rfl⟩ := Int.eq_ofNat_of_zero_le hi
  have := Mem.eq_of_read_eq hbuf (i := n) (by omega)
  rw [Int.zero_add, h.fileSys] at this
  exact this

/-- A listing. -/
theorem listFiles : ∃ t, listFiles d s = .ok t ∧ ShellInv d T t c p := by
  obtain ⟨t, hloads, ht⟩ := h.directoryLoads hdisk hl hgood
  have hrun := scan_holds listVisit_quiet hloads
  rw [visitFiles_listVisit hloads.holds.isShort] at hrun
  exact ⟨_, by rw [SoreOS.listFiles, hrun]; rfl, ht.withOut _⟩

/-! ## Searches -/

/-- A search for a name that leads nowhere. -/
theorem findFile_none {q : List UInt8} (hq : 0 ∉ q) (hfound : T.lookup c q = none) (file : File) :
    ∃ t, findFile d s q file = .ok (-1, file, t) ∧ ShellInv d T t c p := by
  obtain ⟨t, hloads, ht⟩ := h.directoryLoads hdisk hl hgood
  unfold DirectoryTree.lookup at hfound
  split at hfound
  · rename_i hlen
    have hrun := findRecord_holds hloads hlen hq
    rw [← map_placed 0, List.find?_map, Option.map_eq_none_iff] at hfound
    refine ⟨t, ?_, ht⟩
    rw [SoreOS.findFile, hrun, ok_bind]
    simp only [Function.comp_def] at hfound
    rw [hfound]
    rfl
  · rename_i hlen
    refine ⟨s, ?_, h⟩
    rw [SoreOS.findFile, findRecord, if_pos (by omega)]
    rfl

/-- A search for a name that leads to an entry. -/
theorem findFile_some {q : List UInt8} (hq : 0 ∉ q) {f : LiveFile} (hfound : T.lookup c q = some f)
    (file : File) : ∃ file' t, findFile d s q file = .ok (0, file', t) ∧ ShellInv d T t c p ∧
      file'.type = f.type ∧ (f.directory = true → file'.clusters 0 = (f.target : Nat)) := by
  obtain ⟨t, hloads, ht⟩ := h.directoryLoads hdisk hl hgood
  obtain ⟨hmem, hlen, _⟩ := DirectoryTree.lookup_mem hfound
  have hrun := findRecord_holds hloads hlen hq
  rw [DirectoryTree.lookup, if_pos hlen, ← map_placed 0, List.find?_map, Option.map_eq_some_iff] at hfound
  obtain ⟨⟨k, g⟩, hfind, rfl⟩ := hfound
  simp only [Function.comp_def] at hfind
  rw [hfind] at hrun
  obtain ⟨file', u, hrun, hframe, htype, _, hcluster⟩ :=
    findFile_found hloads (List.mem_of_find?_eq_some hfind) hrun file
  refine ⟨file', u, hrun, ht.fatFrame hframe, htype, fun hdir => ?_⟩
  -- a record of the root directory has no cluster number
  have hroot : toInt t.fileSys.A_BF_BPB_RootDirStrtClus.toNat = (2 : Nat) := by
    rw [ht.fileSys, hl.rootCluster]
    decide
  have hvalid := (hdisk.valid _ (T.closed c h.isDirectory g hmem hdir)).2
  rw [hcluster, hroot, LiveFile.target]
  unfold LiveFile.target dataClusters at hvalid
  split
  · rfl
  · rename_i hne
    rw [if_neg hne] at hvalid
    exact toInt_eq (by omega) (by omega)

/-! ## Commands -/

/-- Printing a file closes the working directory. -/
theorem printFileCMD_file {q : List UInt8} (hq : 0 ∉ q) {f : LiveFile} (hfound : T.lookup c q = some f)
    (hfile : f.directory = false) (file : File) :
    ∃ t, printFileCMD d s q file = .ok t ∧ Closed d t p := by
  obtain ⟨file', u, hrun, hu, htype, _⟩ := h.findFile_some hdisk hl hgood hq hfound file
  rw [LiveFile.type, if_neg (by rw [hfile]; decide)] at htype
  have hspc : u.fileSys.A_BF_BPB_SectorsPerCluster = 4 := hu.fileSys ▸ hl.sectorsPerCluster
  obtain ⟨v, hprint, hframe, _⟩ := printFileLoop_returns d file'.clusters 8 (i := 0)
    (s := { u with dirClusterIndex := -1 }) hspc file'.size
  refine ⟨printStrZ v [NEWLINE], ?_, ?_⟩
  · rw [printFileCMD, hrun, ok_bind]
    dsimp only
    rw [if_pos rfl, htype, if_pos rfl, printFile, hprint]
    rfl
  · rw [printStrZ, hframe]
    exact ⟨hu.fileSys, hu.currentDir, rfl, hu.path⟩

/-- Printing any other name. -/
theorem printFileCMD_other {q : List UInt8} (hq : 0 ∉ q)
    (hfound : ∀ f, T.lookup c q = some f → f.directory = true) (file : File) :
    ∃ t, printFileCMD d s q file = .ok t ∧ ShellInv d T t c p := by
  cases hlookup : T.lookup c q with
  | none =>
    obtain ⟨t, hrun, ht⟩ := h.findFile_none hdisk hl hgood hq hlookup file
    refine ⟨printStrZ (printStrZ t q) noSuchFile, ?_, (ht.withOut _).withOut _⟩
    rw [printFileCMD, hrun, ok_bind]
    rfl
  | some f =>
    obtain ⟨file', t, hrun, ht, htype, _⟩ := h.findFile_some hdisk hl hgood hq hlookup file
    refine ⟨printStrZ (printStrZ t q) isADirectory, ?_, (ht.withOut _).withOut _⟩
    rw [LiveFile.type, if_pos (hfound f hlookup)] at htype
    rw [printFileCMD, hrun, ok_bind]
    dsimp only
    rw [htype]
    rfl

/-- Changing to a name that is no directory. -/
theorem changeDirCMD_other {q : List UInt8} (hq : 0 ∉ q)
    (hfound : ∀ f, T.lookup c q = some f → f.directory = false) (file : File) :
    ∃ t, changeDirCMD d s q file = .ok t ∧ ShellInv d T t c p := by
  cases hlookup : T.lookup c q with
  | none =>
    obtain ⟨t, hrun, ht⟩ := h.findFile_none hdisk hl hgood hq hlookup file
    refine ⟨printStrZ (printStrZ t q) noSuchFile, ?_, (ht.withOut _).withOut _⟩
    rw [changeDirCMD, hrun, ok_bind]
    rfl
  | some f =>
    obtain ⟨file', t, hrun, ht, htype, _⟩ := h.findFile_some hdisk hl hgood hq hlookup file
    refine ⟨printStrZ (printStrZ t q) notADirectory, ?_, (ht.withOut _).withOut _⟩
    rw [LiveFile.type, if_neg (by rw [hfound f hlookup]; decide)] at htype
    rw [changeDirCMD, hrun, ok_bind]
    dsimp only
    rw [htype]
    rfl

/-- Changing to a directory, before the path is adjusted. -/
theorem changeDirCMD_directory {q : List UInt8} (hq : 0 ∉ q) {f : LiveFile} (hfound : T.lookup c q = some f)
    (hdir : f.directory = true) (file : File) :
    ∃ t, Opened d t f.target ∧ HoldsPath t.sysPath p ∧ changeDirCMD d s q file =
      if q = [DOT, DOT] then delPath t else if q ≠ [DOT] then addPath t q else .ok t := by
  obtain ⟨file', u, hrun, hu, htype, hcluster⟩ := h.findFile_some hdisk hl hgood hq hfound file
  rw [LiveFile.type, if_pos hdir] at htype
  obtain ⟨t, hopen, ht, hpath⟩ := openDirectory_opened hl hgood hu.fileSys hu.currentDir (hcluster hdir)
    (hdisk.valid _ (T.closed c h.isDirectory f (DirectoryTree.lookup_mem hfound).1 hdir))
  have hdotDot := strcmp_eq_zero_iff hq (show 0 ∉ [DOT, DOT] by decide)
  have hdot := strcmp_eq_zero_iff hq (show 0 ∉ [DOT] by decide)
  refine ⟨t, ht, hpath ▸ hu.path, ?_⟩
  rw [changeDirCMD, hrun, ok_bind]
  dsimp only
  rw [if_pos rfl, htype, if_pos rfl, hopen, ok_bind]
  dsimp only
  rw [if_pos rfl, if_congr hdotDot rfl rfl, if_congr (not_congr hdot) rfl rfl]
  rfl

/-- `cd .` -/
theorem changeDirCMD_dot {f : LiveFile} (hfound : T.lookup c [DOT] = some f) (hdir : f.directory = true)
    (file : File) : ∃ t, changeDirCMD d s [DOT] file = .ok t ∧ ShellInv d T t c p := by
  obtain ⟨t, ht, hpath, hrun⟩ := h.changeDirCMD_directory hdisk hl hgood (by decide) hfound hdir file
  obtain ⟨hmem, _, hanswers⟩ := DirectoryTree.lookup_mem hfound
  rw [searchTerm_plain (.inl rfl)] at hanswers
  have hraw := (T.legal c h.isDirectory f hmem).answers_dots (by decide) hanswers
  rw [T.dot c h.isDirectory f hmem hraw] at ht
  refine ⟨t, ?_, ht.shellInv hpath h.follow h.proper⟩
  rw [hrun, if_neg (by decide), if_neg (by decide)]

/-- `cd ..`: the parent is opened, and a name removed from the path. -/
theorem changeDirCMD_dotDot {f : LiveFile} (hfound : T.lookup c [DOT, DOT] = some f)
    (hdir : f.directory = true) (file : File) :
    ∃ t p' name, p = p' ++ [name] ∧ c ≠ 2 ∧ changeDirCMD d s [DOT, DOT] file = .ok t ∧
      Opened d t (T.parent c) ∧ HoldsPath t.sysPath p' := by
  obtain ⟨t, ht, hpath, hrun⟩ := h.changeDirCMD_directory hdisk hl hgood (by decide) hfound hdir file
  obtain ⟨hmem, _, hanswers⟩ := DirectoryTree.lookup_mem hfound
  rw [searchTerm_plain (.inr (.inl rfl))] at hanswers
  have hraw := (T.legal c h.isDirectory f hmem).answers_dots (by decide) hanswers
  obtain ⟨hne, htarget⟩ := T.dotDot c h.isDirectory f hmem hraw
  rw [htarget] at ht
  have hfollow := h.follow
  -- the root directory has no parent, so there is a name to remove
  obtain rfl | ⟨p', name, rfl⟩ := List.eq_nil_or_concat' p
  · exact absurd (Option.some.inj hfollow).symm hne
  · obtain ⟨m, hdel, hpath'⟩ := delPath_holds hpath
    refine ⟨_, p', name, rfl, hne, by rw [hrun, if_pos rfl, hdel], ?_, hpath'⟩
    exact ⟨ht.fileSys, ht.currentDir, ht.dirClusterIndex, ht.ClusterSecIdx, ht.buffer⟩

/-- `cd` with the name of any other directory, if the path has room. -/
theorem changeDirCMD_name {q : List UInt8} (hq : 0 ∉ q) {f : LiveFile} (hfound : T.lookup c q = some f)
    (hdir : f.directory = true) (hproper : q ≠ [DOT] ∧ q ≠ [DOT, DOT])
    (hroom : (joined SLASH p).length + 1 + q.length < 256) (file : File) :
    ∃ t, changeDirCMD d s q file = .ok t ∧ ShellInv d T t f.target (p ++ [q]) := by
  obtain ⟨t, ht, hpath, hrun⟩ := h.changeDirCMD_directory hdisk hl hgood hq hfound hdir file
  obtain ⟨hmem, _, hanswers⟩ := DirectoryTree.lookup_mem hfound
  have hq' := (T.legal c h.isDirectory f hmem).component hq hanswers
  obtain ⟨m, hadd, hpath'⟩ := addPath_holds hpath hq' hroom
  refine ⟨_, ?_, ht.shellInv hpath' ?_ fun x hx => ?_⟩
  · rw [hrun, if_neg hproper.2, if_pos hproper.1, hadd]
  · rw [DirectoryTree.follow_append, h.follow]
    exact DirectoryTree.follow_singleton.mpr ⟨f, hfound, hdir, rfl⟩
  · obtain hx | hx := List.mem_append.mp hx
    · exact h.proper x hx
    · rw [List.mem_singleton.mp hx]
      exact hproper

/-! ## A round -/

/-- The commands that the driver keeps up with keep the invariant. -/
theorem round {cmd : Command} (hok : KeepsUp T s cmd) :
    ∃ t, cmd.round d s = .ok t ∧ ∃ c' p', ShellInv d T t c' p' := by
  have hs : ShellInv d T (prompt s) c p := (h.withOut _).withOut _
  obtain ⟨hcat, hroom, hparent⟩ := hok
  simp only [h.found, h.path.components, h.path.cstr, h.follow] at hcat hroom hparent
  by_cases hcd : cmd.buffer = str ['c', 'd']
  · rw [Command.round_cd hcd]
    by_cases hdir : ∃ f, T.lookup c cmd.line = some f ∧ f.directory = true
    · obtain ⟨f, hf, hdir⟩ := hdir
      by_cases hdot : cmd.line = [DOT]
      · rw [hdot] at hf ⊢
        obtain ⟨t, hrun, ht⟩ := hs.changeDirCMD_dot hdisk hl hgood hf hdir cmd.file
        exact ⟨t, hrun, c, p, ht⟩
      · by_cases hdotDot : cmd.line = [DOT, DOT]
        · have hlast := hparent hcd f hf hdir hdotDot
          rw [hdotDot] at hf ⊢
          obtain ⟨t, p', name, rfl, hne, hrun, ht, hpath⟩ :=
            hs.changeDirCMD_dotDot hdisk hl hgood hf hdir cmd.file
          have hname := h.proper name (List.mem_append_right p' List.mem_cons_self)
          rw [List.getLast?_concat] at hlast
          exact ⟨t, hrun, _, p', ht.shellInv hpath
            ((DirectoryTree.follow_parent_iff h.follow hne hname).mpr (hlast name rfl))
            fun x hx => h.proper x (List.mem_append_left _ hx)⟩
        · obtain ⟨t, hrun, ht⟩ := hs.changeDirCMD_name hdisk hl hgood cmd.line_chars hf hdir ⟨hdot, hdotDot⟩
            (hroom hcd f hf hdir hdot hdotDot) cmd.file
          exact ⟨t, hrun, _, _, ht⟩
    · obtain ⟨t, hrun, ht⟩ := hs.changeDirCMD_other hdisk hl hgood cmd.line_chars
        (fun f hf => by
          by_contra hne
          exact hdir ⟨f, hf, by simpa using hne⟩) cmd.file
      exact ⟨t, hrun, c, p, ht⟩
  · by_cases hcmd : cmd.buffer = str ['c', 'a', 't']
    · rw [Command.round_cat hcmd]
      by_cases hfile : ∃ f, T.lookup c cmd.line = some f ∧ f.directory = false
      · -- the printed file lies in the root directory, which is what is scanned next
        obtain ⟨f, hf, hfile⟩ := hfile
        obtain rfl : c = 2 := Option.some.inj (hcat hcmd f hf hfile)
        obtain ⟨t, hrun, ht⟩ := hs.printFileCMD_file hdisk hl hgood cmd.line_chars hf hfile cmd.file
        exact ⟨t, hrun, 2, p, ht.shellInv h.follow h.proper⟩
      · obtain ⟨t, hrun, ht⟩ := hs.printFileCMD_other hdisk hl hgood cmd.line_chars
          (fun f hf => by
            by_contra hne
            exact hfile ⟨f, hf, by simpa using hne⟩) cmd.file
        exact ⟨t, hrun, c, p, ht⟩
    · obtain hrun | hrun := Command.round_other hcd hcmd d s
      · rw [hrun]
        obtain ⟨t, hrun, ht⟩ := hs.listFiles hdisk hl hgood
        exact ⟨t, hrun, c, p, ht⟩
      · exact ⟨_, hrun, c, p, hs⟩

/-- No other command leads to a state in which the working directory is scanned. -/
theorem keepsUp {cmd : Command} {t : FsState} (hrun : cmd.round d s = .ok t)
    (hscans : ScansWorkingDirectory d T t) : KeepsUp T s cmd := by
  have hs : ShellInv d T (prompt s) c p := (h.withOut _).withOut _
  refine ⟨fun hcat f hf hfile => ?_, fun hcd f hf hdir hdot hdotDot => ?_,
    fun hcd f hf hdir hdotDot name hlast hname => ?_⟩
  · rw [h.found] at hf
    rw [Command.round_cat hcat] at hrun
    -- printing a file forgets which directory is loaded
    obtain ⟨u, hrun', hu⟩ := hs.printFileCMD_file hdisk hl hgood cmd.line_chars hf hfile cmd.file
    rw [hrun'] at hrun
    obtain rfl := Except.ok.inj hrun
    obtain rfl := (hu.scans_iff hl hgood h.follow).mp hscans
    rw [h.path.components, h.follow]
  · rw [h.found] at hf
    rw [Command.round_cd hcd] at hrun
    obtain ⟨u, _, hpath, hrun'⟩ := hs.changeDirCMD_directory hdisk hl hgood cmd.line_chars hf hdir cmd.file
    rw [h.path.cstr]
    -- a path that is full faults
    by_contra hfull
    obtain ⟨fault, hadd⟩ := @addPath_fault u p hpath cmd.line (by omega)
    rw [hrun', if_neg hdotDot, if_pos hdot, hadd] at hrun
    exact nomatch hrun
  · rw [h.found, hdotDot] at hf
    rw [Command.round_cd hcd, hdotDot] at hrun
    -- the way back: the parent of the cluster against the parent of the path
    obtain ⟨u, p', x, rfl, hne, hrun', hu, hpath⟩ :=
      hs.changeDirCMD_dotDot hdisk hl hgood hf hdir cmd.file
    rw [hrun'] at hrun
    obtain rfl := Except.ok.inj hrun
    rw [h.path.components, List.getLast?_concat] at hlast
    obtain rfl := Option.some.inj hlast
    obtain ⟨c', hfollow, hc'⟩ := hscans
    obtain rfl := hu.scans_eq hc'
    rw [hpath.components] at hfollow
    have hproper := h.proper x (List.mem_append_right p' List.mem_cons_self)
    exact (DirectoryTree.follow_parent_iff h.follow hne hproper).mp hfollow hname

end ShellInv

end Steps

/-! ## Runs -/

/-- The root directory is open when the file system was loaded. -/
theorem Booted.shellInv {d : Drive} {s : FsState} {cs : List Nat} (h : Booted d cs s) (T : DirectoryTree) :
    ShellInv d T s 2 [] :=
  ⟨h.fileSys, h.root.cluster 0 (Nat.succ_pos _), fun _ => ⟨h.ClusterSecIdx, h.buffer⟩, fun _ => rfl,
    h.sysPath ▸ holdsPath_nil, rfl, by simp⟩

/-- For a volume whose directories each fit in a cluster, and all reads succeeding: in a
    run of the shell every state scans the working directory next exactly if the driver
    keeps up with every command of the run. -/
theorem shell_scans_iff {d : Drive} {T : DirectoryTree} (hid : identify d = some true)
    (hgood : ∀ n, d.good n = true) (hl : StandardLayout (volumeHeader d.disk))
    (hroot : FatChain d.disk (volumeHeader d.disk) [2])
    (hdisk : T.OnDisk d.disk (volumeHeader d.disk)) :
    ∃ s, loadFileSystem d .boot = some (.ok (true, s)) ∧
      ∀ cmds, StepsOk (Command.round d) (KeepsUp T) s cmds ↔
        ∀ n, ∃ t, shell d s (cmds.take n) = .ok t ∧ ScansWorkingDirectory d T t := by
  obtain ⟨s, hload, hboot⟩ := loadFileSystem_good hid hgood hl hroot (by decide)
  refine ⟨s, hload, fun cmds => ?_⟩
  apply stepsOk_iff (I := fun s => ∃ c p, ShellInv d T s c p)
  · rintro s ⟨c, p, h⟩
    exact h.scans hl hgood
  · rintro s cmd ⟨c, p, h⟩ hok
    exact h.round hdisk hl hgood hok
  · rintro s cmd t ⟨c, p, h⟩ hrun hscans
    exact h.keepsUp hdisk hl hgood hrun hscans
  · exact ⟨2, [], hboot.shellInv T⟩

/-! ## A volume with a subdirectory -/

/-- An entry without a long name. -/
def shortEntry (name : List UInt8) (directory : Bool) (cluster size : UInt32)
    (hlen : (pad11 name).length = 11 := by decide) (hchars : 0 ∉ pad11 name := by decide)
    (hfirst : (pad11 name).head? ≠ some 0xE5 := by decide) : LiveFile where
  long := []
  raw := pad11 name
  directory := directory
  cluster := cluster
  size := size
  long_length := by decide
  long_chars := by decide
  raw_length := hlen
  raw_chars := hchars
  raw_first := hfirst

/-- An entry without its long name. -/
def LiveFile.withoutLong (f : LiveFile) : LiveFile :=
  { f with long := [], long_length := by decide, long_chars := by decide }

/-- The record of such an entry, with a small cluster number and size. -/
def shortRecord (f : LiveFile) : List UInt8 :=
  f.raw ++ (if f.directory then 0x10 else 0x20) :: List.replicate 14 0 ++
    [f.cluster.toUInt8, 0, f.size.toUInt8, 0, 0, 0]

/-- The directory `SUB` of the root directory. -/
def subEntry : LiveFile := shortEntry (str ['S', 'U', 'B']) true 3 0

/-- The file `B` in it. -/
def letterEntry : LiveFile := shortEntry (str ['B']) false 4 3

/-- The files of the two directories: the second one begins with itself and its parent. -/
def subFiles (c : Nat) : List LiveFile :=
  if c = 2 then [subEntry]
  else [shortEntry [DOT] true 3 0, shortEntry [DOT, DOT] true 0 0, letterEntry]

/-- The entries of a directory for itself and for its parent. -/
def dotEntry (cluster : UInt32) : LiveFile := shortEntry [DOT] true cluster 0

def dotDotEntry (cluster : UInt32) : LiveFile := shortEntry [DOT, DOT] true cluster 0

/-- The volume with the two directories. -/
def subDisk : Bytes :=
  volume (fun _ => 0x0FFFFFFF) fun c => ofString ((subFiles c).flatMap shortRecord)

theorem volumeHeader_subDisk : volumeHeader subDisk = defaultHeader := by
  unfold subDisk
  exact volumeHeader_volume _ _

theorem liveFiles_map_live (files : List LiveFile) : liveFiles (files.map .live) = files := by
  induction files with
  | nil => rfl
  | cons f files ih => rw [List.map_cons, liveFiles, ih]

theorem mem_subFiles {c : Nat} {f : LiveFile} (h : f ∈ subFiles c) :
    (c = 2 ∧ f = subEntry) ∨ (c ≠ 2 ∧ (f = shortEntry [DOT] true 3 0 ∨
      f = shortEntry [DOT, DOT] true 0 0 ∨ f = letterEntry)) := by
  unfold subFiles at h
  split at h
  · rename_i hc
    exact .inl ⟨hc, List.mem_singleton.mp h⟩
  · rename_i hc
    exact .inr ⟨hc, by simpa using h⟩

/-- The tree of the two directories. -/
def subTree : DirectoryTree where
  isDirectory c := c = 2 ∨ c = 3
  entries c := (subFiles c).map .live
  parent _ := 2
  depth c := if c = 2 then 0 else 1
  root := .inl rfl
  legal := by
    intro c _ f hf
    rw [liveFiles_map_live] at hf
    obtain ⟨_, rfl⟩ | ⟨_, rfl | rfl | rfl⟩ := mem_subFiles hf
    all_goals exact ⟨by decide, by decide, by decide, by decide⟩
  closed := by
    intro c _ f hf hdir
    rw [liveFiles_map_live] at hf
    obtain ⟨_, rfl⟩ | ⟨_, rfl | rfl | rfl⟩ := mem_subFiles hf
    · exact .inr rfl
    · exact .inr rfl
    · exact .inl rfl
    · exact absurd hdir (by decide)
  dots := by
    intro c _ f hf _
    rw [liveFiles_map_live] at hf
    obtain ⟨_, rfl⟩ | ⟨_, rfl | rfl | rfl⟩ := mem_subFiles hf
    all_goals rfl
  dot := by
    intro c hc f hf hraw
    rw [liveFiles_map_live] at hf
    obtain ⟨_, rfl⟩ | ⟨hne, rfl | rfl | rfl⟩ := mem_subFiles hf
    · exact absurd hraw (by decide)
    · exact (hc.resolve_left hne).symm
    · exact absurd hraw (by decide)
    · exact absurd hraw (by decide)
  dotDot := by
    intro c _ f hf hraw
    rw [liveFiles_map_live] at hf
    obtain ⟨_, rfl⟩ | ⟨hne, rfl | rfl | rfl⟩ := mem_subFiles hf
    · exact absurd hraw (by decide)
    · exact absurd hraw (by decide)
    · exact ⟨hne, rfl⟩
    · exact absurd hraw (by decide)
  parent_target := by
    intro c hc f hf hdir hraw
    rw [liveFiles_map_live] at hf
    obtain ⟨rfl, rfl⟩ | ⟨_, rfl | rfl | rfl⟩ := mem_subFiles hf
    · rfl
    · exact absurd (by decide) hraw
    · exact absurd (by decide) hraw
    · exact absurd hdir (by decide)
  depth_parent := by
    intro c _ hne
    rw [if_pos rfl, if_neg hne]
    exact Nat.zero_lt_one

/-- The record of a file without a long name. -/
theorem Holds.short {buf : Bytes} {k : Nat} {f : LiveFile} {es : List Entry} (hlong : f.long = [])
    (hshort : IsShort (subBuffer buf (32 * k)) f) (hrest : Holds buf (k + 1) es) :
    Holds buf k (.live f :: es) := by
  have hpieces : pieces f.long = 0 := by rw [hlong]; rfl
  refine ⟨fun j hj => ?_, ?_, ?_⟩
  · omega
  · rw [hpieces]
    exact hshort
  · rw [hpieces]
    exact hrest

/-- The volume holds the tree. -/
theorem subTree_onDisk : subTree.OnDisk subDisk defaultHeader := by
  refine ⟨?_, ?_, ?_⟩
  · rintro c (rfl | rfl)
    · exact two_valid
    · unfold ValidCluster dataClusters
      omega
  · intro c hc
    have hholds : Holds (ofString ((subFiles c).flatMap shortRecord)) 0 (subTree.entries c) := by
      obtain rfl | rfl := hc
      · exact .short rfl ⟨by decide, by decide, by decide, by decide, by decide⟩ rfl
      · apply Holds.short rfl ⟨by decide, by decide, by decide, by decide, by decide⟩
        apply Holds.short rfl ⟨by decide, by decide, by decide, by decide, by decide⟩
        exact .short rfl ⟨by decide, by decide, by decide, by decide, by decide⟩ rfl
    have hle : recordCount (subTree.entries c) + 1 ≤ 64 := by
      obtain rfl | rfl := hc
      · decide
      · decide
    -- the clusters of the volume begin with the records
    refine hholds.congr fun i hi hi' => ?_
    obtain ⟨n, rfl⟩ := Int.eq_ofNat_of_zero_le hi
    have hdata := clusterData_volume (fun _ => 0x0FFFFFFF)
      (fun c => ofString ((subFiles c).flatMap shortRecord)) (c := c) (by obtain rfl | rfl := hc <;> omega)
    have := Mem.eq_of_read_eq hdata (i := n) (by omega)
    rw [Int.zero_add] at this
    exact this
  · rintro c (rfl | rfl)
    · decide
    · decide

theorem subDisk_root : FatChain subDisk defaultHeader [2] := by
  refine ⟨two_valid, ?_⟩
  unfold subDisk
  rw [fatNext_volume _ _ (by omega) (by omega)]

/-- The drive with the two directories is loaded. -/
theorem loadFileSystem_subDisk : ∃ s, loadFileSystem (healthyDrive subDisk) .boot = some (.ok (true, s)) ∧
    ShellInv (healthyDrive subDisk) subTree s 2 [] := by
  obtain ⟨s, hload, hboot, _⟩ := loadFileSystem_healthy _ _ subDisk_root (by decide)
  exact ⟨s, hload, hboot.shellInv subTree⟩

def cdSub : Command where
  buffer := str ['c', 'd']
  line := str ['S', 'U', 'B']

def catB : Command where
  buffer := str ['c', 'a', 't']
  line := str ['B']

def ls : Command where
  buffer := str ['l', 's']
  line := []

/-- A run that enters the directory and lists it. -/
theorem shell_scans_iff_cd_ls : ∃ s, loadFileSystem (healthyDrive subDisk) .boot = some (.ok (true, s)) ∧
    ∀ n, ∃ t, shell (healthyDrive subDisk) s ([cdSub, ls].take n) = .ok t ∧
      ScansWorkingDirectory (healthyDrive subDisk) subTree t := by
  have hhdr : volumeHeader (healthyDrive subDisk).disk = defaultHeader := volumeHeader_subDisk
  obtain ⟨s, hload, hruns⟩ := shell_scans_iff (T := subTree) (d := healthyDrive subDisk) rfl
    (healthyDrive_good _) (hhdr ▸ defaultHeader_layout) (hhdr ▸ subDisk_root) (hhdr ▸ subTree_onDisk)
  obtain ⟨s', hload', h⟩ := loadFileSystem_subDisk
  rw [hload'] at hload
  cases hload
  refine ⟨s, hload', (hruns _).mp ⟨⟨?_, ?_, ?_⟩, fun t _ => ⟨⟨?_, ?_, ?_⟩, fun _ _ => trivial⟩⟩⟩
  · exact fun hcat => absurd hcat (by decide)
  · intro _ _ _ _ _ _
    rw [h.path.cstr]
    decide
  · exact fun _ _ _ _ hline => absurd hline (by decide)
  · exact fun hcat => absurd hcat (by decide)
  · exact fun hcd => absurd hcd (by decide)
  · exact fun hcd => absurd hcd (by decide)

/-- A run that enters the directory and prints its file: the root directory is scanned
    next, though the path still leads to the other one. -/
theorem shell_loses_workingDirectory : ∃ s t,
    loadFileSystem (healthyDrive subDisk) .boot = some (.ok (true, s)) ∧
    shell (healthyDrive subDisk) s [cdSub, catB] = .ok t ∧
    ¬ ScansWorkingDirectory (healthyDrive subDisk) subTree t := by
  have hhdr : volumeHeader (healthyDrive subDisk).disk = defaultHeader := volumeHeader_subDisk
  have hl : StandardLayout (volumeHeader (healthyDrive subDisk).disk) := hhdr ▸ defaultHeader_layout
  have hdisk : subTree.OnDisk (healthyDrive subDisk).disk (volumeHeader (healthyDrive subDisk).disk) :=
    hhdr ▸ subTree_onDisk
  obtain ⟨s, hload, h⟩ := loadFileSystem_subDisk
  have hs : ShellInv (healthyDrive subDisk) subTree (prompt s) 2 [] := (h.withOut _).withOut _
  have hsub : subTree.lookup 2 cdSub.line = some subEntry := rfl
  obtain ⟨t, hrun, ht⟩ := hs.changeDirCMD_name hdisk hl (healthyDrive_good _) cdSub.line_chars hsub rfl
    (by decide) (by decide) cdSub.file
  have ht' : ShellInv (healthyDrive subDisk) subTree (prompt t) 3 [cdSub.line] := (ht.withOut _).withOut _
  have hletter : subTree.lookup 3 catB.line = some letterEntry := rfl
  obtain ⟨u, hrun', hu⟩ := ht'.printFileCMD_file hdisk hl (healthyDrive_good _) catB.line_chars hletter rfl
    catB.file
  refine ⟨s, u, hload, ?_, fun hscans => ?_⟩
  · rw [shell, List.foldlM_cons, Command.round_cd rfl, hrun, ok_bind, List.foldlM_cons, Command.round_cat rfl,
      hrun']
    rfl
  · exact absurd ((hu.scans_iff hl (healthyDrive_good _) ht'.follow).mp hscans) (by decide)

end SoreOS
