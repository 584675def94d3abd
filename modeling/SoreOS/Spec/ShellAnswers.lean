import SoreOS.Spec.ReadErrors
import SoreOS.Spec.Shell

/-!
# What the shell answers

The characters that the shell prints and the directory that it goes on with, for any commands: they are those of
a shell that looks names up in a tree. A file that is printed leads this shell back to the root directory, too, while
the path stays, and it has no next state when the path is full.

## Key results

- `DirectoryTree.answer`: the shell over a tree
- `Works.loads`, `Works.findFile_none`, `Works.findFile_some`: the driver looks at the right directory
- `Works.round`: a command
- `shell_follows`: any number of commands
-/

namespace SoreOS

open ForStd

/-! ## A shell over a tree -/

/-- What the user sees, and the directory that the next command works on. -/
structure Dialogue where
  path : List (List UInt8) := []
  cluster : Nat := 2
  text : List UInt8 := []

/-- Something is printed. -/
def Dialogue.print (v : Dialogue) (text : List UInt8) : Dialogue := { v with text := v.text ++ text }

/-- The path as the prompt has it. -/
def Dialogue.shown (v : Dialogue) : List UInt8 := if v.path = [] then [SLASH] else joined SLASH v.path

/-- How many bytes at the start of a file are not printed: from 2 GiB on the size is negative to the driver, and
    clusters are left out until its counter comes back as a positive number. -/
def LiveFile.skippedBytes (f : LiveFile) : Nat :=
  if f.size.toNat < 2147483648 then 0 else 2048 * ((f.size.toNat - 2147483648) / 2048 + 1)

/-- What is printed of a file with some contents: no more than eight clusters. -/
def LiveFile.printedPart (f : LiveFile) (contents : List UInt8) : List UInt8 :=
  (contents.take 16384).drop f.skippedBytes

namespace DirectoryTree

variable (T : DirectoryTree)

/-- `cd` into a directory, unless the path is full. -/
def enter (v : Dialogue) (name : List UInt8) (f : LiveFile) : Option Dialogue :=
  if name = [DOT, DOT] then some { v with path := v.path.dropLast, cluster := f.target }
  else if name = [DOT] then some { v with cluster := f.target }
  else if (joined SLASH v.path).length + 1 + name.length < 256 then
    some { v with path := v.path ++ [name], cluster := f.target }
  else none

/-- `cd` -/
def changeDir (v : Dialogue) (name : List UInt8) : Option Dialogue :=
  match T.lookup v.cluster name with
  | none => some (v.print (name ++ noSuchFile))
  | some f => if f.directory = true then enter v name f else some (v.print (name ++ notADirectory))

/-- `cat`, in a tree whose files have some contents. -/
def printFile (contents : LiveFile → List UInt8) (v : Dialogue) (name : List UInt8) : Dialogue :=
  match T.lookup v.cluster name with
  | none => v.print (name ++ noSuchFile)
  | some f =>
    if f.directory = true then v.print (name ++ isADirectory)
    else { v.print (f.printedPart (contents f) ++ [NEWLINE]) with cluster := 2 }

/-- `ls` -/
def list (v : Dialogue) : Dialogue :=
  v.print ((liveFiles (T.entries v.cluster)).flatMap fun f => f.printed ++ [NEWLINE])

/-- The answer to a command, behind the prompt. -/
def answer (contents : LiveFile → List UInt8) (v : Dialogue) (cmd : Command) : Option Dialogue :=
  let v := v.print (v.shown ++ str ['$', ' '])
  if cmd.buffer = str ['c', 'd'] then T.changeDir v cmd.line
  else if cmd.buffer = str ['c', 'a', 't'] then some (T.printFile contents v cmd.line)
  else if cmd.buffer = str ['l', 's'] then some (T.list v)
  else some v

/-- The files of the tree have their contents on a disk. -/
def HoldsFiles (disk : Bytes) (hdr : FAT32_HEADER) (contents : LiveFile → List UInt8) : Prop :=
  ∀ c, T.isDirectory c → ∀ f ∈ liveFiles (T.entries c), f.directory = false →
    ∃ cs, FatChain disk hdr (f.target :: cs) ∧ contents f = SoreOS.contents disk hdr (f.target :: cs) f.size

end DirectoryTree

/-! ## What is printed of a file -/

/-- Without errors the walk comes to the end. -/
theorem fatWalk_good {d : Drive} (hgood : ∀ n, d.good n = true) (cs : List Nat) (w : Nat) (idx : Int) :
    (fatWalk d w idx cs).1 = cs.length := by
  induction cs generalizing w idx with
  | nil => rfl
  | cons c cs ih =>
    rw [fatWalk]
    split
    · rw [ih, List.length_cons]
    · rw [if_pos (hgood w), ih, List.length_cons]

/-- The bytes of eight clusters. -/
theorem chainData_take (disk : Bytes) (hdr : FAT32_HEADER) (cs : List Nat) (n : Nat) :
    chainData disk hdr (cs.take n) = (chainData disk hdr cs).take (2048 * n) := by
  induction n generalizing cs with
  | zero => rfl
  | succ n ih =>
    cases cs with
    | nil => simp [chainData]
    | cons c cs =>
      have hlen : (clusterData disk hdr c).length = 2048 := length_clusterData disk hdr c
      have hrest := ih cs
      have hn : 2048 * (n + 1) - 2048 = 2048 * n := by omega
      unfold chainData at hrest ⊢
      rw [List.take_succ_cons, List.flatMap_cons, List.flatMap_cons, hrest, List.take_append,
        List.take_of_length_le (l := clusterData disk hdr c) (by omega), hlen, hn]

/-- The bytes behind some clusters. -/
theorem chainData_drop (disk : Bytes) (hdr : FAT32_HEADER) (cs : List Nat) (n : Nat) :
    chainData disk hdr (cs.drop n) = (chainData disk hdr cs).drop (2048 * n) := by
  induction n generalizing cs with
  | zero => rfl
  | succ n ih =>
    cases cs with
    | nil => simp [chainData]
    | cons c cs =>
      have hlen : (clusterData disk hdr c).length = 2048 := length_clusterData disk hdr c
      have hrest := ih cs
      unfold chainData at hrest ⊢
      rw [List.drop_succ_cons, hrest, List.flatMap_cons, List.drop_append, hlen,
        List.drop_of_length_le (l := clusterData disk hdr c) (by omega), List.nil_append,
        show 2048 * (n + 1) - 2048 = 2048 * n from by omega]

/-- The printed part of the contents. -/
theorem printed_contents (disk : Bytes) (hdr : FAT32_HEADER) (cs : List Nat) (f : LiveFile) :
    printedData ((cs.take 8).map (clusterData disk hdr)) (toInt f.size.toNat) =
      f.printedPart (contents disk hdr cs f.size) := by
  have hlen : (cs.take 8).length ≤ 8 := List.length_take_le _ _
  have hword := f.size.toNat_lt
  rw [LiveFile.printedPart, LiveFile.skippedBytes, contents, List.take_take]
  by_cases hsmall : f.size.toNat < 2147483648
  · have hsize : toInt f.size.toNat = f.size.toNat := toInt_eq (by omega) (by omega)
    rw [if_pos hsmall, List.drop_zero, hsize, printedData_chain _ _ _ (by omega) (by omega), Int.toNat_natCast, chainData_take,
      List.take_take, Nat.min_comm]
  · -- a negative size: the clusters from some round on
    have hsize : toInt f.size.toNat = f.size.toNat - 4294967296 := by
      rw [toInt, Int.bmod_def]
      omega
    have hround : overflowRound (toInt f.size.toNat) = (f.size.toNat - 2147483648) / 2048 + 1 := by
      rw [hsize]
      unfold overflowRound
      omega
    have hall : ∀ data ∈ (cs.take 8).map (clusterData disk hdr), data.length = 2048 := by
      intro data hdata
      obtain ⟨c, _, rfl⟩ := List.mem_map.mp hdata
      exact length_clusterData disk hdr c
    rw [if_neg hsmall, printedData_negative hall (by rw [List.length_map]; exact hlen) (toInt_range _).1 (by omega), hround,
      ← List.map_drop, ← List.flatMap_def, ← chainData, chainData_drop, chainData_take, Nat.min_eq_left (by omega)]

/-! ## The driver -/

/-- A step that prints nothing, leaves the path alone and keeps the cache good. -/
structure Silent (d : Drive) (s t : FsState) : Prop where
  out : t.out = s.out
  sysPath : t.sysPath = s.sysPath
  keeps : KeepsCache d s t

namespace Silent

variable {d : Drive} {s t u : FsState}

theorem refl (s : FsState) : Silent d s s := ⟨rfl, rfl, .refl s⟩

theorem trans (h : Silent d s t) (h' : Silent d t u) : Silent d s u :=
  ⟨h'.out.trans h.out, h'.sysPath.trans h.sysPath, h.keeps.trans h'.keeps⟩

theorem index (s : FsState) (i : Int) : Silent d s { s with dirClusterIndex := i } :=
  ⟨rfl, rfl, .of_eq rfl rfl rfl⟩

theorem load_Cluster {i : Int} {ok : Bool} (h : load_Cluster d s i = .ok (ok, t)) : Silent d s t := by
  have hkeeps := KeepsCache.load_Cluster h
  obtain ⟨m, i', n, rfl⟩ := load_Cluster_frame h
  exact ⟨rfl, rfl, hkeeps⟩

theorem load_FATSect {offset : Int} {ok : Bool} (h : load_FATSect d s offset = .ok (ok, t)) : Silent d s t := by
  have hkeeps := KeepsCache.load_FATSect h
  rw [load_FATSect_eq] at h
  obtain ⟨-, rfl⟩ := Prod.mk.inj (Except.ok.inj h)
  exact ⟨rfl, rfl, hkeeps⟩

theorem findFile {q : List UInt8} {file file' : File} {res : Int} (h : findFile d s q file = .ok (res, file', t)) :
    Silent d s t :=
  findFile_rel refl trans load_Cluster index (fun hwalk => traverseFATLoop_rel refl trans load_FATSect hwalk) h

theorem openDirectory {file : File} {ok : Bool} (h : openDirectory d s file = .ok (ok, t)) : Silent d s t :=
  @openDirectory_rel d (Silent d) trans load_Cluster index _ _ _ _ h

end Silent

/-- The driver works on the directory in cluster `c`: it is in the buffer, or it is the root directory and
    will be loaded. -/
structure Works (d : Drive) (T : DirectoryTree) (s : FsState) (c : Nat) : Prop where
  fileSys : s.fileSys = volumeHeader d.disk
  currentDir : s.currentDir.clusters 0 = (2 : Nat)
  opened : s.dirClusterIndex = 0 → s.ClusterBuffer.read 0 2048 = clusterData d.disk s.fileSys c
  closed : s.dirClusterIndex ≠ 0 → c = 2
  cache : CacheOk d s
  isDirectory : T.isDirectory c

/-- The cluster that `findFile` takes from an entry. -/
theorem start_target {hdr : FAT32_HEADER} (hl : StandardLayout hdr) {f : LiveFile} (hv : ValidCluster f.target) :
    (if f.cluster = 0 then toInt hdr.A_BF_BPB_RootDirStrtClus.toNat else toInt f.cluster.toNat) = (f.target : Nat) := by
  have hroot : toInt hdr.A_BF_BPB_RootDirStrtClus.toNat = (2 : Nat) := by
    rw [hl.rootCluster]
    decide
  have hlt := hv.2
  unfold LiveFile.target dataClusters at hlt
  rw [hroot, LiveFile.target]
  split
  · rfl
  · rename_i hne
    rw [if_neg hne] at hlt
    exact toInt_eq (by omega) (by omega)

/-- The command `ls`. -/
theorem Command.round_ls {cmd : Command} (h : cmd.buffer = str ['l', 's']) (d : Drive) (s : FsState) :
    cmd.round d s = listFiles d (prompt s) := by
  rw [round, mainRound, if_neg ((cmd.strcmp_buffer (by decide)).not.mpr (by rw [h]; decide)),
    if_neg ((cmd.strcmp_buffer (by decide)).not.mpr (by rw [h]; decide)),
    if_pos ((cmd.strcmp_buffer (by decide)).mpr h)]
  rfl

/-- A command that the shell does not know, or `clear`. -/
theorem Command.round_unknown {cmd : Command} (hcd : cmd.buffer ≠ str ['c', 'd'])
    (hcat : cmd.buffer ≠ str ['c', 'a', 't']) (hls : cmd.buffer ≠ str ['l', 's']) (d : Drive) (s : FsState) :
    cmd.round d s = .ok (prompt s) := by
  rw [round, mainRound, if_neg ((cmd.strcmp_buffer (by decide)).not.mpr hcd),
    if_neg ((cmd.strcmp_buffer (by decide)).not.mpr hcat), if_neg ((cmd.strcmp_buffer (by decide)).not.mpr hls)]
  rfl

section Works

variable {d : Drive} {T : DirectoryTree} {s : FsState} {c : Nat} (hdisk : T.OnDisk d.disk (volumeHeader d.disk))
  (hl : StandardLayout (volumeHeader d.disk)) (hgood : ∀ n, d.good n = true)

namespace Works

variable (h : Works d T s c)
include h

theorem withOut (out : List UInt8) : Works d T { s with out := out } c :=
  ⟨h.fileSys, h.currentDir, h.opened, h.closed, h.cache, h.isDirectory⟩

theorem withPath (m : Bytes) : Works d T { s with sysPath := m } c :=
  ⟨h.fileSys, h.currentDir, h.opened, h.closed, h.cache, h.isDirectory⟩

theorem fatFrame {t : FsState} (hframe : FatFrame s t) (hcache : CacheOk d t) : Works d T t c := by
  rw [hframe.eq] at hcache ⊢
  exact ⟨h.fileSys, h.currentDir, h.opened, h.closed, hcache, h.isDirectory⟩

include hl hgood

/-- The scans start with the directory in the buffer. -/
theorem loadFirst : ∃ t, loadFirst d s = .ok (true, t) ∧
    t.ClusterBuffer.read 0 2048 = clusterData d.disk s.fileSys c ∧ Works d T t c ∧ Silent d s t := by
  unfold SoreOS.loadFirst
  by_cases hidx : s.dirClusterIndex = 0
  · rw [if_neg (not_not.mpr hidx)]
    exact ⟨s, rfl, h.opened hidx, h, .refl s⟩
  · -- the root directory is loaded again
    obtain rfl := h.closed hidx
    have hspc : s.fileSys.A_BF_BPB_SectorsPerCluster = 4 := h.fileSys ▸ hl.sectorsPerCluster
    have hload := load_Cluster_good (2 : Nat) hspc fun n _ => hgood n
    have hsilent := Silent.load_Cluster hload
    rw [clusterBase_valid (h.fileSys ▸ hl) two_valid] at hload hsilent
    rw [if_pos hidx, h.currentDir]
    refine ⟨_, hload, ?_, ⟨h.fileSys, h.currentDir, fun h0 => absurd h0 hidx, fun _ => rfl,
      hsilent.keeps.cache h.cache, h.isDirectory⟩, hsilent⟩
    dsimp only
    rw [memcpyObj, Mem.read_copyFrom _ _ _ _ (Nat.le_refl _), clusterData]

include hdisk

/-- The scans find the entries of the directory. -/
theorem loads : ∃ t, DirectoryLoads d s t (T.entries c) ∧ Works d T t c ∧ Silent d s t := by
  obtain ⟨t, hload, hbuf, ht, hsilent⟩ := h.loadFirst hl hgood
  have hfits := hdisk.fits c h.isDirectory
  have hbytes : clusterBytes t.fileSys = 2048 :=
    FourSectors.clusterBytes_eq ⟨ht.fileSys ▸ hl.sectorsPerCluster, ht.fileSys ▸ hl.bytesPerSector⟩
  refine ⟨t, ⟨hload, ?_, by omega, by omega⟩, ht, hsilent⟩
  refine (hdisk.holds c h.isDirectory).congr fun i hi hi' => ?_
  obtain ⟨n, rfl⟩ := Int.eq_ofNat_of_zero_le hi
  have := Mem.eq_of_read_eq hbuf (i := n) (by omega)
  rw [Int.zero_add, h.fileSys] at this
  exact this

/-- A listing. -/
theorem listFiles : ∃ t, listFiles d s = .ok t ∧ Works d T t c ∧ t.sysPath = s.sysPath ∧
    t.out = s.out ++ (liveFiles (T.entries c)).flatMap fun f => f.printed ++ [NEWLINE] := by
  obtain ⟨t, hloads, ht, hsilent⟩ := h.loads hdisk hl hgood
  have hrun := scan_holds listVisit_quiet hloads
  rw [visitFiles_listVisit hloads.holds.isShort] at hrun
  have hout := hsilent.out
  refine ⟨{ t with out := t.out ++ (placed 0 (T.entries c)).flatMap fun p => p.2.printed ++ [NEWLINE] }, ?_,
    ht.withOut _, hsilent.sysPath, ?_⟩
  · rw [SoreOS.listFiles, hrun]
    rfl
  · dsimp only
    rw [hout, ← map_placed 0 (T.entries c), List.flatMap_map]

/-- A search for a name that leads nowhere. -/
theorem findFile_none {q : List UInt8} (hq : 0 ∉ q) (hlookup : T.lookup c q = none) (file : File) :
    ∃ t, findFile d s q file = .ok (-1, file, t) ∧ Works d T t c ∧ Silent d s t := by
  obtain ⟨t, hloads, ht, hsilent⟩ := h.loads hdisk hl hgood
  unfold DirectoryTree.lookup at hlookup
  split at hlookup
  · rename_i hlen
    have hrun := findRecord_holds hloads hlen hq
    rw [← map_placed 0, List.find?_map, Option.map_eq_none_iff] at hlookup
    simp only [Function.comp_def] at hlookup
    refine ⟨t, ?_, ht, hsilent⟩
    rw [SoreOS.findFile, hrun, ok_bind, hlookup]
    rfl
  · -- the name is too long to be looked for
    rename_i hlen
    refine ⟨s, ?_, h, .refl s⟩
    rw [SoreOS.findFile, findRecord, if_pos (by omega)]
    rfl

/-- A search for a name that leads to an entry, and for a file what is printed of it. -/
theorem findFile_some {contents : LiveFile → List UInt8} (hfiles : T.HoldsFiles d.disk (volumeHeader d.disk) contents)
    {q : List UInt8} (hq : 0 ∉ q) {f : LiveFile} (hlookup : T.lookup c q = some f) (file : File) :
    ∃ file' t, findFile d s q file = .ok (0, file', t) ∧ Works d T t c ∧ Silent d s t ∧ file'.type = f.type ∧
      (f.directory = true → file'.clusters 0 = (f.target : Nat)) ∧
      (f.directory = false → ∃ u, printFile d t file' = .ok u ∧ PrintFrame { t with dirClusterIndex := -1 } u ∧
        u.out = s.out ++ f.printedPart (contents f)) := by
  obtain ⟨t, hloads, ht, hsilent⟩ := h.loads hdisk hl hgood
  obtain ⟨hmem, hlen, _⟩ := DirectoryTree.lookup_mem hlookup
  have hrun := findRecord_holds hloads hlen hq
  rw [DirectoryTree.lookup, if_pos hlen, ← map_placed 0, List.find?_map, Option.map_eq_some_iff] at hlookup
  obtain ⟨⟨k, g⟩, hfind, rfl⟩ := hlookup
  simp only [Function.comp_def] at hfind
  rw [hfind] at hrun
  have hplaced := List.mem_of_find?_eq_some hfind
  have hshort := hloads.holds.isShort (k, g) hplaced
  obtain ⟨file', u, hrun', hframe, htype, hsize, hcluster⟩ := findFile_found hloads hplaced hrun file
  have hsilent' := Silent.findFile hrun'
  refine ⟨file', u, hrun', ht.fatFrame hframe (hsilent'.keeps.cache h.cache), hsilent', htype, fun hdir => ?_,
    fun hfile => ?_⟩
  · have hvalid := hdisk.valid _ (T.closed c h.isDirectory g hmem hdir)
    rw [hcluster, ht.fileSys, start_target hl hvalid]
  · -- the clusters are those of the file's chain
    obtain ⟨cs, hchain, hcontents⟩ := hfiles c h.isDirectory g hmem hfile
    have hfs := ht.fileSys
    have hstart : startCluster t.fileSys (subBuffer t.ClusterBuffer (32 * (k : Int))) = g.target := by
      rw [startCluster, hshort.recordCluster, hfs, if_congr toInt_toNat_eq_zero rfl rfl,
        start_target hl (hchain.valid _ List.mem_cons_self)]
    obtain ⟨file'', u', hrun'', _, _, _, _, hlists⟩ := findFile_walk (hfs ▸ hl) ht.cache.fatCached hrun rfl hstart
      (hfs ▸ hchain) file
    rw [hrun'] at hrun''
    cases hrun''
    have hfsu : u.fileSys = volumeHeader d.disk := by rw [hframe.eq, hfs]
    obtain ⟨v, hprint, hpframe, -⟩ := printFileLoop_returns d file'.clusters 8 (i := 0)
      (s := { u with dirClusterIndex := -1 }) (hfsu ▸ hl.sectorsPerCluster) file'.size
    obtain ⟨v', hprint', hout⟩ := @printFileLoop_data d 8 (g.target :: cs) { u with dirClusterIndex := -1 }
      (hfsu ▸ hl) (fun n _ => hgood n) hchain.valid 0 file'.clusters
      (fun i hi => by
        rw [Int.zero_add]
        rw [fatWalk_good hgood] at hlists
        refine ⟨fun hk => (hlists i (by rw [List.length_take]; omega)).1 hk,
          fun hk => (hlists i (by rw [List.length_take]; omega)).2 hk⟩) file'.size
    rw [hprint] at hprint'
    cases hprint'
    refine ⟨v, hprint, hpframe, ?_⟩
    dsimp only at hout
    rw [hout, hsize, hfsu, printed_contents, hcontents, hsilent'.out]

end Works

/-! ## Commands -/

/-- The driver is where the dialogue is, and has printed its text behind what was printed before. So many names are
    in the path that the way up to the root directory removes no others. -/
structure Converses (d : Drive) (T : DirectoryTree) (before : List UInt8) (s : FsState) (v : Dialogue) : Prop where
  works : Works d T s v.cluster
  path : HoldsPath s.sysPath v.path
  up : ∃ n ≤ v.path.length, T.parent^[n] v.cluster = 2
  out : s.out = before ++ v.text

namespace Converses

variable {before : List UInt8} {v : Dialogue} (h : Converses d T before s v)
include h

/-- Something is printed. -/
theorem print (text : List UInt8) : Converses d T before (printStrZ s text) (v.print text) :=
  ⟨h.works.withOut _, h.path, h.up, by rw [printStrZ, Dialogue.print, h.out, List.append_assoc]⟩

/-- Something is printed in two parts. -/
theorem printTwo (text text' : List UInt8) :
    Converses d T before (printStrZ (printStrZ s text) text') (v.print (text ++ text')) := by
  have htwo := (h.print text).print text'
  rw [Dialogue.print, Dialogue.print, List.append_assoc] at htwo
  exact htwo

/-- The path in the prompt. -/
theorem shown : getWorkingDirectory s = v.shown := by
  rw [getWorkingDirectory, Dialogue.shown, h.path.cstr]
  cases hp : v.path with
  | nil =>
    have hzero : s.sysPath 0 = 0 := by
      have hend := h.path.terminator
      rw [hp] at hend
      exact hend
    rw [if_pos hzero, if_pos rfl]
  | cons name p =>
    have hfirst : s.sysPath 0 = SLASH := by
      have hchar := h.path.chars 0 (by rw [hp]; exact Nat.succ_pos _)
      simp only [hp] at hchar
      exact hchar
    rw [if_neg (by rw [hfirst]; decide), if_neg (List.cons_ne_nil _ _)]

/-- The prompt. -/
theorem prompt : Converses d T before (prompt s) (v.print (v.shown ++ str ['$', ' '])) := by
  rw [SoreOS.prompt, h.shown]
  exact h.printTwo _ _

/-- A state that differs in nothing that matters. -/
theorem silent {t : FsState} (ht : Works d T t v.cluster) (hsilent : Silent d s t) : Converses d T before t v :=
  ⟨ht, hsilent.sysPath ▸ h.path, h.up, hsilent.out.trans h.out⟩

/-- Opening a directory that an entry leads to. -/
theorem opens (hdisk : T.OnDisk d.disk (volumeHeader d.disk)) (hl : StandardLayout (volumeHeader d.disk))
    (hgood : ∀ n, d.good n = true) {c : Nat} (hc : T.isDirectory c) {file : File}
    (hcluster : file.clusters 0 = (c : Nat)) :
    ∃ t, openDirectory d s file = .ok (true, t) ∧ Works d T t c ∧ Silent d s t := by
  have hfs := h.works.fileSys
  have hopen := openDirectory_good file hcluster (hfs ▸ hl.sectorsPerCluster) fun n _ => hgood n
  have hsilent := Silent.openDirectory hopen
  rw [clusterBase_valid (hfs ▸ hl) (hdisk.valid c hc)] at hopen hsilent
  refine ⟨_, hopen, ⟨hfs, h.works.currentDir, fun _ => ?_, fun hne => absurd rfl hne,
    hsilent.keeps.cache h.works.cache, hc⟩, hsilent⟩
  exact Mem.read_copyFrom _ _ _ _ (Nat.le_refl _)

/-- The way up from a directory that is entered by a name. -/
theorem up_enter {name : List UInt8} {f : LiveFile} (hf : f ∈ liveFiles (T.entries v.cluster))
    (hdir : f.directory = true) : ∃ n ≤ (v.path ++ [name]).length, T.parent^[n] f.target = 2 := by
  obtain ⟨n, hn, hup⟩ := h.up
  have hc := h.works.isDirectory
  rw [List.length_append, List.length_singleton]
  by_cases hdots : f.raw ∈ dotNames
  · obtain hdot | hdotDot := mem_dotNames.mp hdots
    · exact ⟨n, by omega, by rw [T.dot _ hc f hf hdot]; exact hup⟩
    · obtain ⟨hne, htarget⟩ := T.dotDot _ hc f hf hdotDot
      cases n with
      | zero => exact absurd hup hne
      | succ n => exact ⟨n, by omega, by rw [htarget]; exact hup⟩
  · refine ⟨n + 1, by omega, ?_⟩
    rw [Function.iterate_succ_apply, T.parent_target _ hc f hf hdir hdots]
    exact hup

include hdisk hl hgood

/-- `cd` to a directory. -/
theorem enter {contents : LiveFile → List UInt8} (hfiles : T.HoldsFiles d.disk (volumeHeader d.disk) contents)
    {q : List UInt8} (hq : 0 ∉ q) {f : LiveFile} (hlookup : T.lookup v.cluster q = some f) (hdir : f.directory = true)
    (file : File) : Mirrors (Converses d T before) (changeDirCMD d s q file) (DirectoryTree.enter v q f) := by
  obtain ⟨file', t, hfind, ht, hsilent, htype, hcluster, -⟩ :=
    h.works.findFile_some hdisk hl hgood hfiles hq hlookup file
  rw [LiveFile.type, if_pos hdir] at htype
  obtain ⟨hmem, -, hanswers⟩ := DirectoryTree.lookup_mem hlookup
  have hc := h.works.isDirectory
  have hlegal := T.legal _ hc f hmem
  obtain ⟨u, hopen, hu, hsilent'⟩ := (h.silent ht hsilent).opens hdisk hl hgood (T.closed _ hc f hmem hdir)
    (hcluster hdir)
  have hpath : HoldsPath u.sysPath v.path := by
    rw [hsilent'.sysPath, hsilent.sysPath]
    exact h.path
  have hout : u.out = before ++ v.text := by rw [hsilent'.out, hsilent.out, h.out]
  have hrun : changeDirCMD d s q file =
      if q = [DOT, DOT] then delPath u else if q = [DOT] then .ok u else addPath u q := by
    have hdotDot := strcmp_eq_zero_iff hq (show 0 ∉ [DOT, DOT] by decide)
    have hdot := strcmp_eq_zero_iff hq (show 0 ∉ [DOT] by decide)
    rw [changeDirCMD, hfind, ok_bind]
    dsimp only
    rw [if_pos rfl, htype, if_pos rfl, hopen, ok_bind]
    dsimp only
    rw [if_pos rfl, if_congr hdotDot rfl rfl, ite_not, if_congr hdot rfl rfl]
    rfl
  rw [hrun, DirectoryTree.enter]
  by_cases hdotDot : q = [DOT, DOT]
  · -- one name less
    subst hdotDot
    rw [if_pos rfl, if_pos rfl]
    rw [searchTerm_plain (.inr (.inl rfl))] at hanswers
    obtain ⟨hne, htarget⟩ := T.dotDot _ hc f hmem (hlegal.answers_dots (by decide) hanswers)
    obtain ⟨n, hn, hup⟩ := h.up
    cases n with
    | zero => exact absurd hup hne
    | succ n =>
      obtain hnil | ⟨p, name, hp⟩ := List.eq_nil_or_concat' v.path
      · rw [hnil] at hn
        exact absurd hn (Nat.not_succ_le_zero n)
      · rw [hp] at hpath hn ⊢
        obtain ⟨m, hdel, hpath'⟩ := delPath_holds hpath
        rw [hdel, List.dropLast_concat]
        refine .succeeds ⟨hu.withPath m, hpath', ⟨n, by simpa using hn, ?_⟩, hout⟩
        show T.parent^[n] f.target = 2
        rw [htarget]
        exact hup
  rw [if_neg hdotDot, if_neg hdotDot]
  by_cases hdot : q = [DOT]
  · -- the directory itself
    subst hdot
    rw [if_pos rfl, if_pos rfl]
    rw [searchTerm_plain (.inl rfl)] at hanswers
    have htarget := T.dot _ hc f hmem (hlegal.answers_dots (by decide) hanswers)
    refine .succeeds ⟨hu, hpath, ?_, hout⟩
    show ∃ n ≤ v.path.length, T.parent^[n] f.target = 2
    rw [htarget]
    exact h.up
  rw [if_neg hdot, if_neg hdot]
  split
  · rename_i hroom
    obtain ⟨m, hadd, hpath'⟩ := addPath_holds hpath (hlegal.component hq hanswers) hroom
    rw [hadd]
    exact .succeeds ⟨hu.withPath m, hpath', h.up_enter hmem hdir, hout⟩
  · rename_i hfull
    obtain ⟨fault, hadd⟩ := @addPath_fault _ _ hpath q (by omega)
    rw [hadd]
    exact .fails fault

/-- `cd` -/
theorem changeDir {contents : LiveFile → List UInt8} (hfiles : T.HoldsFiles d.disk (volumeHeader d.disk) contents)
    {q : List UInt8} (hq : 0 ∉ q) (file : File) :
    Mirrors (Converses d T before) (changeDirCMD d s q file) (T.changeDir v q) := by
  rw [DirectoryTree.changeDir]
  cases hlookup : T.lookup v.cluster q with
  | none =>
    obtain ⟨t, hfind, ht, hsilent⟩ := h.works.findFile_none hdisk hl hgood hq hlookup file
    -- the search has printed nothing
    have hrun : changeDirCMD d s q file = .ok (printStrZ (printStrZ t q) noSuchFile) := by
      rw [changeDirCMD, hfind, ok_bind]
      rfl
    rw [hrun]
    exact .succeeds ((h.silent ht hsilent).printTwo _ _)
  | some f =>
    dsimp only
    by_cases hdir : f.directory = true
    · rw [if_pos hdir]
      exact h.enter hdisk hl hgood hfiles hq hlookup hdir file
    · obtain ⟨file', t, hfind, ht, hsilent, htype, -⟩ :=
        h.works.findFile_some hdisk hl hgood hfiles hq hlookup file
      -- the type in the filled file is that of the entry
      rw [LiveFile.type, if_neg hdir] at htype
      have hrun : changeDirCMD d s q file = .ok (printStrZ (printStrZ t q) notADirectory) := by
        rw [changeDirCMD, hfind, ok_bind]
        dsimp only
        rw [htype]
        rfl
      rw [hrun, if_neg hdir]
      exact .succeeds ((h.silent ht hsilent).printTwo _ _)

/-- `cat` -/
theorem printFile {contents : LiveFile → List UInt8} (hfiles : T.HoldsFiles d.disk (volumeHeader d.disk) contents)
    {q : List UInt8} (hq : 0 ∉ q) (file : File) :
    ∃ t, printFileCMD d s q file = .ok t ∧ Converses d T before t (T.printFile contents v q) := by
  rw [DirectoryTree.printFile]
  cases hlookup : T.lookup v.cluster q with
  | none =>
    obtain ⟨t, hfind, ht, hsilent⟩ := h.works.findFile_none hdisk hl hgood hq hlookup file
    refine ⟨printStrZ (printStrZ t q) noSuchFile, ?_, (h.silent ht hsilent).printTwo _ _⟩
    rw [printFileCMD, hfind, ok_bind]
    rfl
  | some f =>
    obtain ⟨file', t, hfind, ht, hsilent, htype, -, hprints⟩ :=
      h.works.findFile_some hdisk hl hgood hfiles hq hlookup file
    dsimp only
    by_cases hdir : f.directory = true
    · rw [LiveFile.type, if_pos hdir] at htype
      rw [if_pos hdir]
      refine ⟨printStrZ (printStrZ t q) isADirectory, ?_, (h.silent ht hsilent).printTwo _ _⟩
      rw [printFileCMD, hfind, ok_bind]
      dsimp only
      rw [htype]
      rfl
    · -- the buffer is taken by the file, and no directory is open
      rw [LiveFile.type, if_neg hdir] at htype
      obtain ⟨u, hprint, hframe, hout⟩ := hprints (Bool.eq_false_of_not_eq_true hdir)
      rw [if_neg hdir]
      refine ⟨printStrZ u [NEWLINE], ?_, ?_⟩
      · rw [printFileCMD, hfind, ok_bind]
        dsimp only
        rw [if_pos rfl, htype, if_pos rfl, hprint]
        rfl
      · have hworks : Works d T u 2 := by
          rw [hframe]
          exact ⟨ht.fileSys, ht.currentDir, fun h0 => absurd h0 (show ¬ (-1 : Int) = 0 by decide), fun _ => rfl,
            ht.cache, T.root⟩
        have hpath : HoldsPath u.sysPath v.path := by
          rw [hframe]
          exact hsilent.sysPath ▸ h.path
        refine ⟨hworks.withOut _, hpath, ⟨0, Nat.zero_le _, rfl⟩, ?_⟩
        rw [printStrZ, hout, h.out]
        simp only [Dialogue.print, List.append_assoc]

/-- `ls` -/
theorem listFiles : ∃ t, SoreOS.listFiles d s = .ok t ∧ Converses d T before t (T.list v) := by
  obtain ⟨t, hrun, ht, hpath, hout⟩ := h.works.listFiles hdisk hl hgood
  refine ⟨t, hrun, ht, hpath ▸ h.path, h.up, ?_⟩
  rw [hout, h.out, List.append_assoc]
  rfl

/-- A round of the main loop. -/
theorem round {contents : LiveFile → List UInt8} (hfiles : T.HoldsFiles d.disk (volumeHeader d.disk) contents)
    (cmd : Command) : Mirrors (Converses d T before) (cmd.round d s) (T.answer contents v cmd) := by
  have hprompt := h.prompt
  rw [DirectoryTree.answer]
  by_cases hcd : cmd.buffer = str ['c', 'd']
  · rw [Command.round_cd hcd, if_pos hcd]
    exact hprompt.changeDir hdisk hl hgood hfiles cmd.line_chars cmd.file
  rw [if_neg hcd]
  by_cases hcat : cmd.buffer = str ['c', 'a', 't']
  · rw [Command.round_cat hcat, if_pos hcat]
    obtain ⟨t, hrun, ht⟩ := hprompt.printFile hdisk hl hgood hfiles cmd.line_chars cmd.file
    rw [hrun]
    exact .succeeds ht
  rw [if_neg hcat]
  by_cases hls : cmd.buffer = str ['l', 's']
  · rw [Command.round_ls hls, if_pos hls]
    obtain ⟨t, hrun, ht⟩ := hprompt.listFiles hdisk hl hgood
    rw [hrun]
    exact .succeeds ht
  · rw [Command.round_unknown hcd hcat hls, if_neg hls]
    exact .succeeds hprompt

/-- Any number of rounds. -/
theorem shell {contents : LiveFile → List UInt8} (hfiles : T.HoldsFiles d.disk (volumeHeader d.disk) contents)
    (cmds : List Command) :
    Mirrors (Converses d T before) (shell d s cmds) (cmds.foldlM (T.answer contents) v) :=
  run_mirrors (fun _ _ cmd h => Converses.round hdisk hl hgood h hfiles cmd) h cmds

end Converses

end Works

/-! ## Runs -/

/-- A state right after the file system was loaded. -/
theorem Booted.converses {d : Drive} {cs : List Nat} {s : FsState} (h : Booted d cs s) (hreach : Reachable d s)
    (T : DirectoryTree) : Converses d T s.out s {} :=
  ⟨⟨h.fileSys, h.root.cluster 0 (Nat.succ_pos _), fun _ => h.buffer, fun _ => rfl, hreach.cacheOk, T.root⟩,
    h.sysPath ▸ holdsPath_nil, ⟨0, Nat.zero_le _, rfl⟩, (List.append_nil _).symm⟩

/-- On a volume whose directories each fit in a cluster, with all reads succeeding, the driver answers every sequence
    of commands as the shell over the tree does, and fails exactly where that one has no next state. -/
theorem shell_follows {d : Drive} {T : DirectoryTree} {contents : LiveFile → List UInt8} (hid : identify d = some true)
    (hgood : ∀ n, d.good n = true) (hl : StandardLayout (volumeHeader d.disk)) {cs : List Nat}
    (hroot : FatChain d.disk (volumeHeader d.disk) (2 :: cs)) (hlen : (2 :: cs).length ≤ 8)
    (hdisk : T.OnDisk d.disk (volumeHeader d.disk)) (hfiles : T.HoldsFiles d.disk (volumeHeader d.disk) contents) :
    ∃ s, loadFileSystem d .boot = some (.ok (true, s)) ∧ ∀ cmds, Mirrors
      (fun t v => t.out = s.out ++ v.text ∧ HoldsPath t.sysPath v.path)
      (shell d s cmds) (cmds.foldlM (T.answer contents) {}) := by
  obtain ⟨s, hload, hboot⟩ := loadFileSystem_good hid hgood hl hroot hlen
  refine ⟨s, hload, fun cmds => ?_⟩
  have hrun := (hboot.converses (.load hload) T).shell hdisk hl hgood hfiles cmds
  exact hrun.mono fun t v h => ⟨h.out, h.path⟩

/-! ## The volume with a subdirectory -/

/-- The file `B` begins with the directory's own entry. -/
def subContents (f : LiveFile) : List UInt8 := if f.cluster = 4 then [DOT, SPACE, SPACE] else []

theorem subTree_holdsFiles : subTree.HoldsFiles subDisk defaultHeader subContents := by
  intro c _ f hf hfile
  have hf' : f ∈ liveFiles ((subFiles c).map .live) := hf
  rw [liveFiles_map_live] at hf'
  obtain ⟨_, rfl⟩ | ⟨_, rfl | rfl | rfl⟩ := mem_subFiles hf'
  · exact absurd hfile (by decide)
  · exact absurd hfile (by decide)
  · exact absurd hfile (by decide)
  · have hchain : FatChain subDisk defaultHeader [4] := by
      unfold subDisk
      exact ⟨⟨by decide, by decide⟩, fatNext_volume _ _ (by omega) (by omega)⟩
    refine ⟨[], hchain, ?_⟩
    have hdata : clusterData subDisk defaultHeader 4 = (ofString ((subFiles 4).flatMap shortRecord)).read 0 2048 := by
      unfold subDisk
      exact clusterData_volume _ _ (by omega)
    have htake : (clusterData subDisk defaultHeader 4).take 3 = [DOT, SPACE, SPACE] := by
      rw [hdata, Mem.take_read _ _ (by omega)]
      decide
    rw [contents, chainData, List.flatMap_cons, List.flatMap_nil, List.append_nil]
    exact htake.symm

/-- The listing behind the printed file is that of the root directory. -/
theorem shell_follows_cd_cat_ls : ∃ s t, loadFileSystem (healthyDrive subDisk) .boot = some (.ok (true, s)) ∧
    shell (healthyDrive subDisk) s [cdSub, catB, ls] = .ok t ∧
    t.out = s.out ++ (str ['/', '$', ' '] ++ str ['/', 'S', 'U', 'B', '$', ' '] ++ [DOT, SPACE, SPACE, NEWLINE] ++
      str ['/', 'S', 'U', 'B', '$', ' '] ++ (subEntry.raw ++ [NEWLINE])) := by
  have hhdr : volumeHeader (healthyDrive subDisk).disk = defaultHeader := volumeHeader_subDisk
  obtain ⟨s, hload, hruns⟩ := @shell_follows (healthyDrive subDisk) subTree subContents rfl
    (healthyDrive_good _) (hhdr ▸ defaultHeader_layout) [] (hhdr ▸ subDisk_root) (by decide) (hhdr ▸ subTree_onDisk)
    (hhdr ▸ subTree_holdsFiles)
  have hrun := hruns [cdSub, catB, ls]
  have hanswers : [cdSub, catB, ls].foldlM (subTree.answer subContents) {} =
      some ⟨[str ['S', 'U', 'B']], 2, str ['/', '$', ' '] ++ str ['/', 'S', 'U', 'B', '$', ' '] ++
      [DOT, SPACE, SPACE, NEWLINE] ++ str ['/', 'S', 'U', 'B', '$', ' '] ++ (subEntry.raw ++ [NEWLINE])⟩ := rfl
  rw [hanswers] at hrun
  generalize hshell : shell (healthyDrive subDisk) s [cdSub, catB, ls] = r at hrun
  cases hrun with
  | succeeds h => exact ⟨s, _, hload, hshell, h.1⟩

end SoreOS
