import SoreOS.Native.Drive
import SoreOS.Native.FAT32
import SoreOS.ForStd.Except

/-!
# File system driver

`drivers/filesys.c`: cluster chains in the File Allocation Table, directories as
32-byte records with long file names, and the system path. `findFile` and
`listFiles` scan a directory with the same loop and differ in what they do with
the record of a file.
-/

namespace SoreOS

open ForStd

def FTYPE_DIRECTORY : UInt8 := 1
def FTYPE_FILE : UInt8 := 2

/-- The end-of-chain mark the driver looks for. -/
def END_OF_CHAIN : Int := 0x0FFFFFFF

structure File where
  type : UInt8 := 0
  size : Int := 0
  clusters : Mem Int := fun _ => 0

/-- The globals of `filesys.c`, the number of waits the drive has answered, and
    the characters given to `putChar` so far. -/
structure FsState where
  fileSys : FAT32_HEADER
  FATSecIdx : Int := -1
  FATBuffer : Bytes := fun _ => 0
  ClusterSecIdx : Int := -1
  ClusterBuffer : Bytes := fun _ => 0
  sysPath : Bytes := fun _ => 0
  currentDir : File := {}
  dirClusterIndex : Int := -1
  waits : Nat := 0
  out : List UInt8 := []

/-- The state in which the kernel starts: all zero but for the three indexes. -/
def FsState.boot : FsState := { fileSys := readHeader fun _ => 0 }

/-- The characters of a string in memory, up to its terminator. -/
def cstr (m : Bytes) (size : Nat) : List UInt8 := (m.read 0 size).takeWhile (· ≠ 0)

/-- `strcmp`, for the characters in front of the two terminators; `char` is signed. -/
def strcmp : List UInt8 → List UInt8 → Int
  | [], [] => 0
  | a :: as, [] => if a.toInt8 < 0 then -1 else if 0 < a.toInt8 then 1 else strcmp as []
  | [], b :: bs => if 0 < b.toInt8 then -1 else if b.toInt8 < 0 then 1 else strcmp [] bs
  | a :: as, b :: bs =>
    if a.toInt8 < b.toInt8 then -1 else if b.toInt8 < a.toInt8 then 1 else strcmp as bs

/-! ## Sectors and clusters -/

/-- Loads a sector of the File Allocation Table.
    Updates the index of which sector is loaded. -/
def load_FATSect (d : Drive) (s : FsState) (offset : Int) : Except Fault (Bool × FsState) := do
  let LBA_Sector := toInt (s.fileSys.LBA_FAT_Location.toNat + offset)
  let (ok, m, n) ← readSector d s.waits 1 LBA_Sector .FATBuffer s.FATBuffer
  let s := { s with FATBuffer := m, waits := n }
  if ok then return (true, { s with FATSecIdx := offset })
  else return (false, s)

/-- Loads a cluster. Updates the index of which cluster is loaded. -/
def load_Cluster (d : Drive) (s : FsState) (index : Int) : Except Fault (Bool × FsState) := do
  let clusterSize : Int := s.fileSys.A_BF_BPB_SectorsPerCluster.toNat
  let offset := (index - 2) * clusterSize
  let LBA_Sector := toInt (s.fileSys.LBA_Cluster_Location.toNat + offset)
  let (ok, m, n) ← readSector d s.waits clusterSize LBA_Sector .ClusterBuffer s.ClusterBuffer
  let s := { s with ClusterBuffer := m, waits := n }
  if ok then return (true, { s with ClusterSecIdx := index })
  else return (false, s)

/-- Loads another sector from the FAT if it is out of reach. -/
def reachFATSect (d : Drive) (s : FsState) (FAT_offset : Int) : Except Fault (Bool × FsState) :=
  if FAT_offset ≠ s.FATSecIdx then load_FATSect d s FAT_offset else .ok (true, s)

/-- The loop of `traverseFAT` for `clusters[i]`, with `rounds` entries left. -/
def traverseFATLoop (d : Drive) :
    Nat → Int → FsState → Mem Int → Except Fault (Bool × Mem Int × FsState)
  | 0, _, s, clusters => return (true, clusters, s)
  | rounds + 1, i, s, clusters => do
    if clusters (i - 1) = END_OF_CHAIN then return (true, clusters, s)
    else
      let (ok, s) ← reachFATSect d s (clusters (i - 1) / 128)
      if ok then
        let cluster_offset := clusters (i - 1) % 128
        let next := toInt (readDD s.FATBuffer (4 * cluster_offset)).toNat
        traverseFATLoop d rounds (i + 1) s (clusters.set i next)
      else return (false, clusters, s)

/-- Finds the clusters of a file or directory, at most 8. -/
def traverseFAT (d : Drive) (s : FsState) (startCluster : Int) (clusters : Mem Int) :
    Except Fault (Bool × Mem Int × FsState) :=
  traverseFATLoop d 7 1 s (clusters.set 0 startCluster)

/-- Loads the first cluster of a directory and sets the directory cluster index to 0. -/
def openDirectory (d : Drive) (s : FsState) (directory : File) : Except Fault (Bool × FsState) := do
  let (ok, s) ← load_Cluster d s (directory.clusters 0)
  if ok then return (true, { s with dirClusterIndex := 0 })
  else return (false, s)

/-- The part of `loadFileSystem` behind the header: opens the root directory. -/
def openRoot (d : Drive) (s : FsState) : Except Fault (Bool × FsState) := do
  let (ok, clusters, s) ←
    traverseFAT d s (toInt s.fileSys.A_BF_BPB_RootDirStrtClus.toNat) s.currentDir.clusters
  let s := { s with currentDir := { s.currentDir with clusters := clusters } }
  if ok then openDirectory d s s.currentDir else return (false, s)

/-- Loads the file system on a drive and opens the root directory. `none` means
    that `identify` does not return. -/
def loadFileSystem (d : Drive) (s : FsState) : Option (Except Fault (Bool × FsState)) :=
  (identify d).map fun identified => do
    if identified then
      let (ok, buffer, n) ← readSector d s.waits 1 1 .sector fun _ => 0
      if ok then openRoot d { s with waits := n, fileSys := readHeader buffer }
      else return (false, { s with waits := n })
    else return (false, s)

/-! ## Names -/

def DOT : UInt8 := 46
def SLASH : UInt8 := 47

/-- The counting loop of `getShortName`, from `filename[i]` on. -/
def countDots : List UInt8 → Int → Int → Int → Bool → Int × Int × Bool
  | [], _, dotIdx, dotCount, caseOk => (dotIdx, dotCount, caseOk)
  | c :: cs, i, dotIdx, dotCount, caseOk =>
    if c = DOT then countDots cs (i + 1) i (dotCount + 1) caseOk
    else countDots cs (i + 1) dotIdx dotCount (caseOk && decide (65 ≤ c ∧ c ≤ 90))

/-- A string as an object of its own, with its terminator. -/
def ofString (s : List UInt8) : Bytes := fun i => s.getD i.toNat 0

/-- If an applicable filename is given, creates a ShortFileName in the buffer. -/
def getShortName (filename : List UInt8) (buffer : Bytes) : Bool × Bytes :=
  let len : Int := filename.length
  let (dotIdx, dotCount, caseOk) := countDots filename 0 0 0 true
  -- spaces, unless a name is copied over them
  let buffer := (memset buffer 0 SPACE 11).set 11 0
  -- the current and the parent directory
  if len = 1 ∧ dotCount = 1 then (true, buffer.set 0 DOT)
  else if len = 2 ∧ dotCount = 2 then (true, (buffer.set 0 DOT).set 1 DOT)
  -- a name without and a name with an extension
  else if caseOk ∧ dotCount = 0 ∧ len ≤ 8 then
    (true, memcpyObj buffer 0 (ofString filename) 0 len.toNat)
  else if caseOk ∧ dotCount = 1 ∧ dotIdx > 0 ∧ dotIdx ≤ 9 ∧ len - dotIdx ≤ 3 then
    let buffer := memcpyObj buffer 0 (ofString filename) 0 (dotIdx - 1).toNat
    (true, memcpyObj buffer 0 (ofString filename) (dotIdx + 1) (len - dotIdx).toNat)
  else (false, buffer)

/-! ## Records -/

/-- `record[OFFSET_ATTRIB]` -/
def attrib (r : Bytes) : UInt8 := r 0x0B

/-- `(attrib & FLAG_LFN) == FLAG_LFN`: the record is a piece of a long file name. -/
def isLFN (r : Bytes) : Bool := attrib r &&& 0x0F = 0x0F

/-- Positions of the characters of a long file name in a record. -/
def LFN_idxs : List Int := [1, 3, 5, 7, 9, 14, 16, 18, 20, 22, 24, 28, 30]

/-- A character of a long file name: only those of one byte are supported. -/
def LFNChar (r : Bytes) (bytePos : Int) : UInt8 := if r (bytePos + 1) = 0 then r bytePos else 0

/-- The loop that reads the characters at some positions into `longName`, from
    index `idx` on. -/
def readLFN (r : Bytes) : List Int → Int → Bytes → Except Fault Bytes
  | [], _, longName => return longName
  | bytePos :: positions, idx, longName => do
    let longName ← store .longName longName idx (LFNChar r bytePos)
    readLFN r positions (idx + 1) longName

/-- The raw short name, as the 12-byte buffer `shortName` holds it. -/
def shortName (r : Bytes) : List UInt8 := cstr (memcpyObj (fun _ => 0) 0 r 0 11) 12

/-- The start cluster of a record. -/
def recordCluster (r : Bytes) : Int :=
  toInt (((readDW r 0x14).toUInt32 <<< 16 ||| (readDW r 0x1A).toUInt32).toNat)

/-! ## The scanning loop -/

/-- The local variables of the two scanning functions. -/
structure Scan where
  recordOffset : Int := 0
  LongFileNameIdx : Int := 0
  longName : Bytes := fun _ => 0

/-- What a function does with the record of a file at an offset, given its long name:
    it may end the scan with a result. -/
abbrev Visit (R : Type) := FsState → Int → List UInt8 → Option R × FsState

/-- How one round of the loop ends. -/
inductive Round (R : Type) where
  | ended (result : Option R) (s : FsState)
  | next (s : FsState) (v : Scan)

variable {R : Type}

/-- The end of a round: moves to the next record, and at the end of the cluster
    fetches the next one. -/
def nextRecord (d : Drive) (s : FsState) (v : Scan) : Except Fault (Round R) := do
  let v := { v with recordOffset := v.recordOffset + 32 }
  let clusterBytes : Int :=
    s.fileSys.A_BF_BPB_SectorsPerCluster.toNat * s.fileSys.A_BF_BPB_BytesPerSector.toNat
  -- the end of the cluster
  if v.recordOffset = clusterBytes then
    if s.dirClusterIndex ≠ 8 then
      let cluster ← load .clusters s.currentDir.clusters (s.dirClusterIndex + 1)
      if cluster ≠ END_OF_CHAIN then
        let (ok, s) ← load_Cluster d s cluster
        if ok then
          return .next { s with dirClusterIndex := s.dirClusterIndex + 1 }
            -- the offset stays behind the cluster that was read
            { v with recordOffset := v.recordOffset + 0 }
        else return .ended none s
      else return .ended none s
    else return .ended none s
  else return .next s v

/-- The sequence number that is expected when a record starts with the byte `first`:
    a record marked as the start of a name sets it. -/
def expectedIdx (first : UInt8) (LongFileNameIdx : Int) : Int :=
  if first &&& 0xF0 = 0x40 then (first &&& 0x0F).toNat else LongFileNameIdx

/-- One round of the loop. The record's later bytes are in the array when its first
    one is. -/
def scanRound (d : Drive) (visit : Visit R) (s : FsState) (v : Scan) : Except Fault (Round R) := do
  let first ← load .ClusterBuffer s.ClusterBuffer v.recordOffset
  let r := subBuffer s.ClusterBuffer v.recordOffset
  -- no more records
  if first = 0 then return .ended none s
  -- a deleted record
  else if first = 0xE5 then nextRecord d s v
  else if isLFN r then
    if (first &&& 0x0F).toNat = expectedIdx first v.LongFileNameIdx then
      -- 13 characters of the long name
      let idx := expectedIdx first v.LongFileNameIdx - 1
      let longName ← readLFN r LFN_idxs (idx * 13) v.longName
      nextRecord d s { v with LongFileNameIdx := idx, longName := longName }
    else return .ended none s
  else
    match visit s v.recordOffset (cstr v.longName 105) with
    | (some result, s) => return .ended (some result) s
    -- the long name is reset for the next file
    | (none, s) => nextRecord d s { v with longName := memset v.longName 0 0 105 }

/-- The loop. The offset grows in every round and faults at the end of the array, so
    the rounds never run out. -/
def scanLoop (d : Drive) (visit : Visit R) :
    Nat → FsState → Scan → Except Fault (Option R × FsState)
  | 0, _, v => .error ⟨.ClusterBuffer, v.recordOffset⟩
  | rounds + 1, s, v => do
    match ← scanRound d visit s v with
    | .ended result s => return (result, s)
    | .next s v => scanLoop d visit rounds s v

/-- Loads the first cluster of the current directory to start a traversal. -/
def loadFirst (d : Drive) (s : FsState) : Except Fault (Bool × FsState) :=
  if s.dirClusterIndex ≠ 0 then load_Cluster d s (s.currentDir.clusters 0) else .ok (true, s)

/-- A scan of the current directory: the result that ended it, if one did. -/
def scan (d : Drive) (visit : Visit R) (s : FsState) : Except Fault (Option R × FsState) := do
  let (ok, s) ← loadFirst d s
  if ok then scanLoop d visit 65 s {} else return (none, s)

/-! ## The directory functions -/

/-- The branch of `findFile` that fills the file structure from a record. -/
def fillFile (d : Drive) (s : FsState) (r : Bytes) (file : File) : Except Fault (File × FsState) := do
  let cluster := recordCluster r
  -- the parent of a directory in the root is recorded as cluster 0
  let cluster := if cluster = 0 then toInt s.fileSys.A_BF_BPB_RootDirStrtClus.toNat else cluster
  let type := if attrib r &&& 0x10 ≠ 0 then FTYPE_DIRECTORY else FTYPE_FILE
  let size := toInt (readDD r 0x1C).toNat
  -- the result of the traversal is not looked at
  let (_, clusters, s) ← traverseFAT d s cluster file.clusters
  return ({ type := type, size := size, clusters := clusters }, s)

/-- The term that `findFile` compares names with. -/
def searchTerm (filename : List UInt8) : List UInt8 :=
  let (short, buffer) := getShortName filename fun _ => 0
  if short then cstr buffer 105 else filename

/-- Whether a file's short name or its long name, if it has one, is the search term. -/
def nameMatches (name : List UInt8) (r : Bytes) (longName : List UInt8) : Bool :=
  strcmp (shortName r) name = 0 || (longName ≠ [] && strcmp longName name = 0)

/-- `findFile` ends its scan at the record of a file that matches. -/
def findVisit (name : List UInt8) : Visit Int := fun s recordOffset longName =>
  if nameMatches name (subBuffer s.ClusterBuffer recordOffset) longName then (some recordOffset, s)
  else (none, s)

/-- The search of `findFile`: the offset of the record it ends at. -/
def findRecord (d : Drive) (s : FsState) (filename : List UInt8) :
    Except Fault (Option Int × FsState) :=
  if filename.length > 104 then return (none, s)
  else scan d (findVisit (searchTerm filename)) s

/-- Finds a file in the current directory by name and fills the file structure.
    Returns 0 on success, -1 on error. -/
def findFile (d : Drive) (s : FsState) (filename : List UInt8) (file : File) :
    Except Fault (Int × File × FsState) := do
  match ← findRecord d s filename with
  | (none, s) => return (-1, file, s)
  | (some recordOffset, s) =>
    let (file, s) ← fillFile d s (subBuffer s.ClusterBuffer recordOffset) file
    return (0, file, s)

/-- `listFiles` prints a line for each file. -/
def listVisit : Visit Unit := fun s recordOffset longName =>
  let name :=
    if longName = [] then shortName (subBuffer s.ClusterBuffer recordOffset) else longName
  (none, { s with out := s.out ++ name ++ [NEWLINE] })

/-- Lists files in the current directory. -/
def listFiles (d : Drive) (s : FsState) : Except Fault FsState := do
  let (_, s) ← scan d listVisit s
  return s

/-- The loop of `printFile` from `clusters[i]` on. -/
def printFileLoop (d : Drive) (clusters : Mem Int) :
    Nat → Int → FsState → Int → Except Fault FsState
  | 0, _, s, _ => return s
  | rounds + 1, i, s, size => do
    if clusters i ≠ END_OF_CHAIN then
      -- a failed load goes unnoticed
      let (_, s) ← load_Cluster d s (clusters i)
      let length := if size > 2048 then 2048 else size
      let s := { s with out := s.out ++ s.ClusterBuffer.read 0 length.toNat }
      -- the counter is an `int`: it comes back as a positive number
      printFileLoop d clusters rounds (i + 1) s (toInt (size - 2048))
    else return s

/-- Prints the contents of the file on the screen. -/
def printFile (d : Drive) (s : FsState) (file : File) : Except Fault FsState :=
  printFileLoop d file.clusters 8 0 { s with dirClusterIndex := -1 } file.size

/-! ## The system path -/

/-- Returns the system path. -/
def getWorkingDirectory (s : FsState) : List UInt8 :=
  if s.sysPath 0 = 0 then [SLASH] else cstr s.sysPath 256

/-- `strcpy` into `sysPath`, from index `i` on. -/
def strcpyPath (sysPath : Bytes) (i : Int) : List UInt8 → Except Fault Bytes
  | [] => store .sysPath sysPath i 0
  | c :: cs => do
    let sysPath ← store .sysPath sysPath i c
    strcpyPath sysPath (i + 1) cs

/-- Adds a new directory name to the system path. -/
def addPath (s : FsState) (name : List UInt8) : Except Fault FsState := do
  let len : Int := (cstr s.sysPath 256).length
  let m ← store .sysPath s.sysPath len SLASH
  let m ← strcpyPath m (len + 1) name
  return { s with sysPath := m }

/-- The loop of `delPath`: clears characters down to the last `/`. -/
def delPathLoop (sysPath : Bytes) : Nat → Int → Except Fault Bytes
  | 0, i => .error ⟨.sysPath, i⟩
  | rounds + 1, i => do
    let c ← load .sysPath sysPath i
    if c ≠ SLASH then
      let m ← store .sysPath sysPath i 0
      delPathLoop m rounds (i - 1)
    else store .sysPath sysPath i 0

/-- Removes the last directory name from the system path. -/
def delPath (s : FsState) : Except Fault FsState := do
  let m ← delPathLoop s.sysPath 257 (cstr s.sysPath 256).length
  return { s with sysPath := m }

end SoreOS
