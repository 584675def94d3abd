import SoreOS.Native.FAT32

/-!
# Media utility

`Format.cpp`, `DiskUtil.cpp` and the drive functions of `FAT32.cpp`: building the
boot image and the file system on a physical drive. What the Windows calls
answer is given from outside; an opened handle is named by the number of the
call that opened it.
-/

namespace SoreOS.MediaUtility

open ForStd

/-- What the program finds around it. -/
structure Windows where
  /-- Whether the `n`th call succeeds. -/
  succeeds : Nat → Bool
  /-- `TracksPerCylinder` and `SectorsPerTrack`, as the `n`th call reports them. -/
  geometry : Nat → UInt32 × UInt32
  /-- The `DeviceNumber` the `n`th call reports. -/
  deviceNumber : Nat → UInt32
  /-- `(int)time(NULL)` -/
  time : Int
  /-- The contents of the file `boot-loader`, if it can be opened. -/
  bootLoader : Option (List UInt8)
  /-- What local arrays hold before they are set. -/
  stack : Bytes

/-- What the calls change: the bytes of the physical drive, and which handles
    `CreateFile` opened and `CloseHandle` closed. -/
structure Machine where
  calls : Nat := 0
  drive : Bytes
  opened : List Nat := []
  closed : List Nat := []

/-- A `HANDLE`; `none` is `INVALID_HANDLE_VALUE`. -/
abbrev Handle := Option Nat

/-! ## Windows calls -/

def createFile (w : Windows) (m : Machine) : Handle × Machine :=
  if w.succeeds m.calls then
    (some m.calls, { m with calls := m.calls + 1, opened := m.opened ++ [m.calls] })
  else (none, { m with calls := m.calls + 1 })

/-- An invalid handle fails. -/
def deviceIoControl (w : Windows) (m : Machine) (hdevice : Handle) : Bool × Machine :=
  (hdevice.isSome && w.succeeds m.calls, { m with calls := m.calls + 1 })

def closeHandle (m : Machine) (hdevice : Handle) : Machine :=
  { m with closed := m.closed ++ hdevice.toList }

/-- `SetFilePointer` to a byte offset, then `WriteFile`. Assumed of the system: a call that fails has written
    nothing, and one that succeeds all of the buffer. -/
def writeFile (w : Windows) (m : Machine) (offset : Int) (buffer : Bytes) (size : Nat) :
    Bool × Machine :=
  if w.succeeds m.calls then
    (true, { m with calls := m.calls + 1, drive := memcpyObj m.drive offset buffer 0 size })
  else (false, { m with calls := m.calls + 1 })

/-! ## `DiskUtil.cpp` -/

/-- The loop of `findVolumes` over the letters still to try. -/
def findVolumesFrom (w : Windows) (driveNum : Int) (m : Machine) :
    List Char → List (Char × Handle) × Machine
  | [] => ([], m)
  | letter :: letters =>
    let (vol, m) := createFile w m
    if vol = none then findVolumesFrom w driveNum m letters
    else
      let info := w.deviceNumber m.calls
      let (res, m) := deviceIoControl w m vol
      if res && info = UInt32.ofInt driveNum then
        let (volumes, m) := findVolumesFrom w driveNum m letters
        ((letter, vol) :: volumes, m)
      else findVolumesFrom w driveNum (closeHandle m vol) letters

/-- Identifies the volumes with drive letters that belong to a drive number. -/
def findVolumes (w : Windows) (driveNum : Int) (m : Machine) : List (Char × Handle) × Machine :=
  findVolumesFrom w driveNum m ['A', 'B', 'C', 'D', 'E', 'F', 'G', 'H', 'I', 'J', 'K', 'L', 'M',
    'N', 'O', 'P', 'Q', 'R', 'S', 'T', 'U', 'V', 'W', 'X', 'Y', 'Z']

/-- Locks and dismounts the volumes. -/
def lockVolumes (w : Windows) (m : Machine) : List (Char × Handle) → Int × Machine
  | [] => (0, m)
  | (_, vol) :: volumes =>
    let (res, m) := deviceIoControl w m vol
    if res = false then (-1, m)
    else
      let (res, m) := deviceIoControl w m vol
      if res = false then (-1, m) else lockVolumes w m volumes

/-- Closes the volumes. -/
def unlockVolumes (m : Machine) (volumes : List (Char × Handle)) : Machine :=
  volumes.foldl (fun m vol => closeHandle m vol.2) m

/-- Writes data to a physical drive from a specific LBA sector. -/
def writePhysicalDrive (w : Windows) (m : Machine) (LBA : Int) (buffer : Bytes) (size : Nat) :
    Int × Machine :=
  let (hdevice, m) := createFile w m
  if hdevice = none then (-1, m)
  else
    let (res, m) := writeFile w m (LBA * 512) buffer size
    if res = false then (-1, closeHandle m hdevice) else (0, closeHandle m hdevice)

/-! ## `FAT32.cpp` -/

/-- Gets the heads and track information out of the drive. The test `hdevice <= 0`
    holds for the null handle only, which `CreateFile` does not return. -/
def setDriveInformation (w : Windows) (m : Machine) (hdr : FAT32_HEADER) :
    Int × FAT32_HEADER × Machine :=
  let (hdevice, m) := createFile w m
  let disk := w.geometry m.calls
  let (ret, m) := deviceIoControl w m hdevice
  if ret = false then (-1, hdr, m)
  else
    (0, { hdr with
      A_BF_BPB_Heads := disk.1.toUInt16
      A_BF_BPB_SectorsPerTrack := disk.2.toUInt16 }, closeHandle m hdevice)

/-- The first sector of an empty FAT. -/
def clearFAT (stack : Bytes) : Bytes :=
  let FAT := memset stack 0 0 512
  -- the two reserved entries, and the root folder's only cluster
  let FAT := writeDD FAT 0x00 0x0FFFFFF8
  let FAT := writeDD FAT 0x04 0xFFFFFFFF
  writeDD FAT 0x08 0x0FFFFFFF

/-- Sets the FAT cluster indexes to default values and empties the root folder. -/
def clearStorage (w : Windows) (m : Machine) (header : FAT32_HEADER) : Int × Machine :=
  let FAT1_begin := toInt header.LBA_FAT_Location.toNat
  let FAT2_begin := toInt (header.A_BF_BPB_BigSectorsPerFat.toNat + FAT1_begin)
  let Cluster_begin := toInt header.LBA_Cluster_Location.toNat
  let FAT := clearFAT w.stack
  let Root := memset w.stack 0 0 2048
  let (res, m) := writePhysicalDrive w m FAT1_begin FAT 512
  if res ≠ 0 then (-1, m)
  else
    let (res, m) := writePhysicalDrive w m FAT2_begin FAT 512
    if res ≠ 0 then (-1, m)
    else
      let (res, m) := writePhysicalDrive w m Cluster_begin Root 2048
      if res ≠ 0 then (-1, m) else (0, m)

/-! ## `Format.cpp` -/

/-- Adds a partition to the buffer. -/
def addPartition (header : FAT32_HEADER) (partitiontable : Bytes) : Bytes :=
  let endSector := toInt (header.A_BF_BPB_BigTotalSectors + 2).toNat
  -- start sector of the partition (CHS)
  let b := writeDB partitiontable 0x1BF 0x00
  let b := writeDB b 0x1C0 0x00
  let b := writeDB b 0x1C1 0x02
  -- file system type (FAT32)
  let b := writeDB b 0x1C2 0x0C
  -- end sector of the partition (CHS)
  let b := writeDB b 0x1C3 (UInt8.ofInt (endSector.tdiv 16065))
  let b := writeDB b 0x1C4 (UInt8.ofInt ((endSector.tdiv 63).tmod 255))
  let b := writeDB b 0x1C5 (UInt8.ofInt (endSector.tmod 63))
  -- start and end sector by logical block addressing
  let b := writeDD b 0x1C6 0x01
  let b := writeDD b 0x1CA header.A_BF_BPB_BigTotalSectors
  -- boot signature
  let b := writeDB b 0x1FE 0x55
  writeDB b 0x1FF 0xAA

/-- Adds an FSInfo structure to the buffer, which starts at byte `base`. -/
def addFSInfo (header : FAT32_HEADER) (buffer : Bytes) (base : Int) : Bytes :=
  -- first signature
  let b := writeDB buffer (base + 0x00) 0x52
  let b := writeDB b (base + 0x01) 0x52
  let b := writeDB b (base + 0x02) 0x61
  let b := writeDB b (base + 0x03) 0x41
  -- signature of the sector
  let b := writeDB b (base + 0x1E4) 0x72
  let b := writeDB b (base + 0x1E5) 0x72
  let b := writeDB b (base + 0x1E6) 0x41
  let b := writeDB b (base + 0x1E7) 0x61
  -- number of free clusters
  let b := writeDD b (base + 0x1E8)
    (header.A_BF_BPB_BigTotalSectors / header.A_BF_BPB_SectorsPerCluster.toUInt32 - 1)
  -- most recently allocated cluster
  let b := writeDB b (base + 0x1EC) 0x02
  -- boot signature
  let b := writeDB b (base + 0x1FE) 0x55
  writeDB b (base + 0x1FF) 0xAA

/-- A number as two decimal digits, one in each half of the byte. -/
def decimalDigits (n : Int) : UInt8 := UInt8.ofInt (n.tdiv 10 * 16 + n.tmod 10)

/-- The current time as a volume ID. -/
def volumeID (now : Int) : UInt32 :=
  let ss := UInt8.ofInt (now.tmod 60)
  let mm := UInt8.ofInt ((now.tdiv 60).tmod 60)
  let hh := UInt8.ofInt ((now.tdiv 3600).tmod 24)
  let dd := UInt16.ofInt (now.tdiv 86400)
  let id : Bytes := fun _ => 0
  let id := writeDB id 3 (decimalDigits ss.toNat)
  let id := writeDB id 2 (decimalDigits mm.toNat)
  let id := writeDB id 1 (decimalDigits hh.toNat)
  readDD (writeDB id 0 (decimalDigits dd.toNat)) 0

/-- Adds a file system to the buffer `filesystem`, three sectors long. -/
def addFileSystem (w : Windows) (header : FAT32_HEADER) (hiddenSectors : Int)
    (filesystem : Bytes) : FAT32_HEADER × Bytes :=
  let header := { header with
    A_BF_BPB_VolumeID := volumeID w.time
    A_BF_BPB_HiddenSectors := UInt32.ofInt hiddenSectors }
  let b := writeBinary header filesystem
  let b := addFSInfo header b 512
  let b := writeDB b 1534 0x55
  (header, writeDB b 1535 0xAA)

/-- Reads the boot-loader code to a buffer, at most two sectors of it. -/
def readBootLoader (w : Windows) (buffer : Bytes) : Int × Bytes :=
  match w.bootLoader with
  | none => (-1, buffer)
  | some code =>
    (0, memcpyObj buffer 0 (fun i => code.getD i.toNat 0) 0 (min code.length (2 * 512)))

/-- Adds a signature on the Master Boot Record. -/
def addSignature (data : Bytes) (idx : Int) (sig : List Char) (length : Nat) : Bytes :=
  writeArray data idx (chars length sig)

/-- The 13 sectors of boot code and file system that `build` writes first, and
    the header as it stands afterwards. -/
def image (w : Windows) (diskpart : FAT32_HEADER) (data : Bytes) : FAT32_HEADER × Bytes :=
  let data := addPartition diskpart data
  let data := addSignature data 0x1B6 ['S', 'o', 'r', 'e', '-', 'O', 'S'] 7
  let (diskpart, filesystem) := addFileSystem w diskpart 1 (subBuffer data (1 * 512))
  let data := memcpyObj data (1 * 512) filesystem 0 (3 * 512)
  (diskpart, memcpy data (7 * 512) (1 * 512) (3 * 512))

/-- Builds the boot code and the file system.
    Returns -1 on fail, 0 on success. -/
def build (w : Windows) (m : Machine) (driveNum : Int) : Int × Machine :=
  let data := memset w.stack 0 0 (13 * 512)
  let diskpart := setVolumeName {} ['S', 'o', 'r', 'e', '-', 'O', 'S']
  let diskpart := setPartitionSize diskpart 8388608
  let (res, diskpart, m) := setDriveInformation w m diskpart
  if res = -1 then (-1, m)
  else
    let (res, data) := readBootLoader w data
    if res = -1 then (-1, m)
    else
      let (diskpart, data) := image w diskpart data
      let (volumes, m) := findVolumes w driveNum m
      let (res, m) := lockVolumes w m volumes
      if res ≠ 0 then (-1, unlockVolumes m volumes)
      else
        let (res, m) := writePhysicalDrive w m 0 data (13 * 512)
        if res ≠ 0 then (-1, m)
        else
          let (res, m) := clearStorage w m diskpart
          if res = -1 then (-1, m) else (0, unlockVolumes m volumes)

end SoreOS.MediaUtility
