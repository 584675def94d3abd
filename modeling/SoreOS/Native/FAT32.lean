import SoreOS.Native.CString
import SoreOS.ForStd.LittleEndian

/-!
# The FAT32 header

The volume header of `FAT32.h`, the media utility's functions that fill it and
write it to a sector, and the kernel's `readHeader`, which reads it back. `DW`,
`DB` and `DD` are 16, 8 and 32 bits wide.
-/

namespace SoreOS

open ForStd

/-! ## Fields of a buffer -/

/-- `*(DB*)(buffer + off)` -/
def readDB (buffer : Bytes) (off : Int) : UInt8 := UInt8.ofNat (buffer.loadLE off 1)

/-- `*(DW*)(buffer + off)` -/
def readDW (buffer : Bytes) (off : Int) : UInt16 := UInt16.ofNat (buffer.loadLE off 2)

/-- `*(DD*)(buffer + off)` -/
def readDD (buffer : Bytes) (off : Int) : UInt32 := UInt32.ofNat (buffer.loadLE off 4)

/-- The `n` bytes of an array field. -/
def readArray (buffer : Bytes) (off : Int) (n : Nat) : Fin n → UInt8 := fun i => buffer (off + i.val)

/-- `*(DB*)(buffer + off) = v` -/
def writeDB (buffer : Bytes) (off : Int) (v : UInt8) : Bytes := buffer.storeLE off 1 v.toNat

/-- `*(DW*)(buffer + off) = v` -/
def writeDW (buffer : Bytes) (off : Int) (v : UInt16) : Bytes := buffer.storeLE off 2 v.toNat

/-- `*(DD*)(buffer + off) = v` -/
def writeDD (buffer : Bytes) (off : Int) (v : UInt32) : Bytes := buffer.storeLE off 4 v.toNat

/-- The elements of an array as an object of its own. -/
def ofArray {n : Nat} (a : Fin n → UInt8) : Bytes :=
  fun i => if h : i.toNat < n then a ⟨i.toNat, h⟩ else 0

/-- `for (idx = 0; idx < n; idx++) buffer[off + idx] = a[idx]` -/
def writeArray {n : Nat} (buffer : Bytes) (off : Int) (a : Fin n → UInt8) : Bytes :=
  memcpyObj buffer off (ofArray a) 0 n

/-- `buffer + base`, as a buffer of its own. -/
def subBuffer (buffer : Bytes) (base : Int) : Bytes := fun i => buffer (base + i)

/-! ## The header -/

/-- A string that fills an array field: its characters, then zeros. -/
def chars (n : Nat) (s : List Char) : Fin n → UInt8 := fun i => (s.getD i.val '\x00').toNat.toUInt8

structure FAT32_HEADER where
  OEM_NAME : Fin 8 → UInt8 := chars 8 [' ']
  A_BF_BPB_BytesPerSector : UInt16 := 512
  A_BF_BPB_SectorsPerCluster : UInt8 := 4
  /-- Sectors reserved for the boot code. -/
  A_BF_BPB_ReservedSectors : UInt16 := 12
  A_BF_BPB_NumberOfFATs : UInt8 := 2
  A_BF_BPB_RootEntries : UInt16 := 0
  A_BF_BPB_TotalSectors : UInt16 := 0
  A_BF_BPB_MediaDescriptor : UInt8 := 0xF8
  A_BF_BPB_SectorsPerFAT : UInt16 := 0
  A_BF_BPB_SectorsPerTrack : UInt16 := 0
  A_BF_BPB_Heads : UInt16 := 0
  A_BF_BPB_HiddenSectors : UInt32 := 0
  /-- Sectors in the partition. -/
  A_BF_BPB_BigTotalSectors : UInt32 := 0
  /-- Sector size of each FAT. -/
  A_BF_BPB_BigSectorsPerFat : UInt32 := 0
  A_BF_BPB_ExtFlags : UInt16 := 0
  A_BF_BPB_FS_Version : UInt16 := 0
  /-- Cluster of the root directory. -/
  A_BF_BPB_RootDirStrtClus : UInt32 := 2
  A_BF_BPB_FSInfoSec : UInt16 := 1
  A_BF_BPB_BkUpBootSec : UInt16 := 6
  A_BF_BPB_Reserved1 : UInt16 := 0
  A_BF_BPB_Reserved2 : UInt16 := 0
  A_BF_BPB_Reserved3 : UInt16 := 0
  A_BF_BPB_DriveNum : UInt8 := 0x80
  A_BF_BPB_Reserved4 : UInt8 := 0
  A_BF_BPB_Signature : UInt8 := 0x29
  /-- Timestamp of creation. -/
  A_BF_BPB_VolumeID : UInt32 := 0
  A_BF_BPB_VolumeLabel : Fin 11 → UInt8 := chars 11 [' ']
  A_BF_BPB_FAT_Name : Fin 8 → UInt8 := chars 8 ['F', 'A', 'T', '3', '2', ' ', ' ', ' ']
  LBA_FAT_Location : UInt32 := 0
  LBA_Cluster_Location : UInt32 := 0
  Scale_SectorsPerCluster : UInt8 := 2
  Mask_SectorRotation : UInt8 := 3

/-- Sets the volume label to a name, padded by spaces. -/
def setVolumeName (hdr : FAT32_HEADER) (name : List Char) : FAT32_HEADER :=
  { hdr with A_BF_BPB_VolumeLabel := fun idx => (name.getD idx.val ' ').toNat.toUInt8 }

/-- Sets the number of sectors in the partition.
    Calculates the sectors it takes to store the FAT. -/
def setPartitionSize (hdr : FAT32_HEADER) (sectors : Int) : FAT32_HEADER :=
  let sectorsPerFat := UInt32.ofInt
    ((sectors.tdiv hdr.A_BF_BPB_SectorsPerCluster.toNat).tdiv 128 + 1)
  let fatLocation := UInt32.ofInt (1 + hdr.A_BF_BPB_ReservedSectors.toNat)
  { hdr with
    A_BF_BPB_BigTotalSectors := UInt32.ofInt sectors
    A_BF_BPB_BigSectorsPerFat := sectorsPerFat
    LBA_FAT_Location := fatLocation
    LBA_Cluster_Location := fatLocation + 2 * sectorsPerFat }

/-- Loads the header to a buffer, with a jump instruction and a signature. -/
def writeBinary (hdr : FAT32_HEADER) (buffer : Bytes) : Bytes :=
  let b := writeDB buffer 0x00 0xEB
  let b := writeDB b 0x01 0x64
  let b := writeDB b 0x02 0x90
  let b := writeArray b 0x03 hdr.OEM_NAME
  let b := writeDW b 0x0B hdr.A_BF_BPB_BytesPerSector
  let b := writeDB b 0x0D hdr.A_BF_BPB_SectorsPerCluster
  let b := writeDW b 0x0E hdr.A_BF_BPB_ReservedSectors
  let b := writeDB b 0x10 hdr.A_BF_BPB_NumberOfFATs
  let b := writeDW b 0x11 hdr.A_BF_BPB_RootEntries
  let b := writeDW b 0x13 hdr.A_BF_BPB_TotalSectors
  let b := writeDB b 0x15 hdr.A_BF_BPB_MediaDescriptor
  let b := writeDW b 0x16 hdr.A_BF_BPB_SectorsPerFAT
  let b := writeDW b 0x18 hdr.A_BF_BPB_SectorsPerTrack
  let b := writeDW b 0x1A hdr.A_BF_BPB_Heads
  let b := writeDD b 0x1C hdr.A_BF_BPB_HiddenSectors
  let b := writeDD b 0x20 hdr.A_BF_BPB_BigTotalSectors
  let b := writeDD b 0x24 hdr.A_BF_BPB_BigSectorsPerFat
  let b := writeDW b 0x28 hdr.A_BF_BPB_ExtFlags
  let b := writeDW b 0x2A hdr.A_BF_BPB_FS_Version
  let b := writeDD b 0x2C hdr.A_BF_BPB_RootDirStrtClus
  let b := writeDW b 0x30 hdr.A_BF_BPB_FSInfoSec
  let b := writeDW b 0x32 hdr.A_BF_BPB_BkUpBootSec
  let b := writeDW b 0x34 hdr.A_BF_BPB_Reserved1
  let b := writeDW b 0x38 hdr.A_BF_BPB_Reserved2
  let b := writeDW b 0x3C hdr.A_BF_BPB_Reserved3
  let b := writeDB b 0x40 hdr.A_BF_BPB_DriveNum
  let b := writeDB b 0x41 hdr.A_BF_BPB_Reserved4
  let b := writeDB b 0x42 hdr.A_BF_BPB_Signature
  let b := writeDD b 0x43 hdr.A_BF_BPB_VolumeID
  let b := writeArray b 0x47 hdr.A_BF_BPB_VolumeLabel
  let b := writeArray b 0x52 hdr.A_BF_BPB_FAT_Name
  let b := writeDD b 0x5A hdr.LBA_FAT_Location
  let b := writeDD b 0x5E hdr.LBA_Cluster_Location
  let b := writeDB b 0x62 hdr.Scale_SectorsPerCluster
  let b := writeDB b 0x63 hdr.Mask_SectorRotation
  let b := writeDB b 0x1FE 0x55
  writeDB b 0x1FF 0xAA

/-- Reads the header from a buffer. -/
def readHeader (buffer : Bytes) : FAT32_HEADER where
  OEM_NAME := readArray buffer 0x03 8
  A_BF_BPB_BytesPerSector := readDW buffer 0x0B
  A_BF_BPB_SectorsPerCluster := readDB buffer 0x0D
  A_BF_BPB_ReservedSectors := readDW buffer 0x0E
  A_BF_BPB_NumberOfFATs := readDB buffer 0x10
  A_BF_BPB_RootEntries := readDW buffer 0x11
  A_BF_BPB_TotalSectors := readDW buffer 0x13
  A_BF_BPB_MediaDescriptor := readDB buffer 0x15
  A_BF_BPB_SectorsPerFAT := readDW buffer 0x16
  A_BF_BPB_SectorsPerTrack := readDW buffer 0x18
  A_BF_BPB_Heads := readDW buffer 0x1A
  A_BF_BPB_HiddenSectors := readDD buffer 0x1C
  A_BF_BPB_BigTotalSectors := readDD buffer 0x20
  A_BF_BPB_BigSectorsPerFat := readDD buffer 0x24
  A_BF_BPB_ExtFlags := readDW buffer 0x28
  A_BF_BPB_FS_Version := readDW buffer 0x2A
  A_BF_BPB_RootDirStrtClus := readDD buffer 0x2C
  A_BF_BPB_FSInfoSec := readDW buffer 0x30
  A_BF_BPB_BkUpBootSec := readDW buffer 0x32
  A_BF_BPB_Reserved1 := readDW buffer 0x34
  A_BF_BPB_Reserved2 := readDW buffer 0x38
  A_BF_BPB_Reserved3 := readDW buffer 0x3C
  A_BF_BPB_DriveNum := readDB buffer 0x40
  A_BF_BPB_Reserved4 := readDB buffer 0x41
  A_BF_BPB_Signature := readDB buffer 0x42
  A_BF_BPB_VolumeID := readDD buffer 0x43
  A_BF_BPB_VolumeLabel := readArray buffer 0x47 11
  A_BF_BPB_FAT_Name := readArray buffer 0x52 8
  LBA_FAT_Location := readDD buffer 0x5A
  LBA_Cluster_Location := readDD buffer 0x5E
  Scale_SectorsPerCluster := readDB buffer 0x62
  Mask_SectorRotation := readDB buffer 0x63

end SoreOS
