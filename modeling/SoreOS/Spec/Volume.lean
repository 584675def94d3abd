import SoreOS.Spec.HeaderFields

/-!
# Volumes

What a disk holds when it is read as a volume: its header, the entries and chains
of its FAT, the bytes of its clusters. Every FAT and every contents of the clusters
can occur: there is a disk in the utility's layout that holds them.

## Key results

- `FatChain`: the FAT chains a list of clusters
- `volumeHeader_volume`, `fatNext_volume`, `clusterData_volume`: a disk with a
  given FAT and given contents
-/

namespace SoreOS

open ForStd

/-- The header of the volume on a disk, in the partition's first sector. -/
def volumeHeader (disk : Bytes) : FAT32_HEADER := readHeader (subBuffer disk 512)

/-! ## Chains on the disk -/

/-- Entry `c` of the FAT. -/
def fatNext (disk : Bytes) (hdr : FAT32_HEADER) (c : Nat) : Nat :=
  disk.loadLE (hdr.LBA_FAT_Location.toNat * 512 + 4 * c) 4

/-- The number of clusters of the data region, up to the end of the partition that
    begins at sector 1. -/
def dataClusters : Nat := (8388608 - 12 - 2 * 16385) / 4

/-- A cluster number of the data region. -/
def ValidCluster (c : Nat) : Prop := 2 ≤ c ∧ c < dataClusters + 2

/-- The FAT chains the clusters of the list, and marks the last one as the end. -/
def FatChain (disk : Bytes) (hdr : FAT32_HEADER) : List Nat → Prop
  | [] => False
  | [c] => ValidCluster c ∧ fatNext disk hdr c = 0x0FFFFFFF
  | c :: c' :: cs => ValidCluster c ∧ fatNext disk hdr c = c' ∧ FatChain disk hdr (c' :: cs)

/-- The bytes of a cluster. -/
def clusterData (disk : Bytes) (hdr : FAT32_HEADER) (c : Nat) : List UInt8 :=
  disk.read ((hdr.LBA_Cluster_Location.toNat + (c - 2) * 4) * 512) 2048

@[simp] theorem length_clusterData (disk : Bytes) (hdr : FAT32_HEADER) (c : Nat) :
    (clusterData disk hdr c).length = 2048 := Mem.length_read _ _ _

/-- The bytes of a chain. -/
def chainData (disk : Bytes) (hdr : FAT32_HEADER) (cs : List Nat) : List UInt8 :=
  cs.flatMap (clusterData disk hdr)

theorem FatChain.valid {disk : Bytes} {hdr : FAT32_HEADER} {cs : List Nat}
    (h : FatChain disk hdr cs) : ∀ c ∈ cs, ValidCluster c := by
  induction cs with
  | nil => exact absurd h id
  | cons c cs ih =>
    cases cs with
    | nil =>
      intro c' hc'
      rw [List.mem_singleton.mp hc']
      exact h.1
    | cons c' cs =>
      intro c'' hc''
      obtain rfl | hc'' := List.mem_cons.mp hc''
      · exact h.1
      · exact ih h.2.2 c'' hc''

/-! ## A disk with given contents -/

/-- The disk with the utility's header, a FAT with the given entries and clusters
    with the given bytes. -/
def volume (fat : Nat → Nat) (data : Nat → Int → UInt8) : Bytes := fun a =>
  if a < 13 * 512 then writeBinary defaultHeader (fun _ => 0) (a - 512)
  else if a < 32783 * 512 then
    UInt8.ofNat (fat ((a - 13 * 512) / 4).toNat / 256 ^ ((a - 13 * 512) % 4).toNat)
  else data (2 + (a - 32783 * 512) / 2048).toNat ((a - 32783 * 512) % 2048)

section

variable (fat : Nat → Nat) (data : Nat → Int → UInt8)

theorem volumeHeader_volume : volumeHeader (volume fat data) = defaultHeader := by
  refine Eq.trans (readHeader_congr ?_) (readHeader_writeBinary defaultHeader fun _ => 0)
  intro i hi hi'
  rw [subBuffer, volume, if_pos (by omega)]
  apply congrArg
  omega

theorem fatNext_volume {c : Nat} (hc : c < 16385 * 128) (hfat : fat c < 256 ^ 4) :
    fatNext (volume fat data) defaultHeader c = fat c := by
  rw [← Nat.mod_eq_of_lt hfat]
  apply Mem.loadLE_digits
  intro i hi
  rw [show defaultHeader.LBA_FAT_Location = 13 from defaultHeader_layout.fat]
  rw [show ((UInt32.toNat 13 : Nat) : Int) = 13 from by decide]
  rw [volume, if_neg (by omega), if_pos (by omega)]
  rw [show ((13 * 512 + 4 * (c : Int) + i - 13 * 512) / 4).toNat = c from by omega,
    show ((13 * 512 + 4 * (c : Int) + i - 13 * 512) % 4).toNat = i from by omega]

theorem clusterData_volume {c : Nat} (hc : 2 ≤ c) :
    clusterData (volume fat data) defaultHeader c = Mem.read (data c) 0 2048 := by
  apply Mem.read_congr
  intro i hi
  rw [show defaultHeader.LBA_Cluster_Location = 32783 from defaultHeader_layout.clusters]
  rw [show ((UInt32.toNat 32783 : Nat) : Int) = 32783 from by decide]
  rw [volume, if_neg (by omega), if_neg (by omega)]
  rw [show (2 + ((32783 + ((c : Int) - 2) * 4) * 512 + i - 32783 * 512) / 2048).toNat = c
    from by omega, show ((32783 + ((c : Int) - 2) * 4) * 512 + i - 32783 * 512) % 2048 = 0 + i
    from by omega]

end

end SoreOS
