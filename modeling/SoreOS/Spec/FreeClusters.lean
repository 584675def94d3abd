import SoreOS.Native.MediaUtility
import SoreOS.Spec.Partition

/-!
# The count of free clusters

The FSInfo sector tells how many clusters are free. `addFSInfo` divides all sectors of
the partition by the size of a cluster, but the clusters begin behind the reserved
sectors and the two FATs.

## Key results

- `addFSInfo_freeCount`: the number that is written
- `freeCount_excess`: by how much it is too large
- `freeCount_wrong`: it is wrong for every partition
-/

namespace SoreOS.MediaUtility

open ForStd

/-- The count of free clusters in an FSInfo sector that begins at byte `base` of the buffer. -/
def freeCount (buffer : Bytes) (base : Int) : Nat := (readDD buffer (base + 0x1E8)).toNat

/-- The whole clusters from `LBA_Cluster_Location` to the end of the partition, which begins at sector 1. -/
def wholeClusters (hdr : FAT32_HEADER) : Int :=
  (1 + hdr.A_BF_BPB_BigTotalSectors.toNat - hdr.LBA_Cluster_Location.toNat) / hdr.A_BF_BPB_SectorsPerCluster.toNat

/-- The count is that of the clusters without the root directory's. -/
def CountsFree (hdr : FAT32_HEADER) (buffer : Bytes) (base : Int) : Prop :=
  (freeCount buffer base : Int) = wholeClusters hdr - 1

/-- The signatures lie around the count. -/
theorem addFSInfo_freeCount (hdr : FAT32_HEADER) (buffer : Bytes) (base : Int) :
    freeCount (addFSInfo hdr buffer base) base =
      (hdr.A_BF_BPB_BigTotalSectors / hdr.A_BF_BPB_SectorsPerCluster.toUInt32 - 1).toNat := by
  unfold freeCount addFSInfo readDD writeDB writeDD
  simp (disch := omega) only [Mem.loadLE_storeLE_disjoint, Mem.loadLE_storeLE]
  generalize hdr.A_BF_BPB_BigTotalSectors / hdr.A_BF_BPB_SectorsPerCluster.toUInt32 - 1 = count
  have hlt := count.toNat_lt
  rw [Nat.mod_eq_of_lt (by omega), UInt32.ofNat_toNat]

section Partition

variable {sectors : Int} (hmin : 18 ≤ sectors) (hint : sectors < 2147483648)
include hmin hint

/-- The count of a partition in numbers. -/
theorem freeCount_eq (buffer : Bytes) (base : Int) :
    (freeCount (addFSInfo (setPartitionSize {} sectors) buffer base) base : Int) = sectors / 4 - 1 := by
  have hdiv : (UInt32.ofInt sectors / (4 : UInt8).toUInt32 - 1).toNat = sectors.toNat / 4 - 1 := by
    have htotal : (UInt32.ofInt sectors).toNat = sectors.toNat := by
      rw [UInt32.ofInt, UInt32.toNat_ofNat']
      omega
    have hquotient : (UInt32.ofInt sectors / (4 : UInt8).toUInt32).toNat = sectors.toNat / 4 := by
      rw [UInt32.toNat_div, htotal]
      rfl
    rw [UInt32.toNat_sub_of_le _ _ ?_, hquotient]
    · rfl
    · rw [UInt32.le_iff_toNat_le, hquotient, show (1 : UInt32).toNat = 1 from rfl]
      omega
  rw [addFSInfo_freeCount]
  show ((UInt32.ofInt sectors / (4 : UInt8).toUInt32 - 1).toNat : Int) = _
  rw [hdiv]
  omega

/-- And the clusters that there are. -/
theorem wholeClusters_eq :
    wholeClusters (setPartitionSize {} sectors) = (sectors - 12 - 2 * (sectors / 512 + 1)) / 4 := by
  obtain ⟨-, -, hdata, hspc⟩ := @setPartitionSize_regions {} rfl rfl sectors hmin hint
  have htotal : ((setPartitionSize {} sectors).A_BF_BPB_BigTotalSectors.toNat : Int) = sectors := by
    show ((UInt32.ofInt sectors).toNat : Int) = _
    rw [UInt32.ofInt, UInt32.toNat_ofNat']
    omega
  rw [wholeClusters, hdata, hspc, htotal]
  congr 1
  omega

/-- The sectors in front of the clusters are counted as well: twelve reserved ones and the FATs. -/
theorem freeCount_excess (buffer : Bytes) (base : Int) :
    let hdr := setPartitionSize {} sectors
    wholeClusters hdr - 1 + (12 + 2 * hdr.A_BF_BPB_BigSectorsPerFat.toNat) / 4 ≤
      freeCount (addFSInfo hdr buffer base) base := by
  intro hdr
  obtain ⟨hper, -, -, -⟩ := @setPartitionSize_regions {} rfl rfl sectors hmin hint
  have hcount := freeCount_eq hmin hint buffer base
  have hclusters := wholeClusters_eq hmin hint
  rw [hcount, hclusters, hper]
  omega

/-- For no partition that has room for a cluster is the count right. -/
theorem freeCount_wrong (buffer : Bytes) (base : Int) :
    ¬ CountsFree (setPartitionSize {} sectors) (addFSInfo (setPartitionSize {} sectors) buffer base) base := by
  have hexcess := freeCount_excess hmin hint buffer base
  unfold CountsFree
  dsimp only at hexcess
  omega

end Partition

/-- The partition that the utility makes. -/
theorem freeCount_wrong_standard : ¬ CountsFree (setPartitionSize {} 8388608)
    (addFSInfo (setPartitionSize {} 8388608) (fun _ => 0) 512) 512 :=
  freeCount_wrong (by decide) (by decide) (fun _ => 0) 512

/-- It has 2088956 clusters, and 2097151 are counted as free. -/
theorem not_countsFree :
    ¬ ∀ (sectors : Int) (buffer : Bytes) (base : Int), 18 ≤ sectors → sectors < 2147483648 →
      CountsFree (setPartitionSize {} sectors) (addFSInfo (setPartitionSize {} sectors) buffer base) base := by
  intro hall
  have hcount := hall 8388608 (fun _ => 0) 512 (by decide) (by decide)
  rw [CountsFree, freeCount_eq (by decide) (by decide), wholeClusters_eq (by decide) (by decide)] at hcount
  exact absurd hcount (by decide)

end SoreOS.MediaUtility
