import SoreOS.Spec.DriveCorrect
import SoreOS.Spec.HeaderFields

/-!
# The partition

Where `setPartitionSize` puts the FATs and the clusters of a partition of any size:
the regions do not overlap, and each cluster number has its entry in the first FAT
and its sectors in the data region.

## Key results

- `setPartitionSize_regions`: the regions in numbers
- `partition_layout`: they are disjoint, and every cluster lies inside
-/

namespace SoreOS

open ForStd

/-! ## Regions -/

/-- `count` sectors of the disk, from `start` on. -/
structure Region where
  start : Int
  count : Int
  deriving DecidableEq, Repr

namespace Region

def Disjoint (r r' : Region) : Prop := r.start + r.count ≤ r'.start ∨ r'.start + r'.count ≤ r.start

/-- The sectors from `start` on, `count` of them, are sectors of the region. -/
def Holds (r : Region) (start count : Int) : Prop := r.start ≤ start ∧ start + count ≤ r.start + r.count

end Region

/-- The sectors of the boot image. -/
def imageRegion : Region := ⟨0, 13⟩

/-- The first FAT, where `clearStorage` begins it. -/
def FAT1_region (hdr : FAT32_HEADER) : Region :=
  ⟨toInt hdr.LBA_FAT_Location.toNat, hdr.A_BF_BPB_BigSectorsPerFat.toNat⟩

/-- The second FAT. -/
def FAT2_region (hdr : FAT32_HEADER) : Region :=
  ⟨toInt (hdr.A_BF_BPB_BigSectorsPerFat.toNat + toInt hdr.LBA_FAT_Location.toNat),
    hdr.A_BF_BPB_BigSectorsPerFat.toNat⟩

/-- The number of clusters behind the FATs of a partition. -/
def clusterCount (hdr : FAT32_HEADER) (sectors : Int) : Int :=
  (sectors - 12 - 2 * hdr.A_BF_BPB_BigSectorsPerFat.toNat) / 4

/-- The data clusters. -/
def dataRegion (hdr : FAT32_HEADER) (sectors : Int) : Region :=
  ⟨toInt hdr.LBA_Cluster_Location.toNat, clusterCount hdr sectors * 4⟩

/-! ## What the driver computes -/

/-- The sector that `load_FATSect` asks for, before it is an `int`. -/
def fatSectorAddress (hdr : FAT32_HEADER) (offset : Int) : Int := hdr.LBA_FAT_Location.toNat + offset

/-- The first sector that `load_Cluster` asks for, before it is an `int`. -/
def clusterAddress (hdr : FAT32_HEADER) (index : Int) : Int :=
  hdr.LBA_Cluster_Location.toNat + (index - 2) * hdr.A_BF_BPB_SectorsPerCluster.toNat

theorem load_FATSect_reads (d : Drive) (s : FsState) (offset : Int) :
    load_FATSect d s offset = (do
      let (ok, m, n) ← readSector d s.waits 1 (toInt (fatSectorAddress s.fileSys offset)) .FATBuffer s.FATBuffer
      let s := { s with FATBuffer := m, waits := n }
      if ok then return (true, { s with FATSecIdx := offset }) else return (false, s)) := rfl

theorem load_Cluster_reads (d : Drive) (s : FsState) (index : Int) :
    load_Cluster d s index = (do
      let (ok, m, n) ← readSector d s.waits s.fileSys.A_BF_BPB_SectorsPerCluster.toNat
        (toInt (clusterAddress s.fileSys index)) .ClusterBuffer s.ClusterBuffer
      let s := { s with ClusterBuffer := m, waits := n }
      if ok then return (true, { s with ClusterSecIdx := index }) else return (false, s)) := rfl

/-- The value fits an `int`. -/
def IsInt (n : Int) : Prop := -2147483648 ≤ n ∧ n < 2147483648

/-! ## The layout -/

/-- The four regions of a formatted partition, with the boot image in front of it. -/
def regions (hdr : FAT32_HEADER) (sectors : Int) : List Region :=
  [imageRegion, FAT1_region hdr, FAT2_region hdr, dataRegion hdr sectors]

/-- The regions do not overlap and lie inside the partition, at the places the header names.
    Each cluster has its entry in the first FAT and its sectors in the data region, and
    the driver computes both without overflow. -/
structure PartitionLayout (hdr : FAT32_HEADER) (sectors : Int) : Prop where
  disjoint : (regions hdr sectors).Pairwise Region.Disjoint
  inside : ∀ r ∈ regions hdr sectors, 0 ≤ r.start ∧ 0 < r.count ∧ r.start + r.count ≤ 1 + sectors
  fat1 : (FAT1_region hdr).start = hdr.LBA_FAT_Location.toNat
  fat2 : (FAT2_region hdr).start = hdr.LBA_FAT_Location.toNat + hdr.A_BF_BPB_BigSectorsPerFat.toNat
  data : (dataRegion hdr sectors).start = hdr.LBA_Cluster_Location.toNat
  entry : ∀ c : Int, 2 ≤ c → c < clusterCount hdr sectors + 2 →
    IsInt (fatSectorAddress hdr (c / 128)) ∧ (FAT1_region hdr).Holds (fatSectorAddress hdr (c / 128)) 1
  cluster : ∀ c : Int, 2 ≤ c → c < clusterCount hdr sectors + 2 →
    IsInt ((c - 2) * hdr.A_BF_BPB_SectorsPerCluster.toNat) ∧ IsInt (clusterAddress hdr c) ∧
      (dataRegion hdr sectors).Holds (clusterAddress hdr c) hdr.A_BF_BPB_SectorsPerCluster.toNat

section Layout

variable {hdr : FAT32_HEADER} (hspc : hdr.A_BF_BPB_SectorsPerCluster = 4)
  (hreserved : hdr.A_BF_BPB_ReservedSectors = 12) {sectors : Int} (hmin : 18 ≤ sectors)
  (hint : sectors < 2147483648)
include hspc hreserved hmin hint

/-- The header's fields in numbers: one entry of the FAT for every four sectors. -/
theorem setPartitionSize_regions :
    (setPartitionSize hdr sectors).A_BF_BPB_BigSectorsPerFat.toNat = sectors / 512 + 1 ∧
      (setPartitionSize hdr sectors).LBA_FAT_Location.toNat = 13 ∧
      (setPartitionSize hdr sectors).LBA_Cluster_Location.toNat = 13 + 2 * (sectors / 512 + 1) ∧
      (setPartitionSize hdr sectors).A_BF_BPB_SectorsPerCluster.toNat = 4 := by
  -- the divisions of the code round towards zero
  have hdiv : (sectors.tdiv hdr.A_BF_BPB_SectorsPerCluster.toNat).tdiv 128 + 1 = sectors / 512 + 1 := by
    have hclusters : sectors.tdiv 4 = sectors / 4 := Int.tdiv_eq_ediv_of_nonneg (by omega)
    rw [hspc, show ((4 : UInt8).toNat : Int) = 4 from rfl, hclusters, Int.tdiv_eq_ediv_of_nonneg (by omega)]
    omega
  have hfat : UInt32.ofInt (1 + hdr.A_BF_BPB_ReservedSectors.toNat) = 13 := by
    rw [hreserved]
    decide
  -- nothing wraps around, as the partition's size is an `int`
  have hper : ((UInt32.ofInt (sectors / 512 + 1)).toNat : Int) = sectors / 512 + 1 := by
    rw [UInt32.ofInt, UInt32.toNat_ofNat']
    omega
  unfold setPartitionSize
  simp only [hdiv, hfat]
  refine ⟨?_, ?_, ?_, ?_⟩
  · exact hper
  · decide
  · rw [UInt32.toNat_add, UInt32.toNat_mul, show (13 : UInt32).toNat = 13 from rfl,
      show (2 : UInt32).toNat = 2 from rfl]
    omega
  · rw [hspc]
    decide

/-- Every partition is laid out like that. -/
theorem partition_layout : PartitionLayout (setPartitionSize hdr sectors) sectors := by
  obtain ⟨hper, hfat, hdata, hspc'⟩ := setPartitionSize_regions hspc hreserved hmin hint
  generalize setPartitionSize hdr sectors = h at hper hfat hdata hspc'
  have hFAT1 : FAT1_region h = ⟨13, sectors / 512 + 1⟩ := by
    rw [FAT1_region, hper, hfat]
    rfl
  have hFAT2 : FAT2_region h = ⟨13 + (sectors / 512 + 1), sectors / 512 + 1⟩ := by
    rw [FAT2_region, hper, hfat, toInt_eq (n := (13 : Nat)) (by omega) (by omega), toInt_eq (by omega) (by omega),
      Int.add_comm]
    rfl
  have hcount : clusterCount h sectors = (sectors - 12 - 2 * (sectors / 512 + 1)) / 4 := by
    rw [clusterCount, hper]
  have hregion : dataRegion h sectors =
      ⟨13 + 2 * (sectors / 512 + 1), (sectors - 12 - 2 * (sectors / 512 + 1)) / 4 * 4⟩ := by
    rw [dataRegion, hcount, hdata, toInt_eq (by omega) (by omega)]
  refine ⟨?_, ?_, ?_, ?_, ?_, fun c hc hc' => ?_, fun c hc hc' => ?_⟩
  · rw [regions, hFAT1, hFAT2, hregion]
    unfold imageRegion Region.Disjoint
    simp only [List.pairwise_cons, List.mem_cons, List.not_mem_nil, or_false, forall_eq_or_imp, forall_eq,
      false_imp_iff, implies_true, List.Pairwise.nil, and_true]
    omega
  · rw [regions, hFAT1, hFAT2, hregion]
    unfold imageRegion
    simp only [List.mem_cons, List.not_mem_nil, or_false, forall_eq_or_imp, forall_eq]
    omega
  · rw [hFAT1, hfat]
    rfl
  · rw [hFAT2, hfat, hper]
    rfl
  · rw [hregion, hdata]
  · rw [hcount] at hc'
    rw [hFAT1]
    unfold fatSectorAddress IsInt Region.Holds
    rw [hfat]
    dsimp only
    omega
  · rw [hcount] at hc'
    rw [hregion]
    unfold clusterAddress IsInt Region.Holds
    rw [hdata, hspc']
    dsimp only
    omega

end Layout

/-- The partition that the media utility makes. -/
theorem partition_layout_standard : PartitionLayout defaultHeader 8388608 :=
  partition_layout rfl rfl (by decide) (by decide)

end SoreOS
