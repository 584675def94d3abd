import SoreOS.Native.FAT32

/-!
# The header on disk

What `writeBinary` leaves in a buffer, field by field: every field of the header
can be read back, and no byte outside the header and the boot signature changes.

## Key results

- `readHeader_writeBinary`: reading back gives the header that was written
- `readHeader_congr`: the header depends on the first 100 bytes only
- `writeBinary_outside`: the bytes that do not change
- `defaultHeader_layout`: where the media utility lays out its volume
-/

namespace SoreOS

open ForStd

/-! ## A field read back, and one that another store leaves alone -/

private theorem ofNat_mod_DB (v : UInt8) : UInt8.ofNat (v.toNat % 256 ^ 1) = v := by
  rw [Nat.mod_eq_of_lt (by have := v.toNat_lt; omega), UInt8.ofNat_toNat]

private theorem ofNat_mod_DW (v : UInt16) : UInt16.ofNat (v.toNat % 256 ^ 2) = v := by
  rw [Nat.mod_eq_of_lt (by have := v.toNat_lt; omega), UInt16.ofNat_toNat]

private theorem ofNat_mod_DD (v : UInt32) : UInt32.ofNat (v.toNat % 256 ^ 4) = v := by
  rw [Nat.mod_eq_of_lt (by have := v.toNat_lt; omega), UInt32.ofNat_toNat]

theorem readArray_writeArray (b : Bytes) (off : Int) {n : Nat} (a : Fin n → UInt8) :
    readArray (writeArray b off a) off n = a := by
  funext i
  have hi := i.isLt
  simp only [readArray, writeArray, memcpyObj, Mem.copyFrom_apply]
  rw [if_pos (by omega), ofArray, dif_pos (by omega)]
  congr
  omega

/-- The array store changes only the bytes of its field. -/
theorem writeArray_outside (b : Bytes) (off : Int) {n : Nat} (a : Fin n → UInt8) {i : Int}
    (h : i < off ∨ off + n ≤ i) : writeArray b off a i = b i := by
  rw [writeArray, memcpyObj, Mem.copyFrom_apply, if_neg (by omega)]

theorem loadLE_writeArray (b : Bytes) {off off' : Int} {n k : Nat} (a : Fin k → UInt8)
    (h : off + n ≤ off' ∨ off' + k ≤ off) :
    (writeArray b off' a).loadLE off n = b.loadLE off n := by
  apply Mem.loadLE_congr
  intro i hi
  exact writeArray_outside _ _ _ (by omega)

theorem readArray_storeLE (b : Bytes) {off off' : Int} {n k : Nat} (v : Nat)
    (h : off + n ≤ off' ∨ off' + k ≤ off) :
    readArray (b.storeLE off' k v) off n = readArray b off n := by
  funext i
  exact Mem.storeLE_outside _ _ _ _ (by omega)

theorem readArray_writeArray_disjoint (b : Bytes) {off off' : Int} {n k : Nat} (a : Fin k → UInt8)
    (h : off + n ≤ off' ∨ off' + k ≤ off) :
    readArray (writeArray b off' a) off n = readArray b off n := by
  funext i
  exact writeArray_outside _ _ _ (by omega)

theorem storeLE_one_same (b : Bytes) (off : Int) (v : UInt8) : b.storeLE off 1 v.toNat off = v := by
  simp only [Mem.storeLE]
  rw [Mem.set_same, UInt8.ofNat_toNat]

/-! ## The whole header -/

theorem readHeader_writeBinary (hdr : FAT32_HEADER) (b : Bytes) :
    readHeader (writeBinary hdr b) = hdr := by
  unfold readHeader writeBinary readDB readDW readDD writeDB writeDW writeDD
  -- the stores after the field's own are to other bytes
  simp (disch := omega) only [Mem.loadLE_storeLE_disjoint, loadLE_writeArray, readArray_storeLE,
    readArray_writeArray_disjoint, Mem.loadLE_storeLE, readArray_writeArray, ofNat_mod_DB,
    ofNat_mod_DW, ofNat_mod_DD]

/-- The header is read from the first 100 bytes of its sector. -/
theorem readHeader_congr {b b' : Bytes} (h : ∀ i, 0 ≤ i → i < 0x64 → b i = b' i) :
    readHeader b = readHeader b' := by
  have hload : ∀ (off : Int) (n : Nat), 0 ≤ off → off + n ≤ 0x64 →
      b.loadLE off n = b'.loadLE off n := by
    intro off n hoff hend
    apply Mem.loadLE_congr
    intro i hi
    exact h _ (by omega) (by omega)
  have harray : ∀ (off : Int) (n : Nat), 0 ≤ off → off + n ≤ 0x64 →
      readArray b off n = readArray b' off n := by
    intro off n hoff hend
    funext i
    exact h _ (by omega) (by omega)
  unfold readHeader readDB readDW readDD
  simp (disch := omega) only [hload, harray]

/-- Only the header's bytes and the boot signature change. -/
theorem writeBinary_outside (hdr : FAT32_HEADER) (b : Bytes) {i : Int}
    (h : i < 0 ∨ 0x64 ≤ i) (hsig : i ≠ 0x1FE) (hsig' : i ≠ 0x1FF) : writeBinary hdr b i = b i := by
  unfold writeBinary writeDB writeDW writeDD
  simp (disch := omega) only [Mem.storeLE_outside, writeArray_outside]

/-- The jump over the header, and the signature behind it. -/
theorem writeBinary_marks (hdr : FAT32_HEADER) (b : Bytes) :
    writeBinary hdr b 0x00 = 0xEB ∧ writeBinary hdr b 0x01 = 0x64 ∧ writeBinary hdr b 0x02 = 0x90 ∧
      writeBinary hdr b 0x1FE = 0x55 ∧ writeBinary hdr b 0x1FF = 0xAA := by
  unfold writeBinary writeDB writeDW writeDD
  simp (disch := omega) only [Mem.storeLE_outside, writeArray_outside, storeLE_one_same, and_self]

/-! ## The utility's layout -/

/-- The layout that the media utility gives a volume of 8388608 sectors. -/
structure StandardLayout (hdr : FAT32_HEADER) : Prop where
  bytesPerSector : hdr.A_BF_BPB_BytesPerSector = 512
  sectorsPerCluster : hdr.A_BF_BPB_SectorsPerCluster = 4
  rootCluster : hdr.A_BF_BPB_RootDirStrtClus = 2
  fat : hdr.LBA_FAT_Location = 13
  sectorsPerFat : hdr.A_BF_BPB_BigSectorsPerFat = 16385
  clusters : hdr.LBA_Cluster_Location = 32783

namespace StandardLayout

variable {hdr : FAT32_HEADER} (h : StandardLayout hdr)
include h

theorem fat_toNat : hdr.LBA_FAT_Location.toNat = 13 := by
  rw [h.fat]
  rfl

theorem clusters_toNat : hdr.LBA_Cluster_Location.toNat = 32783 := by
  rw [h.clusters]
  rfl

theorem sectorsPerCluster_toNat : hdr.A_BF_BPB_SectorsPerCluster.toNat = 4 := by
  rw [h.sectorsPerCluster]
  rfl

end StandardLayout

/-- The header a build starts from. -/
def defaultHeader : FAT32_HEADER :=
  setPartitionSize (setVolumeName {} ['S', 'o', 'r', 'e', '-', 'O', 'S']) 8388608

theorem defaultHeader_layout : StandardLayout defaultHeader where
  bytesPerSector := rfl
  sectorsPerCluster := rfl
  rootCluster := rfl
  fat := by decide
  sectorsPerFat := by decide
  clusters := by decide

end SoreOS
