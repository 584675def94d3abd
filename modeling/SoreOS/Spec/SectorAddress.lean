import SoreOS.Spec.Partition

/-!
# The requested sectors

Whether the drive reads the sectors that the two loads ask for: the driver writes three
bytes of the address to the drive and leaves out the highest four bits. What the drive
transfers reaches the buffer in order, for requests of up to 255 sectors.

## Key results

- `delivers`: what `readSector` leaves in a buffer with room
- `sectorAddress_iff`: when the drive is given the address that was computed
- `not_sectorAddress`: a cluster in the upper half of a disk of 16 GiB
-/

namespace SoreOS

open ForStd

/-! ## The sectors -/

/-- A request of `readSector` for `count` sectors from `LBA` on tells the drive their number, and what it
    reads from the address in its ports is in the buffer afterwards, in order. -/
structure Delivers (d : Drive) (o : Obj) (n count : Nat) (LBA : Int) (buffer buffer' : Bytes) : Prop where
  returns : readSector d n count LBA o buffer = .ok (true, buffer', n + count)
  sectorCount : (commandPorts count LBA).sectorCount.toNat = count
  sectors : ∀ k < count, ∀ i < 512,
    buffer' (k * 512 + i : Nat) = d.disk (((commandPorts count LBA).address + k) * 512 + i : Nat)
  outside : ∀ a : Int, a < 0 ∨ count * 512 ≤ a → buffer' a = buffer a

/-- So does every request to an array with room, without errors. -/
theorem delivers {d : Drive} {o : Obj} {n count : Nat} (LBA : Int) (buffer : Bytes) (hle : count ≤ 255)
    (hroom : count * 512 ≤ o.size) (hgood : ∀ k < count, d.good (n + k) = true) :
    ∃ buffer', Delivers d o n count LBA buffer buffer' := by
  have hall : goodSectors d n count = count := goodSectors_all fun k hk hk' => by
    have hgood' := hgood (k - n) (by omega)
    rwa [show n + (k - n) = k from by omega] at hgood'
  have hrun := readSector_eq d n count LBA buffer hroom
  rw [hall, decide_eq_true rfl, Nat.min_eq_right (Nat.le_succ count)] at hrun
  have haddress : ((commandPorts count LBA).address : Int) = LBA % 16777216 := by
    rw [commandPorts_address]
    omega
  refine ⟨_, hrun, ?_, fun k hk i hi => ?_, fun a ha => ?_⟩
  · -- up to 255 sectors fit in the port
    show (UInt8.ofInt count).toNat = count
    rw [UInt8.ofInt, UInt8.toNat_ofNat']
    omega
  · rw [memcpyObj, Mem.copyFrom_apply, if_pos (by push_cast; omega), ← haddress]
    apply congrArg
    push_cast
    omega
  · rw [memcpyObj, Mem.copyFrom_apply, if_neg (by push_cast; omega)]

/-! ## The address -/

/-- The drive is given the address of a request. -/
def Addressed (sectors LBA : Int) : Prop := ((commandPorts sectors LBA).address : Int) = LBA

instance (sectors LBA : Int) : Decidable (Addressed sectors LBA) := inferInstanceAs (Decidable (_ = _))

theorem addressed_iff {sectors LBA : Int} (h : 0 ≤ LBA) : Addressed sectors LBA ↔ LBA < 16777216 := by
  rw [Addressed, commandPorts_address]
  omega

/-- Of the addresses of 28 bits that `load_Cluster` and `load_FATSect` compute, the drive is given exactly
    those below `2 ^ 24`; and without errors a buffer with room receives the sectors that are read. -/
theorem sectorAddress_iff (hdr : FAT32_HEADER) :
    (∀ index : Int, 0 ≤ toInt (clusterAddress hdr index) → toInt (clusterAddress hdr index) < 268435456 →
      (Addressed hdr.A_BF_BPB_SectorsPerCluster.toNat (toInt (clusterAddress hdr index)) ↔
        toInt (clusterAddress hdr index) < 16777216)) ∧
    (∀ offset : Int, 0 ≤ toInt (fatSectorAddress hdr offset) → toInt (fatSectorAddress hdr offset) < 268435456 →
      (Addressed 1 (toInt (fatSectorAddress hdr offset)) ↔ toInt (fatSectorAddress hdr offset) < 16777216)) ∧
    ∀ (d : Drive) (o : Obj) (n count : Nat) (LBA : Int) (buffer : Bytes), 1 ≤ count → count ≤ 255 →
      count * 512 ≤ o.size → (∀ k < count, d.good (n + k) = true) →
      ∃ buffer', Delivers d o n count LBA buffer buffer' :=
  ⟨fun _ h0 _ => addressed_iff h0, fun _ h0 _ => addressed_iff h0,
    fun _ _ _ _ LBA buffer _ hle hroom hgood => delivers LBA buffer hle hroom hgood⟩

/-- On a partition of 16 GiB, cluster 4161535 begins at sector `2 ^ 24 + 3`, and sector 3 is read. -/
theorem not_sectorAddress :
    let hdr := setPartitionSize defaultHeader 33554432
    toInt (clusterAddress hdr 4161535) = 16777219 ∧
      ¬ Addressed hdr.A_BF_BPB_SectorsPerCluster.toNat (toInt (clusterAddress hdr 4161535)) := by
  decide

end SoreOS
