import SoreOS.Spec.ClusterScan
import SoreOS.Spec.Listing

/-!
# Stores into the name buffer

Where the scanning functions store the characters of a long name. The number of a piece
sets the place, and it is compared only with another number from the same record or one
counted down from it, so a piece is stored outside the buffer as soon as its number is
0 or more than 8. Behind the last record of a cluster the offset is not set back, so with
the next cluster loaded the records come from behind the cluster buffer, whatever is there.

## Key results

- `clusterScan_fault_obj`: a scan of the records faults outside the name buffer only
- `piecesFit_iff`: when it does so, or goes on behind the records
- `listFiles_error`: the accesses outside an array that a listing can make
- `longNameStores_iff`: when neither scanning function makes one
- `not_longNameStores`: a piece with the mark of a first one and number 0
-/

namespace SoreOS

open ForStd

/-! ## Pieces that fit -/

/-- Of the `n` records from the `k`th on, up to one that ends the scan, each piece of a
    long name with the expected number has one from 1 to 8. If the scan goes on behind them,
    one of them ends it. -/
def piecesFit (goesOn : Bool) (buf : Bytes) : Nat → Nat → Int → Bool
  | 0, _, _ => !goesOn
  | n + 1, k, idx =>
    let first := buf (32 * k)
    if first = 0 then true
    else if first = 0xE5 then piecesFit goesOn buf n (k + 1) idx
    else if isLFN (subBuffer buf (32 * k)) then
      let expected := expectedIdx first idx
      if (first &&& 0x0F).toNat = expected then
        decide (1 ≤ expected ∧ expected ≤ 8) && piecesFit goesOn buf n (k + 1) (expected - 1)
      else true
    else piecesFit goesOn buf n (k + 1) idx

/-- Reading a piece faults outside the name buffer only. -/
theorem readLFN_error {r : Bytes} {positions : List Int} {idx : Int} {longName : Bytes} {f : Fault}
    (h : readLFN r positions idx longName = .error f) : f.obj = .longName := by
  induction positions generalizing idx longName with
  | nil => cases h
  | cons pos positions ih =>
    rw [readLFN] at h
    by_cases hin : 0 ≤ idx ∧ idx < Obj.longName.size
    · rw [store_ok (o := .longName) _ _ hin.1 hin.2, ok_bind] at h
      exact ih h
    · rw [store, if_neg hin, error_bind] at h
      exact (Except.error.inj h) ▸ rfl

/-- A scan of the records faults at a piece that does not fit, or goes on behind them, and nothing else
    keeps the pieces from fitting. -/
theorem clusterScan_piecesFit (goesOn : Bool) (buf : Bytes) (n k : Nat) (idx : Int) (longName : Bytes) :
    piecesFit goesOn buf n k idx = true ↔ (∀ f, (clusterScan buf n k idx longName).2 ≠ .fault f) ∧
      ((clusterScan buf n k idx longName).2 = .through → goesOn = false) := by
  induction n generalizing k idx longName with
  | zero => simp [clusterScan, piecesFit]
  | succ n ih =>
    rw [clusterScan, piecesFit]
    dsimp only
    by_cases h0 : buf (32 * (k : Int)) = 0
    · simp [h0]
    rw [if_neg h0, if_neg h0]
    by_cases hdel : buf (32 * (k : Int)) = 0xE5
    · rw [if_pos hdel, if_pos hdel]
      exact ih (k + 1) idx longName
    rw [if_neg hdel, if_neg hdel]
    -- a file's record resets the name, a piece is stored in it
    cases isLFN (subBuffer buf (32 * (k : Int))) with
    | false => exact ih (k + 1) idx _
    | true =>
      rw [if_pos rfl, if_pos rfl]
      generalize expectedIdx (buf (32 * (k : Int))) idx = expected
      by_cases hidx : ((buf (32 * (k : Int)) &&& 0x0F).toNat : Int) = expected
      · rw [if_pos hidx, if_pos hidx]
        have hlen : (LFN_idxs.length : Int) = 13 := rfl
        -- the 13 characters of piece `n` go to `13 * (n - 1)` and up
        by_cases hfits : 1 ≤ expected ∧ expected ≤ 8
        · rw [readLFN_ok _ _ _ (by omega) (by omega), decide_eq_true hfits, Bool.true_and]
          exact ih (k + 1) (expected - 1) _
        · obtain ⟨f, hfault⟩ := @readLFN_fault (subBuffer buf (32 * (k : Int))) LFN_idxs ((expected - 1) * 13)
            longName (by simp [LFN_idxs]) (by omega)
          rw [hfault, decide_eq_false hfits, Bool.false_and]
          exact iff_of_false Bool.false_ne_true fun h => h.1 f rfl
      · rw [if_neg hidx, if_neg hidx]
        simp

/-- A scan of the records faults outside the name buffer only. -/
theorem clusterScan_fault_obj {buf : Bytes} {n k : Nat} {idx : Int} {longName : Bytes} {f : Fault}
    (h : (clusterScan buf n k idx longName).2 = .fault f) : f.obj = .longName := by
  induction n generalizing k idx longName with
  | zero => cases h
  | succ n ih =>
    rw [clusterScan] at h
    dsimp only at h
    split at h
    · cases h
    split at h
    · exact ih h
    split at h
    · split at h
      · split at h
        · exact ih h
        · rename_i hread
          cases h
          exact readLFN_error hread
      · cases h
    · exact ih h

/-- When a scan of a cluster stores inside the name buffer and ends there. -/
theorem piecesFit_iff (goesOn : Bool) (buf : Bytes) : piecesFit goesOn buf 64 0 0 = true ↔
    (∀ f, clusterEnd buf ≠ .fault f) ∧ (clusterEnd buf = .through → goesOn = false) :=
  clusterScan_piecesFit goesOn buf 64 0 0 _

/-! ## The scanning functions -/

/-- A function makes no access outside an array: it stores no character of a long name outside the name buffer,
    and reads no record behind the cluster buffer, from which it would go on to store. -/
def StoresInName {α : Type} (x : Except Fault α) : Prop := ∀ f, x ≠ .error f

theorem StoresInName.of_ok {α : Type} (a : α) : StoresInName (.ok a : Except Fault α) := fun _ h => nomatch h

theorem StoresInName.bind {α β : Type} {x : Except Fault α} {f : α → Except Fault β} (h : StoresInName x)
    (h' : ∀ a, x = .ok a → StoresInName (f a)) : StoresInName (x >>= f) := by
  cases x with
  | error e => exact absurd rfl (h e)
  | ok a => exact h' a rfl

theorem StoresInName.map_iff {α β : Type} {x : Except Fault α} (g : α → β) :
    StoresInName (g <$> x) ↔ StoresInName x := by
  cases x with
  | error e => exact iff_of_false (fun h => h e rfl) (fun h => h e rfl)
  | ok a => exact iff_of_true (.of_ok (g a)) (.of_ok a)

/-- Whether a scan goes on behind the last record of the cluster buffer: the number of the next cluster is not the
    end mark, and that cluster can be read. -/
def goesOn (d : Drive) (s : FsState) : Bool :=
  s.dirClusterIndex ≠ 8 &&
    match load .clusters s.currentDir.clusters (s.dirClusterIndex + 1) with
    | .error _ => true
    | .ok cluster => cluster ≠ END_OF_CHAIN && goodSectors d s.waits 4 = 4

section Functions

variable {d : Drive} {s t : FsState}

theorem leaveCluster_storesInName_iff {R : Type} (h4 : FourSectors s.fileSys) :
    StoresInName (leaveCluster (R := R) d s) ↔ goesOn d s = false := by
  have hspc : s.fileSys.A_BF_BPB_SectorsPerCluster.toNat = 4 := by rw [h4.sectorsPerCluster]; rfl
  unfold leaveCluster goesOn
  by_cases hidx : s.dirClusterIndex = 8
  · rw [if_neg (not_not.mpr hidx), decide_eq_false (not_not.mpr hidx), Bool.false_and]
    exact iff_of_true (.of_ok _) rfl
  rw [if_pos hidx, decide_eq_true hidx, Bool.true_and]
  cases load .clusters s.currentDir.clusters (s.dirClusterIndex + 1) with
  | error f => exact iff_of_false (fun h => h f rfl) (by simp)
  | ok cluster =>
    rw [ok_bind]
    dsimp only
    by_cases hend : cluster = END_OF_CHAIN
    · rw [if_neg (not_not.mpr hend), decide_eq_false (not_not.mpr hend)]
      exact iff_of_true (.of_ok _) rfl
    · rw [if_pos hend, decide_eq_true hend, load_Cluster_eq d s _ hspc (by omega), ok_bind, Bool.true_and]
      by_cases hall : goodSectors d s.waits 4 = 4
      · -- the scan goes on at index 2048
        rw [decide_eq_true hall]
        exact iff_of_false (fun h => h _ rfl) (by decide)
      · rw [decide_eq_false hall]
        exact iff_of_true (.of_ok _) rfl

theorem goesOn_out (d : Drive) (s : FsState) (out : List UInt8) : goesOn d { s with out := out } = goesOn d s := rfl

/-- A listing stores inside the name buffer exactly if the scan of the cluster does, and ends there. -/
theorem listFiles_storesInName_iff (h4 : FourSectors s.fileSys) (hload : loadFirst d s = .ok (true, t)) :
    StoresInName (listFiles d s) ↔ piecesFit (goesOn d t) t.ClusterBuffer 64 0 0 = true := by
  have h4' : FourSectors t.fileSys := loadFirst_fileSys hload ▸ h4
  rw [listFiles_cluster h4 hload, piecesFit_iff]
  cases hend : clusterEnd t.ClusterBuffer with
  | stops => exact iff_of_true (.of_ok _) (by simp)
  | through =>
    dsimp only
    rw [StoresInName.map_iff, leaveCluster_storesInName_iff (s := { t with out := t.out ++ clusterListing t.ClusterBuffer }) h4', goesOn_out]
    simp
  | fault f => exact iff_of_false (fun h => h f rfl) (fun h => h.1 f rfl)

/-- What is accessed outside an array behind the last record: the cluster buffer at its end, or the numbers of
    the clusters. -/
theorem leaveCluster_error {R : Type} {f : Fault} (h4 : FourSectors s.fileSys)
    (h : leaveCluster (R := R) d s = .error f) : f = ⟨.ClusterBuffer, 2048⟩ ∨ f.obj = .clusters := by
  have hspc : s.fileSys.A_BF_BPB_SectorsPerCluster.toNat = 4 := by rw [h4.sectorsPerCluster]; rfl
  unfold leaveCluster at h
  split at h
  · unfold load at h
    split at h
    · rw [ok_bind, load_Cluster_eq d s _ hspc (by omega), ok_bind] at h
      dsimp only at h
      split at h
      · split at h <;> cases h
        exact .inl rfl
      · cases h
    · cases h
      exact .inr rfl
  · cases h

/-- Any other such access of a listing is to the name buffer. -/
theorem listFiles_error {f : Fault} (h4 : FourSectors s.fileSys) (hload : loadFirst d s = .ok (true, t))
    (h : listFiles d s = .error f) : f.obj = .longName ∨ f = ⟨.ClusterBuffer, 2048⟩ ∨ f.obj = .clusters := by
  have h4' : FourSectors t.fileSys := loadFirst_fileSys hload ▸ h4
  rw [listFiles_cluster h4 hload] at h
  cases hend : clusterEnd t.ClusterBuffer with
  | stops =>
    rw [hend] at h
    cases h
  | through =>
    rw [hend] at h
    dsimp only at h
    cases hleave : leaveCluster (R := Unit) d { t with out := t.out ++ clusterListing t.ClusterBuffer } with
    | error f' =>
      rw [hleave] at h
      cases h
      exact .inr (leaveCluster_error (s := { t with out := t.out ++ clusterListing t.ClusterBuffer }) h4' hleave)
    | ok p =>
      rw [hleave] at h
      cases h
  | fault f' =>
    rw [hend] at h
    cases h
    exact .inl (clusterScan_fault_obj hend)

/-- A search does, if the scan of the cluster does. -/
theorem findRecord_storesInName (h4 : FourSectors s.fileSys) (hload : loadFirst d s = .ok (true, t))
    (hfits : piecesFit (goesOn d t) t.ClusterBuffer 64 0 0 = true) (q : List UInt8) :
    StoresInName (findRecord d s q) := by
  have h4' : FourSectors t.fileSys := loadFirst_fileSys hload ▸ h4
  obtain ⟨hnofault, hthrough⟩ := (piecesFit_iff _ _).mp hfits
  by_cases hlen : q.length > 104
  · rw [findRecord, if_pos hlen]
    exact .of_ok _
  rw [findRecord_cluster h4 hload (by omega)]
  cases clusterLookup t.ClusterBuffer (searchTerm q) with
  | some k => exact .of_ok _
  | none =>
    cases hend : clusterEnd t.ClusterBuffer with
    | stops => exact .of_ok _
    | through => exact (leaveCluster_storesInName_iff h4').mpr (hthrough hend)
    | fault f => exact absurd hend (hnofault f)

/-- Filling the file stores nothing. -/
theorem findFile_storesInName {q : List UInt8} (h : StoresInName (findRecord d s q)) (file : File) :
    StoresInName (findFile d s q file) := by
  refine .bind h fun res _ => ?_
  obtain ⟨off, u⟩ := res
  cases off with
  | none => exact .of_ok _
  | some off =>
    obtain ⟨file', w, hfill, _⟩ := fillFile_returns d u (subBuffer u.ClusterBuffer off) file
    dsimp only
    rw [hfill]
    exact .of_ok _

/-- Without a cluster that is loaded there is no scan. -/
theorem scan_unloaded {R : Type} (visit : Visit R) (hload : loadFirst d s = .ok (false, t)) :
    scan d visit s = .ok (none, t) := by
  rw [scan, hload]
  rfl

theorem loadFirst_returns (d : Drive) (h : s.fileSys.A_BF_BPB_SectorsPerCluster = 4) :
    ∃ ok t, loadFirst d s = .ok (ok, t) := by
  have hspc : s.fileSys.A_BF_BPB_SectorsPerCluster.toNat = 4 := by rw [h]; rfl
  unfold loadFirst
  split
  · exact ⟨_, _, load_Cluster_eq d s _ hspc (by omega)⟩
  · exact ⟨true, s, rfl⟩

/-- The scanning functions store long names inside the name buffer exactly if every piece that they accept in
    the cluster they scan has a number from 1 to 8, and they end in it or no cluster is loaded behind it. -/
theorem longNameStores_iff (d : Drive) (s : FsState) (h4 : FourSectors s.fileSys) :
    (StoresInName (listFiles d s) ∧ ∀ q file, StoresInName (findFile d s q file)) ↔
      ∀ t, loadFirst d s = .ok (true, t) → piecesFit (goesOn d t) t.ClusterBuffer 64 0 0 = true := by
  constructor
  · exact fun h t hload => (listFiles_storesInName_iff h4 hload).mp h.1
  · intro hfits
    obtain ⟨ok, t, hload⟩ := loadFirst_returns d h4.sectorsPerCluster
    cases ok with
    | true =>
      exact ⟨(listFiles_storesInName_iff h4 hload).mpr (hfits t hload),
        fun q file => findFile_storesInName (findRecord_storesInName h4 hload (hfits t hload) q) file⟩
    | false =>
      -- no cluster is loaded, so there is no scan
      refine ⟨?_, fun q file => findFile_storesInName ?_ file⟩
      · rw [listFiles, scan_unloaded _ hload]
        exact .of_ok _
      · unfold findRecord
        split
        · exact .of_ok _
        · rw [scan_unloaded _ hload]
          exact .of_ok _

theorem longNameStores_iff_letter :
    FourSectors (withDirectory letterRecords).fileSys ∧
    ((StoresInName (listFiles (healthyDrive fun _ => 0) (withDirectory letterRecords)) ∧
        ∀ q file, StoresInName (findFile (healthyDrive fun _ => 0) (withDirectory letterRecords) q file)) ↔
      ∀ t, loadFirst (healthyDrive fun _ => 0) (withDirectory letterRecords) = .ok (true, t) →
        piecesFit (goesOn (healthyDrive fun _ => 0) t) t.ClusterBuffer 64 0 0 = true) := by
  have h4 : FourSectors (withDirectory letterRecords).fileSys := ⟨by decide, by decide⟩
  exact ⟨h4, longNameStores_iff (healthyDrive fun _ => 0) (withDirectory letterRecords) h4⟩

/-- A record with the mark of a first piece and number 0 is stored from index -13 on. -/
theorem not_longNameStores :
    let records : List UInt8 := [0x40, 97, 0, 98, 0, 99, 0, 100, 0, 101, 0, 0x0F]
    listFiles (healthyDrive fun _ => 0) (withDirectory records) = .error ⟨.longName, -13⟩ ∧
      ¬ StoresInName (listFiles (healthyDrive fun _ => 0) (withDirectory records)) := by
  intro records
  have h4 : FourSectors (withDirectory records).fileSys := ⟨by decide, by decide⟩
  have hload : loadFirst (healthyDrive fun _ => 0) (withDirectory records) = .ok (true, withDirectory records) := rfl
  have hend : clusterEnd (withDirectory records).ClusterBuffer = .fault ⟨.longName, -13⟩ := by decide
  have hrun : listFiles (healthyDrive fun _ => 0) (withDirectory records) = .error ⟨.longName, -13⟩ := by
    rw [listFiles_cluster h4 hload, hend]
  exact ⟨hrun, fun h => h _ hrun⟩

end Functions

end SoreOS
