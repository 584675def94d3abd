import SoreOS.Spec.ScanFrame

/-!
# Rounds of a directory scan

What one round of the scanning loop does at each kind of record of a cluster:
the end of the directory, a deleted record, a piece of a long file name, a file.

## Key results

- `readLFN_ok`, `readLFN_fault`: when the pieces of a name fit the name buffer
- `nextRecord_within`, `nextRecord_last`: the end of a round
- `scanRound_end`, `scanRound_deleted`, `scanRound_piece`, `scanRound_file`: the rounds
-/

namespace SoreOS

open ForStd

/-- The offset at which the loops leave a cluster. -/
def clusterBytes (hdr : FAT32_HEADER) : Int :=
  hdr.A_BF_BPB_SectorsPerCluster.toNat * hdr.A_BF_BPB_BytesPerSector.toNat

/-- Clusters of four sectors of 512 bytes, the size of the cluster buffer. -/
structure FourSectors (hdr : FAT32_HEADER) : Prop where
  sectorsPerCluster : hdr.A_BF_BPB_SectorsPerCluster = 4
  bytesPerSector : hdr.A_BF_BPB_BytesPerSector = 512

theorem FourSectors.clusterBytes_eq {hdr : FAT32_HEADER} (h : FourSectors hdr) :
    clusterBytes hdr = 2048 := by
  unfold clusterBytes
  rw [h.sectorsPerCluster, h.bytesPerSector]
  decide

/-! ## Visits -/

/-- A visit that changes nothing but the output. -/
def Quiet {R : Type} (visit : Visit R) : Prop :=
  ∀ s off longName, ∃ out, (visit s off longName).2 = { s with out := out }

theorem listVisit_quiet : Quiet listVisit := fun _ _ _ => ⟨_, rfl⟩

theorem findVisit_quiet (name : List UInt8) : Quiet (findVisit name) := by
  intro s off longName
  refine ⟨s.out, ?_⟩
  unfold findVisit
  split <;> rfl

/-! ## Pieces of a long file name -/

/-- The name buffer after the characters at some positions of a record were read to it. -/
def withPiece (r : Bytes) (positions : List Int) (idx : Int) (longName : Bytes) : Bytes :=
  longName.copyFrom idx (fun i => LFNChar r (positions.getD i.toNat 0)) 0 positions.length

theorem withPiece_apply (r : Bytes) (positions : List Int) (idx : Int) (longName : Bytes) (i : Int) :
    withPiece r positions idx longName i =
      if idx ≤ i ∧ i < idx + positions.length then
        LFNChar r (positions.getD (i - idx).toNat 0) else longName i := by
  rw [withPiece, Mem.copyFrom_apply, Int.zero_add]

theorem withPiece_cons (r : Bytes) (pos : Int) (positions : List Int) (idx : Int)
    (longName : Bytes) : withPiece r positions (idx + 1) (longName.set idx (LFNChar r pos)) =
      withPiece r (pos :: positions) idx longName := by
  funext i
  rw [withPiece_apply, withPiece_apply, List.length_cons]
  push_cast
  by_cases hi : i = idx
  · subst hi
    rw [if_neg (by omega), if_pos (by omega), Mem.set_same, Int.sub_self]
    rfl
  · by_cases hin : idx + 1 ≤ i ∧ i < idx + 1 + positions.length
    · obtain ⟨k, hk⟩ : ∃ k, (i - idx).toNat = k + 1 := ⟨(i - idx).toNat - 1, by omega⟩
      rw [if_pos hin, if_pos (by omega), hk, List.getD_cons_succ,
        show (i - (idx + 1)).toNat = k from by omega]
    · rw [if_neg hin, if_neg (by omega), Mem.set_other _ _ hi]

/-- A piece that fits is read. -/
theorem readLFN_ok (r : Bytes) (positions : List Int) {idx : Int} (longName : Bytes) (h : 0 ≤ idx)
    (h' : idx + positions.length ≤ 105) :
    readLFN r positions idx longName = .ok (withPiece r positions idx longName) := by
  induction positions generalizing idx longName with
  | nil => rfl
  | cons pos positions ih =>
    rw [List.length_cons] at h'
    push_cast at h'
    rw [readLFN, store_ok _ _ h (by simp only [Obj.size]; omega), ok_bind,
      ih _ (by omega) (by omega), withPiece_cons]

/-- One that does not fit faults. -/
theorem readLFN_fault (r : Bytes) {positions : List Int} {idx : Int} (longName : Bytes)
    (hne : positions ≠ []) (h : idx < 0 ∨ 105 < idx + positions.length) :
    ∃ f, readLFN r positions idx longName = .error f := by
  induction positions generalizing idx longName with
  | nil => exact absurd rfl hne
  | cons pos positions ih =>
    rw [List.length_cons] at h
    push_cast at h
    rw [readLFN]
    by_cases hin : 0 ≤ idx ∧ idx < 105
    · rw [store_ok (o := .longName) _ _ hin.1 hin.2, ok_bind]
      cases positions with
      | nil => simp only [List.length_nil] at h; omega
      | cons pos' positions => exact ih _ (List.cons_ne_nil _ _) (by omega)
    · have hstore : store .longName longName idx (LFNChar r pos) = .error ⟨.longName, idx⟩ :=
        if_neg hin
      exact ⟨⟨.longName, idx⟩, by rw [hstore, error_bind]⟩

/-! ## The end of a round -/

section Rounds

variable {R : Type} {d : Drive} {visit : Visit R} {s : FsState} {v : Scan}

/-- Inside the cluster the scan goes on with the next record. -/
theorem nextRecord_within (hoff : v.recordOffset + 32 ≠ clusterBytes s.fileSys) :
    nextRecord (R := R) d s v = .ok (.next s { v with recordOffset := v.recordOffset + 32 }) := by
  unfold clusterBytes at hoff
  rw [nextRecord]
  simp only [if_neg hoff, pure_eq_ok]

/-- At the end of the last cluster the scan ends. -/
theorem nextRecord_last (h : FourSectors s.fileSys) (hoff : v.recordOffset + 32 = 2048)
    (hidx : s.dirClusterIndex = 0) (hmark : s.currentDir.clusters 1 = END_OF_CHAIN) :
    nextRecord (R := R) d s v = .ok (.ended none s) := by
  have hbytes := h.clusterBytes_eq
  unfold clusterBytes at hbytes
  rw [nextRecord]
  simp only [hbytes, if_pos hoff, hidx, Int.zero_add]
  rw [if_pos (by decide), load_ok _ (by decide) (by decide), ok_bind, hmark]
  rfl

/-- At the end of another cluster the next one is loaded, but the offset stays. -/
theorem nextRecord_more (h : FourSectors s.fileSys) (hoff : v.recordOffset + 32 = 2048)
    (hidx : s.dirClusterIndex = 0) {c : Int} (hnext : s.currentDir.clusters 1 = c)
    (hne : c ≠ END_OF_CHAIN) (hgood : ∀ n, s.waits ≤ n → d.good n = true) :
    ∃ t, nextRecord (R := R) d s v = .ok (.next t { v with recordOffset := 2048 }) := by
  obtain ⟨t, hload⟩ : ∃ t, load_Cluster d s c = .ok (true, t) :=
    ⟨_, load_Cluster_good c h.sectorsPerCluster hgood⟩
  refine ⟨{ t with dirClusterIndex := t.dirClusterIndex + 1 }, ?_⟩
  have hbytes := h.clusterBytes_eq
  unfold clusterBytes at hbytes
  rw [nextRecord]
  simp only [hbytes, if_pos hoff, hidx, Int.zero_add]
  rw [if_pos (by decide), load_ok _ (by decide) (by decide), ok_bind, hnext, if_pos hne, hload,
    ok_bind]
  simp only [if_true, hoff, Int.add_zero, pure_eq_ok]

/-- The end of a round ends the scan without a result. -/
theorem nextRecord_ended {res : Option R} {t : FsState}
    (h : nextRecord d s v = .ok (.ended res t)) : res = none := by
  cases nextRecord_step h with
  | last => rfl
  | failed i t hload => rfl

/-- The end of a round leaves the state alone or leads to the offset behind a cluster. -/
theorem nextRecord_next {t : FsState} {w : Scan} (h : nextRecord (R := R) d s v = .ok (.next t w)) :
    t = s ∨ w.recordOffset = clusterBytes s.fileSys := by
  cases nextRecord_step h with
  | within => exact .inl rfl
  | loaded i t hload hend => exact .inr hend

/-! ## The rounds -/

variable (hin : 0 ≤ v.recordOffset) (hin' : v.recordOffset < 2048)
include hin hin'

theorem scanRound_end (h0 : s.ClusterBuffer v.recordOffset = 0) :
    scanRound d visit s v = .ok (.ended none s) := by
  rw [scanRound, load_ok (o := .ClusterBuffer) _ hin hin', ok_bind]
  simp only [if_pos h0, pure_eq_ok]

theorem scanRound_deleted (hdel : s.ClusterBuffer v.recordOffset = 0xE5) :
    scanRound d visit s v = nextRecord d s v := by
  rw [scanRound, load_ok (o := .ClusterBuffer) _ hin hin', ok_bind]
  simp only [hdel]
  rfl

variable (h0 : s.ClusterBuffer v.recordOffset ≠ 0) (hdel : s.ClusterBuffer v.recordOffset ≠ 0xE5)
include h0 hdel

/-- A piece out of sequence ends the scan. -/
theorem scanRound_mismatch (hlfn : isLFN (subBuffer s.ClusterBuffer v.recordOffset) = true)
    (hidx : (s.ClusterBuffer v.recordOffset &&& 0x0F).toNat ≠
      expectedIdx (s.ClusterBuffer v.recordOffset) v.LongFileNameIdx) :
    scanRound d visit s v = .ok (.ended none s) := by
  rw [scanRound, load_ok (o := .ClusterBuffer) _ hin hin', ok_bind]
  simp only [if_neg h0, if_neg hdel, if_pos hlfn, if_neg hidx, pure_eq_ok]

/-- A piece in sequence is read to its place in the name buffer. -/
theorem scanRound_piece (hlfn : isLFN (subBuffer s.ClusterBuffer v.recordOffset) = true)
    (idx : Int) (hidx : (s.ClusterBuffer v.recordOffset &&& 0x0F).toNat = idx + 1)
    (hexp : expectedIdx (s.ClusterBuffer v.recordOffset) v.LongFileNameIdx = idx + 1) :
    scanRound d visit s v =
      readLFN (subBuffer s.ClusterBuffer v.recordOffset) LFN_idxs (idx * 13) v.longName >>=
        fun longName => nextRecord d s { v with LongFileNameIdx := idx, longName := longName } := by
  rw [scanRound, load_ok (o := .ClusterBuffer) _ hin hin', ok_bind]
  simp only [if_neg h0, if_neg hdel, if_pos hlfn, hexp, if_pos hidx, Int.add_sub_cancel]

/-- The record of a file is given to the visit, which may end the scan. -/
theorem scanRound_found (hfile : isLFN (subBuffer s.ClusterBuffer v.recordOffset) = false) {t : FsState}
    {res : R} (hvisit : visit s v.recordOffset (cstr v.longName 105) = (some res, t)) :
    scanRound d visit s v = .ok (.ended (some res) t) := by
  rw [scanRound, load_ok (o := .ClusterBuffer) _ hin hin', ok_bind]
  simp only [if_neg h0, if_neg hdel, hfile, hvisit]
  rfl

/-- Otherwise the name buffer is cleared and the scan goes on. -/
theorem scanRound_file (hfile : isLFN (subBuffer s.ClusterBuffer v.recordOffset) = false) {t : FsState}
    (hvisit : visit s v.recordOffset (cstr v.longName 105) = (none, t)) :
    scanRound d visit s v =
      nextRecord d t { v with longName := memset v.longName 0 0 105 } := by
  rw [scanRound, load_ok (o := .ClusterBuffer) _ hin hin', ok_bind]
  simp only [if_neg h0, if_neg hdel, hfile, hvisit]
  rfl

omit hin hin' h0 hdel in
/-- A round ends the scan with a result only if the visit did. -/
theorem scanRound_ended {res : R} {t : FsState} (h : scanRound d visit s v = .ok (.ended (some res) t)) :
    ∃ off longName, visit s off longName = (some res, t) := by
  obtain ⟨-, -, hstep⟩ := scanRound_step h
  cases hstep with
  | deleted _ hnext => exact nomatch nextRecord_ended hnext
  | piece _ _ _ idx longName _ _ _ hnext => exact nomatch nextRecord_ended hnext
  | found _ _ _ hvisit => exact ⟨_, _, hvisit⟩
  | file _ _ _ _ hnext => exact nomatch nextRecord_ended hnext

omit hin hin' h0 hdel in
/-- A round of a search that goes on, likewise. -/
theorem scanRound_next {name : List UInt8} {t : FsState} {w : Scan}
    (h : scanRound d (findVisit name) s v = .ok (.next t w)) :
    t = s ∨ w.recordOffset = clusterBytes s.fileSys := by
  obtain ⟨-, -, hstep⟩ := scanRound_step h
  cases hstep with
  | deleted _ hnext => exact nextRecord_next hnext
  | piece _ _ _ idx longName _ _ _ hnext => exact nextRecord_next hnext
  | file _ _ _ hvisit hnext =>
    -- the visit of a search changes nothing
    rename_i u
    have hu : u = s := by
      unfold findVisit at hvisit
      split at hvisit <;> cases hvisit
      rfl
    rw [hu] at hnext
    exact nextRecord_next hnext

end Rounds

/-! ## Searches -/

section Search

variable {d : Drive}

/-- A search that ends at a record has not left the cluster it began with. -/
theorem scanLoop_found {name : List UInt8} {rounds : Nat} {s t : FsState} {v : Scan} {off : Int}
    (h4 : FourSectors s.fileSys) (h : scanLoop d (findVisit name) rounds s v = .ok (some off, t)) :
    t = s := by
  induction rounds generalizing s v with
  | zero => cases h
  | succ rounds ih =>
    rw [scanLoop] at h
    obtain ⟨round, hround, h⟩ := bind_eq_ok.mp h
    cases round with
    | ended res u =>
      obtain ⟨rfl, rfl⟩ := Prod.mk.inj (Except.ok.inj h)
      obtain ⟨off', longName, hvisit⟩ := scanRound_ended hround
      unfold findVisit at hvisit
      split at hvisit <;> cases hvisit
      rfl
    | next u w =>
      have hrest : scanLoop d (findVisit name) rounds u w = .ok (some off, t) := h
      obtain heq | hoff := scanRound_next hround
      · rw [heq] at hrest
        exact ih h4 hrest
      · -- the next round would begin behind the buffer
        rw [h4.clusterBytes_eq] at hoff
        have hfault : scanRound d (findVisit name) u w = .error ⟨.ClusterBuffer, w.recordOffset⟩ := by
          rw [scanRound, load, if_neg (by rw [hoff]; decide), error_bind]
        cases rounds with
        | zero => cases hrest
        | succ rounds =>
          rw [scanLoop, hfault, error_bind] at hrest
          cases hrest

theorem loadFirst_fileSys {s t : FsState} {ok : Bool} (h : loadFirst d s = .ok (ok, t)) :
    t.fileSys = s.fileSys := by
  unfold loadFirst at h
  split at h
  · obtain ⟨m, i, n, rfl⟩ := load_Cluster_frame h
    rfl
  · cases h
    rfl

/-- So the directory was loaded, and nothing else. -/
theorem findRecord_found {q : List UInt8} {s t : FsState} {off : Int} (h4 : FourSectors s.fileSys)
    (h : findRecord d s q = .ok (some off, t)) : loadFirst d s = .ok (true, t) := by
  unfold findRecord at h
  split at h
  · cases h
  · unfold scan at h
    obtain ⟨⟨ok, u⟩, hload, h⟩ := bind_eq_ok.mp h
    cases ok with
    | true =>
      have hfs := loadFirst_fileSys hload
      have h : scanLoop d (findVisit (searchTerm q)) 65 u {} = .ok (some off, t) := h
      rw [hload, scanLoop_found (hfs ▸ h4) h]
    | false => cases h

end Search

end SoreOS
