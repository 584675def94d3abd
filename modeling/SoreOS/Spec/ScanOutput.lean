import SoreOS.Spec.ClusterScan

/-!
# What a scan has printed

The output of a listing up to its end, or up to an access outside an array: the lines of
all records it has come to by then. The model's faults carry no state, so this output is
defined next to the loop, round by round.

## Key results

- `listFiles_out`: it is the output of the state, if the listing returns
- `listOutput_cluster`: it is the listing of the cluster, however the scan ends
-/

namespace SoreOS

open ForStd

variable {R : Type}

/-- What has been printed when a round ends or faults. The record of a file is visited before anything of its
    round can fail, and no other record prints. -/
def roundOutput (visit : Visit R) (s : FsState) (v : Scan) : List UInt8 :=
  match load .ClusterBuffer s.ClusterBuffer v.recordOffset with
  | .error _ => s.out
  | .ok first =>
    if first = 0 ∨ first = 0xE5 ∨ isLFN (subBuffer s.ClusterBuffer v.recordOffset) = true then s.out
    else (visit s v.recordOffset (cstr v.longName 105)).2.out

/-- What has been printed when the loop ends or faults. -/
def scanOutput (d : Drive) (visit : Visit R) : Nat → FsState → Scan → List UInt8
  | 0, s, _ => s.out
  | rounds + 1, s, v =>
    match scanRound d visit s v with
    | .ok (.next s v) => scanOutput d visit rounds s v
    | _ => roundOutput visit s v

/-- What has been printed when `listFiles` ends or faults. -/
def listOutput (d : Drive) (s : FsState) : List UInt8 :=
  match loadFirst d s with
  | .ok (true, s) => scanOutput d listVisit 65 s {}
  | .ok (false, s) => s.out
  | .error _ => s.out

section Rounds

variable {d : Drive} {visit : Visit R} {s t : FsState} {v w : Scan}

/-- The end of a round prints nothing. -/
theorem nextRecord_out {round : Round R} (h : nextRecord d s v = .ok round) : round.state.out = s.out := by
  cases nextRecord_step h with
  | within => rfl
  | last => rfl
  | failed i t hload =>
    obtain ⟨m, i', n, rfl⟩ := load_Cluster_frame hload
    rfl
  | loaded i t hload hend =>
    obtain ⟨m, i', n, rfl⟩ := load_Cluster_frame hload
    rfl

theorem roundOutput_none (h : s.ClusterBuffer v.recordOffset = 0 ∨ s.ClusterBuffer v.recordOffset = 0xE5 ∨
    isLFN (subBuffer s.ClusterBuffer v.recordOffset) = true) : roundOutput visit s v = s.out := by
  unfold roundOutput
  by_cases hin : 0 ≤ v.recordOffset ∧ v.recordOffset < 2048
  · rw [load_ok (o := .ClusterBuffer) _ hin.1 hin.2]
    exact if_pos h
  · have hfault : load .ClusterBuffer s.ClusterBuffer v.recordOffset = .error ⟨.ClusterBuffer, v.recordOffset⟩ := if_neg hin
    rw [hfault]

theorem roundOutput_file (hin : 0 ≤ v.recordOffset) (hin' : v.recordOffset < 2048)
    (h0 : s.ClusterBuffer v.recordOffset ≠ 0) (hdel : s.ClusterBuffer v.recordOffset ≠ 0xE5)
    (hfile : isLFN (subBuffer s.ClusterBuffer v.recordOffset) = false) {res : Option R}
    (hvisit : visit s v.recordOffset (cstr v.longName 105) = (res, t)) : roundOutput visit s v = t.out := by
  unfold roundOutput
  rw [load_ok (o := .ClusterBuffer) _ hin hin']
  dsimp only
  rw [if_neg (by simp [h0, hdel, hfile]), hvisit]

/-- If a round returns, this is the output of its state. -/
theorem scanRound_out {round : Round R} (h : scanRound d visit s v = .ok round) :
    round.state.out = roundOutput visit s v := by
  obtain ⟨hin, hin', hstep⟩ := scanRound_step h
  cases hstep with
  | noMore h0 => exact (roundOutput_none (.inl h0)).symm
  | deleted hdel hnext => exact (nextRecord_out hnext).trans (roundOutput_none (.inr (.inl hdel))).symm
  | piece h0 hdel hlfn idx longName hidx hexp hname hnext =>
    exact (nextRecord_out hnext).trans (roundOutput_none (.inr (.inr hlfn))).symm
  | mismatch h0 hdel hlfn => exact (roundOutput_none (.inr (.inr hlfn))).symm
  | found h0 hdel hfile hvisit => exact (roundOutput_file hin hin' h0 hdel hfile hvisit).symm
  | file h0 hdel hfile hvisit hnext =>
    exact (nextRecord_out hnext).trans (roundOutput_file hin hin' h0 hdel hfile hvisit).symm

theorem scanLoop_out {rounds : Nat} {res : Option R} (h : scanLoop d visit rounds s v = .ok (res, t)) :
    t.out = scanOutput d visit rounds s v := by
  induction rounds generalizing s v with
  | zero => cases h
  | succ rounds ih =>
    rw [scanLoop] at h
    obtain ⟨round, hround, h⟩ := bind_eq_ok.mp h
    rw [scanOutput, hround]
    cases round with
    | ended res' u =>
      obtain ⟨-, rfl⟩ := Prod.mk.inj (Except.ok.inj h)
      exact scanRound_out hround
    | next u w => exact ih h

end Rounds

/-- If a listing returns, this is the output of its state. -/
theorem listFiles_out {d : Drive} {s t : FsState} (h : listFiles d s = .ok t) : t.out = listOutput d s := by
  unfold listFiles scan at h
  obtain ⟨⟨res, u⟩, hscan, hret⟩ := bind_eq_ok.mp h
  obtain rfl := Except.ok.inj hret
  obtain ⟨⟨ok, v⟩, hload, hloop⟩ := bind_eq_ok.mp hscan
  rw [listOutput, hload]
  cases ok with
  | true => exact scanLoop_out hloop
  | false =>
    cases hloop
    rfl

/-! ## A cluster -/

/-- The line of a file in a listing. -/
def fileLine (buf : Bytes) (p : Nat × List UInt8) : List UInt8 :=
  (if p.2 = [] then shortName (subBuffer buf (32 * p.1)) else p.2) ++ [NEWLINE]

section Cluster

variable {d : Drive} {s t : FsState}

/-- The rest of the output after a round that goes on with the next record. -/
theorem scanOutput_advance {v : Scan} {n k : Nat} (h4 : FourSectors s.fileSys) (hk : k + (n + 1) = 64) {idx : Int}
    {longName : Bytes} (hround : scanRound d listVisit t v = nextRecord d s ⟨32 * k, idx, longName⟩)
    (hout : roundOutput listVisit t v = s.out) {l : List UInt8} (hzero : n = 0 → l = [])
    (hrest : 0 < n → scanOutput d listVisit (n + 1) s ⟨32 * (k + 1 : Nat), idx, longName⟩ = s.out ++ l) :
    scanOutput d listVisit (n + 2) t v = s.out ++ l := by
  cases n with
  | zero =>
    obtain rfl := hzero rfl
    rw [List.append_nil, scanOutput, hround]
    cases hnext : nextRecord (R := Unit) d s ⟨32 * k, idx, longName⟩ with
    | error f => exact hout
    | ok round =>
      cases round with
      | ended res u => exact hout
      | next u w =>
        -- the next round begins behind the buffer
        have hoff : w.recordOffset = 2048 := by
          cases nextRecord_step hnext with
          | within => dsimp only; omega
          | loaded i t hload hend => dsimp only; omega
        have hfault : scanRound d listVisit u w = .error ⟨.ClusterBuffer, w.recordOffset⟩ := by
          rw [scanRound, load, if_neg (by rw [hoff]; decide), error_bind]
        dsimp only
        rw [scanOutput, hfault]
        dsimp only
        rw [roundOutput, load, if_neg (by rw [hoff]; decide)]
        exact nextRecord_out hnext
  | succ n =>
    rw [nextRecord_within (by rw [h4.clusterBytes_eq]; dsimp only; omega)] at hround
    dsimp only at hround
    rw [show (32 * (k : Int) + 32) = 32 * (k + 1 : Nat) from by push_cast; omega] at hround
    rw [scanOutput, hround]
    exact hrest (Nat.succ_pos n)

/-- From the `k`th record on, with a round left behind the last record. -/
theorem scanOutput_cluster (n : Nat) {k : Nat} {s : FsState} {idx : Int} {longName : Bytes}
    (h4 : FourSectors s.fileSys) (hn : 0 < n) (hk : k + n = 64) :
    scanOutput d listVisit (n + 1) s ⟨32 * k, idx, longName⟩ =
      s.out ++ (clusterScan s.ClusterBuffer n k idx longName).1.flatMap (fileLine s.ClusterBuffer) := by
  induction n generalizing k s idx longName with
  | zero => exact absurd hn (Nat.lt_irrefl 0)
  | succ n ih =>
    have hin : (0 : Int) ≤ 32 * k := by omega
    have hin' : (32 * k : Int) < 2048 := by omega
    have hzero : ∀ idx longName, n = 0 →
        (clusterScan s.ClusterBuffer n (k + 1) idx longName).1.flatMap (fileLine s.ClusterBuffer) = [] := by
      rintro idx longName rfl
      rfl
    rw [clusterScan]
    dsimp only
    by_cases h0 : s.ClusterBuffer (32 * (k : Int)) = 0
    · rw [if_pos h0, scanOutput, scanRound_end (v := ⟨32 * k, idx, longName⟩) hin hin' h0]
      dsimp only
      rw [roundOutput_none (.inl h0), List.flatMap_nil, List.append_nil]
    rw [if_neg h0]
    by_cases hdel : s.ClusterBuffer (32 * (k : Int)) = 0xE5
    · rw [if_pos hdel]
      exact scanOutput_advance h4 hk (scanRound_deleted hin hin' hdel) (roundOutput_none (.inr (.inl hdel))) (hzero _ _)
        fun hpos => ih h4 hpos (by omega)
    rw [if_neg hdel]
    cases hlfn : isLFN (subBuffer s.ClusterBuffer (32 * (k : Int))) with
    | true =>
      have hout : ∀ v : Scan, v.recordOffset = 32 * (k : Int) → roundOutput listVisit s v = s.out := fun v hv =>
        roundOutput_none (.inr (.inr (hv ▸ hlfn)))
      rw [if_pos rfl]
      by_cases hidx : (s.ClusterBuffer (32 * (k : Int)) &&& 0x0F).toNat =
          expectedIdx (s.ClusterBuffer (32 * (k : Int))) idx
      · rw [if_pos hidx]
        have hcancel := (Int.sub_add_cancel (expectedIdx (s.ClusterBuffer (32 * (k : Int))) idx) 1).symm
        have hround := @scanRound_piece Unit d listVisit s ⟨32 * k, idx, longName⟩ hin hin' h0 hdel hlfn
          _ (hidx.trans hcancel) hcancel
        cases hread : readLFN (subBuffer s.ClusterBuffer (32 * (k : Int))) LFN_idxs
            ((expectedIdx (s.ClusterBuffer (32 * (k : Int))) idx - 1) * 13) longName with
        | ok longName' =>
          dsimp only at hround
          rw [hread, ok_bind] at hround
          exact scanOutput_advance h4 hk hround (hout _ rfl) (hzero _ _) fun hpos => ih h4 hpos (by omega)
        | error f =>
          -- a piece that does not fit: nothing of this round has been printed
          dsimp only at hround
          rw [hread, error_bind] at hround
          rw [scanOutput, hround]
          exact (hout _ rfl).trans (List.append_nil _).symm
      · rw [if_neg hidx, scanOutput, scanRound_mismatch (v := ⟨32 * k, idx, longName⟩) hin hin' h0 hdel hlfn hidx]
        exact (hout _ rfl).trans (List.append_nil _).symm
    | false =>
      rw [if_neg Bool.false_ne_true]
      dsimp only
      have hvisit : listVisit s (32 * k) (cstr longName 105) =
          (none, { s with out := s.out ++ fileLine s.ClusterBuffer (k, cstr longName 105) }) := by
        rw [listVisit, fileLine, ← List.append_assoc]
      rw [List.flatMap_cons, ← List.append_assoc]
      exact scanOutput_advance (s := { s with out := s.out ++ fileLine s.ClusterBuffer (k, cstr longName 105) }) h4 hk
        (scanRound_file (v := ⟨32 * k, idx, longName⟩) hin hin' h0 hdel hlfn hvisit)
        (roundOutput_file hin hin' h0 hdel hlfn hvisit) (hzero _ _) fun hpos => ih h4 hpos (by omega)

/-- A listing of the directory in the buffer. -/
theorem listOutput_cluster (h4 : FourSectors s.fileSys) (hload : loadFirst d s = .ok (true, t)) :
    listOutput d s = t.out ++ clusterListing t.ClusterBuffer := by
  have hfs := loadFirst_fileSys hload
  have hstart : ({} : Scan) = ⟨32 * (0 : Nat), 0, fun _ => 0⟩ := rfl
  rw [listOutput, hload, hstart]
  exact (scanOutput_cluster 64 (hfs ▸ h4) (Nat.succ_pos _) rfl).trans rfl

end Cluster

end SoreOS
