import SoreOS.Spec.DirectoryScan

/-!
# Scans of a cluster buffer

A scan of the directory in closed form, whatever the cluster buffer holds: the files
that it comes to are a function of the buffer, and so is the way it ends if no file
ends it. Only behind the last record does the state of the driver matter again.

## Key results

- `clusterScan`: the files in a cluster, and how a scan of it ends
- `scanLoop_cluster`, `scan_cluster`: the loop and the scan by it
- `listFiles_cluster`, `findRecord_cluster`: the two scanning functions
-/

namespace SoreOS

open ForStd

/-! ## The files of a cluster -/

/-- How a scan of a cluster ends: at a record that ends it, behind the last record, or
    with a piece of a long name that does not fit the name buffer. -/
inductive ScanEnd where
  | stops
  | through
  | fault (f : Fault)
  deriving DecidableEq

/-- The files among `n` records from the `k`th on, with the numbers of their records and
    their long names, and how a scan of these records ends. -/
def clusterScan (buf : Bytes) : Nat → Nat → Int → Bytes → List (Nat × List UInt8) × ScanEnd
  | 0, _, _, _ => ([], .through)
  | n + 1, k, idx, longName =>
    let first := buf (32 * k)
    let r := subBuffer buf (32 * k)
    if first = 0 then ([], .stops)
    else if first = 0xE5 then clusterScan buf n (k + 1) idx longName
    else if isLFN r then
      let expected := expectedIdx first idx
      if (first &&& 0x0F).toNat = expected then
        match readLFN r LFN_idxs ((expected - 1) * 13) longName with
        | .ok longName => clusterScan buf n (k + 1) (expected - 1) longName
        | .error f => ([], .fault f)
      else ([], .stops)
    else
      let rest := clusterScan buf n (k + 1) idx (memset longName 0 0 105)
      ((k, cstr longName 105) :: rest.1, rest.2)

/-- The files of a whole cluster. -/
def clusterFiles (buf : Bytes) : List (Nat × List UInt8) := (clusterScan buf 64 0 0 fun _ => 0).1

/-- How a scan of a whole cluster ends. -/
def clusterEnd (buf : Bytes) : ScanEnd := (clusterScan buf 64 0 0 fun _ => 0).2

/-- The first file of a cluster with a name that is the search term. -/
def clusterLookup (buf : Bytes) (term : List UInt8) : Option Nat :=
  ((clusterFiles buf).find? fun p => nameMatches term (subBuffer buf (32 * p.1)) p.2).map Prod.fst

/-- What a listing prints of a cluster. -/
def clusterListing (buf : Bytes) : List UInt8 :=
  (clusterFiles buf).flatMap fun p =>
    (if p.2 = [] then shortName (subBuffer buf (32 * p.1)) else p.2) ++ [NEWLINE]

/-! ## The scan -/

section Scan

variable {R : Type} {d : Drive} {visit : Visit R} {s t : FsState}

/-- What becomes of a scan behind the last record of the cluster buffer: a cluster more is
    loaded, but the next round begins behind it. -/
def leaveCluster (d : Drive) (s : FsState) : Except Fault (Option R × FsState) :=
  if s.dirClusterIndex ≠ 8 then do
    let cluster ← load .clusters s.currentDir.clusters (s.dirClusterIndex + 1)
    if cluster ≠ END_OF_CHAIN then
      let (ok, s) ← load_Cluster d s cluster
      if ok then .error ⟨.ClusterBuffer, 2048⟩ else return (none, s)
    else return (none, s)
  else return (none, s)

/-- The visits of a scan to files, until one of them ends it. -/
def visitNames (visit : Visit R) : List (Nat × List UInt8) → FsState → Option R × FsState
  | [], s => (none, s)
  | (k, longName) :: files, s =>
    match visit s (32 * k) longName with
    | (some result, s) => (some result, s)
    | (none, s) => visitNames visit files s

/-- A scan by its files and its end. -/
def finishScan (d : Drive) (visit : Visit R) (files : List (Nat × List UInt8)) (e : ScanEnd) (s : FsState) :
    Except Fault (Option R × FsState) :=
  match visitNames visit files s with
  | (some result, s) => .ok (some result, s)
  | (none, s) =>
    match e with
    | .stops => .ok (none, s)
    | .through => leaveCluster d s
    | .fault f => .error f

theorem finishScan_some {k : Nat} {longName : List UInt8} {res : R} (files : List (Nat × List UInt8)) (e : ScanEnd)
    (h : visit s (32 * k) longName = (some res, t)) :
    finishScan d visit ((k, longName) :: files) e s = .ok (some res, t) := by
  rw [finishScan, visitNames, h]

theorem finishScan_none {k : Nat} {longName : List UInt8} (files : List (Nat × List UInt8)) (e : ScanEnd)
    (h : visit s (32 * k) longName = (none, t)) :
    finishScan d visit ((k, longName) :: files) e s = finishScan d visit files e t := by
  rw [finishScan, visitNames, h]
  rfl

/-- The end of the last round: what is left of the loop. -/
theorem scanLoop_last {v w : Scan} (h4 : FourSectors s.fileSys) (hoff : w.recordOffset + 32 = 2048)
    (hround : scanRound d visit t v = nextRecord d s w) :
    scanLoop d visit 2 t v = leaveCluster d s := by
  have hbytes := h4.clusterBytes_eq
  unfold clusterBytes at hbytes
  -- a round at the offset behind the buffer
  have hfault : ∀ u idx longName, scanLoop d visit 1 u ⟨w.recordOffset + 32, idx, longName⟩ =
      .error ⟨.ClusterBuffer, 2048⟩ := by
    intro u idx longName
    rw [hoff]
    rfl
  rw [scanLoop, hround, nextRecord]
  simp only [hbytes, if_pos hoff]
  unfold leaveCluster
  split
  · cases load .clusters s.currentDir.clusters (s.dirClusterIndex + 1) with
    | error f => rfl
    | ok cluster =>
      rw [ok_bind, ok_bind]
      split
      · cases hload : load_Cluster d s cluster with
        | error f => rfl
        | ok res =>
          obtain ⟨ok, u⟩ := res
          rw [ok_bind, ok_bind]
          cases ok with
          | true =>
            simp only [if_true, pure_eq_ok, ok_bind, Int.add_zero]
            exact hfault _ _ _
          | false => rfl
      · rfl
  · rfl

/-- The rest of the loop after a round that goes on with the next record. -/
theorem scanLoop_advance {v : Scan} {n k : Nat} (h4 : FourSectors s.fileSys) (hk : k + (n + 1) = 64) {idx : Int}
    {longName : Bytes} (hround : scanRound d visit t v = nextRecord d s ⟨32 * k, idx, longName⟩)
    {files : List (Nat × List UInt8)} {e : ScanEnd} (hzero : n = 0 → files = [] ∧ e = .through)
    (hrest : 0 < n → scanLoop d visit (n + 1) s ⟨32 * (k + 1 : Nat), idx, longName⟩ = finishScan d visit files e s) :
    scanLoop d visit (n + 2) t v = finishScan d visit files e s := by
  cases n with
  | zero =>
    obtain ⟨rfl, rfl⟩ := hzero rfl
    rw [scanLoop_last h4 (by dsimp only; omega) hround, finishScan, visitNames]
  | succ n =>
    rw [nextRecord_within (by rw [h4.clusterBytes_eq]; dsimp only; omega)] at hround
    dsimp only at hround
    rw [show (32 * (k : Int) + 32) = 32 * (k + 1 : Nat) from by push_cast; omega] at hround
    rw [scanLoop, hround, ok_bind]
    exact hrest (Nat.succ_pos n)

/-- The loop from the `k`th record on, with a round left behind the last record. -/
theorem scanLoop_cluster (hquiet : Quiet visit) (n : Nat) {k : Nat} {s : FsState} {idx : Int} {longName : Bytes}
    (h4 : FourSectors s.fileSys) (hn : 0 < n) (hk : k + n = 64) :
    scanLoop d visit (n + 1) s ⟨32 * k, idx, longName⟩ =
      finishScan d visit (clusterScan s.ClusterBuffer n k idx longName).1
        (clusterScan s.ClusterBuffer n k idx longName).2 s := by
  induction n generalizing k s idx longName with
  | zero => exact absurd hn (Nat.lt_irrefl 0)
  | succ n ih =>
    have hin : (0 : Int) ≤ 32 * k := by omega
    have hin' : (32 * k : Int) < 2048 := by omega
    -- behind the last record nothing is left to scan
    have hzero : ∀ idx longName, n = 0 →
        (clusterScan s.ClusterBuffer n (k + 1) idx longName).1 = [] ∧
          (clusterScan s.ClusterBuffer n (k + 1) idx longName).2 = .through := by
      rintro idx longName rfl
      exact ⟨rfl, rfl⟩
    rw [clusterScan]
    dsimp only
    by_cases h0 : s.ClusterBuffer (32 * (k : Int)) = 0
    · rw [if_pos h0, scanLoop, scanRound_end (v := ⟨32 * k, idx, longName⟩) hin hin' h0, ok_bind]
      rfl
    rw [if_neg h0]
    by_cases hdel : s.ClusterBuffer (32 * (k : Int)) = 0xE5
    · rw [if_pos hdel]
      exact scanLoop_advance h4 hk (scanRound_deleted hin hin' hdel) (hzero _ _) fun hpos => ih h4 hpos (by omega)
    rw [if_neg hdel]
    cases hlfn : isLFN (subBuffer s.ClusterBuffer (32 * (k : Int))) with
    | true =>
      rw [if_pos rfl]
      by_cases hidx : (s.ClusterBuffer (32 * (k : Int)) &&& 0x0F).toNat =
          expectedIdx (s.ClusterBuffer (32 * (k : Int))) idx
      · rw [if_pos hidx]
        have hcancel := (Int.sub_add_cancel (expectedIdx (s.ClusterBuffer (32 * (k : Int))) idx) 1).symm
        have hround := @scanRound_piece R d visit s ⟨32 * k, idx, longName⟩ hin hin' h0 hdel hlfn
          _ (hidx.trans hcancel) hcancel
        cases hread : readLFN (subBuffer s.ClusterBuffer (32 * (k : Int))) LFN_idxs
            ((expectedIdx (s.ClusterBuffer (32 * (k : Int))) idx - 1) * 13) longName with
        | ok longName' =>
          dsimp only at hround
          rw [hread, ok_bind] at hround
          exact scanLoop_advance h4 hk hround (hzero _ _) fun hpos => ih h4 hpos (by omega)
        | error f =>
          dsimp only at hround
          rw [hread, error_bind] at hround
          rw [scanLoop, hround]
          rfl
      · rw [if_neg hidx, scanLoop, scanRound_mismatch (v := ⟨32 * k, idx, longName⟩) hin hin' h0 hdel hlfn hidx, ok_bind]
        rfl
    | false =>
      rw [if_neg Bool.false_ne_true]
      dsimp only
      cases hvisit : visit s (32 * k) (cstr longName 105) with
      | mk res t =>
        cases res with
        | some res =>
          rw [finishScan_some _ _ hvisit, scanLoop,
            scanRound_found (v := ⟨32 * k, idx, longName⟩) hin hin' h0 hdel hlfn hvisit, ok_bind]
          rfl
        | none =>
          -- the visit changes the output only
          obtain ⟨out, hout⟩ := hquiet s (32 * k) (cstr longName 105)
          rw [hvisit] at hout
          obtain rfl : t = { s with out := out } := hout
          rw [finishScan_none _ _ hvisit]
          exact scanLoop_advance (s := { s with out := out }) h4 hk
            (scanRound_file (v := ⟨32 * k, idx, longName⟩) hin hin' h0 hdel hlfn hvisit) (hzero _ _)
            fun hpos => ih h4 hpos (by omega)

/-- A scan of the directory. -/
theorem scan_cluster (hquiet : Quiet visit) (h4 : FourSectors s.fileSys) (hload : loadFirst d s = .ok (true, t)) :
    scan d visit s = finishScan d visit (clusterFiles t.ClusterBuffer) (clusterEnd t.ClusterBuffer) t := by
  have hfs := loadFirst_fileSys hload
  have hstart : ({} : Scan) = ⟨32 * (0 : Nat), 0, fun _ => 0⟩ := rfl
  rw [scan, hload, ok_bind]
  dsimp only
  rw [if_pos rfl, hstart]
  exact scanLoop_cluster hquiet 64 (hfs ▸ h4) (Nat.succ_pos _) rfl

end Scan

/-! ## The two scanning functions -/

section Functions

variable {d : Drive} {s t : FsState}

/-- A listing visits all files. -/
theorem visitNames_listVisit (files : List (Nat × List UInt8)) (s : FsState) :
    visitNames listVisit files s = (none, { s with out := s.out ++ files.flatMap fun p =>
      (if p.2 = [] then shortName (subBuffer s.ClusterBuffer (32 * p.1)) else p.2) ++ [NEWLINE] }) := by
  induction files generalizing s with
  | nil =>
    rw [List.flatMap_nil, List.append_nil]
    rfl
  | cons p files ih =>
    obtain ⟨k, longName⟩ := p
    rw [visitNames, listVisit]
    dsimp only
    rw [ih, List.flatMap_cons]
    simp only [List.append_assoc]

/-- A search visits the files up to the first that matches. -/
theorem visitNames_findVisit (term : List UInt8) (files : List (Nat × List UInt8)) (s : FsState) :
    visitNames (findVisit term) files s =
      ((files.find? fun p => nameMatches term (subBuffer s.ClusterBuffer (32 * p.1)) p.2).map
        fun p => 32 * (p.1 : Int), s) := by
  induction files with
  | nil => rfl
  | cons p files ih =>
    obtain ⟨k, longName⟩ := p
    rw [visitNames, findVisit, List.find?_cons]
    dsimp only
    cases nameMatches term (subBuffer s.ClusterBuffer (32 * k)) longName with
    | true => rfl
    | false => exact ih

/-- `listFiles` prints the listing of the cluster, however the scan ends. -/
theorem listFiles_cluster (h4 : FourSectors s.fileSys) (hload : loadFirst d s = .ok (true, t)) :
    listFiles d s =
      match clusterEnd t.ClusterBuffer with
      | .stops => .ok { t with out := t.out ++ clusterListing t.ClusterBuffer }
      | .through =>
        (·.2) <$> leaveCluster (R := Unit) d { t with out := t.out ++ clusterListing t.ClusterBuffer }
      | .fault f => .error f := by
  rw [listFiles, scan_cluster listVisit_quiet h4 hload, finishScan, visitNames_listVisit]
  dsimp only
  cases clusterEnd t.ClusterBuffer with
  | stops => rfl
  | fault f => rfl
  | through =>
    dsimp only
    unfold clusterListing
    cases leaveCluster (R := Unit) d { t with out := _ } with
    | error f => rfl
    | ok res => rfl

/-- The search of `findFile` ends at the first file that matches, or as the scan does. -/
theorem findRecord_cluster (h4 : FourSectors s.fileSys) (hload : loadFirst d s = .ok (true, t)) {q : List UInt8}
    (hlen : q.length ≤ 104) :
    findRecord d s q =
      match clusterLookup t.ClusterBuffer (searchTerm q), clusterEnd t.ClusterBuffer with
      | some k, _ => .ok (some (32 * (k : Int)), t)
      | none, .stops => .ok (none, t)
      | none, .through => leaveCluster d t
      | none, .fault f => .error f := by
  rw [findRecord, if_neg (by omega), scan_cluster (findVisit_quiet _) h4 hload, finishScan, visitNames_findVisit, clusterLookup]
  cases (clusterFiles t.ClusterBuffer).find? fun p =>
      nameMatches (searchTerm q) (subBuffer t.ClusterBuffer (32 * p.1)) p.2 with
  | some p => rfl
  | none =>
    dsimp only [Option.map_none]
    cases clusterEnd t.ClusterBuffer <;> rfl

end Functions

end SoreOS
