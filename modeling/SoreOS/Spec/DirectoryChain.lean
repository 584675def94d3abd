import SoreOS.Spec.DirectoryScan
import SoreOS.Spec.ReadFile

/-!
# Directories of several clusters

Which records a scan examines. It never resets the record offset when it goes on to
the next cluster of a directory, so the records it has to examine are exactly the
ones it examines only if it ends in the first cluster.

## Key results

- `scanLoop_examines`: when the loop examines the records it has to
- `scans_complete_iff`: when both scanning functions do
- `scans_not_complete`: a directory of two clusters where they do not
-/

namespace SoreOS

open ForStd

/-! ## The records of a directory -/

/-- The elements up to the first one that satisfies `p`, and that one. -/
def takeThrough {α : Type} (p : α → Bool) : List α → List α
  | [] => []
  | x :: xs => if p x then [x] else x :: takeThrough p xs

theorem takeThrough_eq_nil {α : Type} (p : α → Bool) {l : List α} : takeThrough p l = [] ↔ l = [] := by
  cases l with
  | nil => simp [takeThrough]
  | cons x xs =>
    rw [takeThrough]
    split <;> simp

/-- The places, cluster and offset, of `n` records of a cluster from the `k`th on. -/
def recordsFrom (c : Int) (k : Nat) : Nat → List (Int × Int)
  | 0 => []
  | n + 1 => (c, 32 * k) :: recordsFrom c (k + 1) n

/-- The places of all records of a chain of clusters. -/
def chainRecords (cs : List Nat) : List (Int × Int) := cs.flatMap fun c : Nat => recordsFrom c 0 64

theorem chainRecords_eq_nil {cs : List Nat} : chainRecords cs = [] ↔ cs = [] := by
  cases cs with
  | nil => simp [chainRecords]
  | cons c cs => simp [chainRecords, recordsFrom]

/-- A byte of a cluster on the disk. -/
def clusterByte (disk : Bytes) (hdr : FAT32_HEADER) (c i : Int) : UInt8 :=
  disk ((hdr.LBA_Cluster_Location.toNat + (c - 2) * 4) * 512 + i)

/-- The record at a place is the end of its directory. -/
def isEnd (disk : Bytes) (hdr : FAT32_HEADER) (place : Int × Int) : Bool :=
  clusterByte disk hdr place.1 place.2 = 0

/-- The records a scan has to examine, in order. -/
def recordsToExamine (disk : Bytes) (hdr : FAT32_HEADER) (cs : List Nat) : List (Int × Int) :=
  takeThrough (isEnd disk hdr) (chainRecords cs)

/-! ## The records a scan examines -/

/-- The places of the records that the rounds of the loop look at. -/
def examined {R : Type} (d : Drive) (visit : Visit R) : Nat → FsState → Scan → List (Int × Int)
  | 0, _, _ => []
  | rounds + 1, s, v =>
    (s.ClusterSecIdx, v.recordOffset) ::
      match scanRound d visit s v with
      | .ok (.next s v) => examined d visit rounds s v
      | _ => []

/-- The first cluster of a directory, the chain `c :: cs`, is loaded. -/
structure FirstLoaded (d : Drive) (s : FsState) (c : Nat) (cs : List Nat) : Prop where
  sectors : FourSectors s.fileSys
  chain : Lists s.currentDir.clusters 0 (c :: cs)
  length : (c :: cs).length ≤ 8
  clusters : ∀ c' ∈ cs, c' < 0x0FFFFFFF
  dirClusterIndex : s.dirClusterIndex = 0
  ClusterSecIdx : s.ClusterSecIdx = c
  buffer : ∀ i, 0 ≤ i → i < 2048 → s.ClusterBuffer i = clusterByte d.disk s.fileSys c i

theorem FirstLoaded.withOut {d : Drive} {s : FsState} {c : Nat} {cs : List Nat}
    (h : FirstLoaded d s c cs) (out : List UInt8) : FirstLoaded d { s with out := out } c cs :=
  ⟨h.sectors, h.chain, h.length, h.clusters, h.dirClusterIndex, h.ClusterSecIdx, h.buffer⟩

/-- The `n` records of the first cluster from the `k`th on let a scan come to an end
    there: at each piece of a long name the number is the expected one and between 1 and
    8, up to the first zero record; without a zero record, the directory has no other
    cluster, and then the number of the very last record does not matter. -/
def endsInFirst (buf : Bytes) (single : Bool) : Nat → Nat → Int → Bool
  | 0, _, _ => single
  | n + 1, k, idx =>
    let first := buf (32 * k)
    if first = 0 then true
    else if first = 0xE5 then endsInFirst buf single n (k + 1) idx
    else if isLFN (subBuffer buf (32 * k)) then
      let expected := expectedIdx first idx
      if (first &&& 0x0F).toNat = expected then
        decide (1 ≤ expected ∧ expected ≤ 8) && endsInFirst buf single n (k + 1) (expected - 1)
      else n = 0 && single
    else endsInFirst buf single n (k + 1) idx

section Loop

variable {R : Type} {d : Drive} {visit : Visit R} {s t : FsState} {v w : Scan} {c : Nat}
  {cs : List Nat}

theorem scanLoop_ended {res : Option R} (rounds : Nat)
    (h : scanRound d visit s v = .ok (.ended res t)) :
    scanLoop d visit (rounds + 1) s v = .ok (res, t) ∧
      examined d visit (rounds + 1) s v = [(s.ClusterSecIdx, v.recordOffset)] := by
  constructor
  · rw [scanLoop, h]
    rfl
  · rw [examined, h]

theorem scanLoop_next (rounds : Nat) (h : scanRound d visit s v = .ok (.next t w)) :
    scanLoop d visit (rounds + 1) s v = scanLoop d visit rounds t w ∧
      examined d visit (rounds + 1) s v =
        (s.ClusterSecIdx, v.recordOffset) :: examined d visit rounds t w := by
  constructor
  · rw [scanLoop, h]
    rfl
  · rw [examined, h]

theorem scanLoop_fault {f : Fault} (rounds : Nat) (h : scanRound d visit s v = .error f) :
    scanLoop d visit (rounds + 1) s v = .error f := by
  rw [scanLoop, h]
  rfl

/-- The loop comes to an end, and unless the visit ended it, it has examined the
    records at the places `l`, up to the end of the directory. -/
def Completes (d : Drive) (visit : Visit R) (rounds : Nat) (s : FsState) (v : Scan)
    (l : List (Int × Int)) : Prop :=
  ∃ res t, scanLoop d visit rounds s v = .ok (res, t) ∧
    (res = none → examined d visit rounds s v = takeThrough (isEnd d.disk s.fileSys) l)

/-- A visit that never ends the scan. -/
def NeverEnds (visit : Visit R) : Prop := ∀ s off longName, (visit s off longName).1 = none

/-- If `seq` holds, the loop examines the records at the places `l`; only a visit that
    ends the scan can hide that it does not. -/
def Examines (d : Drive) (visit : Visit R) (seq : Bool) (rounds : Nat) (s : FsState) (v : Scan)
    (l : List (Int × Int)) : Prop :=
  (seq = true → Completes d visit rounds s v l) ∧
    (NeverEnds visit → Completes d visit rounds s v l → seq = true)

theorem Examines.of_fault {f : Fault} (rounds : Nat) (l : List (Int × Int))
    (h : scanRound d visit s v = .error f) : Examines d visit false (rounds + 1) s v l := by
  refine ⟨fun hfalse => absurd hfalse Bool.false_ne_true, fun _ ⟨res, t, hrun, _⟩ => ?_⟩
  rw [scanLoop_fault rounds h] at hrun
  cases hrun

/-- A round that ends the scan has examined its own record only. -/
theorem Examines.of_ended {seq : Bool} (rounds : Nat) {l : List (Int × Int)}
    (h : scanRound d visit s v = .ok (.ended none t))
    (hseq : seq = true ↔ takeThrough (isEnd d.disk s.fileSys) l = [(s.ClusterSecIdx, v.recordOffset)]) :
    Examines d visit seq (rounds + 1) s v l := by
  obtain ⟨hloop, htrace⟩ := scanLoop_ended rounds h
  unfold Examines
  rw [hseq]
  refine ⟨fun hl => ⟨none, t, hloop, fun _ => htrace.trans hl.symm⟩, fun _ ⟨res, u, hrun, hall⟩ => ?_⟩
  rw [hloop] at hrun
  cases hrun
  exact (hall rfl).symm.trans htrace

theorem Examines.of_found {seq : Bool} {res : R} (rounds : Nat) (l : List (Int × Int))
    (h : scanRound d visit s v = .ok (.ended (some res) t)) (hends : ¬ NeverEnds visit) :
    Examines d visit seq (rounds + 1) s v l :=
  ⟨fun _ => ⟨some res, t, (scanLoop_ended rounds h).1, fun hnone => nomatch hnone⟩,
    fun hnever => absurd hnever hends⟩

/-- A round that goes on with the next record, in the loop over the `n` records left. -/
theorem Examines.advance (hfirst : FirstLoaded d s c cs)
    (hgood : ∀ i, s.waits ≤ i → d.good i = true) {n k : Nat} (hk : k + (n + 1) = 64)
    (hoff : v.recordOffset = 32 * k) (hend : isEnd d.disk s.fileSys (c, 32 * k) = false)
    (out : List UInt8) {idx : Int} {longName : Bytes}
    (hround : scanRound d visit s v = nextRecord d { s with out := out } ⟨v.recordOffset, idx, longName⟩)
    {seq : Bool} (hzero : n = 0 → seq = cs.isEmpty)
    (ih : 0 < n → Examines d visit seq (n + 1) { s with out := out }
      ⟨32 * (k + 1 : Nat), idx, longName⟩ (recordsFrom c (k + 1) n ++ chainRecords cs)) :
    Examines d visit seq (n + 2) s v (recordsFrom c k (n + 1) ++ chainRecords cs) := by
  have hplace : (s.ClusterSecIdx, v.recordOffset) = ((c : Int), 32 * (k : Int)) := by
    rw [hfirst.ClusterSecIdx, hoff]
  have hexpected : takeThrough (isEnd d.disk s.fileSys) (recordsFrom c k (n + 1) ++ chainRecords cs) =
      ((c : Int), 32 * (k : Int)) ::
        takeThrough (isEnd d.disk s.fileSys) (recordsFrom c (k + 1) n ++ chainRecords cs) := by
    rw [recordsFrom, List.cons_append, takeThrough, if_neg (by simp [hend])]
  have hout := hfirst.withOut out
  cases n with
  | succ n =>
    -- inside the cluster: the round only moves the offset
    have hnext : scanRound d visit s v = .ok (.next { s with out := out }
        ⟨32 * (k + 1 : Nat), idx, longName⟩) := by
      rw [hround, nextRecord_within (by rw [hout.sectors.clusterBytes_eq]; dsimp only; omega)]
      dsimp only
      rw [hoff, show (32 * (k : Int) + 32) = 32 * (k + 1 : Nat) from by push_cast; omega]
    obtain ⟨hloop, htrace⟩ := scanLoop_next (n + 2) hnext
    have hiff : Completes d visit (n + 3) s v (recordsFrom c k (n + 2) ++ chainRecords cs) ↔
        Completes d visit (n + 2) { s with out := out }
          ⟨32 * (k + 1 : Nat), idx, longName⟩
          (recordsFrom c (k + 1) (n + 1) ++ chainRecords cs) := by
      unfold Completes
      rw [hloop, htrace, hexpected, hplace]
      simp only [List.cons.injEq, true_and]
    unfold Examines
    rw [hiff]
    exact ih (by omega)
  | zero =>
    -- the last record of the cluster
    rw [hzero rfl]
    cases cs with
    | nil =>
      -- of the last cluster: the scan has seen everything
      have hmark : s.currentDir.clusters 1 = END_OF_CHAIN := hfirst.chain.mark (by simp)
      have hended : scanRound d visit s v = .ok (.ended none { s with out := out }) := by
        rw [hround, nextRecord_last hout.sectors (by dsimp only; omega) hout.dirClusterIndex hmark]
      refine Examines.of_ended 1 hended ⟨fun _ => ?_, fun _ => rfl⟩
      rw [hexpected, hplace]
      rfl
    | cons c' cs =>
      -- of another one: the next cluster is loaded
      have hcl : s.currentDir.clusters 1 = c' := hfirst.chain.cluster 1 (by simp)
      have hne : (c' : Int) ≠ END_OF_CHAIN := by
        have := hfirst.clusters c' List.mem_cons_self
        unfold END_OF_CHAIN
        omega
      obtain ⟨t, hmore⟩ := nextRecord_more (R := R) (v := ⟨v.recordOffset, idx, longName⟩)
        hout.sectors (by dsimp only; omega) hout.dirClusterIndex hcl hne hgood
      rw [← hround] at hmore
      -- the offset now lies behind the cluster buffer
      have hfault : scanRound d visit t ⟨2048, idx, longName⟩ =
          .error ⟨.ClusterBuffer, 2048⟩ := rfl
      obtain ⟨hloop, _⟩ := scanLoop_next 1 hmore
      rw [scanLoop_fault 0 hfault] at hloop
      refine ⟨fun h => absurd h (by simp), fun _ ⟨res, t, hrun, _⟩ => ?_⟩
      rw [hloop] at hrun
      cases hrun

/-- A piece of a long name in sequence: it has to fit the name buffer. -/
theorem Examines.piece (hfirst : FirstLoaded d s c cs) (hgood : ∀ i, s.waits ≤ i → d.good i = true)
    {n k : Nat} (hk : k + (n + 1) = 64) (hoff : v.recordOffset = 32 * k)
    (hend : isEnd d.disk s.fileSys (c, 32 * k) = false)
    (hdel : s.ClusterBuffer v.recordOffset ≠ 0xE5)
    (h0 : s.ClusterBuffer v.recordOffset ≠ 0)
    (hlfn : isLFN (subBuffer s.ClusterBuffer v.recordOffset) = true) {e : Int}
    (hexp : expectedIdx (s.ClusterBuffer v.recordOffset) v.LongFileNameIdx = e)
    (hidx : (s.ClusterBuffer v.recordOffset &&& 0x0F).toNat = e)
    {seq : Bool} (hzero : n = 0 → seq = cs.isEmpty)
    (ih : 0 < n → ∀ longName, Examines d visit seq (n + 1) s
      ⟨32 * (k + 1 : Nat), e - 1, longName⟩ (recordsFrom c (k + 1) n ++ chainRecords cs)) :
    Examines d visit (decide (1 ≤ e ∧ e ≤ 8) && seq) (n + 2) s v
      (recordsFrom c k (n + 1) ++ chainRecords cs) := by
  have hlen : (LFN_idxs.length : Int) = 13 := rfl
  have hround : scanRound d visit s v = _ :=
    scanRound_piece (by omega) (by omega) h0 hdel hlfn (e - 1) (by omega) (by omega)
  by_cases hfits : 1 ≤ e ∧ e ≤ 8
  · rw [readLFN_ok _ _ _ (by omega) (by omega), ok_bind] at hround
    rw [decide_eq_true hfits, Bool.true_and]
    exact Examines.advance hfirst hgood hk hoff hend s.out hround hzero fun hpos => ih hpos _
  · obtain ⟨f, hfault⟩ := @readLFN_fault (subBuffer s.ClusterBuffer v.recordOffset)
      LFN_idxs ((e - 1) * 13) v.longName (by simp [LFN_idxs]) (by omega)
    rw [hfault, error_bind] at hround
    rw [decide_eq_false hfits, Bool.false_and]
    exact Examines.of_fault _ _ hround

/-- The loop from the `k`th record of the first cluster on examines the records it has
    to, if the rest of the cluster lets it. -/
theorem scanLoop_examines (hquiet : Quiet visit) (n : Nat) {k : Nat} {s : FsState} {v : Scan}
    (hn : 0 < n) (hk : k + n = 64) (hfirst : FirstLoaded d s c cs)
    (hgood : ∀ i, s.waits ≤ i → d.good i = true) (hoff : v.recordOffset = 32 * k) :
    Examines d visit (endsInFirst s.ClusterBuffer cs.isEmpty n k v.LongFileNameIdx) (n + 1) s v
      (recordsFrom c k n ++ chainRecords cs) := by
  induction n generalizing k s v with
  | zero => exact absurd hn (Nat.lt_irrefl 0)
  | succ n ih =>
    have hin : 0 ≤ v.recordOffset := by omega
    have hin' : v.recordOffset < 2048 := by omega
    have hplace : ((c : Int), 32 * (k : Int)) = (s.ClusterSecIdx, v.recordOffset) := by
      rw [hfirst.ClusterSecIdx, hoff]
    have hbuf : s.ClusterBuffer (32 * k) = clusterByte d.disk s.fileSys c (32 * k) :=
      hfirst.buffer _ (by omega) (by omega)
    have hisEnd : isEnd d.disk s.fileSys (c, 32 * k) = decide (s.ClusterBuffer (32 * k) = 0) := by
      rw [hbuf]
      rfl
    -- the rest of the cluster, after a round that leaves all but the output as it was
    have hrest : ∀ out idx longName, 0 < n →
        Examines d visit (endsInFirst s.ClusterBuffer cs.isEmpty n (k + 1) idx) (n + 1)
          { s with out := out } ⟨32 * (k + 1 : Nat), idx, longName⟩
          (recordsFrom c (k + 1) n ++ chainRecords cs) :=
      fun out idx longName hpos => @ih (k + 1) { s with out := out }
        ⟨32 * (k + 1 : Nat), idx, longName⟩ hpos (by omega) (hfirst.withOut out) hgood rfl
    rw [endsInFirst]
    dsimp only
    by_cases h0 : s.ClusterBuffer (32 * (k : Int)) = 0
    · rw [if_pos h0]
      refine Examines.of_ended (n + 1) (scanRound_end hin hin' (hoff ▸ h0)) ⟨fun _ => ?_, fun _ => rfl⟩
      rw [recordsFrom, List.cons_append, takeThrough, if_pos (hisEnd.trans (decide_eq_true h0)), hplace]
    · have hend : isEnd d.disk s.fileSys (c, 32 * k) = false := hisEnd.trans (decide_eq_false h0)
      have h0' : s.ClusterBuffer v.recordOffset ≠ 0 := hoff ▸ h0
      rw [if_neg h0]
      by_cases hdel : s.ClusterBuffer (32 * (k : Int)) = 0xE5
      · rw [if_pos hdel]
        -- a deleted record
        exact Examines.advance hfirst hgood hk hoff hend s.out
          (scanRound_deleted hin hin' (hoff ▸ hdel)) (fun h => by subst h; rfl)
          fun hpos => hrest _ _ _ hpos
      · have hdel' : s.ClusterBuffer v.recordOffset ≠ 0xE5 := hoff ▸ hdel
        rw [if_neg hdel, ← hoff]
        by_cases hlfn : isLFN (subBuffer s.ClusterBuffer v.recordOffset) = true
        · rw [if_pos hlfn]
          -- a piece of a long name
          by_cases hidx : ((s.ClusterBuffer v.recordOffset &&& 0x0F).toNat : Int) =
              expectedIdx (s.ClusterBuffer v.recordOffset) v.LongFileNameIdx
          · rw [if_pos hidx]
            exact Examines.piece hfirst hgood hk hoff hend hdel' h0' hlfn rfl hidx
              (fun h => by subst h; rfl) fun hpos longName => hrest s.out _ longName hpos
          · -- a piece out of sequence ends the scan, in time only at the very last record
            rw [if_neg hidx]
            refine Examines.of_ended (n + 1) (scanRound_mismatch hin hin' h0' hdel' hlfn hidx) ?_
            rw [Bool.and_eq_true, decide_eq_true_eq, List.isEmpty_iff, recordsFrom, List.cons_append,
              takeThrough, if_neg (by simp [hend]), hplace, List.cons.injEq, takeThrough_eq_nil,
              List.append_eq_nil_iff, chainRecords_eq_nil]
            cases n <;> simp [recordsFrom]
        · rw [if_neg hlfn]
          rw [Bool.not_eq_true] at hlfn
          -- a file
          obtain ⟨out, hout⟩ := hquiet s v.recordOffset (cstr v.longName 105)
          cases hres : (visit s v.recordOffset (cstr v.longName 105)).1 with
          | none =>
            exact Examines.advance hfirst hgood hk hoff hend out
              (scanRound_file hin hin' h0' hdel' hlfn (Prod.ext hres hout))
              (fun h => by subst h; rfl) fun hpos => hrest _ _ _ hpos
          | some res =>
            refine Examines.of_found _ _
              (scanRound_found hin hin' h0' hdel' hlfn (Prod.ext hres hout)) fun hnever => ?_
            rw [hnever] at hres
            cases hres

theorem scanLoop_neverEnds (hnever : NeverEnds visit) {rounds : Nat} {s t : FsState} {v : Scan}
    {res : Option R} (h : scanLoop d visit rounds s v = .ok (res, t)) : res = none := by
  induction rounds generalizing s v with
  | zero => cases h
  | succ rounds ih =>
    rw [scanLoop] at h
    obtain ⟨round, hround, h⟩ := bind_eq_ok.mp h
    cases round with
    | ended res' u =>
      obtain ⟨rfl, rfl⟩ := Prod.mk.inj (Except.ok.inj h)
      cases res' with
      | none => rfl
      | some r =>
        obtain ⟨off, longName, hvisit⟩ := scanRound_ended hround
        have hnone := hnever s off longName
        rw [hvisit] at hnone
        cases hnone
    | next u w => exact ih h

end Loop

/-! ## The two scanning functions -/

/-- The places of the records that a scan looks at. -/
def scanExamined {R : Type} (d : Drive) (visit : Visit R) (s : FsState) : List (Int × Int) :=
  match loadFirst d s with
  | .ok (true, s) => examined d visit 65 s {}
  | _ => []

/-- The places of the records that `findFile` looks at. -/
def findExamined (d : Drive) (s : FsState) (filename : List UInt8) : List (Int × Int) :=
  if filename.length > 104 then [] else scanExamined d (findVisit (searchTerm filename)) s

/-- `listFiles` returns, and it has examined each record of the directory it has to. -/
def ListsAll (d : Drive) (s : FsState) (cs : List Nat) : Prop :=
  (∃ t, listFiles d s = .ok t) ∧
    scanExamined d listVisit s = recordsToExamine d.disk s.fileSys cs

/-- `findFile` returns, and if it was unsuccessful, it has examined each record of the
    directory it has to. -/
def FindsAll (d : Drive) (s : FsState) (cs : List Nat) (filename : List UInt8) : Prop :=
  ∀ file, ∃ res file' t, findFile d s filename file = .ok (res, file', t) ∧
    (res = -1 → findExamined d s filename = recordsToExamine d.disk s.fileSys cs)

theorem listVisit_neverEnds : NeverEnds listVisit := fun _ _ _ => rfl

section Functions

variable {d : Drive} {s : FsState} {c : Nat} {cs : List Nat} (hfirst : FirstLoaded d s c cs)
  (hgood : ∀ n, s.waits ≤ n → d.good n = true)
include hfirst

/-- With the first cluster loaded, a scan is its loop. -/
theorem FirstLoaded.scan_eq {R : Type} (visit : Visit R) :
    scan d visit s = scanLoop d visit 65 s {} ∧
      scanExamined d visit s = examined d visit 65 s {} := by
  have hopen : loadFirst d s = .ok (true, s) := if_neg (fun h => h hfirst.dirClusterIndex)
  unfold scan scanExamined
  rw [hopen]
  exact ⟨rfl, rfl⟩

include hgood

theorem scan_examines {R : Type} {visit : Visit R} (hquiet : Quiet visit) :
    Examines d visit (endsInFirst s.ClusterBuffer cs.isEmpty 64 0 0) 65 s {} (chainRecords (c :: cs)) := by
  have hlist : chainRecords (c :: cs) = recordsFrom c 0 64 ++ chainRecords cs := List.flatMap_cons
  have hoff : ({} : Scan).recordOffset = 32 * (0 : Nat) := rfl
  rw [hlist]
  exact @scanLoop_examines R d visit c cs hquiet 64 0 s {} (by omega) rfl hfirst hgood hoff

theorem listsAll_iff :
    ListsAll d s (c :: cs) ↔ endsInFirst s.ClusterBuffer cs.isEmpty 64 0 0 = true := by
  obtain ⟨hscan, htrace⟩ := hfirst.scan_eq listVisit
  have hexamines := scan_examines hfirst hgood listVisit_quiet
  unfold ListsAll recordsToExamine
  rw [htrace, listFiles, hscan]
  constructor
  · intro h
    obtain ⟨⟨t, hrun⟩, hall⟩ := h
    obtain ⟨⟨res, u⟩, hloop, _⟩ := bind_eq_ok.mp hrun
    exact hexamines.2 listVisit_neverEnds ⟨res, u, hloop, fun _ => hall⟩
  · intro hends
    obtain ⟨res, t, hloop, hall⟩ := hexamines.1 hends
    have hnone : res = none := scanLoop_neverEnds listVisit_neverEnds hloop
    exact ⟨⟨t, by rw [hloop]; rfl⟩, hall hnone⟩

theorem findsAll_of_endsInFirst {filename : List UInt8} (hlen : filename.length ≤ 104)
    (hends : endsInFirst s.ClusterBuffer cs.isEmpty 64 0 0 = true) :
    FindsAll d s (c :: cs) filename := by
  intro file
  obtain ⟨hscan, htrace⟩ := hfirst.scan_eq (findVisit (searchTerm filename))
  obtain ⟨res, t, hloop, hall⟩ := (scan_examines hfirst hgood (findVisit_quiet _)).1 hends
  rw [← hscan] at hloop
  rw [findFile, findRecord, findExamined, if_neg (by omega), if_neg (by omega), htrace, hloop, ok_bind]
  cases res with
  | none => exact ⟨-1, file, t, rfl, fun _ => hall rfl⟩
  | some off =>
    obtain ⟨file', u, hfill, _⟩ := fillFile_returns d t (subBuffer t.ClusterBuffer off) file
    dsimp only
    rw [hfill]
    exact ⟨0, file', u, rfl, fun h => absurd h (by decide)⟩

end Functions

/-- The scans examine the records they have to exactly if they end in the first
    cluster; `findFile` looks at no record for a name that is too long. -/
theorem scans_complete_iff {d : Drive} {s : FsState} {c : Nat} {cs : List Nat}
    (hfirst : FirstLoaded d s c cs) (hgood : ∀ n, s.waits ≤ n → d.good n = true)
    (filename : List UInt8) :
    ListsAll d s (c :: cs) ∧ FindsAll d s (c :: cs) filename ↔
      endsInFirst s.ClusterBuffer cs.isEmpty 64 0 0 = true ∧ filename.length ≤ 104 := by
  rw [listsAll_iff hfirst hgood]
  refine and_congr_right fun hends => ⟨fun hfind => ?_, fun hlen =>
    findsAll_of_endsInFirst hfirst hgood hlen hends⟩
  by_contra hlen
  rw [Nat.not_le] at hlen
  -- a name that is too long is not found, and there is a record to examine
  obtain ⟨res, file', t, hrun, hall⟩ := hfind {}
  have hnot : findFile d s filename {} = .ok (-1, {}, s) := by
    rw [findFile, findRecord, if_pos hlen]
    rfl
  rw [hnot] at hrun
  cases hrun
  have hempty : [] = recordsToExamine d.disk s.fileSys (c :: cs) := by
    rw [← hall rfl, findExamined, if_pos hlen]
  exact absurd (takeThrough_eq_nil _ |>.mp hempty.symm) (by simp [chainRecords_eq_nil])

/-! ## Root directories -/

/-- After loading the file system, the first cluster of the root directory is loaded. -/
theorem Booted.firstLoaded {d : Drive} {s : FsState} {cs : List Nat} (h : Booted d cs s)
    (hl : StandardLayout s.fileSys) (hchain : FatChain d.disk s.fileSys (2 :: cs))
    (hlen : (2 :: cs).length ≤ 8) : FirstLoaded d s 2 cs where
  sectors := ⟨hl.sectorsPerCluster, hl.bytesPerSector⟩
  chain := h.root
  length := hlen
  clusters := by
    intro c hc
    have := (hchain.valid c (List.mem_cons_of_mem _ hc)).2
    unfold dataClusters at this
    omega
  dirClusterIndex := h.dirClusterIndex
  ClusterSecIdx := h.ClusterSecIdx
  buffer := by
    intro i hi hi'
    obtain ⟨k, rfl⟩ := Int.eq_ofNat_of_zero_le hi
    have hread := Mem.eq_of_read_eq h.buffer (i := k) (by omega)
    rw [Int.zero_add] at hread
    exact hread

/-- The first bytes and the attributes of the records decide. -/
theorem endsInFirst_congr {buf buf' : Bytes} (single : Bool) (n : Nat) {k : Nat} (idx : Int)
    (h : ∀ i, k ≤ i → i < k + n → buf (32 * i) = buf' (32 * i) ∧ buf (32 * i + 11) = buf' (32 * i + 11)) :
    endsInFirst buf single n k idx = endsInFirst buf' single n k idx := by
  induction n generalizing k idx with
  | zero => rfl
  | succ n ih =>
    obtain ⟨hfirst, hattrib⟩ := h k (Nat.le_refl k) (by omega)
    have hlfn : isLFN (subBuffer buf (32 * k)) = isLFN (subBuffer buf' (32 * k)) := by
      unfold isLFN attrib subBuffer
      rw [hattrib]
    have hrest : ∀ idx, endsInFirst buf single n (k + 1) idx = endsInFirst buf' single n (k + 1) idx :=
      fun idx => ih idx fun i hi hi' => h i (by omega) (by omega)
    rw [endsInFirst, endsInFirst]
    dsimp only
    rw [hfirst, hlfn, hrest, hrest]

/-- Records that start with a letter and are no pieces of a long name. -/
theorem endsInFirst_files (single : Bool) (n k : Nat) (idx : Int) :
    endsInFirst (fun _ => 65) single n k idx = single := by
  induction n generalizing k with
  | zero => rfl
  | succ n ih =>
    have hlfn : isLFN (subBuffer (fun _ => 65) (32 * k)) = false :=
      decide_eq_false (show ¬ (65 : UInt8) &&& 0x0F = 0x0F from by decide)
    rw [endsInFirst]
    dsimp only
    rw [if_neg (by decide), if_neg (by decide), hlfn, if_neg Bool.false_ne_true]
    exact ih (k + 1)

/-- The scan of a root directory's first cluster. -/
theorem Booted.endsInFirst_volume {fat : Nat → Nat} {data : Nat → Int → UInt8} {cs : List Nat} {s : FsState}
    (h : Booted (healthyDrive (volume fat data)) cs s) (hhdr : s.fileSys = defaultHeader) (single : Bool) :
    endsInFirst s.ClusterBuffer single 64 0 0 = endsInFirst (data 2) single 64 0 0 := by
  refine endsInFirst_congr single 64 0 fun i _ hi => ⟨?_, ?_⟩
  · have hbyte := @Booted.ClusterBuffer_volume _ _ _ _ h hhdr (32 * i) (by omega)
    push_cast at hbyte
    exact hbyte
  · have hbyte := @Booted.ClusterBuffer_volume _ _ _ _ h hhdr (32 * i + 11) (by omega)
    push_cast at hbyte
    exact hbyte

/-- A deleted record, the two pieces of a long name, two files and a directory, and zeros behind them. -/
def mixedRecords (_ : Nat) (i : Int) : UInt8 :=
  let (first, attrib) := [(0xE5, 0x20), (0x42, 0x0F), (0x01, 0x0F), (65, 0x20), (66, 0x20), (67, 0x10)].getD (i / 32).toNat (0, 0)
  if i % 32 = 0 then first else if i % 32 = 11 then attrib else 0

/-- A root directory of two clusters that ends in its first one. -/
theorem scans_complete_iff_mixed :
    let d := healthyDrive (volume (fun c => if c = 2 then 3 else 0x0FFFFFFF) mixedRecords)
    ∃ s, loadFileSystem d .boot = some (.ok (true, s)) ∧ ListsAll d s [2, 3] ∧ FindsAll d s [2, 3] [66] := by
  intro d
  have hchain : FatChain (volume (fun c => if c = 2 then 3 else 0x0FFFFFFF) mixedRecords) defaultHeader [2, 3] :=
    ⟨two_valid, fatNext_volume _ _ (by omega) (by decide),
      by unfold ValidCluster dataClusters; omega, fatNext_volume _ _ (by omega) (by decide)⟩
  obtain ⟨s, hload, hboot, hhdr⟩ := loadFileSystem_healthy _ _ hchain (by decide)
  have hfirst := hboot.firstLoaded (hhdr ▸ defaultHeader_layout) (hhdr ▸ hchain) (by decide)
  refine ⟨s, hload, (scans_complete_iff hfirst (fun n _ => healthyDrive_good _ n) [66]).mpr ⟨?_, by decide⟩⟩
  rw [hboot.endsInFirst_volume hhdr]
  decide

/-- A root directory of two clusters full of files: the scan that should go on with the
    second one leaves the buffer. -/
theorem scans_not_complete :
    let d := healthyDrive (volume (fun c => if c = 2 then 3 else 0x0FFFFFFF) fun _ _ => 65)
    ∃ s, loadFileSystem d .boot = some (.ok (true, s)) ∧ FirstLoaded d s 2 [3] ∧
      (∀ n, s.waits ≤ n → d.good n = true) ∧ ¬ (ListsAll d s [2, 3] ∧ FindsAll d s [2, 3] [66]) := by
  intro d
  have hchain : FatChain (volume (fun c => if c = 2 then 3 else 0x0FFFFFFF) fun _ _ => 65)
      defaultHeader [2, 3] :=
    ⟨two_valid, fatNext_volume _ _ (by omega) (by decide),
      by unfold ValidCluster dataClusters; omega, fatNext_volume _ _ (by omega) (by decide)⟩
  obtain ⟨s, hload, hboot, hhdr⟩ := loadFileSystem_healthy _ _ hchain (by decide)
  have hfirst := hboot.firstLoaded (hhdr ▸ defaultHeader_layout) (hhdr ▸ hchain) (by decide)
  refine ⟨s, hload, hfirst, fun n _ => healthyDrive_good _ n, fun ⟨hlist, _⟩ => ?_⟩
  rw [listsAll_iff hfirst fun n _ => healthyDrive_good _ n, hboot.endsInFirst_volume hhdr] at hlist
  exact absurd ((endsInFirst_files _ 64 0 0).symm.trans hlist) (by decide)

end SoreOS
