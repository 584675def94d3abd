import SoreOS.Spec.DriveCorrect

/-!
# Relations along a scan

What a round of a scan can do, and a rule: a relation between states that cluster
loads, moves to the next cluster and the visits of a scan respect is respected by
the whole scan.

## Key results

- `NextStep`, `ScanStep`: the ways in which a round ends
- `scan_rel`: the rule for the two scanning functions
- `listFiles_rel`, `findFile_rel`: the rule at each of them
- `traverseFATLoop_rel`: the rule for sector loads along the walk of a chain
-/

namespace SoreOS

open ForStd

/-! ## The ways in which a round ends -/

section Steps

variable {R : Type}

/-- The ways in which `nextRecord` ends a round. -/
inductive NextStep (d : Drive) (s : FsState) (v : Scan) : Round R → Prop where
  | within : NextStep d s v (.next s { v with recordOffset := v.recordOffset + 32 })
  | last : NextStep d s v (.ended none s)
  | failed (i : Int) (t : FsState) (hload : load_Cluster d s i = .ok (false, t)) : NextStep d s v (.ended none t)
  | loaded (i : Int) (t : FsState) (hload : load_Cluster d s i = .ok (true, t))
      (hend : v.recordOffset + 32 =
        s.fileSys.A_BF_BPB_SectorsPerCluster.toNat * s.fileSys.A_BF_BPB_BytesPerSector.toNat) :
      NextStep d s v (.next { t with dirClusterIndex := t.dirClusterIndex + 1 }
        { v with recordOffset := v.recordOffset + 32 })

theorem nextRecord_step {d : Drive} {s : FsState} {v : Scan} {round : Round R} (h : nextRecord d s v = .ok round) :
    NextStep d s v round := by
  unfold nextRecord at h
  simp only at h
  split at h
  · rename_i hend
    split at h
    · obtain ⟨cluster, _, h⟩ := bind_eq_ok.mp h
      split at h
      · obtain ⟨⟨ok, t⟩, hload, h⟩ := bind_eq_ok.mp h
        cases ok with
        | true =>
          obtain rfl := Except.ok.inj h
          rw [Int.add_zero]
          exact .loaded cluster t hload hend
        | false =>
          obtain rfl := Except.ok.inj h
          exact .failed cluster t hload
      · obtain rfl := Except.ok.inj h
        exact .last
    · obtain rfl := Except.ok.inj h
      exact .last
  · obtain rfl := Except.ok.inj h
    exact .within

/-- What a round does with the record at its offset: there is none, it is deleted, it is a piece of a
    long name in or out of sequence, or it is the record of a file. -/
inductive ScanStep (d : Drive) (visit : Visit R) (s : FsState) (v : Scan) : Round R → Prop where
  | noMore (h0 : s.ClusterBuffer v.recordOffset = 0) : ScanStep d visit s v (.ended none s)
  | deleted {round : Round R} (hdel : s.ClusterBuffer v.recordOffset = 0xE5)
      (hnext : nextRecord d s v = .ok round) : ScanStep d visit s v round
  | piece {round : Round R} (h0 : s.ClusterBuffer v.recordOffset ≠ 0) (hdel : s.ClusterBuffer v.recordOffset ≠ 0xE5)
      (hlfn : isLFN (subBuffer s.ClusterBuffer v.recordOffset) = true) (idx : Int) (longName : Bytes)
      (hidx : (s.ClusterBuffer v.recordOffset &&& 0x0F).toNat = idx + 1)
      (hexp : expectedIdx (s.ClusterBuffer v.recordOffset) v.LongFileNameIdx = idx + 1)
      (hname : readLFN (subBuffer s.ClusterBuffer v.recordOffset) LFN_idxs (idx * 13) v.longName = .ok longName)
      (hnext : nextRecord d s { v with LongFileNameIdx := idx, longName := longName } = .ok round) :
      ScanStep d visit s v round
  | mismatch (h0 : s.ClusterBuffer v.recordOffset ≠ 0) (hdel : s.ClusterBuffer v.recordOffset ≠ 0xE5)
      (hlfn : isLFN (subBuffer s.ClusterBuffer v.recordOffset) = true) : ScanStep d visit s v (.ended none s)
  | found (h0 : s.ClusterBuffer v.recordOffset ≠ 0) (hdel : s.ClusterBuffer v.recordOffset ≠ 0xE5)
      (hfile : isLFN (subBuffer s.ClusterBuffer v.recordOffset) = false) {res : R} {t : FsState}
      (hvisit : visit s v.recordOffset (cstr v.longName 105) = (some res, t)) :
      ScanStep d visit s v (.ended (some res) t)
  | file {round : Round R} (h0 : s.ClusterBuffer v.recordOffset ≠ 0) (hdel : s.ClusterBuffer v.recordOffset ≠ 0xE5)
      (hfile : isLFN (subBuffer s.ClusterBuffer v.recordOffset) = false) {t : FsState}
      (hvisit : visit s v.recordOffset (cstr v.longName 105) = (none, t))
      (hnext : nextRecord d t { v with longName := memset v.longName 0 0 105 } = .ok round) :
      ScanStep d visit s v round

/-- A round that does not fault has its record in the cluster buffer. -/
theorem scanRound_step {d : Drive} {visit : Visit R} {s : FsState} {v : Scan} {round : Round R}
    (h : scanRound d visit s v = .ok round) :
    0 ≤ v.recordOffset ∧ v.recordOffset < 2048 ∧ ScanStep d visit s v round := by
  unfold scanRound at h
  obtain ⟨first, hfirst, h⟩ := bind_eq_ok.mp h
  obtain ⟨hin, hin', rfl⟩ := load_eq_ok hfirst
  refine ⟨hin, hin', ?_⟩
  simp only at h
  split at h
  · rename_i h0
    obtain rfl := Except.ok.inj h
    exact .noMore h0
  rename_i h0
  split at h
  · rename_i hdel
    exact .deleted hdel h
  rename_i hdel
  split at h
  · rename_i hlfn
    split at h
    · rename_i hidx
      obtain ⟨longName, hname, h⟩ := bind_eq_ok.mp h
      have hexp := (Int.sub_add_cancel (expectedIdx (s.ClusterBuffer v.recordOffset) v.LongFileNameIdx) 1).symm
      exact .piece h0 hdel hlfn _ longName (hidx.trans hexp) hexp hname h
    · obtain rfl := Except.ok.inj h
      exact .mismatch h0 hdel hlfn
  · rename_i hfile
    rw [Bool.not_eq_true] at hfile
    split at h
    · rename_i hvisit
      obtain rfl := Except.ok.inj h
      exact .found h0 hdel hfile hvisit
    · rename_i hvisit
      exact .file h0 hdel hfile hvisit h

end Steps

/-! ## The rule -/

section Rule

variable {R : Type} {d : Drive} {visit : Visit R} {Rel : FsState → FsState → Prop}
  (hrefl : ∀ s, Rel s s) (htrans : ∀ {s t u}, Rel s t → Rel t u → Rel s u)
  (hload : ∀ {s s' i ok}, load_Cluster d s i = .ok (ok, s') → Rel s s')
  (hindex : ∀ s i, Rel s { s with dirClusterIndex := i })
  (hvisit : ∀ {s off longName res s'}, visit s off longName = (res, s') → Rel s s')

/-- The state in which a round ends. -/
def Round.state : Round R → FsState
  | .ended _ s => s
  | .next s _ => s

include hrefl htrans hload hindex in
theorem nextRecord_rel {s : FsState} {v : Scan} {round : Round R}
    (h : nextRecord d s v = .ok round) : Rel s round.state := by
  cases nextRecord_step h with
  | within => exact hrefl s
  | last => exact hrefl s
  | failed i t hrun => exact hload hrun
  | loaded i t hrun _ => exact htrans (hload hrun) (hindex t _)

include hrefl htrans hload hindex hvisit

theorem scanRound_rel {s : FsState} {v : Scan} {round : Round R}
    (h : scanRound d visit s v = .ok round) : Rel s round.state := by
  have hrec : ∀ {s v} {round : Round R}, nextRecord d s v = .ok round → Rel s round.state :=
    nextRecord_rel hrefl htrans hload hindex
  obtain ⟨-, -, hstep⟩ := scanRound_step h
  cases hstep with
  | noMore _ => exact hrefl s
  | mismatch => exact hrefl s
  | deleted _ hnext => exact hrec hnext
  | piece _ _ _ idx longName _ _ _ hnext => exact hrec hnext
  | found _ _ _ hres => exact hvisit hres
  | file _ _ _ hnone hnext => exact htrans (hvisit hnone) (hrec hnext)

theorem scanLoop_rel {rounds : Nat} {s s' : FsState} {v : Scan} {res : Option R}
    (h : scanLoop d visit rounds s v = .ok (res, s')) : Rel s s' := by
  induction rounds generalizing s v with
  | zero => exact nomatch h
  | succ rounds ih =>
    rw [scanLoop] at h
    obtain ⟨round, hround, h⟩ := bind_eq_ok.mp h
    have hrel := scanRound_rel hrefl htrans hload hindex hvisit hround
    cases round with
    | ended res' t =>
      obtain ⟨rfl, rfl⟩ := Prod.mk.inj (Except.ok.inj h)
      exact hrel
    | next t v => exact htrans hrel (ih h)

/-- A scan respects what its parts respect. -/
theorem scan_rel {s s' : FsState} {res : Option R} (h : scan d visit s = .ok (res, s')) :
    Rel s s' := by
  unfold scan at h
  obtain ⟨⟨ok, t⟩, hopen, h⟩ := bind_eq_ok.mp h
  have hrel : Rel s t := by
    unfold loadFirst at hopen
    split at hopen
    · exact hload hopen
    · obtain ⟨_, rfl⟩ := Prod.mk.inj (Except.ok.inj hopen)
      exact hrefl _
  cases ok with
  | true => exact htrans hrel (scanLoop_rel hrefl htrans hload hindex hvisit h)
  | false =>
    obtain ⟨_, rfl⟩ := Prod.mk.inj (Except.ok.inj h)
    exact hrel

end Rule

section Functions

variable {d : Drive} {Rel : FsState → FsState → Prop}
  (hrefl : ∀ s, Rel s s) (htrans : ∀ {s t u}, Rel s t → Rel t u → Rel s u)
  (hload : ∀ {s s' i ok}, load_Cluster d s i = .ok (ok, s') → Rel s s')
  (hindex : ∀ s i, Rel s { s with dirClusterIndex := i })
include hrefl htrans hload hindex

/-- `listFiles` changes the output besides. -/
theorem listFiles_rel (hout : ∀ s out, Rel s { s with out := out }) {s s' : FsState}
    (h : listFiles d s = .ok s') : Rel s s' := by
  obtain ⟨⟨res, t⟩, hscan, h⟩ := bind_eq_ok.mp h
  obtain rfl := Except.ok.inj h
  refine scan_rel hrefl htrans hload hindex (fun hv => ?_) hscan
  obtain ⟨_, rfl⟩ := Prod.mk.inj hv
  exact hout _ _

/-- The search of `findFile` changes nothing besides. -/
theorem findRecord_rel {s s' : FsState} {filename : List UInt8} {res : Option Int}
    (h : findRecord d s filename = .ok (res, s')) : Rel s s' := by
  unfold findRecord at h
  split at h
  · obtain ⟨_, rfl⟩ := Prod.mk.inj (Except.ok.inj h)
    exact hrefl _
  · refine scan_rel hrefl htrans hload hindex (fun hv => ?_) h
    unfold findVisit at hv
    split at hv <;> (obtain ⟨_, rfl⟩ := Prod.mk.inj hv; exact hrefl _)

/-- `findFile` walks a cluster chain besides. -/
theorem findFile_rel
    (hfat : ∀ {s s' c m m' ok}, traverseFAT d s c m = .ok (ok, m', s') → Rel s s')
    {s s' : FsState} {filename : List UInt8} {file file' : File} {res : Int}
    (h : findFile d s filename file = .ok (res, file', s')) : Rel s s' := by
  obtain ⟨⟨found, t⟩, hfind, h⟩ := bind_eq_ok.mp h
  have hrel := findRecord_rel hrefl htrans hload hindex hfind
  cases found with
  | none =>
    cases h
    exact hrel
  | some off =>
    obtain ⟨⟨file'', u⟩, hfill, h⟩ := bind_eq_ok.mp h
    obtain ⟨⟨ok, clusters, w⟩, hwalk, hfill⟩ := bind_eq_ok.mp hfill
    cases h
    cases hfill
    exact htrans hrel (hfat hwalk)

/-- `printFile` loads clusters and changes the output. -/
theorem printFile_rel (hout : ∀ s out, Rel s { s with out := out }) {s s' : FsState} {file : File}
    (h : printFile d s file = .ok s') : Rel s s' := by
  have hloop : ∀ {rounds i s s' size},
      printFileLoop d file.clusters rounds i s size = .ok s' → Rel s s' := by
    intro rounds
    induction rounds with
    | zero =>
      intro i s s' size h
      obtain rfl := Except.ok.inj h
      exact hrefl _
    | succ rounds ih =>
      intro i s s' size h
      rw [printFileLoop] at h
      split at h
      · obtain ⟨⟨ok, t⟩, hl, h⟩ := bind_eq_ok.mp h
        exact htrans (htrans (hload hl) (hout t _)) (ih h)
      · obtain rfl := Except.ok.inj h
        exact hrefl _
  exact htrans (hindex s (-1)) (hloop h)

end Functions

/-- The walk of a chain loads sectors of the FAT. -/
theorem traverseFATLoop_rel {d : Drive} {Rel : FsState → FsState → Prop} (hrefl : ∀ s, Rel s s)
    (htrans : ∀ {s t u}, Rel s t → Rel t u → Rel s u)
    (hfat : ∀ {s s' offset ok}, load_FATSect d s offset = .ok (ok, s') → Rel s s')
    {rounds : Nat} {i : Int} {s s' : FsState} {m m' : Mem Int} {ok : Bool}
    (h : traverseFATLoop d rounds i s m = .ok (ok, m', s')) : Rel s s' := by
  induction rounds generalizing i s m with
  | zero =>
    cases h
    exact hrefl _
  | succ rounds ih =>
    rw [traverseFATLoop] at h
    split at h
    · cases h
      exact hrefl _
    · obtain ⟨⟨ok', t⟩, hreach, h⟩ := bind_eq_ok.mp h
      -- a round fetches a sector or finds it in the cache
      have hrel : Rel s t := by
        unfold reachFATSect at hreach
        split at hreach
        · exact hfat hreach
        · cases hreach
          exact hrefl _
      cases ok' with
      | true => exact htrans hrel (ih h)
      | false =>
        cases h
        exact hrel

/-- `openDirectory` loads a cluster. -/
theorem openDirectory_rel {d : Drive} {Rel : FsState → FsState → Prop}
    (htrans : ∀ {s t u}, Rel s t → Rel t u → Rel s u)
    (hload : ∀ {s s' i ok}, load_Cluster d s i = .ok (ok, s') → Rel s s')
    (hindex : ∀ s i, Rel s { s with dirClusterIndex := i })
    {s s' : FsState} {directory : File} {ok : Bool}
    (h : openDirectory d s directory = .ok (ok, s')) : Rel s s' := by
  unfold openDirectory at h
  obtain ⟨⟨ok', t⟩, hl, h⟩ := bind_eq_ok.mp h
  cases ok' with
  | true =>
    obtain ⟨_, rfl⟩ := Prod.mk.inj (Except.ok.inj h)
    exact htrans (hload hl) (hindex t _)
  | false =>
    obtain ⟨_, rfl⟩ := Prod.mk.inj (Except.ok.inj h)
    exact hload hl

end SoreOS
