import SoreOS.Spec.ReadFile

/-!
# Walking the FAT without a cache

`traverseFAT` against the walk that reads the sector of every entry anew: whatever
earlier walks and loads left in the cache, the clusters are the same.

## Key results

- `readSector_fatSector`: what a successful read of a FAT sector delivers
- `freshChain`: the walk without a cache
- `traverseFAT_freshChain`: the walk with the cache lists the same clusters
-/

namespace SoreOS

open ForStd

/-! ## Sectors and entries -/

/-- The contents of FAT sector `k`. -/
def fatSector (disk : Bytes) (hdr : FAT32_HEADER) (k : Int) : Bytes :=
  subBuffer disk (fatSectorBase hdr k)

/-- A successful read of the sector at `LBA_FAT_Location + k` delivers the contents. -/
theorem readSector_fatSector {d : Drive} {hdr : FAT32_HEADER} {k : Int} {n n' : Nat} {buffer m : Bytes}
    (h : readSector d n 1 (toInt (hdr.LBA_FAT_Location.toNat + k)) .FATBuffer buffer =
      .ok (true, m, n')) {i : Int} (hi : 0 ≤ i) (hi' : i < 512) :
    m i = fatSector d.disk hdr k i := by
  have hread := readSector_eq d (o := .FATBuffer) n 1 (toInt (hdr.LBA_FAT_Location.toNat + k)) buffer
    (by decide)
  rw [Int.natCast_one, h, toInt_emod] at hread
  have hpair := Except.ok.inj hread
  have hall : goodSectors d n 1 = 1 := by
    have := congrArg (fun p => p.1) hpair
    exact of_decide_eq_true this.symm
  have hm := congrArg (fun p => p.2.1) hpair
  dsimp only at hm
  rw [hm, hall, memcpyObj, Mem.copyFrom_apply, if_pos (by omega), Int.sub_zero]
  rfl

/-- The entry of a cluster, with a sector read for it alone. -/
def freshNext (disk : Bytes) (hdr : FAT32_HEADER) (c : Int) : Int :=
  toInt (readDD (fatSector disk hdr (c / 128)) (4 * (c % 128))).toNat

/-- The cached sector is the one its index names, also if the index is -1. -/
def Cached (d : Drive) (s : FsState) : Prop :=
  ∀ i : Int, 0 ≤ i → i < 512 → s.FATBuffer i = fatSector d.disk s.fileSys s.FATSecIdx i

/-- The entry of a cluster in the cached sector. -/
theorem freshNext_cached {d : Drive} {s : FsState} (hc : Cached d s) {c : Int} (hidx : s.FATSecIdx = c / 128) :
    toInt (readDD s.FATBuffer (4 * (c % 128))).toNat = freshNext d.disk s.fileSys c := by
  rw [freshNext, readDD, readDD]
  congr 4
  apply Mem.loadLE_congr
  intro k hk
  rw [hc _ (by omega) (by omega), hidx]

/-- At most `n` clusters of the chain from `c` on, up to and including the end mark. -/
def freshChain (disk : Bytes) (hdr : FAT32_HEADER) : Nat → Int → List Int
  | 0, _ => []
  | n + 1, c =>
    if c = END_OF_CHAIN then [c] else c :: freshChain disk hdr n (freshNext disk hdr c)

/-! ## The cache in front of a lookup -/

/-- The reads that lead from one state to another succeed. -/
def ReadsGood (d : Drive) (s t : FsState) : Prop :=
  ∀ n, s.waits ≤ n → n < t.waits → d.good n = true

/-- Fetching the sector of an entry. While the cache is empty its index is -1, which is
    no sector of an entry that is looked up first. -/
theorem reachFATSect_cached {d : Drive} {s t : FsState} {offset : Int} {ok : Bool}
    (hc : Cached d s ∨ CacheOk d s ∧ 0 ≤ offset) (h : reachFATSect d s offset = .ok (ok, t))
    (hgood : ReadsGood d s t) : ok = true ∧ Cached d t ∧ t.FATSecIdx = offset ∧ FatFrame s t := by
  unfold reachFATSect at h
  split at h
  · -- the sector is loaded
    rw [load_FATSect_eq] at h
    obtain ⟨rfl, rfl⟩ := Prod.mk.inj (Except.ok.inj h)
    have hread : d.good s.waits = true := hgood s.waits (Nat.le_refl _) (Nat.lt_succ_self _)
    simp only [hread, if_true]
    refine ⟨trivial, fun i hi hi' => ?_, trivial, Nat.le_succ _, rfl⟩
    dsimp only
    rw [memcpyObj, Mem.copyFrom_apply, if_pos (by omega), Int.sub_zero]
    rfl
  · -- it is there already
    rename_i hhit
    obtain ⟨rfl, rfl⟩ := Prod.mk.inj (Except.ok.inj h)
    -- an empty cache names sector -1, which is not asked for
    have hhit : offset = s.FATSecIdx := not_not.mp hhit
    refine ⟨rfl, ?_, hhit.symm, .refl s⟩
    cases hc with
    | inl hc => exact hc
    | inr hc => exact hc.1 (by omega)

/-! ## The walk -/

theorem FatFrame.of_traverseFATLoop {d : Drive} {rounds : Nat} {i : Int} (hi : 0 < i) {s t : FsState}
    {clusters clusters' : Mem Int} {ok : Bool}
    (h : traverseFATLoop d rounds i s clusters = .ok (ok, clusters', t)) : FatFrame s t := by
  obtain ⟨ok', m, u, hrun, hframe, _⟩ := traverseFATLoop_returns d rounds hi s clusters
  rw [h] at hrun
  obtain ⟨_, hpair⟩ := Prod.mk.inj (Except.ok.inj hrun)
  rw [(Prod.mk.inj hpair).2]
  exact hframe

theorem freshChain_one (disk : Bytes) (hdr : FAT32_HEADER) (c : Int) : freshChain disk hdr 1 c = [c] := by
  unfold freshChain
  split <;> rfl

/-- The array lists `cs` from index `i` on. -/
def ListsFrom (clusters : Mem Int) (i : Int) (cs : List Int) : Prop :=
  ∀ (k : Nat) (hk : k < cs.length), clusters (i + k) = cs[k]

theorem ListsFrom.cons {clusters : Mem Int} {i c : Int} {cs : List Int} (hc : clusters i = c)
    (h : ListsFrom clusters (i + 1) cs) : ListsFrom clusters i (c :: cs) := by
  intro k hk
  cases k with
  | zero =>
    rw [Int.natCast_zero, Int.add_zero]
    exact hc
  | succ k =>
    rw [Int.natCast_succ, show i + ((k : Int) + 1) = i + 1 + k from by omega]
    exact h k (Nat.lt_of_succ_lt_succ hk)

theorem ListsFrom.head {clusters : Mem Int} {i c : Int} {cs : List Int} (h : ListsFrom clusters i (c :: cs)) :
    clusters i = c := by
  have hfirst := h 0 (Nat.zero_lt_succ _)
  rwa [Int.natCast_zero, Int.add_zero] at hfirst

theorem ListsFrom.tail {clusters : Mem Int} {i c : Int} {cs : List Int} (h : ListsFrom clusters i (c :: cs)) :
    ListsFrom clusters (i + 1) cs := by
  intro k hk
  have hnext := h (k + 1) (Nat.succ_lt_succ hk)
  rwa [Int.natCast_succ, Int.add_comm (k : Int), ← Int.add_assoc] at hnext

theorem ListsFrom.singleton {clusters : Mem Int} {i c : Int} (hc : clusters i = c) :
    ListsFrom clusters i [c] :=
  ListsFrom.cons hc fun _ hk => absurd hk (Nat.not_lt_zero _)

/-- The walk from `clusters[i - 1]` on writes the rest of the chain behind it. -/
theorem traverseFATLoop_freshChain {d : Drive} {rounds : Nat} {i : Int} (hi : 0 < i) {s t : FsState}
    {clusters clusters' : Mem Int} {ok : Bool}
    (hc : Cached d s ∨ CacheOk d s ∧ 0 ≤ clusters (i - 1))
    (h : traverseFATLoop d rounds i s clusters = .ok (ok, clusters', t)) (hgood : ReadsGood d s t) :
    ok = true ∧ (∀ k, k < i → clusters' k = clusters k) ∧
      ListsFrom clusters' (i - 1) (freshChain d.disk s.fileSys (rounds + 1) (clusters (i - 1))) := by
  induction rounds generalizing i s clusters with
  | zero =>
    simp only [traverseFATLoop, pure_eq_ok, Except.ok.injEq, Prod.mk.injEq] at h
    obtain ⟨rfl, rfl, rfl⟩ := h
    rw [Nat.zero_add, freshChain_one]
    exact ⟨rfl, fun _ _ => rfl, .singleton rfl⟩
  | succ rounds ih =>
    rw [traverseFATLoop] at h
    rw [freshChain]
    by_cases hend : clusters (i - 1) = END_OF_CHAIN
    · -- the chain ends here
      rw [if_pos hend] at h ⊢
      simp only [pure_eq_ok, Except.ok.injEq, Prod.mk.injEq] at h
      obtain ⟨rfl, rfl, rfl⟩ := h
      exact ⟨rfl, fun _ _ => rfl, .singleton rfl⟩
    · rw [if_neg hend] at h ⊢
      obtain ⟨⟨ok', u⟩, hreach, h⟩ := bind_eq_ok.mp h
      -- the fetch is one of the reads that succeed
      have hmono : u.waits ≤ t.waits := by
        cases ok' with
        | true => exact (FatFrame.of_traverseFATLoop (by omega) h).waits
        | false =>
          cases h
          exact Nat.le_refl _
      obtain ⟨rfl, hcu, hidx, hframe⟩ := reachFATSect_cached
        (hc.imp_right fun hc => ⟨hc.1, by omega⟩) hreach fun n hn hn' => hgood n hn (by omega)
      have hfs : u.fileSys = s.fileSys := by rw [hframe.eq]
      -- and so are the fetches of the rest
      simp only [if_true, freshNext_cached hcu hidx, hfs] at h
      have hhead : (clusters.set i (freshNext d.disk s.fileSys (clusters (i - 1)))) (i + 1 - 1) =
          freshNext d.disk s.fileSys (clusters (i - 1)) := by
        rw [Int.add_sub_cancel, Mem.set_same]
      obtain ⟨hok, hkeep, hlist⟩ := ih (by omega) (.inl hcu) h fun n hn hn' =>
        hgood n (Nat.le_trans hframe.waits hn) hn'
      rw [hhead, hfs] at hlist
      refine ⟨hok, fun k hk => ?_, .cons ?_ ?_⟩
      · rw [hkeep k (by omega), Mem.set_other _ _ (by omega)]
      · rw [hkeep (i - 1) (by omega), Mem.set_other _ _ (by omega)]
      · rw [Int.add_sub_cancel] at hlist
        rw [Int.sub_add_cancel]
        exact hlist

/-- The array that the walk leaves, from `clusters[i]` on, without a cache. -/
def freshWalk (disk : Bytes) (hdr : FAT32_HEADER) : Nat → Int → Mem Int → Mem Int
  | 0, _, clusters => clusters
  | n + 1, i, clusters =>
    if clusters (i - 1) = END_OF_CHAIN then clusters
    else freshWalk disk hdr n (i + 1) (clusters.set i (freshNext disk hdr (clusters (i - 1))))

theorem freshWalk_before (disk : Bytes) (hdr : FAT32_HEADER) (n : Nat) {i k : Int} (hk : k < i) (clusters : Mem Int) :
    freshWalk disk hdr n i clusters k = clusters k := by
  induction n generalizing i clusters with
  | zero => rfl
  | succ n ih =>
    rw [freshWalk]
    split
    · rfl
    · rw [ih (by omega), Mem.set_other _ _ (by omega)]

/-- Without errors, the walk leaves that array, whatever sector the cache holds. -/
theorem traverseFATLoop_cached {d : Drive} (rounds : Nat) {i : Int} {s : FsState} (clusters : Mem Int)
    (hc : Cached d s) (hgood : ∀ n, s.waits ≤ n → d.good n = true) :
    ∃ t, traverseFATLoop d rounds i s clusters = .ok (true, freshWalk d.disk s.fileSys rounds i clusters, t) ∧
      FatFrame s t ∧ Cached d t := by
  induction rounds generalizing i s clusters with
  | zero => exact ⟨s, rfl, .refl s, hc⟩
  | succ rounds ih =>
    rw [traverseFATLoop, freshWalk]
    by_cases hend : clusters (i - 1) = END_OF_CHAIN
    · rw [if_pos hend, if_pos hend]
      exact ⟨s, rfl, .refl s, hc⟩
    · rw [if_neg hend, if_neg hend]
      obtain ⟨ok, u, hreach, -⟩ := reachFATSect_returns d s (clusters (i - 1) / 128)
      obtain ⟨rfl, hcu, hidx, hframe⟩ := reachFATSect_cached (.inl hc) hreach fun n hn _ => hgood n hn
      have hfs : u.fileSys = s.fileSys := by rw [hframe.eq]
      rw [hreach, ok_bind]
      dsimp only
      rw [if_pos rfl, freshNext_cached hcu hidx, hfs]
      obtain ⟨t, hrun, hframe', hct⟩ := ih (i := i + 1) (s := u)
        (clusters.set i (freshNext d.disk s.fileSys (clusters (i - 1)))) hcu
        fun n hn => hgood n (Nat.le_trans hframe.waits hn)
      rw [hfs] at hrun
      exact ⟨t, hrun, hframe.trans hframe', hct⟩

/-! ## Every state of the cache -/

/-- The states that operations of the file system leave, from one with an empty cache on. -/
inductive CacheReachable (d : Drive) : FsState → Prop where
  | empty {s : FsState} (h : s.FATSecIdx = -1) : CacheReachable d s
  | step {s s' : FsState} (op : FsOp) (hs : CacheReachable d s) (h : op.apply d s = .ok s') :
      CacheReachable d s'

theorem CacheReachable.cacheOk {d : Drive} {s : FsState} (h : CacheReachable d s) : CacheOk d s := by
  induction h with
  | empty h => exact fun hne => absurd h hne
  | step op _ h ih => exact (FsOp.keepsCache h).cache ih

/-- In every state of the cache, the cached sector is the one that the index names. A walk
    from a cluster number whose reads succeed lists the chain as it is without a cache. -/
theorem traverseFAT_freshChain {d : Drive} {s : FsState} (hs : CacheReachable d s) :
    (s.FATSecIdx ≠ -1 → ∀ i : Int, 0 ≤ i → i < 512 →
      s.FATBuffer i = fatSector d.disk s.fileSys s.FATSecIdx i) ∧
    ∀ (start : Int) (clusters : Mem Int), 0 ≤ start → start < 268435456 →
      ∃ ok clusters' t, traverseFAT d s start clusters = .ok (ok, clusters', t) ∧
        (ReadsGood d s t → ok = true ∧
          ListsFrom clusters' 0 (freshChain d.disk s.fileSys 8 start)) := by
  have hc := hs.cacheOk
  refine ⟨hc, fun start clusters h0 _ => ?_⟩
  obtain ⟨ok, clusters', t, hrun, _, _⟩ := traverseFAT_returns d s start clusters
  refine ⟨ok, clusters', t, hrun, fun hgood => ?_⟩
  have hfirst : (clusters.set 0 start) (1 - 1) = start := Mem.set_same _ _ _
  obtain ⟨hok, _, hlist⟩ := traverseFATLoop_freshChain (by omega) (.inr ⟨hc, by rw [hfirst]; exact h0⟩) hrun
    hgood
  rw [hfirst] at hlist
  exact ⟨hok, hlist⟩

/-- A FAT with a chain that goes through its sectors 1, 0, 2 and 0. -/
def wanderingFat (c : Nat) : Nat := if c = 130 then 5 else if c = 5 then 300 else if c = 300 then 6 else 0x0FFFFFFF

/-- The walk of that chain, with sector 7 in the cache from the walk of another one. -/
theorem traverseFAT_freshChain_wandering :
    let d := healthyDrive (volume wanderingFat fun _ _ => 0)
    ∃ s, CacheReachable d s ∧ s.FATSecIdx = 7 ∧ ∃ ok clusters' t,
      traverseFAT d s 130 (fun _ => 0) = .ok (ok, clusters', t) ∧ ok = true ∧
      ListsFrom clusters' 0 [130, 5, 300, 6, 0x0FFFFFFF] := by
  intro d
  have hgood : ∀ n, d.good n = true := healthyDrive_good _
  have hempty : CacheReachable d { fileSys := defaultHeader } := .empty rfl
  -- cluster 1000 ends its chain
  obtain ⟨ok, s, hreach, -⟩ := reachFATSect_returns d { fileSys := defaultHeader } 7
  obtain ⟨rfl, hcached, hidx, hframe⟩ := reachFATSect_cached (.inr ⟨hempty.cacheOk, by decide⟩) hreach fun n _ _ => hgood n
  have hfs : s.fileSys = defaultHeader := by rw [hframe.eq]
  have hmark : freshNext d.disk defaultHeader 1000 = END_OF_CHAIN := by decide +kernel
  have hfirst : traverseFAT d { fileSys := defaultHeader } 1000 (fun _ => 0) =
      .ok (true, (Mem.set (fun _ => 0) 0 1000).set 1 END_OF_CHAIN, s) := by
    rw [traverseFAT, traverseFATLoop, Int.sub_self, Mem.set_same, if_neg (by decide), show (1000 : Int) / 128 = 7 from rfl,
      hreach, ok_bind]
    dsimp only
    rw [if_pos rfl, freshNext_cached hcached hidx, hfs, hmark, traverseFATLoop, if_pos (by rfl)]
    rfl
  have hs : CacheReachable d s := .step (.traverseFAT 1000 fun _ => 0) hempty (by rw [FsOp.apply, hfirst]; rfl)
  obtain ⟨ok, clusters', t, hrun, hlist⟩ := (traverseFAT_freshChain hs).2 130 (fun _ => 0) (by decide) (by decide)
  have hchain : freshChain d.disk s.fileSys 8 130 = [130, 5, 300, 6, 0x0FFFFFFF] := by
    rw [hfs]
    decide +kernel
  rw [hchain] at hlist
  exact ⟨s, hs, hidx, ok, clusters', t, hrun, hlist fun n _ _ => hgood n⟩

end SoreOS
