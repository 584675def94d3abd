import SoreOS.Spec.FindFile

/-!
# Read errors

What `findFile` and `printFile` make of drives whose reads fail: which reads the
printed bytes depend on, and that the bytes are the file's if these succeed. No
other read matters; a failure of one of these goes unnoticed.

## Key results

- `traverseFATLoop_walk`: the walk of a chain up to the first failing read
- `printFileLoop_read`: printing, with the sectors that cover printed bytes read
- `findFile_printFile_prefix`: what is printed is a prefix of the file
- `findFile_printFile_stale`: bytes of the directory printed as those of a file
-/

namespace SoreOS

open ForStd

/-! ## The walk of a chain -/

/-- How many entries of the FAT the walk over clusters reads before a read fails, and
    how many reads it makes, from the `w`th wait on with sector `idx` in the cache. -/
def fatWalk (d : Drive) : Nat → Int → List Nat → Nat × Nat
  | _, _, [] => (0, 0)
  | w, idx, c :: cs =>
    if (c : Int) / 128 = idx then ((fatWalk d w idx cs).1 + 1, (fatWalk d w idx cs).2)
    else if d.good w = true then
      ((fatWalk d (w + 1) ((c : Int) / 128) cs).1 + 1, (fatWalk d (w + 1) ((c : Int) / 128) cs).2 + 1)
    else (0, 1)

/-- A step of the walk: what it reads, and where it goes on. -/
theorem reachFATSect_walk {d : Drive} {s : FsState} (hc : FatCached d s) (c : Nat) (cs : List Nat) :
    (∃ t, reachFATSect d s ((c : Int) / 128) = .ok (true, t) ∧ FatFrame s t ∧ FatCached d t ∧
      t.FATSecIdx = (c : Int) / 128 ∧
      (fatWalk d s.waits s.FATSecIdx (c :: cs)).1 = (fatWalk d t.waits t.FATSecIdx cs).1 + 1 ∧
      s.waits + (fatWalk d s.waits s.FATSecIdx (c :: cs)).2 =
        t.waits + (fatWalk d t.waits t.FATSecIdx cs).2) ∨
    (reachFATSect d s ((c : Int) / 128) = .ok (false, { s with waits := s.waits + 1 }) ∧
      fatWalk d s.waits s.FATSecIdx (c :: cs) = (0, 1)) := by
  unfold reachFATSect
  rw [fatWalk]
  by_cases hhit : (c : Int) / 128 = s.FATSecIdx
  · rw [if_neg (not_not.mpr hhit), if_pos hhit]
    -- no read for a sector that is cached
    exact .inl ⟨s, rfl, .refl s, hc, hhit.symm, rfl, rfl⟩
  · rw [if_pos hhit, if_neg hhit]
    -- one read for another
    have hload := load_FATSect_eq d s ((c : Int) / 128)
    cases hgood : d.good s.waits with
    | true =>
      simp only [hgood, if_true] at hload
      refine .inl ⟨_, hload, ⟨Nat.le_succ _, rfl⟩, fun c' _ _ i hi hi' => ?_, rfl, rfl, ?_⟩
      · dsimp only
        rw [memcpyObj, Mem.copyFrom_apply, if_pos (by omega), Int.sub_zero]
      · simp only [if_true]
        omega
    | false =>
      simp only [hgood, Bool.false_eq_true, if_false] at hload
      exact .inr ⟨hload, rfl⟩

/-- The walk from `clusters[i - 1]` on, which begins a chain: as far as its reads
    succeed, the array lists the chain, and behind that it is as it was. -/
theorem traverseFATLoop_walk {d : Drive} {cs : List Nat} {s : FsState}
    (hl : StandardLayout s.fileSys) (hc : FatCached d s) (hchain : FatChain d.disk s.fileSys cs)
    (rounds : Nat) {i : Int} {clusters : Mem Int} (hfirst : ∀ c ∈ cs.head?, clusters (i - 1) = (c : Nat)) :
    ∃ ok clusters' t, traverseFATLoop d rounds i s clusters = .ok (ok, clusters', t) ∧
      FatFrame s t ∧ t.waits = s.waits + (fatWalk d s.waits s.FATSecIdx (cs.take rounds)).2 ∧
      (∀ k, k < i ∨ i + (fatWalk d s.waits s.FATSecIdx (cs.take rounds)).1 ≤ k →
        clusters' k = clusters k) ∧
      ∀ k : Nat, k ≤ (fatWalk d s.waits s.FATSecIdx (cs.take rounds)).1 →
        (∀ hk : k < cs.length, clusters' (i - 1 + k) = cs[k]) ∧
        (k = cs.length → clusters' (i - 1 + k) = END_OF_CHAIN) := by
  induction rounds generalizing cs s i clusters with
  | zero =>
    refine ⟨true, clusters, s, rfl, .refl s, rfl, fun _ _ => rfl, fun k hk => ?_⟩
    obtain rfl : k = 0 := Nat.le_zero.mp hk
    cases cs with
    | nil => exact absurd hchain id
    | cons c cs =>
      refine ⟨fun _ => ?_, fun h => absurd h (by simp)⟩
      rw [Int.natCast_zero, Int.add_zero]
      exact hfirst c rfl
  | succ rounds ih =>
    cases cs with
    | nil => exact absurd hchain id
    | cons c cs =>
      have hhead : clusters (i - 1) = c := hfirst c rfl
      have hv := hchain.valid c List.mem_cons_self
      have hstep : ∀ r, reachFATSect d s ((c : Int) / 128) = .ok r →
          traverseFATLoop d (rounds + 1) i s clusters =
            if r.1 then traverseFATLoop d rounds (i + 1) r.2
              (clusters.set i (toInt (readDD r.2.FATBuffer (4 * ((c : Int) % 128))).toNat))
            else .ok (false, clusters, r.2) := by
        intro r hreach
        rw [traverseFATLoop, hhead, if_neg hv.ne_END_OF_CHAIN, hreach]
        rfl
      rw [List.take_succ_cons]
      obtain ⟨t, hreach, hframe, hct, hidx, hentries, hreads⟩ | ⟨hreach, hfail⟩ :=
        reachFATSect_walk hc c (cs.take rounds)
      · -- the entry of `c` is read
        have hfs : t.fileSys = s.fileSys := by rw [hframe.eq]
        rw [hstep _ hreach, if_pos rfl, hentries, hreads]
        dsimp only
        cases cs with
        | nil =>
          have hnext := next_cached (hfs ▸ hl) hct hv hidx (hfs ▸ hchain.2) (by decide)
          have hend : (clusters.set i (0x0FFFFFFF : Nat)) (i + 1 - 1) = END_OF_CHAIN := by
            rw [Int.add_sub_cancel, Mem.set_same]
            rfl
          rw [hnext, traverseFATLoop_end d rounds t hend, List.take_nil]
          refine ⟨true, _, t, rfl, hframe, rfl,
            fun k hk => Mem.set_other _ _ (by push_cast at hk; omega), fun k _ => ?_⟩
          constructor
          · intro hk
            obtain rfl : k = 0 := by simpa using hk
            rw [Int.natCast_zero, Int.add_zero, Mem.set_other _ _ (by omega)]
            exact hhead
          · rintro rfl
            rw [show i - 1 + (([c] : List Nat).length : Int) = i + 1 - 1 from by simp]
            exact hend
        | cons c' cs =>
          obtain ⟨_, hnext, hrest⟩ := hchain
          have hsmall := (hrest.valid c' List.mem_cons_self).2
          unfold dataClusters at hsmall
          rw [next_cached (hfs ▸ hl) hct hv hidx (hfs ▸ hnext) (by omega)]
          obtain ⟨ok, clusters', u, hrun, hframe', hwaits, hkeep, hlists⟩ := @ih (c' :: cs) t
            (hfs ▸ hl) hct (hfs ▸ hrest) (i + 1) (clusters.set i c') (by
              intro c'' hc''
              cases hc''
              rw [Int.add_sub_cancel, Mem.set_same])
          refine ⟨ok, clusters', u, hrun, hframe.trans hframe', hwaits,
            fun k hk => (hkeep k (by push_cast at hk; omega)).trans
              (Mem.set_other _ _ (by push_cast at hk; omega)), fun k hk => ?_⟩
          cases k with
          | zero =>
            refine ⟨fun _ => ?_, fun h => absurd h (by simp)⟩
            rw [Int.natCast_zero, Int.add_zero, hkeep _ (by omega), Mem.set_other _ _ (by omega)]
            exact hhead
          | succ k =>
            rw [show i - 1 + ((k + 1 : Nat) : Int) = i + 1 - 1 + k from by push_cast; omega]
            obtain ⟨hcluster, hmark⟩ := hlists k (by omega)
            exact ⟨fun hk => hcluster (by simpa using hk), fun hk => hmark (by simpa using hk)⟩
      · -- the read fails: nothing but `c` itself is known
        rw [hstep _ hreach, if_neg Bool.false_ne_true, hfail]
        refine ⟨false, clusters, _, rfl, ⟨Nat.le_succ _, rfl⟩, rfl, fun _ _ => rfl, fun k hk => ?_⟩
        obtain rfl : k = 0 := Nat.le_zero.mp hk
        refine ⟨fun _ => ?_, fun h => absurd h (by simp)⟩
        rw [Int.natCast_zero, Int.add_zero]
        exact hhead

/-! ## Printing -/

/-- Nothing is printed once the size is used up, whatever is loaded, while the counter stays in range. -/
theorem printFileLoop_done {d : Drive} (clusters : Mem Int) (rounds : Nat) {i : Int} {s : FsState}
    (h : s.fileSys.A_BF_BPB_SectorsPerCluster = 4) {size : Int} (hsize : size ≤ 0)
    (hlow : 2048 * rounds ≤ size + 2147485696) :
    ∃ t, printFileLoop d clusters rounds i s size = .ok t ∧ t.out = s.out := by
  induction rounds generalizing i s size with
  | zero => exact ⟨s, rfl, rfl⟩
  | succ rounds ih =>
    rw [printFileLoop]
    split
    · have hspc : s.fileSys.A_BF_BPB_SectorsPerCluster.toNat = 4 := by rw [h]; rfl
      obtain ⟨ok, t, hload, hfs, hout⟩ : ∃ ok t, load_Cluster d s (clusters i) = .ok (ok, t) ∧
          t.fileSys = s.fileSys ∧ t.out = s.out := ⟨_, _, load_Cluster_eq d s _ hspc (by omega), rfl, rfl⟩
      rw [hload, ok_bind, if_neg (by omega)]
      dsimp only
      rw [Int.toNat_of_nonpos hsize]
      rw [Mem.read_zero, List.append_nil]
      cases rounds with
      | zero => exact ⟨_, rfl, hout⟩
      | succ rounds =>
        push_cast at hlow
        rw [toInt_eq (by omega) (by omega)]
        obtain ⟨u, hrun, hout'⟩ := @ih (i + 1) { t with out := t.out } (by rw [hfs, h]) (size - 2048) (by omega)
          (by push_cast; omega)
        exact ⟨u, hrun, hout'.trans hout⟩
    · exact ⟨s, rfl, rfl⟩

/-- The sectors before the first one that is not needed are read, if those reads succeed. -/
theorem le_goodSectors {d : Drive} {w n sectors : Nat} (hn : n ≤ sectors)
    (h : ∀ k < n, d.good (w + k) = true) : n ≤ goodSectors d w sectors := by
  induction sectors generalizing w n with
  | zero => omega
  | succ sectors ih =>
    cases n with
    | zero => omega
    | succ n =>
      rw [goodSectors, if_pos (show d.good w = true from h 0 (by omega))]
      have := ih (w := w + 1) (n := n) (by omega) fun k hk => by
        have := h (k + 1) (by omega)
        rwa [show w + (k + 1) = w + 1 + k from by omega] at this
      omega

/-- A load whose sectors that cover the first `length` bytes are read delivers these bytes. -/
theorem load_Cluster_covered {d : Drive} {s : FsState} (hl : StandardLayout s.fileSys) {c length : Nat}
    (hv : ValidCluster c) (hlen : length ≤ 2048)
    (hgood : ∀ n : Nat, 512 * n < length → d.good (s.waits + n) = true) :
    ∃ ok t, load_Cluster d s c = .ok (ok, t) ∧ t.fileSys = s.fileSys ∧ t.out = s.out ∧
      t.ClusterBuffer.read 0 length = (clusterData d.disk s.fileSys c).take length ∧
      (length = 2048 → t.waits = s.waits + 4) := by
  have hspc := hl.sectorsPerCluster_toNat
  have hcovered : (length + 511) / 512 ≤ goodSectors d s.waits 4 :=
    le_goodSectors (by omega) fun k hk => hgood k (by omega)
  have hle := goodSectors_le d s.waits 4
  refine ⟨_, _, load_Cluster_eq d s c hspc (by omega), rfl, rfl, ?_, fun hfull => ?_⟩
  · dsimp only
    rw [memcpyObj, Mem.read_copyFrom _ _ _ _ (by omega), clusterBase_valid hl hv, clusterData,
      Mem.take_read _ _ hlen]
  · dsimp only
    omega

/-- Printing from the `i`th cluster on, if the array has the clusters that the size
    reaches and the sectors that it covers are read. -/
theorem printFileLoop_read {d : Drive} (rounds : Nat) {cs : List Nat} {s : FsState}
    (hl : StandardLayout s.fileSys) (hv : ∀ c ∈ cs, ValidCluster c) {i : Int} {clusters : Mem Int}
    {size : Int} (hlow : 2048 * rounds ≤ size + 2147485696) (hhigh : size < 2147483648)
    (hknown : ∀ k : Nat, k < rounds → 2048 * k < size →
      (∀ hk : k < cs.length, clusters (i + k) = cs[k]) ∧
      (k = cs.length → clusters (i + k) = END_OF_CHAIN))
    (hgood : ∀ n : Nat, 512 * n < size → n < 4 * min rounds cs.length → d.good (s.waits + n) = true) :
    ∃ t, printFileLoop d clusters rounds i s size = .ok t ∧
      t.out = s.out ++ (chainData d.disk s.fileSys (cs.take rounds)).take size.toNat := by
  by_cases hsize : size ≤ 0
  · obtain ⟨t, hrun, hout⟩ := printFileLoop_done clusters rounds (i := i) hl.sectorsPerCluster hsize
      hlow
    exact ⟨t, hrun, by rw [hout, Int.toNat_of_nonpos hsize, List.take_zero, List.append_nil]⟩
  induction rounds generalizing cs s i size with
  | zero => exact ⟨s, rfl, by simp [chainData]⟩
  | succ rounds ih =>
    obtain ⟨hcluster, hmark⟩ := hknown 0 (by omega) (by omega)
    rw [Int.natCast_zero, Int.add_zero] at hcluster hmark
    rw [printFileLoop]
    cases cs with
    | nil =>
      rw [if_neg (not_not.mpr (hmark rfl))]
      exact ⟨s, rfl, by simp [chainData]⟩
    | cons c cs =>
      have hvc := hv c List.mem_cons_self
      have hhead : clusters i = c := hcluster (Nat.succ_pos _)
      have hdata : (clusterData d.disk s.fileSys c).length = 2048 := length_clusterData _ _ _
      rw [hhead, if_pos hvc.ne_END_OF_CHAIN, List.take_succ_cons]
      simp only [chainData, List.flatMap_cons]
      by_cases hfull : size > 2048
      · -- a full cluster, and more of the file behind it
        obtain ⟨ok, t, hload, hfs, hout, hread, hwaits⟩ := load_Cluster_covered hl hvc (Nat.le_refl 2048)
          fun n hn => hgood n (by omega) (by simp only [List.length_cons]; omega)
        rw [hload, ok_bind, if_pos hfull]
        dsimp only
        rw [show (2048 : Int).toNat = 2048 from rfl, hread, List.take_of_length_le (by omega),
          toInt_eq (by omega) (by omega)]
        have hwaits := hwaits rfl
        obtain ⟨u, hrun, hout'⟩ := @ih cs { t with out := t.out ++ clusterData d.disk s.fileSys c }
          (hfs ▸ hl) (fun c' hc' => hv c' (List.mem_cons_of_mem _ hc')) (i + 1) (size - 2048)
          (by push_cast at hlow; omega) (by omega)
          (fun k hk hsize => by
            obtain ⟨hcluster, hmark⟩ := hknown (k + 1) (by omega) (by push_cast; omega)
            rw [show i + 1 + (k : Int) = i + ((k + 1 : Nat) : Int) from by push_cast; omega]
            exact ⟨fun hk => hcluster (by simpa using hk), fun hk => hmark (by simpa using hk)⟩)
          (fun n hn hn' => by
            have := hgood (n + 4) (by push_cast; omega) (by simp only [List.length_cons]; omega)
            dsimp only
            rwa [hwaits, show s.waits + 4 + n = s.waits + (n + 4) from by omega])
          (by omega)
        refine ⟨u, hrun, ?_⟩
        rw [hout', hout, List.take_append, List.take_of_length_le (l := clusterData _ _ _) (by omega),
          List.append_assoc, hdata, show (size - 2048).toNat = size.toNat - 2048 from by omega]
        simp only [chainData, hfs]
      · -- the last printed cluster: what follows prints nothing
        obtain ⟨ok, t, hload, hfs, hout, hread, _⟩ := load_Cluster_covered hl hvc
          (show size.toNat ≤ 2048 by omega) fun n hn => hgood n (by omega) (by simp only [List.length_cons]; omega)
        rw [hload, ok_bind, if_neg hfull]
        dsimp only
        rw [hread, toInt_eq (by omega) (by omega)]
        obtain ⟨u, hrun, hout'⟩ := printFileLoop_done clusters rounds (i := i + 1)
          (s := { t with out := t.out ++ (clusterData d.disk s.fileSys c).take size.toNat })
          (by rw [hfs, hl.sectorsPerCluster]) (show size - 2048 ≤ 0 by omega) (by push_cast at hlow; omega)
        refine ⟨u, hrun, ?_⟩
        rw [hout', hout, List.take_append_of_le_length (by omega)]

/-! ## A negative counter -/

/-- The loads of some rounds of the loop, one after the other. -/
def loadRounds (d : Drive) (clusters : Mem Int) : Nat → Int → FsState → FsState
  | 0, _, s => s
  | rounds + 1, i, s =>
    match load_Cluster d s (clusters i) with
    | .ok (_, t) => loadRounds d clusters rounds (i + 1) t
    | .error _ => s

section Negative

variable {d : Drive} {clusters : Mem Int}

theorem loadRounds_succ {a : Nat} {i : Int} {s t : FsState} {ok : Bool}
    (h : load_Cluster d s (clusters i) = .ok (ok, t)) :
    loadRounds d clusters (a + 1) i s = loadRounds d clusters a (i + 1) t := by
  rw [loadRounds, h]

/-- Loads whose first reads fail change nothing. -/
theorem loadRounds_bad {a : Nat} {i : Int} {s : FsState} (h : s.fileSys.A_BF_BPB_SectorsPerCluster = 4)
    (hbad : ∀ n < a, d.good (s.waits + n) = false) :
    loadRounds d clusters a i s = { s with waits := s.waits + a } := by
  induction a generalizing i s with
  | zero => rfl
  | succ a ih =>
    rw [loadRounds_succ (load_Cluster_bad (clusters i) h (hbad 0 (Nat.succ_pos a))),
      @ih (i + 1) { s with waits := s.waits + 1 } h fun n hn => by
        have := hbad (n + 1) (by omega)
        dsimp only
        rwa [Nat.add_assoc, Nat.add_comm 1 n]]
    simp only [Nat.add_assoc, Nat.add_comm 1 a]

/-- A load always returns. -/
theorem load_Cluster_returns (s : FsState) (index : Int) (h : s.fileSys.A_BF_BPB_SectorsPerCluster = 4) :
    ∃ ok t, load_Cluster d s index = .ok (ok, t) ∧ t.fileSys = s.fileSys ∧ t.out = s.out :=
  ⟨_, _, load_Cluster_eq d s index (show _ = 4 from by rw [h]; rfl) (Nat.le_refl 4), rfl, rfl⟩

theorem loadRounds_frame {a : Nat} {i : Int} {s : FsState} (h : s.fileSys.A_BF_BPB_SectorsPerCluster = 4) :
    (loadRounds d clusters a i s).fileSys = s.fileSys ∧ (loadRounds d clusters a i s).out = s.out := by
  induction a generalizing i s with
  | zero => exact ⟨rfl, rfl⟩
  | succ a ih =>
    obtain ⟨ok, t, hload, hfs, hout⟩ := load_Cluster_returns (d := d) s (clusters i) h
    obtain ⟨hfs', hout'⟩ := @ih (i + 1) t (hfs ▸ h)
    rw [loadRounds_succ hload]
    exact ⟨hfs'.trans hfs, hout'.trans hout⟩

/-- Rounds with a negative counter load clusters and print nothing. -/
theorem printFileLoop_skips (a rounds : Nat) {i : Int} {s : FsState} (h : s.fileSys.A_BF_BPB_SectorsPerCluster = 4)
    {size : Int} (hlow : -2147483648 ≤ size) (hneg : size < 0) (ha : a ≤ overflowRound size)
    (hgo : ∀ k : Nat, k < a → clusters (i + k) ≠ END_OF_CHAIN) :
    printFileLoop d clusters (a + rounds) i s size =
      printFileLoop d clusters rounds (i + a) (loadRounds d clusters a i s) (toInt (size - 2048 * a)) := by
  induction a generalizing i s size with
  | zero => rw [Nat.zero_add, Int.natCast_zero, Int.add_zero, loadRounds, Int.mul_zero, Int.sub_zero,
      toInt_eq hlow (by omega)]
  | succ a ih =>
    have hhead := hgo 0 (Nat.succ_pos a)
    rw [Int.natCast_zero, Int.add_zero] at hhead
    obtain ⟨ok, t, hload, hfs, -⟩ := load_Cluster_returns (d := d) s (clusters i) h
    rw [show a + 1 + rounds = a + rounds + 1 from by omega, printFileLoop, if_pos hhead, hload, ok_bind,
      loadRounds_succ hload]
    dsimp only
    rw [if_neg (by omega), Int.toNat_of_nonpos (by omega), Mem.read_zero, List.append_nil]
    cases a with
    | zero =>
      rw [Nat.zero_add]
      rfl
    | succ a =>
      unfold overflowRound at ha
      rw [toInt_eq (by omega) (by omega), ih (hfs ▸ h) (by omega) (by omega) (by unfold overflowRound; omega)
        fun k hk => by
          rw [show i + 1 + (k : Int) = i + ((k + 1 : Nat) : Int) from by push_cast; omega]
          exact hgo (k + 1) (by omega)]
      rw [show i + 1 + ((a + 1 : Nat) : Int) = i + ((a + 1 + 1 : Nat) : Int) from by push_cast; omega,
        show size - 2048 - 2048 * ((a + 1 : Nat) : Int) = size - 2048 * ((a + 1 + 1 : Nat) : Int) from by push_cast; omega]

/-- Nothing is printed of a chain whose mark comes before the counter does. -/
theorem printFileLoop_skips_end {a : Nat} (rounds : Nat) {i : Int} {s : FsState}
    (h : s.fileSys.A_BF_BPB_SectorsPerCluster = 4) {size : Int} (hlow : -2147483648 ≤ size) (hneg : size < 0)
    (ha : a ≤ overflowRound size) (hend : ∃ k ≤ a, clusters (i + (k : Nat)) = END_OF_CHAIN) :
    ∃ t, printFileLoop d clusters (a + (rounds + 1)) i s size = .ok t ∧ t.out = s.out := by
  classical
  have hfirst := Nat.find_spec hend
  have hbefore : ∀ k < Nat.find hend, clusters (i + (k : Nat)) ≠ END_OF_CHAIN := fun k hk heq =>
    Nat.find_min hend hk ⟨by omega, heq⟩
  generalize Nat.find hend = k at hfirst hbefore
  rw [show a + (rounds + 1) = k + (a - k + rounds + 1) from by omega,
    printFileLoop_skips k _ h hlow hneg (by omega) hbefore, printFileLoop, if_neg (not_not.mpr hfirst.2)]
  exact ⟨_, rfl, (loadRounds_frame h).2⟩

/-- Where the counter comes back it is greater than any file the loop can print. -/
theorem toInt_overflowRound {size : Int} (hlow : -2147483648 ≤ size) (hneg : size < 0) :
    toInt (size - 2048 * overflowRound size) = size - 2048 * overflowRound size + 4294967296 := by
  unfold overflowRound
  rw [toInt, Int.bmod_def]
  omega

/-- If the first load is the last one that succeeds, no more than the first cluster is printed. -/
theorem printFileLoop_harmless {s : FsState} (hl : StandardLayout s.fileSys) {c : Nat} (hv : ValidCluster c)
    (hfirst : clusters 0 = c) {size : Int} (hlow : -2147483648 ≤ size) (hneg : size < 0)
    (hround : overflowRound size < 8) (hgood : ∀ n < 4, d.good (s.waits + n) = true)
    (hbad : ∀ n < overflowRound size, d.good (s.waits + 4 + n) = false)
    (hlast : overflowRound size = 7 ∨ clusters ((overflowRound size + 1 : Nat) : Int) = END_OF_CHAIN) :
    ∃ t l, printFileLoop d clusters 8 0 s size = .ok t ∧ t.out = s.out ++ l ∧ l <+: clusterData d.disk s.fileSys c := by
  have h4 := hl.sectorsPerCluster
  have hcounter := toInt_overflowRound hlow hneg
  have hpos : 0 < overflowRound size := by
    unfold overflowRound
    omega
  have hle : 2048 * (overflowRound size : Int) ≤ size + 2147485696 := by
    unfold overflowRound
    omega
  by_cases hend : ∃ k ≤ overflowRound size, clusters (0 + (k : Nat)) = END_OF_CHAIN
  · obtain ⟨t, hrun, hout⟩ := printFileLoop_skips_end (d := d) (7 - overflowRound size) h4 hlow hneg (Nat.le_refl _) hend
    rw [show overflowRound size + (7 - overflowRound size + 1) = 8 from by omega] at hrun
    exact ⟨t, [], hrun, by rw [hout, List.append_nil], List.nil_prefix⟩
  · -- the first load delivers the cluster, the others nothing
    have hgo : ∀ k : Nat, k ≤ overflowRound size → clusters (0 + (k : Nat)) ≠ END_OF_CHAIN := fun k hk heq => hend ⟨k, hk, heq⟩
    have hrun := printFileLoop_skips (d := d) (overflowRound size) (7 - overflowRound size + 1) h4 hlow hneg
      (Nat.le_refl _) fun k hk => hgo k (Nat.le_of_lt hk)
    generalize overflowRound size = round at *
    obtain ⟨round, rfl⟩ : ∃ k, round = k + 1 := ⟨round - 1, by omega⟩
    obtain ⟨ok, u, hload, hfs, hout, hread, hwaits⟩ := load_Cluster_covered (d := d) (s := s) hl hv (Nat.le_refl 2048)
      fun n hn => hgood n (by omega)
    have hwaits := hwaits rfl
    rw [← hfirst] at hload
    rw [← hfs] at h4
    rw [← hwaits] at hbad
    have hbuf : u.ClusterBuffer.read 0 2048 = clusterData d.disk s.fileSys c := by
      rw [hread, List.take_of_length_le (by rw [length_clusterData])]
    rw [loadRounds_succ hload, loadRounds_bad h4 fun n hn => hbad n (by omega), hcounter] at hrun
    -- the round that prints
    conv_rhs at hrun => rw [printFileLoop, if_pos (hgo (round + 1) (Nat.le_refl _)),
      load_Cluster_bad _ (by exact h4) (hbad round (Nat.lt_succ_self _)), ok_bind]
    dsimp only at hrun
    rw [if_pos (by omega), show (2048 : Int).toNat = 2048 from rfl, hbuf, hout,
      show round + 1 + (7 - (round + 1) + 1) = 8 from by omega] at hrun
    -- no round follows
    cases hrest : 7 - (round + 1) with
    | zero =>
      rw [hrest] at hrun
      conv_rhs at hrun => rw [printFileLoop]
      exact ⟨_, _, hrun, rfl, List.prefix_refl _⟩
    | succ rest =>
      have hmark : clusters (0 + ((round + 1 : Nat) : Int) + 1) = END_OF_CHAIN := by
        rw [Int.zero_add]
        exact hlast.resolve_left (by omega)
      rw [hrest] at hrun
      conv_rhs at hrun => rw [printFileLoop, if_neg (not_not.mpr hmark)]
      exact ⟨_, _, hrun, rfl, List.prefix_refl _⟩

end Negative

/-! ## Finding a file and printing it -/

/-- What is printed from the round on in which a negative counter comes back is no more than the file has:
    the chain is known to end in front of that round, or the buffer still has the first cluster then, all later
    loads having failed, and this is the last round. -/
inductive HarmlessRound (d : Drive) (w : Nat) (idx : Int) (cs : List Nat) (round : Nat) : Prop where
  | ends (hlen : cs.length ≤ round) (hfat : (fatWalk d w idx (cs.take 7)).1 = cs.length)
  | stale (hgood : ∀ n < 4, d.good (w + (fatWalk d w idx (cs.take 7)).2 + n) = true)
      (hbad : ∀ n < round, d.good (w + (fatWalk d w idx (cs.take 7)).2 + 4 + n) = false)
      (hlast : round = 7 ∨ cs.length = round + 1 ∧ (fatWalk d w idx (cs.take 7)).1 = cs.length)

/-- The reads that the printed bytes of a file depend on succeed, from the `w`th wait on
    with FAT sector `idx` in the cache: those of the FAT entries that lead to the clusters
    the size reaches, or to the end of the chain, and those of the sectors it covers. A
    negative size does not come back as a positive one, but for an accident. -/
structure NeededReads (d : Drive) (w : Nat) (idx : Int) (cs : List Nat) (size : Int) : Prop where
  fat : ∀ k : Nat, k < 8 → 2048 * k < size → k ≤ cs.length → k ≤ (fatWalk d w idx (cs.take 7)).1
  data : ∀ n : Nat, 512 * n < size → n < 4 * min 8 cs.length →
    d.good (w + (fatWalk d w idx (cs.take 7)).2 + n) = true
  negative : size < 0 → overflowRound size < 8 → HarmlessRound d w idx cs (overflowRound size)

/-- What a successful load of the directory leaves. -/
theorem loadFirst_loaded {d : Drive} {s t : FsState} (h : s.fileSys.A_BF_BPB_SectorsPerCluster = 4)
    (hload : loadFirst d s = .ok (true, t)) :
    t.waits = s.waits + (if s.dirClusterIndex = 0 then 0 else 4) ∧ t.FATSecIdx = s.FATSecIdx ∧
      t.out = s.out ∧ KeepsCache d s t := by
  have hspc : s.fileSys.A_BF_BPB_SectorsPerCluster.toNat = 4 := by rw [h]; rfl
  unfold loadFirst at hload
  by_cases hidx : s.dirClusterIndex = 0
  · rw [if_neg (not_not.mpr hidx)] at hload
    cases hload
    exact ⟨by rw [if_pos hidx, Nat.add_zero], rfl, rfl, .refl s⟩
  · rw [if_pos hidx] at hload
    have hcache := KeepsCache.load_Cluster hload
    rw [load_Cluster_eq d s _ hspc (by omega)] at hload
    obtain ⟨hall, rfl⟩ := Prod.mk.inj (Except.ok.inj hload)
    rw [decide_eq_true_eq] at hall
    refine ⟨?_, rfl, rfl, hcache⟩
    dsimp only
    rw [if_neg hidx]
    omega

/-- Whatever `findFile` and then, on its success, `printFile` print, given the first
    cluster of the file's chain: a prefix of the contents. -/
def PrintsPrefix (d : Drive) (s : FsState) (q contents : List UInt8) : Prop :=
  ∀ file, ∃ res file' t, findFile d s q file = .ok (res, file', t) ∧ (res = 0 →
    ∃ u l, printFile d t file' = .ok u ∧ u.out = s.out ++ l ∧ l <+: contents)

/-- The contents of a file: the bytes of its chain, up to its size. -/
def contents (disk : Bytes) (hdr : FAT32_HEADER) (cs : List Nat) (size : UInt32) : List UInt8 :=
  (chainData disk hdr cs).take size.toNat

/-- The bytes of eight clusters, up to the size the driver works with, begin the contents. -/
theorem take_chainData_prefix (disk : Bytes) (hdr : FAT32_HEADER) (cs : List Nat) (size : UInt32) :
    (chainData disk hdr (cs.take 8)).take (toInt size.toNat).toNat <+: contents disk hdr cs size := by
  have hchain : chainData disk hdr (cs.take 8) <+: chainData disk hdr cs := by
    conv_rhs => rw [← List.take_append_drop 8 cs]
    unfold chainData
    rw [List.flatMap_append]
    exact List.prefix_append _ _
  have hsize : (toInt size.toNat).toNat ≤ size.toNat := by
    by_cases hsmall : size.toNat < 2147483648
    · rw [toInt_eq (by omega) (by omega), Int.toNat_natCast]
    · have : toInt size.toNat ≤ (4294967296 - 1) / 2 := Int.bmod_le (by decide)
      omega
  refine List.prefix_take_iff.mpr ⟨(List.take_prefix _ _).trans hchain, ?_⟩
  exact (List.length_take_le _ _).trans hsize

/-- A file with a negative size has no fewer bytes than its first cluster. -/
theorem clusterData_prefix_contents (disk : Bytes) (hdr : FAT32_HEADER) (c : Nat) (cs : List Nat) {size : UInt32}
    (hneg : toInt size.toNat < 0) : clusterData disk hdr c <+: contents disk hdr (c :: cs) size := by
  have hbig : ¬ size.toNat < 2147483648 := fun hsmall => by
    rw [toInt_eq (by omega) (by omega)] at hneg
    omega
  rw [contents, chainData, List.flatMap_cons]
  exact List.prefix_take_iff.mpr ⟨List.prefix_append _ _, by rw [length_clusterData]; omega⟩

/-- The start cluster that `findFile` takes from a record. -/
def startCluster (hdr : FAT32_HEADER) (r : Bytes) : Int :=
  if recordCluster r = 0 then toInt hdr.A_BF_BPB_RootDirStrtClus.toNat else recordCluster r

/-- A search that ends at a record returns 0, whatever becomes of the walk: the clusters
    are those of the chain as far as its reads succeed. -/
theorem findFile_walk {d : Drive} {s t : FsState} (hl : StandardLayout t.fileSys) (hc : FatCached d t)
    {q : List UInt8} {off : Int} (hfind : findRecord d s q = .ok (some off, t)) {r : Bytes}
    (hr : subBuffer t.ClusterBuffer off = r) {c : Nat} {cs : List Nat}
    (hstart : startCluster t.fileSys r = c) (hchain : FatChain d.disk t.fileSys (c :: cs)) (file : File) :
    ∃ file' u, findFile d s q file = .ok (0, file', u) ∧ FatFrame t u ∧
      u.waits = t.waits + (fatWalk d t.waits t.FATSecIdx ((c :: cs).take 7)).2 ∧
      file'.size = toInt (readDD r 0x1C).toNat ∧
      (∀ k : Nat, (fatWalk d t.waits t.FATSecIdx ((c :: cs).take 7)).1 < k →
        file'.clusters k = file.clusters k) ∧
      ∀ k : Nat, k ≤ (fatWalk d t.waits t.FATSecIdx ((c :: cs).take 7)).1 →
        (∀ hk : k < (c :: cs).length, file'.clusters k = (c :: cs)[k]) ∧
        (k = (c :: cs).length → file'.clusters k = END_OF_CHAIN) := by
  obtain ⟨ok, clusters', u, hwalk, hframe, hreads, hkeep, hlists⟩ := @traverseFATLoop_walk d (c :: cs) t hl hc
    hchain 7 1 (file.clusters.set 0 (c : Int)) (by
      intro c' hc'
      cases hc'
      exact Mem.set_same _ _ _)
  refine ⟨⟨if attrib r &&& 0x10 ≠ 0 then FTYPE_DIRECTORY else FTYPE_FILE,
    toInt (readDD r 0x1C).toNat, clusters'⟩, u, ?_, hframe, hreads, by dsimp only, fun k hk => ?_, fun k hk => ?_⟩
  · unfold startCluster at hstart
    rw [findFile, hfind, ok_bind]
    dsimp only
    rw [hr, fillFile]
    dsimp only
    rw [hstart, traverseFAT, hwalk]
    rfl
  · exact (hkeep k (by omega)).trans (Mem.set_other _ _ (by omega))
  · have := hlists k hk
    rwa [Int.sub_self, Int.zero_add] at this

/-- From the state after a search on: what is printed is a prefix of the file's contents,
    if the reads that the printed bytes depend on succeed. -/
theorem NeededReads.printsPrefix {d : Drive} {s t : FsState} (hl : StandardLayout t.fileSys)
    (hc : FatCached d t) (hout : t.out = s.out) {q : List UInt8} {off : Int}
    (hfind : findRecord d s q = .ok (some off, t)) {c : Nat} {cs : List Nat}
    (hstart : startCluster t.fileSys (subBuffer t.ClusterBuffer off) = c)
    (hchain : FatChain d.disk t.fileSys (c :: cs))
    (hneeded : NeededReads d t.waits t.FATSecIdx (c :: cs)
      (toInt (readDD (subBuffer t.ClusterBuffer off) 0x1C).toNat)) :
    PrintsPrefix d s q (contents d.disk t.fileSys (c :: cs)
      (readDD (subBuffer t.ClusterBuffer off) 0x1C)) := by
  generalize hr : subBuffer t.ClusterBuffer off = r at *
  intro file
  obtain ⟨file', u, hfound, hframe, hreads, hsize, _, hlists⟩ :=
    findFile_walk hl hc hfind hr hstart hchain file
  have hprefix := take_chainData_prefix d.disk t.fileSys (c :: cs) (readDD r 0x1C)
  have hrange : -2147483648 ≤ file'.size ∧ file'.size < 2147483648 := hsize ▸ toInt_range _
  rw [← hsize] at hprefix hneeded
  have hfsu : u.fileSys = t.fileSys := by rw [hframe.eq]
  have hout' : u.out = s.out := by rw [hframe.eq, hout]
  refine ⟨0, file', u, hfound, fun _ => ?_⟩
  by_cases hcomes : file'.size < 0 ∧ overflowRound file'.size < 8
  · -- the counter comes back
    cases hneeded.negative hcomes.1 hcomes.2 with
    | ends hlen hfat =>
      have hmark := (hlists _ (Nat.le_of_eq hfat.symm)).2 rfl
      rw [← Int.zero_add (((c :: cs).length : Nat) : Int)] at hmark
      obtain ⟨v, hprint, houtv⟩ := printFileLoop_skips_end (d := d) (s := { u with dirClusterIndex := -1 })
        (7 - overflowRound file'.size) (hfsu ▸ hl.sectorsPerCluster) hrange.1 hcomes.1 (Nat.le_refl _) ⟨_, hlen, hmark⟩
      rw [show overflowRound file'.size + (7 - overflowRound file'.size + 1) = 8 from by omega] at hprint
      exact ⟨v, [], hprint, by rw [houtv, List.append_nil]; exact hout', List.nil_prefix⟩
    | stale hgood hbad hlast =>
      rw [← hreads] at hgood hbad
      have hfirst := (hlists 0 (Nat.zero_le _)).1 (Nat.succ_pos _)
      obtain ⟨v, l, hprint, houtv, hl'⟩ := printFileLoop_harmless (s := { u with dirClusterIndex := -1 })
        (hfsu ▸ hl) (hchain.valid c List.mem_cons_self) hfirst hrange.1 hcomes.1 hcomes.2 hgood hbad
        (hlast.imp_right fun ⟨hlen, hfat⟩ => (hlists _ (by omega)).2 hlen.symm)
      refine ⟨v, l, hprint, by rw [houtv, ← hout'], ?_⟩
      dsimp only at hl'
      rw [hfsu] at hl'
      exact hl'.trans (clusterData_prefix_contents _ _ _ _ (hsize ▸ hcomes.1))
  · obtain ⟨v, hprint, houtv⟩ := @printFileLoop_read d 8 (c :: cs) { u with dirClusterIndex := -1 }
      (hfsu ▸ hl) hchain.valid 0 file'.clusters file'.size (by unfold overflowRound at hcomes; omega) hrange.2
      (fun k hk hsize => by
        rw [Int.zero_add]
        exact ⟨fun hlen => (hlists k (hneeded.fat k hk hsize (Nat.le_of_lt hlen))).1 hlen,
          fun hlen => (hlists k (hneeded.fat k hk hsize (Nat.le_of_eq hlen))).2 hlen⟩)
      (fun n hn hlen => by
        have := hneeded.data n hn hlen
        rwa [← hreads] at this)
    refine ⟨v, _, hprint, houtv.trans ?_, hprefix⟩
    simp only [hout', hfsu]

/-- What is printed of a file is a prefix of its contents, if the reads that the printed
    bytes depend on succeed. Only the load of the directory is looked after by the code. -/
theorem findFile_printFile_prefix {d : Drive} {s t : FsState} (hreach : Reachable d s)
    (hl : StandardLayout s.fileSys) {q : List UInt8} {off : Int}
    (hfind : findRecord d s q = .ok (some off, t)) {c : Nat} {cs : List Nat}
    (hstart : startCluster s.fileSys (subBuffer t.ClusterBuffer off) = c)
    (hchain : FatChain d.disk s.fileSys (c :: cs))
    (hneeded : NeededReads d (s.waits + if s.dirClusterIndex = 0 then 0 else 4) s.FATSecIdx (c :: cs)
      (toInt (readDD (subBuffer t.ClusterBuffer off) 0x1C).toNat)) :
    PrintsPrefix d s q (contents d.disk s.fileSys (c :: cs)
      (readDD (subBuffer t.ClusterBuffer off) 0x1C)) := by
  have hload := findRecord_found ⟨hl.sectorsPerCluster, hl.bytesPerSector⟩ hfind
  obtain ⟨hwaits, hidx, hout, hkeeps⟩ := loadFirst_loaded hl.sectorsPerCluster hload
  rw [← hwaits, ← hidx] at hneeded
  have hfs := hkeeps.fileSys
  rw [← hfs] at hl hstart hchain ⊢
  exact hneeded.printsPrefix hl (hkeeps.cache hreach.cacheOk).fatCached hout hfind hstart hchain

/-! ## A drive without errors -/

/-- A volume with the small directory as its root, whose file holds the letter `B` over
    and over. -/
def letterVolume : Bytes :=
  volume (fun _ => 0x0FFFFFFF) fun c => if c = 2 then ofString letterRecords else fun _ => 66

/-- The small directory is loaded with the file system. -/
theorem letterVolume_loads : ∃ s, loadFileSystem (healthyDrive letterVolume) .boot = some (.ok (true, s)) ∧
    s.fileSys = defaultHeader ∧ s.dirClusterIndex = 0 ∧
    DirectoryLoads (healthyDrive letterVolume) s s [.deleted, .live letterFile] ∧
    FatChain letterVolume s.fileSys [3] := by
  obtain ⟨s, hload, hboot, hhdr⟩ := @loadFileSystem_healthy (fun _ => 0x0FFFFFFF)
    (fun c => if c = 2 then ofString letterRecords else fun _ => 66) []
    ⟨two_valid, fatNext_volume _ _ (by omega) (by omega)⟩ (by decide)
  have hbuf := fun i : Nat => @Booted.ClusterBuffer_volume _ _ _ _ hboot hhdr i
  have hcount : recordCount [.deleted, .live letterFile] = 3 := by decide
  refine ⟨s, hload, hhdr, hboot.dirClusterIndex, ⟨?_, ?_, ?_, ?_⟩, ?_⟩
  · rw [loadFirst, if_neg (not_not.mpr hboot.dirClusterIndex)]
  · refine letterRecords_holds.congr fun i hi hi' => ?_
    rw [hcount] at hi'
    obtain ⟨n, rfl⟩ := Int.eq_ofNat_of_zero_le hi
    exact hbuf n (by omega)
  · rw [hhdr]
    decide
  · rw [hhdr]
    decide
  · rw [hhdr]
    refine ⟨by unfold ValidCluster dataClusters; omega, ?_⟩
    rw [letterVolume, fatNext_volume _ _ (by omega) (by omega)]

/-! ## A drive that breaks -/

/-- The first read succeeds, all later ones fail. The file with start cluster 3 holds
    the letter `B` over and over. -/
def breakingDrive : Drive where
  disk := volume (fun _ => 0x0FFFFFFF) fun _ _ => 66
  wait := fun n => if n = 0 then .good else .bad

theorem breakingDrive_good (n : Nat) : breakingDrive.good n = decide (n = 0) := by
  rw [Drive.good, Drive.status_eq]
  show noError (if n = 0 then _ else _ : Wait).ready = _
  split
  · rename_i h
    rw [decide_eq_true h]
    decide
  · rename_i h
    rw [decide_eq_false h]
    decide

/-- The failed load of the file's cluster leaves the directory in the buffer, and its
    first three bytes are printed as the contents of the file. -/
theorem findFile_printFile_stale :
    FatChain breakingDrive.disk (withDirectory letterRecords).fileSys [3] ∧
    ¬ PrintsPrefix breakingDrive (withDirectory letterRecords) [97]
      (contents breakingDrive.disk (withDirectory letterRecords).fileSys [3] 3) := by
  have hloads : DirectoryLoads breakingDrive (withDirectory letterRecords)
      (withDirectory letterRecords) [.deleted, .live letterFile] :=
    ⟨rfl, letterRecords_holds, by decide, by decide⟩
  have hdisk : breakingDrive.disk = volume (fun _ => 0x0FFFFFFF) fun _ _ => 66 := rfl
  have hhdr : (withDirectory letterRecords).fileSys = defaultHeader := rfl
  have hchain : FatChain breakingDrive.disk (withDirectory letterRecords).fileSys [3] := by
    refine ⟨by unfold ValidCluster dataClusters; omega, ?_⟩
    rw [hdisk, hhdr, fatNext_volume _ _ (by omega) (by omega)]
  refine ⟨hchain, fun hprints => ?_⟩
  have hfind := findRecord_answers hloads (List.pairwise_singleton _ _) (k := 2) (f := letterFile)
    (List.mem_singleton.mpr rfl) (q := [97]) (by decide) (by decide) (by decide)
  obtain ⟨file', u, hfound, hframe, hreads, hsize, _, hlists⟩ := findFile_walk defaultHeader_layout
    (fun _ _ hidx => absurd hidx (by show ¬ (-1 : Int) = _; omega)) hfind rfl (c := 3) (by decide) hchain {}
  -- one entry is read, with the one good read
  have hwalk : fatWalk breakingDrive 0 (-1) [3] = (1, 1) := by
    simp [fatWalk, breakingDrive_good]
  have hwalk' : fatWalk breakingDrive (withDirectory letterRecords).waits
      (withDirectory letterRecords).FATSecIdx (([3] : List Nat).take 7) = (1, 1) := hwalk
  rw [hwalk'] at hreads hlists
  have hfirst : file'.clusters (0 : Nat) = (3 : Nat) := (hlists 0 (by omega)).1 (by decide)
  have hmark : file'.clusters (1 : Nat) = END_OF_CHAIN := (hlists 1 (by omega)).2 rfl
  have hsize3 : file'.size = 3 := hsize.trans (by decide)
  have hbuf : u.ClusterBuffer = ofString letterRecords := by rw [hframe.eq]; rfl
  have hout : u.out = [] := by rw [hframe.eq]; rfl
  have hspc : u.fileSys.A_BF_BPB_SectorsPerCluster = 4 := by rw [hframe.eq]; rfl
  have hbad : breakingDrive.good u.waits = false := by
    rw [hreads, breakingDrive_good]
    rfl
  -- the failed load changes neither the buffer nor what is printed
  have hload := load_Cluster_bad (s := { u with dirClusterIndex := -1 }) (3 : Nat) hspc hbad
  obtain ⟨res, file'', u', hrun, hprint⟩ := hprints {}
  rw [hfound] at hrun
  cases hrun
  obtain ⟨v, l, hprint, houtv, hprefix⟩ := hprint rfl
  have hstale : v.out = [0xE5, 0, 0] := by
    rw [printFile, printFileLoop, show (0 : Int) = (0 : Nat) from rfl, hfirst, if_pos (by decide), hload,
      ok_bind] at hprint
    dsimp only at hprint
    rw [hsize3, if_neg (by decide), printFileLoop, show (((0 : Nat) : Int) + 1) = (1 : Nat) from rfl,
      hmark, if_neg (by decide)] at hprint
    obtain rfl := Except.ok.inj hprint
    dsimp only
    rw [hout, hbuf]
    decide
  rw [houtv] at hstale
  have hl : l = [0xE5, 0, 0] := hstale
  have hcontents : contents breakingDrive.disk (withDirectory letterRecords).fileSys [3] 3 =
      [66, 66, 66] := by
    rw [contents, chainData, List.flatMap_cons, List.flatMap_nil, List.append_nil, hdisk, hhdr,
      clusterData_volume _ _ (by omega)]
    exact Mem.take_read (fun _ => (66 : UInt8)) 0 (n := 2048) (k := 3) (by omega)
  rw [hl, hcontents] at hprefix
  exact absurd hprefix (by decide)

end SoreOS
