import SoreOS.Spec.NeededReads

/-!
# Negative sizes

A size from 2 GiB on is negative to the driver, and nothing is printed until the counter
of `printFile` comes back as a positive number. The clusters from there on are printed in
full, or what is in the buffer in their place.

## Key results

- `loadRounds_byte`: what the loads of the rounds before leave in the buffer
- `exists_not_printsPrefix_negative`: contents for which it shows
- `findFile_printFile_exact`: the reads that are needed, and no others
-/

namespace SoreOS

open ForStd

/-! ## The rounds before -/

section Rounds

variable {d : Drive} {clusters : Mem Int}

theorem overflowRound_pos {size : Int} (hlow : -2147483648 ≤ size) : 0 < overflowRound size := by
  unfold overflowRound
  omega

/-- The last of some loads. -/
theorem loadRounds_last {a : Nat} {i : Int} {s t : FsState} (h : s.fileSys.A_BF_BPB_SectorsPerCluster = 4) {ok : Bool}
    (hload : load_Cluster d (loadRounds d clusters a i s) (clusters (i + a)) = .ok (ok, t)) :
    t = loadRounds d clusters (a + 1) i s := by
  induction a generalizing i s with
  | zero =>
    rw [Int.natCast_zero, Int.add_zero, loadRounds] at hload
    rw [loadRounds_succ hload]
    rfl
  | succ a ih =>
    obtain ⟨ok', u, hfirst, hfs, -⟩ := load_Cluster_returns (d := d) s (clusters i) h
    rw [loadRounds_succ hfirst, show i + ((a + 1 : Nat) : Int) = i + 1 + a from by push_cast; omega] at hload
    rw [loadRounds_succ hfirst]
    exact ih (hfs ▸ h) hload

/-- Loads of clusters that begin with the same byte leave it in the buffer, if one of them reads its first
    sector. -/
theorem loadRounds_byte {v : UInt8} {a : Nat} {i : Int} {s : FsState} (hl : StandardLayout s.fileSys)
    (hslots : ∀ k < a, ∃ y : Nat, ValidCluster y ∧ clusters (i + (k : Nat)) = y ∧
      d.disk ((s.fileSys.LBA_Cluster_Location.toNat + ((y : Int) - 2) * 4) * 512) = v)
    (hread : s.ClusterBuffer 0 = v ∨ ∃ n < a, d.good (s.waits + n) = true) :
    (loadRounds d clusters a i s).ClusterBuffer 0 = v := by
  induction a generalizing i s with
  | zero =>
    obtain h | ⟨n, hn, -⟩ := hread
    · exact h
    · exact absurd hn (Nat.not_lt_zero n)
  | succ a ih =>
    obtain ⟨y, hv, hy, hbyte⟩ := hslots 0 (Nat.succ_pos a)
    rw [Int.natCast_zero, Int.add_zero] at hy
    obtain ⟨ok, t, hload, hfs, -⟩ := load_Cluster_returns (d := d) s (clusters i) hl.sectorsPerCluster
    rw [loadRounds_succ hload]
    refine ih (hfs ▸ hl) (fun k hk => ?_) ?_
    · rw [hfs, show i + 1 + (k : Int) = i + ((k + 1 : Nat) : Int) from by push_cast; omega]
      exact hslots (k + 1) (by omega)
    · cases hgood : d.good s.waits with
      | true =>
        -- this load brings the byte
        have hpos : 0 < goodSectors d s.waits 4 := by
          rw [goodSectors, if_pos hgood]
          exact Nat.succ_pos _
        have := load_Cluster_byte hl hv (hy ▸ hload) 0
        rw [if_pos (by omega), Int.natCast_zero, Int.add_zero, hbyte] at this
        exact .inl this
      | false =>
        rw [load_Cluster_bad _ hl.sectorsPerCluster hgood] at hload
        obtain rfl := (Prod.mk.inj (Except.ok.inj hload)).2
        obtain hv | ⟨n, hn, hgood'⟩ := hread
        · exact .inl hv
        · cases n with
          | zero =>
            rw [Nat.add_zero, hgood] at hgood'
            cases hgood'
          | succ n => exact .inr ⟨n, by omega, by rwa [Nat.add_assoc, Nat.add_comm 1 n]⟩

/-- The round in which the counter comes back prints what the loads have left in the buffer. -/
theorem printFileLoop_comesBack {s : FsState} (h : s.fileSys.A_BF_BPB_SectorsPerCluster = 4) {size : Int}
    (hlow : -2147483648 ≤ size) (hneg : size < 0) (hround : overflowRound size < 8)
    (hgo : ∀ k : Nat, k ≤ overflowRound size → clusters (0 + (k : Nat)) ≠ END_OF_CHAIN) {p : Nat} (hp : p < 2048) {v : UInt8}
    (hbyte : (loadRounds d clusters (overflowRound size + 1) 0 s).ClusterBuffer p = v) :
    ∃ t l, printFileLoop d clusters 8 0 s size = .ok t ∧ t.out = s.out ++ l ∧ l[p]? = some v := by
  have hrun := printFileLoop_skips (d := d) (overflowRound size) (7 - overflowRound size + 1) h hlow hneg (Nat.le_refl _)
    fun k hk => hgo k (Nat.le_of_lt hk)
  rw [show overflowRound size + (7 - overflowRound size + 1) = 8 from by omega] at hrun
  obtain ⟨hfs, hout⟩ := @loadRounds_frame d clusters (overflowRound size) 0 s h
  have hle : 2048 * (overflowRound size : Int) ≤ size + 2147485696 := by
    unfold overflowRound
    omega
  obtain ⟨t, l, hstale, houtt, hl⟩ := @printFileLoop_stale d (7 - overflowRound size) (0 + (overflowRound size : Nat))
    (loadRounds d clusters (overflowRound size) 0 s) clusters (toInt (size - 2048 * overflowRound size)) (hfs ▸ h)
    (hgo _ (Nat.le_refl _)) p hp (by rw [toInt_overflowRound hlow hneg]; omega) v fun ok t hload => by
      rw [loadRounds_last h hload]
      exact hbyte
  exact ⟨t, l, hrun.trans hstale, by rw [houtt, hout], hl⟩

/-- The round after that prints what is in the buffer then, behind a whole cluster. -/
theorem printFileLoop_goesOn {s : FsState} (hl : StandardLayout s.fileSys) {size : Int}
    (hlow : -2147483648 ≤ size) (hneg : size < 0) (hround : overflowRound size < 7)
    (hgo : ∀ k : Nat, k ≤ overflowRound size + 1 → clusters (0 + (k : Nat)) ≠ END_OF_CHAIN) {v : UInt8}
    (hbyte : (loadRounds d clusters (overflowRound size + 1) 0 s).ClusterBuffer 0 = v) {y : Nat} (hv : ValidCluster y)
    (hy : clusters (0 + (overflowRound size + 1 : Nat)) = y)
    (hdisk : d.disk ((s.fileSys.LBA_Cluster_Location.toNat + ((y : Int) - 2) * 4) * 512) = v) :
    ∃ t l, printFileLoop d clusters 8 0 s size = .ok t ∧ t.out = s.out ++ l ∧ l[2048]? = some v := by
  have h := hl.sectorsPerCluster
  have hrun := printFileLoop_skips (d := d) (overflowRound size) (6 - overflowRound size + 1 + 1) h hlow hneg (Nat.le_refl _)
    fun k hk => hgo k (by omega)
  obtain ⟨hfs, hout⟩ := @loadRounds_frame d clusters (overflowRound size) 0 s h
  have hle : 2048 * (overflowRound size : Int) ≤ size + 2147485696 ∧ size + 2147483648 < 2048 * (overflowRound size : Int) := by
    unfold overflowRound
    omega
  obtain ⟨ok, t, hload, hfst, houtt⟩ := load_Cluster_returns (d := d) (loadRounds d clusters (overflowRound size) 0 s)
    (clusters (0 + (overflowRound size : Nat))) (hfs ▸ h)
  have hlast := loadRounds_last h hload
  have hcounter := toInt_overflowRound hlow hneg
  conv_rhs at hrun => rw [printFileLoop, if_pos (hgo _ (by omega)), hload, ok_bind, hcounter]
  dsimp only at hrun
  rw [if_pos (by omega), toInt_eq (by omega) (by omega), houtt, hout, show (2048 : Int).toNat = 2048 from rfl,
    show overflowRound size + (6 - overflowRound size + 1 + 1) = 8 from by omega,
    show (0 + (overflowRound size : Int) + 1) = 0 + ((overflowRound size + 1 : Nat) : Int) from by push_cast; omega] at hrun
  obtain ⟨u, l, hstale, houtu, hl'⟩ := @printFileLoop_stale d (6 - overflowRound size) (0 + ((overflowRound size + 1 : Nat) : Int))
    { t with out := s.out ++ t.ClusterBuffer.read 0 2048 } clusters (size - 2048 * overflowRound size + 4294967296 - 2048)
    (by rw [hfst, hfs, h]) (hgo _ (Nat.le_refl _)) 0 (by omega) (by omega) v fun ok u hload' => by
      have hfs' : t.fileSys = s.fileSys := hfst.trans hfs
      have := load_Cluster_byte (by exact hfs' ▸ hl) hv (hy ▸ hload') 0
      dsimp only at this
      rw [this, Int.natCast_zero, Int.add_zero, hfs', hdisk, hlast, hbyte, ite_self]
  refine ⟨u, t.ClusterBuffer.read 0 2048 ++ l, hrun.trans hstale, by rw [houtu, List.append_assoc], ?_⟩
  rw [List.getElem?_append_right (by rw [Mem.length_read]), Mem.length_read, Nat.sub_self, hl']

end Rounds

/-! ## Contents that show it -/

theorem good_of_goodSectors {d : Drive} {w sectors : Nat} (h : goodSectors d w sectors = sectors) :
    ∀ n < sectors, d.good (w + n) = true := by
  intro n hn
  cases hbad : d.good (w + n) with
  | true => rfl
  | false =>
    have := goodSectors_le_bad hn hbad
    omega

theorem fatWalk_le (d : Drive) (w : Nat) (idx : Int) (cs : List Nat) : (fatWalk d w idx cs).1 ≤ cs.length := by
  induction cs generalizing w idx with
  | nil => exact Nat.le_refl 0
  | cons c cs ih =>
    rw [fatWalk]
    split
    · exact Nat.succ_le_succ (ih _ _)
    · split
      · exact Nat.succ_le_succ (ih _ _)
      · exact Nat.zero_le _

/-- A byte of the first cluster. -/
theorem getElem?_chainData_head {d : Drive} {hdr : FAT32_HEADER} {c : Nat} {cs : List Nat}
    (hv : ∀ k ∈ c :: cs, ValidCluster k) (data : Nat → Bytes) {p : Nat} (hp : p < 2048) :
    (chainData (d.refill hdr (c :: cs) data).disk hdr (c :: cs))[p]? = some (data c p) := by
  have := @getElem?_chainData_refill d hdr _ hv data 0 p hp
  rwa [Nat.mul_zero, Nat.zero_add, List.getElem?_cons_zero, Option.map_some] at this

theorem add_one_ne (v : UInt8) : v + 1 ≠ v := by
  intro h
  simp at h

section First

variable {d : Drive} {t : FsState} {c : Nat} {cs : List Nat} (hl : StandardLayout t.fileSys)
  (hchain : FatChain d.disk t.fileSys (c :: cs)) {w : Nat} {u : FsState} {clusters : Mem Int} (data : Nat → Bytes)
  (hfs : u.fileSys = t.fileSys) (hbuf : u.ClusterBuffer = t.ClusterBuffer) (hwaits : u.waits = w)
  (hfirst : clusters 0 = (c : Nat))
include hl hchain hfs hbuf hwaits hfirst

/-- The load of the first cluster, with other contents: what it does not read is left of the directory. -/
theorem load_first :
    ∃ ok u', load_Cluster (d.refill t.fileSys (c :: cs) data) u (clusters 0) = .ok (ok, u') ∧
      u'.fileSys = t.fileSys ∧ u'.waits = w + min (goodSectors d w 4 + 1) 4 ∧
      ∀ p : Nat, u'.ClusterBuffer p = if p < 512 * goodSectors d w 4 then data c p else t.ClusterBuffer p := by
  have hvc := hchain.valid c List.mem_cons_self
  have hload := load_Cluster_eq (d.refill t.fileSys (c :: cs) data) u (clusters 0)
    (show _ = 4 from by rw [hfs]; exact hl.sectorsPerCluster_toNat) (Nat.le_refl 4)
  refine ⟨_, _, hload, hfs, by dsimp only; rw [goodSectors_refill, hwaits], fun p => ?_⟩
  rw [hfirst] at hload ⊢
  rw [load_Cluster_byte (hfs ▸ hl) hvc hload p, goodSectors_refill, hwaits, hbuf, hfs, Drive.refill_disk]
  have hle := goodSectors_le d w 4
  by_cases hp : p < 512 * goodSectors d w 4
  · rw [if_pos hp, if_pos hp, refill_cluster List.mem_cons_self hvc (by omega)]
  · rw [if_neg hp, if_neg hp]

/-- The buffer after the load of the first cluster and failing loads behind it. -/
theorem loadRounds_first {k : Nat} (hbad : ∀ n < k, d.good (w + min (goodSectors d w 4 + 1) 4 + n) = false) (p : Nat) :
    (loadRounds (d.refill t.fileSys (c :: cs) data) clusters (k + 1) 0 u).ClusterBuffer p =
      if p < 512 * goodSectors d w 4 then data c p else t.ClusterBuffer p := by
  obtain ⟨ok, u', hload, hfs', hwaits', hbuf'⟩ := load_first hl hchain data hfs hbuf hwaits hfirst
  rw [loadRounds_succ hload, loadRounds_bad (hfs' ▸ hl.sectorsPerCluster) fun n hn => by
    rw [hwaits']
    exact hbad n hn]
  exact hbuf' p

end First

section Exact

variable {d : Drive} {s t : FsState} {q : List UInt8} {off : Int} {c : Nat} {cs : List Nat}
  (hl : StandardLayout t.fileSys) (hc : FatCached d t) (hout : t.out = s.out)
  (hfind : ∀ data, findRecord (d.refill t.fileSys (c :: cs) data) s q = .ok (some off, t))
  (hstart : startCluster t.fileSys (subBuffer t.ClusterBuffer off) = c)
  (hchain : FatChain d.disk t.fileSys (c :: cs))

include hl hc hfind hstart hchain

/-- What is found with other contents and a cluster `x` in the file structure: `x` is in the places that the walk
    does not come to. -/
theorem findFile_refill (data : Nat → Bytes) {x : Nat} (hx : ValidCluster x) :
    ∃ file' u, findFile (d.refill t.fileSys (c :: cs) data) s q { clusters := fun _ => x } = .ok (0, file', u) ∧
      FatFrame t u ∧ u.waits = t.waits + (fatWalk d t.waits t.FATSecIdx ((c :: cs).take 7)).2 ∧
      file'.size = toInt (readDD (subBuffer t.ClusterBuffer off) 0x1C).toNat ∧ file'.clusters 0 = (c : Nat) ∧
      ∀ k : Nat, ¬ ((c :: cs).length ≤ k ∧
          (fatWalk d t.waits t.FATSecIdx ((c :: cs).take 7)).1 = (c :: cs).length) →
        ∃ y, ValidCluster y ∧ ((c :: cs)[k]? = some y ∨ y = x) ∧ file'.clusters k = (y : Nat) := by
  obtain ⟨file', u, hfound, hframe, hreads, hsize, hgarbage, hlists⟩ := findFile_walk hl (hc.refill data hl)
    (hfind data) rfl hstart (by rw [Drive.refill_disk]; exact hchain.refill hl) { clusters := fun _ => x }
  rw [fatWalk_refill] at hreads hgarbage hlists
  have hle := fatWalk_le d t.waits t.FATSecIdx ((c :: cs).take 7)
  rw [List.length_take] at hle
  refine ⟨file', u, hfound, hframe, hreads, hsize, (hlists 0 (Nat.zero_le _)).1 (Nat.succ_pos _), fun k hk => ?_⟩
  by_cases hreached : k ≤ (fatWalk d t.waits t.FATSecIdx ((c :: cs).take 7)).1
  · have hlt : k < (c :: cs).length := by omega
    exact ⟨_, hchain.valid _ (List.getElem_mem hlt), .inl (List.getElem?_eq_getElem hlt), (hlists k hreached).1 hlt⟩
  · exact ⟨x, hx, .inr rfl, hgarbage k (by omega)⟩

include hout

/-- A byte in the buffer, when the counter comes back, that is not the file's. The clusters behind the first one are
    those of the chain or the garbage `x`. -/
theorem not_printsPrefix_comesBack {size : UInt32} (hsize : readDD (subBuffer t.ClusterBuffer off) 0x1C = size)
    (hneg : toInt size.toNat < 0) {k : Nat} (hk : overflowRound (toInt size.toNat) = k) (hround : k < 8)
    (hends : ¬ ((c :: cs).length ≤ k ∧ (fatWalk d t.waits t.FATSecIdx ((c :: cs).take 7)).1 = (c :: cs).length))
    {data : Nat → Bytes} {x p : Nat} (hx : ValidCluster x) (hp : p < 2048) {v : UInt8}
    (hbyte : ∀ (clusters : Mem Int) (u : FsState), u.fileSys = t.fileSys → u.ClusterBuffer = t.ClusterBuffer →
      u.waits = t.waits + (fatWalk d t.waits t.FATSecIdx ((c :: cs).take 7)).2 → clusters 0 = (c : Nat) →
      (∀ j < k, ∃ y : Nat, (y ∈ cs ∨ y = x) ∧ clusters (1 + (j : Nat)) = y) →
      (loadRounds (d.refill t.fileSys (c :: cs) data) clusters (k + 1) 0 u).ClusterBuffer p = v)
    (hcontents : (chainData (d.refill t.fileSys (c :: cs) data).disk t.fileSys (c :: cs))[p]? ≠ some v) :
    ¬ PrintsPrefix (d.refill t.fileSys (c :: cs) data) s q
      (contents (d.refill t.fileSys (c :: cs) data).disk t.fileSys (c :: cs) size) := by
  obtain ⟨file', u, hfound, hframe, hreads, hfsize, hfirst, hslots⟩ :=
    findFile_refill hl hc hfind hstart hchain data hx
  rw [hsize] at hfsize
  have hfs : u.fileSys = t.fileSys := by rw [hframe.eq]
  have hlater : ∀ j < k, ∃ y : Nat, (y ∈ cs ∨ y = x) ∧ file'.clusters (1 + (j : Nat)) = y := by
    intro j hj
    obtain ⟨y, -, hy, hslot⟩ := hslots (j + 1) fun ⟨hlen, hfat⟩ => hends ⟨by omega, hfat⟩
    rw [Int.natCast_succ, Int.add_comm (j : Int)] at hslot
    exact ⟨y, hy.imp_left fun hy => List.mem_of_getElem? (l := cs) hy, hslot⟩
  have hgo : ∀ j : Nat, j ≤ overflowRound file'.size → file'.clusters (0 + (j : Nat)) ≠ END_OF_CHAIN := by
    intro j hj
    rw [hfsize, hk] at hj
    obtain ⟨y, hy, -, hslot⟩ := hslots j fun ⟨hlen, hfat⟩ => hends ⟨by omega, hfat⟩
    rw [Int.zero_add, hslot]
    exact hy.ne_END_OF_CHAIN
  obtain ⟨w, l, hprint, houtw, hl'⟩ := printFileLoop_comesBack (d := d.refill t.fileSys (c :: cs) data)
    (s := { u with dirClusterIndex := -1 }) (hfs ▸ hl.sectorsPerCluster) (hfsize ▸ (toInt_range _).1) (hfsize ▸ hneg)
    (by rw [hfsize, hk]; exact hround) hgo hp (v := v) (by
      rw [hfsize, hk]
      exact hbyte file'.clusters _ hfs (by rw [hframe.eq]) hreads hfirst hlater)
  refine not_printsPrefix_of_byte hfound hprint (l := l) ?_ hl' (getElem?_contents_ne hcontents)
  rw [houtw, ← hout]
  exact congrArg (· ++ l) (by rw [hframe.eq])

/-- If nothing but the first cluster is read, and more than one cluster printed, the file's second cluster, or its
    end, is missing. -/
theorem not_printsPrefix_twice {size : UInt32} (hsize : readDD (subBuffer t.ClusterBuffer off) 0x1C = size)
    (hneg : toInt size.toNat < 0) {k : Nat} (hk : overflowRound (toInt size.toNat) = k) (hround : k < 7)
    (hends : ¬ ((c :: cs).length ≤ k + 1 ∧ (fatWalk d t.waits t.FATSecIdx ((c :: cs).take 7)).1 = (c :: cs).length))
    {data : Nat → Bytes} (hbyte : ∀ (clusters : Mem Int) (u : FsState), u.fileSys = t.fileSys →
      u.ClusterBuffer = t.ClusterBuffer →
      u.waits = t.waits + (fatWalk d t.waits t.FATSecIdx ((c :: cs).take 7)).2 → clusters 0 = (c : Nat) →
      (loadRounds (d.refill t.fileSys (c :: cs) data) clusters (k + 1) 0 u).ClusterBuffer 0 = data c 0)
    (hfirst : ∀ y, (c :: cs)[k + 1]? = some y → data y 0 = data c 0)
    (hsecond : ∀ y, (c :: cs)[1]? = some y → data y 0 ≠ data c 0) :
    ¬ PrintsPrefix (d.refill t.fileSys (c :: cs) data) s q
      (contents (d.refill t.fileSys (c :: cs) data).disk t.fileSys (c :: cs) size) := by
  have hvc := hchain.valid c List.mem_cons_self
  obtain ⟨file', u, hfound, hframe, hreads, hfsize, hslot0, hslots⟩ :=
    findFile_refill hl hc hfind hstart hchain data hvc
  rw [hsize] at hfsize
  have hfs : u.fileSys = t.fileSys := by rw [hframe.eq]
  have hgo : ∀ j : Nat, j ≤ overflowRound file'.size + 1 → file'.clusters (0 + (j : Nat)) ≠ END_OF_CHAIN := by
    intro j hj
    rw [hfsize, hk] at hj
    obtain ⟨y, hy, -, hslot⟩ := hslots j fun ⟨hlen, hfat⟩ => hends ⟨by omega, hfat⟩
    rw [Int.zero_add, hslot]
    exact hy.ne_END_OF_CHAIN
  obtain ⟨y, hvy, hy, hslot⟩ := hslots (k + 1) hends
  -- the cluster of the next round begins as the first one does
  have hdisk : (d.refill t.fileSys (c :: cs) data).disk
      ((t.fileSys.LBA_Cluster_Location.toNat + ((y : Int) - 2) * 4) * 512) = data c 0 := by
    obtain ⟨hmem, hsame⟩ : y ∈ c :: cs ∧ data y 0 = data c 0 := by
      obtain hy | rfl := hy
      · exact ⟨List.mem_of_getElem? hy, hfirst y hy⟩
      · exact ⟨List.mem_cons_self, rfl⟩
    rw [Drive.refill_disk, refill_cluster_first hmem hvy, hsame]
  obtain ⟨w, l, hprint, houtw, hl'⟩ := printFileLoop_goesOn (d := d.refill t.fileSys (c :: cs) data)
    (s := { u with dirClusterIndex := -1 }) (hfs ▸ hl) (hfsize ▸ (toInt_range _).1) (hfsize ▸ hneg)
    (by rw [hfsize, hk]; exact hround) hgo (v := data c 0) (by
      rw [hfsize, hk]
      exact hbyte file'.clusters _ hfs (by rw [hframe.eq]) hreads hslot0) hvy (by
      rw [hfsize, hk, Int.zero_add]
      exact hslot) (by rw [hfs]; exact hdisk)
  refine not_printsPrefix_of_byte hfound hprint (l := l) ?_ hl' (getElem?_contents_ne ?_)
  · rw [houtw, ← hout]
    exact congrArg (· ++ l) (by rw [hframe.eq])
  · have hat := @getElem?_chainData_refill d t.fileSys _ hchain.valid data 1 0 (by omega)
    rw [Nat.mul_one, Nat.add_zero] at hat
    rw [hat]
    intro heq
    obtain ⟨y, hy, hsame⟩ := Option.map_eq_some_iff.mp heq
    exact hsecond y hy hsame

section Round

variable {size : UInt32} (hsize : readDD (subBuffer t.ClusterBuffer off) 0x1C = size) (hneg : toInt size.toNat < 0)
  {k w : Nat} (hk : overflowRound (toInt size.toNat) = k)
  (hw : t.waits + (fatWalk d t.waits t.FATSecIdx ((c :: cs).take 7)).2 = w)
include hout hfind hstart hsize hneg hk hw

/-- A later load that reads its first sector: all clusters but the first one begin alike. -/
theorem exists_not_printsPrefix_later (hround : k < 8)
    (hends : ¬ ((c :: cs).length ≤ k ∧ (fatWalk d t.waits t.FATSecIdx ((c :: cs).take 7)).1 = (c :: cs).length))
    (hlater : ∃ n < k, d.good (w + min (goodSectors d w 4 + 1) 4 + n) = true) :
    ∃ data, ¬ PrintsPrefix (d.refill t.fileSys (c :: cs) data) s q
      (contents (d.refill t.fileSys (c :: cs) data).disk t.fileSys (c :: cs) size) := by
  have hnotin : c ∉ cs := (List.nodup_cons.mp hchain.nodup).1
  obtain ⟨x, hx, hne⟩ : ∃ x, ValidCluster x ∧ x ≠ c := by
    by_cases h2 : c = 2
    · exact ⟨3, by unfold ValidCluster dataClusters; omega, by omega⟩
    · exact ⟨2, two_valid, fun h => h2 h.symm⟩
  generalize hv : d.disk ((t.fileSys.LBA_Cluster_Location.toNat + ((x : Int) - 2) * 4) * 512) = v
  refine ⟨fun y _ => if y = c then v + 1 else v, not_printsPrefix_comesBack hl hc hout hfind hstart hchain hsize hneg hk
    hround hends hx (p := 0) (v := v) (by omega) ?_ ?_⟩
  · intro clusters u hfs hbuf hwaits hfirst hslots
    obtain ⟨ok, u', hload, hfs', hwaits', -⟩ := load_first hl hchain _ hfs hbuf (hwaits.trans hw) hfirst
    rw [loadRounds_succ hload, Int.natCast_zero, Int.zero_add]
    refine loadRounds_byte (hfs' ▸ hl) (fun j hj => ?_) (.inr (by rw [hwaits']; exact hlater))
    obtain ⟨y, hy, hslot⟩ := hslots j hj
    obtain ⟨hvy, hyc⟩ : ValidCluster y ∧ y ≠ c := by
      obtain hy | rfl := hy
      · exact ⟨hchain.valid y (List.mem_cons_of_mem _ hy), fun h => hnotin (h ▸ hy)⟩
      · exact ⟨hx, hne⟩
    refine ⟨y, hvy, hslot, ?_⟩
    rw [hfs', Drive.refill_disk]
    by_cases hmem : y ∈ c :: cs
    · rw [refill_cluster_first hmem hvy, if_neg hyc]
    · obtain rfl := hy.resolve_left fun hy => hmem (List.mem_cons_of_mem _ hy)
      rw [refill_other_first hmem hvy, hv]
  · rw [getElem?_chainData_head hchain.valid _ (by omega), if_pos rfl]
    exact fun heq => add_one_ne v (Option.some.inj heq)

/-- Only a part of the first cluster is read: a sector of the directory is still in the buffer. -/
theorem exists_not_printsPrefix_part (hround : k < 8)
    (hends : ¬ ((c :: cs).length ≤ k ∧ (fatWalk d t.waits t.FATSecIdx ((c :: cs).take 7)).1 = (c :: cs).length))
    (hbad : ∀ n < k, d.good (w + min (goodSectors d w 4 + 1) 4 + n) = false) (hpart : goodSectors d w 4 < 4) :
    ∃ data, ¬ PrintsPrefix (d.refill t.fileSys (c :: cs) data) s q
      (contents (d.refill t.fileSys (c :: cs) data).disk t.fileSys (c :: cs) size) := by
  generalize hv : t.ClusterBuffer (512 * goodSectors d w 4 : Nat) = v
  refine ⟨fun _ _ => v + 1, not_printsPrefix_comesBack hl hc hout hfind hstart hchain hsize hneg hk hround hends
    (hchain.valid c List.mem_cons_self) (p := 512 * goodSectors d w 4) (v := v) (by omega) ?_ ?_⟩
  · intro clusters u hfs hbuf hwaits hfirst _
    rw [loadRounds_first hl hchain _ hfs hbuf (hwaits.trans hw) hfirst hbad, if_neg (Nat.lt_irrefl _), hv]
  · rw [getElem?_chainData_head hchain.valid _ (by omega)]
    exact fun heq => add_one_ne v (Option.some.inj heq)

/-- The first cluster is printed twice: the second one is another, and all others begin as the first one does. -/
theorem exists_not_printsPrefix_stale (hround : k < 7)
    (hends : ¬ ((c :: cs).length ≤ k + 1 ∧ (fatWalk d t.waits t.FATSecIdx ((c :: cs).take 7)).1 = (c :: cs).length))
    (hbad : ∀ n < k, d.good (w + min (goodSectors d w 4 + 1) 4 + n) = false) (hall : goodSectors d w 4 = 4) :
    ∃ data, ¬ PrintsPrefix (d.refill t.fileSys (c :: cs) data) s q
      (contents (d.refill t.fileSys (c :: cs) data).disk t.fileSys (c :: cs) size) := by
  obtain ⟨hnotin, hnodup⟩ := List.nodup_cons.mp hchain.nodup
  have hpos : 0 < k := hk ▸ overflowRound_pos (toInt_range _).1
  have hother : ¬ cs[0]? = some c := fun h => hnotin (List.mem_of_getElem? h)
  refine ⟨fun y _ => if cs[0]? = some y then 1 else 0, not_printsPrefix_twice hl hc hout hfind hstart hchain hsize hneg
    hk hround hends ?_ ?_ ?_⟩
  · intro clusters u hfs hbuf hwaits hfirst
    have hbyte := loadRounds_first hl hchain (fun y _ => if cs[0]? = some y then 1 else 0) hfs hbuf
      (hwaits.trans hw) hfirst hbad 0
    rwa [if_pos (by omega), Int.natCast_zero] at hbyte
  · intro y hy
    rw [if_neg hother, if_neg]
    intro h
    -- no cluster occurs twice
    rw [List.getElem?_cons_succ] at hy
    obtain ⟨hlt, heq⟩ := List.getElem?_eq_some_iff.mp hy
    obtain ⟨hlt', heq'⟩ := List.getElem?_eq_some_iff.mp h
    exact List.pairwise_iff_getElem.mp hnodup 0 k hlt' hlt hpos (heq'.trans heq.symm)
  · intro y hy
    have hsecond : cs[0]? = some y := hy
    rw [if_neg hother, if_pos hsecond]
    decide

end Round

/-- A negative size that comes back as a positive one: contents for which it shows, unless the chain is known to
    end before or nothing but the first cluster is read. -/
theorem exists_not_printsPrefix_negative {size : UInt32} (hsize : readDD (subBuffer t.ClusterBuffer off) 0x1C = size)
    (hneg : toInt size.toNat < 0) (hround : overflowRound (toInt size.toNat) < 8)
    (hharm : ¬ HarmlessRound d t.waits t.FATSecIdx (c :: cs) (overflowRound (toInt size.toNat))) :
    ∃ data, ¬ PrintsPrefix (d.refill t.fileSys (c :: cs) data) s q
      (contents (d.refill t.fileSys (c :: cs) data).disk t.fileSys (c :: cs) size) := by
  have hends : ¬ ((c :: cs).length ≤ overflowRound (toInt size.toNat) ∧
      (fatWalk d t.waits t.FATSecIdx ((c :: cs).take 7)).1 = (c :: cs).length) := fun ⟨hlen, hfat⟩ => hharm (.ends hlen hfat)
  generalize hk : overflowRound (toInt size.toNat) = k at *
  generalize hw : t.waits + (fatWalk d t.waits t.FATSecIdx ((c :: cs).take 7)).2 = w at *
  by_cases hlater : ∃ n < k, d.good (w + min (goodSectors d w 4 + 1) 4 + n) = true
  · exact exists_not_printsPrefix_later hl hc hout hfind hstart hchain hsize hneg hk hw hround hends hlater
  have hbad : ∀ n < k, d.good (w + min (goodSectors d w 4 + 1) 4 + n) = false := fun n hn =>
    Bool.eq_false_iff.mpr fun hgood => hlater ⟨n, hn, hgood⟩
  obtain hpart | hall := Nat.lt_or_eq_of_le (goodSectors_le d w 4)
  · exact exists_not_printsPrefix_part hl hc hout hfind hstart hchain hsize hneg hk hw hround hends hbad hpart
  -- the whole first cluster is in the buffer, which is harmless in the last round only
  have hlast : ¬ (k = 7 ∨ (c :: cs).length = k + 1 ∧
      (fatWalk d t.waits t.FATSecIdx ((c :: cs).take 7)).1 = (c :: cs).length) := fun hlast =>
    hharm (.stale (by rw [hw]; exact good_of_goodSectors hall) (by rw [hw]; rwa [hall] at hbad) hlast)
  refine exists_not_printsPrefix_stale hl hc hout hfind hstart hchain hsize hneg hk hw
    (Nat.lt_of_le_of_ne (Nat.le_of_lt_succ hround) fun h7 => hlast (.inl h7)) (fun ⟨hlen, hfat⟩ => ?_) hbad hall
  by_cases hlen' : (c :: cs).length ≤ k
  · exact hends ⟨hlen', hfat⟩
  · exact hlast (.inr ⟨by omega, hfat⟩)

end Exact

theorem HarmlessRound.refill {d : Drive} {hdr : FAT32_HEADER} {l : List Nat} {data : Nat → Bytes} {w : Nat} {idx : Int}
    {cs : List Nat} {round : Nat} (h : HarmlessRound d w idx cs round) :
    HarmlessRound (d.refill hdr l data) w idx cs round := by
  cases h with
  | ends hlen hfat => exact .ends hlen (by rw [fatWalk_refill]; exact hfat)
  | stale hgood hbad hlast =>
    refine .stale ?_ ?_ ?_
    · rw [fatWalk_refill]
      exact hgood
    · rw [fatWalk_refill]
      exact hbad
    · rw [fatWalk_refill]
      exact hlast

theorem NeededReads.refill {d : Drive} {hdr : FAT32_HEADER} {l : List Nat} {data : Nat → Bytes} {w : Nat}
    {idx size : Int} {cs : List Nat} (h : NeededReads d w idx cs size) :
    NeededReads (d.refill hdr l data) w idx cs size := by
  constructor
  · rw [fatWalk_refill]
    exact h.fat
  · rw [fatWalk_refill]
    exact h.data
  · exact fun hneg hround => (h.negative hneg hround).refill

/-- The reads that are needed, and no others: if they succeed, a prefix of the file is
    printed, and if one of them fails, the code is right by the contents of the file only. -/
theorem findFile_printFile_exact {d : Drive} {s t : FsState} (hreach : Reachable d s)
    (hl : StandardLayout s.fileSys) {q : List UInt8} {off : Int}
    (hfind : findRecord d s q = .ok (some off, t)) {c : Nat} {cs : List Nat}
    (hstart : startCluster s.fileSys (subBuffer t.ClusterBuffer off) = c)
    (hchain : FatChain d.disk s.fileSys (c :: cs)) :
    (NeededReads d (s.waits + if s.dirClusterIndex = 0 then 0 else 4) s.FATSecIdx (c :: cs)
        (toInt (readDD (subBuffer t.ClusterBuffer off) 0x1C).toNat) →
      PrintsPrefix d s q (contents d.disk s.fileSys (c :: cs)
        (readDD (subBuffer t.ClusterBuffer off) 0x1C))) ∧
    (DirectoryApart s (c :: cs) →
      ((∀ data, PrintsPrefix (d.refill s.fileSys (c :: cs) data) s q
          (contents (d.refill s.fileSys (c :: cs) data).disk s.fileSys (c :: cs)
            (readDD (subBuffer t.ClusterBuffer off) 0x1C))) ↔
        NeededReads d (s.waits + if s.dirClusterIndex = 0 then 0 else 4) s.FATSecIdx (c :: cs)
          (toInt (readDD (subBuffer t.ClusterBuffer off) 0x1C).toNat))) := by
  refine ⟨ findFile_printFile_prefix hreach hl hfind hstart hchain, fun hapart => ?_⟩
  have hload := findRecord_found ⟨hl.sectorsPerCluster, hl.bytesPerSector⟩ hfind
  obtain ⟨hwaits, hidx, hout, hkeeps⟩ := loadFirst_loaded hl.sectorsPerCluster hload
  have hfs := hkeeps.fileSys
  -- other contents of the file's clusters do not change the search
  have hfound : ∀ data, findRecord (d.refill t.fileSys (c :: cs) data) s q = .ok (some off, t) := by
    intro data
    rw [hfs]
    exact findRecord_refill data hl hapart hfind
  have hc := (hkeeps.cache hreach.cacheOk).fatCached
  rw [← hwaits, ← hidx]
  rw [← hfs] at hl hstart hchain ⊢
  constructor
  · intro hprints
    apply Classical.byContradiction
    intro hneeded
    obtain ⟨data, hnot⟩ : ∃ data, ¬ PrintsPrefix (d.refill t.fileSys (c :: cs) data) s q
        (contents (d.refill t.fileSys (c :: cs) data).disk t.fileSys (c :: cs)
          (readDD (subBuffer t.ClusterBuffer off) 0x1C)) := by
      by_cases hneg : toInt (readDD (subBuffer t.ClusterBuffer off) 0x1C).toNat < 0
      · have hnot : ¬ (overflowRound (toInt (readDD (subBuffer t.ClusterBuffer off) 0x1C).toNat) < 8 →
            HarmlessRound d t.waits t.FATSecIdx (c :: cs)
              (overflowRound (toInt (readDD (subBuffer t.ClusterBuffer off) 0x1C).toNat))) := fun himp =>
          hneeded ⟨fun k _ hk _ => by omega, fun n hn _ => by omega, fun _ hround => himp hround⟩
        obtain ⟨hround, hharm⟩ := Classical.not_imp.mp hnot
        exact exists_not_printsPrefix_negative hl hc hout hfound hstart hchain rfl hneg hround hharm
      · exact exists_not_printsPrefix hl hc hout hfound hstart hchain (by omega) hneeded
    exact hnot (hprints data)
  · intro hneeded data
    apply hneeded.refill.printsPrefix hl (hc.refill data hl) hout (hfound data) hstart
    rw [Drive.refill_disk]
    exact hchain.refill hl

/-- The file of the small directory on a drive without errors. -/
theorem findFile_printFile_exact_letters : ∃ s,
    loadFileSystem (healthyDrive letterVolume) .boot = some (.ok (true, s)) ∧
    PrintsPrefix (healthyDrive letterVolume) s [97] (contents letterVolume s.fileSys [3] 3) := by
  obtain ⟨s, hload, hhdr, hidx, hloads, hchain⟩ := letterVolume_loads
  have hgood : ∀ n, (healthyDrive letterVolume).good n = true := healthyDrive_good _
  have hshort := hloads.holds.isShort (2, letterFile) (List.mem_singleton.mpr rfl)
  have hfind := findRecord_answers hloads (List.pairwise_singleton _ _) (k := 2) (f := letterFile)
    (List.mem_singleton.mpr rfl) (q := [97]) (by decide) (by decide) (by decide)
  have hsize : readDD (subBuffer s.ClusterBuffer (32 * (2 : Nat))) 0x1C = 3 := hshort.size
  refine ⟨s, hload, ?_⟩
  rw [← hsize]
  refine (findFile_printFile_exact (.load hload) (hhdr ▸ defaultHeader_layout) hfind ?_ hchain).1 ⟨?_, ?_, ?_⟩
  · rw [startCluster, hshort.recordCluster, hhdr]
    decide
  · intro k hk hk' hlen
    have hk : k = 0 := by
      rw [hsize, show toInt (UInt32.toNat 3) = 3 from by decide] at hk'
      omega
    omega
  · exact fun n _ _ => hgood _
  · rw [hsize]
    exact fun hneg => absurd hneg (by decide)

end SoreOS
