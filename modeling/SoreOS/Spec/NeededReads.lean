import SoreOS.Spec.ReadErrors
import SoreOS.Spec.Refill

/-!
# The reads that are needed

Each of the reads that the printed bytes of a file depend on matters: if one of them
fails, there are contents of the file for which something else is printed.

## Key results

- `printFileLoop_full`, `printFileLoop_stale`: printing up to a load that goes wrong
- `not_printsPrefix`: a load that leaves a byte of something else
- `exists_not_printsPrefix`: for each read that is needed, contents that show its failure
-/

namespace SoreOS

open ForStd

/-- A byte of a chain lies in one of its clusters. -/
theorem getElem?_chainData (disk : Bytes) (hdr : FAT32_HEADER) (cs : List Nat) (a : Nat) {p : Nat}
    (hp : p < 2048) : (chainData disk hdr cs)[2048 * a + p]? =
      cs[a]?.bind fun c => (clusterData disk hdr c)[p]? := by
  induction cs generalizing a with
  | nil => rfl
  | cons c cs ih =>
    have hlen : (clusterData disk hdr c).length = 2048 := length_clusterData disk hdr c
    rw [chainData, List.flatMap_cons]
    cases a with
    | zero =>
      rw [List.getElem?_append_left (by omega), Nat.mul_zero, Nat.zero_add]
      rfl
    | succ a =>
      rw [List.getElem?_append_right (by omega), hlen,
        show 2048 * (a + 1) + p - 2048 = 2048 * a + p from by omega]
      exact ih a

/-- Sectors behind one that fails are not read. -/
theorem goodSectors_le_bad {d : Drive} {w j sectors : Nat} (hj : j < sectors)
    (hbad : d.good (w + j) = false) : goodSectors d w sectors ≤ j := by
  induction sectors generalizing w j with
  | zero => omega
  | succ sectors ih =>
    rw [goodSectors]
    cases j with
    | zero => rw [if_neg (by rw [Nat.add_zero] at hbad; simp [hbad])]
    | succ j =>
      split
      · have := ih (w := w + 1) (j := j) (by omega) (by rwa [Nat.add_assoc, Nat.add_comm 1 j])
        omega
      · omega

/-- Printing clusters that are read as a whole. -/
theorem printFileLoop_full {d : Drive} (a rounds : Nat) {cs : List Nat} {s : FsState}
    (hl : StandardLayout s.fileSys) (hv : ∀ c ∈ cs, ValidCluster c) (ha : a ≤ cs.length) {i : Int}
    {clusters : Mem Int} {size : Int} (hsize : 2048 * a ≤ size) (hhigh : size < 2147483648)
    (hknown : ∀ k, k < a → ∀ hk : k < cs.length, clusters (i + k) = cs[k])
    (hgood : ∀ n, n < 4 * a → d.good (s.waits + n) = true) :
    ∃ t, printFileLoop d clusters (a + rounds) i s size =
        printFileLoop d clusters rounds (i + a) t (size - 2048 * a) ∧
      t.fileSys = s.fileSys ∧ t.waits = s.waits + 4 * a ∧
      t.out = s.out ++ chainData d.disk s.fileSys (cs.take a) ∧
      (a = 0 → t.ClusterBuffer = s.ClusterBuffer) ∧
      ∀ c ∈ (cs.take a).getLast?, t.ClusterBuffer.read 0 2048 = clusterData d.disk s.fileSys c := by
  induction a generalizing cs s i size with
  | zero =>
    refine ⟨s, ?_, rfl, rfl, by simp [chainData], fun _ => rfl, by simp⟩
    rw [Nat.zero_add, Int.natCast_zero, Int.add_zero, Int.mul_zero, Int.sub_zero]
  | succ a ih =>
    push_cast at hsize
    cases cs with
    | nil => exact absurd ha (Nat.not_succ_le_zero a)
    | cons c cs =>
      have hvc := hv c List.mem_cons_self
      have hhead : clusters i = c := by
        have := hknown 0 (Nat.succ_pos a) (Nat.succ_pos _)
        rwa [Int.natCast_zero, Int.add_zero] at this
      obtain ⟨ok, u, hload, hfs, hout, hread, hwaits⟩ := load_Cluster_covered hl hvc (Nat.le_refl 2048)
        fun n hn => hgood n (by omega)
      have hwaits := hwaits rfl
      have hlength : (if size > 2048 then 2048 else size) = 2048 := by split <;> omega
      rw [show a + 1 + rounds = a + rounds + 1 from by omega, printFileLoop, hhead,
        if_pos hvc.ne_END_OF_CHAIN, hload, ok_bind]
      dsimp only
      rw [hlength, show (2048 : Int).toNat = 2048 from rfl, hread,
        List.take_of_length_le (by simp), toInt_eq (by omega) (by omega)]
      obtain ⟨t, hrun, htfs, htwaits, htout, hsame, hlast⟩ := @ih cs
        { u with out := u.out ++ clusterData d.disk s.fileSys c } (hfs ▸ hl)
        (fun c' hc' => hv c' (List.mem_cons_of_mem _ hc')) (Nat.le_of_succ_le_succ ha) (i + 1) (size - 2048)
        (by omega) (by omega)
        (fun k hk hlen => by
          rw [show i + 1 + (k : Int) = i + ((k + 1 : Nat) : Int) from by push_cast; omega]
          exact hknown (k + 1) (by omega) (by simpa using hlen))
        (fun n hn => by
          have := hgood (n + 4) (by omega)
          dsimp only
          rwa [hwaits, show s.waits + 4 + n = s.waits + (n + 4) from by omega])
      dsimp only at htfs htwaits htout hsame hlast
      rw [hfs] at htfs htout hlast
      refine ⟨t, ?_, htfs, by omega, ?_, fun h0 => absurd h0 (Nat.succ_ne_zero a), ?_⟩
      · rw [hrun, show i + 1 + (a : Int) = i + ((a + 1 : Nat) : Int) from by push_cast; omega,
          show size - 2048 - 2048 * (a : Int) = size - 2048 * ((a + 1 : Nat) : Int) from by push_cast; omega]
      · rw [htout, hout, List.take_succ_cons]
        simp only [chainData, List.flatMap_cons, List.append_assoc]
      · -- the last cluster is this one, or the last of the rest
        rw [List.take_succ_cons]
        cases a with
        | zero =>
          rw [List.take_zero, List.getLast?_singleton]
          intro c' hc'
          obtain rfl := Option.some.inj hc'
          rw [hsame rfl, hread, List.take_of_length_le (by simp)]
        | succ a =>
          cases cs with
          | nil => exact absurd ha (by simp)
          | cons c' cs =>
            rw [List.take_succ_cons, List.getLast?_cons_cons]
            rw [List.take_succ_cons] at hlast
            exact hlast

/-- Printing a cluster: what is in the buffer after its load, right or wrong. -/
theorem printFileLoop_stale {d : Drive} (rounds : Nat) {i : Int} {s : FsState} {clusters : Mem Int}
    {size : Int} (h : s.fileSys.A_BF_BPB_SectorsPerCluster = 4) (hx : clusters i ≠ END_OF_CHAIN)
    {p : Nat} (hp : p < 2048) (hsize : p < size) {v : UInt8}
    (hbyte : ∀ ok t, load_Cluster d s (clusters i) = .ok (ok, t) → t.ClusterBuffer p = v) :
    ∃ u l, printFileLoop d clusters (rounds + 1) i s size = .ok u ∧ u.out = s.out ++ l ∧ l[p]? = some v := by
  have hspc : s.fileSys.A_BF_BPB_SectorsPerCluster.toNat = 4 := by rw [h]; rfl
  have hload := load_Cluster_eq d s (clusters i) hspc (by omega)
  obtain ⟨m, idx, n, hframe⟩ := load_Cluster_frame hload
  rw [hframe] at hload
  have hv : m p = v := hbyte _ _ hload
  rw [printFileLoop, if_pos hx, hload, ok_bind]
  dsimp only
  have hlength : (p : Int) < if size > 2048 then 2048 else size := by split <;> omega
  generalize (if size > 2048 then 2048 else size) = length at hlength
  obtain ⟨u, hrun, _, l, hout⟩ := printFileLoop_returns d clusters rounds (i := i + 1)
    (s := { s with
      ClusterBuffer := m, ClusterSecIdx := idx, waits := n, out := s.out ++ m.read 0 length.toNat })
    h (toInt (size - 2048))
  refine ⟨u, m.read 0 length.toNat ++ l, hrun, ?_, ?_⟩
  · rw [← hout, List.append_assoc]
  · rw [List.getElem?_append_left (by rw [Mem.length_read]; omega),
      List.getElem?_eq_getElem (by rw [Mem.length_read]; omega), Mem.getElem_read, Int.zero_add, hv]

theorem length_chainData (disk : Bytes) (hdr : FAT32_HEADER) (cs : List Nat) :
    (chainData disk hdr cs).length = 2048 * cs.length := by
  induction cs with
  | nil => rfl
  | cons c cs ih =>
    unfold chainData at ih ⊢
    rw [List.flatMap_cons, List.length_append, ih, length_clusterData, List.length_cons]
    omega

/-- A printed byte that is not the file's. -/
theorem not_printsPrefix_of_byte {d : Drive} {s u y : FsState} {q contents l : List UInt8} {file file' : File}
    {p : Nat} {v : UInt8} (hfound : findFile d s q file = .ok (0, file', u)) (hprint : printFile d u file' = .ok y)
    (hout : y.out = s.out ++ l) (hbyte : l[p]? = some v) (hcontents : contents[p]? ≠ some v) :
    ¬ PrintsPrefix d s q contents := by
  intro hprints
  obtain ⟨res, file'', u', hfound', hthen⟩ := hprints file
  rw [hfound] at hfound'
  cases hfound'
  obtain ⟨y', l', hprint', hout', hprefix⟩ := hthen rfl
  rw [hprint] at hprint'
  cases hprint'
  obtain rfl := List.append_cancel_left (hout.symm.trans hout')
  obtain ⟨hlt, heq⟩ := List.getElem?_eq_some_iff.mp hbyte
  have htrue := List.prefix_iff_getElem?.mp hprefix _ hlt
  rw [heq] at htrue
  exact hcontents htrue

/-- A byte of the contents is a byte of the chain. -/
theorem getElem?_contents_ne {disk : Bytes} {hdr : FAT32_HEADER} {cs : List Nat} {size : UInt32} {p : Nat} {v : UInt8}
    (h : (chainData disk hdr cs)[p]? ≠ some v) : (contents disk hdr cs size)[p]? ≠ some v := by
  rw [contents, List.getElem?_take]
  split
  · exact h
  · intro hnone
    cases hnone

section Converse

variable {d : Drive} {s t : FsState} {q : List UInt8} {off : Int} {c : Nat} {cs : List Nat}

/-- If the load of the `a`th cluster of the list leaves a byte in the buffer that is not the
    file's, and this byte is printed, then what is printed is no prefix of the file. The
    clusters before that are read, and garbage in the file structure is a cluster `x`. -/
theorem not_printsPrefix (hl : StandardLayout t.fileSys) (hc : FatCached d t) (hout : t.out = s.out)
    (hfind : findRecord d s q = .ok (some off, t))
    (hstart : startCluster t.fileSys (subBuffer t.ClusterBuffer off) = c)
    (hchain : FatChain d.disk t.fileSys (c :: cs)) {a p x : Nat} {v : UInt8} (ha : a < 8)
    (hknown : a ≤ (fatWalk d t.waits t.FATSecIdx ((c :: cs).take 7)).1 + 1) (hlen : a ≤ (c :: cs).length)
    (hp : p < 2048)
    (hsize : 2048 * a + p < toInt (readDD (subBuffer t.ClusterBuffer off) 0x1C).toNat)
    (hx : a ≤ (fatWalk d t.waits t.FATSecIdx ((c :: cs).take 7)).1 → (c :: cs)[a]? = some x)
    (hvx : ValidCluster x)
    (hgood : ∀ n, n < 4 * a →
      d.good (t.waits + (fatWalk d t.waits t.FATSecIdx ((c :: cs).take 7)).2 + n) = true)
    (hbyte : ∀ u, u.fileSys = t.fileSys →
      u.waits = t.waits + (fatWalk d t.waits t.FATSecIdx ((c :: cs).take 7)).2 + 4 * a →
      (a = 0 → u.ClusterBuffer = t.ClusterBuffer) →
      (∀ y ∈ ((c :: cs).take a).getLast?, u.ClusterBuffer.read 0 2048 = clusterData d.disk t.fileSys y) →
      ∀ ok u', load_Cluster d u x = .ok (ok, u') → u'.ClusterBuffer p = v)
    (hcontents : (chainData d.disk t.fileSys (c :: cs))[2048 * a + p]? ≠ some v) :
    ¬ PrintsPrefix d s q (contents d.disk t.fileSys (c :: cs)
      (readDD (subBuffer t.ClusterBuffer off) 0x1C)) := by
  obtain ⟨file', u, hfound, hframe, hreads, hfsize, hgarbage, hlists⟩ :=
    findFile_walk hl hc hfind rfl hstart hchain { clusters := fun _ => x }
  generalize hm : (fatWalk d t.waits t.FATSecIdx ((c :: cs).take 7)).1 = m at *
  rw [← hfsize] at hsize
  have hfsu : u.fileSys = t.fileSys := by rw [hframe.eq]
  have hbufu : u.ClusterBuffer = t.ClusterBuffer := by rw [hframe.eq]
  have houtu : u.out = t.out := by rw [hframe.eq]
  -- the slot that goes wrong
  have hslot : file'.clusters (0 + (a : Int)) = x := by
    rw [Int.zero_add]
    by_cases ham : a ≤ m
    · obtain ⟨hlt, heq⟩ := List.getElem?_eq_some_iff.mp (hx ham)
      rw [(hlists a ham).1 hlt, heq]
    · exact hgarbage a (by omega)
  -- the clusters before it
  obtain ⟨w, hrun, hfsw, hwaits, houtw, hfirst, hlast⟩ := @printFileLoop_full d a (7 - a + 1) (c :: cs)
    { u with dirClusterIndex := -1 } (hfsu ▸ hl) hchain.valid hlen 0 file'.clusters file'.size (by omega)
    (hfsize ▸ (toInt_range _).2)
    (fun k hk hlt => by
      rw [Int.zero_add]
      exact (hlists k (by omega)).1 hlt)
    (fun n hn => by
      have := hgood n hn
      rwa [← hreads] at this)
  dsimp only at hfsw hwaits houtw hfirst hlast
  rw [hfsu] at hfsw houtw hlast
  obtain ⟨y, l, hstale, houty, hl'⟩ := @printFileLoop_stale d (7 - a) (0 + a) w file'.clusters
    (file'.size - 2048 * a) (by rw [hfsw]; exact hl.sectorsPerCluster) (by rw [hslot]; exact hvx.ne_END_OF_CHAIN) p hp
    (by omega) v (fun ok w' hload => by
      rw [hslot] at hload
      exact hbyte w hfsw (by omega) (fun h0 => (hfirst h0).trans hbufu) hlast ok w' hload)
  have hprint : printFile d u file' = .ok y := by
    rw [printFile, show (8 : Nat) = a + (7 - a + 1) from by omega, hrun, hstale]
  -- what is printed
  have hlenTake : (chainData d.disk t.fileSys ((c :: cs).take a)).length = 2048 * a := by
    rw [length_chainData, List.length_take, Nat.min_eq_left hlen]
  refine not_printsPrefix_of_byte (p := 2048 * a + p) (v := v) hfound hprint
    (by rw [houty, houtw, houtu, hout, List.append_assoc]) ?_ (getElem?_contents_ne hcontents)
  rw [List.getElem?_append_right (by omega), hlenTake, Nat.add_sub_cancel_left, hl']

end Converse

/-! ## Contents that show the error -/

theorem fatWalk_refill {d : Drive} {hdr : FAT32_HEADER} {l : List Nat} {data : Nat → Bytes} (w : Nat)
    (idx : Int) (cs : List Nat) : fatWalk (d.refill hdr l data) w idx cs = fatWalk d w idx cs := by
  induction cs generalizing w idx with
  | nil => rfl
  | cons c cs ih =>
    simp only [fatWalk, ih]
    rfl

/-- A byte of the buffer after a load. -/
theorem load_Cluster_byte {d : Drive} {s t : FsState} (hl : StandardLayout s.fileSys) {c : Nat}
    (hv : ValidCluster c) {ok : Bool} (h : load_Cluster d s c = .ok (ok, t)) (p : Nat) :
    t.ClusterBuffer p = if p < 512 * goodSectors d s.waits 4 then
      d.disk ((s.fileSys.LBA_Cluster_Location.toNat + ((c : Int) - 2) * 4) * 512 + p)
      else s.ClusterBuffer p := by
  have hspc := hl.sectorsPerCluster_toNat
  rw [load_Cluster_eq d s c hspc (by omega)] at h
  obtain rfl := (Prod.mk.inj (Except.ok.inj h)).2
  dsimp only
  rw [memcpyObj, Mem.copyFrom_apply, clusterBase_valid hl hv, Int.sub_zero]
  exact if_congr (by omega) rfl rfl

/-- Clusters with other contents have these contents. -/
theorem clusterData_refill_chain {d : Drive} {hdr : FAT32_HEADER} {cs : List Nat} (hv : ∀ k ∈ cs, ValidCluster k)
    (data : Nat → Bytes) : ∀ k ∈ cs, clusterData (d.refill hdr cs data).disk hdr k = (data k).read 0 2048 := by
  intro k hk
  rw [Drive.refill_disk]
  exact clusterData_refill hk (hv k hk)

theorem getElem?_chainData_refill {d : Drive} {hdr : FAT32_HEADER} {cs : List Nat} (hv : ∀ k ∈ cs, ValidCluster k)
    (data : Nat → Bytes) (a : Nat) {p : Nat} (hp : p < 2048) :
    (chainData (d.refill hdr cs data).disk hdr cs)[2048 * a + p]? = cs[a]?.map fun k => data k p := by
  rw [getElem?_chainData _ _ _ _ hp]
  cases hk : cs[a]? with
  | none => rfl
  | some k =>
    have hlt : p < ((data k).read 0 2048).length := by
      rw [Mem.length_read]
      exact hp
    rw [Option.bind_some, Option.map_some, clusterData_refill_chain hv data k (List.mem_of_getElem? hk),
      List.getElem?_eq_getElem hlt, Mem.getElem_read, Int.zero_add]

/-- After `a + 1` clusters the last one is the one at index `a`. -/
theorem getElem_mem_getLast?_take {cs : List Nat} {a : Nat} (ha : a < cs.length) :
    cs[a] ∈ (cs.take (a + 1)).getLast? := by
  rw [List.getLast?_take, if_neg (Nat.succ_ne_zero a), Nat.add_sub_cancel, List.getElem?_eq_getElem ha,
    Option.some_or]
  rfl

section Exact

variable {d : Drive} {s t : FsState} {q : List UInt8} {off : Int} {c : Nat} {cs : List Nat}
  (hl : StandardLayout t.fileSys) (hc : FatCached d t) (hout : t.out = s.out)
  (hfind : ∀ data, findRecord (d.refill t.fileSys (c :: cs) data) s q = .ok (some off, t))
  (hstart : startCluster t.fileSys (subBuffer t.ClusterBuffer off) = c)
  (hchain : FatChain d.disk t.fileSys (c :: cs))

/-- The first `a` clusters are read without errors, and the file goes on. -/
structure ReadsClusters (d : Drive) (t : FsState) (cs : List Nat) (size : Int) (a : Nat) : Prop where
  max : a < 8
  length : a ≤ cs.length
  size : 2048 * a < size
  good : ∀ n, n < 4 * a → d.good (t.waits + (fatWalk d t.waits t.FATSecIdx (cs.take 7)).2 + n) = true

include hl hc hout hfind hstart hchain

/-- A sector that is not read: contents that differ from what is in its place. -/
theorem exists_not_printsPrefix_data {a j : Nat}
    (hreads : ReadsClusters d t (c :: cs) (toInt (readDD (subBuffer t.ClusterBuffer off) 0x1C).toNat) a)
    (hknown : a ≤ (fatWalk d t.waits t.FATSecIdx ((c :: cs).take 7)).1) (hlen : a < (c :: cs).length)
    (hj : j < 4) (hsize : 2048 * a + 512 * j < toInt (readDD (subBuffer t.ClusterBuffer off) 0x1C).toNat)
    (hbad : d.good (t.waits + (fatWalk d t.waits t.FATSecIdx ((c :: cs).take 7)).2 + (4 * a + j)) = false) :
    ∃ data, ¬ PrintsPrefix (d.refill t.fileSys (c :: cs) data) s q
      (contents (d.refill t.fileSys (c :: cs) data).disk t.fileSys (c :: cs)
        (readDD (subBuffer t.ClusterBuffer off) 0x1C)) := by
  have hmem : (c :: cs)[a] ∈ c :: cs := List.getElem_mem hlen
  have hx := hchain.valid _ hmem
  -- the byte that is in the buffer, and in all clusters but this one
  generalize hb : t.ClusterBuffer (512 * j : Nat) = b
  let data : Nat → Bytes := fun k _ => if k = (c :: cs)[a] then b + 1 else b
  have hdata := @clusterData_refill_chain d t.fileSys (c :: cs) hchain.valid data
  refine ⟨data, not_printsPrefix (a := a) (p := 512 * j) (x := (c :: cs)[a]) (v := b) hl (hc.refill _ hl) hout
    (hfind _) hstart ?_ hreads.max ?_ (Nat.le_of_lt hlen) (by omega) (by push_cast; omega)
    (fun _ => List.getElem?_eq_getElem hlen) hx ?_ ?_ ?_⟩
  · rw [Drive.refill_disk]
    exact hchain.refill hl
  · rw [fatWalk_refill]
    exact Nat.le_succ_of_le hknown
  · intro n hn
    rw [fatWalk_refill]
    exact hreads.good n hn
  · intro u hfs hwaits hfirst hlast ok u' hload
    rw [fatWalk_refill] at hwaits
    have hle : goodSectors (d.refill t.fileSys (c :: cs) data) u.waits 4 ≤ j := by
      rw [goodSectors_refill]
      apply goodSectors_le_bad hj
      rw [hwaits, Nat.add_assoc]
      exact hbad
    rw [load_Cluster_byte (hfs ▸ hl) hx hload, if_neg (by omega)]
    cases a with
    | zero =>
      rw [hfirst rfl]
      exact hb
    | succ a =>
      -- the cluster before is another one
      have hprev := @getElem_mem_getLast?_take (c :: cs) a (by omega)
      have hne : (c :: cs)[a] ≠ (c :: cs)[a + 1] :=
        List.pairwise_iff_getElem.mp hchain.nodup a (a + 1) _ _ (Nat.lt_succ_self a)
      have hbuf := (hlast _ hprev).trans (hdata _ (List.getElem_mem _))
      have := Mem.eq_of_read_eq hbuf (i := 512 * j) (by omega)
      rw [Int.zero_add] at this
      rw [this]
      exact if_neg hne
  · have hown : data (c :: cs)[a] (512 * j : Nat) = b + 1 := if_pos rfl
    rw [getElem?_chainData_refill hchain.valid data a (by omega), List.getElem?_eq_getElem hlen, Option.map_some, hown]
    intro heq
    exact absurd (by simpa using Option.some.inj heq) (by decide : ¬ (1 : UInt8) = 0)

/-- An entry of the FAT that is not read: garbage that is a cluster of the file again. -/
theorem exists_not_printsPrefix_fat {m : Nat}
    (hm : (fatWalk d t.waits t.FATSecIdx ((c :: cs).take 7)).1 = m)
    (hreads : ReadsClusters d t (c :: cs) (toInt (readDD (subBuffer t.ClusterBuffer off) 0x1C).toNat)
      (m + 1)) :
    ∃ data, ¬ PrintsPrefix (d.refill t.fileSys (c :: cs) data) s q
      (contents (d.refill t.fileSys (c :: cs) data).disk t.fileSys (c :: cs)
        (readDD (subBuffer t.ClusterBuffer off) 0x1C)) := by
  have hlen : m < (c :: cs).length := hreads.length
  have hmem : (c :: cs)[m] ∈ c :: cs := List.getElem_mem hlen
  have hx := hchain.valid _ hmem
  -- ones in the cluster that is not known, zeros in the others
  let data : Nat → Bytes := fun k _ => if (c :: cs)[m + 1]? = some k then 1 else 0
  have hdata := @clusterData_refill_chain d t.fileSys (c :: cs) hchain.valid data
  have hzero : data (c :: cs)[m] = fun _ => 0 := by
    funext i
    apply if_neg
    intro hnext
    obtain ⟨hlt, heq⟩ := List.getElem?_eq_some_iff.mp hnext
    exact List.pairwise_iff_getElem.mp hchain.nodup m (m + 1) hlen hlt (Nat.lt_succ_self m) heq.symm
  refine ⟨data, not_printsPrefix (a := m + 1) (p := 0) (x := (c :: cs)[m]) (v := 0) hl (hc.refill _ hl) hout
    (hfind _) hstart ?_ hreads.max ?_ hreads.length (by omega) hreads.size ?_ hx ?_ ?_ ?_⟩
  · rw [Drive.refill_disk]
    exact hchain.refill hl
  · rw [fatWalk_refill, hm]
  · intro hle
    rw [fatWalk_refill, hm] at hle
    exact absurd hle (Nat.not_succ_le_self m)
  · intro n hn
    rw [fatWalk_refill]
    exact hreads.good n hn
  · intro u hfs _ _ hlast ok u' hload
    have hprev := getElem_mem_getLast?_take hlen
    -- the buffer has the cluster already, and a load puts it there again
    have hbuf := Mem.eq_of_read_eq ((hlast _ hprev).trans (hdata _ hmem)) (i := 0) (by omega)
    rw [Int.natCast_zero, Int.add_zero, hzero] at hbuf
    have hbyte := Mem.eq_of_read_eq (hdata _ hmem) (i := 0) (by omega)
    rw [hzero] at hbyte
    rw [load_Cluster_byte (hfs ▸ hl) hx hload, hfs]
    split
    · exact hbyte
    · exact hbuf
  · rw [getElem?_chainData_refill hchain.valid data (m + 1) (by omega)]
    cases hnext : (c :: cs)[m + 1]? with
    | none => exact fun h => nomatch h
    | some x =>
      have hone : data x (0 : Nat) = 1 := if_pos hnext
      rw [Option.map_some, hone]
      exact fun h => absurd (Option.some.inj h) (by decide)

/-- If a read that is needed for a file below 2 GiB fails, there are contents for which it shows. -/
theorem exists_not_printsPrefix (hsize : 0 ≤ toInt (readDD (subBuffer t.ClusterBuffer off) 0x1C).toNat)
    (hneeded : ¬ NeededReads d t.waits t.FATSecIdx (c :: cs)
      (toInt (readDD (subBuffer t.ClusterBuffer off) 0x1C).toNat)) :
    ∃ data, ¬ PrintsPrefix (d.refill t.fileSys (c :: cs) data) s q
      (contents (d.refill t.fileSys (c :: cs) data).disk t.fileSys (c :: cs)
        (readDD (subBuffer t.ClusterBuffer off) 0x1C)) := by
  generalize hm : (fatWalk d t.waits t.FATSecIdx ((c :: cs).take 7)).1 = m
  apply Classical.byContradiction
  intro hnone
  -- the sectors that are read before a cluster is missing: by induction, none of them fails
  have hdata : ∀ n : Nat, 512 * n < toInt (readDD (subBuffer t.ClusterBuffer off) 0x1C).toNat →
      n < 4 * min 8 (c :: cs).length → n < 4 * (m + 1) →
      d.good (t.waits + (fatWalk d t.waits t.FATSecIdx ((c :: cs).take 7)).2 + n) = true := by
    intro n
    induction n using Nat.strongRecOn with
    | ind n ih =>
      intro hsize hlen hn
      cases hgood : d.good (t.waits + (fatWalk d t.waits t.FATSecIdx ((c :: cs).take 7)).2 + n) with
      | true => rfl
      | false =>
        refine absurd (exists_not_printsPrefix_data hl hc hout hfind hstart hchain (a := n / 4) (j := n % 4)
          ⟨by omega, by omega, by omega, fun k hk => ih k (by omega) (by omega) (by omega) (by omega)⟩
          (by omega) (by omega) (Nat.mod_lt n (by omega)) (by omega) ?_) hnone
        rw [Nat.div_add_mod]
        exact hgood
  -- so no cluster is missing either
  have hfat : ∀ k : Nat, k < 8 → 2048 * k < toInt (readDD (subBuffer t.ClusterBuffer off) 0x1C).toNat →
      k ≤ (c :: cs).length → k ≤ m := by
    intro k hk hsize hlen
    apply Nat.le_of_not_lt
    intro hlt
    refine hnone (exists_not_printsPrefix_fat hl hc hout hfind hstart hchain hm
      ⟨by omega, by omega, by omega, fun n hn => hdata n (by omega) (by omega) (by omega)⟩)
  refine hneeded ⟨fun k hk hsize hlen => hm ▸ hfat k hk hsize hlen, fun n hsize hn => ?_, fun hneg => by omega⟩
  have := hfat (n / 4) (by omega) (by omega) (by omega)
  exact hdata n hsize hn (by omega)

end Exact

end SoreOS
