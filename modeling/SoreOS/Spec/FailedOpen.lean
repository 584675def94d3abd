import SoreOS.Spec.RepeatedSearch
import SoreOS.Spec.ScanReplies

/-!
# Directories that cannot be opened

What a failed `openDirectory` leaves behind. The sectors in front of the failing read
are in the cluster buffer then, over those of the cached directory. The scans do not
notice if they begin with a load of the directory, or if the records of both buffers
are alike.

## Key results

- `Reloads.apply`: calls that load the directory
- `Alike.apply`: calls on buffers with the same records
- `failedOpen_sameResults_iff`: when a failed opening goes unnoticed
- `not_failedOpen_sameResults`: a directory with the entries of another one
-/

namespace SoreOS

open ForStd

/-! ## Calls -/

/-- However a drive with the disk answers from then on, calls return and print the same from both states. -/
def SameResults (disk : Bytes) (s t : FsState) : Prop :=
  ∀ d : Drive, d.disk = disk → ∀ calls : List ScanCall, (∀ c ∈ calls, c.Named) → observed d s calls = observed d t calls

/-- A single call: what it returns, and what is printed by then. -/
theorem observed_single (d : Drive) (s : FsState) (c : ScanCall) :
    observed d s [c] = ([(c.apply d s).toOption.map Prod.fst], c.output d s) := by
  cases hrun : c.apply d s with
  | error f => exact observe_error hrun []
  | ok p =>
    rw [← ScanCall.apply_out hrun]
    exact observe_ok hrun []

/-- Calls that match from related states are observed alike, if the relation respects the output. -/
theorem sameResults_of_matches {disk : Bytes} {s t : FsState} {R : FsState → FsState → Prop}
    (hout : ∀ s t, R s t → s.out = t.out)
    (houtput : ∀ d : Drive, d.disk = disk → ∀ s t (c : ScanCall), R s t → c.output d s = c.output d t)
    (hstep : ∀ d : Drive, d.disk = disk → ∀ s t (c : ScanCall), c.Named → R s t → Matches R (c.apply d s) (c.apply d t))
    (h0 : R s t) : SameResults disk s t :=
  fun d hd _ hnamed => observe_matches (hstep d hd) hout (houtput d hd) h0 hnamed

/-! ## Failing loads -/

/-- The sectors in front of the first read that fails. -/
theorem goodSectors_interrupted {d : Drive} {w n sectors : Nat} (hn : n < sectors)
    (hgood : ∀ k, w ≤ k → k < w + n → d.good k = true) (hbad : d.good (w + n) = false) :
    goodSectors d w sectors = n := by
  induction sectors generalizing w n with
  | zero => exact absurd hn (Nat.not_lt_zero n)
  | succ sectors ih =>
    rw [goodSectors]
    cases n with
    | zero => exact if_neg (by simp [show d.good w = false from hbad])
    | succ n =>
      have hrest := ih (w := w + 1) (n := n) (by omega) (fun k hk hk' => hgood k (by omega) (by omega))
        (by rwa [Nat.add_assoc, Nat.add_comm 1])
      rw [if_pos (hgood w (Nat.le_refl w) (by omega)), hrest]

/-- An opening of a directory that fails. -/
theorem openDirectory_interrupted {d : Drive} {s : FsState} (directory : File) (h4 : FourSectors s.fileSys)
    (hlt : goodSectors d s.waits 4 < 4) : openDirectory d s directory = .ok (false,
      { s with waits := s.waits + (goodSectors d s.waits 4 + 1) }.withBuffer
        (overwritten d.disk s.fileSys (directory.clusters 0) (goodSectors d s.waits 4) s.ClusterBuffer)) := by
  have hload := load_Cluster_withBuffer (d := d) h4 (directory.clusters 0) s.ClusterBuffer
  rw [decide_eq_false (Nat.ne_of_lt hlt), if_neg (Nat.ne_of_lt hlt), Nat.min_eq_left hlt] at hload
  rw [openDirectory, show load_Cluster d s (directory.clusters 0) = _ from hload]
  rfl

/-- What a failed opening of a directory leaves. -/
theorem openDirectory_failed {d : Drive} {s t : FsState} {directory : File} (h4 : FourSectors s.fileSys)
    (h : openDirectory d s directory = .ok (false, t)) :
    t = { s with waits := t.waits }.withBuffer (overwritten d.disk s.fileSys (directory.clusters 0)
      (goodSectors d s.waits 4) s.ClusterBuffer) := by
  by_cases hall : goodSectors d s.waits 4 = 4
  · rw [openDirectory_whole directory rfl h4.sectorsPerCluster hall] at h
    cases h
  · rw [openDirectory_interrupted directory h4 (Nat.lt_of_le_of_ne (goodSectors_le d s.waits 4) hall)] at h
    obtain rfl := (Prod.mk.inj (Except.ok.inj h)).2
    rfl

/-! ## Directories that are loaded again -/

/-- The two states differ in the cluster buffer, and the scans load it. -/
structure Reloads (s t : FsState) : Prop where
  fourSectors : FourSectors s.fileSys
  dirClusterIndex : s.dirClusterIndex ≠ 0
  eq : t = s.withBuffer t.ClusterBuffer
  outside : ∀ i : Int, i < 0 ∨ 2048 ≤ i → t.ClusterBuffer i = s.ClusterBuffer i

section Reload

variable {d : Drive} {s t : FsState}

/-- A whole load makes the two states one, and a failed one overwrites the same sectors of both. -/
theorem Reloads.loadFirst (h : Reloads s t) :
    (∃ u, loadFirst d s = .ok (true, u) ∧ loadFirst d t = .ok (true, u)) ∨
      ∃ u v, loadFirst d s = .ok (false, u) ∧ loadFirst d t = .ok (false, v) ∧ Reloads u v := by
  obtain ⟨h4, hidx, heq, hout⟩ := h
  generalize t.ClusterBuffer = b at heq hout
  subst heq
  have hload := fun b => load_Cluster_withBuffer (d := d) h4 (s.currentDir.clusters 0) b
  unfold SoreOS.loadFirst
  rw [if_pos hidx, if_pos (show (s.withBuffer b).dirClusterIndex ≠ 0 from hidx), withBuffer_currentDir, hload,
    show load_Cluster d s _ = _ from hload s.ClusterBuffer]
  generalize goodSectors d s.waits 4 = n
  by_cases hall : n = 4
  · subst hall
    have hsame : overwritten d.disk s.fileSys (s.currentDir.clusters 0) 4 b =
        overwritten d.disk s.fileSys (s.currentDir.clusters 0) 4 s.ClusterBuffer := by
      funext i
      rw [overwritten_apply, overwritten_apply]
      split
      · rfl
      · exact hout i (by omega)
    rw [hsame]
    exact .inl ⟨_, rfl, rfl⟩
  · rw [decide_eq_false hall]
    refine .inr ⟨_, _, rfl, rfl, h4, hidx, rfl, fun i hi => ?_⟩
    dsimp only
    rw [overwritten_apply, overwritten_apply, hout i hi]

theorem Reloads.scan {R : Type} (visit : Visit R) (h : Reloads s t) :
    scan d visit t = scan d visit s ∨
      ∃ u v, scan d visit s = .ok (none, u) ∧ scan d visit t = .ok (none, v) ∧ Reloads u v := by
  unfold SoreOS.scan
  obtain ⟨u, hs, ht⟩ | ⟨u, v, hs, ht, huv⟩ := h.loadFirst (d := d)
  · rw [hs, ht]
    exact .inl rfl
  · rw [hs, ht]
    exact .inr ⟨u, v, rfl, rfl, huv⟩

/-- Calls return the same from both states. -/
theorem Reloads.apply (h : Reloads s t) (c : ScanCall) :
    Matches (fun s t => t = s ∨ Reloads s t) (c.apply d s) (c.apply d t) := by
  cases c with
  | listFiles =>
    obtain heq | ⟨u, v, hs, ht, huv⟩ := h.scan (d := d) listVisit
    · exact .of_eq (fun _ => .inl rfl) (by rw [ScanCall.apply, ScanCall.apply, listFiles, listFiles, heq])
    · rw [ScanCall.apply, ScanCall.apply, listFiles, listFiles, hs, ht]
      exact .ok none (.inr huv)
  | findFile q file =>
    rw [ScanCall.apply, ScanCall.apply, findFile, findFile, findRecord, findRecord]
    by_cases hlen : q.length > 104
    · rw [if_pos hlen, if_pos hlen]
      exact .ok (some (-1, file)) (.inr h)
    · rw [if_neg hlen, if_neg hlen]
      obtain heq | ⟨u, v, hs, ht, huv⟩ := h.scan (d := d) (findVisit (searchTerm q))
      · exact .of_eq (fun _ => .inl rfl) (by rw [heq])
      · rw [hs, ht]
        exact .ok (some (-1, file)) (.inr huv)

/-- And print the same, if they return or not. -/
theorem Reloads.output (h : Reloads s t) (c : ScanCall) : c.output d s = c.output d t := by
  have hout : ∀ {s t : FsState}, Reloads s t → s.out = t.out := fun h => by
    rw [h.eq]
    rfl
  cases c with
  | listFiles =>
    rw [ScanCall.output, ScanCall.output, listOutput, listOutput]
    obtain ⟨u, hs, ht⟩ | ⟨u, v, hs, ht, huv⟩ := h.loadFirst (d := d)
    · rw [hs, ht]
    · rw [hs, ht]
      exact hout huv
  | findFile q file => exact hout h

theorem Reloads.sameResults {disk : Bytes} (h : Reloads s t) : SameResults disk s t := by
  refine sameResults_of_matches (R := fun s t => t = s ∨ Reloads s t) ?_ ?_ ?_ (.inr h)
  · rintro s t (rfl | h)
    · rfl
    · rw [h.eq]
      rfl
  · rintro d - s t c (rfl | h)
    · rfl
    · exact h.output c
  · rintro d - s t c - (rfl | h)
    · exact .of_eq (fun _ => .inl rfl) rfl
    · exact h.apply c

end Reload

/-! ## Buffers that are scanned alike -/

/-- The records of two buffers are alike, and a scan goes on behind both or none of them, if the
    directory has a second cluster. -/
structure ScansAlike (hdr : FAT32_HEADER) (currentDir : File) (b b' : Bytes) : Prop extends RecordsAlike hdr b b' where
  leaves : currentDir.clusters 1 ≠ END_OF_CHAIN → (clusterEnd b = .through ↔ clusterEnd b' = .through)

/-- Two buffers are scanned alike, also with the first sectors of the second cluster in them, if
    the scans go on to that. -/
def StayAlike (disk : Bytes) (hdr : FAT32_HEADER) (currentDir : File) (b b' : Bytes) : Prop :=
  ∀ n < 4, n = 0 ∨ (currentDir.clusters 1 ≠ END_OF_CHAIN ∧ clusterEnd b = .through) →
    ScansAlike hdr currentDir (overwritten disk hdr (currentDir.clusters 1) n b)
      (overwritten disk hdr (currentDir.clusters 1) n b')

section Stay

variable {disk : Bytes} {hdr : FAT32_HEADER} {currentDir : File} {b b' : Bytes}

theorem StayAlike.scansAlike (h : StayAlike disk hdr currentDir b b') : ScansAlike hdr currentDir b b' := by
  have h0 := h 0 (by decide) (.inl rfl)
  rwa [overwritten_zero, overwritten_zero] at h0

theorem StayAlike.overwritten (h : StayAlike disk hdr currentDir b b') (hmore : currentDir.clusters 1 ≠ END_OF_CHAIN)
    (hend : clusterEnd b = .through) {m : Nat} (hm : m < 4) :
    StayAlike disk hdr currentDir (overwritten disk hdr (currentDir.clusters 1) m b)
      (overwritten disk hdr (currentDir.clusters 1) m b') := by
  intro n hn _
  rw [overwritten_overwritten, overwritten_overwritten]
  exact h (max n m) (by omega) (.inr ⟨hmore, hend⟩)

end Stay

/-- The two states have the directory in the buffer, and their buffers are scanned alike. -/
structure Alike (disk : Bytes) (s t : FsState) : Prop where
  fourSectors : FourSectors s.fileSys
  dirClusterIndex : s.dirClusterIndex = 0
  eq : t = s.withBuffer t.ClusterBuffer
  stay : StayAlike disk s.fileSys s.currentDir s.ClusterBuffer t.ClusterBuffer

namespace Alike

variable {d : Drive} {s t : FsState}

theorem withOut (h : Alike d.disk s t) (out : List UInt8) :
    Alike d.disk { s with out := out } { t with out := out } := by
  obtain ⟨h4, hidx, heq, hstay⟩ := h
  refine ⟨h4, hidx, ?_, hstay⟩
  rw [heq]
  rfl

/-- A scan that goes on to the second cluster does so from both states. -/
theorem leaveFirst (h : Alike d.disk s t) (hmore : s.currentDir.clusters 1 ≠ END_OF_CHAIN)
    (hend : clusterEnd s.ClusterBuffer = .through) (r : Option (Int × File)) :
    Matches (Alike d.disk) ((fun u => (r, u)) <$> leaveFirst d s) ((fun u => (r, u)) <$> leaveFirst d t) := by
  obtain ⟨h4, hidx, heq, hstay⟩ := h
  generalize t.ClusterBuffer = b at heq hstay
  subst heq
  unfold SoreOS.leaveFirst
  rw [if_pos hmore, if_pos (show (s.withBuffer b).currentDir.clusters 1 ≠ END_OF_CHAIN from hmore), withBuffer_waits]
  have hle := goodSectors_le d s.waits 4
  generalize goodSectors d s.waits 4 = n at *
  by_cases hall : n = 4
  · rw [if_pos hall, if_pos hall]
    exact .error _ _
  · rw [if_neg hall, if_neg hall]
    exact .ok r ⟨h4, hidx, rfl, hstay.overwritten hmore hend (Nat.lt_of_le_of_ne hle hall)⟩

/-- So does one that ends. -/
theorem scanEnds (h : Alike d.disk s t) (c : ScanCall) :
    Matches (Alike d.disk)
      ((fun u => (c.missed, u)) <$>
        if c.scans = true ∧ clusterEnd s.ClusterBuffer = .through then SoreOS.leaveFirst d s else .ok s)
      ((fun u => (c.missed, u)) <$>
        if c.scans = true ∧ clusterEnd t.ClusterBuffer = .through then SoreOS.leaveFirst d t else .ok t) := by
  by_cases hmore : s.currentDir.clusters 1 = END_OF_CHAIN
  · -- there is no other cluster to go on to
    have hmore' : t.currentDir.clusters 1 = END_OF_CHAIN := by
      rw [h.eq]
      exact hmore
    have hleave : SoreOS.leaveFirst d s = .ok s := if_neg (not_not.mpr hmore)
    have hleave' : SoreOS.leaveFirst d t = .ok t := if_neg (not_not.mpr hmore')
    rw [hleave, hleave', ite_self, ite_self]
    exact .ok c.missed h
  · have hboth := and_congr_right_iff.mpr fun _ : c.scans = true => h.stay.scansAlike.leaves hmore
    by_cases hgo : c.scans = true ∧ clusterEnd s.ClusterBuffer = .through
    · rw [if_pos hgo, if_pos (hboth.mp hgo)]
      exact h.leaveFirst hmore hgo.2 c.missed
    · rw [if_neg hgo, if_neg fun hgo' => hgo (hboth.mpr hgo')]
      exact .ok c.missed h

/-- The cached FAT sector does not matter. -/
theorem fatFrame {u : FsState} (h : Alike d.disk s t) (hframe : FatFrame s u) :
    Alike d.disk u (u.withBuffer t.ClusterBuffer) := by
  rw [hframe.eq]
  exact ⟨h.fourSectors, h.dirClusterIndex, rfl, h.stay⟩

/-- Calls return the same from both states. -/
theorem apply (h : Alike d.disk s t) {c : ScanCall} (hc : c.Named) :
    Matches (Alike d.disk) (c.apply d s) (c.apply d t) := by
  have h4' : FourSectors t.fileSys := by rw [h.eq]; exact h.fourSectors
  have hidx' : t.dirClusterIndex = 0 := by rw [h.eq]; exact h.dirClusterIndex
  have hfs : t.fileSys = s.fileSys := by rw [h.eq]; rfl
  have hout : t.out = s.out := by rw [h.eq]; rfl
  have hrun := c.gives_reply (d := d) h.fourSectors h.dirClusterIndex
  have hrun' := c.gives_reply (d := d) h4' hidx'
  rw [hfs, ← (reply_iff _ _ _).mpr h.stay.scansAlike.toRecordsAlike c hc] at hrun'
  -- both buffers give the same reply
  generalize c.reply s.fileSys s.ClusterBuffer = r at hrun hrun'
  obtain ⟨printed, ending⟩ := r
  cases ending with
  | none =>
    obtain ⟨f, hf⟩ := hrun
    obtain ⟨f', hf'⟩ := hrun'
    rw [hf, hf']
    exact .error f f'
  | some found =>
    cases found with
    | some data =>
      -- the file is filled whatever the buffers hold
      obtain ⟨u, hwalk, hframe, hwalk'⟩ := walkFile_buffer d s data c.file
      have hwalkt : walkFile d t data c.file = .ok (filledFile d s data c.file, u.withBuffer t.ClusterBuffer) := by
        rw [h.eq]
        exact hwalk' t.ClusterBuffer
      rw [hrun.2, hrun'.2, hwalk, hwalkt]
      exact .ok (some (0, filledFile d s data c.file)) (h.fatFrame hframe)
    | none =>
      rw [show c.apply d s = _ from hrun, show c.apply d t = _ from hrun', hout]
      exact (h.withOut (s.out ++ printed)).scanEnds c

/-- And print the same, if they return or not. -/
theorem output (h : Alike d.disk s t) (c : ScanCall) : c.output d s = c.output d t := by
  have hlisting := h.stay.scansAlike.listing
  have h4' : FourSectors t.fileSys := by rw [h.eq]; exact h.fourSectors
  have hidx' : t.dirClusterIndex = 0 := by rw [h.eq]; exact h.dirClusterIndex
  have hout : t.out = s.out := by rw [h.eq]; rfl
  rw [output_reply h.fourSectors h.dirClusterIndex, output_reply h4' hidx', hout]
  cases c with
  | listFiles => rw [ScanCall.reply, ScanCall.reply, hlisting]
  | findFile q file => rfl

theorem sameResults (h : Alike d.disk s t) : SameResults d.disk s t := by
  refine sameResults_of_matches (R := Alike d.disk) (fun s t h => ?_) ?_ ?_ h
  · rw [h.eq]
    rfl
  · intro d' hd s t c h
    rw [← hd] at h
    exact h.output c
  · intro d' hd s t c hc h
    rw [← hd] at h ⊢
    exact h.apply hc

end Alike

/-! ## Telling two buffers apart -/

/-- A drive that answers every wait as it is told. -/
def answering (disk : Bytes) (answer : Nat → Bool) : Drive where
  disk := disk
  wait := fun n => if answer n then .good else .bad
  identifyStatus := [0x08, 0x08]

theorem answering_good (disk : Bytes) (answer : Nat → Bool) (n : Nat) :
    (answering disk answer).good n = answer n := by
  rw [Drive.good, Drive.status_eq]
  show noError (if answer n then _ else _ : Wait).ready = _
  cases answer n <;> decide

theorem ScanCall.missed_ne (c : ScanCall) (file : File) : c.missed ≠ some (0, file) := by
  cases c <;> simp [missed]

theorem clusterEnd_through_iff (b : Bytes) :
    clusterEnd b = .through ↔ (clusterEnd b).faults = false ∧ clusterEnd b ≠ .stops := by
  cases clusterEnd b <;> simp [ScanEnd.faults]

section Apart

variable {d : Drive} {s : FsState} {b : Bytes} {c : ScanCall} (h4 : FourSectors s.fileSys) (hidx : s.dirClusterIndex = 0)
include h4 hidx

/-- If the next read fails, all that is observed of a call is its reply. -/
theorem observed_bad (hbad : d.good s.waits = false) (c : ScanCall) :
    observed d s [c] = ([(c.reply s.fileSys s.ClusterBuffer).2.map (c.result d s)],
      s.out ++ (c.reply s.fileSys s.ClusterBuffer).1) := by
  have hrun := c.gives_reply (d := d) h4 hidx
  rw [observed_single, output_reply h4 hidx]
  generalize c.reply s.fileSys s.ClusterBuffer = r at hrun
  obtain ⟨printed, ending⟩ := r
  cases ending with
  | none =>
    obtain ⟨f, hf⟩ := hrun
    rw [hf]
    rfl
  | some found =>
    cases found with
    | some data =>
      obtain ⟨u, hwalk, -, -⟩ := walkFile_buffer d s data c.file
      rw [hrun.2, hwalk]
      rfl
    | none =>
      have hnone : goodSectors d s.waits 4 = 0 := by rw [goodSectors, if_neg (by simp [hbad])]
      -- a scan that goes on ends with the failed load
      have hleave : ∃ u, leaveFirst d { s with out := s.out ++ printed } = .ok u := by
        unfold leaveFirst
        split
        · exact ⟨_, if_neg (by dsimp only; rw [hnone]; decide)⟩
        · exact ⟨_, rfl⟩
      obtain ⟨u, hu⟩ := hleave
      rw [show c.apply d s = _ from hrun]
      split
      · rw [hu]
        rfl
      · rfl

omit h4 hidx in
/-- Calls with different replies return different things. -/
theorem ScanCall.result_inj : Function.Injective (c.result d s) := by
  intro found found' h
  cases found with
  | none =>
    cases found' with
    | none => rfl
    | some data' => exact absurd h (c.missed_ne _)
  | some data =>
    cases found' with
    | none => exact absurd h.symm (c.missed_ne _)
    | some data' =>
      have hfile : filledFile d s data c.file = filledFile d s data' c.file := by simpa [result] using h
      rw [filledFile_inj hfile]

/-- So calls that are observed alike have the same reply. -/
theorem reply_of_observed (hbad : d.good s.waits = false) (hsame : observed d s [c] = observed d (s.withBuffer b) [c]) :
    c.reply s.fileSys s.ClusterBuffer = c.reply s.fileSys b := by
  have hresult : c.result d (s.withBuffer b) = c.result d s := by
    funext found
    cases found with
    | none => rfl
    | some data => rw [ScanCall.result, ScanCall.result, filledFile_withBuffer]
  rw [observed_bad h4 hidx hbad, observed_bad (s := s.withBuffer b) h4 hidx hbad, hresult] at hsame
  obtain ⟨hreturned, hprinted⟩ := Prod.mk.inj hsame
  exact Prod.ext (List.append_cancel_left hprinted)
    (Option.map_injective ScanCall.result_inj (List.cons.inj hreturned).1)

/-- If all reads succeed, a listing does not return if it goes on to a second cluster. -/
theorem observed_good (hmore : s.currentDir.clusters 1 ≠ END_OF_CHAIN) (hgood : ∀ n, s.waits ≤ n → d.good n = true) :
    (observed d s [.listFiles]).1 = [none] ↔ clusterEnd s.ClusterBuffer ≠ .stops := by
  have hrun := listFiles_gives (d := d) h4 hidx
  rw [ScanCall.reply] at hrun
  rw [observed_single]
  cases hend : clusterEnd s.ClusterBuffer with
  | fault f =>
    rw [hend] at hrun
    obtain ⟨f', hf'⟩ := hrun
    rw [hf']
    exact iff_of_true rfl (by simp)
  | stops =>
    rw [hend] at hrun
    have hrun : ScanCall.listFiles.apply d s = _ := hrun
    rw [if_neg fun hgo => absurd (hend.symm.trans hgo.2) (by decide)] at hrun
    rw [hrun]
    exact iff_of_false (by simp [Except.toOption]) (not_not.mpr rfl)
  | through =>
    rw [hend] at hrun
    have hrun : ScanCall.listFiles.apply d s = _ := hrun
    -- the whole second cluster is read, and the scan goes on behind the buffer
    have hall : goodSectors d s.waits 4 = 4 := goodSectors_eq hgood 4
    rw [if_pos ⟨rfl, hend⟩, leaveFirst, if_pos hmore, if_pos hall] at hrun
    rw [hrun]
    exact iff_of_true rfl (by decide)

/-- Single calls tell whether the buffers are scanned alike, with a drive that fails from then on
    and one that does not. -/
theorem scansAlike_of_observed (hsame : ∀ g : Bool, ∃ d : Drive, (∀ n, s.waits ≤ n → d.good n = g) ∧
      ∀ c : ScanCall, c.Named → observed d s [c] = observed d (s.withBuffer b) [c]) :
    ScansAlike s.fileSys s.currentDir s.ClusterBuffer b := by
  obtain ⟨d, hbad, hd⟩ := hsame false
  obtain ⟨d', hgood, hd'⟩ := hsame true
  have hrecords : RecordsAlike s.fileSys s.ClusterBuffer b := (reply_iff _ _ _).mp fun c hc =>
    reply_of_observed h4 hidx (hbad s.waits (Nat.le_refl _)) (hd c hc)
  refine ⟨hrecords, fun hmore => ?_⟩
  have hs := observed_good h4 hidx hmore hgood
  have ht := observed_good (s := s.withBuffer b) h4 hidx hmore hgood
  rw [← hd' .listFiles trivial, hs] at ht
  rw [clusterEnd_through_iff, clusterEnd_through_iff, hrecords.faults, ht]
  rfl

/-- A listing that goes on to a second cluster, of which `n` sectors are read before a read fails. -/
theorem listFiles_interrupted (hmore : s.currentDir.clusters 1 ≠ END_OF_CHAIN)
    (hend : clusterEnd s.ClusterBuffer = .through) {n : Nat} (hn : n < 4) (hsectors : goodSectors d s.waits 4 = n) :
    ScanCall.listFiles.apply d s = .ok (none, { s with
      out := s.out ++ clusterListing s.ClusterBuffer
      ClusterBuffer := overwritten d.disk s.fileSys (s.currentDir.clusters 1) n s.ClusterBuffer
      waits := s.waits + (n + 1) }) := by
  have hrun := listFiles_gives (d := d) h4 hidx
  rw [ScanCall.reply, hend] at hrun
  rw [show ScanCall.listFiles.apply d s = _ from hrun, if_pos ⟨rfl, hend⟩, leaveFirst, if_pos hmore]
  dsimp only
  rw [hsectors, if_neg (Nat.ne_of_lt hn), Nat.min_eq_left hn]
  rfl

/-- Whole runs tell whether the buffers stay alike. -/
theorem stayAlike_of_sameResults {disk : Bytes} (hsame : SameResults disk s (s.withBuffer b)) :
    StayAlike disk s.fileSys s.currentDir s.ClusterBuffer b := by
  have h0 : ScansAlike s.fileSys s.currentDir s.ClusterBuffer b := scansAlike_of_observed h4 hidx fun g =>
    ⟨answering disk fun _ => g, fun n _ => answering_good _ _ n, fun c hc => hsame _ rfl [c] (by simpa using hc)⟩
  intro n hn hor
  by_cases hn0 : n = 0
  · rw [hn0, overwritten_zero, overwritten_zero]
    exact h0
  obtain ⟨hmore, hend⟩ := hor.resolve_left hn0
  have hend' : clusterEnd b = .through := (h0.leaves hmore).mp hend
  have hlisting := h0.listing
  -- a listing leaves `n` sectors of the second cluster in both buffers
  refine scansAlike_of_observed (s := { s with
    out := s.out ++ clusterListing s.ClusterBuffer
    ClusterBuffer := overwritten disk s.fileSys (s.currentDir.clusters 1) n s.ClusterBuffer
    waits := s.waits + (n + 1) }) h4 hidx fun g => ?_
  have hanswer : ∀ k, (answering disk fun k => decide (k < s.waits + n) || (g && decide (s.waits + n < k))).good k =
      (decide (k < s.waits + n) || (g && decide (s.waits + n < k))) := answering_good _ _
  generalize hd : (answering disk fun k => decide (k < s.waits + n) || (g && decide (s.waits + n < k))) = d at hanswer
  obtain rfl : d.disk = disk := by rw [← hd]; rfl
  refine ⟨d, fun k hk => ?_, fun c hc => ?_⟩
  · dsimp only at hk
    rw [hanswer, decide_eq_false (by omega), decide_eq_true (by omega), Bool.and_true, Bool.false_or]
  · have hsectors : goodSectors d s.waits 4 = n := by
      refine goodSectors_interrupted hn (fun k _ hk => ?_) ?_
      · rw [hanswer, decide_eq_true hk, Bool.true_or]
      · rw [hanswer, decide_eq_false (Nat.lt_irrefl _), Bool.and_false, Bool.or_false]
    have hrun := listFiles_interrupted h4 hidx hmore hend hn hsectors
    have hrun' := listFiles_interrupted (s := s.withBuffer b) h4 hidx hmore hend' hn hsectors
    have hcalls := hsame d rfl [.listFiles, c] (by simpa [ScanCall.Named] using hc)
    rw [observed, observed, observe_ok hrun, observe_ok hrun'] at hcalls
    obtain ⟨hreturned, hprinted⟩ := Prod.mk.inj hcalls
    rw [hlisting] at hreturned hprinted ⊢
    exact Prod.ext (List.cons.inj hreturned).2 hprinted

end Apart

/-- After a failed opening, calls return and print the same as without it exactly if the directory
    is loaded again, or is scanned alike with the sectors in it that were read. -/
theorem failedOpen_sameResults_iff {d : Drive} {s t : FsState} {directory : File} (h4 : FourSectors s.fileSys)
    (hfail : openDirectory d s directory = .ok (false, t)) :
    SameResults d.disk { s with waits := t.waits } t ↔
      s.dirClusterIndex ≠ 0 ∨ StayAlike d.disk s.fileSys s.currentDir s.ClusterBuffer
        (overwritten d.disk s.fileSys (directory.clusters 0) (goodSectors d s.waits 4) s.ClusterBuffer) := by
  have heq := openDirectory_failed h4 hfail
  generalize t.waits = w at heq ⊢
  subst heq
  constructor
  · intro hsame
    by_cases hidx : s.dirClusterIndex = 0
    · exact .inr (stayAlike_of_sameResults (s := { s with waits := w }) h4 hidx hsame)
    · exact .inl hidx
  · intro hor
    by_cases hidx : s.dirClusterIndex = 0
    · have hstay := hor.resolve_left (not_not.mpr hidx)
      exact Alike.sameResults (s := { s with waits := w }) ⟨h4, hidx, rfl, hstay⟩
    · refine Reloads.sameResults (s := { s with waits := w }) ⟨h4, hidx, rfl, fun i hi => ?_⟩
      have hle := goodSectors_le d s.waits 4
      rw [withBuffer_ClusterBuffer, overwritten_apply, if_neg (by omega)]

/-! ## A directory that is overwritten -/

/-- A volume whose root directory has one cluster is loaded by the first six reads. -/
theorem loadFileSystem_sixReads {d : Drive} (hid : identify d = some true) (hgood : ∀ n < 6, d.good n = true)
    (hl : StandardLayout (volumeHeader d.disk)) (hchain : FatChain d.disk (volumeHeader d.disk) [2]) :
    ∃ s, loadFileSystem d .boot = some (.ok (true, s)) ∧ Booted d [] s ∧ s.waits = 6 := by
  have hcached : FatCached d { FsState.boot with waits := 1, fileSys := volumeHeader d.disk } :=
    CacheOk.fatCached fun hne => absurd rfl hne
  have hwalk : fatWalk d 1 (-1) [2] = (1, 1) := by simp [fatWalk, hgood 1]
  obtain ⟨t, hreach, hframe, hct, hidx, -, hreads⟩ | ⟨-, hfail⟩ := reachFATSect_walk hcached 2 []
  · have hfs : t.fileSys = volumeHeader d.disk := by rw [hframe.eq]
    have hwaits : t.waits = 2 := by
      have hw : 1 + (fatWalk d 1 (-1) [2]).2 = t.waits + 0 := hreads
      rw [hwalk] at hw
      exact hw.symm
    have hnext := next_cached (hfs ▸ hl) hct two_valid hidx (hfs ▸ hchain.2) (by decide)
    -- the entry of cluster 2 ends the walk
    have hrun : traverseFAT d { FsState.boot with waits := 1, fileSys := volumeHeader d.disk } (2 : Nat)
        FsState.boot.currentDir.clusters =
        .ok (true, (FsState.boot.currentDir.clusters.set 0 (2 : Nat)).set 1 (0x0FFFFFFF : Nat), t) := by
      rw [traverseFAT, traverseFATLoop, Int.sub_self, Mem.set_same, if_neg two_valid.ne_END_OF_CHAIN, hreach, ok_bind]
      dsimp only
      rw [if_pos rfl, hnext, traverseFATLoop, if_pos (by rfl)]
      rfl
    have hlists : Lists ((FsState.boot.currentDir.clusters.set 0 (2 : Nat)).set 1 (0x0FFFFFFF : Nat)) 0 [2] := by
      refine ⟨fun k hk => ?_, fun _ => rfl⟩
      obtain rfl : k = 0 := Nat.lt_one_iff.mp hk
      rfl
    obtain ⟨s, hload, hboot, hw⟩ := loadFileSystem_reads hid (hgood 0 (by decide)) hl hrun hframe hlists
      (goodSectors_all fun k hk hk' => hgood k (by omega))
    exact ⟨s, hload, hboot, by rw [hw, hwaits]⟩
  · exact absurd (hwalk.symm.trans hfail) (by decide)

/-- The volume with the two directories, on a drive that fails from the eighth read on. -/
def interruptedDrive : Drive := answering subDisk fun n => decide (n < 7)

/-- The subdirectory of the volume. -/
def subDirectory : File := { type := FTYPE_DIRECTORY, clusters := fun _ => 3 }

/-- The root directory is opened, and the subdirectory is not: its second sector cannot be read. -/
theorem interruptedDrive_opens : ∃ s, loadFileSystem interruptedDrive .boot = some (.ok (true, s)) ∧
    Booted interruptedDrive [] s ∧ s.fileSys = defaultHeader ∧
    openDirectory interruptedDrive s subDirectory = .ok (false,
      { s with waits := 8 }.withBuffer (overwritten subDisk s.fileSys 3 1 s.ClusterBuffer)) := by
  have hhdr : volumeHeader interruptedDrive.disk = defaultHeader := volumeHeader_subDisk
  obtain ⟨s, hload, hboot, hwaits⟩ := loadFileSystem_sixReads (d := interruptedDrive) rfl
    (fun n hn => (answering_good _ _ n).trans (decide_eq_true (by omega))) (hhdr ▸ defaultHeader_layout)
    (hhdr ▸ subDisk_root)
  have hfs : s.fileSys = defaultHeader := hboot.fileSys.trans hhdr
  have h4 : FourSectors s.fileSys := by
    rw [hfs]
    exact ⟨by decide, by decide⟩
  have hsectors : goodSectors interruptedDrive s.waits 4 = 1 := by
    rw [hwaits]
    exact goodSectors_interrupted (by decide)
      (fun k _ hk => (answering_good _ _ k).trans (decide_eq_true (by omega)))
      ((answering_good _ _ _).trans (by decide))
  have hopen := openDirectory_interrupted subDirectory h4 (by rw [hsectors]; decide)
  rw [hsectors, hwaits] at hopen
  exact ⟨s, hload, hboot, hfs, hopen⟩

/-- The failed opening of the subdirectory. -/
theorem failedOpen_sameResults_iff_sub : ∃ s t, loadFileSystem interruptedDrive .boot = some (.ok (true, s)) ∧
    openDirectory interruptedDrive s subDirectory = .ok (false, t) ∧
    (SameResults interruptedDrive.disk { s with waits := t.waits } t ↔
      s.dirClusterIndex ≠ 0 ∨ StayAlike interruptedDrive.disk s.fileSys s.currentDir s.ClusterBuffer
        (overwritten interruptedDrive.disk s.fileSys (subDirectory.clusters 0) (goodSectors interruptedDrive s.waits 4)
          s.ClusterBuffer)) := by
  obtain ⟨s, hload, -, hfs, hopen⟩ := interruptedDrive_opens
  have h4 : FourSectors s.fileSys := by
    rw [hfs]
    exact ⟨by decide, by decide⟩
  exact ⟨s, _, hload, hopen, failedOpen_sameResults_iff h4 hopen⟩

/-- Listing the root directory then shows the entries of the subdirectory. -/
theorem not_failedOpen_sameResults : ∃ s t, loadFileSystem interruptedDrive .boot = some (.ok (true, s)) ∧
    openDirectory interruptedDrive s subDirectory = .ok (false, t) ∧
    ¬ SameResults interruptedDrive.disk { s with waits := t.waits } t := by
  have hhdr : volumeHeader interruptedDrive.disk = defaultHeader := volumeHeader_subDisk
  have hl : StandardLayout (volumeHeader interruptedDrive.disk) := hhdr ▸ defaultHeader_layout
  have hdisk : subTree.OnDisk interruptedDrive.disk (volumeHeader interruptedDrive.disk) := hhdr ▸ subTree_onDisk
  obtain ⟨s, hload, hboot, hfs, hopen⟩ := interruptedDrive_opens
  have hopened : Opened interruptedDrive s 2 :=
    ⟨hboot.fileSys, hboot.root.cluster 0 (Nat.succ_pos _), hboot.dirClusterIndex, hboot.ClusterSecIdx, hboot.buffer⟩
  refine ⟨s, _, hload, hopen, fun hsame => ?_⟩
  have hroot : DirectoryLoads interruptedDrive { s with waits := 8 } { s with waits := 8 } (subTree.entries 2) :=
    Opened.directoryLoads ⟨hopened.fileSys, hopened.currentDir, hopened.dirClusterIndex, hopened.ClusterSecIdx,
      hopened.buffer⟩ hdisk hl (.inl rfl)
  -- the entries of the subdirectory lie in its first sector
  have hsub : DirectoryLoads interruptedDrive
      ({ s with waits := 8 }.withBuffer (overwritten subDisk s.fileSys 3 1 s.ClusterBuffer))
      ({ s with waits := 8 }.withBuffer (overwritten subDisk s.fileSys 3 1 s.ClusterBuffer)) (subTree.entries 3) := by
    have hthree : recordCount (subTree.entries 3) = 3 := by decide
    have hbytes : clusterBytes s.fileSys = 2048 := by rw [hfs]; decide
    have hbase : clusterBase s.fileSys 3 = _ :=
      clusterBase_valid (hopened.fileSys ▸ hl) (hdisk.valid 3 (.inr rfl))
    refine ⟨if_neg (not_not.mpr hboot.dirClusterIndex), ?_, ?_, Int.le_of_eq hbytes⟩
    · refine (hdisk.holds 3 (.inr rfl)).congr fun i hi hi' => ?_
      rw [hthree] at hi'
      rw [withBuffer_ClusterBuffer, overwritten_apply, if_pos ⟨hi, by omega⟩, hbase, ← hopened.fileSys]
      rfl
    · rw [hthree, withBuffer_fileSys, hbytes]
      decide
  obtain ⟨u, hlist, hout⟩ := listFiles_holds hroot
  obtain ⟨v, hlist', hout'⟩ := listFiles_holds hsub
  have hrun : ScanCall.listFiles.apply interruptedDrive { s with waits := 8 } = .ok (none, u) := by
    rw [ScanCall.apply, hlist]
    rfl
  have hrun' : ScanCall.listFiles.apply interruptedDrive
      ({ s with waits := 8 }.withBuffer (overwritten subDisk s.fileSys 3 1 s.ClusterBuffer)) = .ok (none, v) := by
    rw [ScanCall.apply, hlist']
    rfl
  have hcalls : observed interruptedDrive { s with waits := 8 } [.listFiles] = _ :=
    hsame interruptedDrive rfl [.listFiles] (by simp [ScanCall.Named])
  have hprinted : u.out = v.out := by
    rw [observed, observed, observe_ok hrun, observe_ok hrun'] at hcalls
    exact (Prod.mk.inj hcalls).2
  rw [hout, hout'] at hprinted
  exact absurd (List.append_cancel_left hprinted) (by decide)

end SoreOS
