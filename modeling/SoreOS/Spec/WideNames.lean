import SoreOS.Spec.ClusterScan
import SoreOS.Spec.FilledFile
import SoreOS.Spec.Shell

/-!
# Long names of up to 255 characters

Directories of files with any long names of the VFAT rules: up to 255 characters of 16
bits in up to 20 pieces. The driver reads characters of one byte and names of at most 8
pieces; a name of more pieces ends a search or is stored outside the name buffer, and
with it go the files behind it.

## Key results

- `clusterScan_wide`: what a scan comes to in such a directory
- `findFile_wide`: what a search returns and fills
- `unchanged_iff`: when a search does not notice a file that was inserted
- `not_unchanged`: a file that is hidden by one in front of it
-/

namespace SoreOS

open ForStd

/-! ## The rules -/

/-- A file with a long name, with no characters if it has none, and its short entry. -/
structure WideFile where
  long : List UInt16
  entry : LiveFile
  long_length : long.length ≤ 255
  long_chars : 0 ∉ long
  entry_long : entry.long = []

/-- What a directory is built from. -/
inductive WideEntry where
  | deleted
  | live (f : WideFile)

/-- The number of pieces of a long name. -/
def widePieces (name : List UInt16) : Nat := (name.length + 12) / 13

/-- The two bytes of the character at a position of a long name: behind the name its
    terminator, and padding behind that. -/
def wideWord (name : List UInt16) (p : Nat) : UInt8 × UInt8 :=
  if p < name.length then ((name.getD p 0).toUInt8, (name.getD p 0 >>> 8).toUInt8)
  else if p = name.length then (0, 0) else (0xFF, 0xFF)

/-- A record is the `j`th piece of a long name. -/
structure IsWidePiece (r : Bytes) (name : List UInt16) (j : Nat) : Prop where
  number : r 0 = UInt8.ofNat j ||| (if j = widePieces name then 0x40 else 0)
  attrib : attrib r = 0x0F
  chars : ∀ i < 13, (r (charOffset i), r (charOffset i + 1)) = wideWord name (13 * (j - 1) + i)

/-- From its `k`th record on, a cluster holds the entries, and behind them a zero record or
    its end. -/
def WideHolds (buf : Bytes) : Nat → List WideEntry → Prop
  | k, [] => k = 64 ∨ buf (32 * k) = 0
  | k, .deleted :: es => buf (32 * k) = 0xE5 ∧ WideHolds buf (k + 1) es
  | k, .live f :: es =>
    (∀ j < widePieces f.long,
      IsWidePiece (subBuffer buf (32 * (k + j : Nat))) f.long (widePieces f.long - j)) ∧
    IsShort (subBuffer buf (32 * (k + widePieces f.long : Nat))) f.entry ∧
    WideHolds buf (k + widePieces f.long + 1) es

/-- The number of records of the entries. -/
def wideCount : List WideEntry → Nat
  | [] => 0
  | .deleted :: es => 1 + wideCount es
  | .live f :: es => widePieces f.long + 1 + wideCount es

/-! ## What the driver reads of a long name -/

/-- A character as the driver reads it: one of more than one byte is a zero. -/
def narrow (c : UInt16) : UInt8 := if (c >>> 8).toUInt8 = 0 then c.toUInt8 else 0

/-- The long name that the driver reads. -/
def WideFile.seen (f : WideFile) : List UInt8 := (f.long.map narrow).takeWhile (· ≠ 0)

/-- A file answers to a search term. -/
def WideFile.Answers (f : WideFile) (term : List UInt8) : Prop :=
  f.entry.raw = term ∨ (f.seen ≠ [] ∧ f.seen = term)

instance (f : WideFile) (term : List UInt8) : Decidable (f.Answers term) := inferInstanceAs (Decidable (_ ∨ _))

/-- The names of a file: its long name, its raw short name and that name for display. -/
def WideFile.names (f : WideFile) : List (List UInt16) :=
  (if f.long = [] then [] else [f.long]) ++
    [f.entry.raw.map (·.toUInt16), (display f.entry.raw).map (·.toUInt16)]

/-- What a search comes to: a file that answers, no such file, or a piece that is stored
    outside the name buffer. A name of up to 8 pieces is read, one of up to 16 does not fit
    the buffer, and the first piece of a longer one has a number that is not expected. -/
inductive WideSearch where
  | found (f : WideFile)
  | absent
  | fault

def wideSearch (term : List UInt8) : List WideEntry → WideSearch
  | [] => .absent
  | .deleted :: es => wideSearch term es
  | .live f :: es =>
    if widePieces f.long ≤ 8 then if f.Answers term then .found f else wideSearch term es
    else if widePieces f.long ≤ 16 then .fault
    else .absent

/-- A search goes past the entries: no file answers, and all names are read. -/
def Passes (term : List UInt8) : List WideEntry → Prop
  | [] => True
  | .deleted :: es => Passes term es
  | .live f :: es => widePieces f.long ≤ 8 ∧ ¬ f.Answers term ∧ Passes term es

theorem wideSearch_append_pass {term : List UInt8} {es : List WideEntry} (h : Passes term es) (es' : List WideEntry) :
    wideSearch term (es ++ es') = wideSearch term es' := by
  induction es with
  | nil => rfl
  | cons e es ih =>
    cases e with
    | deleted => exact ih h
    | live f =>
      rw [List.cons_append, wideSearch, if_pos h.1, if_neg h.2.1]
      exact ih h.2.2

/-- A search that does not go past the entries does not see what is behind them. -/
theorem wideSearch_append_stop {term : List UInt8} {es : List WideEntry} (h : ¬ Passes term es) (es' : List WideEntry) :
    wideSearch term (es ++ es') = wideSearch term es := by
  induction es with
  | nil => exact absurd trivial h
  | cons e es ih =>
    cases e with
    | deleted => exact ih h
    | live f =>
      rw [List.cons_append, wideSearch, wideSearch]
      by_cases hle : widePieces f.long ≤ 8
      · rw [if_pos hle, if_pos hle]
        by_cases hf : f.Answers term
        · rw [if_pos hf, if_pos hf]
        · rw [if_neg hf, if_neg hf]
          exact ih fun hes => h ⟨hle, hf, hes⟩
      · rw [if_neg hle, if_neg hle]

theorem wideCount_append (es es' : List WideEntry) : wideCount (es ++ es') = wideCount es + wideCount es' := by
  induction es with
  | nil => exact (Nat.zero_add _).symm
  | cons e es ih =>
    cases e with
    | deleted => rw [List.cons_append, wideCount, wideCount, ih, Nat.add_assoc]
    | live f => rw [List.cons_append, wideCount, wideCount, ih, Nat.add_assoc (widePieces f.long + 1)]

theorem widePieces_le (f : WideFile) : widePieces f.long ≤ 20 := by
  have := f.long_length
  unfold widePieces
  omega

/-! ## Pieces -/

/-- A character is read as the driver reads it, the terminator and the padding as zeros. -/
theorem IsWidePiece.LFNChar {r : Bytes} {name : List UInt16} {j : Nat} (h : IsWidePiece r name j) {i : Nat}
    (hi : i < 13) : LFNChar r (charOffset i) = (name.map narrow).getD (13 * (j - 1) + i) 0 := by
  have hword := h.chars i hi
  have hzero : narrow 0 = 0 := by decide
  have hmap := List.getD_map (l := name) (d := 0) (n := 13 * (j - 1) + i) narrow
  rw [hzero] at hmap
  rw [hmap]
  unfold SoreOS.LFNChar
  unfold wideWord at hword
  split at hword
  · obtain ⟨hlow, hhigh⟩ := Prod.mk.inj hword
    rw [hhigh, hlow, narrow]
  · rename_i hout
    rw [List.getD_eq_default name 0 (by omega), hzero]
    split at hword
    · obtain ⟨hlow, hhigh⟩ := Prod.mk.inj hword
      rw [hhigh, hlow, if_pos rfl]
    · obtain ⟨hlow, hhigh⟩ := Prod.mk.inj hword
      rw [hhigh, if_neg (by decide)]

/-- What the scan reads from the number of a piece of a name with up to 8. -/
theorem IsWidePiece.number_cases {r : Bytes} {name : List UInt16} {j : Nat} (h : IsWidePiece r name j)
    (hpos : 0 < j) (hle : j ≤ 8) : r 0 ≠ 0 ∧ r 0 ≠ 0xE5 ∧ (r 0 &&& 0x0F).toNat = j ∧
      ((r 0 &&& 0xF0 = 0x40) ↔ j = widePieces name) := by
  have hall : ∀ j : Fin 9, 0 < j.val → ∀ last : Bool,
      let b := UInt8.ofNat j ||| (if last then 0x40 else 0)
      b ≠ 0 ∧ b ≠ 0xE5 ∧ (b &&& 0x0F).toNat = j ∧ (b &&& 0xF0 = 0x40 ↔ last = true) := by decide
  have := hall ⟨j, by omega⟩ hpos (decide (j = widePieces name))
  rw [h.number]
  simpa using this

/-- What it reads from the number of the first piece of a longer name. -/
theorem IsWidePiece.first_cases {r : Bytes} {name : List UInt16} (h : IsWidePiece r name (widePieces name))
    (hgt : 8 < widePieces name) (hle : widePieces name ≤ 20) : r 0 ≠ 0 ∧ r 0 ≠ 0xE5 ∧
      (widePieces name ≤ 16 → (r 0 &&& 0x0F).toNat = expectedIdx (r 0) 0 ∧
        (expectedIdx (r 0) 0 < 1 ∨ 8 < expectedIdx (r 0) 0)) ∧
      (16 < widePieces name → (r 0 &&& 0x0F).toNat ≠ expectedIdx (r 0) 0) := by
  have hall : ∀ j : Fin 21, 8 < j.val →
      let b := UInt8.ofNat j ||| 0x40
      b ≠ 0 ∧ b ≠ 0xE5 ∧ (j.val ≤ 16 → ((b &&& 0x0F).toNat : Int) = expectedIdx b 0 ∧
        (expectedIdx b 0 < 1 ∨ 8 < expectedIdx b 0)) ∧
      (16 < j.val → ((b &&& 0x0F).toNat : Int) ≠ expectedIdx b 0) := by decide
  have hnumber := h.number
  rw [if_pos rfl] at hnumber
  rw [hnumber]
  exact hall ⟨widePieces name, by omega⟩ hgt

section Scan

variable {buf : Bytes} {longName : Bytes}

/-- The pieces of a name that is read, in descending order. -/
theorem clusterScan_pieces {name : List UInt16} (hle : widePieces name ≤ 8) (n j : Nat)
    {k : Nat} {idx : Int} (hj : j ≤ widePieces name) (hidx : j = widePieces name ∨ idx = j)
    (hpieces : ∀ i < j, IsWidePiece (subBuffer buf (32 * (k + i : Nat))) name (j - i))
    (hname : HoldsName longName (name.map narrow) j) :
    ∃ longName', HoldsName longName' (name.map narrow) 0 ∧
      clusterScan buf (n + j) k idx longName = clusterScan buf n (k + j) (if j = 0 then idx else 0) longName' := by
  induction j generalizing k idx longName with
  | zero => exact ⟨longName, hname, rfl⟩
  | succ j ih =>
    have hpiece : IsWidePiece (subBuffer buf (32 * k)) name (j + 1) := hpieces 0 (Nat.succ_pos j)
    obtain ⟨h0, hdel, hnumber, hmark⟩ := hpiece.number_cases (by omega) (by omega)
    rw [subBuffer, Int.add_zero] at h0 hdel hnumber hmark
    have hlfn : isLFN (subBuffer buf (32 * k)) = true := by
      rw [isLFN, hpiece.attrib]
      rfl
    -- the mark on the first piece or the piece before set the expected number
    have hexp : expectedIdx (buf (32 * k)) idx = (j : Int) + 1 := by
      unfold expectedIdx
      split
      · rw [hnumber]
        push_cast
        rfl
      · rename_i hno
        obtain hlast | hidx := hidx
        · exact absurd (hmark.mpr hlast) hno
        · rw [hidx]
          push_cast
          rfl
    have hlen13 : (LFN_idxs.length : Int) = 13 := rfl
    have hread : HoldsName (withPiece (subBuffer buf (32 * k)) LFN_idxs (13 * j) longName) (name.map narrow) j :=
      hname.read fun i hi => by rw [hpiece.LFNChar hi, Nat.add_sub_cancel]
    obtain ⟨longName', hname', hrun⟩ := @ih _ (k + 1) j (by omega) (.inr rfl)
      (fun i hi => by
        have := hpieces (i + 1) (by omega)
        rwa [show k + (i + 1) = k + 1 + i from by omega, show j + 1 - (i + 1) = j - i from by omega] at this)
      hread
    refine ⟨longName', hname', ?_⟩
    rw [← Nat.add_assoc, clusterScan]
    dsimp only
    rw [if_neg h0, if_neg hdel, if_pos hlfn, hexp, if_pos (by rw [hnumber]; push_cast; rfl), Int.add_sub_cancel,
      Int.mul_comm (j : Int) 13, readLFN_ok _ _ _ (by omega) (by omega)]
    dsimp only
    rw [hrun, if_neg (Nat.succ_ne_zero j), show k + (j + 1) = k + 1 + j from by omega]
    split
    · rename_i hzero
      rw [hzero]
      rfl
    · rfl

/-- The first piece of a longer name ends the scan. -/
theorem clusterScan_long {f : WideFile} (hgt : 8 < widePieces f.long) {n k : Nat}
    (hpiece : IsWidePiece (subBuffer buf (32 * k)) f.long (widePieces f.long)) :
    (clusterScan buf (n + 1) k 0 longName).1 = [] ∧
      (widePieces f.long ≤ 16 → ∃ e, (clusterScan buf (n + 1) k 0 longName).2 = .fault e) ∧
      (16 < widePieces f.long → (clusterScan buf (n + 1) k 0 longName).2 = .stops) := by
  obtain ⟨h0, hdel, hfault, hstop⟩ := hpiece.first_cases hgt (widePieces_le f)
  rw [subBuffer, Int.add_zero] at h0 hdel hfault hstop
  have hlfn : isLFN (subBuffer buf (32 * k)) = true := by
    rw [isLFN, hpiece.attrib]
    rfl
  have hlen13 : (LFN_idxs.length : Int) = 13 := rfl
  rw [clusterScan]
  dsimp only
  rw [if_neg h0, if_neg hdel, if_pos hlfn]
  by_cases hle : widePieces f.long ≤ 16
  · obtain ⟨hidx, hrange⟩ := hfault hle
    obtain ⟨e, hread⟩ := @readLFN_fault (subBuffer buf (32 * (k : Int))) LFN_idxs
      ((expectedIdx (buf (32 * (k : Int))) 0 - 1) * 13) longName (by simp [LFN_idxs]) (by omega)
    rw [if_pos hidx, hread]
    exact ⟨rfl, fun _ => ⟨e, rfl⟩, fun hgt' => absurd hle (by omega)⟩
  · rw [if_neg (hstop (by omega))]
    exact ⟨rfl, fun hle' => absurd hle' hle, fun _ => rfl⟩

/-- The record of a file. -/
theorem clusterScan_short {f : LiveFile} (n : Nat) {k : Nat} (idx : Int)
    (h : IsShort (subBuffer buf (32 * k)) f) :
    clusterScan buf (n + 1) k idx longName =
      ((k, cstr longName 105) :: (clusterScan buf n (k + 1) idx (memset longName 0 0 105)).1,
        (clusterScan buf n (k + 1) idx (memset longName 0 0 105)).2) := by
  obtain ⟨h0, hdel⟩ := h.first
  rw [subBuffer, Int.add_zero] at h0 hdel
  rw [clusterScan]
  dsimp only
  rw [if_neg h0, if_neg hdel, if_neg (by rw [h.notLFN]; decide)]

theorem clusterScan_deleted (n : Nat) {k : Nat} (idx : Int) (h : buf (32 * k) = 0xE5) :
    clusterScan buf (n + 1) k idx longName = clusterScan buf n (k + 1) idx longName := by
  rw [clusterScan]
  dsimp only
  rw [if_neg (by rw [h]; decide), if_pos h]

end Scan

/-! ## The search -/

/-- A file with its short record answers as the driver compares names. -/
theorem WideFile.nameMatches_eq {r : Bytes} {f : WideFile} (h : IsShort r f.entry) {term : List UInt8}
    (hterm : 0 ∉ term) : nameMatches term r f.seen = decide (f.Answers term) := by
  have hseen : 0 ∉ f.seen := by
    intro hmem
    have := List.mem_takeWhile_imp hmem
    simp at this
  have hraw := strcmp_eq_zero_iff f.entry.raw_chars hterm
  have hlong := strcmp_eq_zero_iff hseen hterm
  rw [nameMatches, h.shortName, Bool.eq_iff_iff, decide_eq_true_iff, WideFile.Answers]
  simp [hraw, hlong]

/-- The files and the end of a scan are what a search comes to. -/
def ScanAnswers (buf : Bytes) (term : List UInt8) (scan : List (Nat × List UInt8) × ScanEnd) : WideSearch → Prop
  | .found f => ∃ p, scan.1.find? (fun p => nameMatches term (subBuffer buf (32 * p.1)) p.2) = some p ∧
      IsShort (subBuffer buf (32 * p.1)) f.entry
  | .absent => scan.1.find? (fun p => nameMatches term (subBuffer buf (32 * p.1)) p.2) = none ∧ ∀ e, scan.2 ≠ .fault e
  | .fault => scan.1.find? (fun p => nameMatches term (subBuffer buf (32 * p.1)) p.2) = none ∧ ∃ e, scan.2 = .fault e

/-- A file that does not answer is passed. -/
theorem ScanAnswers.cons {buf : Bytes} {term : List UInt8} {scan : List (Nat × List UInt8) × ScanEnd} {w : WideSearch}
    (h : ScanAnswers buf term scan w) {p : Nat × List UInt8}
    (hp : nameMatches term (subBuffer buf (32 * p.1)) p.2 = false) :
    ScanAnswers buf term (p :: scan.1, scan.2) w := by
  have hfind : (p :: scan.1).find? (fun p => nameMatches term (subBuffer buf (32 * p.1)) p.2) =
      scan.1.find? (fun p => nameMatches term (subBuffer buf (32 * p.1)) p.2) := by
    rw [List.find?_cons, hp]
  cases w with
  | found f => rwa [ScanAnswers, hfind]
  | absent => rwa [ScanAnswers, hfind]
  | fault => rwa [ScanAnswers, hfind]

/-- The scan of a cluster that holds a directory comes to what a search does. -/
theorem clusterScan_wide {buf : Bytes} {term : List UInt8} (hterm : 0 ∉ term) (es : List WideEntry) {n k : Nat}
    {longName : Bytes} (h : WideHolds buf k es) (hn : k + n = 64) (hfits : k + wideCount es ≤ 64)
    (hblank : ∀ p : Nat, p < 105 → longName p = 0) :
    ScanAnswers buf term (clusterScan buf n k 0 longName) (wideSearch term es) := by
  induction es generalizing n k longName with
  | nil =>
    cases n with
    | zero => exact ⟨rfl, fun _ he => by cases he⟩
    | succ n =>
      have hzero : buf (32 * k) = 0 := h.resolve_left (by omega)
      rw [clusterScan]
      dsimp only
      rw [if_pos hzero]
      exact ⟨rfl, fun _ he => by cases he⟩
  | cons e es ih =>
    cases e with
    | deleted =>
      rw [wideCount] at hfits
      obtain ⟨n, rfl⟩ : ∃ m, n = m + 1 := ⟨n - 1, by omega⟩
      rw [clusterScan_deleted n 0 h.1]
      exact ih h.2 (by omega) (by omega) hblank
    | live f =>
      obtain ⟨hpieces, hshort, hrest⟩ := h
      rw [wideCount] at hfits
      rw [wideSearch]
      by_cases hle : widePieces f.long ≤ 8
      · -- the pieces, the short record, and the rest of the cluster
        obtain ⟨n, rfl⟩ : ∃ m, n = m + 1 + widePieces f.long := ⟨n - 1 - widePieces f.long, by omega⟩
        have hmap : pieces (f.long.map narrow) = widePieces f.long := by
          rw [pieces, List.length_map]
          rfl
        have hstart := holdsName_blank hblank (f.long.map narrow)
        rw [hmap] at hstart
        obtain ⟨longName', hname, hrun⟩ := clusterScan_pieces hle (n + 1) (widePieces f.long) (Nat.le_refl _) (.inl rfl)
          hpieces hstart
        rw [ite_self] at hrun
        have hseen : cstr longName' 105 = f.seen := by
          -- 8 pieces have at most 104 characters, and a terminator fits behind them
          refine hname.cstr_takeWhile ?_
          rw [List.length_map]
          unfold widePieces at hle
          omega
        have hmatches := f.nameMatches_eq hshort hterm
        rw [hrun, clusterScan_short n 0 hshort, hseen, if_pos hle]
        by_cases hf : f.Answers term
        · rw [if_pos hf]
          refine ⟨(k + widePieces f.long, f.seen), ?_, hshort⟩
          rw [List.find?_cons, hmatches, decide_eq_true hf]
        · rw [if_neg hf]
          rw [decide_eq_false hf] at hmatches
          exact (ih hrest (by omega) (by omega) (blank_memset longName')).cons hmatches
      · -- the first piece ends the scan
        obtain ⟨n, rfl⟩ : ∃ m, n = m + 1 := ⟨n - 1, by omega⟩
        have hfirst : IsWidePiece (subBuffer buf (32 * k)) f.long (widePieces f.long) := hpieces 0 (by omega)
        obtain ⟨hnone, hfault, hstop⟩ := @clusterScan_long buf longName f (by omega) n k hfirst
        rw [if_neg hle]
        by_cases hle' : widePieces f.long ≤ 16
        · rw [if_pos hle']
          exact ⟨by rw [hnone]; rfl, hfault hle'⟩
        · rw [if_neg hle']
          exact ⟨by rw [hnone]; rfl, by rw [hstop (by omega)]; exact fun _ he => by cases he⟩

/-- The fields that a file's short entry gives `findFile`. -/
def LiveFile.data (f : LiveFile) (hdr : FAT32_HEADER) : UInt8 × Int × Int :=
  (f.type, toInt f.size.toNat,
    if f.cluster = 0 then toInt hdr.A_BF_BPB_RootDirStrtClus.toNat else toInt f.cluster.toNat)

theorem IsShort.fileData {r : Bytes} {f : LiveFile} (h : IsShort r f) (hdr : FAT32_HEADER) :
    fileData hdr r = f.data hdr := by
  rw [SoreOS.fileData, LiveFile.data, LiveFile.type, if_congr h.directory rfl rfl, h.size, startCluster,
    h.recordCluster, if_congr toInt_toNat_eq_zero rfl rfl]

/-- The directory in the buffer was opened, and it has one cluster. -/
structure OneCluster (s : FsState) : Prop where
  fourSectors : FourSectors s.fileSys
  dirClusterIndex : s.dirClusterIndex = 0
  clusters : s.currentDir.clusters 1 = END_OF_CHAIN

section Search

variable {d : Drive} {s : FsState} {b : Bytes} {es : List WideEntry}

/-- Behind the last record of the only cluster a scan ends. -/
theorem OneCluster.leave (h : OneCluster s) {R : Type} : leaveCluster (R := R) d s = .ok (none, s) := by
  rw [leaveCluster, h.dirClusterIndex, if_pos (by decide), load_ok _ (by decide) (by decide), ok_bind, Int.zero_add,
    h.clusters, if_neg (not_not.mpr rfl)]
  rfl

/-- What a search returns and the file it fills, if it is not stored outside the name buffer. -/
def WideSearch.result (d : Drive) (s : FsState) (file : File) : WideSearch → Option (Int × File)
  | .found f => some (0, filledFile d s (f.entry.data s.fileSys) file)
  | .absent => some (-1, file)
  | .fault => none

/-- `findFile` in a cluster that holds a directory. -/
theorem findFile_wide (h : OneCluster s) (hb : WideHolds b 0 es) (hcount : wideCount es ≤ 64) {q : List UInt8}
    (hlen : q.length ≤ 104) (hq : 0 ∉ q) (file : File) :
    match (wideSearch (searchTerm q) es).result d s file with
    | some (res, file') => ∃ t, findFile d (s.withBuffer b) q file = .ok (res, file', t)
    | none => ∃ e, findFile d (s.withBuffer b) q file = .error e := by
  have h' : OneCluster (s.withBuffer b) := ⟨h.fourSectors, h.dirClusterIndex, h.clusters⟩
  have hload : loadFirst d (s.withBuffer b) = .ok (true, s.withBuffer b) := if_neg (not_not.mpr h.dirClusterIndex)
  have hscan := @clusterScan_wide b _ (zero_not_mem_searchTerm hq) es 64 0 (fun _ => 0) hb rfl (by omega) fun _ _ => rfl
  have hrun := findRecord_cluster h'.fourSectors hload hlen
  rw [withBuffer_ClusterBuffer, clusterLookup, clusterFiles, clusterEnd] at hrun
  generalize clusterScan b 64 0 0 (fun _ => 0) = scan at hscan hrun
  cases hw : wideSearch (searchTerm q) es with
  | found f =>
    rw [hw] at hscan
    obtain ⟨p, hfind, hshort⟩ := hscan
    rw [hfind, Option.map_some] at hrun
    obtain ⟨t, -, -, hall⟩ := walkFile_buffer d s (f.entry.data s.fileSys) file
    refine ⟨t.withBuffer b, ?_⟩
    rw [findFile, hrun, ok_bind]
    dsimp only
    rw [fillFile_eq, withBuffer_ClusterBuffer, withBuffer_fileSys, hshort.fileData, hall b]
    rfl
  | absent =>
    rw [hw] at hscan
    obtain ⟨hfind, hend⟩ := hscan
    rw [hfind] at hrun
    refine ⟨s.withBuffer b, ?_⟩
    rw [findFile, hrun, Option.map_none]
    cases he : scan.2 with
    | stops => rfl
    | through =>
      dsimp only
      rw [h'.leave]
      rfl
    | fault e => exact absurd he (hend e)
  | fault =>
    rw [hw] at hscan
    obtain ⟨hfind, e, he⟩ := hscan
    rw [hfind, Option.map_none, he] at hrun
    exact ⟨e, by rw [findFile, hrun]; rfl⟩

end Search

/-! ## A file that is inserted -/

/-- A search that returns with the cluster `b` in the buffer has the same result with `b'`. -/
def Unchanged (d : Drive) (s : FsState) (b b' : Bytes) (q : List UInt8) : Prop :=
  ∀ file res file' t, findFile d (s.withBuffer b) q file = .ok (res, file', t) →
    ∃ t', findFile d (s.withBuffer b') q file = .ok (res, file', t')

/-- Two searches come to the same, if the first one is not stored outside the name buffer. -/
def WideSearch.Agrees (hdr : FAT32_HEADER) : WideSearch → WideSearch → Prop
  | .fault, _ => True
  | .absent, .absent => True
  | .found g, .found f => g.entry.data hdr = f.entry.data hdr
  | _, _ => False

theorem WideSearch.Agrees.refl (hdr : FAT32_HEADER) (w : WideSearch) : w.Agrees hdr w := by
  cases w with
  | found f => rfl
  | absent => trivial
  | fault => trivial

/-- A search does not notice a file between the entries `es₁` and `es₂`: the name is too long to be searched for, the
    search ends in front of the file or is stored outside the name buffer anyway, it passes the file or finds the
    same file behind it, or the file ends it and there was nothing to be found. -/
def Undisturbed (hdr : FAT32_HEADER) (es₁ : List WideEntry) (f : WideFile) (es₂ : List WideEntry) (q : List UInt8) : Prop :=
  let term := searchTerm q
  q.length > 104 ∨ ¬ Passes term es₁ ∨ wideSearch term es₂ = .fault ∨
    (widePieces f.long ≤ 8 ∧
      (¬ f.Answers term ∨ ∃ g, wideSearch term es₂ = .found g ∧ g.entry.data hdr = f.entry.data hdr)) ∨
    (16 < widePieces f.long ∧ wideSearch term es₂ = .absent)

/-- Among the entries: what the searches without and with the file come to. -/
theorem undisturbed_iff {hdr : FAT32_HEADER} {es₁ es₂ : List WideEntry} {f : WideFile} {q : List UInt8}
    (hlen : q.length ≤ 104) : Undisturbed hdr es₁ f es₂ q ↔
      (wideSearch (searchTerm q) (es₁ ++ es₂)).Agrees hdr (wideSearch (searchTerm q) (es₁ ++ .live f :: es₂)) := by
  unfold Undisturbed
  dsimp only
  rw [or_iff_right (by omega)]
  by_cases hpass : Passes (searchTerm q) es₁
  · rw [wideSearch_append_pass hpass, wideSearch_append_pass hpass, or_iff_right (not_not.mpr hpass), wideSearch]
    by_cases hle : widePieces f.long ≤ 8
    · rw [if_pos hle]
      by_cases hf : f.Answers (searchTerm q)
      · rw [if_pos hf]
        cases wideSearch (searchTerm q) es₂ with
        | found g => simp [WideSearch.Agrees, hle, hf]
        | absent => simp [WideSearch.Agrees, hf]; omega
        | fault => simp [WideSearch.Agrees]
      · rw [if_neg hf]
        exact iff_of_true (.inr (.inl ⟨hle, .inl hf⟩)) (.refl _ _)
    · rw [if_neg hle]
      by_cases hle' : widePieces f.long ≤ 16
      · rw [if_pos hle']
        cases wideSearch (searchTerm q) es₂ with
        | found g => simp [WideSearch.Agrees, hle]
        | absent => simp [WideSearch.Agrees, hle, hle']
        | fault => simp [WideSearch.Agrees]
      · rw [if_neg hle']
        cases wideSearch (searchTerm q) es₂ with
        | found g => simp [WideSearch.Agrees, hle]
        | absent => simp [WideSearch.Agrees]; omega
        | fault => simp [WideSearch.Agrees]
  · -- the search ends in front of the file
    rw [wideSearch_append_stop hpass, wideSearch_append_stop hpass]
    exact iff_of_true (.inl hpass) (.refl _ _)

/-- Searches agree if the first one has no result, or both have the same. -/
theorem WideSearch.agrees_iff {d : Drive} {s : FsState} {w w' : WideSearch} : w.Agrees s.fileSys w' ↔
    ∀ file, w.result d s file = none ∨ w'.result d s file = w.result d s file := by
  cases w with
  | fault => exact iff_of_true trivial fun _ => .inl rfl
  | absent =>
    cases w' with
    | found f => exact iff_of_false id fun hall => by simpa [result] using hall {}
    | absent => exact iff_of_true trivial fun _ => .inr rfl
    | fault => exact iff_of_false id fun hall => by simpa [result] using hall {}
  | found g =>
    cases w' with
    | found f =>
      constructor
      · intro hdata file
        right
        rw [result, result, show g.entry.data s.fileSys = f.entry.data s.fileSys from hdata]
      · intro hall
        -- the filled files tell the fields apart
        have hfile : filledFile d s (f.entry.data s.fileSys) {} = filledFile d s (g.entry.data s.fileSys) {} := by
          simpa [result] using hall {}
        exact (filledFile_inj hfile).symm
    | absent => exact iff_of_false id fun hall => by simpa [result] using hall {}
    | fault => exact iff_of_false id fun hall => by simpa [result] using hall {}

section Insert

variable {d : Drive} {s : FsState} {b b' : Bytes} {es es' : List WideEntry}

/-- The results of two searches. -/
theorem unchanged_iff_agrees (h : OneCluster s) (hb : WideHolds b 0 es) (hb' : WideHolds b' 0 es')
    (hcount : wideCount es ≤ 64) (hcount' : wideCount es' ≤ 64) {q : List UInt8} (hlen : q.length ≤ 104) (hq : 0 ∉ q) :
    Unchanged d s b b' q ↔
      (wideSearch (searchTerm q) es).Agrees s.fileSys (wideSearch (searchTerm q) es') := by
  rw [WideSearch.agrees_iff (d := d)]
  refine forall_congr' fun file => ?_
  have hold := findFile_wide (d := d) h hb hcount hlen hq file
  have hnew := findFile_wide (d := d) h hb' hcount' hlen hq file
  generalize (wideSearch (searchTerm q) es).result d s file = w at hold ⊢
  generalize (wideSearch (searchTerm q) es').result d s file = w' at hnew ⊢
  cases w with
  | none =>
    obtain ⟨e, hrun⟩ := hold
    refine iff_of_true (fun res file' t hrun' => ?_) (.inl rfl)
    rw [hrun] at hrun'
    cases hrun'
  | some p =>
    obtain ⟨res, file'⟩ := p
    obtain ⟨t, hrun⟩ := hold
    rw [or_iff_right (Option.some_ne_none _)]
    constructor
    · intro hall
      obtain ⟨t', hrun'⟩ := hall _ _ _ hrun
      cases w' with
      | none =>
        obtain ⟨e, herror⟩ := hnew
        rw [herror] at hrun'
        cases hrun'
      | some p' =>
        obtain ⟨res', file''⟩ := p'
        obtain ⟨u, hrun''⟩ := hnew
        rw [hrun''] at hrun'
        cases hrun'
        rfl
    · rintro rfl res' file'' t' hrun'
      rw [hrun] at hrun'
      cases hrun'
      exact hnew

end Insert

/-- A file is inserted into a directory of one cluster. A search for any name has the result it had
    exactly if it does not notice the file. -/
theorem unchanged_iff {d : Drive} {s : FsState} (h : OneCluster s) {b b' : Bytes} {es₁ es₂ : List WideEntry}
    {f : WideFile} (hb : WideHolds b 0 (es₁ ++ es₂)) (hb' : WideHolds b' 0 (es₁ ++ .live f :: es₂))
    (hcount : wideCount (es₁ ++ .live f :: es₂) ≤ 64) {q : List UInt8} (hq : 0 ∉ q) :
    Unchanged d s b b' q ↔ Undisturbed s.fileSys es₁ f es₂ q := by
  by_cases hlen : q.length ≤ 104
  · have hless : wideCount (es₁ ++ es₂) ≤ 64 := by
      rw [wideCount_append] at hcount ⊢
      rw [wideCount] at hcount
      omega
    rw [undisturbed_iff hlen]
    exact unchanged_iff_agrees h hb hb' hless hcount hlen hq
  · -- a longer name is not searched for
    have hnone : ∀ file u, findFile d u q file = .ok (-1, file, u) := by
      intro file u
      rw [findFile, findRecord, if_pos (by omega)]
      rfl
    refine iff_of_true (fun file res file' t hrun => ?_) (.inl (by omega))
    rw [hnone] at hrun
    cases hrun
    exact ⟨_, hnone _ _⟩

/-! ## Records in a row -/

/-- The bytes of a piece. -/
def wideRecord (name : List UInt16) (j : Nat) : List UInt8 :=
  let chars (i n : Nat) : List UInt8 := (List.range' i n).flatMap fun i =>
    [(wideWord name (13 * (j - 1) + i)).1, (wideWord name (13 * (j - 1) + i)).2]
  (UInt8.ofNat j ||| (if j = widePieces name then 0x40 else 0)) :: chars 0 5 ++ 0x0F :: 0 :: 0 :: chars 5 6 ++
    0 :: 0 :: chars 11 2

theorem length_wideRecord (name : List UInt16) (j : Nat) : (wideRecord name j).length = 32 := rfl

theorem wideRecord_isWidePiece (name : List UInt16) (j : Nat) : IsWidePiece (ofString (wideRecord name j)) name j := by
  refine ⟨rfl, rfl, fun i hi => ?_⟩
  match i with
  | 0 | 1 | 2 | 3 | 4 | 5 | 6 | 7 | 8 | 9 | 10 | 11 | 12 => rfl
  | n + 13 => exact absurd hi (by omega)

theorem IsWidePiece.congr {r r' : Bytes} {name : List UInt16} {j : Nat} (hr : ∀ i : Int, 0 ≤ i → i < 32 → r' i = r i)
    (h : IsWidePiece r name j) : IsWidePiece r' name j := by
  refine ⟨by rw [hr 0 (by omega) (by omega), h.number], (hr _ (by omega) (by omega)).trans h.attrib, fun i hi => ?_⟩
  have hle : 1 ≤ charOffset i ∧ charOffset i ≤ 30 := by
    unfold charOffset
    split
    · omega
    · split <;> omega
  rw [hr _ (by omega) (by omega), hr _ (by omega) (by omega), h.chars i hi]

/-- Of records of 32 bytes in a row, each one is found at its place. -/
theorem subBuffer_flatten {records : List (List UInt8)} (h : ∀ r ∈ records, r.length = 32) (k : Nat) (i : Int)
    (hi : 0 ≤ i) (hi' : i < 32) :
    subBuffer (ofString records.flatten) (32 * k) i = ofString (records.getD k []) i := by
  obtain ⟨n, rfl⟩ := Int.eq_ofNat_of_zero_le hi
  unfold subBuffer ofString
  rw [show (32 * (k : Int) + n).toNat = 32 * k + n from by omega, Int.toNat_natCast]
  induction records generalizing k with
  | nil => rfl
  | cons r records ih =>
    have hr : r.length = 32 := h r List.mem_cons_self
    rw [List.flatten_cons]
    cases k with
    | zero =>
      rw [Nat.mul_zero, Nat.zero_add, List.getD_append _ _ _ _ (by omega)]
      rfl
    | succ k =>
      rw [List.getD_append_right _ _ _ _ (by omega), hr, show 32 * (k + 1) + n - 32 = 32 * k + n from by omega]
      exact ih (fun r hmem => h r (List.mem_cons_of_mem _ hmem)) k

theorem length_shortRecord (f : LiveFile) : (shortRecord f).length = 32 := by
  simp [shortRecord, f.raw_length]

/-- The records of an entry. -/
def WideEntry.records : WideEntry → List (List UInt8)
  | .deleted => [0xE5 :: List.replicate 31 0]
  | .live f =>
    (List.range (widePieces f.long)).map (fun j => wideRecord f.long (widePieces f.long - j)) ++ [shortRecord f.entry]

theorem WideEntry.length_of_mem {e : WideEntry} : ∀ r ∈ e.records, r.length = 32 := by
  intro r hr
  cases e with
  | deleted =>
    rw [List.mem_singleton.mp hr]
    rfl
  | live f =>
    obtain hr | hr := List.mem_append.mp hr
    · obtain ⟨j, -, rfl⟩ := List.mem_map.mp hr
      exact length_wideRecord _ _
    · rw [List.mem_singleton.mp hr]
      exact length_shortRecord _

/-- Records in a row hold their entries, behind any others. -/
theorem wideHolds_records (es : List WideEntry)
    (hshort : ∀ f, .live f ∈ es → IsShort (ofString (shortRecord f.entry)) f.entry) (front : List (List UInt8))
    (hfront : ∀ r ∈ front, r.length = 32) :
    WideHolds (ofString (front ++ es.flatMap WideEntry.records).flatten) front.length es := by
  have hlen : ∀ r ∈ front ++ es.flatMap WideEntry.records, r.length = 32 := by
    intro r hr
    obtain hr | hr := List.mem_append.mp hr
    · exact hfront r hr
    · obtain ⟨e, -, hr⟩ := List.mem_flatMap.mp hr
      exact WideEntry.length_of_mem r hr
  have hget := subBuffer_flatten hlen
  have hget0 : ∀ k : Nat, ofString (front ++ es.flatMap WideEntry.records).flatten (32 * k) =
      ofString ((front ++ es.flatMap WideEntry.records).getD k []) 0 := by
    intro k
    rw [← hget k 0 (by omega) (by omega), subBuffer, Int.add_zero]
  induction es generalizing front with
  | nil =>
    right
    rw [hget0, List.getD_append_right _ _ _ _ (Nat.le_refl _)]
    rfl
  | cons e es ih =>
    have hrest := ih (fun f hf => hshort f (List.mem_cons_of_mem _ hf)) (front ++ e.records) fun r hr => by
      obtain hr | hr := List.mem_append.mp hr
      · exact hfront r hr
      · exact WideEntry.length_of_mem r hr
    rw [List.flatMap_cons, ← List.append_assoc] at hlen hget hget0 ⊢
    replace hrest := hrest hlen hget hget0
    rw [List.length_append] at hrest
    -- where the records of the first entry are
    have hplace : ∀ j < e.records.length,
        (front ++ e.records ++ es.flatMap WideEntry.records).getD (front.length + j) [] = e.records.getD j [] := by
      intro j hj
      rw [List.append_assoc, List.getD_append_right _ _ _ _ (by omega), Nat.add_sub_cancel_left,
        List.getD_append _ _ _ _ hj]
    cases e with
    | deleted =>
      refine ⟨?_, hrest⟩
      rw [hget0, ← Nat.add_zero front.length, hplace 0 Nat.zero_lt_one]
      rfl
    | live f =>
      have hcount : (WideEntry.live f).records.length = widePieces f.long + 1 := by
        simp [WideEntry.records]
      refine ⟨fun j hj => ?_, ?_, ?_⟩
      · refine (wideRecord_isWidePiece f.long (widePieces f.long - j)).congr fun i hi hi' => ?_
        rw [hget _ i hi hi', hplace j (by omega), WideEntry.records, List.getD_append _ _ _ _ (by simpa using hj)]
        simp [hj]
      · refine (hshort f List.mem_cons_self).congr fun i hi hi' => ?_
        rw [hget _ i hi hi', hplace _ (by omega), WideEntry.records, List.getD_append_right _ _ _ _ (by simp)]
        simp
      · rw [hcount, ← Nat.add_assoc] at hrest
        exact hrest

/-! ## Names of narrow characters -/

/-- A file whose long name has up to 104 characters, all of one byte. -/
def LiveFile.wide (f : LiveFile) : WideFile where
  long := f.long.map (·.toUInt16)
  entry := f.withoutLong
  long_length := by
    rw [List.length_map]
    exact Nat.le_trans f.long_length (by decide)
  long_chars := by
    intro hmem
    obtain ⟨c, hc, h0⟩ := List.mem_map.mp hmem
    rw [show c = 0 from by rw [← UInt8.toUInt8_toUInt16 c, h0]; rfl] at hc
    exact f.long_chars hc
  entry_long := rfl

def Entry.wide : Entry → WideEntry
  | .deleted => .deleted
  | .live f => .live f.wide

theorem widePieces_map (name : List UInt8) : widePieces (name.map (·.toUInt16)) = pieces name := by
  rw [widePieces, List.length_map]
  rfl

/-- The characters of such a name. -/
theorem wideWord_map (name : List UInt8) (p : Nat) : wideWord (name.map (·.toUInt16)) p = LFNWord name p := by
  have hhigh : ∀ c : UInt8, (c.toUInt16 >>> 8).toUInt8 = 0 := by
    intro c
    have hlt := c.toNat_lt
    apply UInt8.toNat_inj.mp
    rw [UInt16.toNat_toUInt8, UInt16.toNat_shiftRight, UInt8.toNat_toUInt16, show (UInt16.toNat 8 % 16) = 8 from rfl,
      Nat.shiftRight_eq_div_pow, Nat.div_eq_of_lt hlt]
    rfl
  have hget : (name.map (·.toUInt16)).getD p 0 = (name.getD p 0).toUInt16 :=
    List.getD_map (l := name) (d := 0) (n := p) UInt8.toUInt16
  unfold wideWord LFNWord
  rw [List.length_map, hget, hhigh, UInt8.toUInt8_toUInt16]

theorem IsWidePiece.isPiece {r : Bytes} {name : List UInt8} {j : Nat}
    (h : IsWidePiece r (name.map (·.toUInt16)) j) : IsPiece r name j := by
  refine ⟨?_, h.attrib, fun i hi => ?_⟩
  · rw [h.number, widePieces_map]
  · rw [h.chars i hi, wideWord_map]

/-- A directory of such files that does not fill its cluster is one by the rules for these files. -/
theorem WideHolds.holds {buf : Bytes} {k : Nat} {es : List Entry} (h : WideHolds buf k (es.map Entry.wide))
    (hfits : k + recordCount es < 64) : Holds buf k es := by
  induction es generalizing k with
  | nil => exact h.resolve_left (Nat.ne_of_lt hfits)
  | cons e es ih =>
    cases e with
    | deleted =>
      rw [recordCount] at hfits
      exact ⟨h.1, ih h.2 (by omega)⟩
    | live f =>
      obtain ⟨hpieces, hshort, hrest⟩ := h
      rw [show widePieces f.wide.long = pieces f.long from widePieces_map f.long] at hpieces hshort hrest
      rw [recordCount] at hfits
      refine ⟨fun j hj => (hpieces j hj).isPiece, ?_, ih hrest (by omega)⟩
      exact ⟨hshort.raw, hshort.notLFN, hshort.directory, hshort.cluster, hshort.size⟩

/-- The driver with the directory of one cluster. -/
def oneCluster : FsState where
  fileSys := defaultHeader
  dirClusterIndex := 0
  currentDir := { clusters := fun _ => END_OF_CHAIN }

theorem oneCluster_facts : OneCluster oneCluster := ⟨⟨by decide, by decide⟩, rfl, rfl⟩

/-- A file without a long name. -/
def WideFile.ofShort (f : LiveFile) (h : f.long = []) : WideFile := ⟨[], f, by decide, by decide, h⟩

/-- The file `A`. -/
def fileA : WideFile := .ofShort (shortEntry (str ['A']) false 3 3) rfl

/-- The file `B`. -/
def fileB : WideFile := .ofShort letterEntry rfl

/-- A file with a long name of some characters. -/
def fileX (n : Nat) (h : n ≤ 255) : WideFile where
  long := List.replicate n 0x78
  entry := shortEntry (str ['X']) false 5 3
  long_length := by rwa [List.length_replicate]
  long_chars := fun hmem => absurd (List.eq_of_mem_replicate hmem) (by decide)
  entry_long := rfl

/-- A cluster that begins with the records of some entries. -/
def clusterOf (es : List WideEntry) : Bytes := ofString (es.flatMap WideEntry.records).flatten

theorem clusterOf_holds {es : List WideEntry}
    (hshort : ∀ f, .live f ∈ es → IsShort (ofString (shortRecord f.entry)) f.entry) : WideHolds (clusterOf es) 0 es :=
  wideHolds_records es hshort [] fun _ hr => absurd hr List.not_mem_nil

theorem fileA_isShort : IsShort (ofString (shortRecord fileA.entry)) fileA.entry :=
  ⟨by decide, by decide, by decide, by decide, by decide⟩

theorem fileB_isShort : IsShort (ofString (shortRecord fileB.entry)) fileB.entry :=
  ⟨by decide, by decide, by decide, by decide, by decide⟩

theorem fileX_isShort (n : Nat) (h : n ≤ 255) : IsShort (ofString (shortRecord (fileX n h).entry)) (fileX n h).entry := by
  show IsShort (ofString (shortRecord (shortEntry (str ['X']) false 5 3))) (shortEntry (str ['X']) false 5 3)
  exact ⟨by decide, by decide, by decide, by decide, by decide⟩

/-- The directories without and with the third file. -/
theorem clusterOf_files (n : Nat) (h : n ≤ 255) :
    WideHolds (clusterOf ([.live fileA] ++ [.live fileB])) 0 ([.live fileA] ++ [.live fileB]) ∧
      WideHolds (clusterOf ([.live fileA] ++ .live (fileX n h) :: [.live fileB])) 0
        ([.live fileA] ++ .live (fileX n h) :: [.live fileB]) := by
  constructor
  · refine clusterOf_holds fun f hf => ?_
    simp only [List.cons_append, List.nil_append, List.mem_cons, List.not_mem_nil, or_false, WideEntry.live.injEq] at hf
    obtain rfl | rfl := hf
    · exact fileA_isShort
    · exact fileB_isShort
  · refine clusterOf_holds fun f hf => ?_
    simp only [List.cons_append, List.nil_append, List.mem_cons, List.not_mem_nil, or_false, WideEntry.live.injEq] at hf
    obtain rfl | rfl | rfl := hf
    · exact fileA_isShort
    · exact fileX_isShort n h
    · exact fileB_isShort

/-- A long name of one piece. -/
theorem unchanged_iff_short :
    Unchanged (healthyDrive fun _ => 0) oneCluster (clusterOf ([.live fileA] ++ [.live fileB]))
        (clusterOf ([.live fileA] ++ .live (fileX 12 (by decide)) :: [.live fileB])) (str ['B']) ↔
      Undisturbed defaultHeader [.live fileA] (fileX 12 (by decide)) [.live fileB] (str ['B']) :=
  have h := clusterOf_files 12 (by decide)
  unchanged_iff oneCluster_facts h.1 h.2 (by decide) (by decide)

set_option maxRecDepth 2000 in
/-- With a name of 17 pieces between the files, the second one is not found. -/
theorem not_unchanged :
    let es : List WideEntry := [.live fileA] ++ [.live fileB]
    let es' : List WideEntry := [.live fileA] ++ .live (fileX 209 (by decide)) :: [.live fileB]
    WideHolds (clusterOf es) 0 es ∧ WideHolds (clusterOf es') 0 es' ∧ wideCount es' ≤ 64 ∧
      [fileA, fileX 209 (by decide), fileB].Pairwise (fun f g => ∀ name ∈ f.names, name ∉ g.names) ∧
      (str ['B']).map (·.toUInt16) ∈ fileB.names ∧
      ¬ Unchanged (healthyDrive fun _ => 0) oneCluster (clusterOf es) (clusterOf es') (str ['B']) := by
  intro es es'
  obtain ⟨hb, hb'⟩ := clusterOf_files 209 (by decide)
  refine ⟨hb, hb', by decide, by decide, by decide, fun h => ?_⟩
  rw [unchanged_iff_agrees oneCluster_facts hb hb' (by decide) (by decide) (by decide) (by decide)] at h
  have hfound : wideSearch (searchTerm (str ['B'])) es = .found fileB := rfl
  have habsent : wideSearch (searchTerm (str ['B'])) es' = .absent := rfl
  rw [hfound, habsent] at h
  exact h

end SoreOS
