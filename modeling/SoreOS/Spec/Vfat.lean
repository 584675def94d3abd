import SoreOS.Spec.DirectoryScan
import SoreOS.Spec.Names
import Mathlib.Data.List.GetD

/-!
# Directories by the VFAT rules

How a directory of files, some with long names, lies in a cluster: for each file a
short record, behind the pieces of its long name in descending order. A scan gives
its visit every live file once, in the order of the directory, with its long name.

## Key results

- `Holds`: a cluster holds a list of live files and deleted records
- `readName`: the pieces of a name put together are the name
- `scanLoop_holds`: a scan of such a cluster visits its files
-/

namespace SoreOS

open ForStd

/-! ## The rules -/

/-- A live file of a directory: its long name, with no characters if it has none, the
    11 bytes of its short name, and what its short record says about it. -/
structure LiveFile where
  long : List UInt8
  raw : List UInt8
  directory : Bool
  cluster : UInt32
  size : UInt32
  long_length : long.length ≤ 104
  long_chars : 0 ∉ long
  raw_length : raw.length = 11
  raw_chars : 0 ∉ raw
  raw_first : raw.head? ≠ some 0xE5

/-- What a directory is built from. -/
inductive Entry where
  | deleted
  | live (f : LiveFile)

/-- The number of pieces of a long name. -/
def pieces (name : List UInt8) : Nat := (name.length + 12) / 13

/-- Offset of a character in a piece: five, six and two of them in a row. -/
def charOffset (i : Nat) : Int :=
  if i < 5 then 1 + 2 * i else if i < 11 then 14 + 2 * (i - 5) else 28 + 2 * (i - 11)

/-- The two bytes of the character at a position of a long name: behind the name its
    terminator, and padding behind that. -/
def LFNWord (name : List UInt8) (p : Nat) : UInt8 × UInt8 :=
  if p < name.length then (name.getD p 0, 0) else if p = name.length then (0, 0) else (0xFF, 0xFF)

/-- A record is the `j`th piece of a long name. -/
structure IsPiece (r : Bytes) (name : List UInt8) (j : Nat) : Prop where
  number : r 0 = UInt8.ofNat j ||| (if j = pieces name then 0x40 else 0)
  attrib : attrib r = 0x0F
  chars : ∀ i < 13,
    (r (charOffset i), r (charOffset i + 1)) = LFNWord name (13 * (j - 1) + i)

/-- A record is the short record of a file. -/
structure IsShort (r : Bytes) (f : LiveFile) : Prop where
  raw : r.read 0 11 = f.raw
  notLFN : isLFN r = false
  directory : (attrib r &&& 0x10 ≠ 0) ↔ f.directory = true
  cluster : (readDW r 0x14).toNat * 65536 + (readDW r 0x1A).toNat = f.cluster.toNat
  size : readDD r 0x1C = f.size

/-- From its `k`th record on, a cluster holds the entries and a zero record. -/
def Holds (buf : Bytes) : Nat → List Entry → Prop
  | k, [] => buf (32 * k) = 0
  | k, .deleted :: es => buf (32 * k) = 0xE5 ∧ Holds buf (k + 1) es
  | k, .live f :: es =>
    (∀ j < pieces f.long,
      IsPiece (subBuffer buf (32 * (k + j : Nat))) f.long (pieces f.long - j)) ∧
    IsShort (subBuffer buf (32 * (k + pieces f.long : Nat))) f ∧
    Holds buf (k + pieces f.long + 1) es

/-- The number of records of the entries. -/
def recordCount : List Entry → Nat
  | [] => 0
  | .deleted :: es => 1 + recordCount es
  | .live f :: es => pieces f.long + 1 + recordCount es

/-- The live files, with the numbers of their short records. -/
def placed : Nat → List Entry → List (Nat × LiveFile)
  | _, [] => []
  | k, .deleted :: es => placed (k + 1) es
  | k, .live f :: es => (k + pieces f.long, f) :: placed (k + pieces f.long + 1) es

/-! ## Where the rules look -/

theorem IsPiece.congr {r r' : Bytes} {name : List UInt8} {j : Nat}
    (hr : ∀ i : Int, 0 ≤ i → i < 32 → r' i = r i) (h : IsPiece r name j) : IsPiece r' name j := by
  refine ⟨by rw [hr 0 (by omega) (by omega), h.number], ?_, fun i hi => ?_⟩
  · rw [SoreOS.attrib, hr _ (by omega) (by omega)]
    exact h.attrib
  · have hle : 1 ≤ charOffset i ∧ charOffset i ≤ 30 := by
      unfold charOffset
      split
      · omega
      · split <;> omega
    rw [hr _ (by omega) (by omega), hr _ (by omega) (by omega), h.chars i hi]

theorem IsShort.congr {r r' : Bytes} {f : LiveFile} (hr : ∀ i : Int, 0 ≤ i → i < 32 → r' i = r i)
    (h : IsShort r f) : IsShort r' f := by
  have hattrib : attrib r' = attrib r := hr _ (by omega) (by omega)
  have hload : ∀ (off : Int) (n : Nat), 0 ≤ off → off + n ≤ 32 → r'.loadLE off n = r.loadLE off n :=
    fun off n hoff hn => Mem.loadLE_congr fun i hi => hr _ (by omega) (by omega)
  refine ⟨?_, ?_, ?_, ?_, ?_⟩
  · rw [← h.raw]
    exact Mem.read_congr fun i hi => hr _ (by omega) (by omega)
  · rw [isLFN, hattrib]
    exact h.notLFN
  · rw [hattrib]
    exact h.directory
  · rw [readDW, readDW, hload _ _ (by omega) (by omega), hload _ _ (by omega) (by omega)]
    exact h.cluster
  · rw [readDD, hload _ _ (by omega) (by omega)]
    exact h.size

/-- A cluster holds what another one holds if they agree on the records. -/
theorem Holds.congr {buf buf' : Bytes} {k : Nat} {es : List Entry} (h : Holds buf k es)
    (hbuf : ∀ i : Int, 0 ≤ i → i < 32 * (k + recordCount es + 1) → buf' i = buf i) :
    Holds buf' k es := by
  induction es generalizing k with
  | nil => exact (hbuf _ (by omega) (by simp only [recordCount]; push_cast; omega)).trans h
  | cons e es ih =>
    cases e with
    | deleted =>
      simp only [recordCount] at hbuf
      push_cast at hbuf
      exact ⟨(hbuf _ (by omega) (by omega)).trans h.1,
        ih h.2 fun i hi hi' => hbuf i hi (by push_cast at hi'; omega)⟩
    | live f =>
      obtain ⟨hpieces, hshort, hrest⟩ := h
      simp only [recordCount] at hbuf
      push_cast at hbuf
      -- a record that begins inside lies inside
      refine ⟨fun j hj => (hpieces j hj).congr fun i hi hi' => hbuf _ (by omega) (by push_cast; omega),
        hshort.congr fun i hi hi' => hbuf _ (by omega) (by push_cast; omega),
        ih hrest fun i hi hi' => hbuf i hi (by push_cast at hi'; omega)⟩

/-! ## Putting a long name together -/

/-- The name buffer holds the characters of a name from its `j`th piece on, and zeros. -/
def HoldsName (longName : Bytes) (name : List UInt8) (j : Nat) : Prop :=
  ∀ p : Nat, p < 105 → longName p = if 13 * j ≤ p then name.getD p 0 else 0

theorem LFN_idxs_eq {i : Nat} (hi : i < 13) : LFN_idxs.getD i 0 = charOffset i := by
  have hall : ∀ i : Fin 13, LFN_idxs.getD i 0 = charOffset i := by decide
  exact hall ⟨i, hi⟩

/-- A character is read as itself, the terminator and the padding as zeros. -/
theorem IsPiece.LFNChar {r : Bytes} {name : List UInt8} {j : Nat} (h : IsPiece r name j) {i : Nat}
    (hi : i < 13) : LFNChar r (charOffset i) = name.getD (13 * (j - 1) + i) 0 := by
  have hword := h.chars i hi
  unfold SoreOS.LFNChar
  unfold LFNWord at hword
  split at hword
  · obtain ⟨hlow, hhigh⟩ := Prod.mk.inj hword
    rw [hhigh, hlow, if_pos rfl]
  · rw [List.getD_eq_default _ _ (by omega)]
    split at hword
    · obtain ⟨hlow, hhigh⟩ := Prod.mk.inj hword
      rw [hhigh, hlow, if_pos rfl]
    · obtain ⟨hlow, hhigh⟩ := Prod.mk.inj hword
      rw [hhigh, if_neg (by decide)]

/-- Reading the characters of a piece adds them. -/
theorem HoldsName.read {longName r : Bytes} {name : List UInt8} {j : Nat} (h : HoldsName longName name (j + 1))
    (hchars : ∀ i < 13, SoreOS.LFNChar r (charOffset i) = name.getD (13 * j + i) 0) :
    HoldsName (SoreOS.withPiece r LFN_idxs (13 * j) longName) name j := by
  intro p hp
  have hlen : (LFN_idxs.length : Int) = 13 := rfl
  rw [withPiece_apply, hlen]
  by_cases hin : 13 * j ≤ p ∧ p < 13 * j + 13
  · rw [if_pos (by omega), if_pos hin.1, show ((p : Int) - 13 * (j : Int)).toNat = p - 13 * j from by omega,
      LFN_idxs_eq (by omega), hchars _ (by omega), show 13 * j + (p - 13 * j) = p from by omega]
  · rw [if_neg (by omega), h p hp]
    -- behind the piece nothing changes, in front of it there are zeros still
    by_cases hge : 13 * j ≤ p
    · rw [if_pos (by omega), if_pos hge]
    · rw [if_neg (by omega), if_neg hge]

/-- Reading a piece adds its characters. -/
theorem HoldsName.withPiece {longName r : Bytes} {name : List UInt8} {j : Nat}
    (h : HoldsName longName name (j + 1)) (hpiece : IsPiece r name (j + 1)) :
    HoldsName (withPiece r LFN_idxs (13 * j) longName) name j := by
  refine h.read fun i hi => ?_
  rw [hpiece.LFNChar hi, Nat.add_sub_cancel]

/-- An empty buffer holds what lies behind the last piece. -/
theorem holdsName_blank {longName : Bytes} (h : ∀ p : Nat, p < 105 → longName p = 0)
    (name : List UInt8) : HoldsName longName name (pieces name) := by
  intro p hp
  rw [h p hp]
  split
  · rename_i hge
    unfold pieces at hge
    rw [List.getD_eq_default _ _ (by omega)]
  · rfl

private theorem takeWhile_terminated (l rest : List UInt8) :
    (l ++ 0 :: rest).takeWhile (· ≠ 0) = l.takeWhile (· ≠ 0) := by
  induction l with
  | nil => rfl
  | cons c cs ih =>
    rw [List.cons_append, List.takeWhile_cons, List.takeWhile_cons, ih]

/-- With its first piece the name is complete; a zero in it ends it early. -/
theorem HoldsName.cstr_takeWhile {longName : Bytes} {name : List UInt8} (h : HoldsName longName name 0)
    (hlen : name.length ≤ 104) : SoreOS.cstr longName 105 = name.takeWhile (· ≠ 0) := by
  have hread : longName.read 0 105 = name ++ List.replicate (105 - name.length) 0 := by
    have hall : (name ++ List.replicate (105 - name.length) (0 : UInt8)).length = 105 := by
      rw [List.length_append, List.length_replicate]
      omega
    apply List.ext_getElem ((Mem.length_read _ _ _).trans hall.symm)
    intro i hi _
    rw [Mem.length_read] at hi
    rw [Mem.getElem_read, Int.zero_add, h i hi, if_pos (Nat.zero_le _)]
    by_cases hin : i < name.length
    · rw [List.getD_eq_getElem name 0 hin]
      exact (List.getElem_append_left hin).symm
    · rw [List.getD_eq_default _ _ (by omega), List.getElem_append_right (by omega), List.getElem_replicate]
  rw [SoreOS.cstr, hread, show 105 - name.length = 104 - name.length + 1 from by omega, List.replicate_succ,
    takeWhile_terminated]

theorem HoldsName.cstr {longName : Bytes} {name : List UInt8} (h : HoldsName longName name 0)
    (hlen : name.length ≤ 104) (hchars : 0 ∉ name) : cstr longName 105 = name := by
  rw [h.cstr_takeWhile hlen, List.takeWhile_eq_self_iff]
  intro c hc
  rw [decide_eq_true_eq]
  rintro rfl
  exact hchars hc

theorem pieces_le {name : List UInt8} (h : name.length ≤ 104) : pieces name ≤ 8 := by
  unfold pieces
  omega

/-- The raw short name is what the scanning functions make of the record. -/
theorem IsShort.shortName {r : Bytes} {f : LiveFile} (h : IsShort r f) : shortName r = f.raw := by
  have hcell : ∀ (i : Nat) (hi : i < f.raw.length), r i = f.raw[i] := by
    have hread : r.read 0 f.raw.length = f.raw := by rw [f.raw_length, h.raw]
    rw [Mem.read_eq_iff] at hread
    intro i hi
    rw [← hread i hi, Int.zero_add]
  have hlen := f.raw_length
  apply cstr_eq (by omega) f.raw_chars
  · intro i hi
    rw [memcpyObj, Mem.copyFrom_apply, if_pos (by omega), ← hcell i hi]
    apply congrArg
    omega
  · rw [memcpyObj, Mem.copyFrom_apply, if_neg (by omega)]

theorem IsShort.first {r : Bytes} {f : LiveFile} (h : IsShort r f) : r 0 ≠ 0 ∧ r 0 ≠ 0xE5 := by
  have hraw : r 0 :: r.read 1 10 = f.raw := h.raw
  constructor
  · intro h0
    apply f.raw_chars
    rw [← hraw, h0]
    exact List.mem_cons_self
  · intro hdel
    apply f.raw_first
    rw [← hraw, hdel]
    rfl

/-- What the scan reads from the number of a piece. -/
theorem IsPiece.number_cases {r : Bytes} {name : List UInt8} {j : Nat} (h : IsPiece r name j)
    (hpos : 0 < j) (hle : j ≤ 8) :
    r 0 ≠ 0 ∧ r 0 ≠ 0xE5 ∧ (r 0 &&& 0x0F).toNat = j ∧
      ((r 0 &&& 0xF0 = 0x40) ↔ j = pieces name) := by
  have hall : ∀ j : Fin 9, 0 < j.val → ∀ last : Bool,
      let b := UInt8.ofNat j ||| (if last then 0x40 else 0)
      b ≠ 0 ∧ b ≠ 0xE5 ∧ (b &&& 0x0F).toNat = j ∧ (b &&& 0xF0 = 0x40 ↔ last = true) := by decide
  have := hall ⟨j, by omega⟩ hpos (decide (j = pieces name))
  rw [h.number]
  simpa using this

/-! ## The scan -/

/-- The visits of a scan to files, given the numbers of their short records. -/
def visitFiles {R : Type} (visit : Visit R) : List (Nat × LiveFile) → FsState → Option R × FsState
  | [], s => (none, s)
  | (k, f) :: files, s =>
    match visit s (32 * k) f.long with
    | (some result, s) => (some result, s)
    | (none, s) => visitFiles visit files s

section Scan

variable {R : Type} {d : Drive} {visit : Visit R}

/-- A scan over the first `j` pieces of a name, in descending order: afterwards the name is
    in the buffer. -/
theorem scanLoop_pieces {name : List UInt8} (hlen : name.length ≤ 104) (j : Nat) {s : FsState}
    {k : Nat} {v : Scan} (hj : j ≤ pieces name) (hidx : j = pieces name ∨ v.LongFileNameIdx = j)
    (hpieces : ∀ i < j, IsPiece (subBuffer s.ClusterBuffer (32 * (k + i : Nat))) name (j - i))
    (hname : HoldsName v.longName name j) (hoff : v.recordOffset = 32 * k)
    (hfits : 32 * (k + j + 1 : Int) ≤ clusterBytes s.fileSys) (hbytes : clusterBytes s.fileSys ≤ 2048)
    (rounds : Nat) :
    ∃ idx longName, HoldsName longName name 0 ∧
      scanLoop d visit (rounds + j) s v =
        scanLoop d visit rounds s ⟨32 * (k + j : Nat), idx, longName⟩ := by
  induction j generalizing k v with
  | zero =>
    refine ⟨v.LongFileNameIdx, v.longName, hname, ?_⟩
    rw [Nat.add_zero, Nat.add_zero, ← hoff]
  | succ j ih =>
    have hpiece : IsPiece (subBuffer s.ClusterBuffer v.recordOffset) name (j + 1) := by
      rw [hoff]
      exact hpieces 0 (by omega)
    have hle := pieces_le hlen
    obtain ⟨h0, hdel, hnumber, hmark⟩ := hpiece.number_cases (by omega) (by omega)
    rw [show subBuffer s.ClusterBuffer v.recordOffset 0 = s.ClusterBuffer v.recordOffset from by
      rw [subBuffer, Int.add_zero]] at h0 hdel hnumber hmark
    have hlfn : isLFN (subBuffer s.ClusterBuffer v.recordOffset) = true := by
      rw [isLFN, hpiece.attrib]
      rfl
    -- the mark on the first piece or the piece before set the expected number
    have hexp : expectedIdx (s.ClusterBuffer v.recordOffset) v.LongFileNameIdx = (j : Int) + 1 := by
      unfold expectedIdx
      split
      · rw [hnumber]
        push_cast
        rfl
      · rename_i hno
        obtain hlast | hidx := hidx
        · exact absurd (hmark.mpr hlast) hno
        · rw [hidx]
          push_cast
          rfl
    have hlen13 : (LFN_idxs.length : Int) = 13 := rfl
    have hround : scanRound d visit s v = _ :=
      scanRound_piece (by omega) (by omega) h0 hdel hlfn j (by rw [hnumber]; push_cast; rfl) hexp
    rw [readLFN_ok _ _ _ (by omega) (by omega), ok_bind,
      nextRecord_within (by dsimp only; push_cast at hfits; omega)] at hround
    dsimp only at hround
    rw [hoff, show (32 * (k : Int) + 32) = 32 * (k + 1 : Nat) from by push_cast; omega] at hround
    obtain ⟨idx, longName, hname', hrun⟩ := @ih (k + 1) ⟨_, _, _⟩ (by omega) (.inr rfl)
      (fun i hi => by
        have := hpieces (i + 1) (by omega)
        rw [show k + (i + 1) = k + 1 + i from by omega, show j + 1 - (i + 1) = j - i from by omega] at this
        exact this)
      (by
        have := hname.withPiece hpiece
        rw [Int.mul_comm] at this
        exact this)
      rfl (by push_cast at hfits ⊢; omega)
    refine ⟨idx, longName, hname', ?_⟩
    rw [← Nat.add_assoc, scanLoop, hround]
    rw [show k + (j + 1) = k + 1 + j from by omega, ← hrun]
    rw [← hoff]
    rfl

/-- The round at a short record, with the file's long name in the buffer. -/
theorem scanRound_short {s : FsState} {f : LiveFile} {off : Int} {idx : Int} {longName : Bytes}
    (hin : 0 ≤ off) (hin' : off < 2048) (hshort : IsShort (subBuffer s.ClusterBuffer off) f)
    (hname : cstr longName 105 = f.long) {res : Option R} {t : FsState}
    (hvisit : visit s off f.long = (res, t)) :
    scanRound d visit s ⟨off, idx, longName⟩ =
      res.elim (nextRecord d t ⟨off, idx, memset longName 0 0 105⟩) fun result =>
        .ok (.ended (some result) t) := by
  obtain ⟨h0, hdel⟩ := hshort.first
  rw [subBuffer, Int.add_zero] at h0 hdel
  rw [← hname] at hvisit
  cases res with
  | some result => exact scanRound_found (v := ⟨off, idx, longName⟩) hin hin' h0 hdel hshort.notLFN hvisit
  | none => exact scanRound_file (v := ⟨off, idx, longName⟩) hin hin' h0 hdel hshort.notLFN hvisit

/-- A cleared name buffer. -/
theorem blank_memset (longName : Bytes) : ∀ p : Nat, p < 105 → memset longName 0 0 105 p = 0 := by
  intro p hp
  rw [memset, Mem.fill_apply, if_pos (by omega)]

/-- A scan of a cluster that holds a directory visits its files, with their long names. -/
theorem scanLoop_holds (hquiet : Quiet visit) (es : List Entry) {s : FsState} {k : Nat} {v : Scan}
    (hholds : Holds s.ClusterBuffer k es) (hoff : v.recordOffset = 32 * k)
    (hblank : ∀ p : Nat, p < 105 → v.longName p = 0)
    (hfits : 32 * (k + recordCount es + 1 : Int) ≤ clusterBytes s.fileSys)
    (hbytes : clusterBytes s.fileSys ≤ 2048) {rounds : Nat} (hrounds : recordCount es < rounds) :
    scanLoop d visit rounds s v = .ok (visitFiles visit (placed k es) s) := by
  induction es generalizing s k v rounds with
  | nil =>
    obtain ⟨rounds, rfl⟩ : ∃ n, rounds = n + 1 := ⟨rounds - 1, by omega⟩
    have hend : s.ClusterBuffer v.recordOffset = 0 := hoff ▸ hholds
    rw [scanLoop, scanRound_end (by omega) (by simp only [recordCount] at hfits; omega) hend]
    rfl
  | cons e es ih =>
    cases e with
    | deleted =>
      simp only [recordCount] at hfits hrounds
      push_cast at hfits
      obtain ⟨rounds, rfl⟩ : ∃ n, rounds = n + 1 := ⟨rounds - 1, by omega⟩
      have hdel : s.ClusterBuffer v.recordOffset = 0xE5 := hoff ▸ hholds.1
      rw [scanLoop, scanRound_deleted (by omega) (by omega) hdel, nextRecord_within (by omega)]
      exact ih (k := k + 1) (v := { v with recordOffset := v.recordOffset + 32 }) hholds.2
        (by dsimp only; push_cast; omega) hblank (by push_cast; omega) hbytes (by omega)
    | live f =>
      obtain ⟨hpieces, hshort, hrest⟩ := hholds
      simp only [recordCount] at hfits hrounds
      push_cast at hfits
      obtain ⟨rounds, rfl⟩ : ∃ n, rounds = n + 1 + pieces f.long := ⟨rounds - 1 - pieces f.long, by omega⟩
      -- the pieces of the long name
      obtain ⟨idx, longName, hname, hrun⟩ := @scanLoop_pieces R d visit f.long f.long_length
        (pieces f.long) s k v (Nat.le_refl _) (.inl rfl) hpieces (holdsName_blank hblank f.long) hoff
        (by omega) hbytes (rounds + 1)
      rw [hrun]
      -- the short record
      obtain ⟨out, hout⟩ := hquiet s (32 * (k + pieces f.long : Nat)) f.long
      have hcstr : cstr longName 105 = f.long := hname.cstr f.long_length f.long_chars
      obtain ⟨res, hvisit⟩ : ∃ res, visit s (32 * (k + pieces f.long : Nat)) f.long =
          (res, { s with out := out }) := ⟨_, Prod.ext rfl hout⟩
      rw [scanLoop, scanRound_short (by omega) (by push_cast; omega) hshort hcstr hvisit, placed,
        visitFiles, hvisit]
      cases res with
      | some result => rfl
      | none =>
        rw [Option.elim_none, nextRecord_within (by dsimp only; push_cast; omega)]
        exact ih (s := { s with out := out }) (k := k + pieces f.long + 1)
          (v := ⟨32 * (k + pieces f.long : Nat) + 32, idx, memset longName 0 0 105⟩) hrest
          (by dsimp only; push_cast; omega) (blank_memset longName) (by push_cast; omega) hbytes
          (by omega)

end Scan

end SoreOS
