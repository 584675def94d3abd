import SoreOS.Native.Filesys
import Mathlib.Data.List.GetD
import Mathlib.Data.List.TakeWhile

/-!
# Strings and names

Strings in memory and their comparison.

## Key results

- `cstr_eq`: the string that a memory holds
- `strcmp_eq_zero_iff`: strings compare as equal only if they are
-/

namespace SoreOS

open ForStd

/-- Memory holds a string if its cells are the characters and a terminator. -/
theorem cstr_eq {m : Bytes} {size : Nat} {l : List UInt8} (hlen : l.length < size) (hl : 0 ∉ l)
    (h : ∀ (i : Nat) (hi : i < l.length), m i = l[i]) (hend : m l.length = 0) :
    cstr m size = l := by
  have hread : m.read 0 l.length = l := by
    rw [Mem.read_eq_iff]
    intro i hi
    rw [Int.zero_add]
    exact h i hi
  obtain ⟨k, rfl⟩ : ∃ k, size = l.length + (k + 1) := ⟨size - l.length - 1, by omega⟩
  unfold cstr
  rw [Mem.read_add, hread, Int.zero_add, Mem.read_succ, hend, List.takeWhile_append_of_pos]
  · simp
  · intro b hb
    simp only [ne_eq, decide_eq_true_eq]
    rintro rfl
    exact hl hb

theorem zero_not_mem_cstr (m : Bytes) (size : Nat) : 0 ∉ cstr m size := by
  intro hmem
  unfold cstr at hmem
  have := List.mem_takeWhile_imp hmem
  simp at this

/-- Signed characters that are neither smaller nor greater are equal. -/
theorem signed_cases (a b : UInt8) :
    a.toInt8 < b.toInt8 ∨ b.toInt8 < a.toInt8 ∨ a = b := by
  rw [Int8.lt_iff_toInt_lt, Int8.lt_iff_toInt_lt]
  by_cases heq : a.toInt8.toInt = b.toInt8.toInt
  · have := congrArg Int8.toUInt8 (Int8.toInt_inj.mp heq)
    rw [UInt8.toUInt8_toInt8, UInt8.toUInt8_toInt8] at this
    exact .inr (.inr this)
  · omega

/-- `strcmp` is 0 exactly for equal strings. -/
theorem strcmp_eq_zero_iff {as bs : List UInt8} (ha : 0 ∉ as) (hb : 0 ∉ bs) :
    strcmp as bs = 0 ↔ as = bs := by
  induction as generalizing bs with
  | nil =>
    cases bs with
    | nil => simp [strcmp]
    | cons b bs =>
      -- the terminator of the first string differs from the character
      have hb0 : b ≠ 0 := fun h => hb (h ▸ List.mem_cons_self)
      unfold strcmp
      obtain hlt | hlt | rfl := signed_cases 0 b
      · rw [if_pos (show 0 < b.toInt8 from hlt)]
        simp
      · rw [if_pos (show b.toInt8 < 0 from hlt)]
        split <;> simp
      · exact absurd rfl hb0
  | cons a as ih =>
    have ha0 : a ≠ 0 := fun h => ha (h ▸ List.mem_cons_self)
    cases bs with
    | nil =>
      unfold strcmp
      obtain hlt | hlt | rfl := signed_cases a 0
      · rw [if_pos (show a.toInt8 < 0 from hlt)]
        simp
      · rw [if_pos (show 0 < a.toInt8 from hlt)]
        split <;> simp
      · exact absurd rfl ha0
    | cons b bs =>
      rw [List.mem_cons, not_or] at ha hb
      unfold strcmp
      by_cases heq : a = b
      · subst heq
        rw [if_neg (by simp), if_neg (by simp), ih ha.2 hb.2]
        simp
      · have hcons : a :: as ≠ b :: bs := fun h => heq (List.cons.inj h).1
        obtain hlt | hlt | h := signed_cases a b
        · rw [if_pos hlt]
          simp [hcons]
        · rw [if_pos hlt]
          split <;> simp [hcons]
        · exact absurd h heq

/-! ## What a search looks for -/

/-- All characters are capital letters. -/
def Upper (l : List UInt8) : Prop := ∀ c ∈ l, 65 ≤ c ∧ c ≤ 90

/-- A name as the 11 bytes of a short record, with no extension. -/
def pad11 (name : List UInt8) : List UInt8 := name ++ List.replicate (11 - name.length) SPACE

/-- The names that are padded: those of the directory itself and its parent, and up to
    eight capital letters. -/
def Plain (name : List UInt8) : Prop :=
  name = [DOT] ∨ name = [DOT, DOT] ∨ (Upper name ∧ name.length ≤ 8)

/-- The names of which only the extension is kept. -/
structure Dotted (name base ext : List UInt8) : Prop where
  eq : name = base ++ DOT :: ext
  upper_base : Upper base
  upper_ext : Upper ext
  base_length : 1 ≤ base.length ∧ base.length ≤ 9
  ext_length : ext.length ≤ 2

theorem Upper.dot_not_mem {l : List UInt8} (h : Upper l) : DOT ∉ l :=
  fun hmem => absurd (h DOT hmem).1 (by decide)

theorem Upper.zero_not_mem {l : List UInt8} (h : Upper l) : 0 ∉ l :=
  fun hmem => absurd (h 0 hmem).1 (by decide)

theorem Upper.space_not_mem {l : List UInt8} (h : Upper l) : SPACE ∉ l :=
  fun hmem => absurd (h SPACE hmem).1 (by decide)

/-- Index of the last dot of a name from index `i` on, or `dotIdx` if there is none. -/
def lastDot : List UInt8 → Int → Int → Int
  | [], _, dotIdx => dotIdx
  | c :: cs, i, dotIdx => lastDot cs (i + 1) (if c = DOT then i else dotIdx)

theorem lastDot_not_mem {l : List UInt8} (h : DOT ∉ l) (i dotIdx : Int) : lastDot l i dotIdx = dotIdx := by
  induction l generalizing i with
  | nil => rfl
  | cons c cs ih =>
    rw [List.mem_cons, not_or] at h
    rw [lastDot, if_neg (Ne.symm h.1), ih h.2]

theorem lastDot_append {base ext : List UInt8} (hbase : DOT ∉ base) (hext : DOT ∉ ext) (i dotIdx : Int) :
    lastDot (base ++ DOT :: ext) i dotIdx = i + base.length := by
  induction base generalizing i dotIdx with
  | nil =>
    rw [List.nil_append, lastDot, if_pos rfl, lastDot_not_mem hext]
    simp
  | cons c cs ih =>
    rw [List.mem_cons, not_or] at hbase
    rw [List.cons_append, lastDot, if_neg (Ne.symm hbase.1), ih hbase.2, List.length_cons]
    push_cast
    omega

/-- All characters but the dots are capital letters. -/
def upperOrDot (l : List UInt8) : Bool := l.all fun c => decide (c = DOT) || decide (65 ≤ c ∧ c ≤ 90)

/-- What the counting loop finds out about a name. -/
theorem countDots_eq (l : List UInt8) (i dotIdx dotCount : Int) (caseOk : Bool) :
    countDots l i dotIdx dotCount caseOk =
      (lastDot l i dotIdx, dotCount + l.count DOT, caseOk && upperOrDot l) := by
  unfold upperOrDot
  induction l generalizing i dotIdx dotCount caseOk with
  | nil => simp [countDots, lastDot]
  | cons c cs ih =>
    rw [countDots, lastDot, List.all_cons]
    by_cases hc : c = DOT
    · rw [if_pos hc, ih, if_pos hc, hc, List.count_cons_self]
      simp only [decide_true, Bool.true_or, Bool.true_and]
      push_cast
      rw [Int.add_assoc, Int.add_comm 1]
    · rw [if_neg hc, ih, if_neg hc, List.count_cons_of_ne (Ne.symm (Ne.symm hc))]
      simp only [hc, decide_false, Bool.false_or, Bool.and_assoc]

/-- The check on a name without dots holds exactly for capital letters. -/
theorem upper_iff {l : List UInt8} : Upper l ↔ upperOrDot l = true ∧ l.count DOT = 0 := by
  rw [upperOrDot, List.count_eq_zero, List.all_eq_true, Iff.comm]
  constructor
  · intro hgiven c hc
    obtain ⟨hall, hdot⟩ := hgiven
    have := hall c hc
    rw [Bool.or_eq_true, decide_eq_true_eq, decide_eq_true_eq] at this
    exact this.resolve_left fun h => hdot (h ▸ hc)
  · exact fun h => ⟨fun c hc => by simp [h c hc], h.dot_not_mem⟩

/-- A name with one dot is a base and an extension. -/
theorem exists_dotted {l : List UInt8} (h : l.count DOT = 1) :
    ∃ base ext, l = base ++ DOT :: ext ∧ DOT ∉ base ∧ DOT ∉ ext := by
  obtain ⟨base, ext, rfl, hbase⟩ :=
    List.eq_append_cons_of_mem (List.count_pos_iff.mp (show 0 < l.count DOT by omega))
  refine ⟨base, ext, rfl, hbase, ?_⟩
  rw [List.count_append, List.count_cons_self, List.count_eq_zero.mpr hbase] at h
  exact List.count_eq_zero.mp (by omega)

/-- The characters of a string as an object of its own. -/
theorem ofString_apply (s : List UInt8) {i : Nat} (hi : i < s.length) : ofString s i = s[i] :=
  List.getD_eq_getElem s 0 hi

theorem ofString_end (s : List UInt8) : ofString s s.length = 0 :=
  List.getD_eq_default s 0 (Nat.le_refl _)

theorem length_pad11 {name : List UInt8} (h : name.length ≤ 11) : (pad11 name).length = 11 := by
  rw [pad11, List.length_append, List.length_replicate]
  omega

theorem upperOrDot_append {base ext : List UInt8} :
    upperOrDot (base ++ DOT :: ext) = (upperOrDot base && upperOrDot ext) := by
  unfold upperOrDot
  rw [List.all_append, List.all_cons, decide_eq_true rfl, Bool.true_or, Bool.true_and]

/-- The names with an extension that is kept, by what the counting loop finds out. -/
theorem exists_dotted_iff {name : List UInt8} :
    (∃ base ext, Dotted name base ext) ↔ upperOrDot name = true ∧ name.count DOT = 1 ∧
      0 < lastDot name 0 0 ∧ lastDot name 0 0 ≤ 9 ∧ name.length - lastDot name 0 0 ≤ 3 := by
  constructor
  · intro h
    obtain ⟨base, ext, rfl, hbase, hext, hlen, hlen'⟩ := h
    have hb := upper_iff.mp hbase
    have he := upper_iff.mp hext
    rw [upperOrDot_append, hb.1, he.1, List.count_append, List.count_cons_self, hb.2, he.2,
      lastDot_append hbase.dot_not_mem hext.dot_not_mem, List.length_append, List.length_cons]
    refine ⟨rfl, rfl, by omega, by omega, by push_cast; omega⟩
  · intro h
    obtain ⟨hall, hcount, hpos, hle, hlen⟩ := h
    obtain ⟨base, ext, rfl, hbase, hext⟩ := exists_dotted hcount
    rw [upperOrDot_append, Bool.and_eq_true] at hall
    rw [lastDot_append hbase hext, List.length_append, List.length_cons] at hlen
    rw [lastDot_append hbase hext] at hpos hle
    push_cast at hlen
    exact ⟨base, ext, rfl, upper_iff.mpr ⟨hall.1, List.count_eq_zero.mpr hbase⟩,
      upper_iff.mpr ⟨hall.2, List.count_eq_zero.mpr hext⟩, by omega, by omega⟩

/-- The cases of `getShortName`. -/
theorem getShortName_eq (name : List UInt8) (buffer : Bytes) :
    getShortName name buffer =
      let blank := (memset buffer 0 SPACE 11).set 11 0
      if name.length = 1 ∧ name.count DOT = 1 then (true, blank.set 0 DOT)
      else if name.length = 2 ∧ name.count DOT = 2 then (true, (blank.set 0 DOT).set 1 DOT)
      else if upperOrDot name = true ∧ name.count DOT = 0 ∧ name.length ≤ 8 then
        (true, memcpyObj blank 0 (ofString name) 0 name.length)
      else if upperOrDot name = true ∧ name.count DOT = 1 ∧ 0 < lastDot name 0 0 ∧
          lastDot name 0 0 ≤ 9 ∧ name.length - lastDot name 0 0 ≤ 3 then
        (true, memcpyObj (memcpyObj blank 0 (ofString name) 0 (lastDot name 0 0 - 1).toNat) 0
          (ofString name) (lastDot name 0 0 + 1) (name.length - lastDot name 0 0).toNat)
      else (false, blank) := by
  unfold getShortName
  rw [countDots_eq]
  simp only [Bool.true_and, Int.zero_add, gt_iff_lt, Int.toNat_natCast]
  norm_cast

/-- A block that reads as a string and its terminator holds the string. -/
theorem cstr_of_read {m : Bytes} {size : Nat} {l : List UInt8} (hlen : l.length < size) (hl : 0 ∉ l)
    (h : m.read 0 (l.length + 1) = l ++ [0]) : cstr m size = l := by
  rw [Mem.read_succ_last, Int.zero_add] at h
  obtain ⟨hread, hend⟩ := List.append_inj' h rfl
  rw [Mem.read_eq_iff] at hread
  refine cstr_eq hlen hl (fun i hi => ?_) (List.cons.inj hend).1
  rw [← hread i hi, Int.zero_add]

/-- A name copied over a buffer of blanks is padded. -/
theorem read_padded (buffer : Bytes) {name : List UInt8} (hlen : name.length ≤ 11) :
    (memcpyObj ((memset buffer 0 SPACE 11).set 11 0) 0 (ofString name) 0 name.length).read 0 12 =
      pad11 name ++ [0] := by
  have hlen12 : (pad11 name ++ [0]).length = 12 := by
    rw [List.length_append, length_pad11 hlen]
    rfl
  rw [← hlen12, Mem.read_eq_iff]
  intro i hi
  rw [Int.zero_add, memcpyObj, Mem.copyFrom_apply]
  by_cases hin : i < name.length
  · have hpad : i < (pad11 name).length := by rw [length_pad11 hlen]; omega
    have hname : (pad11 name)[i] = name[i] := List.getElem_append_left hin
    rw [if_pos (by omega), show (0 : Int) + (i - 0) = i from by omega, ofString_apply name hin,
      List.getElem_append_left hpad, hname]
  · rw [if_neg (by omega)]
    by_cases hblank : i < 11
    · have hpad : i < (pad11 name).length := by rw [length_pad11 hlen]; exact hblank
      have hspace : (pad11 name)[i] = SPACE :=
        (List.getElem_append_right (by omega)).trans (List.getElem_replicate _)
      rw [List.getElem_append_left hpad, hspace, Mem.set_other _ _ (by omega),
        memset, Mem.fill_apply, if_pos (by omega)]
    · obtain rfl : i = 11 := by omega
      rw [show ((11 : Nat) : Int) = 11 from rfl, Mem.set_same,
        List.getElem_append_right (by rw [length_pad11 hlen])]
      simp [length_pad11 hlen]

theorem zero_not_mem_pad11 {name : List UInt8} (h : 0 ∉ name) : 0 ∉ pad11 name := by
  rw [pad11, List.mem_append]
  rintro (hmem | hmem)
  · exact h hmem
  · exact absurd (List.eq_of_mem_replicate hmem) (by decide)

/-- Up to eight capital letters are padded. -/
theorem getShortName_upper {name : List UInt8} (hupper : Upper name) (hlen : name.length ≤ 8) (buffer : Bytes) :
    getShortName name buffer =
      (true, memcpyObj ((memset buffer 0 SPACE 11).set 11 0) 0 (ofString name) 0 name.length) := by
  obtain ⟨hall, hcount⟩ := upper_iff.mp hupper
  rw [getShortName_eq, hcount]
  simp only [hall, hlen, true_and, and_self, if_true, Nat.zero_ne_one, and_false, if_false,
    show (0 = 2) = False from by simp]

/-- A plain name is looked for as a short name. -/
theorem searchTerm_plain {name : List UInt8} (h : Plain name) : searchTerm name = pad11 name := by
  obtain rfl | rfl | ⟨hupper, hlen⟩ := h
  · decide
  · decide
  · have hpad : (pad11 name).length = 11 := length_pad11 (by omega)
    unfold searchTerm
    rw [getShortName_upper hupper hlen]
    refine cstr_of_read (by omega) (zero_not_mem_pad11 hupper.zero_not_mem) ?_
    rw [hpad]
    exact read_padded _ (by omega)

/-- Of a dotted name only the extension is looked for. -/
theorem searchTerm_dotted {name base ext : List UInt8} (h : Dotted name base ext) :
    searchTerm name = ext := by
  obtain ⟨hall, hcount, hpos, hle, hlen⟩ := exists_dotted_iff.mp ⟨base, ext, h⟩
  obtain ⟨rfl, hbase, hext, hbl, hel⟩ := h
  have hdot : lastDot (base ++ DOT :: ext) 0 0 = base.length := by
    rw [lastDot_append hbase.dot_not_mem hext.dot_not_mem, Int.zero_add]
  have hlength : (base ++ DOT :: ext).length = base.length + 1 + ext.length := by
    rw [List.length_append, List.length_cons]
    omega
  unfold searchTerm
  rw [getShortName_eq, hcount, if_neg (by omega), if_neg (by omega), if_neg (by omega),
    if_pos ⟨hall, rfl, hpos, hle, hlen⟩, hdot, hlength]
  -- the copy of the extension, with its terminator, goes over the copy of the base
  apply cstr_eq (by omega) hext.zero_not_mem
  · intro i hi
    rw [memcpyObj, Mem.copyFrom_apply, if_pos (by push_cast; omega),
      show (base.length : Int) + 1 + (i - 0) = (base.length + 1 + i : Nat) from by push_cast; omega,
      ofString_apply _ (by omega)]
    rw [List.getElem_append_right (by omega)]
    simp [show base.length + 1 + i - base.length = i + 1 from by omega]
  · rw [memcpyObj, Mem.copyFrom_apply, if_pos (by push_cast; omega),
      show (base.length : Int) + 1 + (ext.length - 0) = (base.length + 1 + ext.length : Nat) from by
        push_cast; omega, ← hlength]
    exact ofString_end _

/-- The names that `getShortName` accepts. -/
theorem getShortName_iff (name : List UInt8) (buffer : Bytes) :
    (getShortName name buffer).1 = true ↔ Plain name ∨ ∃ base ext, Dotted name base ext := by
  have hone : name.length = 1 ∧ name.count DOT = 1 → name = [DOT] := by
    intro hgiven
    obtain ⟨hlen, hcount⟩ := hgiven
    exact List.eq_replicate_iff.mpr ⟨hlen, fun c hc => (List.count_eq_length.mp (hcount.trans hlen.symm) c hc).symm⟩
  have htwo : name.length = 2 ∧ name.count DOT = 2 → name = [DOT, DOT] := by
    intro hgiven
    obtain ⟨hlen, hcount⟩ := hgiven
    exact List.eq_replicate_iff.mpr ⟨hlen, fun c hc => (List.count_eq_length.mp (hcount.trans hlen.symm) c hc).symm⟩
  have hupper : (upperOrDot name = true ∧ name.count DOT = 0 ∧ name.length ≤ 8) ↔
      Upper name ∧ name.length ≤ 8 := by
    rw [← and_assoc, ← upper_iff]
  rw [exists_dotted_iff, getShortName_eq]
  dsimp only
  split
  · rename_i h
    exact iff_of_true rfl (.inl (.inl (hone h)))
  rename_i h1
  split
  · rename_i h
    exact iff_of_true rfl (.inl (.inr (.inl (htwo h))))
  rename_i h2
  split
  · rename_i h
    exact iff_of_true rfl (.inl (.inr (.inr (hupper.mp h))))
  rename_i h3
  split
  · rename_i h
    exact iff_of_true rfl (.inr h)
  rename_i h4
  refine iff_of_false Bool.false_ne_true ?_
  rintro ((rfl | rfl | h) | h)
  · exact h1 (by decide)
  · exact h2 (by decide)
  · exact h3 (hupper.mpr h)
  · exact h4 h

/-- Any other name is looked for as it is. -/
theorem searchTerm_other {name : List UInt8} (hplain : ¬ Plain name)
    (hdotted : ¬ ∃ base ext, Dotted name base ext) : searchTerm name = name := by
  have hshort : (getShortName name fun _ => 0).1 = false := by
    rw [← Bool.not_eq_true, getShortName_iff]
    exact not_or.mpr ⟨hplain, hdotted⟩
  unfold searchTerm
  split
  rename_i short buffer heq
  rw [heq] at hshort
  dsimp only at hshort
  rw [hshort]
  rfl

theorem zero_not_mem_searchTerm {name : List UInt8} (h : 0 ∉ name) : 0 ∉ searchTerm name := by
  unfold searchTerm
  split
  rename_i short buffer _
  cases short with
  | true => exact zero_not_mem_cstr buffer 105
  | false => exact h

end SoreOS
