import SoreOS.Native.StringCompare
import SoreOS.Spec.Names

/-!
# The order of strings

`strcmp` stays inside both strings and tells equal ones from different ones. It orders
them by signed characters, while `memcmp` compares unsigned bytes.

## Key results

- `CStr.strcmp_eq`: the loop is the comparison of the characters
- `strcmp_eq_memcmp_iff`: when that is the one of `memcmp`
- `strcmp_iff`: when the function is right
- `not_comparesRight`: a character from the upper half
-/

namespace SoreOS

open ForStd

/-! ## The loops -/

/-- A round of the comparison: the strings end both, or differ, or the rest is compared. -/
theorem strcmp_round {as bs : List UInt8} (ha : 0 ∉ as) (hb : 0 ∉ bs) :
    strcmp as bs =
      if as.getD 0 0 = 0 ∧ bs.getD 0 0 = 0 then 0
      else if (as.getD 0 0).toInt8 < (bs.getD 0 0).toInt8 then -1
      else if (bs.getD 0 0).toInt8 < (as.getD 0 0).toInt8 then 1
      else strcmp as.tail bs.tail := by
  cases as with
  | nil =>
    cases bs with
    | nil => simp [strcmp]
    | cons b bs =>
      have hbne : b ≠ 0 := fun h => hb (h ▸ List.mem_cons_self)
      simp [strcmp, hbne]
  | cons a as =>
    have hane : a ≠ 0 := fun h => ha (h ▸ List.mem_cons_self)
    cases bs with
    | nil => simp [strcmp, hane]
    | cons b bs => simp [strcmp, hane]

namespace CStr

theorem load_eq (s : CStr) {i : Nat} (h : i ≤ s.chars.length) : s.load i = .ok (s.chars.getD i 0) := if_pos h

theorem getD_eq_zero_iff (s : CStr) {i : Nat} (h : i ≤ s.chars.length) :
    s.chars.getD i 0 = 0 ↔ i = s.chars.length := by
  constructor
  · intro hzero
    by_contra hne
    have hlt : i < s.chars.length := Nat.lt_of_le_of_ne h hne
    rw [List.getD_eq_getElem _ _ hlt] at hzero
    exact s.zero_not_mem (hzero ▸ List.getElem_mem hlt)
  · rintro rfl
    exact List.getD_eq_default _ _ (Nat.le_refl _)

/-- `strlen` counts the characters, with a round more than there are. -/
theorem strlen_eq (s : CStr) {rounds i : Nat} (hi : i ≤ s.chars.length) :
    s.strlen rounds i = .ok s.chars.length ∨
      rounds ≤ s.chars.length - i ∧ s.strlen rounds i = .error .running := by
  induction rounds generalizing i with
  | zero => exact .inr ⟨Nat.zero_le _, rfl⟩
  | succ rounds ih =>
    rw [strlen, load_eq s hi, ok_bind]
    by_cases hend : i = s.chars.length
    · rw [if_neg (not_not.mpr ((s.getD_eq_zero_iff hi).mpr hend)), hend]
      exact .inl rfl
    · rw [if_pos (mt (s.getD_eq_zero_iff hi).mp hend)]
      obtain hok | ⟨hrounds, hrun⟩ := ih (i := i + 1) (by omega)
      · exact .inl hok
      · exact .inr ⟨by omega, hrun⟩

/-- A round of the loop inside both strings. -/
theorem strcmp_succ {astr bstr : CStr} {i : Nat} (ha : i ≤ astr.chars.length) (hb : i ≤ bstr.chars.length)
    (rounds : Nat) : astr.strcmp bstr (rounds + 1) i =
      if astr.chars.getD i 0 = 0 ∧ bstr.chars.getD i 0 = 0 then .ok 0
      else if (astr.chars.getD i 0).toInt8 < (bstr.chars.getD i 0).toInt8 then .ok (-1)
      else if (bstr.chars.getD i 0).toInt8 < (astr.chars.getD i 0).toInt8 then .ok 1
      else astr.strcmp bstr rounds (i + 1) := by
  rw [strcmp, load_eq astr ha, load_eq bstr hb, ok_bind]
  by_cases hazero : astr.chars.getD i 0 = 0
  · by_cases hbzero : bstr.chars.getD i 0 = 0
    · rw [if_neg (not_not.mpr hazero), if_pos ⟨hazero, hbzero⟩, hbzero]
      rfl
    · rw [if_neg (not_not.mpr hazero), if_neg fun h => hbzero h.2]
      simp only [Except.map, Functor.map, hbzero, ne_eq, not_false_eq_true, decide_true, ok_bind, if_true, pure_eq_ok]
  · rw [if_pos hazero, if_neg fun h => hazero h.1]
    simp only [pure_eq_ok, ok_bind, if_true]

/-- The loop reads no character behind the terminator of the shorter string: there the two
    characters differ, or both strings end. -/
theorem strcmp_eq (astr bstr : CStr) {rounds i : Nat} (ha : i ≤ astr.chars.length) (hb : i ≤ bstr.chars.length) :
    astr.strcmp bstr rounds i = .ok (SoreOS.strcmp (astr.chars.drop i) (bstr.chars.drop i)) ∨
      rounds ≤ min astr.chars.length bstr.chars.length - i ∧ astr.strcmp bstr rounds i = .error .running := by
  induction rounds generalizing i with
  | zero => exact .inr ⟨Nat.zero_le _, rfl⟩
  | succ rounds ih =>
    have hround := strcmp_round (fun h => astr.zero_not_mem (List.mem_of_mem_drop (i := i) h))
      fun h => bstr.zero_not_mem (List.mem_of_mem_drop (i := i) h)
    have hhead : ∀ l : List UInt8, (l.drop i).getD 0 0 = l.getD i 0 := by
      intro l
      rw [List.getD_eq_getElem?_getD, List.getD_eq_getElem?_getD, List.getElem?_drop, Nat.add_zero]
    rw [hhead, hhead, List.tail_drop, List.tail_drop] at hround
    rw [strcmp_succ ha hb, hround]
    split
    · exact .inl rfl
    rename_i hends
    split
    · exact .inl rfl
    rename_i hless
    split
    · exact .inl rfl
    rename_i hgreater
    -- the characters are equal, and none of them is a terminator
    have heq : astr.chars.getD i 0 = bstr.chars.getD i 0 :=
      ((signed_cases _ _).resolve_left hless).resolve_left hgreater
    have hane : i ≠ astr.chars.length := fun h =>
      hends ⟨(astr.getD_eq_zero_iff ha).mpr h, heq ▸ (astr.getD_eq_zero_iff ha).mpr h⟩
    have hbne : i ≠ bstr.chars.length := fun h =>
      hends ⟨heq ▸ (bstr.getD_eq_zero_iff hb).mpr h, (bstr.getD_eq_zero_iff hb).mpr h⟩
    obtain hok | ⟨hrounds, hrun⟩ := ih (i := i + 1) (by omega) (by omega)
    · exact .inl hok
    · exact .inr ⟨by omega, hrun⟩

end CStr

/-! ## The two orders -/

/-- Signed characters are ordered like bytes within a half, and the upper half comes first. -/
theorem toInt8_lt_iff (a b : UInt8) :
    a.toInt8 < b.toInt8 ↔ if (a < 0x80 ↔ b < 0x80) then a < b else ¬ a < 0x80 := by
  have ha := a.toNat_lt
  have hb := b.toNat_lt
  have hsigned : ∀ c : UInt8, c.toInt8.toInt = if 2 * c.toNat < 256 then (c.toNat : Int) else (c.toNat : Int) - 256 := by
    intro c
    rw [← Int8.toInt_toBitVec, UInt8.toBitVec_toInt8, BitVec.toInt_eq_toNat_cond]
    rfl
  rw [Int8.lt_iff_toInt_lt, hsigned, hsigned]
  simp only [UInt8.lt_iff_toNat_lt, show (0x80 : UInt8).toNat = 128 from rfl]
  split <;> split <;> split <;> omega

/-- At the first place where two strings differ, both characters are ASCII or none of them is. The
    terminator is ASCII. -/
def SameHalf (as bs : List UInt8) : Prop :=
  ∀ i, as.take i = bs.take i → (as.getD i 0 < 0x80 ↔ bs.getD i 0 < 0x80)

theorem sameHalf_cons {a b : UInt8} {as bs : List UInt8} :
    SameHalf (a :: as) (b :: bs) ↔ (a < 0x80 ↔ b < 0x80) ∧ (a = b → SameHalf as bs) := by
  constructor
  · intro h
    refine ⟨h 0 rfl, fun hab i htake => ?_⟩
    exact h (i + 1) (by rw [List.take_succ_cons, List.take_succ_cons, hab, htake])
  · intro hgiven i htake
    obtain ⟨hhead, htail⟩ := hgiven
    cases i with
    | zero => exact hhead
    | succ i =>
      obtain ⟨hab, hrest⟩ := List.cons.inj htake
      exact htail hab i hrest

theorem sameHalf_refl (as : List UInt8) : SameHalf as as := fun _ _ => Iff.rfl

/-- Different first characters, one of which may be the terminator. -/
theorem sameHalf_of_ne {as bs : List UInt8} (hne : as.getD 0 0 ≠ bs.getD 0 0) :
    SameHalf as bs ↔ (as.getD 0 0 < 0x80 ↔ bs.getD 0 0 < 0x80) := by
  constructor
  · exact fun h => h 0 rfl
  · intro hhead i htake
    cases i with
    | zero => exact hhead
    | succ i =>
      -- the first characters would be equal
      refine absurd ?_ hne
      have hfirst := congrArg (·.getD 0 0) htake
      cases as <;> cases bs <;> simp at hfirst <;> simp [hfirst]

/-- `memcmp` compares the first bytes, and the rest behind equal ones. -/
theorem memcmp_round (as bs : List UInt8) (size : Nat) :
    memcmp (ofString as) (ofString bs) (size + 1) =
      if as.getD 0 0 < bs.getD 0 0 then -1 else if bs.getD 0 0 < as.getD 0 0 then 1
      else memcmp (ofString as.tail) (ofString bs.tail) size := by
  have hnext : ∀ (l : List UInt8) (i : Nat), ofString l (i + 1 : Nat) = ofString l.tail i := by
    intro l i
    cases l with
    | nil => rfl
    | cons c l => rfl
  have hrest : ∀ i, memcmpFrom (ofString as) (ofString bs) size (i + 1) =
      memcmpFrom (ofString as.tail) (ofString bs.tail) size i := by
    induction size with
    | zero => exact fun _ => rfl
    | succ size ih =>
      intro i
      rw [memcmpFrom, memcmpFrom, hnext, hnext, ih]
  rw [memcmp, memcmpFrom, hrest]
  rfl

/-- The comparisons of two different bytes have the same result exactly if they are of the same half. -/
theorem orders_agree_iff {a b : UInt8} (hne : a ≠ b) (r r' : Int) :
    ((if a.toInt8 < b.toInt8 then -1 else if b.toInt8 < a.toInt8 then 1 else r) =
      if a < b then -1 else if b < a then 1 else r') ↔ (a < 0x80 ↔ b < 0x80) := by
  have hne' : a.toNat ≠ b.toNat := fun h => hne (UInt8.toNat_inj.mp h)
  by_cases hhalf : a < 0x80 ↔ b < 0x80
  · have hless : a.toInt8 < b.toInt8 ↔ a < b := (toInt8_lt_iff a b).trans (by rw [if_pos hhalf])
    have hgreater : b.toInt8 < a.toInt8 ↔ b < a := (toInt8_lt_iff b a).trans (by rw [if_pos hhalf.symm])
    refine iff_of_true ?_ hhalf
    rw [if_congr hless rfl (if_congr hgreater rfl rfl)]
    split
    · rfl
    · rename_i hge
      have hlt : b < a := by
        rw [UInt8.lt_iff_toNat_lt] at hge ⊢
        omega
      rw [if_pos hlt, if_pos hlt]
  · have hless : a.toInt8 < b.toInt8 ↔ ¬ a < 0x80 := (toInt8_lt_iff a b).trans (by rw [if_neg hhalf])
    have hgreater : b.toInt8 < a.toInt8 ↔ ¬ b < 0x80 := (toInt8_lt_iff b a).trans (by rw [if_neg (mt Iff.symm hhalf)])
    refine iff_of_false ?_ hhalf
    rw [if_congr hless rfl (if_congr hgreater rfl rfl)]
    simp only [UInt8.lt_iff_toNat_lt, show (0x80 : UInt8).toNat = 128 from rfl] at hhalf ⊢
    -- the byte of the upper half is the greater one, and comes first as a character
    by_cases ha : a.toNat < 128
    · rw [if_neg (not_not.mpr ha), if_pos (by omega), if_pos (by omega)]
      decide
    · rw [if_pos ha, if_neg (by omega), if_pos (by omega)]
      decide

/-- The characters and the bytes up to the first terminator are ordered the same way exactly if the
    first ones that differ are of the same half. -/
theorem strcmp_eq_memcmp_iff {as bs : List UInt8} (ha : 0 ∉ as) (hb : 0 ∉ bs) :
    strcmp as bs = memcmp (ofString as) (ofString bs) (min as.length bs.length + 1) ↔ SameHalf as bs := by
  induction as generalizing bs with
  | nil =>
    cases bs with
    | nil => exact iff_of_true (strcmp_round ha hb) (sameHalf_refl [])
    | cons b bs =>
      have hbne : b ≠ 0 := fun h => hb (h ▸ List.mem_cons_self)
      have hne : ([] : List UInt8).getD 0 0 ≠ (b :: bs).getD 0 0 := hbne.symm
      rw [strcmp_round ha hb, if_neg fun h => hne (h.1.trans h.2.symm), memcmp_round, sameHalf_of_ne hne]
      exact orders_agree_iff hne _ _
  | cons a as ih =>
    have hane : a ≠ 0 := fun h => ha (h ▸ List.mem_cons_self)
    rw [strcmp_round ha hb, if_neg fun h => hane h.1, memcmp_round]
    by_cases hne : (a :: as).getD 0 0 ≠ bs.getD 0 0
    · rw [sameHalf_of_ne hne]
      exact orders_agree_iff hne _ _
    · cases bs with
      | nil => exact absurd hane hne
      | cons b bs =>
        -- the first characters are equal
        obtain rfl : a = b := not_not.mp hne
        have hrest := ih (fun h => ha (List.mem_cons_of_mem _ h)) fun h => hb (List.mem_cons_of_mem _ h)
        rw [sameHalf_cons, and_iff_right Iff.rfl, forall_prop_of_true rfl, ← hrest]
        simp

/-! ## The function -/

/-- `strcmp` returns without reading past a terminator. The result is 0 exactly for equal strings, and
    has the sign of `memcmp` up to the first terminator otherwise. -/
def ComparesRight (a b : CStr) : Prop :=
  ∃ rounds r n m, a.strcmp b rounds 0 = .ok r ∧ a.strlen rounds 0 = .ok n ∧ b.strlen rounds 0 = .ok m ∧
    (r = 0 ↔ a.chars = b.chars) ∧ (r ≠ 0 → r.sign = (memcmp a.bytes b.bytes (min n m + 1)).sign)

/-- The results are their own signs. -/
theorem strcmp_sign (as bs : List UInt8) : (strcmp as bs).sign = strcmp as bs := by
  fun_induction strcmp as bs <;> first | rfl | assumption

theorem memcmpFrom_sign (a b : Bytes) (size i : Nat) : (memcmpFrom a b size i).sign = memcmpFrom a b size i := by
  induction size generalizing i with
  | zero => rfl
  | succ size ih =>
    rw [memcmpFrom]
    split
    · rfl
    split
    · rfl
    · exact ih (i + 1)

/-- What the loops return, if they do. -/
theorem CStr.strlen_ok {s : CStr} {rounds n : Nat} (h : s.strlen rounds 0 = .ok n) : n = s.chars.length := by
  obtain hok | ⟨-, hrun⟩ := @strlen_eq s rounds 0 (Nat.zero_le _)
  · exact Except.ok.inj (h.symm.trans hok)
  · rw [h] at hrun
    cases hrun

theorem CStr.strcmp_ok {a b : CStr} {rounds : Nat} {r : Int} (h : a.strcmp b rounds 0 = .ok r) :
    r = SoreOS.strcmp a.chars b.chars := by
  obtain hok | ⟨-, hrun⟩ := @strcmp_eq a b rounds 0 (Nat.zero_le _) (Nat.zero_le _)
  · exact Except.ok.inj (h.symm.trans hok)
  · rw [h] at hrun
    cases hrun

/-- They return after finitely many rounds. -/
theorem CStr.returns (a b : CStr) : ∃ rounds, a.strcmp b rounds 0 = .ok (SoreOS.strcmp a.chars b.chars) ∧
    a.strlen rounds 0 = .ok a.chars.length ∧ b.strlen rounds 0 = .ok b.chars.length := by
  refine ⟨a.chars.length + b.chars.length + 1, ?_, ?_, ?_⟩
  · exact (a.strcmp_eq b (Nat.zero_le _) (Nat.zero_le _)).resolve_right fun h => by omega
  · exact (a.strlen_eq (Nat.zero_le _)).resolve_right fun h => by omega
  · exact (b.strlen_eq (Nat.zero_le _)).resolve_right fun h => by omega

/-- Two strings are compared right exactly if, at the first place where they differ, both characters are ASCII
    or none is. -/
theorem strcmp_iff (a b : CStr) : ComparesRight a b ↔ SameHalf a.chars b.chars := by
  have hzero := strcmp_eq_zero_iff a.zero_not_mem b.zero_not_mem
  rw [← strcmp_eq_memcmp_iff a.zero_not_mem b.zero_not_mem]
  constructor
  · intro h
    obtain ⟨rounds, r, n, m, hrun, hn, hm, -, hsign⟩ := h
    obtain rfl := CStr.strcmp_ok hrun
    obtain rfl := CStr.strlen_ok hn
    obtain rfl := CStr.strlen_ok hm
    by_cases heq : a.chars = b.chars
    · exact (strcmp_eq_memcmp_iff a.zero_not_mem b.zero_not_mem).mpr (heq ▸ sameHalf_refl _)
    · have hsame := hsign (mt hzero.mp heq)
      rwa [strcmp_sign, memcmp, memcmpFrom_sign] at hsame
  · intro hsame
    obtain ⟨rounds, hrun, hn, hm⟩ := a.returns b
    exact ⟨rounds, _, _, _, hrun, hn, hm, hzero, fun _ => by rw [hsame]; rfl⟩

/-- The string of the character 0x80 comes before "a", and its byte behind. -/
theorem not_comparesRight : ¬ ComparesRight ⟨[0x80], by decide⟩ ⟨[0x61], by decide⟩ := by
  intro h
  obtain ⟨rounds, r, n, m, hrun, hn, hm, -, hsign⟩ := h
  obtain rfl := CStr.strcmp_ok hrun
  obtain rfl := CStr.strlen_ok hn
  obtain rfl := CStr.strlen_ok hm
  rw [strcmp_sign] at hsign
  have hless : strcmp [0x80] [0x61] = -1 := by
    rw [strcmp_round (by decide) (by decide)]
    decide
  have hgreater : memcmp (CStr.bytes ⟨[0x80], by decide⟩) (CStr.bytes ⟨[0x61], by decide⟩) 2 = 1 := by decide
  have hsame := hsign (by rw [hless]; decide)
  rw [hless] at hsame
  exact absurd (hsame.trans (congrArg Int.sign hgreater)) (by decide)

end SoreOS
