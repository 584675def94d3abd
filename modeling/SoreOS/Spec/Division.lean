import SoreOS.Native.Loader

/-!
# Dividing 32 bits by 16

`div32` is a long division by one word: two divisions, and a third one of the remainder
that the first digit leaves. Two remainders are added at the end, and one more divisor
is taken out of the sum, if it is not less than the divisor as a signed number.

## Key results

- `div32_value`: what the instructions compute
- `slt_sum_iff`: when the signed comparison says what it should
- `div32_iff`: when the division is right
- `not_divides`: a quotient that is too large
-/

namespace SoreOS.Boot

open ForStd

/-! ## The instructions -/

/-- A high word below the divisor leaves a quotient of one word. -/
theorem div_eq (dx ax cx : Word) (h : dx.toNat < cx.toNat) :
    ∃ quotient rest : Word, div dx ax cx = some (quotient, rest) ∧
      quotient.toNat = (dx.toNat * 65536 + ax.toNat) / cx.toNat ∧
      rest.toNat = (dx.toNat * 65536 + ax.toNat) % cx.toNat := by
  have hn : (dx ++ ax).toNat = dx.toNat * 65536 + ax.toNat := toNat_append dx ax
  have hax := ax.isLt
  have hcx := cx.isLt
  have hquotient : (dx.toNat * 65536 + ax.toNat) / cx.toNat < 65536 := by
    rw [Nat.div_lt_iff_lt_mul (by omega)]
    omega
  have hrest := Nat.mod_lt (dx.toNat * 65536 + ax.toNat) (show 0 < cx.toNat by omega)
  have hne : cx ≠ 0 := by
    rintro rfl
    exact absurd h (Nat.not_lt_zero _)
  refine ⟨BitVec.ofNat 16 ((dx.toNat * 65536 + ax.toNat) / cx.toNat),
    BitVec.ofNat 16 ((dx.toNat * 65536 + ax.toNat) % cx.toNat), ?_, ?_, ?_⟩
  · rw [div, hn, if_pos ⟨hne, hquotient⟩]
  · rw [BitVec.toNat_ofNat]
    exact Nat.mod_eq_of_lt hquotient
  · rw [BitVec.toNat_ofNat]
    exact Nat.mod_eq_of_lt (by omega)

/-- `add %ax, LOWER` and the increment of `UPPER`. -/
theorem carry_to_UPPER (UPPER LOWER ax : Word) :
    (if LOWER.uaddOverflow ax then UPPER + 1 else UPPER) ++ (LOWER + ax) = (UPPER ++ LOWER) + ((0 : Word) ++ ax) := by
  have hflag : UPPER + 0 + flag (LOWER.uaddOverflow ax) = if LOWER.uaddOverflow ax then UPPER + 1 else UPPER := by
    rw [show UPPER + 0 = UPPER from BitVec.add_zero _]
    cases LOWER.uaddOverflow ax with
    | true => rfl
    | false => exact BitVec.add_zero _
  rw [← append_add, hflag]

/-- Dividing a remainder in front of a zero word leaves room for the increment after it. -/
theorem div_remainder_lt {r d : Nat} (hr : r < d) (hd : d < 65536) : r * 65536 / d < 65535 := by
  rw [Nat.div_lt_iff_lt_mul (Nat.zero_lt_of_lt hr)]
  omega

/-! ## The two remainders -/

/-- The remainders of the two words, the high one in its place. -/
def remainders (ax dx cx : Word) : Nat := dx.toNat * 65536 % cx.toNat + ax.toNat % cx.toNat

/-- The quotient without the divisor that the remainders may contain. -/
def quotients (ax dx cx : Word) : Nat :=
  dx.toNat / cx.toNat * 65536 + (dx.toNat % cx.toNat * 65536 / cx.toNat + ax.toNat / cx.toNat)

/-- Quotient and remainder by the sum of the remainders. -/
theorem div_mod_eq {cx : Word} (h0 : 0 < cx.toNat) (ax dx : Word) :
    (dx ++ ax).toNat / cx.toNat =
        (if remainders ax dx cx < cx.toNat then quotients ax dx cx else quotients ax dx cx + 1) ∧
      (dx ++ ax).toNat % cx.toNat =
        if remainders ax dx cx < cx.toNat then remainders ax dx cx else remainders ax dx cx - cx.toNat := by
  have hn : (dx ++ ax).toNat = dx.toNat * 65536 + ax.toNat := toNat_append dx ax
  have hhigh : dx.toNat % cx.toNat * 65536 % cx.toNat = dx.toNat * 65536 % cx.toNat := Nat.mod_mul_mod ..
  rw [hn, remainders, ← hhigh]
  exact div_two_digits h0

theorem remainders_lt {cx : Word} (h0 : 0 < cx.toNat) (ax dx : Word) : remainders ax dx cx < 2 * cx.toNat := by
  have hhigh := Nat.mod_lt (dx.toNat * 65536) h0
  have hlow := Nat.mod_lt ax.toNat h0
  unfold remainders
  omega

/-- What `div32` computes: it compares the sum as a word, and as a signed one. -/
theorem div32_value {cx : Word} (h0 : 0 < cx.toNat) (ax dx : Word) :
    ∃ LOWER UPPER rest : Word, div32 ax dx cx = some (LOWER, UPPER, rest) ∧
      if (BitVec.ofNat 16 (remainders ax dx cx)).slt cx then
        (UPPER ++ LOWER).toNat = quotients ax dx cx ∧ rest = BitVec.ofNat 16 (remainders ax dx cx)
      else
        (UPPER ++ LOWER).toNat = (quotients ax dx cx + 1) % 4294967296 ∧
          rest = BitVec.ofNat 16 (remainders ax dx cx) - cx := by
  have hzero : (0 : Word).toNat = 0 := rfl
  obtain ⟨LOWER, low, hdiv₁, hLOWER, hlow⟩ := div_eq 0 ax cx (by omega)
  obtain ⟨UPPER, high, hdiv₂, hUPPER, hhigh⟩ := div_eq 0 dx cx (by omega)
  rw [hzero, Nat.zero_mul, Nat.zero_add] at hLOWER hlow hUPPER hhigh
  have hhigh' : high.toNat < cx.toNat := hhigh ▸ Nat.mod_lt _ h0
  obtain ⟨quotient, rest, hdiv₃, hquotient, hrest⟩ := div_eq high 0 cx hhigh'
  rw [hzero, Nat.add_zero] at hquotient hrest
  have hsum : rest + low = BitVec.ofNat 16 (remainders ax dx cx) := by
    apply BitVec.eq_of_toNat_eq
    rw [BitVec.toNat_add, hrest, hlow, hhigh, BitVec.toNat_ofNat, remainders, Nat.mod_mul_mod]
  -- the increment does not wrap around, and the quotient is a number of 32 bits
  have hfits : quotient.toNat < 65535 := hquotient ▸ div_remainder_lt hhigh' cx.isLt
  have hq : quotients ax dx cx = UPPER.toNat * 65536 + (quotient.toNat + LOWER.toNat) := by
    rw [quotients, hUPPER, hquotient, hLOWER, hhigh]
  have hlt : quotients ax dx cx < 4294967296 := by
    have hle := Nat.div_le_self (dx ++ ax).toNat cx.toNat
    have hN := (dx ++ ax).isLt
    obtain ⟨hdiv, -⟩ := div_mod_eq h0 ax dx
    split at hdiv <;> omega
  unfold div32
  simp only [hdiv₁, hdiv₂, hdiv₃, Option.bind_eq_bind, Option.bind_some, Option.pure_def, hsum]
  cases (BitVec.ofNat 16 (remainders ax dx cx)).slt cx with
  | true =>
    simp only [if_true]
    refine ⟨_, _, _, rfl, ?_, rfl⟩
    rw [carry_to_UPPER, BitVec.toNat_add, toNat_append, toNat_append, hzero]
    omega
  | false =>
    have hinc : (quotient + 1).toNat = quotient.toNat + 1 := by
      rw [BitVec.toNat_add]
      exact Nat.mod_eq_of_lt (Nat.succ_lt_succ hfits)
    simp only [Bool.false_eq_true, if_false]
    refine ⟨_, _, _, rfl, ?_, rfl⟩
    rw [carry_to_UPPER, BitVec.toNat_add, toNat_append, toNat_append, hzero, hinc]
    omega

/-! ## The signed comparison -/

/-- The sum of the remainders is compared as it should be: it and a divisor below `0x8000` are
    positive as signed numbers; with a greater divisor, it is negative as well, or a carry is lost
    and what is left of it is positive. -/
def Compares (d sum : Nat) : Prop := if d < 0x8000 then sum < 0x8000 else 0x8000 ≤ sum ∧ sum < 0x18000

instance (d sum : Nat) : Decidable (Compares d sum) := inferInstanceAs (Decidable (ite _ _ _))

theorem slt_sum_iff {cx : Word} {sum : Nat} (hsum : sum < 2 * cx.toNat) :
    ((BitVec.ofNat 16 sum).slt cx = true ↔ sum < cx.toNat) ↔ Compares cx.toNat sum := by
  have hcx := cx.isLt
  rw [BitVec.slt, decide_eq_true_iff, BitVec.toInt_eq_toNat_cond, BitVec.toInt_eq_toNat_cond, BitVec.toNat_ofNat]
  unfold Compares
  split <;> split <;> split <;> omega

/-- Up to the divisor `0x4000`, the sum is less than `0x8000`. -/
theorem compares_of_le {ax dx cx : Word} (h0 : 0 < cx.toNat) (hcx : cx.toNat ≤ 0x4000) :
    Compares cx.toNat (remainders ax dx cx) := by
  have hsum := remainders_lt h0 ax dx
  unfold Compares
  rw [if_pos (by omega)]
  omega

/-- `div32` raises no divide error, and leaves the quotient and the remainder. -/
def Divides (ax dx cx : Word) : Prop :=
  ∃ LOWER UPPER rest : Word, div32 ax dx cx = some (LOWER, UPPER, rest) ∧
    (UPPER ++ LOWER).toNat = (dx ++ ax).toNat / cx.toNat ∧ rest.toNat = (dx ++ ax).toNat % cx.toNat

theorem divides_iff_slt {cx : Word} (h0 : 0 < cx.toNat) (ax dx : Word) :
    Divides ax dx cx ↔
      ((BitVec.ofNat 16 (remainders ax dx cx)).slt cx = true ↔ remainders ax dx cx < cx.toNat) := by
  obtain ⟨LOWER, UPPER, rest, hdiv, hvalue⟩ := div32_value h0 ax dx
  obtain ⟨hquotient, hrest⟩ := div_mod_eq h0 ax dx
  have hsum := remainders_lt h0 ax dx
  have hN := (dx ++ ax).isLt
  have hle := Nat.div_le_self (dx ++ ax).toNat cx.toNat
  have hcx := cx.isLt
  have hdivides : Divides ax dx cx ↔ (UPPER ++ LOWER).toNat = (dx ++ ax).toNat / cx.toNat ∧
      rest.toNat = (dx ++ ax).toNat % cx.toNat := by
    constructor
    · intro hgiven
      obtain ⟨LOWER', UPPER', rest', hdiv', h⟩ := hgiven
      rw [hdiv] at hdiv'
      cases hdiv'
      exact h
    · exact fun h => ⟨LOWER, UPPER, rest, hdiv, h⟩
  rw [hdivides, hquotient, hrest]
  generalize remainders ax dx cx = sum at *
  generalize quotients ax dx cx = q at *
  cases hslt : (BitVec.ofNat 16 sum).slt cx with
  | true =>
    rw [hslt, if_pos rfl] at hvalue
    obtain ⟨hq, rfl⟩ := hvalue
    rw [hq, BitVec.toNat_ofNat]
    by_cases hlt : sum < cx.toNat
    · rw [if_pos hlt, if_pos hlt]
      exact iff_of_true ⟨rfl, Nat.mod_eq_of_lt (by omega)⟩ (iff_of_true rfl hlt)
    · -- the divisor is not taken out
      rw [if_neg hlt]
      exact iff_of_false (fun h => by omega) fun h => hlt (h.mp rfl)
  | false =>
    rw [hslt, if_neg Bool.false_ne_true] at hvalue
    obtain ⟨hq, rfl⟩ := hvalue
    rw [hq, BitVec.toNat_sub, BitVec.toNat_ofNat]
    by_cases hlt : sum < cx.toNat
    · -- the divisor is taken out, and was not in
      rw [if_pos hlt, if_pos hlt]
      rw [if_pos hlt] at hquotient
      exact iff_of_false (fun h => by omega) fun h => absurd (h.mpr hlt) Bool.false_ne_true
    · rw [if_neg hlt, if_neg hlt]
      rw [if_neg hlt] at hquotient
      exact iff_of_true ⟨Nat.mod_eq_of_lt (by omega), by omega⟩ (iff_of_false Bool.false_ne_true hlt)

/-- With a divisor other than zero, `div32` is right exactly if the sum of the remainders is compared right. -/
theorem div32_iff {cx : Word} (h0 : cx ≠ 0) (ax dx : Word) :
    Divides ax dx cx ↔ Compares cx.toNat (remainders ax dx cx) := by
  have hpos : 0 < cx.toNat := by
    refine Nat.pos_of_ne_zero fun hzero => h0 ?_
    exact BitVec.eq_of_toNat_eq hzero
  rw [divides_iff_slt hpos, slt_sum_iff (remainders_lt hpos ax dx)]

theorem div32_iff_entries : Divides 1000 0 128 ↔ Compares (128 : Word).toNat (remainders 1000 0 128) :=
  div32_iff (by decide) 1000 0

/-- 1 divided by 32768 is taken for 1, with 32769 left over. -/
theorem not_divides : ¬ Divides 1 0 0x8000 := by
  intro h
  obtain ⟨LOWER, UPPER, rest, hdiv, hquotient, -⟩ := h
  have hrun : div32 1 0 0x8000 = some (1, 0, 0x8001) := by decide
  rw [hrun] at hdiv
  cases hdiv
  exact absurd hquotient (by decide)

end SoreOS.Boot
