import Mathlib.Data.Nat.Bitwise
import Mathlib.Tactic.Ring

/-!
# Numbers in two words

A number of `w + w` bits lies in a high and a low word of `w` bits, and is computed
with one word at a time.

## Key results

- `append_add`, `append_sub`: the carry of the low words goes into the high ones
- `append_shl`: the bits that leave the low word enter the high one
- `rotateLeft_and_mask`, `rotateLeft_and_not_mask`: both parts of a shifted word,
  from one rotated word and a mask
- `div_two_digits`: a long division by one digit
-/

namespace ForStd

variable {w : Nat}

theorem toNat_append (hi lo : BitVec w) : (hi ++ lo).toNat = hi.toNat * 2 ^ w + lo.toNat := by
  rw [BitVec.toNat_append, ← Nat.shiftLeft_add_eq_or_of_lt lo.isLt, Nat.shiftLeft_eq]

theorem append_inj {hi lo hi' lo' : BitVec w} : hi ++ lo = hi' ++ lo' ↔ hi = hi' ∧ lo = lo' := by
  constructor
  · intro h
    have hlo : lo = lo' := by
      have hlow := congrArg (fun x => x.toNat % 2 ^ w) h
      simp only [toNat_append, Nat.mul_add_mod_self_right, Nat.mod_eq_of_lt lo.isLt,
        Nat.mod_eq_of_lt lo'.isLt] at hlow
      exact BitVec.eq_of_toNat_eq hlow
    subst hlo
    exact ⟨(BitVec.append_left_inj lo).mp h, rfl⟩
  · intro hgiven
    obtain ⟨rfl, rfl⟩ := hgiven
    rfl

/-- Two words are a number when they are its two digits. -/
theorem append_eq_ofNat {hi lo : BitVec w} {n : Nat} (hlo : lo.toNat = n % 2 ^ w)
    (hhi : hi.toNat = n / 2 ^ w % 2 ^ w) : hi ++ lo = BitVec.ofNat (w + w) n := by
  apply BitVec.eq_of_toNat_eq
  rw [toNat_append, hlo, hhi, BitVec.toNat_ofNat, Nat.pow_add, Nat.mod_mul]
  ring

/-! ## Addition and subtraction -/

/-- The carry flag as a number. -/
def flag (c : Bool) : BitVec w := BitVec.ofNat w c.toNat

theorem append_add (hi lo hi' lo' : BitVec w) :
    (hi + hi' + flag (lo.uaddOverflow lo')) ++ (lo + lo') = (hi ++ lo) + (hi' ++ lo') := by
  have hpos := Nat.two_pow_pos w
  have hsum : (hi ++ lo).toNat + (hi' ++ lo').toNat = (lo.toNat + lo'.toNat) + (hi.toNat + hi'.toNat) * 2 ^ w := by
    rw [toNat_append, toNat_append]
    ring
  have hcarry : (lo.toNat + lo'.toNat) / 2 ^ w = (lo.uaddOverflow lo').toNat := by
    have hlo := lo.isLt
    have hlo' := lo'.isLt
    by_cases hover : 2 ^ w ≤ lo.toNat + lo'.toNat
    · rw [BitVec.uaddOverflow, decide_eq_true hover, Bool.toNat_true]
      exact Nat.div_eq_of_lt_le (by omega) (by omega)
    · rw [BitVec.uaddOverflow, decide_eq_false hover, Bool.toNat_false]
      exact Nat.div_eq_of_lt (by omega)
  apply Eq.trans (append_eq_ofNat (n := (hi ++ lo).toNat + (hi' ++ lo').toNat) ?_ ?_)
  · rw [BitVec.ofNat_add, BitVec.ofNat_toNat, BitVec.ofNat_toNat, BitVec.setWidth_eq, BitVec.setWidth_eq]
  · rw [hsum, Nat.add_mul_mod_self_right, BitVec.toNat_add]
  · rw [hsum, Nat.add_mul_div_right _ _ hpos, hcarry, flag, BitVec.toNat_add, BitVec.toNat_add,
      BitVec.toNat_ofNat, ← Nat.add_mod, Nat.add_comm]

/-- A borrow is the carry of the addition that undoes the subtraction. -/
theorem uaddOverflow_sub (a b : BitVec w) : (a - b).uaddOverflow b = a.usubOverflow b := by
  have ha := a.isLt
  have hb := b.isLt
  rw [BitVec.uaddOverflow, BitVec.usubOverflow, BitVec.toNat_sub]
  apply decide_eq_decide.mpr
  by_cases hlt : a.toNat < b.toNat
  · rw [Nat.mod_eq_of_lt (by omega)]
    omega
  · rw [show 2 ^ w - b.toNat + a.toNat = a.toNat - b.toNat + 2 ^ w from by omega, Nat.add_mod_right,
      Nat.mod_eq_of_lt (by omega)]
    omega

theorem append_sub (hi lo hi' lo' : BitVec w) :
    (hi - hi' - flag (lo.usubOverflow lo')) ++ (lo - lo') = (hi ++ lo) - (hi' ++ lo') := by
  have hadd := append_add (hi - hi' - flag (lo.usubOverflow lo')) (lo - lo') hi' lo'
  have hhigh : hi - hi' - flag (lo.usubOverflow lo') + hi' + flag (lo.usubOverflow lo') = hi := by
    rw [BitVec.add_assoc, BitVec.add_comm hi', ← BitVec.add_assoc, BitVec.sub_add_cancel, BitVec.sub_add_cancel]
  rw [uaddOverflow_sub, hhigh, BitVec.sub_add_cancel] at hadd
  rw [hadd, BitVec.add_sub_cancel]

/-! ## Shifting -/

theorem append_shl (hi lo : BitVec w) {s : Nat} (hs : s ≤ w) :
    (hi <<< s ||| lo >>> (w - s)) ++ (lo <<< s) = (hi ++ lo) <<< s := by
  apply BitVec.eq_of_getLsbD_eq
  intro i hi'
  simp only [BitVec.getLsbD_append, BitVec.getLsbD_or, BitVec.getLsbD_shiftLeft, BitVec.getLsbD_ushiftRight]
  by_cases hlow : i < w
  · have hsub : i - s < w := by omega
    simp [hlow, hi', hsub]
  · have hhigh : i - w < w := by omega
    have hs' : ¬ i < s := by omega
    by_cases hcross : i - w < s
    · -- a bit from the low word
      have hsub : i - s < w := by omega
      simp [hlow, hi', hhigh, hs', hcross, hsub, show w - s + (i - w) = i - s from by omega]
    · have hsub : ¬ i - s < w := by omega
      have hzero : lo.getLsbD (w - s + (i - w)) = false := BitVec.getLsbD_of_ge _ _ (by omega)
      simp [hlow, hi', hhigh, hs', hcross, hsub, hzero, show i - w - s = i - s - w from by omega]

/-- The low `s` bits. -/
def mask (s : Nat) : BitVec w := BitVec.ofNat w (2 ^ s - 1)

theorem getLsbD_mask (s i : Nat) : (mask s : BitVec w).getLsbD i = (decide (i < w) && decide (i < s)) := by
  rw [mask, BitVec.getLsbD_ofNat, Nat.testBit_two_pow_sub_one]

/-- Rotating moves the upper bits to the bottom, where the mask picks them out. -/
theorem rotateLeft_and_mask (x : BitVec w) {s : Nat} (hs : s < w) : x.rotateLeft s &&& mask s = x >>> (w - s) := by
  apply BitVec.eq_of_getLsbD_eq
  intro i hi
  rw [BitVec.getLsbD_and, getLsbD_mask, BitVec.getLsbD_rotateLeft_of_le hs, BitVec.getLsbD_ushiftRight]
  by_cases his : i < s
  · simp [his, hi]
  · have hzero : x.getLsbD (w - s + i) = false := BitVec.getLsbD_of_ge _ _ (by omega)
    simp [his, hzero]

/-- The other bits are those that a shift leaves. -/
theorem rotateLeft_and_not_mask (x : BitVec w) {s : Nat} (hs : s < w) :
    x.rotateLeft s &&& ~~~(mask s) = x <<< s := by
  apply BitVec.eq_of_getLsbD_eq
  intro i hi
  rw [BitVec.getLsbD_and, BitVec.getLsbD_not, getLsbD_mask, BitVec.getLsbD_rotateLeft_of_le hs,
    BitVec.getLsbD_shiftLeft]
  by_cases his : i < s
  · simp [his, hi]
  · simp [his, hi]

/-! ## Division -/

/-- A long division by one digit: the high digit, then the remainder in front of the low one.
    The two remainders may add up to the divisor or more. -/
theorem div_two_digits {hi lo base d : Nat} (hd : 0 < d) :
    let n := hi * base + lo
    let r := hi % d * base % d + lo % d
    let q := hi / d * base + (hi % d * base / d + lo / d)
    n / d = (if r < d then q else q + 1) ∧ n % d = if r < d then r else r - d := by
  intro n r q
  have hn : n = q * d + r := by
    have hhi := Nat.div_add_mod hi d
    have hlo := Nat.div_add_mod lo d
    have hmid := Nat.div_add_mod (hi % d * base) d
    calc n = (d * (hi / d) + hi % d) * base + (d * (lo / d) + lo % d) := by rw [hhi, hlo]
      _ = hi / d * base * d + hi % d * base + lo / d * d + lo % d := by ring
      _ = hi / d * base * d + (d * (hi % d * base / d) + hi % d * base % d) + lo / d * d + lo % d := by rw [hmid]
      _ = q * d + r := by ring
  have hr : r < d + d := Nat.add_lt_add (Nat.mod_lt _ hd) (Nat.mod_lt _ hd)
  split
  · rename_i hlt
    exact (Nat.div_mod_unique hd).mpr ⟨by rw [hn]; ring, hlt⟩
  · rename_i hge
    refine (Nat.div_mod_unique hd).mpr ⟨?_, by omega⟩
    rw [hn, Nat.mul_add, Nat.mul_one, Nat.mul_comm d q]
    omega

end ForStd
