import SoreOS.ForStd.Segments
import SoreOS.Spec.Names

/-!
# The system path

`sysPath` as a list of directory names, and what `addPath` and `delPath` make of it.

## Key results

- `HoldsPath.components`: the names are the components of the working directory
- `addPath_holds`, `addPath_fault`: a name more, if there is room for it
- `delPath_holds`: a name less
-/

namespace SoreOS

open ForStd

/-- The components of a path. -/
def components (path : List UInt8) : List (List UInt8) := segments SLASH path

/-- What can stand between two slashes of a string. -/
structure Component (name : List UInt8) : Prop where
  ne_nil : name ≠ []
  slash : SLASH ∉ name
  zero : 0 ∉ name

/-- `sysPath` holds the names, a slash in front of each, and a terminator. -/
structure HoldsPath (m : Bytes) (p : List (List UInt8)) : Prop where
  names : ∀ name ∈ p, Component name
  fits : (joined SLASH p).length < 256
  chars : ∀ (i : Nat) (hi : i < (joined SLASH p).length), m i = (joined SLASH p)[i]
  terminator : m (joined SLASH p).length = 0

theorem holdsPath_nil : HoldsPath (fun _ => 0) [] where
  names := by simp
  fits := by decide
  chars := fun i hi => absurd hi (Nat.not_lt_zero i)
  terminator := rfl

theorem zero_not_mem_joined {p : List (List UInt8)} (h : ∀ name ∈ p, Component name) :
    0 ∉ joined SLASH p := by
  unfold joined
  rw [List.mem_flatMap]
  intro hgiven
  obtain ⟨name, hname, hmem⟩ := hgiven
  obtain heq | hmem := List.mem_cons.mp hmem
  · exact absurd heq (by decide)
  · exact (h name hname).zero hmem

namespace HoldsPath

variable {m : Bytes} {p : List (List UInt8)}

theorem cstr (h : HoldsPath m p) : cstr m 256 = joined SLASH p :=
  cstr_eq h.fits (zero_not_mem_joined h.names) h.chars h.terminator

/-- The working directory has the names as its components; without names it is `/`. -/
theorem components {s : FsState} (h : HoldsPath s.sysPath p) :
    components (getWorkingDirectory s) = p := by
  have hp := segments_joined fun name hname => ⟨(h.names name hname).ne_nil, (h.names name hname).slash⟩
  unfold getWorkingDirectory SoreOS.components
  cases p with
  | nil =>
    have hzero : s.sysPath 0 = 0 := h.terminator
    rw [if_pos hzero]
    decide
  | cons name p =>
    have hslash : s.sysPath 0 = SLASH := h.chars 0 (Nat.succ_pos _)
    rw [if_neg (by rw [hslash]; decide), h.cstr, hp]

end HoldsPath

/-! ## Adding a name -/

/-- A string that fits is copied with its terminator. -/
theorem strcpyPath_ok (l : List UInt8) (m : Bytes) {i : Int} (h : 0 ≤ i) (h' : i + l.length < 256) :
    ∃ m', strcpyPath m i l = .ok m' ∧ (∀ k < i, m' k = m k) ∧
      (∀ (k : Nat) (hk : k < l.length), m' (i + k) = l[k]) ∧ m' (i + l.length) = 0 := by
  induction l generalizing m i with
  | nil =>
    rw [List.length_nil, Int.natCast_zero, Int.add_zero] at h'
    -- only the terminator is left
    refine ⟨m.set i 0, store_ok (o := .sysPath) m 0 h h', fun k hk => Mem.set_other _ _ (by omega),
      fun k hk => absurd hk (Nat.not_lt_zero k), ?_⟩
    rw [List.length_nil, Int.natCast_zero, Int.add_zero, Mem.set_same]
  | cons c l ih =>
    rw [List.length_cons] at h'
    push_cast at h'
    obtain ⟨m', hrun, hbefore, hchars, hend⟩ := ih (m.set i c) (i := i + 1) (by omega) (by omega)
    refine ⟨m', ?_, fun k hk => ?_, fun k hk => ?_, ?_⟩
    · rw [strcpyPath, store_ok (o := .sysPath) m c h (by simp only [Obj.size]; omega), ok_bind, hrun]
    · rw [hbefore k (by omega), Mem.set_other _ _ (by omega)]
    · cases k with
      | zero =>
        rw [Int.natCast_zero, Int.add_zero, hbefore i (by omega), Mem.set_same]
        rfl
      | succ k =>
        rw [show i + ((k + 1 : Nat) : Int) = i + 1 + k from by push_cast; omega]
        exact hchars k (by simpa using hk)
    · rw [show i + ((c :: l).length : Int) = i + 1 + l.length from by simp; omega]
      exact hend

/-- One that does not fit faults. -/
theorem strcpyPath_fault (l : List UInt8) (m : Bytes) {i : Int} (h : 256 ≤ i + l.length) :
    ∃ f, strcpyPath m i l = .error f := by
  induction l generalizing m i with
  | nil =>
    rw [List.length_nil, Int.natCast_zero, Int.add_zero] at h
    exact ⟨⟨.sysPath, i⟩, if_neg fun hin => absurd hin.2 (by simp only [Obj.size]; omega)⟩
  | cons c l ih =>
    rw [List.length_cons] at h
    push_cast at h
    rw [strcpyPath, store]
    split
    · exact ih _ (by omega)
    · exact ⟨_, rfl⟩

/-- A name that fits is added. -/
theorem addPath_holds {s : FsState} {p : List (List UInt8)} (h : HoldsPath s.sysPath p)
    {name : List UInt8} (hname : Component name)
    (hfits : (joined SLASH p).length + 1 + name.length < 256) :
    ∃ m, addPath s name = .ok { s with sysPath := m } ∧ HoldsPath m (p ++ [name]) := by
  obtain ⟨m, hcopy, hbefore, hchars, hend⟩ := strcpyPath_ok name
    (s.sysPath.set (joined SLASH p).length SLASH) (i := (joined SLASH p).length + 1) (by omega) (by omega)
  refine ⟨m, ?_, ?_, ?_, ?_, ?_⟩
  · rw [addPath, h.cstr, store_ok (o := .sysPath) _ _ (by omega) (by simp only [Obj.size]; omega), ok_bind,
      hcopy]
    rfl
  · intro x hx
    obtain hx | hx := List.mem_append.mp hx
    · exact h.names x hx
    · rw [List.mem_singleton.mp hx]
      exact hname
  · rw [joined_append_singleton, List.length_append, List.length_cons]
    omega
  · rw [joined_append_singleton]
    intro i hi
    rw [List.length_append, List.length_cons] at hi
    by_cases hold : i < (joined SLASH p).length
    · rw [hbefore i (by omega), Mem.set_other _ _ (by omega), h.chars i hold, List.getElem_append_left hold]
    · -- the slash, and then the name
      obtain ⟨k, rfl⟩ := Nat.exists_eq_add_of_le (Nat.not_lt.mp hold)
      rw [List.getElem_append_right (Nat.le_add_right _ k)]
      simp only [Nat.add_sub_cancel_left]
      cases k with
      | zero =>
        rw [hbefore _ (by omega)]
        exact Mem.set_same _ _ _
      | succ k =>
        rw [show (((joined SLASH p).length + (k + 1) : Nat) : Int) = (joined SLASH p).length + 1 + k
          from by push_cast; omega, hchars k (by omega), List.getElem_cons_succ]
  · rw [joined_append_singleton, List.length_append, List.length_cons,
      show (((joined SLASH p).length + (name.length + 1) : Nat) : Int) =
        (joined SLASH p).length + 1 + name.length from by push_cast; omega]
    exact hend

/-- A name that does not fit is written over the end of `sysPath`. -/
theorem addPath_fault {s : FsState} {p : List (List UInt8)} (h : HoldsPath s.sysPath p)
    {name : List UInt8} (hfull : 256 ≤ (joined SLASH p).length + 1 + name.length) :
    ∃ f, addPath s name = .error f := by
  have hfits := h.fits
  obtain ⟨f, hcopy⟩ := strcpyPath_fault name (s.sysPath.set (joined SLASH p).length SLASH)
    (i := (joined SLASH p).length + 1) (by omega)
  refine ⟨f, ?_⟩
  rw [addPath, h.cstr, store_ok (o := .sysPath) _ _ (by omega) (by simp only [Obj.size]; omega), ok_bind,
    hcopy]
  rfl

/-! ## Removing a name -/

/-- The loop clears the cells from index `j + n` down to the slash at `j`. -/
theorem delPathLoop_ok (m : Bytes) {j : Int} (hj : 0 ≤ j) (hslash : m j = SLASH) (n : Nat)
    (hn : j + n < 256) (hother : ∀ k, j < k → k ≤ j + n → m k ≠ SLASH) {rounds : Nat}
    (hrounds : n < rounds) :
    ∃ m', delPathLoop m rounds (j + n) = .ok m' ∧ (∀ k < j, m' k = m k) ∧ m' j = 0 := by
  obtain ⟨rounds, rfl⟩ : ∃ k, rounds = k + 1 := ⟨rounds - 1, by omega⟩
  induction n generalizing m rounds with
  | zero =>
    -- the slash itself is cleared, too
    refine ⟨m.set j 0, ?_, fun k hk => Mem.set_other _ _ (by omega), Mem.set_same _ _ _⟩
    rw [Int.natCast_zero, Int.add_zero, delPathLoop, load_ok (o := .sysPath) m hj (by simp only [Obj.size]; omega),
      ok_bind, if_neg (not_not.mpr hslash), store_ok (o := .sysPath) m 0 hj (by simp only [Obj.size]; omega)]
  | succ n ih =>
    push_cast at hn
    obtain ⟨rounds, rfl⟩ : ∃ k, rounds = k + 1 := ⟨rounds - 1, by omega⟩
    have hi : (0 : Int) ≤ j + (n + 1 : Nat) := by omega
    have hi' : j + (n + 1 : Nat) < Obj.size .sysPath := by simp only [Obj.size]; omega
    obtain ⟨m', hrun, hbefore, hend⟩ := ih (m.set (j + (n + 1 : Nat)) 0)
      (by rw [Mem.set_other _ _ (by omega), hslash]) (by omega)
      (fun k hk hk' => by
        rw [Mem.set_other _ _ (by omega)]
        exact hother k hk (by push_cast; omega)) rounds (by omega)
    refine ⟨m', ?_, fun k hk => ?_, hend⟩
    · rw [delPathLoop, load_ok (o := .sysPath) m hi hi', ok_bind,
        if_pos (hother _ (by omega) (Int.le_refl _)), store_ok (o := .sysPath) m 0 hi hi', ok_bind,
        show j + ((n + 1 : Nat) : Int) - 1 = j + n from by push_cast; omega]
      rwa [show j + ((n + 1 : Nat) : Int) = j + (n + 1) from by push_cast; omega] at hrun ⊢
    · rw [hbefore k hk, Mem.set_other _ _ (by omega)]

/-- The last name is removed. -/
theorem delPath_holds {s : FsState} {p : List (List UInt8)} {name : List UInt8}
    (h : HoldsPath s.sysPath (p ++ [name])) :
    ∃ m, delPath s = .ok { s with sysPath := m } ∧ HoldsPath m p := by
  have hnames := h.names
  have hfits := h.fits
  have hchars := h.chars
  have hend := h.terminator
  have hname := hnames name (List.mem_append_right p List.mem_cons_self)
  have hlen : (joined SLASH (p ++ [name])).length = (joined SLASH p).length + (name.length + 1) := by
    rw [joined_append_singleton, List.length_append, List.length_cons]
  -- the slash, and the characters of the name and the terminator behind it
  have hcell : ∀ (i : Nat) (hi : i < (joined SLASH p ++ SLASH :: name).length),
      s.sysPath i = (joined SLASH p ++ SLASH :: name)[i] := by
    rw [joined_append_singleton] at hchars
    exact hchars
  have hslash : s.sysPath (joined SLASH p).length = SLASH := by
    rw [hcell _ (by simp)]
    simp
  have hother : ∀ k, ((joined SLASH p).length : Int) < k →
      k ≤ (joined SLASH p).length + (name.length + 1 : Nat) → s.sysPath k ≠ SLASH := by
    intro k hk hk'
    obtain ⟨i, rfl⟩ : ∃ i : Nat, k = ((joined SLASH p).length + (i + 1) : Nat) :=
      ⟨(k - (joined SLASH p).length - 1).toNat, by omega⟩
    by_cases hi : i < name.length
    · rw [hcell _ (by simp; omega)]
      simp only [List.getElem_append_right (Nat.le_add_right _ _), Nat.add_sub_cancel_left,
        List.getElem_cons_succ]
      exact fun heq => hname.slash (heq ▸ List.getElem_mem hi)
    · rw [show i = name.length from by omega, ← hlen, hend]
      decide
  obtain ⟨m, hrun, hbefore, hzero⟩ := delPathLoop_ok s.sysPath (j := (joined SLASH p).length) (by omega)
    hslash (name.length + 1) (by omega) hother (show name.length + 1 < 257 by omega)
  refine ⟨m, ?_, fun x hx => hnames x (List.mem_append_left _ hx), by omega, fun i hi => ?_, hzero⟩
  · rw [delPath, h.cstr, hlen]
    push_cast at hrun ⊢
    rw [hrun]
    rfl
  · rw [hbefore i (by omega), hcell i (by simp; omega), List.getElem_append_left hi]

end SoreOS
