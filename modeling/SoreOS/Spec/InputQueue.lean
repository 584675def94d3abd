import SoreOS.Native.Keyboard
import SoreOS.ForStd.Except
import Mathlib.Data.List.GetD
import Mathlib.Data.List.TakeWhile

/-!
# The input queue

The bytes of committed lines that no reader has taken yet form a queue. The
readers and `trimInput` look for a stopping byte without consulting `inputIndex`;
they stay inside the queue exactly when they find one there, or when the stale
byte just behind the queue happens to be one.

## Key results

- `Represents`: the buffer holds exactly the queue
- `getStr_eq`, `getLine_eq`: a read whose trimming stops inside takes the token and trims the rest
- `trimInput_overrun`: a read whose trimming does not stop inside breaks the queue
- `boot_faithful_iff`: a run keeps the queue if and only if every trimming stops inside
-/

namespace SoreOS

open ForStd

namespace IoBuffers

/-! ## The reference queue -/

/-- The token a reader takes from a queue. -/
def token (stop : UInt8 → Bool) (size : Int) (q : List UInt8) : List UInt8 :=
  (q.takeWhile (!stop ·)).take (size - 1).toNat

/-- What remains of a queue when `n` bytes are taken and the rest is trimmed. -/
def remaining (n : Nat) (q : List UInt8) : List UInt8 := (q.drop n).dropWhile isWhite

/-- The buffer holds the queue `q`, which ends with a newline unless it is empty. -/
structure Represents (io : IoBuffers) (q : List UInt8) : Prop where
  inputIndex : io.inputIndex = q.length
  bytes : io.inputBuffer.read 0 q.length = q
  ends : q ≠ [] → q.getLast? = some NEWLINE
  fits : q.length ≤ 2048

/-- The bytes of the buffer that `inputIndex` counts as queued. -/
def queue (io : IoBuffers) : List UInt8 := io.inputBuffer.read 0 io.inputIndex.toNat

theorem Represents.queue_eq {io : IoBuffers} {q : List UInt8} (h : Represents io q) :
    io.queue = q := by
  rw [queue, h.inputIndex]
  exact h.bytes

/-- Trimming after `n` consumed bytes finds a byte to stop at: one in the rest of
    the queue that is neither space nor newline, or else the stale byte right
    behind the queue. -/
def TrimStops (io : IoBuffers) (n : Nat) : Prop :=
  (∃ b ∈ io.queue.drop n, isWhite b = false) ∨
    (io.inputIndex < 2048 ∧ isWhite (io.inputBuffer io.inputIndex) = false)

instance (io : IoBuffers) (n : Nat) : Decidable (TrimStops io n) :=
  inferInstanceAs (Decidable (_ ∨ _))

/-! ## The two scanning loops -/

/-- The white-space scan stops at the first byte of a block that is not white, or
    behind the block if the next byte is not. -/
theorem skipWhite_eq (m : Bytes) (n rounds : Nat) (count : Int) (hr : n < rounds)
    (hc : 0 ≤ count) (hn : count + n ≤ 2048)
    (hstop : (∃ b ∈ m.read count n, isWhite b = false) ∨
      (count + n < 2048 ∧ isWhite (m (count + n)) = false)) :
    skipWhite m rounds count = .ok (count + ((m.read count n).takeWhile isWhite).length) := by
  induction n generalizing rounds count with
  | zero =>
    obtain ⟨rounds, rfl⟩ : ∃ k, rounds = k + 1 := ⟨rounds - 1, by omega⟩
    -- the block is empty, so the byte behind it stops the scan
    obtain ⟨b, hb, _⟩ | ⟨hlt, hw⟩ := hstop
    · simp at hb
    · have hload := load_ok (o := .inputBuffer) m hc (by simp only [Obj.size]; omega)
      rw [Int.natCast_zero, Int.add_zero] at hw
      simp [skipWhite, hload, hw, bind, Except.bind, pure, Except.pure]
  | succ n ih =>
    obtain ⟨rounds, rfl⟩ : ∃ k, rounds = k + 1 := ⟨rounds - 1, by omega⟩
    have hload := load_ok (o := .inputBuffer) m hc (by simp only [Obj.size]; omega)
    rw [Mem.read_succ] at hstop ⊢
    cases hw : isWhite (m count) with
    | false => simp [skipWhite, hload, hw, bind, Except.bind, pure, Except.pure]
    | true =>
      -- the byte is white, so what stops the scan comes later
      have hrec := ih rounds (count + 1) (by omega) (by omega) (by omega) (by
        obtain ⟨b, hb, hbw⟩ | ⟨hlt, hlast⟩ := hstop
        · obtain rfl | hb := List.mem_cons.mp hb
          · rw [hw] at hbw; exact absurd hbw (by decide)
          · exact .inl ⟨b, hb, hbw⟩
        · refine .inr ⟨by omega, ?_⟩
          rw [show count + 1 + (n : Int) = count + (n + 1 : Nat) from by omega]
          exact hlast)
      rw [List.takeWhile_cons_of_pos hw, List.length_cons]
      simp only [skipWhite, hload, hw, bind, Except.bind, if_true, hrec]
      congr 1
      omega

/-- Where the scan stops there is a byte of the array that is not white, and it
    has passed only white ones. -/
theorem skipWhite_spec {m : Bytes} {rounds : Nat} {count c : Int}
    (h : skipWhite m rounds count = .ok c) :
    count ≤ c ∧ c < 2048 ∧ isWhite (m c) = false ∧ ∀ i, count ≤ i → i < c → isWhite (m i) = true := by
  induction rounds generalizing count with
  | zero => simp [skipWhite] at h
  | succ rounds ih =>
    simp only [skipWhite, bind, Except.bind] at h
    split at h
    · simp at h
    · rename_i b hload
      obtain ⟨hc, hc', rfl⟩ := load_eq_ok hload
      simp only [Obj.size] at hc'
      split at h
      · rename_i hw
        obtain ⟨h1, h2, h3, h4⟩ := ih h
        -- the first byte is white, and the others are by induction
        refine ⟨by omega, h2, h3, fun i hi hi' => ?_⟩
        by_cases heq : i = count
        · subst heq; exact hw
        · exact h4 i (by omega) hi'
      · rename_i hw
        simp only [pure, Except.pure, Except.ok.injEq] at h
        subst h
        exact ⟨by omega, hc', by simpa using hw, fun i hi hi' => by omega⟩

/-- The copying loop takes the token, if a stopping byte lies in the block it runs over. -/
theorem copyToken_eq (stop : UInt8 → Bool) (size : Int) (m : Bytes) (n rounds : Nat)
    (idx : Int) (hr : n < rounds) (hi : 0 ≤ idx) (hn : idx + n ≤ 2048)
    (hstop : ∃ b ∈ m.read idx n, stop b = true) :
    copyToken stop size m rounds idx = .ok (token stop (size - idx) (m.read idx n)) := by
  induction n generalizing rounds idx with
  | zero =>
    obtain ⟨b, hb, _⟩ := hstop
    simp at hb
  | succ n ih =>
    obtain ⟨rounds, rfl⟩ : ∃ k, rounds = k + 1 := ⟨rounds - 1, by omega⟩
    have hload := load_ok (o := .inputBuffer) m hi (by simp only [Obj.size]; omega)
    rw [Mem.read_succ] at hstop ⊢
    cases hs : stop (m idx) with
    | true =>
      simp [copyToken, hload, hs, token, bind, Except.bind, pure, Except.pure]
    | false =>
      -- the first byte does not stop the loop, so another one does
      have hrest : ∃ b ∈ m.read (idx + 1) n, stop b = true := by
        obtain ⟨b, hb, hbs⟩ := hstop
        obtain rfl | hb := List.mem_cons.mp hb
        · rw [hs] at hbs; exact absurd hbs (by decide)
        · exact ⟨b, hb, hbs⟩
      rw [token, List.takeWhile_cons_of_pos (by simp [hs])]
      -- the buffer of the reader may be full before the stopping byte
      by_cases hsize : idx < size - 1
      · have hrec := ih rounds (idx + 1) (by omega) (by omega) (by omega) hrest
        rw [show (size - idx - 1).toNat = (size - (idx + 1) - 1).toNat + 1 from by omega,
          List.take_succ_cons]
        simp only [copyToken, hload, hs, hsize, bind, Except.bind, hrec, token, pure, Except.pure,
          Bool.not_false, decide_true, Bool.and_true, if_true]
      · rw [show (size - idx - 1).toNat = 0 from by omega, List.take_zero]
        simp [copyToken, hload, hs, hsize, bind, Except.bind, pure, Except.pure]

theorem length_token_le (stop : UInt8 → Bool) (size : Int) (q : List UInt8) :
    (token stop size q).length ≤ q.length := by
  have htake : (q.takeWhile (!stop ·)).length ≤ q.length := (List.takeWhile_prefix _).length_le
  simp only [token, List.length_take]
  omega

/-! ## Trimming -/

theorem read_drop (m : Bytes) (len n : Nat) (hn : n ≤ len) :
    (m.read 0 len).drop n = m.read n (len - n) := by
  have hsplit := m.read_add 0 n (len - n)
  rw [Nat.add_sub_cancel' hn, Int.zero_add] at hsplit
  rw [hsplit, List.drop_left' (by simp)]

theorem dropWhile_eq_drop (p : UInt8 → Bool) (l : List UInt8) :
    l.dropWhile p = l.drop (l.takeWhile p).length := by
  conv_rhs => rw [← List.takeWhile_append_dropWhile (p := p) (l := l)]
  rw [List.drop_left' (by rw [List.takeWhile_append_dropWhile])]

/-- A suffix of a queue that is not empty still ends with its newline. -/
theorem getLast?_drop {q : List UInt8} {n : Nat} (hne : q.drop n ≠ []) (h : q.getLast? = some NEWLINE) :
    (q.drop n).getLast? = some NEWLINE := by
  have hlt : n < q.length := by
    rw [ne_eq, List.drop_eq_nil_iff] at hne
    omega
  rw [List.getLast?_drop, if_neg (by omega)]
  exact h

/-- When trimming stops inside, the buffer holds the trimmed rest of the queue. -/
theorem trimInput_eq {io : IoBuffers} {q : List UInt8} (h : Represents io q) {n : Nat}
    (hn : n ≤ q.length) (hstop : TrimStops io n) :
    ∃ io', trimInput io n = .ok io' ∧ Represents io' (remaining n q) ∧
      io'.tempIndex = io.tempIndex ∧ io'.tempBuffer = io.tempBuffer := by
  have hfits := h.fits
  have hrest : q.drop n = io.inputBuffer.read n (q.length - n) := by
    conv_lhs => rw [← h.bytes]
    exact read_drop _ _ _ hn
  -- `w` white characters are skipped behind the token
  have hskip := skipWhite_eq io.inputBuffer (q.length - n) 2049 n (by omega)
    (by omega) (by omega) (by
      rw [TrimStops, h.queue_eq, hrest, h.inputIndex] at hstop
      rwa [show (n : Int) + (q.length - n : Nat) = q.length from by omega])
  rw [← hrest] at hskip
  generalize hw : ((q.drop n).takeWhile isWhite).length = w at hskip
  have hwle : w ≤ q.length - n := by
    have := (List.takeWhile_prefix (l := q.drop n) isWhite).length_le
    rw [List.length_drop] at this
    omega
  have hrem : remaining n q = q.drop (n + w) := by
    rw [remaining, dropWhile_eq_drop, hw, List.drop_drop]
  have hlen : (remaining n q).length = q.length - (n + w) := by
    rw [hrem, List.length_drop]
  -- and the rest moves to the front
  have hmove := moveArray_ok .inputBuffer io.inputBuffer 0 (n + w : Nat)
    (n := q.length - (n + w)) (by omega) (by simp only [Obj.size]; omega) (by omega)
    (by simp only [Obj.size]; omega)
  have hcount : (io.inputIndex - ((n : Int) + w)).toNat = q.length - (n + w) := by
    rw [h.inputIndex]
    omega
  refine ⟨{ io with
    inputBuffer := io.inputBuffer.copyUp 0 (n + w : Nat) (q.length - (n + w))
    inputIndex := io.inputIndex - ((n : Int) + w) }, ?_, ?_, rfl, rfl⟩
  · simp only [trimInput, hskip, bind, Except.bind, hcount, pure, Except.pure]
    rw [show ((n : Int) + (w : Int)) = ((n + w : Nat) : Int) from by push_cast; rfl, hmove]
  · refine ⟨?_, ?_, ?_, by omega⟩
    · rw [hlen]
      simp only [h.inputIndex]
      omega
    · rw [hlen, hrem]
      have hshift : (io.inputBuffer.copyUp 0 (n + w : Nat) (q.length - (n + w))).read 0
          (q.length - (n + w)) = io.inputBuffer.read (n + w : Nat) (q.length - (n + w)) :=
        Mem.read_congr fun i hi => by
          rw [Mem.copyUp_of_le _ (by omega), if_pos (by omega)]
          exact congrArg io.inputBuffer (by omega)
      rw [hshift, ← read_drop _ _ _ (by omega), h.bytes]
    · intro hne
      rw [hrem] at hne ⊢
      have hq : q ≠ [] := by rintro rfl; simp at hne
      exact getLast?_drop hne (h.ends hq)

/-- When trimming does not stop inside, it faults or makes `inputIndex` negative. -/
theorem trimInput_overrun {io io' : IoBuffers} {q : List UInt8} (h : Represents io q) {n : Nat}
    (hn : n ≤ q.length) (hstop : ¬ TrimStops io n) (htrim : trimInput io n = .ok io') :
    io'.inputIndex < 0 := by
  simp only [trimInput, bind, Except.bind] at htrim
  split at htrim
  · simp at htrim
  · rename_i c hskip
    split at htrim
    · simp at htrim
    · simp only [pure, Except.pure, Except.ok.injEq] at htrim
      subst htrim
      obtain ⟨hge, hlt, hblack, _⟩ := skipWhite_spec hskip
      simp only [TrimStops, not_or, not_exists, not_and] at hstop
      have hi := h.inputIndex
      simp only
      -- the byte the scan stopped at can be neither in the rest of the queue nor right behind it
      by_contra hneg
      by_cases hend : c = io.inputIndex
      · exact hstop.2 (by omega) (hend ▸ hblack)
      · refine hstop.1 (io.inputBuffer c) ?_ hblack
        rw [h.queue_eq, ← h.bytes, read_drop _ _ _ hn]
        refine List.mem_iff_getElem.mpr ⟨(c - n).toNat, by simp only [Mem.length_read]; omega, ?_⟩
        rw [Mem.getElem_read]
        exact congrArg io.inputBuffer (by omega)

/-! ## Reading -/

/-- A reader that finds input takes its token; then it trims. -/
theorem readToken_eq_trimInput {io : IoBuffers} {q : List UInt8} (h : Represents io q) (hne : q ≠ [])
    {stop : UInt8 → Bool} (hnl : stop NEWLINE = true) (size : Int) :
    readToken io stop size =
      (trimInput io (token stop size q).length).map fun io' => (token stop size q, io') := by
  have hmem : NEWLINE ∈ q := List.mem_of_getLast? (h.ends hne)
  have hfits := h.fits
  have hcopy := copyToken_eq stop size io.inputBuffer q.length 2049 0
    (by omega) (by omega) (by omega) ⟨NEWLINE, by rw [h.bytes]; exact hmem, hnl⟩
  rw [h.bytes, Int.sub_zero] at hcopy
  simp only [readToken, hcopy, bind, Except.bind]
  cases trimInput io (token stop size q).length <;> rfl

/-- A read whose trimming stops inside. -/
theorem readToken_eq {io : IoBuffers} {q : List UInt8} (h : Represents io q) (hne : q ≠ [])
    {stop : UInt8 → Bool} (hnl : stop NEWLINE = true) (size : Int)
    (hstop : TrimStops io (token stop size q).length) :
    ∃ io', readToken io stop size = .ok (token stop size q, io') ∧
      Represents io' (remaining (token stop size q).length q) := by
  obtain ⟨io', htrim, hrep, _⟩ := trimInput_eq h (length_token_le stop size q) hstop
  refine ⟨io', ?_, hrep⟩
  rw [readToken_eq_trimInput h hne hnl, htrim]
  rfl

/-- A read whose trimming does not stop inside leaves no queue behind. -/
theorem readToken_overrun {io io' : IoBuffers} {q q' t : List UInt8} (h : Represents io q)
    (hne : q ≠ []) {stop : UInt8 → Bool} (hnl : stop NEWLINE = true) (size : Int)
    (hstop : ¬ TrimStops io (token stop size q).length)
    (hread : readToken io stop size = .ok (t, io')) : ¬ Represents io' q' := by
  intro hrep
  rw [readToken_eq_trimInput h hne hnl] at hread
  cases htrim : trimInput io (token stop size q).length with
  | error e => simp [htrim, Except.map] at hread
  | ok io'' =>
    simp only [htrim, Except.map, Except.ok.injEq, Prod.mk.injEq] at hread
    obtain ⟨_, rfl⟩ := hread
    have hneg := trimInput_overrun h (length_token_le stop size q) hstop htrim
    have := hrep.inputIndex
    omega

end IoBuffers

/-! ## Runs

Interrupts and reads follow each other at call boundaries: an Enter key that
commits whatever line is pending, and the calls of the shell. -/

namespace Keyboard

open IoBuffers

/-- An event of a run. -/
inductive InputEvent where
  | enter (pending : List UInt8)
  | getStr (size : Int)
  | getLine (size : Int)
  | clearInputBuffer
  deriving DecidableEq, Repr

/-- The keyboard state in which `pending` is the line typed so far. -/
def withPending (k : Keyboard) (pending : List UInt8) : Keyboard :=
  { k with io := { k.io with
      tempIndex := pending.length
      tempBuffer := fun i => pending.getD i.toNat 0 } }

/-- What an event does, and the bytes a read hands to its caller. -/
def inputStep (k : Keyboard) : InputEvent → Except Fault (List UInt8 × Keyboard)
  | .enter pending => do
    let k ← sysKey (k.withPending pending) KEY_ENTER KEY_DOWN
    return ([], k)
  | .getStr size => do
    let (t, io) ← k.io.getStr size
    return (t, { k with io := io })
  | .getLine size => do
    let (t, io) ← k.io.getLine size NEWLINE
    return (t, { k with io := io })
  | .clearInputBuffer => .ok ([], { k with io := k.io.clearInputBuffer })

/-- What the event does to the unconsumed input: Enter appends the line and its
    newline, a read takes its token off the front and trims what remains. -/
def refStep (q : List UInt8) : InputEvent → List UInt8 × List UInt8
  | .enter pending => ([], q ++ pending ++ [NEWLINE])
  | .getStr size => (token isWhite size q, remaining (token isWhite size q).length q)
  | .getLine size => (token (· = NEWLINE) size q, remaining (token (· = NEWLINE) size q).length q)
  | .clearInputBuffer => ([], [])

/-- The event can happen: Enter does not fill the queue past its 2048 bytes, and a
    read finds `inputIndex` nonzero. -/
def CanHappen (k : Keyboard) : InputEvent → Prop
  | .enter pending => k.io.inputIndex + pending.length + 1 ≤ 2048
  | .getStr _ => k.io.inputIndex ≠ 0
  | .getLine size => 2 ≤ size ∧ k.io.inputIndex ≠ 0
  | .clearInputBuffer => True

instance (k : Keyboard) : (e : InputEvent) → Decidable (CanHappen k e)
  | .enter _ => inferInstanceAs (Decidable (_ ≤ _))
  | .getStr _ => inferInstanceAs (Decidable (_ ≠ _))
  | .getLine _ => inferInstanceAs (Decidable (_ ∧ _))
  | .clearInputBuffer => inferInstanceAs (Decidable True)

/-- The run is one of the program: every event can happen where it does. -/
def Admissible (k : Keyboard) : List InputEvent → Prop
  | [] => True
  | e :: es => CanHappen k e ∧ ∀ t k', inputStep k e = .ok (t, k') → Admissible k' es

/-- In every state of the run the buffer holds exactly the unconsumed input, and
    every read returns what it takes from it. -/
def Faithful (k : Keyboard) (q : List UInt8) : List InputEvent → Prop
  | [] => Represents k.io q
  | e :: es => Represents k.io q ∧
    ∃ k', inputStep k e = .ok ((refStep q e).1, k') ∧ Faithful k' (refStep q e).2 es

/-- The trimming of a read stops inside the queue or right behind it. -/
def ReadStops (k : Keyboard) : InputEvent → Prop
  | .getStr size => TrimStops k.io (token isWhite size k.io.queue).length
  | .getLine size => TrimStops k.io (token (· = NEWLINE) size k.io.queue).length
  | _ => True

/-- Every read of the run does. -/
def AllStop (k : Keyboard) : List InputEvent → Prop
  | [] => True
  | e :: es => ReadStops k e ∧ ∀ t k', inputStep k e = .ok (t, k') → AllStop k' es

/-- Committing puts the pending line and a newline behind what is in the input buffer. -/
theorem commitLine_ok {k : Keyboard} {q pending : List UInt8} (hindex : k.io.inputIndex = q.length)
    (hqueue : k.io.inputBuffer.read 0 q.length = q) (htemp : k.io.tempIndex = pending.length)
    (hpending : k.io.tempBuffer.read 0 pending.length = pending)
    (hroom : q.length + pending.length + 1 ≤ 2048) :
    ∃ m, commitLine k = .ok { k with
        io := { k.io with inputBuffer := m, inputIndex := q.length + pending.length + 1, tempIndex := 0 }
        screen := k.screen.putChar NEWLINE } ∧
      m.read 0 (q ++ pending ++ [NEWLINE]).length = q ++ pending ++ [NEWLINE] := by
  have hcopy := copyArray_ok .inputBuffer k.io.inputBuffer q.length .tempBuffer k.io.tempBuffer 0
    (n := pending.length) (by omega) (by simp only [Obj.size]; omega) (by omega) (by simp only [Obj.size]; omega)
  generalize hm : k.io.inputBuffer.copyFrom q.length k.io.tempBuffer 0 pending.length = m at hcopy
  have hstore := store_ok (o := .inputBuffer) (i := (q.length : Int) + pending.length) m NEWLINE
    (by omega) (by simp only [Obj.size]; omega)
  refine ⟨m.set (q.length + pending.length) NEWLINE, ?_, ?_⟩
  · rw [commitLine, hindex, htemp, Int.toNat_natCast, hcopy, ok_bind]
    dsimp only
    rw [hstore]
    rfl
  · -- the old bytes, the pending line and the newline, one block after the other
    have hset : ∀ i : Int, i < q.length + pending.length →
        m.set (q.length + pending.length) NEWLINE i = m i := fun i hi =>
      Mem.set_other _ _ (by omega)
    have hold : (m.set (q.length + pending.length) NEWLINE).read 0 q.length = q := by
      refine Eq.trans (Mem.read_congr fun i hi => ?_) hqueue
      rw [hset _ (by omega), ← hm, Mem.copyFrom_apply, if_neg (by omega)]
    have hnew : (m.set (q.length + pending.length) NEWLINE).read q.length pending.length =
        pending := by
      refine Eq.trans (Mem.read_congr fun i hi => ?_) hpending
      rw [hset _ (by omega), ← hm, Mem.copyFrom_apply, if_pos (by omega),
        show 0 + ((q.length : Int) + i - q.length) = 0 + i from by omega]
    rw [List.length_append, List.length_singleton, Mem.read_succ_last, List.length_append,
      Mem.read_add, hold, Int.zero_add, hnew, Int.zero_add]
    push_cast
    rw [Mem.set_same]

/-- Enter appends the pending line and a newline to the queue. -/
theorem commitLine_represents {k : Keyboard} {q pending : List UInt8} (h : Represents k.io q)
    (hroom : q.length + pending.length + 1 ≤ 2048) :
    ∃ k', inputStep k (.enter pending) = .ok ([], k') ∧
      Represents k'.io (q ++ pending ++ [NEWLINE]) := by
  have hpending : (k.withPending pending).io.tempBuffer.read 0 pending.length = pending := by
    apply (Mem.read_eq_iff _ _ _).mpr
    intro i hi
    rw [Int.zero_add]
    exact List.getD_eq_getElem _ _ hi
  obtain ⟨m, hcommit, hread⟩ := @commitLine_ok (k.withPending pending) q pending h.inputIndex h.bytes rfl
    hpending hroom
  have henter : sysKey (k.withPending pending) KEY_ENTER KEY_DOWN =
      commitLine (k.withPending pending) := rfl
  refine ⟨_, by rw [inputStep, henter, hcommit]; rfl, ?_, hread, fun _ => List.getLast?_concat, ?_⟩
  · simp only [List.length_append, List.length_singleton]
    push_cast
    rfl
  · simp only [List.length_append, List.length_singleton]
    omega

/-- A step that can happen and whose trimming stops inside keeps the queue. -/
theorem inputStep_represents {k : Keyboard} {q : List UInt8} (h : Represents k.io q)
    {e : InputEvent} (hcan : CanHappen k e) (hstop : ReadStops k e) :
    ∃ k', inputStep k e = .ok ((refStep q e).1, k') ∧ Represents k'.io (refStep q e).2 := by
  have hi := h.inputIndex
  have hqueue := h.queue_eq
  cases e with
  | enter pending =>
    simp only [CanHappen] at hcan
    exact commitLine_represents h (by omega)
  | getStr size =>
    have hne : q ≠ [] := by rintro rfl; exact hcan hi
    simp only [ReadStops, hqueue] at hstop
    obtain ⟨io', hread, hrep⟩ := readToken_eq h hne rfl size hstop
    refine ⟨{ k with io := io' }, ?_, hrep⟩
    simp only [inputStep, getStr, hread, bind, Except.bind, pure, Except.pure, refStep]
  | getLine size =>
    have hne : q ≠ [] := by rintro rfl; exact hcan.2 hi
    simp only [ReadStops, hqueue] at hstop
    obtain ⟨io', hread, hrep⟩ := readToken_eq h hne (by decide) size hstop
    refine ⟨{ k with io := io' }, ?_, hrep⟩
    simp only [inputStep, getLine, hread, bind, Except.bind, pure, Except.pure, refStep]
  | clearInputBuffer =>
    refine ⟨{ k with io := k.io.clearInputBuffer }, rfl, rfl, rfl, fun hne => absurd rfl hne, ?_⟩
    simp [refStep]

/-- A read whose trimming does not stop inside leaves a state that holds no queue. -/
theorem inputStep_overrun {k k' : Keyboard} {q q' t : List UInt8} (h : Represents k.io q)
    {e : InputEvent} (hcan : CanHappen k e) (hstop : ¬ ReadStops k e)
    (hstep : inputStep k e = .ok (t, k')) : ¬ Represents k'.io q' := by
  have hi := h.inputIndex
  have hqueue := h.queue_eq
  cases e with
  | enter pending => exact absurd trivial hstop
  | clearInputBuffer => exact absurd trivial hstop
  | getStr size =>
    have hne : q ≠ [] := by rintro rfl; exact hcan hi
    simp only [ReadStops, hqueue] at hstop
    simp only [inputStep, getStr, bind, Except.bind] at hstep
    cases hread : readToken k.io isWhite size with
    | error f => simp [hread] at hstep
    | ok p =>
      simp only [hread, pure, Except.pure, Except.ok.injEq, Prod.mk.injEq] at hstep
      obtain ⟨rfl, rfl⟩ := hstep
      exact readToken_overrun h hne rfl size hstop hread
  | getLine size =>
    have hne : q ≠ [] := by rintro rfl; exact hcan.2 hi
    simp only [ReadStops, hqueue] at hstop
    simp only [inputStep, getLine, bind, Except.bind] at hstep
    cases hread : readToken k.io (· = NEWLINE) size with
    | error f => simp [hread] at hstep
    | ok p =>
      simp only [hread, pure, Except.pure, Except.ok.injEq, Prod.mk.injEq] at hstep
      obtain ⟨rfl, rfl⟩ := hstep
      exact readToken_overrun h hne (by decide) size hstop hread

theorem Faithful.represents {k : Keyboard} {q : List UInt8} {es : List InputEvent}
    (h : Faithful k q es) : Represents k.io q := by
  cases es with
  | nil => exact h
  | cons e es => exact h.1

/-- From a state that holds a queue, a run keeps it exactly when every trimming stops inside. -/
theorem faithful_iff_allStop {k : Keyboard} {q : List UInt8} (h : Represents k.io q)
    {es : List InputEvent} (hrun : Admissible k es) : Faithful k q es ↔ AllStop k es := by
  induction es generalizing k q with
  | nil => exact iff_of_true h trivial
  | cons e es ih =>
    obtain ⟨hcan, hrest⟩ := hrun
    constructor
    · intro hgiven
      obtain ⟨_, k', hstep, hfaith⟩ := hgiven
      refine ⟨?_, fun t k'' hstep' => ?_⟩
      · by_contra hstop
        exact inputStep_overrun h hcan hstop hstep hfaith.represents
      · obtain ⟨rfl, rfl⟩ := Prod.mk.inj (Except.ok.inj (hstep.symm.trans hstep'))
        exact (ih hfaith.represents (hrest _ _ hstep)).mp hfaith
    · intro hgiven
      obtain ⟨hstop, hall⟩ := hgiven
      obtain ⟨k', hstep, hrep⟩ := inputStep_represents h hcan hstop
      exact ⟨h, k', hstep, (ih hrep (hrest _ _ hstep)).mpr (hall _ _ hstep)⟩

/-- The keyboard driver as the kernel starts it, on a given screen. -/
def boot (screen : Screen) : Keyboard := { screen := screen }

theorem boot_represents (screen : Screen) : Represents (boot screen).io [] :=
  ⟨rfl, rfl, fun hne => absurd rfl hne, Nat.zero_le _⟩

/-- From the start of the kernel, a run keeps the queue exactly when every trimming
    stops inside it or right behind it. -/
theorem boot_faithful_iff (screen : Screen) {es : List InputEvent}
    (hrun : Admissible (boot screen) es) :
    Faithful (boot screen) [] es ↔ AllStop (boot screen) es :=
  faithful_iff_allStop (boot_represents screen) hrun

theorem Admissible.cons {k k' : Keyboard} {e : InputEvent} {es : List InputEvent} {t : List UInt8}
    (hcan : CanHappen k e) (hstep : inputStep k e = .ok (t, k')) (hrest : Admissible k' es) :
    Admissible k (e :: es) := by
  refine ⟨hcan, fun t' k'' hstep' => ?_⟩
  obtain ⟨rfl, rfl⟩ := Prod.mk.inj (Except.ok.inj (hstep.symm.trans hstep'))
  exact hrest

/-- A line of one letter, read in full. -/
theorem boot_faithful_iff_letter :
    Faithful (boot { vidmem := fun _ => 0 }) [] [.enter [97], .getStr 256] ↔
      AllStop (boot { vidmem := fun _ => 0 }) [.enter [97], .getStr 256] :=
  boot_faithful_iff _ (.cons (by decide) rfl (.cons (by decide) rfl trivial))

/-- An empty line after a line of one letter: the old newline is still behind the
    new one, and trimming runs over both. -/
theorem boot_not_faithful :
    Admissible (boot { vidmem := fun _ => 0 })
      [.enter [97], .getStr 256, .enter [], .getStr 256] ∧
    ¬ Faithful (boot { vidmem := fun _ => 0 }) []
      [.enter [97], .getStr 256, .enter [], .getStr 256] := by
  refine ⟨.cons (by decide) rfl (.cons (by decide) rfl (.cons (by decide) rfl
    (.cons (by decide) rfl trivial))), ?_⟩
  intro h
  obtain ⟨-, k₁, h₁, -, k₂, h₂, -, k₃, h₃, -, k₄, h₄, hrep⟩ := h
  obtain rfl := congrArg Prod.snd (Except.ok.inj h₁)
  obtain rfl := congrArg Prod.snd (Except.ok.inj h₂)
  obtain rfl := congrArg Prod.snd (Except.ok.inj h₃)
  obtain rfl := congrArg Prod.snd (Except.ok.inj h₄)
  exact absurd hrep.inputIndex (by decide)

end Keyboard

end SoreOS
