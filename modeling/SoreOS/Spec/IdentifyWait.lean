import SoreOS.Native.Identify
import SoreOS.ForStd.Halting

/-!
# Waiting for the drive

The second loop of `identify` has lost its body. A status byte with neither DRQ nor ERR
is tested over and over, and otherwise a byte too many is read.

## Key results

- `returns_iff_identify`: the steps and the function agree
- `identifies_iff`: when the wait is right
- `not_identifies`: a drive that takes its time
-/

namespace SoreOS

open ForStd StateTransition

/-- From a state on, `identify` returns a result. -/
def Returns (d : Drive) (s : Identify) (result : Bool) : Prop :=
  ∃ t ∈ eval (identifyStep d) s, t.point = .returned result

section Steps

variable {d : Drive} {s t : Identify} {result : Bool}

theorem returns_step (h : identifyStep d s = some t) : Returns d s result ↔ Returns d t result := by
  rw [Returns, reaches_eval (reaches_step h)]
  rfl

/-- There is no step behind a `return`, or if the stream has ended. -/
theorem returns_halted (h : identifyStep d s = none) : Returns d s result ↔ s.point = .returned result := by
  have hself : s ∈ eval (identifyStep d) s := mem_eval.mpr ⟨.refl, h⟩
  constructor
  · intro hgiven
    obtain ⟨t, ht, hpoint⟩ := hgiven
    rwa [Part.mem_unique ht hself] at hpoint
  · exact fun hpoint => ⟨s, hself, hpoint⟩

theorem not_returns_spinning (h : identifyStep d s = some s) : ¬ Returns d s result :=
  fun ⟨t, ht, _⟩ => not_mem_eval_self h t ht

/-- The first loop. -/
theorem returns_busy (status : UInt8) (rest : List UInt8) : Returns d ⟨.busy, status, rest⟩ result ↔
    ∃ p, pollBusy (status :: rest) = some p ∧ Returns d ⟨.ports, p.1, p.2⟩ result := by
  induction rest generalizing status with
  | nil =>
    by_cases hbusy : status &&& 0x80 = 0
    · rw [returns_step (t := ⟨.ports, status, []⟩) (by simp [identifyStep, hbusy])]
      simp [pollBusy, hbusy]
    · -- the stream ends in the loop
      rw [returns_halted (by simp [identifyStep, hbusy, Identify.inb])]
      simp [pollBusy, hbusy]
  | cons next rest ih =>
    by_cases hbusy : status &&& 0x80 = 0
    · rw [returns_step (t := ⟨.ports, status, next :: rest⟩) (by simp [identifyStep, hbusy])]
      simp [pollBusy, hbusy]
    · have hnext : pollBusy (status :: next :: rest) = pollBusy (next :: rest) := if_pos hbusy
      rw [returns_step (t := ⟨.busy, next, rest⟩) (by simp [identifyStep, hbusy, Identify.inb]), ih, hnext]

/-- What stands behind the first loop. -/
theorem returns_ports (status : UInt8) (rest : List UInt8) : Returns d ⟨.ports, status, rest⟩ result ↔
    if d.identifyMid ≠ 0 || d.identifyHi ≠ 0 then result = false
    else status &&& 0x09 ≠ 0 ∧ ∃ next ∈ rest.head?, result = noError next := by
  by_cases hports : (d.identifyMid ≠ 0 || d.identifyHi ≠ 0) = true
  · rw [returns_step (t := ⟨.returned false, status, rest⟩) (by simp only [identifyStep, hports, if_true]),
      returns_halted rfl, if_pos hports]
    simp [eq_comm]
  · rw [returns_step (t := ⟨.ready, status, rest⟩) (by simp only [identifyStep, hports]; rfl), if_neg hports]
    by_cases hready : status &&& 0x09 = 0
    · simp only [hready, ne_eq, not_true_eq_false, false_and, iff_false]
      exact not_returns_spinning (by simp [identifyStep, hready])
    · cases rest with
      | nil =>
        rw [returns_halted (by simp [identifyStep, hready, Identify.inb])]
        simp
      | cons next rest =>
        rw [returns_step (t := ⟨.data, next, rest⟩) (by simp [identifyStep, hready, Identify.inb]),
          returns_step (t := ⟨.returned (noError next), next, rest⟩) rfl, returns_halted rfl]
        simp [hready, eq_comm]

end Steps

/-- The function returns what the steps return. -/
theorem returns_iff_identify (d : Drive) (result : Bool) :
    Returns d (identifyStart d) result ↔ identify d = some result := by
  unfold identify identifyStart
  cases d.identifyStatus with
  | nil =>
    rw [returns_halted rfl]
    simp
  | cons status rest =>
    rw [returns_step (t := ⟨.present, status, rest⟩) rfl]
    by_cases habsent : status = 0
    · rw [returns_step (t := ⟨.returned false, status, rest⟩) (by simp [identifyStep, habsent]), returns_halted rfl]
      simp [habsent]
    · rw [returns_step (t := ⟨.busy, status, rest⟩) (by simp [identifyStep, habsent]), returns_busy]
      simp only [habsent, if_false]
      -- the loop ends where the stream has a byte with BSY clear
      cases hpoll : pollBusy (status :: rest) with
      | none => simp
      | some p =>
        obtain ⟨ready, rest'⟩ := p
        simp only [Option.some.injEq, exists_eq_left', returns_ports]
        split
        · rw [Option.some.injEq, eq_comm]
        · by_cases hready : ready &&& 0x09 = 0
          · simp [hready]
          · cases rest' <;> simp [hready, eq_comm]

/-! ## Drives that become ready -/

/-- The status bytes of a drive that is there: some with BSY, then some with neither DRQ nor ERR, and then one with
    either of them. -/
structure StatusStream where
  busy : List UInt8
  idle : List UInt8
  ready : UInt8
  rest : List UInt8
  busy_set : ∀ status ∈ busy, status &&& 0x80 ≠ 0
  busy_clear : ∀ status ∈ (idle ++ [ready]).head?, status &&& 0x80 = 0
  idle_waits : ∀ status ∈ idle, status &&& 0x09 = 0
  ready_ends : ready &&& 0x09 ≠ 0
  present : ∀ status ∈ (busy ++ idle ++ ready :: rest).head?, status ≠ 0

namespace StatusStream

/-- The whole stream. -/
def bytes (st : StatusStream) : List UInt8 := st.busy ++ st.idle ++ st.ready :: st.rest

/-- A drive that answers with the stream, and with 0 on the two other ports. -/
def answers (st : StatusStream) (d : Drive) : Drive :=
  { d with identifyStatus := st.bytes, identifyMid := 0, identifyHi := 0 }

end StatusStream

theorem pollBusy_append {busy : List UInt8} (hbusy : ∀ status ∈ busy, status &&& 0x80 ≠ 0) {status : UInt8}
    (hclear : status &&& 0x80 = 0) (rest : List UInt8) : pollBusy (busy ++ status :: rest) = some (status, rest) := by
  induction busy with
  | nil => exact if_neg (not_not.mpr hclear)
  | cons next busy ih =>
    rw [List.cons_append, pollBusy, if_pos (hbusy next List.mem_cons_self)]
    exact ih fun s hs => hbusy s (List.mem_cons_of_mem _ hs)

/-- Behind the first loop of a drive that is there. -/
theorem identify_of_pollBusy {d : Drive} (hpresent : ∀ status ∈ d.identifyStatus.head?, status ≠ 0)
    (hmid : d.identifyMid = 0) (hhi : d.identifyHi = 0) {status : UInt8} {rest : List UInt8}
    (hpoll : pollBusy d.identifyStatus = some (status, rest)) :
    identify d = if status &&& 0x09 = 0 then none else rest.head?.map noError := by
  cases hstream : d.identifyStatus with
  | nil =>
    rw [hstream] at hpoll
    cases hpoll
  | cons first others =>
    rw [hstream] at hpoll hpresent
    have hfirst : first ≠ 0 := hpresent first rfl
    simp only [identify, hstream, hfirst, if_false, hpoll, hmid, hhi]
    by_cases hready : status &&& 0x09 = 0
    · simp [hready]
    · cases rest <;> simp [hready]

theorem identify_answers (st : StatusStream) (d : Drive) :
    identify (st.answers d) = if st.idle = [] then st.rest.head?.map noError else none := by
  have hpresent : ∀ status ∈ (st.answers d).identifyStatus.head?, status ≠ 0 := st.present
  cases hidle : st.idle with
  | nil =>
    have hclear : st.ready &&& 0x80 = 0 := st.busy_clear _ (by rw [hidle]; rfl)
    have hbytes : (st.answers d).identifyStatus = st.busy ++ st.ready :: st.rest := by
      show st.busy ++ st.idle ++ st.ready :: st.rest = _
      rw [hidle, List.append_nil]
    rw [identify_of_pollBusy hpresent rfl rfl (hbytes ▸ pollBusy_append st.busy_set hclear st.rest),
      if_neg st.ready_ends, if_pos rfl]
  | cons status idle =>
    have hclear : status &&& 0x80 = 0 := st.busy_clear _ (by rw [hidle]; rfl)
    have hwaits : status &&& 0x09 = 0 := st.idle_waits _ (by rw [hidle]; exact List.mem_cons_self)
    have hbytes : (st.answers d).identifyStatus = st.busy ++ status :: (idle ++ st.ready :: st.rest) := by
      show st.busy ++ st.idle ++ st.ready :: st.rest = _
      rw [hidle, List.append_assoc, List.cons_append]
    rw [identify_of_pollBusy hpresent rfl rfl (hbytes ▸ pollBusy_append st.busy_set hclear _), if_pos hwaits,
      if_neg (List.cons_ne_nil _ _)]

/-! ## The wait -/

/-- A step reads a status byte, or none. -/
theorem identifyStep_suffix {d : Drive} {s t : Identify} (h : identifyStep d s = some t) : t.stream <:+ s.stream := by
  have hinb : ∀ point, s.inb point = some t → t.stream <:+ s.stream := by
    intro point h
    unfold Identify.inb at h
    split at h
    · cases h
    · rename_i status rest hstream
      cases h
      rw [hstream]
      exact List.suffix_cons status rest
  have hkept : ∀ point, some { s with point := point } = some t → t.stream <:+ s.stream := by
    intro point h
    cases h
    exact List.suffix_refl _
  -- one case for each point
  unfold identifyStep at h
  split at h
  · exact hinb _ h
  · split at h <;> exact hkept _ h
  · split at h
    · exact hinb _ h
    · exact hkept _ h
  · split at h <;> exact hkept _ h
  · split at h
    · exact hkept _ h
    · exact hinb _ h
  · exact hkept _ h
  · cases h

/-- What has not been read yet is the end of the stream. -/
theorem stream_suffix {d : Drive} {s t : Identify} (h : Reaches (identifyStep d) s t) : t.stream <:+ s.stream := by
  induction h with
  | refl => exact List.suffix_refl _
  | tail _ hstep ih => exact (identifyStep_suffix hstep).trans ih

/-- The wait consumes a part of the stream, and the result is what the byte it waits for says. -/
def Identifies (st : StatusStream) (d : Drive) : Prop :=
  ∃ t ∈ eval (identifyStep (st.answers d)) (identifyStart (st.answers d)),
    t.stream <:+ st.bytes ∧ t.point = .returned (noError st.ready)

theorem identifies_iff_identify (st : StatusStream) (d : Drive) :
    Identifies st d ↔ identify (st.answers d) = some (noError st.ready) := by
  rw [← returns_iff_identify]
  constructor
  · intro h
    obtain ⟨t, ht, -, hpoint⟩ := h
    exact ⟨t, ht, hpoint⟩
  · intro h
    obtain ⟨t, ht, hpoint⟩ := h
    exact ⟨t, ht, stream_suffix (mem_eval.mp ht).1, hpoint⟩

/-- The wait is right exactly if the drive is ready once it is not busy, and its next status byte has the same
    ERR bit. -/
theorem identifies_iff (st : StatusStream) (d : Drive) :
    Identifies st d ↔ st.idle = [] ∧ ∃ next ∈ st.rest.head?, noError next = noError st.ready := by
  rw [identifies_iff_identify, identify_answers]
  by_cases hidle : st.idle = []
  · rw [if_pos hidle, Option.map_eq_some_iff, and_iff_right hidle]
    rfl
  · rw [if_neg hidle]
    exact iff_of_false (by simp) fun h => hidle h.1

/-- A drive that is ready on the second read. -/
def secondRead : StatusStream where
  busy := []
  idle := [0x50]
  ready := 0x58
  rest := [0x58]
  busy_set := List.forall_mem_nil _
  busy_clear _ h := Option.mem_some.mp h ▸ rfl
  idle_waits := List.forall_mem_singleton.mpr rfl
  ready_ends := by decide
  present := by simp

theorem not_identifies : ¬ Identifies secondRead { disk := fun _ => 0, wait := fun _ => .good } := by
  rw [identifies_iff_identify, identify_answers]
  decide

end SoreOS
