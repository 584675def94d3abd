import SoreOS.ForStd.Except
import Mathlib.Data.List.Basic

/-!
# Runs of a step function

A system is a step function over states and events; a run folds it over a list
of events. The rules here turn a one-step argument into one about whole runs: a
simulation rule for the run that drops some events, and rules for steps that keep a
property only on a condition, or may fail.
-/

namespace ForStd

variable {σ τ ε : Type}

/-- The state after the events of `es`, in order. -/
def run (step : σ → ε → σ) (s : σ) (es : List ε) : σ := es.foldl step s

@[simp] theorem run_nil (step : σ → ε → σ) (s : σ) : run step s [] = s := rfl

@[simp] theorem run_cons (step : σ → ε → σ) (s : σ) (e : ε) (es : List ε) :
    run step s (e :: es) = run step (step s e) es := rfl

theorem run_append (step : σ → ε → σ) (s : σ) (es es' : List ε) :
    run step s (es ++ es') = run step (run step s es) es' := by
  simp [run, List.foldl_append]

/-- The state after one event more. -/
theorem run_take_succ (step : σ → ε → σ) (s : σ) (es : List ε) {n : Nat} (h : n < es.length) :
    run step s (es.take (n + 1)) = step (run step s (es.take n)) es[n] := by
  rw [List.take_succ_eq_append_getElem h, run_append]
  rfl

/-- A property holds in every state of a run exactly if every step meets the condition: if
    such steps keep an invariant that implies the property, and no other step leads from the
    invariant to a state with the property. -/
theorem run_always_iff {step : σ → ε → σ} {Ok : σ → ε → Prop} {I P : σ → Prop} (hI : ∀ s, I s → P s)
    (hstep : ∀ s e, I s → Ok s e → I (step s e)) (hback : ∀ s e, I s → P (step s e) → Ok s e) {s : σ}
    (h0 : I s) {es : List ε} :
    (∀ n, P (run step s (es.take n))) ↔ ∀ n (h : n < es.length), Ok (run step s (es.take n)) es[n] := by
  induction es generalizing s with
  | nil => exact ⟨fun _ n h => absurd h (Nat.not_lt_zero n), fun _ n => by rw [List.take_nil]; exact hI s h0⟩
  | cons e es ih =>
    constructor
    · intro hall
      have he : Ok s e := hback s e h0 (hall 1)
      have hrest := (ih (hstep s e h0 he)).mp fun n => hall (n + 1)
      intro n h
      cases n with
      | zero => exact he
      | succ n => exact hrest n (Nat.lt_of_succ_lt_succ h)
    · intro hok n
      have he : Ok s e := hok 0 (Nat.succ_pos _)
      cases n with
      | zero => exact hI s h0
      | succ n =>
        exact (ih (hstep s e h0 he)).mpr (fun n h => hok (n + 1) (Nat.succ_lt_succ h)) n

/-- Deleting events from a run: if the kept events preserve a relation between
    the two states and a deleted event preserves it on the first state alone,
    the run and the run without the deleted events end in related states. -/
theorem run_filter {step : σ → ε → σ} {step' : τ → ε → τ} (R : σ → τ → Prop) (keep : ε → Bool)
    (hkeep : ∀ s t e, keep e = true → R s t → R (step s e) (step' t e))
    (hdrop : ∀ s t e, keep e = false → R s t → R (step s e) t)
    {s : σ} {t : τ} (h0 : R s t) (es : List ε) :
    R (run step s es) (run step' t (es.filter keep)) := by
  induction es generalizing s t with
  | nil => exact h0
  | cons e es ih =>
    cases hk : keep e with
    | true =>
      rw [List.filter_cons_of_pos hk]
      exact ih (hkeep s t e hk h0)
    | false =>
      rw [List.filter_cons_of_neg (by simp [hk])]
      exact ih (hdrop s t e hk h0)

/-! ## Steps that may fail -/

variable {φ : Type}

/-- Along the run each step meets a condition on the state before it. -/
def StepsOk (step : σ → ε → Except φ σ) (Ok : σ → ε → Prop) : σ → List ε → Prop
  | _, [] => True
  | s, e :: es => Ok s e ∧ ∀ t, step s e = .ok t → StepsOk step Ok t es

theorem StepsOk.of_forall {step : σ → ε → Except φ σ} {Ok : σ → ε → Prop} {es : List ε} (h : ∀ s, ∀ e ∈ es, Ok s e)
    (s : σ) : StepsOk step Ok s es := by
  induction es generalizing s with
  | nil => trivial
  | cons e es ih =>
    exact ⟨h s e List.mem_cons_self, fun t _ => ih (fun s e' he' => h s e' (List.mem_cons_of_mem _ he')) t⟩

/-- Two conditions that are equivalent under an invariant are met by the same runs. -/
theorem StepsOk.congr {step : σ → ε → Except φ σ} {Ok Ok' : σ → ε → Prop} {I : σ → Prop}
    (hstep : ∀ s e t, I s → step s e = .ok t → I t) (hiff : ∀ s e, I s → (Ok s e ↔ Ok' s e)) {s : σ} (h0 : I s)
    {es : List ε} : StepsOk step Ok s es ↔ StepsOk step Ok' s es := by
  induction es generalizing s with
  | nil => exact Iff.rfl
  | cons e es ih =>
    refine and_congr (hiff s e h0) (forall_congr' fun t => imp_congr_right fun hrun => ?_)
    exact ih (hstep s e t h0 hrun)

/-- A fallible step simulates a total one, if it meets its conditions in both systems and as long as
    the states of the total one are acceptable: so do all parts of its run, which then succeed. -/
theorem run_simulates_take {step : σ → ε → Except φ σ} {step' : τ → ε → τ} (R : σ → τ → Prop) {Ok : τ → Prop}
    {Known : σ → ε → Prop} {Known' : τ → ε → Prop}
    (hstep : ∀ s t e, Known s e → Known' t e → R s t → Ok t → Ok (step' t e) →
      ∃ s', step s e = .ok s' ∧ R s' (step' t e))
    {s : σ} {t : τ} (h0 : R s t) {es : List ε} (hknown : StepsOk step Known s es)
    (hknown' : ∀ n (h : n < es.length), Known' (run step' t (es.take n)) es[n])
    (hok : ∀ n, Ok (run step' t (es.take n))) (n : Nat) :
    ∃ s', (es.take n).foldlM step s = .ok s' ∧ R s' (run step' t (es.take n)) := by
  induction es generalizing s t n with
  | nil => exact ⟨s, by rw [List.take_nil]; rfl, by rw [List.take_nil]; exact h0⟩
  | cons e es ih =>
    cases n with
    | zero => exact ⟨s, rfl, h0⟩
    | succ n =>
      obtain ⟨s₁, hfirst, h1⟩ := hstep s t e hknown.1 (hknown' 0 (Nat.succ_pos _)) h0 (hok 0) (hok 1)
      obtain ⟨s', hrest, h'⟩ := ih h1 (hknown.2 s₁ hfirst) (fun n h => hknown' (n + 1) (Nat.succ_lt_succ h))
        (fun n => hok (n + 1)) n
      refine ⟨s', ?_, h'⟩
      rw [List.take_succ_cons, List.foldlM_cons]
      exact bind_of_ok hfirst hrest

/-- Where all events are known, the run as a whole. -/
theorem run_simulates {step : σ → ε → Except φ σ} {step' : τ → ε → τ} (R : σ → τ → Prop) {Ok : τ → Prop}
    {Known : ε → Prop}
    (hstep : ∀ s t e, Known e → R s t → Ok t → Ok (step' t e) → ∃ s', step s e = .ok s' ∧ R s' (step' t e))
    {s : σ} {t : τ} (h0 : R s t) {es : List ε} (hknown : ∀ e ∈ es, Known e)
    (hok : ∀ n, Ok (run step' t (es.take n))) :
    ∃ s', es.foldlM step s = .ok s' ∧ R s' (run step' t es) := by
  have h := @run_simulates_take σ τ ε φ step step' R Ok (fun _ => Known) (fun _ _ => True)
    (fun s t e he _ => hstep s t e he) s t h0 es (.of_forall (fun _ => hknown) s) (fun _ _ => trivial) hok es.length
  rwa [List.take_length] at h

/-- A run whose steps meet the condition succeeds and keeps an invariant, if such steps do. -/
theorem StepsOk.run_ok {step : σ → ε → Except φ σ} {Ok : σ → ε → Prop} {I : σ → Prop}
    (hstep : ∀ s e, I s → Ok s e → ∃ t, step s e = .ok t ∧ I t) {s : σ} (h0 : I s) {es : List ε}
    (h : StepsOk step Ok s es) : ∃ t, es.foldlM step s = .ok t ∧ I t := by
  induction es generalizing s with
  | nil => exact ⟨s, rfl, h0⟩
  | cons e es ih =>
    obtain ⟨t, hrun, ht⟩ := hstep s e h0 h.1
    obtain ⟨u, hrest, hu⟩ := ih ht (h.2 t hrun)
    refine ⟨u, ?_, hu⟩
    rw [List.foldlM_cons]
    exact bind_of_ok hrun hrest

/-- A property holds in every state of a run exactly if every step meets the condition: if
    such steps succeed and keep an invariant that implies the property, and no other step
    leads from the invariant to a state with the property. -/
theorem stepsOk_iff {step : σ → ε → Except φ σ} {Ok : σ → ε → Prop} {I P : σ → Prop}
    (hI : ∀ s, I s → P s) (hstep : ∀ s e, I s → Ok s e → ∃ t, step s e = .ok t ∧ I t)
    (hback : ∀ s e t, I s → step s e = .ok t → P t → Ok s e) {s : σ} (h0 : I s) {es : List ε} :
    StepsOk step Ok s es ↔ ∀ n, ∃ t, (es.take n).foldlM step s = .ok t ∧ P t := by
  induction es generalizing s with
  | nil => exact ⟨fun _ n => ⟨s, by rw [List.take_nil]; rfl, hI s h0⟩, fun _ => trivial⟩
  | cons e es ih =>
    have hcons : ∀ n, ((e :: es).take (n + 1)).foldlM step s =
        step s e >>= fun t => (es.take n).foldlM step t := fun n => by
      rw [List.take_succ_cons, List.foldlM_cons]
    constructor
    · intro h n
      obtain ⟨he, hes⟩ := h
      cases n with
      | zero => exact ⟨s, rfl, hI s h0⟩
      | succ n =>
        obtain ⟨t, hrun, ht⟩ := hstep s e h0 he
        obtain ⟨u, hrest, hu⟩ := (ih ht).mp (hes t hrun) n
        exact ⟨u, by rw [hcons, hrun]; exact hrest, hu⟩
    · intro hall
      -- the first step succeeds, and its state has the property
      obtain ⟨t, hrun, hP⟩ := hall 1
      rw [hcons, List.take_zero] at hrun
      obtain ⟨t', hfirst, ht'⟩ := bind_eq_ok.mp hrun
      have he := hback s e t' h0 hfirst (Except.ok.inj ht' ▸ hP)
      refine ⟨he, fun t hrun' => ?_⟩
      obtain ⟨u, hu, hIu⟩ := hstep s e h0 he
      rw [hrun'] at hu
      obtain rfl := Except.ok.inj hu
      refine (ih hIu).mpr fun n => ?_
      obtain ⟨u, hu, hPu⟩ := hall (n + 1)
      rw [hcons, hrun'] at hu
      exact ⟨u, hu, hPu⟩

/-- A fallible run keeps what its steps keep, with the part of the state that another step works on. -/
theorem run_projects {ε' : Type} {step : σ → ε → Except φ σ} {step' : τ → ε' → Except φ τ} {R : σ → τ → Prop}
    {g : ε → ε'} (hstep : ∀ s t e s', R s t → step s e = .ok s' → ∃ t', step' t (g e) = .ok t' ∧ R s' t') {s s' : σ} {t : τ}
    (h0 : R s t) {es : List ε} (hrun : es.foldlM step s = .ok s') :
    ∃ t', (es.map g).foldlM step' t = .ok t' ∧ R s' t' := by
  induction es generalizing s t with
  | nil => exact ⟨t, rfl, Except.ok.inj hrun ▸ h0⟩
  | cons e es ih =>
    rw [List.foldlM_cons] at hrun
    obtain ⟨s₁, hfirst, hrest⟩ := bind_eq_ok.mp hrun
    obtain ⟨t₁, hfirst', h1⟩ := hstep s t e s₁ h0 hfirst
    obtain ⟨t', hrest', h'⟩ := ih h1 hrest
    refine ⟨t', ?_, h'⟩
    rw [List.map_cons, List.foldlM_cons]
    exact bind_of_ok hfirst' hrest'

/-- A run whose steps are those of another system on a part of the state, or change nothing. -/
theorem run_filterMap {ε' ψ : Type} {step : σ → ε → Except ψ σ} {step' : τ → ε' → Except φ τ} {g : ε → Option ε'}
    (inj : τ → σ) (err : φ → ψ)
    (hstep : ∀ t e e', g e = some e' → step (inj t) e = ((step' t e').mapError err).map inj)
    (hskip : ∀ t e, g e = none → step (inj t) e = .ok (inj t)) (t : τ) (es : List ε) :
    es.foldlM step (inj t) = (((es.filterMap g).foldlM step' t).mapError err).map inj := by
  induction es generalizing t with
  | nil => rfl
  | cons e es ih =>
    rw [List.foldlM_cons]
    cases he : g e with
    | none =>
      rw [List.filterMap_cons_none he, hskip t e he, ok_bind]
      exact ih t
    | some e' =>
      rw [List.filterMap_cons_some he, List.foldlM_cons, hstep t e e' he]
      cases step' t e' with
      | error f => rfl
      | ok t' => exact ih t'

/-! ## Steps that fail together -/

/-- A fallible step mirrors a partial one: it fails where that one has no next state, and succeeds with a related
    state where it has one. -/
inductive Mirrors (R : σ → τ → Prop) : Except φ σ → Option τ → Prop where
  | fails (f : φ) : Mirrors R (.error f) none
  | succeeds {s : σ} {t : τ} (h : R s t) : Mirrors R (.ok s) (some t)

theorem Mirrors.mono {R R' : σ → τ → Prop} {x : Except φ σ} {y : Option τ} (h : Mirrors R x y)
    (himp : ∀ s t, R s t → R' s t) : Mirrors R' x y := by
  cases h with
  | fails f => exact .fails f
  | succeeds h => exact .succeeds (himp _ _ h)

/-- A run mirrors another one if its steps do. -/
theorem run_mirrors {step : σ → ε → Except φ σ} {step' : τ → ε → Option τ} {R : σ → τ → Prop}
    (hstep : ∀ s t e, R s t → Mirrors R (step s e) (step' t e)) {s : σ} {t : τ} (h0 : R s t) (es : List ε) :
    Mirrors R (es.foldlM step s) (es.foldlM step' t) := by
  induction es generalizing s t with
  | nil => exact .succeeds h0
  | cons e es ih =>
    rw [List.foldlM_cons, List.foldlM_cons]
    have hfirst := hstep s t e h0
    generalize step s e = x at hfirst ⊢
    generalize step' t e = y at hfirst ⊢
    cases hfirst with
    | fails f => exact .fails f
    | succeeds h => exact ih h

/-- A fallible run goes where a partial one goes, if its steps do. -/
theorem run_leads {step : σ → ε → Except φ σ} {step' : τ → ε → Option τ} {R : σ → τ → Prop}
    (hstep : ∀ s t e t', R s t → step' t e = some t' → ∃ s', step s e = .ok s' ∧ R s' t') {s : σ} {t t' : τ}
    (h0 : R s t) {es : List ε} (hrun : es.foldlM step' t = some t') : ∃ s', es.foldlM step s = .ok s' ∧ R s' t' := by
  induction es generalizing s t with
  | nil =>
    obtain rfl := Option.some.inj hrun
    exact ⟨s, rfl, h0⟩
  | cons e es ih =>
    rw [List.foldlM_cons] at hrun
    obtain ⟨t₁, hfirst', hrest'⟩ := Option.bind_eq_some_iff.mp hrun
    obtain ⟨s₁, hfirst, h1⟩ := hstep s t e t₁ h0 hfirst'
    obtain ⟨s', hrest, h'⟩ := ih h1 hrest'
    refine ⟨s', ?_, h'⟩
    rw [List.foldlM_cons]
    exact bind_of_ok hfirst hrest

/-! ## Steps with results -/

variable {ω : Type}

/-- What is seen of a run: the results of its events, up to one that fails, and something of the state at
    the end, or of the step that fails. -/
def observe {υ : Type} (step : σ → ε → Except φ (ω × σ)) (see : σ → υ) (failing : σ → ε → υ) :
    σ → List ε → List (Option ω) × υ
  | s, [] => ([], see s)
  | s, e :: es =>
    match step s e with
    | .ok (r, t) => (some r :: (observe step see failing t es).1, (observe step see failing t es).2)
    | .error _ => ([none], failing s e)

section Observe

variable {υ : Type} {step : σ → ε → Except φ (ω × σ)} {see : σ → υ} {failing : σ → ε → υ} {s t : σ} {e : ε}

theorem observe_ok {r : ω} (h : step s e = .ok (r, t)) (es : List ε) : observe step see failing s (e :: es) =
    (some r :: (observe step see failing t es).1, (observe step see failing t es).2) := by
  rw [observe, h]

theorem observe_error {f : φ} (h : step s e = .error f) (es : List ε) :
    observe step see failing s (e :: es) = ([none], failing s e) := by
  rw [observe, h]

end Observe

/-- Two steps match if both fail, or both succeed with the same result and related states. -/
inductive Matches (R : σ → τ → Prop) : Except φ (ω × σ) → Except φ (ω × τ) → Prop where
  | error (f f' : φ) : Matches R (.error f) (.error f')
  | ok (r : ω) {s : σ} {t : τ} (h : R s t) : Matches R (.ok (r, s)) (.ok (r, t))

/-- Equal steps match, if a relation holds between every state and itself. -/
theorem Matches.of_eq {R : σ → σ → Prop} (hR : ∀ s, R s s) {x y : Except φ (ω × σ)} (h : y = x) : Matches R x y := by
  subst h
  cases y with
  | error f => exact .error f f
  | ok p => exact .ok p.1 (hR p.2)

/-- The same is seen of two runs of known events if their steps match, and related states look the same, also
    where a step fails. -/
theorem observe_matches {υ : Type} {step : σ → ε → Except φ (ω × σ)} {step' : τ → ε → Except φ (ω × τ)}
    {see : σ → υ} {see' : τ → υ} {failing : σ → ε → υ} {failing' : τ → ε → υ} {R : σ → τ → Prop} {Known : ε → Prop}
    (hstep : ∀ s t e, Known e → R s t → Matches R (step s e) (step' t e)) (hsee : ∀ s t, R s t → see s = see' t)
    (hfailing : ∀ s t e, R s t → failing s e = failing' t e) {s : σ} {t : τ} (h0 : R s t) {es : List ε}
    (hknown : ∀ e ∈ es, Known e) : observe step see failing s es = observe step' see' failing' t es := by
  induction es generalizing s t with
  | nil => exact congrArg (Prod.mk []) (hsee s t h0)
  | cons e es ih =>
    have hmatches := hstep s t e (hknown e List.mem_cons_self) h0
    rw [observe, observe]
    generalize step s e = x at hmatches
    generalize step' t e = y at hmatches
    cases hmatches with
    | error f f' => exact congrArg (Prod.mk [none]) (hfailing s t e h0)
    | ok r h1 =>
      dsimp only
      rw [ih h1 fun e' he' => hknown e' (List.mem_cons_of_mem _ he')]

end ForStd
