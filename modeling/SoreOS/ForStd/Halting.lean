import Mathlib.Computability.StateTransition
import Mathlib.Data.Nat.Find

/-!
# Machines that may not halt

Loops of a machine that is given by a step function `σ → Option σ`: one that comes to
its end, and one that goes on forever.

## Key results

- `reaches_loop`: after its rounds a loop has reached its end
- `not_mem_eval_loop`: a machine that is always in some round does not halt
- `exists_first_not`: the round in which a search ends
- `exists_evalFor`: a machine that halts does so in a bounded number of steps
-/

namespace ForStd

open StateTransition Relation

variable {σ : Type} {f : σ → Option σ}

theorem reaches_step {s t : σ} (h : f s = some t) : Reaches f s t := ReflTransGen.single h

/-- A loop of `n` rounds: each of them begins where the one before it ends. -/
theorem reaches_loop {I : Nat → σ → Prop} {n : Nat} (hround : ∀ i < n, ∀ s, I i s → ∃ t, Reaches f s t ∧ I (i + 1) t)
    {s : σ} (h : I 0 s) : ∃ t, Reaches f s t ∧ I n t := by
  induction n with
  | zero => exact ⟨s, ReflTransGen.refl, h⟩
  | succ n ih =>
    obtain ⟨t, hst, ht⟩ := ih fun i hi => hround i (Nat.lt_succ_of_lt hi)
    obtain ⟨u, htu, hu⟩ := hround n (Nat.lt_succ_self n) t ht
    exact ⟨u, hst.trans htu, hu⟩

/-- A loop without an end: every round takes a step and leads to another one. -/
theorem not_mem_eval_loop {I : σ → Prop} (hround : ∀ s, I s → ∃ t, Reaches₁ f s t ∧ I t) {s t : σ} (h : I s) :
    t ∉ eval f s := by
  intro hmem
  -- no state on the way to the end begins a round
  suffices hnone : ∀ u, Reaches f s u → ¬ I u from hnone s ReflTransGen.refl h
  refine evalInduction hmem fun a _ ih u hau hu => ?_
  obtain ⟨v, huv, hv⟩ := hround u hu
  obtain ⟨a', hstep, ha'v⟩ := TransGen.head'_iff.mp (TransGen.trans_right hau huv)
  exact ih a' hstep v ha'v hv

/-- A step that leads back to its state is taken forever. -/
theorem not_mem_eval_self {s : σ} (h : f s = some s) (t : σ) : t ∉ eval f s :=
  not_mem_eval_loop (I := (· = s)) (fun _ hu => ⟨s, .single (hu ▸ h), rfl⟩) rfl

/-- A search that tries the numbers in order ends with the first one that is not passed. -/
theorem exists_first_not {P : Nat → Prop} [DecidablePred P] {i : Nat} (h : ¬ P i) :
    ∃ k ≤ i, (∀ j < k, P j) ∧ ¬ P k := by
  have hex : ∃ k, ¬ P k := ⟨i, h⟩
  refine ⟨Nat.find hex, Nat.find_min' hex h, fun j hj => ?_, Nat.find_spec hex⟩
  exact not_not.mp (Nat.find_min hex hj)

/-! ## Bounded runs -/

/-- Runs a machine to its end, if it gets there in less than `n` steps. -/
def evalFor (f : σ → Option σ) : Nat → σ → Option σ
  | 0, _ => none
  | n + 1, s =>
    match f s with
    | none => some s
    | some t => evalFor f n t

theorem evalFor_end {s : σ} (h : f s = none) (n : Nat) : evalFor f (n + 1) s = some s := by
  simp only [evalFor, h]

theorem evalFor_step {s t : σ} (h : f s = some t) (n : Nat) : evalFor f (n + 1) s = evalFor f n t := by
  simp only [evalFor, h]

theorem mem_eval_of_evalFor {n : Nat} {s t : σ} (h : evalFor f n s = some t) : t ∈ eval f s := by
  induction n generalizing s with
  | zero => exact nomatch h
  | succ n ih =>
    cases hstep : f s with
    | none =>
      rw [evalFor_end hstep] at h
      obtain rfl := Option.some.inj h
      exact mem_eval.mpr ⟨ReflTransGen.refl, hstep⟩
    | some u =>
      rw [evalFor_step hstep] at h
      rw [reaches_eval (reaches_step hstep)]
      exact ih h

/-- More steps change nothing. -/
theorem exists_evalFor {s t : σ} (h : t ∈ eval f s) : ∃ n, ∀ k ≥ n, evalFor f k s = some t := by
  obtain ⟨hreach, hend⟩ := mem_eval.mp h
  induction hreach using ReflTransGen.head_induction_on with
  | refl =>
    refine ⟨1, fun k hk => ?_⟩
    obtain ⟨k, rfl⟩ := Nat.exists_eq_add_of_le' hk
    exact evalFor_end hend k
  | head hstep _ ih =>
    obtain ⟨n, hn⟩ := ih (by rwa [← reaches_eval (reaches_step hstep)])
    refine ⟨n + 1, fun k hk => ?_⟩
    obtain ⟨k, rfl⟩ := Nat.exists_eq_add_of_le' hk
    rw [← Nat.add_assoc, evalFor_step hstep]
    exact hn _ (Nat.le_add_left _ _)

end ForStd
