import Mathlib.Data.List.Perm.Basic
import Mathlib.Data.List.Nodup
import Mathlib.Tactic.Common

/-!
# Resources that are opened and closed

What has been opened, what has been closed, and what is still held, as lists.

## Key results

- `Outstanding.opening`, `Outstanding.closing`: a resource is opened, a held one is closed
- `Outstanding.closedOnce_iff`: nothing is held exactly if each resource was closed once
-/

namespace ForStd

variable {α : Type} {opened closed held held' : List α}

/-- What was opened has been closed or is still held, and each resource was opened once. -/
structure Outstanding (opened closed held : List α) : Prop where
  perm : opened.Perm (closed ++ held)
  nodup : opened.Nodup

namespace Outstanding

theorem nil : Outstanding ([] : List α) [] [] := ⟨List.Perm.refl _, List.nodup_nil⟩

/-- The order in which resources are held does not matter. -/
theorem of_perm (h : Outstanding opened closed held) (hp : held.Perm held') : Outstanding opened closed held' :=
  ⟨h.perm.trans (hp.append_left closed), h.nodup⟩

theorem opening (h : Outstanding opened closed held) {x : α} (hx : x ∉ opened) :
    Outstanding (opened ++ [x]) closed (x :: held) := by
  constructor
  · calc (opened ++ [x]).Perm (x :: opened) := List.perm_append_singleton x opened
      List.Perm _ (x :: (closed ++ held)) := h.perm.cons x
      List.Perm _ (closed ++ x :: held) := List.perm_middle.symm
  · exact List.nodup_append'.mpr ⟨h.nodup, List.nodup_singleton x, List.disjoint_singleton.mpr hx⟩

theorem closing {x : α} (h : Outstanding opened closed (x :: held)) : Outstanding opened (closed ++ [x]) held := by
  refine ⟨?_, h.nodup⟩
  rw [List.append_assoc]
  exact h.perm

/-- Every resource has been closed, and only once, exactly if none is held. -/
theorem closedOnce_iff [DecidableEq α] (h : Outstanding opened closed held) :
    (∀ x ∈ opened, closed.count x = 1) ↔ held = [] := by
  have hcount : ∀ x ∈ opened, closed.count x + held.count x = 1 := by
    intro x hx
    rw [← List.count_append, ← h.perm.count_eq, List.count_eq_one_of_mem h.nodup hx]
  constructor
  · intro hclosed
    rw [List.eq_nil_iff_forall_not_mem]
    intro x hheld
    have hopened : x ∈ opened := h.perm.mem_iff.mpr (List.mem_append_right closed hheld)
    have hone := hcount x hopened
    rw [hclosed x hopened] at hone
    have hpos : 0 < held.count x := List.count_pos_iff.mpr hheld
    omega
  · rintro rfl x hx
    exact hcount x hx

end Outstanding

end ForStd
