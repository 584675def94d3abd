import Mathlib.Data.List.Basic
import Mathlib.Tactic.Common

/-!
# Segments of a list

A list read as segments with a separator in front of each, as in an absolute path.

## Key results

- `segments_joined`: the segments that were joined are read back
-/

namespace ForStd

variable {α : Type} [DecidableEq α]

/-- The nonempty parts of a list between the separators. -/
def segments (sep : α) (l : List α) : List (List α) := (l.splitOn sep).filter (· ≠ [])

omit [DecidableEq α] in
/-- The segments, each behind a separator. -/
def joined (sep : α) (p : List (List α)) : List α := p.flatMap (sep :: ·)

omit [DecidableEq α] in
theorem joined_append_singleton (sep : α) (p : List (List α)) (x : List α) :
    joined sep (p ++ [x]) = joined sep p ++ sep :: x := by
  simp [joined]

/-- Splitting what begins with a segment. -/
private theorem splitOn_append_joined {sep : α} {x : List α} (hx : sep ∉ x) {p : List (List α)}
    (hp : ∀ y ∈ p, sep ∉ y) : (x ++ joined sep p).splitOn sep = x :: p := by
  induction p generalizing x with
  | nil =>
    rw [joined, List.flatMap_nil, List.append_nil]
    exact List.splitOn_eq_singleton hx
  | cons y p ih =>
    show (x ++ (sep :: y ++ joined sep p)).splitOn sep = _
    rw [List.cons_append, List.splitOn_append_cons_self_of_not_mem hx,
      ih (hp y List.mem_cons_self) fun z hz => hp z (List.mem_cons_of_mem _ hz)]

/-- Segments without separators are read back. -/
theorem segments_joined {sep : α} {p : List (List α)} (hp : ∀ x ∈ p, x ≠ [] ∧ sep ∉ x) :
    segments sep (joined sep p) = p := by
  have hsplit := splitOn_append_joined (x := []) List.not_mem_nil fun y hy => (hp y hy).2
  rw [List.nil_append] at hsplit
  -- the empty part in front of the first separator is dropped
  rw [segments, hsplit, List.filter_cons_of_neg (by simp), List.filter_eq_self]
  exact fun x hx => by simpa using (hp x hx).1

end ForStd
