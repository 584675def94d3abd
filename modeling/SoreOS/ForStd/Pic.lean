import Mathlib.Data.Fintype.Basic
import Mathlib.Logic.Function.Basic

/-!
# Interrupt controllers

The two cascaded 8259A controllers of a PC: their initialization, the lines that are
granted, and the end of an interrupt.

## Key results

- `Pics.raise_eq`: with nothing in service, every line but the cascade's is granted
- `Pics.served`: a non-specific end at the controllers that granted it leaves nothing in service
-/

namespace ForStd

/-- What the data port of a controller takes next: the words of the initialization, and the mask behind them. -/
inductive PicWord where
  | icw2
  | icw3
  | icw4
  | mask
  deriving DecidableEq, Repr

/-- A controller, with the lines in service. -/
structure Pic where
  next : PicWord
  single : Bool
  needsICW4 : Bool
  base : UInt8
  cascade : UInt8
  mode : UInt8
  mask : UInt8
  inService : Fin 8 → Bool

namespace Pic

/-- A byte to the command port: the first word of the initialization, or the non-specific end of the
    interrupt of highest priority. The other commands are not described. -/
def command (p : Pic) (b : UInt8) : Option Pic :=
  if b &&& 0x10 ≠ 0 then
    some { p with
      next := .icw2
      single := b &&& 0x02 ≠ 0
      needsICW4 := b &&& 0x01 ≠ 0
      mode := 0
      mask := 0
      inService := fun _ => false }
  else if b = 0x20 then
    some { p with inService := fun i => p.inService i && decide (∃ j < i, p.inService j = true) }
  else none

/-- A byte to the data port. -/
def data (p : Pic) (b : UInt8) : Pic :=
  let last : PicWord := if p.needsICW4 then .icw4 else .mask
  match p.next with
  | .icw2 => { p with next := if p.single then last else .icw3, base := b &&& 0xF8 }
  | .icw3 => { p with next := last, cascade := b }
  | .icw4 => { p with next := .mask, mode := b }
  | .mask => { p with mask := b }

/-- A line is granted in 8086 mode if it is not masked and no line of its priority or a higher one is in
    service. It is in service then, unless its end is automatic. -/
def request (p : Pic) (line : Fin 8) : Option Pic :=
  if p.next = .mask ∧ p.mode &&& 0x01 ≠ 0 ∧ p.mask.toNat.testBit line = false ∧ ∀ j ≤ line, p.inService j = false then
    some (if p.mode &&& 0x02 ≠ 0 then p else { p with inService := Function.update p.inService line true })
  else none

/-- A controller behind its initialization, with nothing masked or in service. -/
structure Idle (p : Pic) : Prop where
  next : p.next = .mask
  vectors : p.mode &&& 0x01 ≠ 0
  manual : p.mode &&& 0x02 = 0
  mask : p.mask = 0
  inService : p.inService = fun _ => false

/-- A controller that serves one line. -/
def serving (p : Pic) (line : Fin 8) : Pic := { p with inService := Function.update p.inService line true }

namespace Idle

variable {p : Pic} (h : p.Idle)
include h

theorem request_eq (line : Fin 8) : p.request line = some (p.serving line) := by
  rw [request, if_pos, if_neg (not_not.mpr h.manual), serving]
  refine ⟨h.next, h.vectors, ?_, fun j _ => by rw [h.inService]⟩
  rw [h.mask]
  exact Nat.zero_testBit line

/-- The only line in service is the one that ends. -/
theorem command_serving (line : Fin 8) : (p.serving line).command 0x20 = some p := by
  have hserving : (p.serving line).inService = Function.update (fun _ => false) line true := by
    rw [← h.inService]
    rfl
  have hnone : (fun i => (p.serving line).inService i && decide (∃ j < i, (p.serving line).inService j = true)) =
      p.inService := by
    funext i
    rw [hserving, h.inService, Bool.and_eq_false_iff, decide_eq_false_iff_not]
    -- there is no line of higher priority for the one that is served
    by_cases hi : i = line
    · refine .inr fun hlower => ?_
      obtain ⟨j, hj, htrue⟩ := hlower
      rw [Function.update_of_ne (ne_of_lt (hi ▸ hj))] at htrue
      cases htrue
    · exact .inl (Function.update_of_ne hi _ _)
  rw [command, if_neg (by decide), if_pos rfl, hnone]
  rfl

end Idle

end Pic

/-! ## Two controllers -/

/-- The two controllers of a PC: the output of the second one is line 2 of the first. -/
structure Pics where
  master : Pic
  slave : Pic

namespace Pics

/-- A byte to a port. -/
def out (p : Pics) (w : UInt16 × UInt8) : Option Pics :=
  if w.1 = 0x20 then (p.master.command w.2).map fun master => { p with master := master }
  else if w.1 = 0x21 then some { p with master := p.master.data w.2 }
  else if w.1 = 0xA0 then (p.slave.command w.2).map fun slave => { p with slave := slave }
  else if w.1 = 0xA1 then some { p with slave := p.slave.data w.2 }
  else none

theorem out_master (p : Pics) (b : UInt8) :
    p.out (0x20, b) = (p.master.command b).map fun master => { p with master := master } := if_pos rfl

theorem out_slave (p : Pics) (b : UInt8) :
    p.out (0xA0, b) = (p.slave.command b).map fun slave => { p with slave := slave } := by
  have h20 : (0xA0 : UInt16) ≠ 0x20 := by decide
  have h21 : (0xA0 : UInt16) ≠ 0x21 := by decide
  exact (if_neg h20).trans ((if_neg h21).trans (if_pos rfl))

/-- The first controller leaves the vector of line 2 to the second one, which takes that for its own. -/
def Cascaded (p : Pics) : Prop := p.master.cascade = 0x04 ∧ p.slave.cascade = 0x02

instance (p : Pics) : Decidable p.Cascaded := inferInstanceAs (Decidable (_ ∧ _))

/-- A device raises a line: the vector that the processor is given. There is no device on line 2. -/
def raise (p : Pics) (line : Fin 16) : Option (Nat × Pics) :=
  if ¬ p.Cascaded ∨ line.val = 2 then none
  else if h : line.val < 8 then
    (p.master.request ⟨line, h⟩).map fun master => (p.master.base.toNat + line, { p with master := master })
  else do
    let slave ← p.slave.request ⟨line - 8, by omega⟩
    let master ← p.master.request 2
    return (p.slave.base.toNat + (line - 8), ⟨master, slave⟩)

structure Idle (p : Pics) : Prop where
  master : p.master.Idle
  slave : p.slave.Idle
  cascaded : p.Cascaded

/-- The vector of a line. -/
def vector (p : Pics) (line : Fin 16) : Nat :=
  if line.val < 8 then p.master.base.toNat + line else p.slave.base.toNat + (line - 8)

/-- The ends of an interrupt: one to each controller that it came through. -/
def ends (line : Fin 16) : List (UInt16 × UInt8) :=
  if line.val < 8 then [(0x20, 0x20)] else [(0xA0, 0x20), (0x20, 0x20)]

/-- Every line is granted and, once it has been acknowledged, nothing is in service. -/
theorem Idle.served {p : Pics} (h : p.Idle) {line : Fin 16} (hline : line.val ≠ 2) :
    ∃ p', p.raise line = some (p.vector line, p') ∧ (ends line).foldlM out p' = some p := by
  have hcascaded : ¬ (¬ p.Cascaded ∨ line.val = 2) := by
    rw [not_or]
    exact ⟨not_not.mpr h.cascaded, hline⟩
  rw [raise, if_neg hcascaded, vector, ends]
  by_cases hlow : line.val < 8
  · rw [dif_pos hlow, if_pos hlow, if_pos hlow, h.master.request_eq]
    refine ⟨_, rfl, ?_⟩
    rw [List.foldlM_cons, out_master, h.master.command_serving]
    rfl
  · rw [dif_neg hlow, if_neg hlow, if_neg hlow, h.slave.request_eq, h.master.request_eq]
    refine ⟨_, rfl, ?_⟩
    -- the second controller is acknowledged first
    rw [List.foldlM_cons, out_slave, h.slave.command_serving, Option.map_some, Option.bind_eq_bind, Option.bind_some,
      List.foldlM_cons, out_master, h.master.command_serving]
    rfl

end Pics

end ForStd
