import SoreOS.ForStd.Halves
import SoreOS.ForStd.Pic
import SoreOS.ForStd.Run
import SoreOS.Native.Interrupts
import SoreOS.Native.System
import SoreOS.Spec.ReadFile
import Mathlib.Tactic.FinCases

/-!
# From the lines of the interrupt controllers to the handlers

A device raises a line, the controllers give the processor a vector, the processor finds the handler in the table, and
the handler acknowledges the interrupt.

## Key results

- `IDT_entry.target_gate`, `Interrupts.base_idt_init`: the processor reads the table as `idt_init` writes it
- `Placing.serve_remapped`: the interrupt of a line gets to its handler and is acknowledged
- `interrupts_served`: the kernel's steps in a run of the machine
-/

namespace SoreOS

open ForStd

/-! ## The table -/

/-- Where an interrupt gate of the kernel's code segment leads to. -/
def IDT_entry.target (e : IDT_entry) : Option UInt32 :=
  if e.selector = 0x08 ∧ e.type_attr = 0x8E then
    some (.ofBitVec (e.offset_higherbits.toBitVec ++ e.offset_lowerbits.toBitVec))
  else none

theorem IDT_entry.target_gate (irq_address : UInt32) : (gate irq_address).target = some irq_address := by
  have hlt := irq_address.toNat_lt
  -- the two halves of the address
  have hlow : (gate irq_address).offset_lowerbits.toNat = irq_address.toNat % 65536 := by
    show (irq_address &&& 0xffff).toUInt16.toNat = _
    rw [UInt32.toNat_toUInt16, UInt32.toNat_and]
    show (irq_address.toNat &&& 2 ^ 16 - 1) % 65536 = _
    rw [Nat.and_two_pow_sub_one_eq_mod]
    omega
  have hhigh : (gate irq_address).offset_higherbits.toNat = irq_address.toNat / 65536 := by
    show ((irq_address &&& 0xffff0000) >>> 16).toUInt16.toNat = _
    rw [UInt32.toNat_toUInt16, UInt32.toNat_shiftRight, UInt32.toNat_and]
    show (irq_address.toNat &&& 0xffff0000) >>> 16 % 65536 = _
    rw [Nat.shiftRight_and_distrib]
    show (irq_address.toNat >>> 16 &&& 2 ^ 16 - 1) % 65536 = _
    rw [Nat.and_two_pow_sub_one_eq_mod, Nat.shiftRight_eq_div_pow]
    omega
  rw [target, if_pos ⟨rfl, rfl⟩]
  refine congrArg some ?_
  apply UInt32.toNat_inj.mp
  show (_ ++ _ : BitVec 32).toNat = _
  rw [toNat_append]
  show (gate irq_address).offset_higherbits.toNat * 65536 + (gate irq_address).offset_lowerbits.toNat = _
  omega

/-- The table that the descriptor names: its first byte, and its last one. -/
def Interrupts.base (x : Interrupts) : UInt32 :=
  .ofBitVec ((x.idt_ptr.2.toBitVec ++ x.idt_ptr.1.toBitVec).extractLsb' 16 32)

def Interrupts.limit (x : Interrupts) : Nat := x.idt_ptr.1.toNat % 65536

theorem Interrupts.base_idt_init (irq : Nat → UInt32) (idt_address : UInt32) (IDT : Mem IDT_entry) :
    (idt_init irq idt_address IDT).base = idt_address ∧ (idt_init irq idt_address IDT).limit = 2048 := by
  have hlt := idt_address.toNat_lt
  -- the limit and the lower half of the address share a word
  have hfirst : (idt_init irq idt_address IDT).idt_ptr.1.toNat = 2048 + idt_address.toNat % 65536 * 65536 := by
    show ((8 * 256 : UInt32) + ((idt_address &&& 0xffff) <<< (16 : UInt32))).toNat = _
    rw [UInt32.toNat_add, UInt32.toNat_shiftLeft, UInt32.toNat_and]
    show (2048 + (idt_address.toNat &&& 2 ^ 16 - 1) <<< 16 % 4294967296) % 4294967296 = _
    rw [Nat.and_two_pow_sub_one_eq_mod, Nat.shiftLeft_eq]
    omega
  have hsecond : (idt_init irq idt_address IDT).idt_ptr.2.toNat = idt_address.toNat / 65536 := by
    show (idt_address >>> 16).toNat = _
    rw [UInt32.toNat_shiftRight]
    show idt_address.toNat >>> 16 = _
    rw [Nat.shiftRight_eq_div_pow]
  constructor
  · apply UInt32.toNat_inj.mp
    show (BitVec.extractLsb' 16 32 (_ ++ _)).toNat = _
    rw [BitVec.extractLsb'_toNat, toNat_append, Nat.shiftRight_eq_div_pow, UInt32.toNat_toBitVec, UInt32.toNat_toBitVec,
      hfirst, hsecond]
    omega
  · rw [limit, hfirst]
    omega

/-- The processor looks a vector up in the table at an address. The limit is the offset of the last byte. -/
def Interrupts.lookup (x : Interrupts) (idt_address : UInt32) (vector : Nat) : Option UInt32 :=
  if x.base = idt_address ∧ 8 * vector + 7 ≤ x.limit then (x.IDT vector).target else none

/-- The controllers after the initialization: the lines have the vectors from 32 on, and none is masked. -/
def remapped : Pics where
  master := ⟨.mask, false, true, 0x20, 0x04, ICW4_8086, 0, fun _ => false⟩
  slave := ⟨.mask, false, true, 0x28, 0x02, ICW4_8086, 0, fun _ => false⟩

theorem remapped_idle : remapped.Idle where
  master := ⟨rfl, by decide, by decide, rfl, rfl⟩
  slave := ⟨rfl, by decide, by decide, rfl, rfl⟩
  cascaded := ⟨rfl, rfl⟩

theorem vector_remapped (n : Fin 16) : remapped.vector n = 32 + n.val := by
  fin_cases n <;> rfl

section Table

variable (irq : Nat → UInt32) (idt_address : UInt32) (IDT : Mem IDT_entry)

theorem IDT_idt_init (n : Fin 16) : (idt_init irq idt_address IDT).IDT (32 + n.val : Nat) = .gate (irq n.val) := by
  fin_cases n <;> rfl

/-- The vectors from 32 on lead to the handlers. -/
theorem lookup_idt_init (n : Fin 16) :
    (idt_init irq idt_address IDT).lookup idt_address (32 + n.val) = some (irq n.val) := by
  obtain ⟨hbase, hlimit⟩ := Interrupts.base_idt_init irq idt_address IDT
  rw [Interrupts.lookup, if_pos ⟨hbase, by omega⟩, IDT_idt_init, IDT_entry.target_gate]

/-- Whatever state they were in before. -/
theorem idt_init_out (p : Pics) : (idt_init irq idt_address IDT).out.foldlM Pics.out p = some remapped := rfl

end Table

/-- Every handler acknowledges its interrupt at the controllers that it came through. -/
theorem out_irq_handler (n : Fin 16) : (irq_handler n).out = Pics.ends n := by
  fin_cases n <;> rfl

theorem keyboard_irq_handler (n : Fin 16) : (irq_handler n).keyboard = decide (n.val = 1) := by
  fin_cases n <;> rfl

/-! ## The machine -/

/-- The controllers, and the kernel whose main loop the devices interrupt. -/
structure Board where
  pics : Pics
  kernel : Kernel

/-- A device raises its line, with the bytes of the keyboard's status and data ports, or the main loop goes on.
    There is no device on line 2. The gates are interrupt gates, so that no handler is interrupted itself. -/
inductive BoardStep where
  | raise (line : {n : Fin 16 // n.val ≠ 2}) (status keyCode : UInt8)
  | call (file : File)

/-- The interrupt of a line does not get to a handler that acknowledges it, or a driver leaves an array. -/
inductive BoardError where
  | lost
  | fault (f : Fault)

/-- The step of the kernel: only the keyboard's interrupts are one. -/
def BoardStep.kernelStep : BoardStep → Option KernelStep
  | .raise line status keyCode => if line.val.val = 1 then some (.interrupt status keyCode) else none
  | .call file => some (.call file)

/-- Where the handlers and the table are, and which handler begins at an address. -/
structure Placing where
  irq : Nat → UInt32
  idt_address : UInt32
  handlerAt : UInt32 → Option (Fin 16)
  handlerAt_irq : ∀ n, handlerAt (irq n.val) = some n

namespace Placing

variable (l : Placing) (x : Interrupts)

/-- From a line to what its interrupt does: the handler, and the controllers behind its acknowledgement. -/
def serve (p : Pics) (line : Fin 16) : Option (Handler × Pics) := do
  let (vector, p) ← p.raise line
  let irq_address ← x.lookup l.idt_address vector
  let n ← l.handlerAt irq_address
  let p ← (irq_handler n).out.foldlM Pics.out p
  return (irq_handler n, p)

/-- A step of the machine. The acknowledgement comes before `keyboardHandler`. -/
def step (d : Drive) (s : Board) : BoardStep → Except BoardError Board
  | .raise line status keyCode =>
    match l.serve x s.pics line with
    | none => .error .lost
    | some (handler, pics) =>
      if handler.keyboard = true then
        ((s.kernel.step d (.interrupt status keyCode)).mapError .fault).map (Board.mk pics)
      else .ok { s with pics := pics }
  | .call file => ((s.kernel.step d (.call file)).mapError .fault).map (Board.mk s.pics)

/-- With nothing in service, the interrupt of a line gets to its own handler, and nothing is in service behind it. -/
theorem serve_remapped (IDT : Mem IDT_entry) {line : Fin 16} (hline : line.val ≠ 2) :
    l.serve (idt_init l.irq l.idt_address IDT) remapped line = some (irq_handler line, remapped) := by
  -- the vectors of the lines are those of the table
  obtain ⟨p, hraise, hends⟩ := remapped_idle.served hline
  rw [vector_remapped] at hraise
  rw [serve, hraise, Option.bind_eq_bind, Option.bind_some]
  dsimp only
  rw [lookup_idt_init, Option.bind_eq_bind, Option.bind_some, l.handlerAt_irq, Option.bind_eq_bind, Option.bind_some,
    out_irq_handler, hends]
  rfl

theorem step_raise (IDT : Mem IDT_entry) (d : Drive) (k : Kernel) (line : {n : Fin 16 // n.val ≠ 2}) (status keyCode : UInt8) :
    l.step (idt_init l.irq l.idt_address IDT) d ⟨remapped, k⟩ (.raise line status keyCode) =
      if line.val.val = 1 then ((k.step d (.interrupt status keyCode)).mapError .fault).map (Board.mk remapped)
      else .ok ⟨remapped, k⟩ := by
  rw [step, l.serve_remapped IDT line.property]
  dsimp only
  rw [keyboard_irq_handler]
  exact if_congr decide_eq_true_iff rfl rfl

end Placing

/-- Behind `idt_init`, whatever state the controllers were in and wherever the handlers and the table are, no interrupt
    of any line is lost or held back: in every run the kernel takes the steps of the keyboard's interrupts and of its
    main loop, each once and in their order, and no others. -/
theorem interrupts_served (l : Placing) (IDT : Mem IDT_entry) (p : Pics) :
    ∃ p', (idt_init l.irq l.idt_address IDT).out.foldlM Pics.out p = some p' ∧
      ∀ (d : Drive) (k : Kernel) (es : List BoardStep),
        es.foldlM (l.step (idt_init l.irq l.idt_address IDT) d) ⟨p', k⟩ =
          (((es.filterMap BoardStep.kernelStep).foldlM (Kernel.step d) k).mapError .fault).map (Board.mk p') := by
  refine ⟨remapped, idt_init_out l.irq l.idt_address IDT p, fun d k es => ?_⟩
  refine run_filterMap (Board.mk remapped) BoardError.fault (fun k e e' he => ?_) (fun k e he => ?_) k es
  · cases e with
    | raise line status keyCode =>
      obtain ⟨hkeyboard, he⟩ := Option.ite_none_right_eq_some.mp he
      obtain rfl := Option.some.inj he
      rw [l.step_raise, if_pos hkeyboard]
    | call file =>
      obtain rfl := Option.some.inj he
      rfl
  · cases e with
    | raise line status keyCode =>
      -- another line than the keyboard's
      have hother : line.val.val ≠ 1 := by
        intro hkeyboard
        rw [BoardStep.kernelStep, if_pos hkeyboard] at he
        cases he
      rw [l.step_raise, if_neg hother]
    | call file => cases he

/-- Handlers 16 bytes apart. -/
def apart : Placing where
  irq n := 0x9000 + 16 * UInt32.ofNat n
  idt_address := 0xB000
  handlerAt a := (List.finRange 16).find? fun n => a = 0x9000 + 16 * UInt32.ofNat n.val
  handlerAt_irq := by decide

/-- The letter `L` is typed between two interrupts of the timer, and one of the second controller: the kernel takes one
    step. -/
theorem interrupts_served_key :
    [.raise ⟨0, by decide⟩ 0 0, .raise ⟨1, by decide⟩ 1 0x26, .raise ⟨14, by decide⟩ 0 0, .raise ⟨0, by decide⟩ 0 0].foldlM
      (apart.step (idt_init apart.irq apart.idt_address fun _ => .gate 0) (healthyDrive fun _ => 0))
      ⟨remapped, { keyboard := { screen := { vidmem := fun _ => 0 } }, files := .boot }⟩ =
    (((Kernel.step (healthyDrive fun _ => 0)
      { keyboard := { screen := { vidmem := fun _ => 0 } }, files := .boot } (.interrupt 1 0x26)).mapError .fault).map
      (Board.mk remapped)) := by
  obtain ⟨p, hout, hruns⟩ := interrupts_served apart (fun _ => .gate 0) remapped
  obtain rfl := Option.some.inj ((idt_init_out _ _ _ _).symm.trans hout)
  refine (hruns _ _ _).trans ?_
  show (([KernelStep.interrupt 1 0x26].foldlM (Kernel.step _) _).mapError _).map _ = _
  rw [List.foldlM_cons]
  rfl

end SoreOS
