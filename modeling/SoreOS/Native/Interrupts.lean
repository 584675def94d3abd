import SoreOS.ForStd.Mem

/-!
# Interrupts

`kernel/interrupts.c`: the table of the interrupt handlers, and what the handlers do. The bytes for the ports are
a list, in the order in which they are sent.
-/

namespace SoreOS

open ForStd

def PIC1_COMMAND : UInt16 := 0x20
def PIC1_DATA : UInt16 := 0x21
def PIC2_COMMAND : UInt16 := 0xA0
def PIC2_DATA : UInt16 := 0xA1

def ICW1_ICW4 : UInt8 := 0x01
def ICW1_INIT : UInt8 := 0x10
def ICW4_8086 : UInt8 := 0x01
def EOI : UInt8 := 0x20

/-! ## The table -/

structure IDT_entry where
  offset_lowerbits : UInt16
  selector : UInt16
  zero : UInt8
  type_attr : UInt8
  offset_higherbits : UInt16
  deriving DecidableEq, Repr

/-- The entry for a handler. -/
def IDT_entry.gate (irq_address : UInt32) : IDT_entry where
  offset_lowerbits := (irq_address &&& 0xffff).toUInt16
  selector := 0x08
  zero := 0
  type_attr := 0x8e
  offset_higherbits := ((irq_address &&& 0xffff0000) >>> 16).toUInt16

/-- The bytes for the ports, the table, and the two words of the IDT descriptor. -/
structure Interrupts where
  out : List (UInt16 × UInt8)
  IDT : Mem IDT_entry
  idt_ptr : UInt32 × UInt32

/-- The table is at `idt_address`, the handlers at `irq`. -/
def idt_init (irq : Nat → UInt32) (idt_address : UInt32) (IDT : Mem IDT_entry) : Interrupts where
  out := [
    -- remapping the PIC
    (PIC1_COMMAND, ICW1_INIT ||| ICW1_ICW4),
    (PIC2_COMMAND, ICW1_INIT ||| ICW1_ICW4),
    (PIC1_DATA, 0x20),
    (PIC2_DATA, 0x28),
    (PIC1_DATA, 0x04),
    (PIC2_DATA, 0x02),
    (PIC1_DATA, ICW4_8086),
    (PIC2_DATA, ICW4_8086),
    (PIC1_DATA, 0x0),
    (PIC2_DATA, 0x0)]
  IDT :=
    let IDT := IDT.set 32 (.gate (irq 0))
    let IDT := IDT.set 33 (.gate (irq 1))
    let IDT := IDT.set 34 (.gate (irq 2))
    let IDT := IDT.set 35 (.gate (irq 3))
    let IDT := IDT.set 36 (.gate (irq 4))
    let IDT := IDT.set 37 (.gate (irq 5))
    let IDT := IDT.set 38 (.gate (irq 6))
    let IDT := IDT.set 39 (.gate (irq 7))
    let IDT := IDT.set 40 (.gate (irq 8))
    let IDT := IDT.set 41 (.gate (irq 9))
    let IDT := IDT.set 42 (.gate (irq 10))
    let IDT := IDT.set 43 (.gate (irq 11))
    let IDT := IDT.set 44 (.gate (irq 12))
    let IDT := IDT.set 45 (.gate (irq 13))
    let IDT := IDT.set 46 (.gate (irq 14))
    IDT.set 47 (.gate (irq 15))
  idt_ptr := ((8 * 256 : UInt32) + ((idt_address &&& 0xffff) <<< (16 : UInt32)), idt_address >>> 16)

/-! ## The handlers -/

/-- The bytes that a handler sends to the ports, and whether it calls `keyboardHandler` behind them. -/
structure Handler where
  out : List (UInt16 × UInt8)
  keyboard : Bool
  deriving DecidableEq, Repr

/-- A handler for a line of the first controller. -/
def masterHandler : Handler := ⟨[(PIC1_COMMAND, EOI)], false⟩

/-- A handler for a line of the second controller. -/
def slaveHandler : Handler := ⟨[(PIC2_COMMAND, EOI), (PIC1_COMMAND, EOI)], false⟩

def irq0_handler : Handler := masterHandler
def irq1_handler : Handler := ⟨[(PIC1_COMMAND, EOI)], true⟩
def irq2_handler : Handler := masterHandler
def irq3_handler : Handler := masterHandler
def irq4_handler : Handler := masterHandler
def irq5_handler : Handler := masterHandler
def irq6_handler : Handler := masterHandler
def irq7_handler : Handler := masterHandler
def irq8_handler : Handler := slaveHandler
def irq9_handler : Handler := slaveHandler
def irq10_handler : Handler := slaveHandler
def irq11_handler : Handler := slaveHandler
def irq12_handler : Handler := slaveHandler
def irq13_handler : Handler := slaveHandler
def irq14_handler : Handler := slaveHandler
def irq15_handler : Handler := slaveHandler

/-- What `irq0` to `irq15` call. -/
def irq_handler (n : Fin 16) : Handler :=
  match n.val with
  | 0 => irq0_handler
  | 1 => irq1_handler
  | 2 => irq2_handler
  | 3 => irq3_handler
  | 4 => irq4_handler
  | 5 => irq5_handler
  | 6 => irq6_handler
  | 7 => irq7_handler
  | 8 => irq8_handler
  | 9 => irq9_handler
  | 10 => irq10_handler
  | 11 => irq11_handler
  | 12 => irq12_handler
  | 13 => irq13_handler
  | 14 => irq14_handler
  | _ => irq15_handler

end SoreOS
