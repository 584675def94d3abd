import SoreOS.Native.Filesys

/-!
# Comparing strings

`strlen`, `strcmp` and `memcmp` of `libc/string` as the loops they are, with the ends of
the strings they read.
-/

namespace SoreOS

open ForStd

/-- A zero-terminated string; the object that holds it ends with its terminator. -/
structure CStr where
  chars : List UInt8
  zero_not_mem : 0 ∉ chars

/-- Why a loop gives no result: it reads past the terminator of a string, or it has not
    ended after the given number of rounds. -/
inductive Stop where
  | pastEnd (index : Nat)
  | running
  deriving DecidableEq, Repr

namespace CStr

/-- `str[i]` -/
def load (s : CStr) (i : Nat) : Except Stop UInt8 :=
  if i ≤ s.chars.length then .ok (s.chars.getD i 0) else .error (.pastEnd i)

/-- The memory that begins with the string. -/
def bytes (s : CStr) : Bytes := ofString s.chars

/-- The loop of `strlen`, at most as many rounds. -/
def strlen (s : CStr) : Nat → Nat → Except Stop Nat
  | 0, _ => .error .running
  | rounds + 1, count => do
    if (← s.load count) ≠ 0 then s.strlen rounds (count + 1) else return count

/-- The loop of `strcmp` from round `i` on, at most as many rounds; `char` is signed. -/
def strcmp (astr bstr : CStr) : Nat → Nat → Except Stop Int
  | 0, _ => .error .running
  | rounds + 1, i => do
    -- the second string is read only where the first one has ended
    let goesOn ← if (← astr.load i) ≠ 0 then pure true else (fun b => decide (b ≠ 0)) <$> bstr.load i
    if goesOn then
      let a ← astr.load i
      let b ← bstr.load i
      if a.toInt8 < b.toInt8 then return -1
      else if b.toInt8 < a.toInt8 then return 1
      else strcmp astr bstr rounds (i + 1)
    else return 0

end CStr

/-- The loop of `memcmp` over the `size` bytes from `i` on. -/
def memcmpFrom (a b : Bytes) : Nat → Nat → Int
  | 0, _ => 0
  | size + 1, i => if a i < b i then -1 else if b i < a i then 1 else memcmpFrom a b size (i + 1)

/-- `memcmp(aptr, bptr, size)` -/
def memcmp (a b : Bytes) (size : Nat) : Int := memcmpFrom a b size 0

end SoreOS
