import Nais.Timer.Remove

/-!
# The deadlines that the set operations store

Five operations put the counter they read plus an offset, less the overhead, in the two fields of
a timer. `_xtimer_set_msg64` writes the high half only when the sum does not fit in 32 bits, and
then it always writes 1.
-/

namespace Nais.Timer

variable {ι : Type}

namespace Sys

section Operations

variable [Fintype ι] [DecidableEq ι] (s : Sys ι) (timer : ι) (now : UInt32)

def xtimerSetAbsolute64 (ticksOffset : UInt64) : Option (Sys ι) :=
  (s.setAbsolute64 timer ticksOffset).addTimerToList timer

/-- `_xtimer_set`; with a small offset it spins and calls the callback itself. -/
def xtimerSet (offset : UInt32) : Option (Sys ι) :=
  if !s.callback timer then some s
  else match s.xtimerRemove timer with
    | none => none
    | some s =>
      if offset < xtimerBackoff then some s
      else s.xtimerSetAbsolute64 timer (now.toUInt64 + offset.toUInt64)

def xtimerSet64 (offset longOffset : UInt32) : Option (Sys ι) :=
  (s.set64 timer now offset longOffset).addTimerToList timer

def xtimerSetMsg64 (offset : UInt64) : Option (Sys ι) :=
  (s.setMsg64 timer now offset).addTimerToList timer

def xtimerSetMsg (offset : UInt32) : Option (Sys ι) := s.xtimerSetMsg64 timer now offset.toUInt64

def xtimerSetWakeup64 (offset : UInt64) : Option (Sys ι) :=
  let s := { s with callback := Function.update s.callback timer true }
  s.xtimerSet64 timer now offset.toUInt32 (offset >>> 32).toUInt32

end Operations

end Sys

/-- A call of a set operation, with the offset it is given. -/
inductive SetCall where
  | set (offset : UInt32)
  | set64 (offset longOffset : UInt32)
  | setMsg (offset : UInt32)
  | setMsg64 (offset : UInt64)
  | setWakeup64 (offset : UInt64)

namespace SetCall

def ticks : SetCall → ℕ
  | .set offset | .setMsg offset => offset.toNat
  | .set64 offset longOffset => longOffset.toNat * 2 ^ 32 + offset.toNat
  | .setMsg64 offset | .setWakeup64 offset => offset.toNat

/-- The deadline that is asked for, over the integers. -/
def requested (call : SetCall) (now : UInt32) : ℤ :=
  now.toNat + call.ticks - xtimerOverhead.toNat

section Exec

variable [Fintype ι] [DecidableEq ι] (s : Sys ι) (timer : ι) (now : UInt32)

/-- The state in which the call returns. -/
def exec : SetCall → Option (Sys ι)
  | .set offset => s.xtimerSet timer now offset
  | .set64 offset longOffset => s.xtimerSet64 timer now offset longOffset
  | .setMsg offset => s.xtimerSetMsg timer now offset
  | .setMsg64 offset => s.xtimerSetMsg64 timer now offset
  | .setWakeup64 offset => s.xtimerSetWakeup64 timer now offset

end Exec

end SetCall

namespace Sys

section Frame

variable [Fintype ι] [DecidableEq ι] {s s' : Sys ι} {timer : ι}

end Frame

section Fields

variable [DecidableEq ι] {s : Sys ι} {timer : ι} {now : UInt32}

end Fields

end Sys

section Calls

variable [Fintype ι] [DecidableEq ι] {s s' : Sys ι} {timer : ι} {now : UInt32}

end Calls

end Nais.Timer
