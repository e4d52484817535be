import Nais.Lib.Run
import Nais.Board.Channels
import Nais.Board.Mqtt

/-!
# The connections of the board

The functions of `sys/bocia` that open, register and close sockets, each as one operation, and
the loop with one operation for each channel. What the socket layer answers is an argument.
-/

namespace Nais.Board.Connections

open Nais.Lib Nais.Lib.Run Mqtt

/-- `rest` are the slots that the loop has still to go through since `sl_Select` returned. -/
structure State where
  fdMap : FdMap
  serverFd : ℤ
  mqttHandler : Option Slot
  rest : List Slot
  sockets : Sockets

def State.initial : State := ⟨.empty, 0, none, [], .empty⟩

/-- `sock` is a result of `sl_Socket` or `sl_Accept`. -/
def handOut (sockets : Sockets) (sock : ℤ) : Sockets :=
  if sock < 0 then sockets else sockets.handOut sock

def bociaCreateTcpServer (sockets : Sockets) (sock bind listen : ℤ) : ℤ × Sockets :=
  if sock < 0 then (sock, sockets)
  else
    let sockets := handOut sockets sock
    if bind < 0 then (bind, sockets.release sock)
    else if listen < 0 then (listen, sockets.release sock)
    else (sock, sockets)

def bociaTcpConnect (sockets : Sockets) (sock sts : ℤ) : ℤ × Sockets :=
  if sock < 0 then (sock, sockets)
  else
    let sockets := handOut sockets sock
    if sts < 0 then (sts, sockets.release sock) else (sock, sockets)

namespace State

variable (s : State)

def register (r : Registration) : State :=
  { s with fdMap := (bociaRegisterHandlers s.fdMap r).2 }

def modify (i : Slot) (f : BociaChannel → BociaChannel) : State :=
  { s with fdMap := Function.update s.fdMap i (f (s.fdMap i)) }

def bociaCloseSoon (i : Slot) : State := s.modify i fun ch => { ch with closePending := true }

/-- The call has a configuration with a host; without one it returns at once. -/
def bociaTcpInit (pid : ℕ) (sock sts : ℤ) : State :=
  let (fd, sockets) := bociaTcpConnect s.sockets sock sts
  let s := { s with sockets := sockets }
  if fd < 0 then s else s.register ⟨fd, pid, .bociaTcpReceive, some .bociaTcpSend⟩

def bociaTcpServer (pid : ℕ) (sock bind listen : ℤ) : State :=
  if s.serverFd = 0 then
    let (fd, sockets) := bociaCreateTcpServer s.sockets sock bind listen
    let s := { s with serverFd := fd, sockets := sockets }
    if fd < 0 then s else s.register ⟨fd, pid, .bociaTcpAccept, none⟩
  else s.register ⟨s.serverFd, pid, .bociaTcpAccept, none⟩

/-- A connection that `mqtt_handler` still has is to be closed by the loop. -/
def disconnect : State :=
  match s.mqttHandler with
  | some i => if 0 < (s.fdMap i).fd then s.bociaCloseSoon i else s
  | none => s

/-- The call has a configuration. -/
def bociaMqttInit (pid : ℕ) (sock sts : ℤ) (answers : List Recv) (stale : UInt8) : State :=
  let s := s.disconnect
  let (fd, sockets) := mqttConnect s.sockets sock sts answers stale
  let s := { s with sockets := sockets }
  if 0 < fd then
    let registered := bociaRegisterHandlers s.fdMap
      ⟨fd, pid, .mqttReceiverHandler, some .mqttTransmitterHandler⟩
    { s with fdMap := registered.2, mqttHandler := registered.1 }
  else { s with mqttHandler := none }

def bociaTcpAccept (i : Slot) (sock : ℤ) : State :=
  let s' := { s with sockets := handOut s.sockets sock }
  if 0 < sock then
    s'.register ⟨sock, (s.fdMap i).targetPid, .bociaTcpReceive, some .bociaTcpSend⟩
  else s'

/-- What `bocia_unmarshall` makes of the bytes does not touch a socket. -/
def bociaTcpReceive (i : Slot) (answers : List Recv) : State :=
  if (slRecv ⟨s.sockets, answers⟩ 256).1 = some [] then
    { s.modify i fun ch => { ch with fd := 0 } with sockets := s.sockets.release (s.fdMap i).fd }
  else s

def mqttReceiverHandler (i : Slot) (answers : List Recv) : State :=
  let (_, fd, l) := mqttReceive (s.fdMap i).fd ⟨s.sockets, answers⟩
  { s.modify i fun ch => { ch with fd := fd } with sockets := l.sockets }

/-- A channel whose close was requested. -/
def closePending (i : Slot) : State :=
  if (s.fdMap i).closePending then
    { s.modify i fun ch => { ch with fd := 0, closePending := false } with
      sockets := s.sockets.release (s.fdMap i).fd }
  else s

def handle (i : Slot) (sock : ℤ) (answers : List Recv) : State :=
  match (s.fdMap i).handler with
  | some .bociaTcpAccept => s.bociaTcpAccept i sock
  | some .bociaTcpReceive => s.bociaTcpReceive i answers
  | some .mqttReceiverHandler => s.mqttReceiverHandler i answers
  | none => s

/-- The loop goes through one slot. -/
def sweep (isSet : Bool) (sock : ℤ) (answers : List Recv) : State :=
  match s.rest with
  | [] => s
  | i :: rest =>
    let s := { s.closePending i with rest := rest }
    if (s.fdMap i).fd ≠ 0 ∧ isSet then s.handle i sock answers else s

/-- `sl_Select` is called if there is a channel to listen to, and returns `rc`. -/
def select (rc : ℤ) : State :=
  if s.rest = [] ∧ (∃ i, (s.fdMap i).fd ≠ 0) ∧ 0 < rc then { s with rest := List.finRange 8 } else s

end State

inductive Event where
  | tcpInit (pid : ℕ) (sock sts : ℤ)
  | tcpServer (pid : ℕ) (sock bind listen : ℤ)
  | mqttInit (pid : ℕ) (sock sts : ℤ) (answers : List Recv) (stale : UInt8)
  | select (rc : ℤ)
  | sweep (isSet : Bool) (sock : ℤ) (answers : List Recv)

/-- What `sl_Socket` or `sl_Accept` returns. -/
def Event.sock : Event → ℤ
  | .tcpInit _ sock _ => sock
  | .tcpServer _ sock _ _ => sock
  | .mqttInit _ sock _ _ _ => sock
  | .select _ => -1
  | .sweep _ sock _ => sock

def perform (s : State) : Event → State
  | .tcpInit pid sock sts => s.bociaTcpInit pid sock sts
  | .tcpServer pid sock bind listen => s.bociaTcpServer pid sock bind listen
  | .mqttInit pid sock sts answers stale => s.bociaMqttInit pid sock sts answers stale
  | .select rc => s.select rc
  | .sweep isSet sock answers => s.sweep isSet sock answers

/-- The socket layer does not hand out a descriptor that is open. -/
def step (s : State) (e : Event) : State :=
  if e.sock ∈ s.sockets.live then s else perform s e

end Nais.Board.Connections
