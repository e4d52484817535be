import Nais.Host.Packet

/-!
# The dispatch loop of a stream line

`Line.dispatch` of `pynais/junction.py`: each message of the queue is rendered and written
to the writers it selects, until something raises. That ends the coroutine, whatever is
still in the queue.
-/

namespace Nais.Host

/-- A write: the line id of the writer, and the bytes. -/
abbrev Write := Nat × List UInt8

/-- `w.line == message.dline or message.dline == 0`. -/
def Packet.selects (m : Packet) (line : Nat) : Bool := line = m.dstLine || m.dstLine = 0

/-- The loop over the writers: what was written, and the exception that stopped it. -/
def deliver (m : Packet) : List Nat → List Write × Option PyErr
  | [] => ([], none)
  | line :: writers =>
    if m.selects line then
      match m.output with
      | .error e => ([], some e)
      | .ok pkt =>
        let (writes, err) := deliver m writers
        ((line, pkt) :: writes, err)
    else deliver m writers

/-- The messages of the queue in turn. -/
def dispatch (writers : List Nat) : List Packet → List Write × Option PyErr
  | [] => ([], none)
  | m :: queue =>
    match deliver m writers with
    | (writes, some e) => (writes, some e)
    | (writes, none) =>
      let (rest, err) := dispatch writers queue
      (writes ++ rest, err)

/-- One message: its transformed bytes to each selected writer, where there are any. -/
def deliverable (writers : List Nat) (m : Packet) : List Write :=
  match m.result? with
  | some bs => (writers.filter m.selects).map fun line => (line, stamped m.srcLine bs)
  | none => []

lemma deliver_of_output {m : Packet} {bs : List UInt8} (h : m.output = .ok bs) (writers : List Nat) :
    deliver m writers = ((writers.filter m.selects).map fun line => (line, bs), none) := by
  induction writers with
  | nil => rfl
  | cons line writers ih =>
    rw [deliver]
    by_cases hs : m.selects line
    · simp [hs, h, ih]
    · simp [hs, ih]

lemma deliver_of_renders {m : Packet} (h : m.Renders) (writers : List Nat) :
    deliver m writers = (deliverable writers m, none) := by
  obtain ⟨bs, hres, hout⟩ := Packet.output_of_renders h
  rw [deliver_of_output hout, deliverable, hres]

end Nais.Host
