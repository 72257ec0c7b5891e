/-!
# Shutdown

Shutdown is asked for once, and everyone who waits for it learns of it: a flag remembers that it was
asked for, and a signal is sent to every receiver there is at that moment. Raising the flag and
sending the signal are two steps, and so are making a receiver and looking at the flag; a task that
waits makes its receiver first, and one that asks raises the flag first, so that whichever of the
two is earlier, the waiting task sees the flag or finds the signal.
-/

namespace Redirector

/-- The state of a shutdown. Signals are numbered in the order in which they are sent, and only the
last one is kept for those who have not taken it. -/
structure Shutdown where
  /-- Whether shutdown was asked for. -/
  triggered : Bool
  /-- How many signals were sent. -/
  sent : Nat
  /-- For each receiver, how many signals are behind it: those before it, and those taken or
  missed. -/
  receivers : List Nat
  deriving DecidableEq, Repr

namespace Shutdown

/-- Before shutdown is asked for. -/
def initial : Shutdown := ⟨false, 0, []⟩

/-! ## Steps -/

/-- Makes a receiver, which is known by its position. -/
def subscribe (s : Shutdown) : Nat × Shutdown :=
  (s.receivers.length, { s with receivers := s.receivers ++ [s.sent] })

/-- Raises the flag, and says whether it was down. -/
def raise (s : Shutdown) : Bool × Shutdown := (!s.triggered, { s with triggered := true })

def send (s : Shutdown) : Shutdown := { s with sent := s.sent + 1 }

inductive Received where
  | signal
  | empty
  /-- It was too slow, and signals are lost. -/
  | lagged
  deriving DecidableEq, Repr

/-- Takes a signal from a receiver, if there is one. A receiver that has missed signals is told so
first. -/
def receive (s : Shutdown) (receiver : Nat) : Received × Shutdown :=
  match s.receivers[receiver]? with
  | none => (.empty, s)
  | some passed =>
    if s.sent ≤ passed then (.empty, s)
    else if s.sent = passed + 1 then
      (.signal, { s with receivers := s.receivers.set receiver s.sent })
    else (.lagged, { s with receivers := s.receivers.set receiver (s.sent - 1) })

/-! ## Asking and waiting -/

/-- Asks for shutdown; false if it was asked for before. -/
def trigger (s : Shutdown) : Bool × Shutdown :=
  let (first, s) := s.raise
  if first then (true, s.send) else (false, s)

/-- How far a task that waits has come. -/
inductive Waiting where
  | over
  | on (receiver : Nat)
  deriving DecidableEq, Repr

def wait (s : Shutdown) : Waiting × Shutdown :=
  let (receiver, s) := s.subscribe
  if s.triggered then (.over, s) else (.on receiver, s)

/-- Goes on waiting. -/
def await (s : Shutdown) : Waiting → Waiting × Shutdown
  | .over => (.over, s)
  | .on receiver =>
    match s.receive receiver with
    | (.empty, s) => (.on receiver, s)
    | (_, s) => (.over, s)

end Shutdown

end Redirector
