import CounterPolling.Instance.Basic

/-!
# The scheduler thread

The scheduler of an instance is a thread that either waits until there is something to
poll, or sleeps between two passes. It holds the instance from the moment it goes on
until it waits, sleeps or ends, so one step of the thread is all that happens in between.

A wait ends with a notification or for no reason; a sleep also ends when its time is up.
The steps below hold for every reason and every order of them.
-/

namespace CounterPolling

/-- Where a scheduler thread stands while it does not hold the instance. -/
inductive Phase
  /-- Waiting for something to poll, or about to begin. -/
  | waiting
  /-- Sleeping after a pass made at an interval. -/
  | sleeping (interval : Nat)
  /-- Ended. -/
  | ended
  deriving DecidableEq

/-- How a thread comes to go on. -/
inductive Wakening
  /-- It was notified, or woke for no reason. -/
  | roused
  /-- The time of its sleep is up. -/
  | timeUp
  deriving DecidableEq

namespace Phase

/-- Makes a pass if one makes sense, and sleeps after it; waits otherwise. -/
def nextPass (stopping : Bool) (i : Instance) : Dialogue (Phase × Instance) := do
  if stopping then return (ended, i)
  else if i.isReady then return (sleeping i.interval, ← i.pass)
  else return (waiting, i)

/--
One step of the thread. A sleeper that was roused sleeps on, unless polling stopped
making sense or is to happen at another interval now.
-/
def step (stopping : Bool) (wakening : Wakening) (i : Instance) :
    Phase → Dialogue (Phase × Instance)
  | waiting => nextPass stopping i
  | sleeping interval =>
    if wakening = .roused ∧ !stopping ∧ i.isReady ∧ i.interval = interval then
      return (sleeping interval, i)
    else nextPass stopping i
  | ended => return (ended, i)

end Phase

end CounterPolling
