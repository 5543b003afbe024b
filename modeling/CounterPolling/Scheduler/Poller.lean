import CounterPolling.Scheduler.Control
import CounterPolling.Scheduler.Thread

/-!
# Pollers

A poller is an instance with its scheduler thread. Control calls, the start and the stop
of the thread are steps of the poller, and so is each step of the thread.
-/

namespace CounterPolling

/-- An instance with its scheduler thread. -/
structure Poller where
  /-- The instance. -/
  inst : Instance
  /-- Whether the thread has been told to end. -/
  stopping : Bool
  /-- The thread, if it was started and not stopped since. -/
  thread : Option Phase
  deriving DecidableEq

namespace Poller

/-- A poller whose thread was not started. -/
def initial (name : String) (profile : Profile) : Poller :=
  ⟨Instance.initial name profile, false, none⟩

/-- Whether the thread was started and not stopped since. -/
def hasThread (p : Poller) : Bool :=
  p.thread.isSome

/-- Starts the thread, unless it is there already. -/
def start (p : Poller) : Poller :=
  if p.hasThread then p else { p with stopping := false, thread := some .waiting }

/-- Tells the thread to end and sees it end. -/
def stop (p : Poller) : Poller :=
  if p.hasThread then { p with stopping := true, thread := none } else p

/-- Lets the thread go on, if there is one. -/
def wake (wakening : Wakening) (p : Poller) : Dialogue Poller := do
  match p.thread with
  | none => return p
  | some phase =>
    let (phase, inst) ← phase.step p.stopping wakening p.inst
    return { p with inst := inst, thread := some phase }

/-- Carries out a control call; the thread is not heard yet. -/
def perform (p : Poller) (control : Control) : Dialogue Poller := do
  return { p with inst := ← control.perform p.inst }

/-- Lets the thread react to a control call. -/
def react (control : Control) (p : Poller) : Dialogue Poller :=
  if control.rouses then p.wake .roused else return p

/-- Lets the thread make passes, one each time its sleep is over, until it made enough. -/
def sleepThrough (p : Poller) : Nat → Dialogue Poller
  | 0 => return p
  | n + 1 => do sleepThrough (← p.wake .timeUp) n

end Poller

end CounterPolling
