import CounterPolling.Instance.Register

/-!
# Control calls

The calls by which an instance is configured and objects come and go. Some of them give
the scheduler a reason to look again.
-/

namespace CounterPolling

/-- A control call. -/
inductive Control
  /-- Bring configuration fields into force. -/
  | configure (fields : List (String × String))
  /-- Register an object. -/
  | add (vid rid : ObjectId) (fields : List (String × String))
  /-- Register objects of one kind that share their fields. -/
  | addMany (kind : ObjectKind) (vids rids : List ObjectId) (fields : List (String × String))
  /-- Stop tracking an object. -/
  | remove (vid : ObjectId)
  /-- Drop every plugin and allow the instance to end. -/
  | retire
  /-- Stop tracking every object. -/
  | clear
  /-- Make a pass at once. -/
  | pass
  deriving DecidableEq

namespace Control

/-- Carries out a call. -/
def perform (i : Instance) : Control → Dialogue Instance
  | configure fields => i.configure fields
  | add vid rid fields => i.add vid rid fields
  | addMany kind vids rids fields => i.addMany kind vids rids fields
  | remove vid => i.remove vid
  | retire => return i.retire
  | clear => return i.withoutObjects
  | pass => i.pass

/-- Whether a call rouses the scheduler. Calls that only take away do not. -/
def rouses : Control → Bool
  | configure _ => true
  | add vid _ _ => vid.kind?.isSome
  | addMany _ vids rids _ => decide (vids.length = rids.length) && !vids.isEmpty
  | remove _ | retire | clear | pass => false

end Control

end CounterPolling
