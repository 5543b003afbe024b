import CounterPolling.Scheduler.Poller

/-!
# Fleets of pollers

A fleet owns the pollers of a process by name. A poller comes into being when its name is
first used, and leaves when a removal finds that it may end. Who looked a poller up keeps
a handle to it, which stays good after the poller has left.

Each operation below is one step under the lock of the fleet or of one poller; a call is
a sequence of such steps.
-/

namespace CounterPolling

/-- The pollers of a process. -/
structure Fleet where
  /-- What every instance starts from. -/
  profile : Profile
  /-- Every poller there has been; a handle is a position in this list. -/
  pollers : List Poller
  /-- The handles of the pollers at work, by name. -/
  handles : SortedMap String Nat
  deriving DecidableEq

namespace Fleet

/-- A fleet without pollers. -/
def initial (profile : Profile) : Fleet := ⟨profile, [], ∅⟩

/-- The poller of a handle. -/
def poller? (fleet : Fleet) (handle : Nat) : Option Poller :=
  fleet.pollers[handle]?

/-- The handle of the poller at work under a name. -/
def lookup (fleet : Fleet) (name : String) : Option Nat :=
  fleet.handles.get? name

/-- The poller at work under a name. -/
def named? (fleet : Fleet) (name : String) : Option Poller :=
  (fleet.lookup name).bind fleet.poller?

/-- The names in use, ascending. -/
def names (fleet : Fleet) : List String :=
  fleet.handles.keys

/-- Reports an event of an instance. -/
def report (name : String) (event : InstanceNotice) : Dialogue Unit :=
  Dialogue.report (.ofInstance name event)

/-- Puts a poller in the place of a handle. -/
def set (fleet : Fleet) (handle : Nat) (p : Poller) : Fleet :=
  { fleet with pollers := fleet.pollers.set handle p }

/-- Looks a poller up; one that is missing is made and started. -/
def lookupOrOpen (fleet : Fleet) (name : String) : Dialogue (Fleet × Nat) := do
  match fleet.lookup name with
  | some handle => return (fleet, handle)
  | none =>
    let handle := fleet.pollers.length
    report name .opened
    let p := (Poller.initial name fleet.profile).start
    return ({ fleet with
        pollers := fleet.pollers ++ [p]
        handles := fleet.handles.insert name handle }, handle)

/-- Changes the poller of a handle. -/
def modify (fleet : Fleet) (handle : Nat) (change : Poller → Dialogue Poller) :
    Dialogue Fleet := do
  match fleet.poller? handle with
  | some p => return fleet.set handle (← change p)
  | none => return fleet

/-- Carries out a control call on the poller of a handle; its thread is not heard yet. -/
def perform (fleet : Fleet) (handle : Nat) (control : Control) : Dialogue Fleet :=
  fleet.modify handle fun p => p.perform control

/-- Takes a poller that may end out of the names; its handle, if it was taken out. -/
def release (fleet : Fleet) (name : String) : Fleet × Option Nat :=
  match fleet.lookup name with
  | none => (fleet, none)
  | some handle =>
    if ((fleet.poller? handle).map fun p => p.inst.mayEnd) = some true then
      ({ fleet with handles := fleet.handles.erase name }, some handle)
    else (fleet, none)

/-- Stops the poller of a handle. -/
def stop (fleet : Fleet) (handle : Nat) : Fleet :=
  match fleet.poller? handle with
  | some p => fleet.set handle p.stop
  | none => fleet

/-- Takes a poller that may end out of the names and stops it. -/
def close (fleet : Fleet) (name : String) : Dialogue Fleet := do
  match fleet.release name with
  | (fleet, none) => return fleet
  | (fleet, some handle) =>
    let fleet := fleet.stop handle
    report name .closed
    return fleet

/-- Carries out a call that may need a new poller. -/
def serve (fleet : Fleet) (name : String) (control : Control) : Dialogue Fleet := do
  let (fleet, handle) ← fleet.lookupOrOpen name
  fleet.perform handle control

/-- Carries out a removal, after which the poller may end. -/
def dismiss (fleet : Fleet) (name : String) (control : Control) : Dialogue Fleet := do
  match fleet.lookup name with
  | none =>
    report name .unknownInstance
    return fleet
  | some handle => (← fleet.perform handle control).close name

/-- Lets the thread of the poller under a name react to a call. -/
def react (fleet : Fleet) (name : String) (control : Control) : Dialogue Fleet :=
  match fleet.lookup name with
  | some handle => fleet.modify handle (Poller.react control)
  | none => return fleet

/-- Stops every poller at work and forgets the names. -/
def stopAll (fleet : Fleet) : Fleet :=
  { fleet.handles.values.foldl stop fleet with handles := ∅ }

end Fleet

end CounterPolling
