import CounterPolling.Group.Settings

/-!
# Finding out what can be read

A group polls only counters that its switch supports. It learns them from the driver's
capability list where the group uses it and the driver has one, and otherwise by trying
each counter that is asked for, once. What was learnt is kept, unless the group finds
out anew with every registration.

A capability list is asked for in two steps: a first request without room for any entry
fails with the size that is needed, and a second has that room.
-/

namespace CounterPolling

/-- The capability list of a kind of object on a switch, or why it cannot be had. -/
def readCapabilities (switch : ObjectId) (kind : ObjectKind) :
    Dialogue (Except DriverError (List Capability)) := do
  match ← Dialogue.question (.capabilities switch kind 0) with
  | .ok list => return .ok list
  | .error (.tooSmall required) => Dialogue.question (.capabilities switch kind required)
  | .error error => return .error error

/-- What a group has found out about a family of counters. -/
structure Discovery (family : CounterFamily) where
  /-- Counters found readable. -/
  supported : SortedSet (CounterId family)
  /-- Counters that were tried. -/
  tried : SortedSet (CounterId family)
  /-- The capability list was had, so nothing more is to be found out. -/
  listed : Bool
  /-- The capability list was asked for in vain. -/
  unlisted : Bool
  deriving DecidableEq

namespace Discovery

variable {family : CounterFamily}

/-- Nothing has been found out. -/
def initial : Discovery family := ⟨∅, ∅, false, false⟩

/-- What is still taken for granted when an object registers. -/
def onRegistration (spec : GroupSpec) (d : Discovery family) : Discovery family :=
  if spec.rediscovers then
    { initial with supported := if spec.keepsSupported then d.supported else ∅ }
  else d

/-- Learns the counters that a capability list allows in a mode. -/
def learn (d : Discovery family) (mode : ReadMode) (list : List Capability) :
    Discovery family :=
  let readable := (list.filter fun line => line.allows mode).filterMap fun line =>
    CounterId.ofRaw? line.counter
  { d with supported := SortedSet.addAll d.supported readable, listed := true }

/-- Records the outcome of trying a counter. -/
def record (d : Discovery family) (id : CounterId family) (readable : Bool) :
    Discovery family :=
  { d with
    tried := SortedSet.add d.tried id
    supported := if readable then SortedSet.add d.supported id else d.supported }

/-- Tries a counter that was not tried before. -/
def tryOnce (attempt : CounterId family → Dialogue Bool) (d : Discovery family)
    (id : CounterId family) : Dialogue (Discovery family) :=
  if SortedSet.has d.tried id then return d
  else do return d.record id (← attempt id)

/-- Finds out what a registration needs to know about the counters it asks for. -/
def refresh (settings : GroupSettings) (object : ObjectId) (mode : ReadMode)
    (attempt : CounterId family → Dialogue Bool) (requested : List (CounterId family))
    (known : Discovery family) : Dialogue (Discovery family) := do
  let d := known.onRegistration settings.spec
  if d.listed then return d
  else if settings.spec.usesCapabilities && !d.unlisted then
    let switch ← Dialogue.question (.switchOf object)
    match ← readCapabilities switch family.kind with
    | .ok list => return d.learn mode list
    | .error error =>
      settings.report (.capabilitiesUnknown error)
      Dialogue.carry (tryOnce attempt) { d with unlisted := true } requested
  else Dialogue.carry (tryOnce attempt) d requested

/-- The counters asked for that are supported, ascending, each once. -/
def select (d : Discovery family) (requested : List (CounterId family)) :
    List (CounterId family) :=
  SortedSet.toList (SortedSet.ofList (requested.filter (SortedSet.has d.supported)))

end Discovery

end CounterPolling
