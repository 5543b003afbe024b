import CounterPolling.Instance.Configure

/-!
# Registering objects with an instance

A registration carries fields as well: each names a list of counters and so a group. The
kind of the object and the name of the field choose the group.
-/

namespace CounterPolling

namespace Instance

/-- The read modes that a registration asks for, each readable or not. -/
def modeValues (fields : List (String × String)) : List String :=
  (fields.filter fun field => field.1 == modeField).map (·.2)

/-- The read mode that a registration asks for: the last one that can be read. -/
def askedMode (fields : List (String × String)) : Option ReadMode :=
  ((modeValues fields).filterMap ReadMode.ofName?).getLast?

/-- The read modes of a registration that cannot be read. -/
def unknownModes (fields : List (String × String)) : List String :=
  (modeValues fields).filter fun value => (ReadMode.ofName? value).isNone

/-- The fields of a registration that name counters. -/
def counterFields (fields : List (String × String)) : List (String × String) :=
  fields.filter fun field => field.1 != modeField

/-- The group that a field chooses, and the counters it asks for; or why there are none. -/
def route (kind : ObjectKind) (asked : Option ReadMode) (field : String × String) :
    Except InstanceNotice (GroupSpec × List String) :=
  match GroupSpec.ofIdField? kind field.1 with
  | none => .error (.refused (.unknownGroup (field.1 ++ " for " ++ kind.name)))
  | some spec =>
    if spec.perObjectMode && asked.isNone then
      .error (.modeNeeded spec.name modeField field.1)
    else
      match Text.pieces ',' field.2 with
      | [] => .error (.nothingAsked field.1 spec.name)
      | name :: names => .ok (spec, name :: names)

/-- Registers objects with a group; one object takes the way of a single registration. -/
def registerWith (g : Group) (vids rids : List ObjectId) (names : List String)
    (asked : Option ReadMode) : Dialogue Group :=
  match vids, rids with
  | [vid], [rid] => g.add vid rid names asked
  | _, _ => g.addMany vids rids names asked

/-- Registers objects with the group that one field chooses. -/
def registerField (kind : ObjectKind) (vids rids : List ObjectId)
    (asked : Option ReadMode) (i : Instance) (field : String × String) :
    Dialogue Instance := do
  match route kind asked field with
  | .error event =>
    i.report event
    return i
  | .ok (spec, names) =>
    return i.putGroup spec (← registerWith (i.groupFor spec) vids rids names asked)

/-- Registers objects of one kind with every group that the fields choose. -/
def register (i : Instance) (kind : ObjectKind) (vids rids : List ObjectId)
    (fields : List (String × String)) : Dialogue Instance := do
  Dialogue.each (fun value => i.report (.invalidObjectMode value modeField))
    (unknownModes fields)
  Dialogue.carry (registerField kind vids rids (askedMode fields)) i (counterFields fields)

/-- Registers one object, whose kind its virtual id tells. -/
def add (i : Instance) (vid rid : ObjectId) (fields : List (String × String)) :
    Dialogue Instance := do
  match vid.kind? with
  | some kind => i.register kind [vid] [rid] fields
  | none =>
    i.report (.kindUnknown vid)
    return i

/-- Registers objects of one kind that share their fields. -/
def addMany (i : Instance) (kind : ObjectKind) (vids rids : List ObjectId)
    (fields : List (String × String)) : Dialogue Instance := do
  if vids.length ≠ rids.length then
    i.report (.unevenLists kind vids.length rids.length)
    return i
  else if vids.isEmpty then return i
  else i.register kind vids rids fields

/-- Stops tracking an object in the group of a specification, if there is that group. -/
def removeFrom (vid : ObjectId) (i : Instance) (spec : GroupSpec) : Dialogue Instance := do
  match i.groups.get? spec.name with
  | some g => return i.putGroup spec (← g.remove vid)
  | none => return i

/-- Stops tracking an object in every group for objects of its kind. -/
def remove (i : Instance) (vid : ObjectId) : Dialogue Instance := do
  match vid.kind? with
  | none =>
    i.report (.kindUnknown vid)
    return i
  | some kind =>
    let specs := GroupSpec.ofKind kind
    if specs.any fun spec => i.groups.contains spec.name then
      Dialogue.carry (removeFrom vid) i specs
    else
      i.report (.noGroup kind vid)
      return i

/-- Drops every plugin, after which the instance may end when it is empty. -/
def retire (i : Instance) : Instance :=
  { i.mapGroups Group.withoutPlugins with retired := true }

/-- Stops tracking every object. -/
def withoutObjects (i : Instance) : Instance :=
  i.mapGroups Group.withoutObjects

end Instance

end CounterPolling
