import CounterPolling.Group.Settings

/-!
# Groups of attributes

A group of attributes reads each of its objects by itself, and writes the values as the
driver spells them. There is nothing to find out beforehand: what the family knows is
asked for.
-/

namespace CounterPolling

/-- What is read for an object of a group of attributes. -/
structure AttributeList (family : CounterFamily) where
  /-- The driver's id of the object. -/
  rid : ObjectId
  /-- The attributes read, ascending. -/
  ids : List (CounterId family)
  deriving DecidableEq

/-- The objects of a group of attributes. -/
structure AttributeGroup (family : CounterFamily) where
  /-- What the group was told. -/
  settings : GroupSettings
  /-- The objects, with what is read for them. -/
  objects : SortedMap ObjectId (AttributeList family)
  deriving DecidableEq

namespace AttributeGroup

variable {family : CounterFamily}

/-- A group that tracks nothing. -/
def initial (settings : GroupSettings) : AttributeGroup family :=
  ⟨settings, ∅⟩

/-- The objects tracked, ascending. -/
def vids (g : AttributeGroup family) : List ObjectId := g.objects.keys

/-- Registers an object; one that asks for nothing known leaves the group as it is. -/
def add (g : AttributeGroup family) (vid rid : ObjectId) (names : List String) :
    Dialogue (AttributeGroup family) := do
  let requested ← readRequested family names
  let ids := SortedSet.toList (SortedSet.ofList requested)
  if ids.isEmpty then
    g.settings.report (.noKnownAttribute vid)
    return g
  else return { g with objects := g.objects.insert vid ⟨rid, ids⟩ }

/-- Stops tracking an object. -/
def remove (g : AttributeGroup family) (vid : ObjectId) :
    Dialogue (AttributeGroup family) := do
  if g.objects.contains vid then return { g with objects := g.objects.erase vid }
  else
    g.settings.report (.notTracked vid)
    return g

/-- Stops tracking every object. -/
def withoutObjects (g : AttributeGroup family) : AttributeGroup family :=
  { g with objects := ∅ }

/-- Reads the attributes of one object and writes its row. -/
def pollObject (g : AttributeGroup family) (vid : ObjectId)
    (list : AttributeList family) : Dialogue Unit := do
  let request := Request.attributes g.settings.spec.kind list.rid (CounterId.raws list.ids)
  match ← Dialogue.question request with
  | .error error => g.settings.report (.attributesFailed vid error)
  | .ok values =>
    if values.length ≠ list.ids.length then
      g.settings.report (.unevenAttributes vid values.length list.ids.length)
    else Dialogue.output (.row vid.text ((CounterId.names list.ids).zip values))

/-- Reads every object and writes its row. -/
def poll (g : AttributeGroup family) : Dialogue Unit :=
  Dialogue.each (fun entry => g.pollObject entry.1 entry.2) g.objects.entries

end AttributeGroup

end CounterPolling
