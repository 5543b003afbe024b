/-!
# Structured documents

A document is what a structured text says once its notation is read: a value, a list of
documents, or a record of named ones. Whole numbers are told from all other numbers.
-/

namespace CounterPolling

/-- A structured value. -/
inductive Document
  /-- Nothing, said expressly. -/
  | absent
  | flag (value : Bool)
  | whole (value : Int)
  /-- A number that is not written as a whole one. -/
  | fraction
  | text (value : String)
  | list (members : List Document)
  | record (members : List (String × Document))
  deriving Inhabited

namespace Document

/-- The member of a record with a name. -/
def member? (members : List (String × Document)) (name : String) : Option Document :=
  (members.find? fun member => member.1 == name).map (·.2)

/-- The text that a document is. -/
def text? : Document → Option String
  | text value => some value
  | _ => none

/-- The number in a range from zero that a document is. -/
def below? (limit : Nat) : Document → Option Nat
  | whole (.ofNat n) => if n < limit then some n else none
  | _ => none

/-- The choice that a document names, either as a text or as a record of that one name. -/
def choice? : Document → Option String
  | text value => some value
  | record [(name, absent)] => some name
  | _ => none

/-- Reads a member that may be missing, in which case a default holds. -/
def readOr {α : Type} (default : α) (read : Document → Option α) :
    Option Document → Option α
  | none => some default
  | some document => read document

end Document

end CounterPolling
