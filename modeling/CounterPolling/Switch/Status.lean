/-!
# Outcomes of driver calls

A driver call answers or fails as a whole; a bulk read also reports a status for each of
its rows.
-/

namespace CounterPolling

/-- The status of a call or of one row of a bulk read. -/
inductive Status
  | success
  | failure
  | notSupported
  | bufferOverflow
  | notImplemented
  | invalidObjectId
  | notExecuted
  deriving DecidableEq

namespace Status

/-- Every status. -/
def all : List Status :=
  [success, failure, notSupported, bufferOverflow, notImplemented, invalidObjectId,
    notExecuted]

/-- The number of a status; failures are negative. -/
def code : Status → Int
  | success => 0
  | failure => -1
  | notSupported => -2
  | bufferOverflow => -8
  | notImplemented => -15
  | invalidObjectId => -19
  | notExecuted => -23

/-- The name of a status. -/
def name : Status → String
  | success => "SAI_STATUS_SUCCESS"
  | failure => "SAI_STATUS_FAILURE"
  | notSupported => "SAI_STATUS_NOT_SUPPORTED"
  | bufferOverflow => "SAI_STATUS_BUFFER_OVERFLOW"
  | notImplemented => "SAI_STATUS_NOT_IMPLEMENTED"
  | invalidObjectId => "SAI_STATUS_INVALID_OBJECT_ID"
  | notExecuted => "SAI_STATUS_NOT_EXECUTED"

/-- The status with a given name. -/
def ofName? (s : String) : Option Status :=
  all.find? fun status => status.name == s

/-- Whether the row or call went well. -/
def isSuccess (status : Status) : Bool :=
  status == success

@[simp]
theorem isSuccess_iff {status : Status} : status.isSuccess = true ↔ status = success := by
  simp [isSuccess]

end Status

/-- Why a driver call failed. -/
inductive DriverError
  /-- The call ended with a status. -/
  | status (code : Status)
  /-- The driver does not offer what was asked. -/
  | unsupported (feature : String)
  /-- The list handed in was too small. -/
  | tooSmall (required : Nat)
  deriving DecidableEq

namespace DriverError

/-- The error of a call that ended with a status; lack of support is an error of its own. -/
def ofStatus : Status → DriverError
  | .notSupported => .unsupported Status.notSupported.name
  | .notImplemented => .unsupported Status.notImplemented.name
  | code => .status code

/-- The status that an error corresponds to. -/
def toStatus : DriverError → Status
  | .status code => code
  | .unsupported _ => .notSupported
  | .tooSmall _ => .bufferOverflow

/-- The wording of an error. -/
def message : DriverError → String
  | .status code => "SAI operation failed: " ++ code.name
  | .unsupported feature => "Not supported: " ++ feature
  | .tooSmall required => "Buffer overflow: " ++ toString required ++ " entries required"

end DriverError

end CounterPolling
