import SnapshotReport.Value

/-! What can go wrong while a snapshot is read. -/
namespace SnapshotReport

/-- What a provider throws when one of its values is read: an error that already says that the state
is not the expected one, any other error, or a bare value. -/
inductive ProviderFailure where
  | unexpectedState (message : String)
  | error (name message : String)
  | thrown (value : Value)
deriving Repr

/-- What the engine finds wrong by itself. The words for it are the engine's own. -/
inductive EngineFault where
  /-- `null` stands where an attribute value should, so it has no kind to look at. -/
  | nullAttribute
  /-- Nothing at all stands where an attribute value should. -/
  | absentAttribute
  /-- What is found under a type name is not a list of entities. -/
  | notAList (typeName : String)
  /-- A group is to be reported, and it is missing. -/
  | missingGroup
deriving DecidableEq, Repr

inductive Failure where
  /-- A provider failed. -/
  | provider (failure : ProviderFailure)
  /-- A value of an unknown kind stands where an attribute value should. -/
  | unsupportedValue (label name entity : String)
  | engine (fault : EngineFault)
deriving Repr

/-- What a failure has to say for itself: a text, or what the engine says of a fault. -/
inductive Reason where
  | text (text : String)
  | engine (fault : EngineFault)
deriving DecidableEq, Repr

/-- A reason in words, those of the engine being given. -/
def Reason.inWords (engine : EngineFault → String) : Reason → String
  | text words => words
  | .engine fault => engine fault

namespace Failure

/-- The failure of the attribute `name` of `entity` that holds a value of no known kind. -/
def ofMalformed (entity name : String) : Value → Failure
  | .null => .engine .nullAttribute
  | .absent => .engine .absentAttribute
  | value => .unsupportedValue value.label name entity

def unsupportedValueMessage (label name entity : String) : String :=
  "Unsupported value " ++ label ++ " for attribute \"" ++ name ++ "\" of \"" ++ entity ++ "\""

/-- The failure says itself that the state is not the expected one. -/
def isUnexpectedState : Failure → Bool
  | provider (.unexpectedState _) => true
  | unsupportedValue .. => true
  | _ => false

/-- What a failure has to say for itself. A bare value that was thrown may have no text. -/
def reason? : Failure → Option Reason
  | provider (.unexpectedState message) => some (.text message)
  | provider (.error _ message) => some (.text message)
  | provider (.thrown value) => value.display?.map .text
  | unsupportedValue label name entity => some (.text (unsupportedValueMessage label name entity))
  | engine fault => some (.engine fault)

end Failure

end SnapshotReport
