import SnapshotReport.Failure

/-! What serializing a snapshot ends with if it fails. A failure that already says that the state is
not the expected one is passed on, every other one is wrapped in such an error. -/
namespace SnapshotReport

/-- An unexpected state that has another failure as its cause, in the words of that failure. -/
structure WrappedFailure where
  cause : Failure
  reason : Reason
  other : cause.isUnexpectedState = false
  given : cause.reason? = some reason
deriving Repr

def WrappedFailure.message (engine : EngineFault → String) (error : WrappedFailure) : String :=
  "Failed to serialize snapshot: " ++ error.reason.inWords engine

inductive SerializationError where
  /-- The failure itself. -/
  | passed (failure : Failure) (unexpected : failure.isUnexpectedState = true)
  | wrapped (error : WrappedFailure)
  /-- A failure was to be wrapped, but it cannot be put into words. -/
  | textless (cause : Failure) (wordless : cause.reason? = none)
deriving Repr

def SerializationError.ofFailure (failure : Failure) : SerializationError :=
  if unexpected : failure.isUnexpectedState = true then .passed failure unexpected
  else
    match given : failure.reason? with
    | some reason => .wrapped ⟨failure, reason, Bool.eq_false_iff.mpr unexpected, given⟩
    | none => .textless failure given

end SnapshotReport
