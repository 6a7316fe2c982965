import SnapshotReport.Options
import SnapshotReport.Report
import SnapshotReport.SerializationError

/-! Serializers: ways to write a snapshot as a text. The text is delivered as a whole or not at
all. -/
namespace SnapshotReport

/-- The id tells serializers apart, the extensions are those of the files that hold such texts. -/
structure Serializer where
  id : String
  format : String
  extensions : List String
  serialize : {n : Nat} → Snapshot n → Except SerializationError String

/-- Why a text was not delivered: it could not be made, or the receiver did not take it. -/
inductive DeliveryError (ε : Type) where
  | serialization (error : SerializationError)
  | sink (error : ε)

/-- What a receiver was given, and how the delivery ended. -/
structure Delivery (ε : Type) where
  chunks : List ByteArray
  result : Except (DeliveryError ε) Unit

namespace Serializer

variable {n : Nat} {ε : Type} {m : Type → Type} [Monad m]

def readableId : String := "readable-text"

/-- The report of a snapshot as plain text. -/
def readable (depth : Number) : Serializer where
  id := readableId
  format := "txt"
  extensions := ["txt"]
  serialize s := (Report.text s depth).mapError SerializationError.ofFailure

/-- Hands the UTF-8 form of the text to a receiver, in one piece. What the receiver does with it is
up to the receiver. -/
def send (serializer : Serializer) (s : Snapshot n) (sink : ByteArray → ExceptT ε m Unit) :
    ExceptT (DeliveryError ε) m Unit := do
  let text ← MonadExcept.ofExcept ((serializer.serialize s).mapError DeliveryError.serialization)
  (sink text.toUTF8).adapt .sink

/-- A receiver that keeps what it is given, taken or not. -/
def recorder (sink : ByteArray → Except ε Unit) (chunk : ByteArray) :
    ExceptT ε (StateM (List ByteArray)) Unit := do
  modify (· ++ [chunk])
  MonadExcept.ofExcept (sink chunk)

/-- The delivery of a text as its receiver sees it. -/
def write (serializer : Serializer) (s : Snapshot n) (sink : ByteArray → Except ε Unit) :
    Delivery ε :=
  let (result, chunks) := (serializer.send s (recorder sink)).run.run []
  ⟨chunks, result⟩

end Serializer

end SnapshotReport
