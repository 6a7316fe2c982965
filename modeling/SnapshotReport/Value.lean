import SnapshotReport.Scalar

/-! Values of unknown shape: what a provider hands over in place of an attribute, throws in place of
an error, or passes as an option. They are only named in messages. Values that are data are here;
functions and symbols, which may be handed over as well, are left out. -/
namespace SnapshotReport

/-- `absent` stands where nothing was given at all; `null` was given. -/
inductive Value where
  | null
  | absent
  | scalar (value : Scalar)
  | array (items : List Value)
  | object (fields : List (String × Value))
deriving Repr

namespace Value

/-- The kind that an object claims to be of, if it names one. -/
def kind? : Value → Option String
  | object fields =>
    match fields.lookup "kind" with
    | some (.scalar (.text kind)) => some kind
    | _ => none
  | _ => none

/-- A short name of the value for messages: its claimed kind in quotes, else the sort of value. -/
def label (value : Value) : String :=
  match value.kind? with
  | some kind => "\"" ++ kind ++ "\""
  | none =>
    match value with
    | null => "null"
    | absent => "undefined"
    | scalar s => s.label
    | array _ => "array"
    | object _ => "object"

/-- A field of this name stands where the text of an object would come from. -/
def textFieldName : String := "toString"

mutual

/-- The value as a text. The items of an array are joined by commas, null and absent ones as
nothing. The fields of an object do not show, but one of them may leave it without a text. -/
def display? : Value → Option String
  | null => some "null"
  | absent => some "undefined"
  | scalar s => some s.display
  | array items => (displayItems? items).map (",".intercalate ·)
  | object fields =>
    if (fields.lookup textFieldName).isSome then none else some "[object Object]"

def displayItems? : List Value → Option (List String)
  | [] => some []
  | null :: rest => (displayItems? rest).map ("" :: ·)
  | absent :: rest => (displayItems? rest).map ("" :: ·)
  | item :: rest => do return (← item.display?) :: (← displayItems? rest)

end

end Value

end SnapshotReport
