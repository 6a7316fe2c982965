import SnapshotReport.FileName
import SnapshotReport.Serializer
import SnapshotReport.Sorting
import SnapshotReport.Text.Units

/-! The serializers at hand, in the order of their ids. The first one in this order that claims an
extension is the one that is picked for it. Requests change the registry step by step, and an error
does not undo the steps before it. -/
namespace SnapshotReport

structure Registry where
  serializers : List Serializer

/-- Why a serializer was not registered. -/
inductive RegistrationError where
  | blankId
  | duplicateId (id : String)
deriving DecidableEq, Repr

namespace RegistrationError

def message : RegistrationError → String
  | blankId => "Serializer id must be a non-empty string."
  | duplicateId id => "Serializer id already registered: \"" ++ id ++ "\""

end RegistrationError

/-- No serializer is at hand for an extension. -/
structure UnsupportedFormat where
  extension : String
  message : String := "No serializer registered for extension: " ++ extension
deriving DecidableEq, Repr

namespace Registry

def empty : Registry := ⟨[]⟩

instance : EmptyCollection Registry := ⟨empty⟩

def ids (r : Registry) : List String :=
  r.serializers.map (·.id)

def add (serializers : List Serializer) (s : Serializer) : Registry :=
  ⟨sortBy (fun a b => Text.byUnits a.id b.id) (serializers ++ [s])⟩

/-- Steps that may change the registry and may end with an error. -/
abbrev Action (ε : Type) : Type → Type :=
  ExceptT ε (StateM Registry)

/-- What an action ends with at a registry, and the registry that it leaves. -/
def Action.runAt {ε α : Type} (r : Registry) (action : Action ε α) : Except ε α × Registry :=
  action.run.run r

/-- Adds a serializer. Its id, without blanks around it, is looked for among the stored ids, which
are kept as they were given; the serializer found is replaced if that is asked for. -/
def enroll (s : Serializer) (replace : Bool) : Action RegistrationError (List Warning) := do
  let id := Text.trim s.id
  if id.isEmpty then throw .blankId
  else if (← get).ids.contains id then
    if replace then
      modify fun r => ⟨r.serializers.eraseP (·.id == id)⟩
      modify fun r => add r.serializers s
      return [.replacing id]
    else throw (.duplicateId id)
  else
    modify fun r => add r.serializers s
    return []

/-- Adds the serializers that come with the library, unless they are there. -/
def enrollBuiltIns : Action RegistrationError (List Warning) := do
  if (← get).ids.contains Serializer.readableId then return []
  else enroll (.readable Options.defaultDepth) false

/-- The registry with one serializer more, and what was warned of. -/
def register (r : Registry) (s : Serializer) (replace : Bool) :
    Except RegistrationError (Registry × List Warning) :=
  let left := (enroll s replace).runAt r
  left.1.map fun warnings => (left.2, warnings)

/-- The serializer for a file name or an extension. -/
def pick (r : Registry) (name : String) : Except UnsupportedFormat Serializer :=
  let extension := FileName.extension name
  match r.serializers.find? fun s => s.extensions.contains extension with
  | some s => .ok s
  | none =>
    let shown := if extension.isEmpty then "none" else extension
    .error ⟨extension, "No serializer matched \"" ++ name ++ "\" (ext: " ++ shown ++ ")"⟩

/-- What can be asked of a registry. -/
inductive Request where
  | register (s : Serializer) (replace : Bool)
  | registerBuiltIns
  | pick (name : String)
  | clear

/-- Why a request was refused. -/
inductive Refusal where
  | registration (error : RegistrationError)
  | format (error : UnsupportedFormat)
deriving DecidableEq, Repr

/-- The serializer that was picked, and what was warned of. -/
structure Finding where
  picked : Option Serializer := none
  warnings : List Warning := []

def warned (action : Action RegistrationError (List Warning)) : Action Refusal Finding := do
  return { warnings := ← action.adapt .registration }

def perform : Request → Action Refusal Finding
  | .register s replace => warned (enroll s replace)
  | .registerBuiltIns => warned enrollBuiltIns
  | .pick name => do
    let found ← MonadExcept.ofExcept (((← get).pick name).mapError Refusal.format)
    return { picked := some found }
  | .clear => do
    set empty
    return {}

/-- What a request was answered with, beside the registry that it left. -/
structure Reply extends Finding where
  registry : Registry

def answer (r : Registry) (request : Request) : Except Refusal Reply :=
  let left := (perform request).runAt r
  left.1.map fun finding => { finding with registry := left.2 }

/-- The registry after a request, granted or refused. -/
def after (r : Registry) (request : Request) : Registry :=
  ((perform request).runAt r).2

end Registry

end SnapshotReport
