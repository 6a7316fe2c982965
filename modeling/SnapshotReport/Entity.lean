import SnapshotReport.Failure
import SnapshotReport.GroupKey
import SnapshotReport.Record
import SnapshotReport.TypeTag

/-! Entities and their attributes. An attribute may refer to other entities; `Node` is the type of
such references. What a provider hands over in place of an attribute value may be malformed, or it
may fail when it is read; either shows only when the attribute is read. -/
namespace SnapshotReport

inductive AttributeValue (Node : Type) where
  | scalar (value : Scalar)
  | ref (target : Node)
  | entities (items : List Node)
  | scalars (items : List Scalar)
  | null
deriving DecidableEq, Repr

/-- The kinds that attribute values claim to be of, in the order of the constructors. -/
def AttributeValue.kinds : List String := ["scalar", "ref", "entities", "scalars", "null"]

/-- A value of no known kind, in place of an attribute value. -/
structure MalformedValue where
  value : Value
  unknown : value.kind?.any AttributeValue.kinds.contains = false
deriving Repr

inductive Attribute (Node : Type) where
  | value (value : AttributeValue Node)
  | malformed (value : MalformedValue)
  | unreadable (failure : ProviderFailure)
deriving Repr

/-- `raw` holds texts that the provider wants shown in place of unexpanded attributes; `none` hides
the attribute. -/
structure Entity (Node : Type) where
  type : TypeTag
  name : String
  group : Option GroupKey
  attributes : Record (Attribute Node)
  raw : Option (Record (Option String))

variable {Node Other : Type}

namespace AttributeValue

def map (f : Node → Other) : AttributeValue Node → AttributeValue Other
  | scalar value => .scalar value
  | ref target => .ref (f target)
  | entities items => .entities (items.map f)
  | scalars items => .scalars items
  | null => .null

/-- The text of a value on one line, entities by their names. -/
def display (nameOf : Node → String) : AttributeValue Node → Option String
  | scalar value => some value.display
  | ref target => some (nameOf target)
  | entities items => some (", ".intercalate (items.map nameOf))
  | scalars items => some (", ".intercalate (items.map Scalar.display))
  | null => none

end AttributeValue

namespace Attribute

def map (f : Node → Other) : Attribute Node → Attribute Other
  | value v => .value (v.map f)
  | malformed v => .malformed v
  | unreadable failure => .unreadable failure

/-- The value of the attribute `name` of `entity`, if it has one that can be read. -/
def read (entity name : String) : Attribute Node → Except Failure (AttributeValue Node)
  | value v => .ok v
  | malformed v => .error (.ofMalformed entity name v.value)
  | unreadable failure => .error (.provider failure)

end Attribute

namespace Entity

def create (type : TypeTag) (group : Option GroupKey) (name : String)
    (attributes : Record (Attribute Node)) (raw : Option (Record (Option String))) :
    Except BlankName (Entity Node) := do
  return ⟨type, ← BlankName.entity.refuse name, group, attributes, raw⟩

def map (f : Node → Other) (e : Entity Node) : Entity Other :=
  { e with attributes := e.attributes.map (·.map f) }

/-- The provider's own text for an attribute, if it has given one. -/
def rawText? (e : Entity Node) (name : String) : Option (Option String) :=
  e.raw.bind (·.get? name)

/-- What is shown of an attribute value that is not expanded: the provider's own text if there is
one, else the text of the value. -/
def display (e : Entity Node) (nameOf : Node → String) (name : String)
    (value : AttributeValue Node) : Option String :=
  (e.rawText? name).getD (value.display nameOf)

/-- What is shown of an attribute as it stands. The provider's own text is taken without a look at
the attribute. -/
def displayUnread (e : Entity Node) (nameOf : Node → String) (name : String)
    (held : Attribute Node) : Except Failure (Option String) :=
  match e.rawText? name with
  | some text => .ok text
  | none => return (← held.read e.name name).display nameOf

/-- Attributes that place an entity rather than describe it. -/
def structuralNames : List String := ["name", "schema", "catalog"]

/-- The attributes that describe an entity, by name. -/
def described (e : Entity Node) : List (String × Attribute Node) :=
  e.attributes.sorted.filter fun (name, _) => !structuralNames.contains name

/-- By name, then by group, those without one first, then by type. -/
def order (a b : Entity Node) : Ordering :=
  ((Text.byUnits a.name b.name).then (GroupKey.order a.group b.group)).then (a.type.order b.type)

end Entity

end SnapshotReport
