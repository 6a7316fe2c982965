import SnapshotReport.Graph
import SnapshotReport.Value.Order

/-! Elements of a mixed collection. Entities can be ordered among each other and types among each
other, but an entity and a type cannot, and nothing else can. A value that claims to be an entity or
a type is taken for one, and its fields, whatever they hold, are compared loosely. Absent elements
are never compared; they go to the end. -/
namespace SnapshotReport

inductive Element (n : Nat) where
  | entity (i : Fin n)
  | type (type : TypeTag)
  | other (value : Value)
deriving Repr

/-- Two elements that cannot be ordered, by what they are. -/
structure UnsupportedComparison where
  left : String
  right : String
  message : String :=
    "Cannot order " ++ left ++ " against " ++ right ++ ": neither comparable entities nor type tags"
deriving DecidableEq, Repr

/-- Why two elements were not ordered. -/
inductive OrderingFailure where
  | unsupported (pair : UnsupportedComparison)
  /-- A field that decides has no text to be compared by, or it is looked for in nothing. -/
  | incomparable
deriving DecidableEq, Repr

namespace Element

variable {n : Nat} {α : Type}

/-- The kind that an element claims to be of. -/
def kind? : Element n → Option String
  | entity _ => some "entity"
  | type _ => some "type"
  | other value => value.kind?

def isEntity (e : Element n) : Bool :=
  e.kind? == some "entity"

def isType (e : Element n) : Bool :=
  e.kind? == some "type"

def isAbsent : Element n → Bool
  | other .absent => true
  | _ => false

def textField (name text : String) : String × Value :=
  (name, .scalar (.text text))

def typeValue (type : TypeTag) : Value :=
  .object [textField "kind" "type", textField "fullName" type.fullName]

def groupValue : Option GroupKey → Value
  | none => .null
  | some key => .object [textField "catalog" key.catalog, ("schema", key.schema.value)]

/-- An element as a value, with the fields that it is ordered by. -/
def value (g : Graph n) : Element n → Value
  | entity i =>
    .object [textField "kind" "entity", ("type", typeValue (g.type i)), textField "name" (g.name i),
      ("group", groupValue (g.entity i).group)]
  | type tag => typeValue tag
  | other value => value

def label (g : Graph n) (e : Element n) : String :=
  (e.value g).label

/-- The second order where the first leaves the matter open. It is not looked at elsewhere. -/
def orElse (first : Option Ordering) (second : Unit → Option Ordering) : Option Ordering := do
  match ← first with
  | .eq => second ()
  | decided => return decided

def orderField (name : String) (a b : Value) : Option Ordering :=
  (a.field name).order? (b.field name)

def orderTypeValues (a b : Value) : Option Ordering :=
  if a.isNothing || b.isNothing then none else orderField "fullName" a b

def orderGroupValues (a b : Value) : Option Ordering :=
  if a.isGiven && b.isGiven then
    orElse (orderField "catalog" a b) fun _ => orderField "schema" a b
  else some (compare a.isGiven b.isGiven)

/-- By name, then by group, then by type. -/
def orderEntityValues (a b : Value) : Option Ordering :=
  orElse (orderField "name" a b) fun _ =>
    orElse (orderGroupValues (a.field "group") (b.field "group")) fun _ =>
      orderTypeValues (a.field "type") (b.field "type")

theorem orElse_eq_some {first : Option Ordering} {second : Unit → Option Ordering} {a b : Ordering}
    (firstFound : first = some a) (secondFound : second () = some b) :
    orElse first second = some (a.then b) := by
  rw [firstFound]
  cases a
  · rfl
  · exact secondFound
  · rfl

theorem orderField_text (name : String) {a b : Value} {s t : String}
    (left : a.field name = .scalar (.text s)) (right : b.field name = .scalar (.text t)) :
    orderField name a b = some (Text.byUnits s t) := by
  rw [orderField, left, right]
  rfl

theorem orderTypeValues_typeValue (s t : TypeTag) :
    orderTypeValues (typeValue s) (typeValue t) = some (s.order t) :=
  orderField_text "fullName" rfl rfl

theorem orderGroupValues_groupValue (a b : Option GroupKey) :
    orderGroupValues (groupValue a) (groupValue b) = some (GroupKey.order a b) := by
  cases a with
  | none => cases b <;> rfl
  | some a =>
    cases b with
    | none => rfl
    | some b =>
      show orElse (orderField "catalog" _ _) (fun _ => orderField "schema" _ _) = _
      exact orElse_eq_some (orderField_text _ rfl rfl) (Schema.order?_value a.schema b.schema)

/-- Entities are ordered alike as entities and as values. -/
theorem orderEntityValues_value (g : Graph n) (i j : Fin n) :
    orderEntityValues ((entity i).value g) ((entity j).value g) =
      some ((g.entity i).order (g.entity j)) := by
  rw [Entity.order, Ordering.then_assoc, orderEntityValues]
  exact orElse_eq_some (orderField_text _ rfl rfl)
    (orElse_eq_some (orderGroupValues_groupValue _ _) (orderTypeValues_typeValue _ _))

def comparable (found : Option Ordering) : Except OrderingFailure Ordering :=
  match found with
  | some decided => .ok decided
  | none => .error .incomparable

def order (g : Graph n) (a b : Element n) : Except OrderingFailure Ordering :=
  match a, b with
  | entity i, entity j => .ok ((g.entity i).order (g.entity j))
  | type s, type t => .ok (s.order t)
  | a, b =>
    if a.isEntity && b.isEntity then comparable (orderEntityValues (a.value g) (b.value g))
    else if a.isType && b.isType then comparable (orderTypeValues (a.value g) (b.value g))
    else .error (.unsupported { left := a.label g, right := b.label g })

/-- Sorts things by the elements that they hold. -/
def sortOn (g : Graph n) (element : α → Element n) (items : List α) :
    Except OrderingFailure (List α) := do
  let (absent, present) := items.partition (isAbsent ∘ element)
  return (← trySortBy (fun a b => order g (element a) (element b)) present) ++ absent

def sort (g : Graph n) (items : List (Element n)) : Except OrderingFailure (List (Element n)) :=
  sortOn g id items

end Element

end SnapshotReport
