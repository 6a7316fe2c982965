import SnapshotReport.Value.Order

/-! The schema part of a group key. It is a name, except in keys that are taken over without checks:
there it may be left out, or given as nothing. -/
namespace SnapshotReport

inductive Schema where
  | named (name : String)
  | null
  | absent
deriving DecidableEq, Repr

namespace Schema

def value : Schema → Value
  | named name => .scalar (.text name)
  | null => .null
  | absent => .absent

/-- How a schema shows in a label. -/
def text : Schema → String
  | named name => name
  | null => "null"
  | absent => "undefined"

/-- Names are in the order of texts. Beside anything else the loose order of values decides. -/
def order (a b : Schema) : Ordering :=
  (a.value.order? b.value).getD .eq

theorem order_named (a b : String) : (named a).order (named b) = Text.byUnits a b := rfl

theorem order?_value (a b : Schema) : a.value.order? b.value = some (a.order b) := by
  cases a <;> cases b <;> rfl

end Schema

end SnapshotReport
