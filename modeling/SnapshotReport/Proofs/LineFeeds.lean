import SnapshotReport.Proofs.LineEnds
import SnapshotReport.Proofs.Sorting
import SnapshotReport.Snapshot

/-! The same snapshot captured with line feeds alone. Texts that are only shown, and never compared,
are given their line feeds when they are captured, and not when the report is written. What a value
is shown as is then what it was shown as before, with line feeds. -/
namespace SnapshotReport

variable {n : Nat}

section Captured

variable {Node : Type}

def Scalar.normalized : Scalar → Scalar
  | .text value => .text (Text.normalizeNewlines value)
  | other => other

def AttributeValue.normalized : AttributeValue Node → AttributeValue Node
  | .scalar value => .scalar value.normalized
  | .scalars items => .scalars (items.map Scalar.normalized)
  | other => other

def Attribute.normalized : Attribute Node → Attribute Node
  | .value v => .value v.normalized
  | other => other

/-- Names are not only shown, so they stay as they are. -/
def Entity.normalized (e : Entity Node) : Entity Node where
  type := e.type
  name := e.name
  group := e.group
  attributes := e.attributes.map Attribute.normalized
  raw := e.raw.map fun texts => texts.map fun text => text.map Text.normalizeNewlines

def Graph.normalized (g : Graph n) : Graph n :=
  ⟨g.table.map Entity.normalized⟩

def Source.normalized (source : Source) : Source where
  url := Text.normalizeNewlines source.url
  productName := Text.normalizeNewlines source.productName
  productVersion := Text.normalizeNewlines source.productVersion
  user := Text.normalizeNewlines source.user

def Source.fields (source : Source) : List String :=
  [source.url, source.productName, source.productVersion, source.user]

def Snapshot.normalized (s : Snapshot n) : Snapshot n :=
  { s with graph := s.graph.normalized, source := s.source.normalized }

/-- The text that an attribute value has of its own, not made of the names of entities. -/
def AttributeValue.ownText? : AttributeValue Node → Option String
  | .scalar value => some value.display
  | .scalars items => some (", ".intercalate (items.map Scalar.display))
  | _ => none

/-- The text with which an attribute value stands if it does so with a text that is only shown. -/
def Entity.ownText? (e : Entity Node) (name : String) (value : AttributeValue Node) :
    Option String :=
  (e.rawText? name).getD value.ownText?

end Captured

namespace NumberLayout

variable {layout : NumberLayout} {digits : List Char}

theorem not_mem_toDigits (value : Nat) : '\r' ∉ Nat.toDigits 10 value := by
  intro member
  have digit := Nat.isDigit_of_mem_toDigits (by decide) (by decide) member
  exact absurd digit (by decide)

theorem not_mem_plain (none : '\r' ∉ digits) (point : Int) : '\r' ∉ plain digits point := by
  have taken : '\r' ∉ digits.take point.toNat := fun member => none (List.mem_of_mem_take member)
  have dropped : '\r' ∉ digits.drop point.toNat := fun member => none (List.mem_of_mem_drop member)
  unfold plain
  split
  · simp [none]
  · split
    · simp [taken, dropped]
    · simp [none]

theorem not_mem_scientific (none : '\r' ∉ digits) (exponent : Int) :
    '\r' ∉ scientific digits exponent := by
  have written := not_mem_toDigits exponent.natAbs
  have sign : '\r' ≠ if exponent < 0 then '-' else '+' := by split <;> decide
  unfold scientific
  dsimp only
  match digits, none with
  | [], none => simp [sign, written]
  | [lead], none => simpa [sign, written] using none
  | lead :: next :: rest, none => simpa [sign, written] using none

theorem not_mem_decimal (d : Decimal) : '\r' ∉ layout.decimal d := by
  have significant : '\r' ∉
      ((Nat.toDigits 10 d.digits).reverse.dropWhile (· == '0')).reverse := by
    rw [List.mem_reverse]
    intro member
    exact not_mem_toDigits d.digits (List.mem_reverse.mp ((List.dropWhile_sublist _).subset member))
  unfold decimal
  dsimp only
  split
  · exact not_mem_plain significant _
  · exact not_mem_scientific significant _

theorem not_mem_text (nan : '\r' ∉ layout.nan.toList) (infinity : '\r' ∉ layout.infinity.toList)
    (value : Number) : '\r' ∉ (layout.text value).toList := by
  cases value with
  | nan => exact nan
  | infinite negative => cases negative <;> simp [text, infinity]
  | finite negative size =>
    rw [text]
    split
    · decide
    · cases negative <;> simp [not_mem_decimal]

end NumberLayout

namespace Text

theorem normalizeNewlines_of_not_mem {text : String} (none : '\r' ∉ text.toList) :
    normalizeNewlines text = text := by
  rw [normalizeNewlines, normalizeChars_of_not_mem none, String.ofList_toList]

theorem isEmpty_normalizeNewlines (text : String) :
    (normalizeNewlines text).isEmpty = text.isEmpty := by
  have empty : normalizeChars text.toList = [] ↔ text.toList = [] := by
    cases text.toList with
    | nil => simp [normalizeChars, mergePairs, replaceReturns]
    | cons c rest =>
      by_cases carriage : c = '\r'
      · subst carriage
        obtain ⟨back, normal⟩ := normalizeChars_return_eq_cons rest
        simp [normal]
      · simp [normalizeChars_cons carriage]
  rw [Bool.eq_iff_iff, String.isEmpty_iff, String.isEmpty_iff, ← String.toList_eq_nil_iff,
    ← String.toList_eq_nil_iff, toList_normalizeNewlines, empty]

theorem normalizeNewlines_intercalate (items : List String) :
    normalizeNewlines (", ".intercalate items) =
      ", ".intercalate (items.map normalizeNewlines) := by
  have joined (items : List (List Char)) : normalizeChars ([',', ' '].intercalate items) =
      [',', ' '].intercalate (items.map normalizeChars) := by
    induction items with
    | nil => rfl
    | cons item rest ih =>
      cases rest with
      | nil => simp
      | cons next rest =>
        rw [List.map_cons, List.map_cons, List.intercalate_cons_cons, List.intercalate_cons_cons,
          ← List.map_cons, ← ih, List.append_assoc, List.append_assoc,
          normalizeChars_append (.inr (by simp)), List.cons_append, List.cons_append,
          normalizeChars_cons (by decide), normalizeChars_cons (by decide)]
        rfl
  have texts : (items.map String.toList).map normalizeChars =
      (items.map normalizeNewlines).map String.toList := by
    simp
  rw [← String.toList_inj, toList_normalizeNewlines, String.toList_intercalate,
    String.toList_intercalate, ← texts]
  exact joined (items.map String.toList)

end Text

theorem Scalar.display_normalized (value : Scalar) :
    value.normalized.display = Text.normalizeNewlines value.display := by
  have plain {text : String} (none : '\r' ∉ text.toList) : text = Text.normalizeNewlines text :=
    (Text.normalizeNewlines_of_not_mem none).symm
  cases value with
  | text value => rfl
  | number value =>
    exact plain (NumberLayout.not_mem_text (by decide) (by decide) value)
  | boolean value =>
    apply plain
    cases value <;> decide
  | integer value =>
    apply plain
    cases value with
    | ofNat value =>
      change '\r' ∉ value.repr.toList
      rw [Nat.toList_repr]
      exact NumberLayout.not_mem_toDigits value
    | negSucc value =>
      change '\r' ∉ ("-" ++ value.succ.repr).toList
      rw [String.toList_append, Nat.toList_repr]
      simp [NumberLayout.not_mem_toDigits]

namespace Entity

variable {Node : Type} {e : Entity Node} {name : String} {value : AttributeValue Node}

theorem described_normalized (e : Entity Node) :
    e.normalized.described = e.described.map fun (name, held) => (name, held.normalized) := by
  rw [described, described, Record.sorted, Record.sorted, normalized, Record.map, sortBy_map,
    List.filter_map]
  rfl

theorem rawText?_normalized (e : Entity Node) (name : String) :
    e.normalized.rawText? name = (e.rawText? name).map (Option.map Text.normalizeNewlines) := by
  rw [rawText?, rawText?, normalized]
  cases e.raw with
  | none => rfl
  | some texts => exact Record.get?_map _ texts name

theorem display_of_ownText? {text : String} (own : e.ownText? name value = some text)
    (nameOf : Node → String) : e.display nameOf name value = some text := by
  rw [ownText?] at own
  rw [display]
  cases raw : e.rawText? name with
  | some shown => rwa [raw] at own
  | none =>
    rw [raw] at own
    cases value with
    | scalar | scalars => exact own
    | ref | entities | null => contradiction

theorem display_normalized_of_some {text : String} (own : e.ownText? name value = some text)
    (nameOf : Node → String) :
    e.normalized.display nameOf name value.normalized = some (Text.normalizeNewlines text) := by
  rw [ownText?] at own
  rw [display, rawText?_normalized]
  cases raw : e.rawText? name with
  | some shown =>
    rw [raw] at own
    obtain rfl : shown = some text := own
    rfl
  | none =>
    rw [raw] at own
    cases value with
    | scalar value =>
      obtain rfl := Option.some.inj own
      exact congrArg some value.display_normalized
    | scalars items =>
      obtain rfl := Option.some.inj own
      rw [Text.normalizeNewlines_intercalate, List.map_map]
      have texts : Text.normalizeNewlines ∘ Scalar.display =
          Scalar.display ∘ Scalar.normalized := by
        funext value
        exact value.display_normalized.symm
      rw [texts, ← List.map_map]
      rfl
    | ref | entities | null => contradiction

theorem display_normalized_of_none (own : e.ownText? name value = none)
    (nameOf : Node → String) :
    e.normalized.display nameOf name value.normalized = e.display nameOf name value := by
  rw [ownText?] at own
  rw [display, display, rawText?_normalized]
  cases raw : e.rawText? name with
  | some shown =>
    rw [raw] at own
    obtain rfl : shown = none := own
    rfl
  | none =>
    rw [raw] at own
    cases value with
    | ref | entities | null => rfl
    | scalar | scalars => contradiction

end Entity

namespace Graph

variable (g : Graph n) (i : Fin n)

theorem entity_normalized : g.normalized.entity i = (g.entity i).normalized := by
  simp [normalized, entity]

theorem name_normalized : g.normalized.name = g.name := by
  funext i
  rw [name, entity_normalized]
  rfl

theorem type_normalized : g.normalized.type i = g.type i := by
  rw [type, entity_normalized]
  rfl

end Graph

end SnapshotReport
