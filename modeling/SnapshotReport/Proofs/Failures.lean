import SnapshotReport.Proofs.Listing
import SnapshotReport.Proofs.Nesting
import SnapshotReport.Serializer

/-! What a report fails with. All failures that a snapshot holds for a report are listed in the order
of the document, as if each of them were passed over; the report fails if there is one, and with the
first. -/
namespace SnapshotReport

variable {n : Nat}

/-- Every attribute that describes the entity holds a value of a known kind that can be read. -/
def Entity.Readable {Node : Type} (e : Entity Node) : Prop :=
  ∀ name held, (name, held) ∈ e.attributes.entries → name ∉ Entity.structuralNames →
    ∃ value, held = .value value

namespace Expansion

variable {g : Graph n} {scope : Scope} {path : Path} {i : Fin n}

/-- The failures that an attribute of entity `i` brings with it, those within the entities that it
expands being given. -/
def attributeFailures (g : Graph n) (scope : Scope) (path : Path) (inner : Fresh g path → List Failure)
    (i : Fin n) (name : String) (held : Attribute (Fin n)) : List Failure :=
  match held.read (g.name i) name with
  | .error failure => [failure]
  | .ok value => (expanded g scope path value).flatMap inner

/-- The failures within the block of entity `i`, depth first in the order of its attributes. -/
def failures (g : Graph n) (scope : Scope) (path : Path) (i : Fin n) : List Failure :=
  (g.entity i).described.flatMap fun (name, held) =>
    attributeFailures g scope path (fun found => failures g scope (path.insert (g.name i)) found)
      i name held
termination_by measure g path i
decreasing_by exact measure_lt i found

/-- A block fails with the first failure in it. -/
theorem failure?_block (g : Graph n) (scope : Scope) (path : Path) (i : Fin n) :
    failure? (block g scope path i) = (failures g scope path i).head? := by
  induction path, i using nesting_induction g scope with
  | step path i ih =>
    rw [block_eq, failures]
    refine (failure?_bind_ok _ _).trans (failure?_mapM fun (name, held) member => ?_)
    cases held with
    | value value =>
      simp only [attributeFailures, Attribute.read, bind, Except.bind]
      rw [attributeOutline_eq]
      refine (failure?_bind_ok _ _).trans (failure?_mapM fun found expanded => ?_)
      have nests : Nests g scope path i found :=
        nests_iff.mpr ⟨name, value, found, member, expanded, rfl⟩
      exact (failure?_bind_ok _ _).trans (ih found nests)
    | malformed | unreadable => rfl

theorem failures_eq_nil_step : failures g scope path i = [] ↔
    (g.entity i).Readable ∧
      ∀ j, Nests g scope path i j → failures g scope (path.insert (g.name i)) j = [] := by
  rw [failures, List.flatMap_eq_nil_iff]
  constructor
  · intro none
    constructor
    · intro name held stands describes
      cases held with
      | value value => exact ⟨value, rfl⟩
      | malformed | unreadable =>
        have listed := none _ (mem_described.mpr ⟨stands, describes⟩)
        simp [attributeFailures, Attribute.read] at listed
    · intro j nests
      obtain ⟨name, value, found, member, expanded, rfl⟩ := nests_iff.mp nests
      have within := none _ member
      simp only [attributeFailures, Attribute.read, List.flatMap_eq_nil_iff] at within
      exact within found expanded
  · rintro ⟨readable, within⟩ ⟨name, held⟩ member
    obtain ⟨stands, describes⟩ := mem_described.mp member
    obtain ⟨value, rfl⟩ := readable name held stands describes
    simp only [attributeFailures, Attribute.read, List.flatMap_eq_nil_iff]
    intro found expanded
    exact within found (nests_iff.mpr ⟨name, value, found, member, expanded, rfl⟩)

/-- A block is free of failures exactly if all entities nested in it are readable. -/
theorem failures_eq_nil_iff : failures g scope path i = [] ↔
    ∀ chain, Chain g scope path i chain → ∀ j ∈ i :: chain, (g.entity j).Readable := by
  constructor
  · intro none chain nested
    induction nested with
    | nil =>
      intro j member
      rw [List.mem_singleton.mp member]
      exact (failures_eq_nil_step.mp none).1
    | cons nests _ ih =>
      obtain ⟨readable, within⟩ := failures_eq_nil_step.mp none
      intro j member
      rcases List.mem_cons.mp member with rfl | member
      · exact readable
      · exact ih (within _ nests) j member
  · intro readable
    induction path, i using nesting_induction g scope with
    | step path i ih =>
      refine failures_eq_nil_step.mpr ⟨Throughout.self readable, ?_⟩
      intro j nests
      exact ih j nests (Throughout.nested readable nests)

theorem failure?_entityOutline (g : Graph n) (scope : Scope) (i : Fin n) :
    failure? (entityOutline g scope i) =
      (failures g scope (Path.empty.insert (g.name i)) i).head? :=
  (failure?_bind_ok _ _).trans (failure?_block g scope _ i)

end Expansion

namespace Report

variable {s : Snapshot n} {depth : Number}

/-- The failures within the listing of a type in the section of a group. -/
def listingFailures (s : Snapshot n) (depth : Number) (key : GroupKey) (type : TypeTag) :
    List Failure :=
  match s.entitiesOf type with
  | .error failure => [failure]
  | .ok list =>
    (owned s key list).flatMap fun i =>
      Expansion.failures s.graph (scope s depth) (Path.empty.insert (s.graph.name i)) i

/-- All failures that stand in the way of a report: first that of a missing group, without which
there is no order of groups, then those of the listings in the order of the document. -/
def failures (s : Snapshot n) (depth : Number) : List Failure :=
  (if none ∈ s.groups then [.engine .missingGroup] else []) ++
    (GroupKey.sort s.twoLevel s.keys).flatMap fun key =>
      (listedTypes s).flatMap (listingFailures s depth key)

theorem failure?_listings (s : Snapshot n) (depth : Number) (key : GroupKey) :
    failure? (listings s (scope s depth) (some key)) =
      ((listedTypes s).flatMap (listingFailures s depth key)).head? := by
  rw [listings_eq]
  refine (failure?_bind_ok _ _).trans (failure?_mapM fun type _ => ?_)
  rw [typeListing, listingFailures]
  cases s.entitiesOf type with
  | error failure => rfl
  | ok list =>
    refine (failure?_bind_ok _ _).trans (failure?_mapM fun i _ => ?_)
    exact Expansion.failure?_entityOutline s.graph (scope s depth) i

/-- A report fails with the first failure that stands in its way. -/
theorem failure?_text (s : Snapshot n) (depth : Number) :
    failure? (text s depth) = (failures s depth).head? := by
  refine (failure?_bind_ok _ _).trans ?_
  rw [outlines, s.reportedGroups_eq, failures]
  split
  · rfl
  · simp only [bind, Except.bind, List.nil_append]
    refine (failure?_bind_ok _ _).trans (failure?_mapM fun key _ => ?_)
    exact (failure?_bind_ok _ _).trans (failure?_listings s depth key)

/-- Nothing stands in the way of a report: no group is missing, what is listed under the types is
lists, and every entity that is listed or nested in a listed one is readable. -/
structure Readable (s : Snapshot n) (depth : Number) : Prop where
  groups : none ∉ s.groups
  lists : s.groups ≠ [] → ∀ type ∈ s.types, s.structural.includes type = false →
    ∃ list, s.entitiesOf type = .ok list
  entities : ∀ key type i, Lists s key type i → ∀ chain,
    Expansion.Chain s.graph (scope s depth) (Path.empty.insert (s.graph.name i)) i chain →
      ∀ j ∈ i :: chain, (s.graph.entity j).Readable

theorem listingFailures_eq_nil_iff {key : GroupKey} {type : TypeTag} :
    listingFailures s depth key type = [] ↔ ∃ list, s.entitiesOf type = .ok list ∧
      ∀ i ∈ owned s key list, ∀ chain,
        Expansion.Chain s.graph (scope s depth) (Path.empty.insert (s.graph.name i)) i chain →
          ∀ j ∈ i :: chain, (s.graph.entity j).Readable := by
  unfold listingFailures
  cases s.entitiesOf type with
  | error failure => simp
  | ok list => simp only [List.flatMap_eq_nil_iff, Expansion.failures_eq_nil_iff, Except.ok.injEq,
      exists_eq_left']

theorem failures_eq_nil_iff : failures s depth = [] ↔ Readable s depth := by
  have sections : failures s depth = [] ↔ none ∉ s.groups ∧
      ∀ key ∈ GroupKey.sort s.twoLevel s.keys, ∀ type ∈ listedTypes s,
        listingFailures s depth key type = [] := by
    simp [failures, List.flatMap_eq_nil_iff]
  rw [sections]
  constructor
  · rintro ⟨groups, clear⟩
    refine ⟨groups, ?_, ?_⟩
    · intro some type included unstructural
      obtain ⟨group, reported⟩ := List.exists_mem_of_ne_nil s.groups some
      cases group with
      | none => exact absurd reported groups
      | some key =>
        have member : key ∈ GroupKey.sort s.twoLevel s.keys :=
          GroupKey.mem_sort.mpr (Snapshot.mem_keys.mpr reported)
        have listed := mem_listedTypes.mpr ⟨included, unstructural⟩
        obtain ⟨list, found, -⟩ := listingFailures_eq_nil_iff.mp (clear key member type listed)
        exact ⟨list, found⟩
    · intro key type i lists
      obtain ⟨member, included, list, found, owned⟩ := lists_iff.mp lists
      obtain ⟨list', found', readable⟩ :=
        listingFailures_eq_nil_iff.mp (clear key member type included)
      obtain rfl := Except.ok.inj (found.symm.trans found')
      exact readable i owned
  · rintro ⟨groups, lists, entities⟩
    refine ⟨groups, ?_⟩
    intro key member type included
    have reported := Snapshot.mem_keys.mp (GroupKey.mem_sort.mp member)
    obtain ⟨typed, unstructural⟩ := mem_listedTypes.mp included
    obtain ⟨list, found⟩ := lists (List.ne_nil_of_mem reported) type typed unstructural
    refine listingFailures_eq_nil_iff.mpr ⟨list, found, fun i owned => ?_⟩
    exact entities key type i (lists_iff.mpr ⟨member, included, list, found, owned⟩)

end Report

/-- A bare value was thrown that has no text. -/
def Failure.Textless (failure : Failure) : Prop :=
  ∃ value, failure = .provider (.thrown value) ∧ value.display? = none

/-- The failure says itself that the state is not the expected one: the error of a provider that does,
and the one that is raised for a value of an unknown kind. -/
inductive Failure.Unexpected : Failure → Prop where
  | provider {message} : Unexpected (.provider (.unexpectedState message))
  | unsupported {label name entity} : Unexpected (.unsupportedValue label name entity)

/-- The text of a failure that is to be wrapped: the message of an error, a bare value as a text, or
what the engine says of a fault. -/
inductive Failure.HasText (engine : EngineFault → String) : Failure → String → Prop where
  | message {name message} : HasText engine (.provider (.error name message)) message
  | value {value text} : value.display? = some text → HasText engine (.provider (.thrown value)) text
  | fault {fault} : HasText engine (.engine fault) (engine fault)

/-- How a failure is reported: as it is if it says itself that the state is not the expected one,
else as the cause of an error that repeats what it says. -/
inductive Failure.Reported (failure : Failure) : SerializationError → Prop where
  | passed {unexpected} : failure.Unexpected → Reported failure (.passed failure unexpected)
  | wrapped {error : WrappedFailure} : ¬failure.Unexpected → error.cause = failure →
      (∀ engine, ∃ reason, failure.HasText engine reason ∧
        error.message engine = "Failed to serialize snapshot: " ++ reason) →
      Reported failure (.wrapped error)

theorem Failure.textless_iff {failure : Failure} : failure.Textless ↔ failure.reason? = none := by
  match failure with
  | .provider (.thrown value) => simp [Textless, reason?]
  | .provider (.unexpectedState _) | .provider (.error _ _) | .unsupportedValue .. | .engine _ =>
    simp [Textless, reason?]

theorem Failure.unexpected_iff {failure : Failure} :
    failure.Unexpected ↔ failure.isUnexpectedState = true := by
  constructor
  · rintro (_ | _) <;> rfl
  · intro unexpected
    match failure with
    | .provider (.unexpectedState _) => exact .provider
    | .unsupportedValue .. => exact .unsupported
    | .provider (.error _ _) | .provider (.thrown _) | .engine _ => contradiction

theorem Failure.hasText_of_reason? {failure : Failure} {reason : Reason}
    (other : ¬failure.Unexpected) (given : failure.reason? = some reason)
    (engine : EngineFault → String) : failure.HasText engine (reason.inWords engine) := by
  match failure with
  | .provider (.unexpectedState _) => exact absurd .provider other
  | .unsupportedValue .. => exact absurd .unsupported other
  | .provider (.error _ _) =>
    obtain rfl := Option.some.inj given
    exact .message
  | .provider (.thrown value) =>
    obtain ⟨text, shown, rfl⟩ := Option.map_eq_some_iff.mp given
    exact .value shown
  | .engine _ =>
    obtain rfl := Option.some.inj given
    exact .fault

theorem SerializationError.ofFailure_reported (failure : Failure) :
    (¬failure.Textless → failure.Reported (ofFailure failure)) ∧
    (failure.Textless → ∃ wordless, ofFailure failure = .textless failure wordless) := by
  rw [Failure.textless_iff, ofFailure]
  split
  · rename_i unexpected
    refine ⟨fun _ => .passed (Failure.unexpected_iff.mpr unexpected), fun wordless => ?_⟩
    obtain ⟨_, rfl, -⟩ := Failure.textless_iff.mpr wordless
    contradiction
  · rename_i other
    split
    · rename_i reason given
      have other := mt Failure.unexpected_iff.mp other
      refine ⟨fun _ => .wrapped other rfl fun engine => ?_, fun wordless => ?_⟩
      · exact ⟨_, Failure.hasText_of_reason? other given engine, rfl⟩
      · rw [given] at wordless
        contradiction
    · rename_i wordless
      exact ⟨fun worded => absurd wordless worded, fun _ => ⟨wordless, rfl⟩⟩

namespace Report

theorem serialize_of_failures {s : Snapshot n} {depth : Number} {failure : Failure}
    {later : List Failure} (found : failures s depth = failure :: later) :
    (Serializer.readable depth).serialize s = .error (.ofFailure failure) := by
  have failed : failure? (text s depth) = some failure := by rw [failure?_text, found]; rfl
  change (text s depth).mapError SerializationError.ofFailure = _
  rw [failure?_eq_some_iff.mp failed]
  rfl

theorem text_of_readable {s : Snapshot n} {depth : Number} (readable : Readable s depth) :
    ∃ shown, text s depth = .ok shown := by
  apply failure?_eq_none_iff.mp
  rw [failure?_text, failures_eq_nil_iff.mpr readable]
  rfl

theorem serialize_of_readable {s : Snapshot n} {depth : Number} (readable : Readable s depth) :
    ∃ shown, (Serializer.readable depth).serialize s = .ok shown := by
  obtain ⟨shown, made⟩ := text_of_readable readable
  refine ⟨shown, ?_⟩
  change (text s depth).mapError SerializationError.ofFailure = _
  rw [made]
  rfl

/-- Serializing a snapshot gives its text if nothing stands in the way, else the first failure in the
order of the document and nothing besides. A bare value that has no text is not reported. -/
theorem serialize_outcome (s : Snapshot n) (depth : Number) :
    ((∃ shown, (Serializer.readable depth).serialize s = .ok shown) ↔ Readable s depth) ∧
    (¬Readable s depth → ∃ failure later, failures s depth = failure :: later ∧
      (¬failure.Textless → ∃ error, failure.Reported error ∧
        (Serializer.readable depth).serialize s = .error error) ∧
      (failure.Textless → ∃ wordless,
        (Serializer.readable depth).serialize s = .error (.textless failure wordless))) := by
  have failing (unreadable : ¬Readable s depth) :
      ∃ failure later, failures s depth = failure :: later :=
    List.exists_cons_of_ne_nil (mt failures_eq_nil_iff.mp unreadable)
  constructor
  · constructor
    · rintro ⟨shown, made⟩
      by_contra unreadable
      obtain ⟨failure, later, found⟩ := failing unreadable
      rw [serialize_of_failures found] at made
      contradiction
    · exact serialize_of_readable
  · intro unreadable
    obtain ⟨failure, later, found⟩ := failing unreadable
    obtain ⟨reported, wordless⟩ := SerializationError.ofFailure_reported failure
    refine ⟨failure, later, found, ?_⟩
    rw [serialize_of_failures found]
    constructor
    · intro worded
      exact ⟨_, reported worded, rfl⟩
    · intro textless
      obtain ⟨none, same⟩ := wordless textless
      exact ⟨none, congrArg Except.error same⟩

/-- A listed entity whose only attribute throws an object that stands in the way of its own text. -/
def textlessThrow : Snapshot 1 where
  graph := ⟨#v[⟨⟨"t"⟩, "e", some ⟨"c", .named "c"⟩,
    ⟨[("x", .unreadable (.thrown (.object [("toString", .scalar (.boolean true))])))], by simp⟩,
    none⟩]⟩
  source := ⟨"u", "p", "v", "w"⟩
  structural := ⟨⟨"g"⟩, none, none⟩
  types := [⟨"t"⟩]
  groups := [some ⟨"c", .named "c"⟩]
  twoLevel := true
  buckets := ⟨[("t", [0])], by simp⟩

/-- What is thrown there is neither passed on nor wrapped. -/
theorem textless_throw_not_reported : ¬Readable textlessThrow .one ∧
    ∀ (failure : Failure) error, failure.Reported error →
      (Serializer.readable .one).serialize textlessThrow ≠ .error error := by
  have found : failures textlessThrow .one =
      [.provider (.thrown (.object [("toString", .scalar (.boolean true))]))] := by
    have reported : GroupKey.sort textlessThrow.twoLevel textlessThrow.keys =
        [⟨"c", .named "c"⟩] := by decide
    have types : listedTypes textlessThrow = [⟨"t"⟩] := by decide
    have listed : textlessThrow.entitiesOf ⟨"t"⟩ = .ok [0] := rfl
    have entries : owned textlessThrow ⟨"c", .named "c"⟩ [0] = [0] := by decide
    have given : none ∉ textlessThrow.groups := by decide
    simp only [failures, if_neg given, reported, types, listingFailures, listed, entries,
      List.flatMap_cons, List.flatMap_nil, List.append_nil, List.nil_append]
    rw [Expansion.failures]
    rfl
  constructor
  · intro readable
    rw [failures_eq_nil_iff.mpr readable] at found
    contradiction
  · intro failure error reported
    obtain ⟨wordless, same⟩ := (SerializationError.ofFailure_reported _).2
      ⟨.object [("toString", .scalar (.boolean true))], rfl, rfl⟩
    rw [serialize_of_failures found, same]
    cases reported <;> simp

end Report

end SnapshotReport
