import Mathlib.Data.List.Nodup
import SnapshotReport.Proofs.Entries
import SnapshotReport.Proofs.LineFeeds
import SnapshotReport.Proofs.Nesting.Contribution

/-! Whether it matters how a snapshot ends the lines of its texts. The report of a snapshot is
compared with that of the same one captured with line feeds alone: the two have the same outline,
and each text that was changed stands in the same place of both. So they are the same exactly if no
line of these texts is ended in a way that indentation overlooks. -/
namespace SnapshotReport

variable {n : Nat}

namespace Expansion

open Outline (Respelled levels levelsOf)

variable {g : Graph n} {scope : Scope} {path : Path} {i : Fin n} {name : String}
  {value : AttributeValue (Fin n)}

/-- The texts that are only shown and stand in the block of entity `i` at the end of a path. -/
inductive Shows (g : Graph n) (scope : Scope) : Path → Fin n → String → Prop where
  | own {path i name value text} : (name, .value value) ∈ (g.entity i).described →
      Unexpanded g scope path value → (g.entity i).ownText? name value = some text →
      Shows g scope path i text
  | nested {path i j text} : Nests g scope path i j →
      Shows g scope (path.insert (g.name i)) j text → Shows g scope path i text

/-- Two outlines of an attribute, or two times none, of which `p` tells if they come to the same
lines. -/
structure Counterparts (p : Prop) (shown shown' : Option Outline) : Prop where
  given : shown.isSome = shown'.isSome
  respelled : ∀ level,
    Respelled p (levelsOf (level + 1) shown.toList) (levelsOf (level + 1) shown'.toList)

theorem Counterparts.refl (shown : Option Outline) : Counterparts True shown shown :=
  ⟨rfl, fun _ => .refl _⟩

theorem Counterparts.congr {p q : Prop} {shown shown' : Option Outline}
    (counterparts : Counterparts p shown shown') (same : p ↔ q) : Counterparts q shown shown' :=
  ⟨counterparts.given, fun level => (counterparts.respelled level).congr same⟩

theorem lead_getLast? (name : String) : (name ++ ": ").toList.getLast? = some ' ' := by
  simp [List.getLast?_append]

theorem line_counterparts (g : Graph n) (i : Fin n) (name : String)
    (value : AttributeValue (Fin n)) :
    Counterparts (∀ text, (g.entity i).ownText? name value = some text →
        Text.ReturnsEndLines text.toList)
      (line name (g.display i name value))
      (line name (g.normalized.display i name value.normalized)) := by
  rw [Graph.display, Graph.display, g.entity_normalized, g.name_normalized]
  cases own : (g.entity i).ownText? name value with
  | none =>
    rw [Entity.display_normalized_of_none own]
    exact (Counterparts.refl _).congr (by simp)
  | some text =>
    rw [Entity.display_of_ownText? own, Entity.display_normalized_of_some own]
    by_cases empty : text.isEmpty = true
    · rw [line, line, if_pos empty, if_pos (by rwa [Text.isEmpty_normalizeNewlines])]
      refine (Counterparts.refl none).congr (iff_of_true trivial ?_)
      rintro _ ⟨⟩
      rw [String.isEmpty_iff.mp empty]
      exact Text.returnsEndLines_nil
    · rw [line, line, if_neg empty, if_neg (by rwa [Text.isEmpty_normalizeNewlines])]
      refine ⟨rfl, fun level => ?_⟩
      exact (Respelled.below (lead_getLast? name) level text).congr (by simp)

/-- An attribute value of entity `i` expands entity `j` at the end of a path. -/
def Expands (g : Graph n) (scope : Scope) (path : Path) (value : AttributeValue (Fin n))
    (j : Fin n) : Prop :=
  scope.expands path = true ∧ g.name j ∉ path ∧
    (value = .ref j ∧ scope.hides (g.type j) = false ∨ ∃ items, value = .entities items ∧ j ∈ items)

/-- What an attribute of entity `i` shows, itself or within an entity that it expands. -/
def ShowsIn (g : Graph n) (scope : Scope) (path : Path) (i : Fin n) (name : String)
    (value : AttributeValue (Fin n)) (text : String) : Prop :=
  Unexpanded g scope path value ∧ (g.entity i).ownText? name value = some text ∨
    ∃ j, Expands g scope path value j ∧ Shows g scope (path.insert (g.name i)) j text

theorem shows_iff {text : String} : Shows g scope path i text ↔
    ∃ name value, (name, .value value) ∈ (g.entity i).described ∧
      ShowsIn g scope path i name value text := by
  constructor
  · intro shows
    cases shows with
    | own member unexpanded own => exact ⟨_, _, member, .inl ⟨unexpanded, own⟩⟩
    | nested nests shows =>
      obtain ⟨expands, fresh, name, value, stands, describes, shown⟩ := nests
      exact ⟨name, value, mem_described.mpr ⟨stands, describes⟩,
        .inr ⟨_, ⟨expands, fresh, shown⟩, shows⟩⟩
  · rintro ⟨name, value, member, ⟨unexpanded, own⟩ | ⟨j, ⟨expands, fresh, shown⟩, shows⟩⟩
    · exact .own member unexpanded own
    · obtain ⟨stands, describes⟩ := mem_described.mp member
      exact .nested ⟨expands, fresh, name, value, stands, describes, shown⟩ shows

/-- The blocks of entity `j` in both captures, if they are made, come to the same lines exactly if
the texts in them allow it. -/
def BlocksRespelled (g : Graph n) (scope : Scope) (path : Path) (j : Fin n) : Prop :=
  ∀ made made', block g scope path j = .ok made → block g.normalized scope path j = .ok made' →
    made.isEmpty = made'.isEmpty ∧ ∀ level,
      Respelled (∀ text, Shows g scope path j text → Text.ReturnsEndLines text.toList)
        (levelsOf (level + 1) made) (levelsOf (level + 1) made')

/-- A title with a block below, left out only if there is nothing in the block. -/
theorem node_counterparts {p : Prop} {left : Bool} {made made' : List Outline} (title : String)
    (nothing : left = true → made = []) (empty : made.isEmpty = made'.isEmpty)
    (within : ∀ level, Respelled p (levelsOf (level + 1) made) (levelsOf (level + 1) made')) :
    Counterparts p (if left then none else some (.node title made))
      (if left then none else some (.node title made')) := by
  split
  · rename_i left
    obtain rfl := nothing left
    obtain rfl := List.isEmpty_iff.mp empty.symm
    exact (Counterparts.refl none).congr (iff_of_true trivial ((within 0).same.mp rfl))
  · refine ⟨rfl, fun level => ?_⟩
    have texts := (Respelled.refl [(level + 1, title)]).append (within (level + 1))
    simpa [levelsOf, levels] using texts.congr (by simp)

theorem names_respelled {list : List (Fin n)} {outlines outlines' : List Outline}
    (named : List.Forall₂ (Names g scope path) list outlines)
    (named' : List.Forall₂ (Names g.normalized scope path) list outlines')
    (within : ∀ j ∈ list, BlocksRespelled g scope path j) (level : Nat) :
    Respelled (∀ j ∈ list, ∀ text, Shows g scope path j text → Text.ReturnsEndLines text.toList)
      (levelsOf level outlines) (levelsOf level outlines') := by
  induction named generalizing outlines' with
  | nil =>
    cases named'
    exact (Respelled.refl _).congr (by simp)
  | @cons j outline list outlines first _ ih =>
    cases named' with
    | @cons _ outline' _ outlines' first' named' =>
      obtain ⟨made, done, rfl⟩ := first
      obtain ⟨made', done', rfl⟩ := first'
      have block := (within j List.mem_cons_self made made' done done').2 level
      have others := ih named' fun k member => within k (List.mem_cons_of_mem j member)
      have texts := ((Respelled.refl [(level, g.name j)]).append block).append others
      rw [g.name_normalized]
      simpa [levelsOf, levels] using texts.congr (by simp)

section Contributions

variable {shown shown' : Option Outline}

theorem unexpanded_counterparts (unexpanded : Unexpanded g scope path value)
    (closed : ∀ j, ¬Expands g scope path value j) :
    Counterparts (∀ text, ShowsIn g scope path i name value text →
      Text.ReturnsEndLines text.toList) (line name (g.display i name value))
        (line name (g.normalized.display i name value.normalized)) := by
  refine (line_counterparts g i name value).congr ?_
  simp [ShowsIn, unexpanded, closed]

theorem reference_counterparts {target : Fin n}
    (blocks : ∀ j, Expands g scope path (.ref target) j →
      BlocksRespelled g scope (path.insert (g.name i)) j)
    (first : contribution g scope path i (name, .value (.ref target)) = .ok shown)
    (second : contribution g.normalized scope path i (name, .value (.ref target)) = .ok shown') :
    Counterparts (∀ text, ShowsIn g scope path i name (.ref target) text →
      Text.ReturnsEndLines text.toList) shown shown' := by
  have named := g.name_normalized
  have typed := g.type_normalized
  by_cases suppressed : scope.hides (g.type target) = true ∨ g.name target ∈ path
  · rw [contribution_suppressed suppressed] at first
    rw [contribution_suppressed (by rwa [named, typed])] at second
    obtain rfl := Except.ok.inj first
    obtain rfl := Except.ok.inj second
    refine (Counterparts.refl none).congr (iff_of_true trivial ?_)
    rintro text (⟨⟨-, kept, fresh⟩, -⟩ | ⟨j, ⟨-, fresh, ⟨⟨⟩, kept⟩ | ⟨_, ⟨⟩, _⟩⟩, -⟩)
    · simp [kept, fresh] at suppressed
    · simp [kept, fresh] at suppressed
  · rw [not_or, Bool.not_eq_true] at suppressed
    obtain ⟨kept, fresh⟩ := suppressed
    have kept' : scope.hides (g.normalized.type target) = false := by rwa [typed]
    have fresh' : g.normalized.name target ∉ path := by rwa [named]
    by_cases expands : scope.expands path = true
    · obtain ⟨made, within, rfl⟩ := contribution_reference expands kept fresh first
      obtain ⟨made', within', rfl⟩ := contribution_reference expands kept' fresh' second
      rw [named] at within' ⊢
      obtain ⟨empty, texts⟩ :=
        blocks target ⟨expands, fresh, .inl ⟨rfl, kept⟩⟩ made made' within within'
      rw [reference, reference, ← empty]
      refine (node_counterparts _ (fun left => ?_) empty texts).congr ?_
      · exact List.isEmpty_iff.mp (Bool.and_eq_true_iff.mp left).2
      · simp [ShowsIn, Unexpanded, Expands, expands, kept, fresh]
    · rw [Bool.not_eq_true] at expands
      rw [contribution_unexpanded expands (by rintro _ ⟨⟩; exact ⟨kept, fresh⟩) (by simp)] at first
      rw [contribution_unexpanded expands (by rintro _ ⟨⟩; exact ⟨kept', fresh'⟩)
        (by simp)] at second
      obtain rfl := Except.ok.inj first
      obtain rfl := Except.ok.inj second
      exact unexpanded_counterparts ⟨expands, kept, fresh⟩ (by simp [Expands, expands])

theorem collection_counterparts {items : List (Fin n)}
    (blocks : ∀ j, Expands g scope path (.entities items) j →
      BlocksRespelled g scope (path.insert (g.name i)) j)
    (first : contribution g scope path i (name, .value (.entities items)) = .ok shown)
    (second : contribution g.normalized scope path i (name, .value (.entities items)) =
      .ok shown') :
    Counterparts (∀ text, ShowsIn g scope path i name (.entities items) text →
      Text.ReturnsEndLines text.toList) shown shown' := by
  by_cases expands : scope.expands path = true
  · obtain ⟨outlines, named, rfl⟩ := contribution_collection expands first
    obtain ⟨outlines', named', rfl⟩ := contribution_collection expands second
    have same : offPath g.normalized path items = offPath g path items := by
      rw [offPath, offPath, g.name_normalized]
    rw [same, g.name_normalized] at named'
    have size := named.length_eq.symm.trans named'.length_eq
    have empty : outlines.isEmpty = outlines'.isEmpty := by
      rw [Bool.eq_iff_iff, List.isEmpty_iff_length_eq_zero, List.isEmpty_iff_length_eq_zero, size]
    have texts := names_respelled named named' fun j member => by
      obtain ⟨listed, fresh⟩ := mem_offPath.mp member
      exact blocks j ⟨expands, fresh, .inr ⟨items, rfl, listed⟩⟩
    rw [collection, collection, ← empty]
    refine (node_counterparts _ List.isEmpty_iff.mp empty fun level => texts (level + 1)).congr ?_
    constructor
    · rintro within text (⟨⟨unexpanded, -⟩, -⟩ | ⟨j, ⟨-, fresh, ⟨⟨⟩, -⟩ | ⟨_, ⟨⟩, listed⟩⟩, shows⟩)
      · simp [expands] at unexpanded
      · exact within j (mem_offPath.mpr ⟨listed, fresh⟩) text shows
    · intro within j member text shows
      obtain ⟨listed, fresh⟩ := mem_offPath.mp member
      exact within text (.inr ⟨j, ⟨expands, fresh, .inr ⟨items, rfl, listed⟩⟩, shows⟩)
  · rw [Bool.not_eq_true] at expands
    by_cases none : items = []
    · subst none
      obtain rfl := Except.ok.inj first
      obtain rfl := Except.ok.inj second
      exact (Counterparts.refl none).congr (by simp [ShowsIn, Unexpanded, Expands])
    · have some : AttributeValue.entities items ≠ .entities [] := by simpa using none
      rw [contribution_unexpanded expands (by simp) some] at first
      rw [contribution_unexpanded expands (by simp) some] at second
      obtain rfl := Except.ok.inj first
      obtain rfl := Except.ok.inj second
      exact unexpanded_counterparts ⟨expands, none⟩ (by simp [Expands, expands])

/-- What an attribute adds to a block in both captures. -/
theorem contribution_counterparts
    (blocks : ∀ j, Expands g scope path value j →
      BlocksRespelled g scope (path.insert (g.name i)) j)
    (first : contribution g scope path i (name, .value value) = .ok shown)
    (second : contribution g.normalized scope path i (name, .value value.normalized) =
      .ok shown') :
    Counterparts (∀ text, ShowsIn g scope path i name value text →
      Text.ReturnsEndLines text.toList) shown shown' := by
  cases value with
  | scalar | scalars | null =>
    obtain rfl := Except.ok.inj first
    obtain rfl := Except.ok.inj second
    exact unexpanded_counterparts trivial (by simp [Expands])
  | ref target => exact reference_counterparts blocks first second
  | entities items => exact collection_counterparts blocks first second

end Contributions

/-- The blocks of an entity in both captures. -/
theorem blocks_respelled (g : Graph n) (scope : Scope) (path : Path) (i : Fin n) :
    BlocksRespelled g scope path i := by
  induction path, i using nesting_induction g scope with
  | step path i ih =>
    intro made made' first second
    obtain ⟨shown, rfl, each⟩ := contributions_of_block first
    obtain ⟨shown', rfl, each'⟩ := contributions_of_block second
    rw [g.entity_normalized, Entity.described_normalized] at each' ⊢
    have counterparts : ∀ entry ∈ (g.entity i).described,
        Counterparts (∀ value, entry.2 = .value value → ∀ text,
          ShowsIn g scope path i entry.1 value text → Text.ReturnsEndLines text.toList)
          (shown entry) (shown' (entry.1, entry.2.normalized)) := by
      rintro ⟨name, held⟩ member
      have added := each _ member
      have added' := each' _ (List.mem_map_of_mem member)
      cases held with
      | malformed | unreadable => contradiction
      | value value =>
        have blocks (j : Fin n) (expands : Expands g scope path value j) :
            BlocksRespelled g scope (path.insert (g.name i)) j := by
          obtain ⟨stands, describes⟩ := mem_described.mp member
          obtain ⟨expands, fresh, shown⟩ := expands
          exact ih j ⟨expands, fresh, name, value, stands, describes, shown⟩
        exact (contribution_counterparts blocks added added').congr (by simp)
    rw [List.filterMap_map]
    constructor
    · rw [Bool.eq_iff_iff, List.isEmpty_iff, List.isEmpty_iff, List.filterMap_eq_nil_iff,
        List.filterMap_eq_nil_iff]
      refine forall₂_congr fun entry member => ?_
      have given := (counterparts entry member).given
      rw [← Option.isNone_iff_eq_none, ← Option.isNone_iff_eq_none, Function.comp_apply,
        ← Option.not_isSome, ← Option.not_isSome, given]
    · intro level
      rw [Outline.levelsOf_filterMap, Outline.levelsOf_filterMap]
      refine (Respelled.flatMap fun entry member =>
        (counterparts entry member).respelled level).congr ?_
      constructor
      · intro within text shows
        obtain ⟨name, value, member, shows⟩ := shows_iff.mp shows
        exact within _ member value rfl text shows
      · rintro within ⟨name, _⟩ member value rfl text shows
        exact within text (shows_iff.mpr ⟨name, value, member, shows⟩)

theorem expanded_normalized (g : Graph n) (scope : Scope) (path : Path)
    (value : AttributeValue (Fin n)) :
    expanded g scope path value.normalized = expanded g scope path value := by
  cases value <;> rfl

/-- What cannot be read cannot be read in either capture. -/
theorem failures_normalized (g : Graph n) (scope : Scope) (path : Path) (i : Fin n) :
    failures g.normalized scope path i = failures g scope path i := by
  induction path, i using nesting_induction g scope with
  | step path i ih =>
    rw [failures, failures, g.entity_normalized, Entity.described_normalized, List.flatMap_map]
    apply List.flatMap_congr
    rintro ⟨name, held⟩ member
    cases held with
    | malformed | unreadable =>
      simp only [attributeFailures, Attribute.normalized, Attribute.read, g.name_normalized]
    | value value =>
      simp only [attributeFailures, Attribute.normalized, Attribute.read, g.name_normalized]
      rw [← expanded_normalized g scope path value]
      refine flatMap_expanded_congr g.name_normalized (funext g.type_normalized) ?_
      intro found opened
      rw [expanded_normalized] at opened
      exact ih found (nests_iff.mpr ⟨name, value, found, member, opened, rfl⟩)

end Expansion

namespace Report

variable {s : Snapshot n} {depth : Number} {key : GroupKey} {type : TypeTag} {i : Fin n}

theorem ownedEntries_normalized (s : Snapshot n) (key : GroupKey) (list : List (Fin n)) :
    ownedEntries s.normalized key list = ownedEntries s key list := by
  have entity (j : Fin n) : s.normalized.graph.entity j = (s.graph.entity j).normalized :=
    s.graph.entity_normalized j
  simp only [ownedEntries, owns, entity]
  rfl

theorem owned_normalized (s : Snapshot n) (key : GroupKey) (list : List (Fin n)) :
    owned s.normalized key list = owned s key list := by
  rw [← map_fst_ownedEntries, ← map_fst_ownedEntries, ownedEntries_normalized]

theorem sections_normalized (s : Snapshot n) : sections s.normalized = sections s := by
  have same (key : GroupKey) : sectionOf s.normalized key = sectionOf s key := by
    simp only [sectionOf, ownedEntries_normalized]
    rfl
  rw [sections, sections, List.map_congr_left fun key _ => same key]
  rfl

theorem failures_normalized (s : Snapshot n) (depth : Number) :
    failures s.normalized depth = failures s depth := by
  have listing (key : GroupKey) :
      listingFailures s.normalized depth key = listingFailures s depth key := by
    funext type
    rw [listingFailures, listingFailures,
      show s.normalized.entitiesOf type = s.entitiesOf type from rfl]
    cases s.entitiesOf type with
    | error failure => rfl
    | ok list =>
      simp only [owned_normalized, show s.normalized.graph = s.graph.normalized from rfl,
        s.graph.name_normalized, Expansion.failures_normalized]
      rfl
  simp only [failures, listing]
  rfl

/-- The texts that are only shown and stand in the block of a listed entity. -/
def Shows (s : Snapshot n) (depth : Number) (text : String) : Prop :=
  ∃ key type i, Lists s key type i ∧
    Expansion.Shows s.graph (scope s depth) (Path.empty.insert (s.graph.name i)) i text

/-- Every carriage return in what is shown of a listed entity ends a line. -/
def Settled (s : Snapshot n) (depth : Number) (i : Fin n) : Prop :=
  ∀ text, Expansion.Shows s.graph (scope s depth) (Path.empty.insert (s.graph.name i)) i text →
    Text.ReturnsEndLines text.toList

section Respelled

open Outline (Respelled levels levelsOf)

theorem spaced_respelled {α : Type} {p : α → Prop} {f f' : α → Outline} {list : List α}
    (each : ∀ a ∈ list, Respelled (p a) ((f a).levels 1) ((f' a).levels 1)) :
    Respelled (∀ a ∈ list, p a) (levelsOf 1 (spaced (list.map f)))
      (levelsOf 1 (spaced (list.map f'))) := by
  induction list with
  | nil => exact (Respelled.refl _).congr (by simp)
  | cons a rest ih =>
    have first := each a List.mem_cons_self
    have others := ih fun b member => each b (List.mem_cons_of_mem a member)
    cases rest with
    | nil => simpa [spaced, levelsOf] using first
    | cons b rest =>
      have texts := (first.append (Respelled.refl (levels 1 .gap))).append others
      simpa [spaced, levelsOf] using texts.congr (by simp)

theorem header_respelled (s : Snapshot n) :
    Respelled (∀ field ∈ s.source.fields, field.toList.getLast? ≠ some '\r')
      (levelsOf 0 (header s)) (levelsOf 0 (header s.normalized)) := by
  have url := Respelled.margin (by decide : "Database snapshot for ".toList.getLast? = _)
    s.source.url
  have product := Respelled.margin (by decide : "Database type: ".toList.getLast? = _)
    s.source.productName
  have version := Respelled.margin (by decide : "Database version: ".toList.getLast? = _)
    s.source.productVersion
  have user := Respelled.margin (by decide : "Database user: ".toList.getLast? = _) s.source.user
  have rest := Respelled.refl (levelsOf 0 [.node "Included types:"
    ((TypeTag.sort s.types).map fun type => .leaf type.fullName)])
  have texts := url.append ((Respelled.refl [(0, divider)]).append
    (product.append (version.append (user.append rest))))
  exact texts.congr (by simp [Source.fields])

/-- The block of a listed entity. -/
theorem blockOf_respelled {made made' : List Outline} (done : outlines s depth = .ok made)
    (done' : outlines s.normalized depth = .ok made') (lists : Lists s key type i)
    (lists' : Lists s.normalized key type i) :
    Respelled (Settled s depth i) ((blockOf s depth i).levels 2)
      ((blockOf s.normalized depth i).levels 2) := by
  obtain ⟨block, within, outline⟩ :=
    Expansion.entityOutline_eq_ok_iff.mp (entityOutline_of_lists done lists)
  obtain ⟨block', within', outline'⟩ :=
    Expansion.entityOutline_eq_ok_iff.mp (entityOutline_of_lists done' lists')
  have graph : s.normalized.graph = s.graph.normalized := rfl
  rw [graph, s.graph.name_normalized] at within' outline'
  rw [outline, outline']
  have texts := (Expansion.blocks_respelled s.graph (scope s depth) _ i block block' within
    within').2 2
  exact ((Respelled.refl [(2, s.graph.name i)]).append texts).congr (by simp [Settled])

theorem listing_respelled {made made' : List Outline} (done : outlines s depth = .ok made)
    (done' : outlines s.normalized depth = .ok made') {shown : Section n} {listing : Listing n}
    (reported : shown ∈ sections s) (listed : listing ∈ shown.listings) :
    Respelled (∀ entry ∈ listing.entries, Settled s depth entry.1)
      (levels 1 (.node (listing.type.fullName ++ ":")
        (listing.entries.map fun entry => blockOf s depth entry.1)))
      (levels 1 (.node (listing.type.fullName ++ ":")
        (listing.entries.map fun entry => blockOf s.normalized depth entry.1))) := by
  have blocks : Respelled (∀ entry ∈ listing.entries, Settled s depth entry.1)
      (listing.entries.flatMap fun entry => (blockOf s depth entry.1).levels 2)
      (listing.entries.flatMap fun entry => (blockOf s.normalized depth entry.1).levels 2) := by
    apply Respelled.flatMap
    intro entry member
    have lists : Lists s shown.key listing.type entry.1 :=
      lists_iff_entry.mpr ⟨shown, reported, rfl, listing, listed, rfl, entry.2, member⟩
    have lists' : Lists s.normalized shown.key listing.type entry.1 := by
      apply lists_iff_entry.mpr
      rw [sections_normalized]
      exact ⟨shown, reported, rfl, listing, listed, rfl, entry.2, member⟩
    exact blockOf_respelled done done' lists lists'
  have texts := (Respelled.refl [(1, listing.type.fullName ++ ":")]).append blocks
  simpa [levels, Outline.levelsOf_eq_flatMap, List.flatMap_map] using texts.congr (by simp)

theorem section_respelled {made made' : List Outline} (done : outlines s depth = .ok made)
    (done' : outlines s.normalized depth = .ok made') {shown : Section n}
    (reported : shown ∈ sections s) :
    Respelled (∀ listing ∈ shown.listings, ∀ entry ∈ listing.entries, Settled s depth entry.1)
      (levelsOf 0 [.gap, shown.outline s.twoLevel (blockOf s depth)])
      (levelsOf 0 [.gap, shown.outline s.twoLevel (blockOf s.normalized depth)]) := by
  have placed (block : Fin n → Outline) :
      levelsOf 0 [.gap, shown.outline s.twoLevel block] =
        [(0, ""), (0, groupTitle s.twoLevel shown.key)] ++ levelsOf 1 (spaced
          (shown.listings.map fun listing => .node (listing.type.fullName ++ ":")
            (listing.entries.map fun entry => block entry.1))) := by
    simp [levelsOf, levels, Outline.gap, Outline.leaf, Section.outline]
  have listings := spaced_respelled fun listing => listing_respelled done done' reported
  have texts := (Respelled.refl [(0, ""), (0, groupTitle s.twoLevel shown.key)]).append listings
  rw [placed, placed]
  exact texts.congr (Iff.of_eq (true_and _))

/-- Where there is a report, the two captures come to the same one exactly if no text at the margin
ends with a carriage return, and in the others every carriage return ends a line. -/
theorem text_normalized_eq_ok_iff {shown : String} (done : text s depth = .ok shown) :
    text s.normalized depth = .ok shown ↔
      (∀ field ∈ s.source.fields, field.toList.getLast? ≠ some '\r') ∧
        ∀ text, Shows s depth text → Text.ReturnsEndLines text.toList := by
  obtain ⟨made, all, rfl⟩ := text_eq_ok_iff.mp done
  have readable : failure? (text s.normalized depth) = none := by
    rw [failure?_text, failures_normalized, ← failure?_text, done]
    rfl
  obtain ⟨shown', done'⟩ := failure?_eq_none_iff.mp readable
  obtain ⟨made', all', rfl⟩ := text_eq_ok_iff.mp done'
  obtain rfl := (outlines_of_ok all).2
  have same := (outlines_of_ok all').2
  rw [sections_normalized] at same
  obtain rfl := same
  have whole := (header_respelled s).append
    (Respelled.flatMap fun shown reported => section_respelled all all' reported)
  have placed (header : List Outline) (block : Fin n → Outline) :
      levelsOf 0 (header ++ (sections s).flatMap fun shown =>
        [.gap, shown.outline s.twoLevel block]) =
      levelsOf 0 header ++ (sections s).flatMap fun shown =>
        levelsOf 0 [.gap, shown.outline s.twoLevel block] := by
    simp only [Outline.levelsOf_eq_flatMap, List.flatMap_append, List.flatMap_assoc]
  rw [done', Except.ok.injEq, ← String.toList_inj, ← Text.lines_inj,
    Outline.lines_normalized (by simp [header]), Outline.lines_normalized (by simp [header]),
    List.append_left_inj, eq_comm, placed, show s.normalized.twoLevel = s.twoLevel from rfl, placed,
    whole.same]
  refine and_congr_right fun _ => ?_
  constructor
  · rintro settled text ⟨key, type, i, lists, shows⟩
    obtain ⟨shown, reported, -, listing, listed, -, place, entry⟩ := lists_iff_entry.mp lists
    exact settled shown reported listing listed (i, place) entry text shows
  · rintro ends shown reported listing listed ⟨i, place⟩ entry text shows
    exact ends text ⟨shown.key, listing.type, i,
      lists_iff_entry.mpr ⟨shown, reported, rfl, listing, listed, rfl, place, entry⟩, shows⟩

end Respelled

/-- The line ends of captured texts have no bearing on whether there is a report, and what stands in
its way otherwise. They have none on the report exactly if no text at the margin ends with a
carriage return, and each carriage return in a block ends a line that is not empty. -/
theorem text_normalized_eq_iff (s : Snapshot n) (depth : Number) :
    text s.normalized depth = text s depth ↔ ∀ shown, text s depth = .ok shown →
      (∀ field ∈ s.source.fields, field.toList.getLast? ≠ some '\r') ∧
        ∀ text, Shows s depth text → Text.ReturnsEndLines text.toList := by
  cases done : text s depth with
  | ok shown =>
    rw [text_normalized_eq_ok_iff done]
    simp
  | error failure =>
    have failed : failure? (text s.normalized depth) = some failure := by
      rw [failure?_text, failures_normalized, ← failure?_text, done]
      rfl
    simp [failure?_eq_some_iff.mp failed]

/-- An entity with a text whose two lines are told apart by a carriage return alone. -/
def torn : Snapshot 1 where
  graph := ⟨#v[⟨⟨"t"⟩, "e", some ⟨"c", .named "c"⟩,
    ⟨[("x", .value (.scalar (.text "a\rb")))], by simp⟩, none⟩]⟩
  source := ⟨"u", "p", "v", "w"⟩
  structural := ⟨⟨"g"⟩, none, none⟩
  types := [⟨"t"⟩]
  groups := [some ⟨"c", .named "c"⟩]
  twoLevel := true
  buckets := ⟨[("t", [0])], List.nodup_singleton "t"⟩

/-- The second line is not moved to where it belongs. -/
theorem torn_text_differs : (∃ shown, text torn .one = .ok shown) ∧
    text torn.normalized .one ≠ text torn .one := by
  have readable : Readable torn .one := by
    constructor
    · decide
    · intro _ type included _
      obtain rfl : type = ⟨"t"⟩ := List.mem_singleton.mp included
      exact ⟨[0], rfl⟩
    · intro _ _ _ _ _ _ j _ name held stands _
      match j with
      | 0 =>
        obtain ⟨rfl, rfl⟩ := Prod.mk.inj (List.mem_singleton.mp stands)
        exact ⟨_, rfl⟩
  obtain ⟨shown, done⟩ := text_of_readable readable
  refine ⟨⟨shown, done⟩, fun same => ?_⟩
  rw [done, text_normalized_eq_ok_iff done] at same
  have lists : Lists torn ⟨"c", .named "c"⟩ ⟨"t"⟩ 0 :=
    ⟨by decide, by decide, by decide, ⟨[0], rfl, by decide⟩, rfl⟩
  have shows : Shows torn .one "a\rb" :=
    ⟨_, _, 0, lists, .own (Expansion.mem_described.mpr ⟨List.mem_singleton_self _, by decide⟩)
      trivial rfl⟩
  obtain ⟨behind, -⟩ := same.2 _ shows ['a'] ['b'] rfl
  exact absurd behind (by decide)

end Report

end SnapshotReport
