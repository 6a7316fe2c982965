import SnapshotReport.Proofs.Nesting.Contribution
import SnapshotReport.Proofs.Nesting.Depth
import SnapshotReport.Proofs.Nesting.Position

/-! The entities that a nested entity stands within. Their names are the path to it, so none of them
is shown again: references back to them are dropped, whatever the depth. Its own name comes onto the
path only with what it expands. So an entity may stand directly within one of the same name, if that
is not the listed one; else no name comes twice from the listed entity down to a nested one. -/
namespace SnapshotReport.Expansion

variable {n : Nat}

/-- Entity `j` stands within the listed entity `i` at the end of a path, or is that entity itself.
The entities that it stands within are given from the nearest to the listed one. -/
inductive Stands (g : Graph n) (scope : Scope) (i : Fin n) : List (Fin n) → Path → Fin n → Prop where
  | listed : Stands g scope i [] (Path.empty.insert (g.name i)) i
  | nested {above path j k} : Stands g scope i above path j → Nests g scope path j k →
      Stands g scope i (j :: above) (path.insert (g.name j)) k

variable {g : Graph n} {scope : Scope} {path : Path} {i j k : Fin n} {above : List (Fin n)}

/-- The path to an entity has the names of those it stands within, and for the listed one its own. -/
theorem Stands.mem_path_iff (stands : Stands g scope i above path j) (name : String) :
    name ∈ path ↔ name ∈ (i :: above).map g.name := by
  induction stands with
  | listed =>
    rw [Path.mem_insert, List.map_cons, List.map_nil, List.mem_singleton]
    exact or_iff_left List.not_mem_nil
  | nested _ _ ih =>
    rw [Path.mem_insert, ih]
    simp only [List.map_cons, List.mem_cons]
    exact or_left_comm

theorem Stands.block_ok (stands : Stands g scope i above path j)
    (done : ∃ made, block g scope (Path.empty.insert (g.name i)) i = .ok made) :
    ∃ made, block g scope path j = .ok made := by
  induction stands with
  | listed => exact done
  | nested _ nests ih => exact nests.block_ok ih

/-- From a nested entity up to the listed one, a name comes again only right above its first place,
and there it is not the name of the listed entity. -/
theorem Stands.place_eq (stands : Stands g scope i above path j) {name : String} {a b : Nat}
    (below : a < b) (first : ((j :: above).map g.name)[a]? = some name)
    (second : ((j :: above).map g.name)[b]? = some name) : b = a + 1 ∧ b < above.length := by
  induction stands generalizing a b with
  | listed =>
    obtain ⟨within, -⟩ := List.getElem?_eq_some_iff.mp second
    simp only [List.map_cons, List.map_nil, List.length_singleton] at within
    omega
  | @nested above path j k stands nests ih =>
    obtain ⟨b, rfl⟩ := Nat.exists_eq_add_one_of_ne_zero (Nat.ne_zero_of_lt below)
    rw [List.map_cons, List.getElem?_cons_succ] at second
    cases a with
    | succ a =>
      obtain ⟨next, inner⟩ := ih (Nat.lt_of_succ_lt_succ below) first second
      exact ⟨congrArg (· + 1) next, Nat.succ_lt_succ inner⟩
    | zero =>
      -- The name of `k` is new to the path of `j`, so of those above `k` only `j` can have it.
      obtain rfl : g.name k = name := Option.some.inj first
      have fresh : g.name k ∉ (i :: above).map g.name :=
        mt (stands.mem_path_iff _).mpr nests.fresh
      rw [List.map_cons, List.mem_cons, not_or] at fresh
      cases b with
      | succ b =>
        rw [List.map_cons, List.getElem?_cons_succ] at second
        exact absurd (List.mem_of_getElem? second) fresh.2
      | zero =>
        refine ⟨rfl, Nat.succ_lt_succ (List.length_pos_iff.mpr fun none => ?_)⟩
        subst none
        cases stands
        exact fresh.1 (Option.some.inj second).symm

theorem Stands.offPath_eq (stands : Stands g scope i above path j) (items : List (Fin n)) :
    offPath g path items = items.filter fun k => g.name k ∉ (i :: above).map g.name := by
  apply List.filter_congr
  intro k _
  rw [decide_eq_decide, stands.mem_path_iff]

/-- Once the outline of the listed entity is made, so is the block of each entity within it. -/
theorem Stands.contributions (stands : Stands g scope i above path j) {outline : Outline}
    (done : entityOutline g scope i = .ok outline) :
    ∃ shown : String × Attribute (Fin n) → Option Outline,
      block g scope path j = .ok ((g.entity j).described.filterMap shown) ∧
      ∀ entry ∈ (g.entity j).described, contribution g scope path j entry = .ok (shown entry) := by
  obtain ⟨made, whole, -⟩ := entityOutline_eq_ok_iff.mp done
  obtain ⟨inner, within⟩ := stands.block_ok ⟨made, whole⟩
  obtain ⟨shown, rfl, each⟩ := contributions_of_block within
  exact ⟨shown, within, each⟩

/-- What a reference to an entity off the path adds: the name of the target with its block where the
path admits expansion, else the text of the reference. -/
def ShowsReference (g : Graph n) (scope : Scope) (path : Path) (j : Fin n) (name : String)
    (target : Fin n) (shown : Option Outline) : Prop :=
  if scope.expands path then
    ∃ made, block g scope (path.insert (g.name j)) target = .ok made ∧
      shown = reference name (g.name target) made
  else shown = line name (g.display j name (.ref target))

theorem showsReference_of_ok {name : String} {target : Fin n} {shown : Option Outline}
    (kept : scope.hides (g.type target) = false) (fresh : g.name target ∉ path)
    (added : contribution g scope path j (name, .value (.ref target)) = .ok shown) :
    ShowsReference g scope path j name target shown := by
  unfold ShowsReference
  split
  · rename_i expands
    exact contribution_reference expands kept fresh added
  · rename_i unexpanded
    rw [contribution_unexpanded (Bool.eq_false_of_not_eq_true unexpanded)
      (fun _ same => AttributeValue.ref.inj same ▸ ⟨kept, fresh⟩) (by simp)] at added
    exact (Except.ok.inj added).symm

/-- No entity shown within a listed one, however deep, refers back to those that it stands within.
All other references and elements are shown, also those that have the name of the entity itself. So
a name comes twice only for an entity directly within one of the same name that is not listed. -/
theorem back_references_dropped (g : Graph n) (scope : Scope) (i : Fin n) (outline : Outline)
    (done : entityOutline g scope i = .ok outline) (above : List (Fin n)) (path : Path) (j : Fin n)
    (stands : Stands g scope i above path j) :
    (∃ shown : String × Attribute (Fin n) → Option Outline,
      block g scope path j = .ok ((g.entity j).described.filterMap shown) ∧
      (∀ name value, (name, .value value) ∈ (g.entity j).described →
        Contributes g scope path j name (shown (name, .value value))) ∧
      (∀ name target, (name, .value (.ref target)) ∈ (g.entity j).described →
        (g.name target ∈ (i :: above).map g.name →
          shown (name, .value (.ref target)) = none) ∧
        (g.name target ∉ (i :: above).map g.name → scope.hides (g.type target) = false →
          ShowsReference g scope path j name target (shown (name, .value (.ref target))))) ∧
      (∀ name items, (name, .value (.entities items)) ∈ (g.entity j).described →
        scope.expands path = true →
        ∃ outlines, List.Forall₂ (Names g scope (path.insert (g.name j)))
            (items.filter fun k => g.name k ∉ (i :: above).map g.name) outlines ∧
          shown (name, .value (.entities items)) = collection name outlines)) ∧
    (∀ name a b, a < b → ((j :: above).map g.name)[a]? = some name →
      ((j :: above).map g.name)[b]? = some name → b = a + 1 ∧ b < above.length) := by
  refine ⟨?_, fun name a b below first second => stands.place_eq below first second⟩
  obtain ⟨shown, within, each⟩ := stands.contributions done
  refine ⟨shown, within, ?_, ?_, ?_⟩
  · intro name value describes
    exact contributes_of_ok describes (each _ describes)
  · intro name target describes
    have added := each _ describes
    rw [← stands.mem_path_iff]
    constructor
    · intro known
      rw [contribution_suppressed (.inr known)] at added
      exact (Except.ok.inj added).symm
    · intro fresh kept
      exact showsReference_of_ok kept fresh added
  · intro name items describes expands
    rw [← stands.offPath_eq]
    exact contribution_collection expands (each _ describes)

theorem stands_selfReference : Stands selfReference ⟨.one, none⟩ 0 [1, 0]
    (((Path.empty.insert "a").insert "a").insert "b") 1 := by
  have outer : Nests selfReference ⟨.one, none⟩ (Path.empty.insert "a") 0 1 :=
    ⟨by decide, by decide, "next", .ref 1, List.mem_singleton_self _, by decide, .inl ⟨rfl, rfl⟩⟩
  have inner : Nests selfReference ⟨.one, none⟩ ((Path.empty.insert "a").insert "a") 1 1 :=
    ⟨by decide, by decide, "next", .ref 1, List.mem_singleton_self _, by decide, .inl ⟨rfl, rfl⟩⟩
  exact .nested (.nested .listed outer) inner

theorem selfReference_outline : entityOutline selfReference ⟨.one, none⟩ 0 =
    .ok (.node "a" [.node "next: b" [.leaf "next: b"]]) :=
  entityOutline_eq_unrolled 5 (by decide)

/-- Where the second entity stands within itself, its reference to itself is dropped. -/
theorem inner_reference_dropped : ∃ shown : String × Attribute (Fin 2) → Option Outline,
    block selfReference ⟨.one, none⟩ (((Path.empty.insert "a").insert "a").insert "b") 1 =
      .ok ((selfReference.entity 1).described.filterMap shown) ∧
    shown ("next", .value (.ref 1)) = none := by
  obtain ⟨⟨shown, made, -, references, -⟩, -⟩ :=
    back_references_dropped selfReference ⟨.one, none⟩ 0 _ selfReference_outline [1, 0] _ 1
      stands_selfReference
  have describes : ("next", .value (.ref 1)) ∈ (selfReference.entity 1).described := by
    rw [mem_described]
    exact ⟨List.mem_singleton_self _, by decide⟩
  exact ⟨shown, made, (references "next" 1 describes).1 (by decide)⟩

/-- Where it stands within the first entity alone, the same reference is shown, and an entity stands
within one of its own name. -/
theorem own_name_shown_below :
    contribution selfReference ⟨.one, none⟩ ((Path.empty.insert "a").insert "a") 1
      ("next", .value (.ref 1)) = .ok (some (.leaf "next: b")) ∧
    Stands selfReference ⟨.one, none⟩ 0 [1, 0]
      (((Path.empty.insert "a").insert "a").insert "b") 1 ∧
    ¬([(1 : Fin 2), 1, 0].map selfReference.name).Nodup ∧
    entityOutline selfReference ⟨.one, none⟩ 0 =
      .ok (.node "a" [.node "next: b" [.leaf "next: b"]]) := by
  have below : block selfReference ⟨.one, none⟩
      (((Path.empty.insert "a").insert "a").insert (selfReference.name 1)) 1 = .ok [] :=
    block_eq_unrolled 5 (by decide)
  refine ⟨?_, stands_selfReference, by decide, selfReference_outline⟩
  change (do return reference "next" "b" (← block selfReference _ _ 1)) = _
  rw [below]
  rfl

end SnapshotReport.Expansion
