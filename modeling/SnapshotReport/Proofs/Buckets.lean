import Mathlib.Data.List.Induction
import Mathlib.Data.List.Perm.Basic
import SnapshotReport.Snapshot

/-! What the buckets of a list of entities hold. No entity is lost and none comes twice: the bucket of
a type has those of the list that are of this type, in their order, and the buckets together have the
whole list. But there are names under which nothing can be listed, and one entity whose type has such
a name leaves all of them without buckets. -/
namespace SnapshotReport

/-- Taken together by distinct keys, the elements of a list are all there if no key is missing. -/
theorem flatMap_filter_perm {α β : Type} [DecidableEq β] (key : α → β) {keys : List β}
    (distinct : keys.Nodup) {list : List α} (keyed : ∀ a ∈ list, key a ∈ keys) :
    (keys.flatMap fun b => list.filter (key · = b)).Perm list := by
  induction keys generalizing list with
  | nil =>
    obtain rfl : list = [] := List.eq_nil_iff_forall_not_mem.mpr fun a member =>
      List.not_mem_nil (keyed a member)
    exact .nil
  | cons first rest ih =>
    obtain ⟨apart, distinct⟩ := List.nodup_cons.mp distinct
    -- What has another key than the first is all that the remaining keys can take.
    have others : rest.flatMap (fun b => list.filter (key · = b)) =
        rest.flatMap fun b => (list.filter (key · ≠ first)).filter (key · = b) := by
      apply List.flatMap_congr
      intro b member
      rw [List.filter_filter]
      apply List.filter_congr
      intro a _
      have differs : b ≠ first := fun same => apart (same ▸ member)
      by_cases here : key a = b
      · simp [here, differs]
      · simp [here]
    have remaining : (rest.flatMap fun b => (list.filter (key · ≠ first)).filter (key · = b)).Perm
        (list.filter (key · ≠ first)) := by
      apply ih distinct
      intro a member
      obtain ⟨listed, differs⟩ := List.mem_filter.mp member
      exact (List.mem_cons.mp (keyed a listed)).resolve_left (of_decide_eq_true differs)
    rw [List.flatMap_cons, others]
    refine (remaining.append_left _).trans ?_
    simpa using List.filter_append_perm (key · = first) list

namespace Buckets

variable {n : Nat}

/-- The entities of a list whose type has a name. -/
def ofTypeName (g : Graph n) (listed : List (Fin n)) (typeName : String) : List (Fin n) :=
  listed.filter fun i => (g.type i).fullName = typeName

/-- The type of an entity has a name under which it can be listed. -/
def Listable (g : Graph n) (i : Fin n) : Prop :=
  (g.type i).fullName ∉ reservedNames

instance (g : Graph n) (i : Fin n) : Decidable (Listable g i) :=
  inferInstanceAs (Decidable (_ ∉ _))

/-- Buckets that hold the entities of a list by their types. None of them is empty. -/
def Holds (g : Graph n) (listed : List (Fin n)) (buckets : Buckets n) : Prop :=
  ∀ typeName, buckets.get? typeName =
    if ofTypeName g listed typeName = [] then none else some (ofTypeName g listed typeName)

/-- Lists one entity more in the bucket of its type. -/
def enter (g : Graph n) (buckets : Buckets n) (i : Fin n) : Except ReservedName (Buckets n) :=
  match buckets.find? (g.type i).fullName with
  | some _ => .ok (buckets.append (g.type i).fullName i)
  | none => .error ⟨(g.type i).fullName⟩

variable {g : Graph n} {listed : List (Fin n)} {buckets : Buckets n} {i : Fin n}

theorem ofEntities_append (front back : List (Fin n)) :
    ofEntities g (front ++ back) = ofEntities g front >>= fun buckets => back.foldlM (enter g) buckets :=
  List.foldlM_append

theorem ofTypeName_append (front back : List (Fin n)) (typeName : String) :
    ofTypeName g (front ++ back) typeName = ofTypeName g front typeName ++ ofTypeName g back typeName :=
  List.filter_append ..

theorem holds_nil : Holds g [] ∅ := fun _ => rfl

theorem Holds.getD_eq (holds : Holds g listed buckets) (typeName : String) :
    (buckets.get? typeName).getD [] = ofTypeName g listed typeName := by
  rw [holds typeName]
  split
  · rename_i none
    exact none.symm
  · rfl

theorem Holds.append (holds : Holds g listed buckets) (i : Fin n) :
    Holds g (listed ++ [i]) (buckets.append (g.type i).fullName i) := by
  intro typeName
  rw [Buckets.append, Record.get?_insert, holds.getD_eq, ofTypeName_append]
  by_cases same : typeName = (g.type i).fullName
  · subst same
    simp [ofTypeName]
  · have other : ofTypeName g [i] typeName = [] := by
      simpa [ofTypeName] using Ne.symm same
    rw [if_neg same, other, List.append_nil, holds typeName]

theorem Holds.mem_keys_iff (holds : Holds g listed buckets) (typeName : String) :
    typeName ∈ buckets.keys ↔ ∃ i ∈ listed, (g.type i).fullName = typeName := by
  rw [← not_iff_not, ← Record.get?_eq_none_iff, holds typeName]
  simp [ofTypeName]

/-- Under a reserved name there is no bucket in the way of what stands there already. -/
theorem Holds.find?_eq (holds : Holds g listed buckets) (listable : ∀ i ∈ listed, Listable g i)
    (typeName : String) : buckets.find? typeName =
      if typeName ∈ reservedNames then none else some (ofTypeName g listed typeName) := by
  rw [find?, holds typeName]
  by_cases reserved : typeName ∈ reservedNames
  · have none : ofTypeName g listed typeName = [] := by
      apply List.filter_eq_nil_iff.mpr
      intro i member same
      exact listable i member (of_decide_eq_true same ▸ reserved)
    rw [if_pos none, if_pos reserved]
    exact if_pos (List.contains_iff_mem.mpr reserved)
  · rw [if_neg reserved]
    by_cases none : ofTypeName g listed typeName = []
    · rw [if_pos none, none]
      exact if_neg (mt List.contains_iff_mem.mp reserved)
    · rw [if_neg none]

theorem Holds.enter_eq (holds : Holds g listed buckets) (listable : ∀ i ∈ listed, Listable g i)
    (i : Fin n) : enter g buckets i =
      if Listable g i then .ok (buckets.append (g.type i).fullName i)
      else .error ⟨(g.type i).fullName⟩ := by
  rw [enter, holds.find?_eq listable]
  by_cases reserved : (g.type i).fullName ∈ reservedNames
  · rw [if_pos reserved, if_neg (show ¬Listable g i from not_not_intro reserved)]
  · rw [if_neg reserved, if_pos (show Listable g i from reserved)]

/-- The buckets fill up while the types are listable. -/
theorem ofEntities_of_listable (listable : ∀ i ∈ listed, Listable g i) :
    ∃ buckets, ofEntities g listed = .ok buckets ∧ Holds g listed buckets := by
  induction listed using List.reverseRecOn with
  | nil => exact ⟨∅, rfl, holds_nil⟩
  | append_singleton front i ih =>
    have before := fun j member => listable j (List.mem_append_left _ member)
    obtain ⟨buckets, made, holds⟩ := ih before
    refine ⟨_, ?_, holds.append i⟩
    rw [ofEntities_append, made]
    change enter g buckets i >>= pure = _
    rw [holds.enter_eq before, if_pos (listable i (by simp))]
    rfl

/-- The first type that is not listable ends it. -/
theorem ofEntities_of_not_listable {front back : List (Fin n)}
    (before : ∀ j ∈ front, Listable g j) (reserved : ¬Listable g i) :
    ofEntities g (front ++ i :: back) = .error ⟨(g.type i).fullName⟩ := by
  obtain ⟨buckets, made, holds⟩ := ofEntities_of_listable before
  rw [ofEntities_append, made]
  change (enter g buckets i >>= fun buckets => back.foldlM (enter g) buckets) = _
  rw [holds.enter_eq before, if_neg reserved]
  rfl

theorem exists_first_not_listable (some : ¬∀ i ∈ listed, Listable g i) :
    ∃ front i back, listed = front ++ i :: back ∧ (∀ j ∈ front, Listable g j) ∧ ¬Listable g i := by
  simp only [not_forall] at some
  obtain ⟨i, member, reserved⟩ := some
  have found : (listed.find? fun j => ¬Listable g j).isSome := by
    rw [List.find?_isSome]
    exact ⟨i, member, decide_eq_true reserved⟩
  obtain ⟨first, found⟩ := Option.isSome_iff_exists.mp found
  obtain ⟨refused, front, back, rfl, before⟩ := List.find?_eq_some_iff_append.mp found
  refine ⟨front, first, back, rfl, fun j member => ?_, of_decide_eq_true refused⟩
  simpa using before j member

theorem holds_of_ofEntities (made : ofEntities g listed = .ok buckets) :
    (∀ i ∈ listed, Listable g i) ∧ Holds g listed buckets := by
  by_cases listable : ∀ i ∈ listed, Listable g i
  · obtain ⟨_, made', holds⟩ := ofEntities_of_listable listable
    obtain rfl := Except.ok.inj (made.symm.trans made')
    exact ⟨listable, holds⟩
  · obtain ⟨front, i, back, rfl, before, reserved⟩ := exists_first_not_listable listable
    rw [ofEntities_of_not_listable before reserved] at made
    contradiction

theorem Holds.flatMap_perm (holds : Holds g listed buckets) :
    (buckets.entries.flatMap Prod.snd).Perm listed := by
  have lists : buckets.entries.flatMap Prod.snd = buckets.keys.flatMap (ofTypeName g listed) := by
    rw [Record.keys, List.flatMap_map]
    apply List.flatMap_congr
    rintro ⟨typeName, list⟩ member
    rw [← holds.getD_eq, Record.get?_eq_some_iff.mpr member]
    rfl
  rw [lists]
  apply flatMap_filter_perm (fun i => (g.type i).fullName) buckets.nodup
  intro i member
  exact (holds.mem_keys_iff _).mpr ⟨i, member, rfl⟩

/-- Entities can be listed exactly if all their types are listable; else the first other one is
reported. Under each name there are those entities whose type has it, in their order, and no other
name has a bucket. -/
theorem ofEntities_outcome (g : Graph n) (listed : List (Fin n)) :
    ((∃ buckets, ofEntities g listed = .ok buckets) ↔ ∀ i ∈ listed, Listable g i) ∧
    (∀ typeName, ofEntities g listed = .error ⟨typeName⟩ ↔
      ∃ front i back, listed = front ++ i :: back ∧ (∀ j ∈ front, Listable g j) ∧
        ¬Listable g i ∧ (g.type i).fullName = typeName) ∧
    ∀ buckets, ofEntities g listed = .ok buckets →
      (∀ (s : Snapshot n) (type : TypeTag), s.buckets = buckets →
        s.entitiesOf type =
          if type.fullName ∈ reservedNames then .error (.engine (.notAList type.fullName))
          else .ok (listed.filter fun i => (g.type i).fullName = type.fullName)) ∧
      (∀ typeName, typeName ∈ buckets.keys ↔ ∃ i ∈ listed, (g.type i).fullName = typeName) ∧
      (buckets.entries.flatMap Prod.snd).Perm listed := by
  refine ⟨⟨?_, ?_⟩, fun typeName => ⟨?_, ?_⟩, ?_⟩
  · rintro ⟨buckets, made⟩
    exact (holds_of_ofEntities made).1
  · intro listable
    obtain ⟨buckets, made, -⟩ := ofEntities_of_listable listable
    exact ⟨buckets, made⟩
  · intro refused
    have some : ¬∀ i ∈ listed, Listable g i := by
      intro listable
      obtain ⟨buckets, made, -⟩ := ofEntities_of_listable listable
      rw [made] at refused
      contradiction
    obtain ⟨front, i, back, rfl, before, reserved⟩ := exists_first_not_listable some
    rw [ofEntities_of_not_listable before reserved] at refused
    obtain rfl := ReservedName.mk.inj (Except.error.inj refused)
    exact ⟨front, i, back, rfl, before, reserved, rfl⟩
  · rintro ⟨front, i, back, rfl, before, reserved, rfl⟩
    exact ofEntities_of_not_listable before reserved
  · intro buckets made
    obtain ⟨listable, holds⟩ := holds_of_ofEntities made
    refine ⟨?_, holds.mem_keys_iff, holds.flatMap_perm⟩
    rintro s type rfl
    rw [Snapshot.entitiesOf, holds.find?_eq listable]
    by_cases reserved : type.fullName ∈ reservedNames
    · rw [if_pos reserved, if_pos reserved]
    · rw [if_neg reserved, if_neg reserved]
      rfl

/-- Entities of two types by turns, one of them listed twice. -/
def interleaved : Snapshot 3 where
  graph := ⟨#v[⟨⟨"t"⟩, "a", none, ∅, none⟩, ⟨⟨"v"⟩, "b", none, ∅, none⟩, ⟨⟨"t"⟩, "c", none, ∅, none⟩]⟩
  source := ⟨"u", "p", "v", "w"⟩
  structural := ⟨⟨"g"⟩, none, none⟩
  types := [⟨"t"⟩, ⟨"v"⟩]
  groups := []
  twoLevel := true
  buckets := ⟨[("t", [2, 0, 2]), ("v", [1])], by simp⟩

theorem interleaved_listed :
    ofEntities interleaved.graph [2, 1, 0, 2] = .ok interleaved.buckets ∧
    interleaved.entitiesOf ⟨"t"⟩ = .ok [2, 0, 2] ∧ interleaved.entitiesOf ⟨"x"⟩ = .ok [] ∧
    ([2, 0, 2, 1] : List (Fin 3)).Perm [2, 1, 0, 2] := by
  have made : ofEntities interleaved.graph [2, 1, 0, 2] = .ok interleaved.buckets := by rfl
  obtain ⟨listing, -, whole⟩ := (ofEntities_outcome interleaved.graph [2, 1, 0, 2]).2.2 _ made
  exact ⟨made, listing interleaved ⟨"t"⟩ rfl, listing interleaved ⟨"x"⟩ rfl, whole⟩

/-- An entity whose type has a reserved name. -/
def unlistable : Graph 1 :=
  ⟨#v[⟨⟨"constructor"⟩, "e", none, ∅, none⟩]⟩

/-- The names are not blank, but the entity cannot be listed; and without it there is still no list
of entities of its type, not even an empty one. -/
theorem reserved_type_not_listed : Text.allBlank "constructor" = false ∧ Text.allBlank "e" = false ∧
    ofEntities unlistable [0] = .error ⟨"constructor"⟩ ∧ ofEntities unlistable [] = .ok ∅ ∧
    find? (∅ : Buckets 1) "constructor" = none := by
  refine ⟨by decide, by decide, rfl, rfl, rfl⟩

end Buckets

end SnapshotReport
