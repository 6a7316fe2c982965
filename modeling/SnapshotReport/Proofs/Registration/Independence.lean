import SnapshotReport.Proofs.Registration.Chronicle

/-! Registration in any order. Serializers whose ids differ, not counting blanks around them, can be
registered one after the other in whatever order they come: none is refused, and the registry is the
same in the end. So is what is picked from it. -/
namespace SnapshotReport.Registry

/-- Registers serializers one after the other. None may take the place of another. -/
def registerAll (list : List Serializer) : Except RegistrationError Registry :=
  list.foldlM (fun r s => (r.register s false).map Prod.fst) empty

/-- No id is blank, and no two are the same but for blanks around them. -/
structure Distinct (list : List Serializer) : Prop where
  visible : ∀ s ∈ list, Text.trim s.id ≠ ""
  apart : (list.map fun s => Text.trim s.id).Nodup

variable {list list' : List Serializer} {s t : Serializer}

theorem id_eq_of_byId (same : byId s t = .eq) : s.id = t.id :=
  Std.LawfulEqCmp.eq_of_compare same

theorem Distinct.perm (distinct : Distinct list) (perm : list.Perm list') : Distinct list' where
  visible s member := distinct.visible s (perm.mem_iff.mpr member)
  apart := (perm.map _).nodup_iff.mp distinct.apart

theorem Distinct.eq_of_id (distinct : Distinct list) (memS : s ∈ list) (memT : t ∈ list)
    (same : s.id = t.id) : s = t :=
  List.inj_on_of_nodup_map distinct.apart memS memT (congrArg Text.trim same)

theorem Distinct.lt_of_isLE (distinct : Distinct list) (memS : s ∈ list) (memT : t ∈ list)
    (le : (byId s t).isLE) (other : t ≠ s) : byId s t = .lt := by
  cases compared : byId s t with
  | lt => rfl
  | eq => exact absurd (distinct.eq_of_id memS memT (id_eq_of_byId compared)).symm other
  | gt => simp [compared] at le

/-- An id that is looked for is not found among others, even if these are stored with blanks. -/
theorem Distinct.not_mem_ids {front : List Serializer} (distinct : Distinct (front ++ [s])) :
    Text.trim s.id ∉ front.map (·.id) := by
  intro found
  obtain ⟨t, member, same⟩ := List.mem_map.mp found
  have apart := distinct.apart
  rw [List.map_append, List.map_singleton, List.nodup_append] at apart
  have listed : Text.trim t.id ∈ front.map fun s => Text.trim s.id :=
    List.mem_map.mpr ⟨t, member, rfl⟩
  have other : Text.trim t.id ≠ Text.trim s.id :=
    apart.2.2 (Text.trim t.id) listed (Text.trim s.id) (List.mem_singleton_self (Text.trim s.id))
  rw [same, Text.trimmed_trim s.id] at other
  exact other rfl

theorem registerAll_append (front : List Serializer) (s : Serializer) :
    registerAll (front ++ [s]) =
      registerAll front >>= fun r => (r.register s false).map Prod.fst := by
  rw [registerAll, List.foldlM_append, ← registerAll]
  simp only [List.foldlM_cons, List.foldlM_nil, bind_pure]

/-- Each registration is granted, and adds the serializer at its place. -/
theorem registerAll_eq (distinct : Distinct list) : registerAll list = .ok ⟨sortBy byId list⟩ := by
  induction list using List.reverseRecOn with
  | nil => rfl
  | append_singleton front s ih =>
    have before : Distinct front :=
      ⟨fun t member => distinct.visible t (List.mem_append_left _ member),
        distinct.apart.sublist ((List.sublist_append_left front [s]).map _)⟩
    have granted : ¬Refuses ⟨sortBy byId front⟩ (.register s false) := by
      rw [refuses_register_iff rfl, not_or, not_and]
      exact ⟨distinct.visible s (List.mem_append_right _ (List.mem_singleton_self s)),
        fun found => absurd found distinct.not_mem_ids⟩
    obtain ⟨warnings, registered⟩ := register_of_not_refuses granted
    have stay : kept ⟨sortBy byId front⟩ s = sortBy byId front :=
      kept_of_not_mem fun found => granted (.inr ⟨found, rfl⟩)
    have added : add (sortBy byId front) s = ⟨sortBy byId (front ++ [s])⟩ := by
      rw [← sortBy_sortBy_append]
      rfl
    rw [registerAll_append, ih before]
    simp only [bind, Except.bind]
    rw [registered, stay, added]
    rfl

theorem sortBy_byId_strict (distinct : Distinct list) :
    (sortBy byId list).Pairwise fun s t => byId s t = .lt := by
  have apart : list.Pairwise fun s t => s.id ≠ t.id := by
    apply (List.pairwise_map.mp distinct.apart).imp
    exact fun other same => other (congrArg Text.trim same)
  have placed : (sortBy byId list).Pairwise (Before byId fun s t => s.id ≠ t.id) :=
    sortBy_stable apart
  apply placed.imp
  rintro s t (lt | ⟨eq, other⟩)
  · exact lt
  · exact absurd (id_eq_of_byId eq) other

/-- The serializer with the least id of those that take the name is picked, and there is but one. -/
theorem pick_sorted_eq_ok_iff (distinct : Distinct list) (name : String) :
    pick ⟨sortBy byId list⟩ name = .ok s ↔
      s ∈ list ∧ s.Takes name ∧ ∀ t ∈ list, t.Takes name → t ≠ s → byId s t = .lt := by
  have chosen {s : Serializer} (picked : pick ⟨sortBy byId list⟩ name = .ok s) :
      s ∈ list ∧ s.Takes name ∧ ∀ t ∈ list, t.Takes name → t ≠ s → byId s t = .lt := by
    obtain ⟨takes, earlier, later, placed, before, behind⟩ := foremost_of_pick rfl picked
    have member : s ∈ list := placed ▸ List.mem_append_right _ List.mem_cons_self
    refine ⟨member, takes, fun t listed takesT other => ?_⟩
    rw [placed, List.mem_append, List.mem_cons] at listed
    rcases listed with listed | rfl | listed
    · exact before t listed takesT
    · contradiction
    · have memT : t ∈ list := placed ▸ List.mem_append_right _ (List.mem_cons_of_mem s listed)
      exact distinct.lt_of_isLE member memT (behind t listed takesT) other
  refine ⟨chosen, fun ⟨member, takes, least⟩ => ?_⟩
  cases picked : pick ⟨sortBy byId list⟩ name with
  | error error =>
    have held : s ∈ sortBy byId list := (sortBy_perm byId list).mem_iff.mpr member
    exact absurd takes (pick_eq_error_iff.mp ⟨error, picked⟩ s held)
  | ok t =>
    obtain ⟨memT, takesT, leastT⟩ := chosen picked
    by_cases same : t = s
    · rw [same]
    · have below := least t memT takesT same
      have above := leastT s member takes (Ne.symm same)
      exact absurd above (not_lt_of_isLE (by rw [below]; rfl))

/-- Serializers with distinct ids are all registered in whatever order they come, and the registry
is the same in the end. In it the ids ascend, and what is picked for a name is told by the
serializers alone. -/
theorem registerAll_perm (distinct : Distinct list) (perm : list.Perm list') :
    ∃ r, registerAll list = .ok r ∧ registerAll list' = .ok r ∧
      r.serializers.Perm list ∧
      (r.serializers.Pairwise fun s t => Text.byUnits s.id t.id = .lt) ∧
      ∀ name,
        (∀ s, r.pick name = .ok s ↔ s ∈ list ∧ s.Takes name ∧
          ∀ t ∈ list, t.Takes name → t ≠ s → Text.byUnits s.id t.id = .lt) ∧
        ((∃ error, r.pick name = .error error) ↔ ∀ s ∈ list, ¬s.Takes name) := by
  have apart : ∀ s ∈ list, ∀ t ∈ list, byId s t = .eq → s = t := by
    intro s memS t memT same
    exact distinct.eq_of_id memS memT (id_eq_of_byId same)
  have second := registerAll_eq (distinct.perm perm)
  rw [← sortBy_eq_of_perm perm apart] at second
  refine ⟨_, registerAll_eq distinct, second, sortBy_perm byId list, sortBy_byId_strict distinct,
    fun name => ⟨fun s => pick_sorted_eq_ok_iff distinct name, ?_⟩⟩
  rw [pick_eq_error_iff]
  constructor
  · exact fun none s member => none s ((sortBy_perm byId list).mem_iff.mpr member)
  · exact fun none s held => none s ((sortBy_perm byId list).mem_iff.mp held)

/-- A serializer whose id begins with a blank comes before the others by it, and is picked whether it
was registered first or last. -/
theorem padded_picked : ∃ r, registerAll [behindPlain, padded] = .ok r ∧
    registerAll [padded, behindPlain] = .ok r ∧ r.pick "f.x" = .ok padded := by
  have distinct : Distinct [behindPlain, padded] := by
    constructor
    · intro s member
      rcases List.mem_cons.mp member with rfl | member
      · decide
      · obtain rfl := List.mem_singleton.mp member
        decide
    · decide
  obtain ⟨r, first, second, -, -, picks⟩ :=
    registerAll_perm distinct (List.Perm.swap padded behindPlain [])
  refine ⟨r, first, second, ((picks "f.x").1 padded).mpr ⟨?_, ?_, ?_⟩⟩
  · exact List.mem_cons_of_mem _ (List.mem_singleton_self padded)
  · exact (by decide : FileName.extension "f.x" ∈ ["x"])
  · intro t member _ other
    rcases List.mem_cons.mp member with rfl | member
    · decide
    · exact absurd (List.mem_singleton.mp member) other

end SnapshotReport.Registry
