import SnapshotReport.Proofs.Registration.Chronicle

/-! The serializers that come with the library. They can be registered at any time: this is never
refused and never warned of. It adds one serializer where none has its id, changes nothing else, and
changes nothing at all where one has it. -/
namespace SnapshotReport.Registry

variable {r : Registry} {s : Serializer}

theorem after_registerBuiltIns_of_mem (held : Serializer.readableId ∈ r.ids) :
    r.after .registerBuiltIns = r := by
  rw [after_registerBuiltIns_eq, after_register_of_refuses (refuses_readable_iff.mpr held)]

/-- There is no error, and no warning. -/
theorem answer_registerBuiltIns (r : Registry) :
    r.answer .registerBuiltIns = .ok { registry := r.after .registerBuiltIns } := by
  rw [answer, perform, runAt_warned, runAt_enrollBuiltIns_ok]
  rfl

theorem readableId_mem_after (r : Registry) :
    Serializer.readableId ∈ (r.after .registerBuiltIns).ids := by
  by_cases held : Serializer.readableId ∈ r.ids
  · rwa [after_registerBuiltIns_of_mem held]
  · rw [after_registerBuiltIns_eq,
      after_register_of_not_refuses (mt refuses_readable_iff.mp held), (ids_add_perm _ _).mem_iff]
    exact List.mem_cons_self

/-- Without leave to replace anything, a registration puts the serializer between others. -/
theorem Joins.exists_append {before after : List Serializer} (joins : Joins s false before after) :
    ∃ front back, before = front ++ back ∧ after = front ++ s :: back := by
  cases joins with
  | new => exact ⟨_, _, rfl, rfl⟩
  | «instead» replaces => contradiction

theorem after_registerBuiltIns_cases (requests : List Request) :
    (run requests).after .registerBuiltIns = run requests ∨
      ∃ front back, (run requests).serializers = front ++ back ∧
        ((run requests).after .registerBuiltIns).serializers =
          front ++ .readable Options.defaultDepth :: back := by
  by_cases held : Serializer.readableId ∈ (run requests).ids
  · exact .inl (after_registerBuiltIns_of_mem held)
  · have sorted : (run requests).serializers.Pairwise fun a b => (byId a b).isLE :=
      serializers_run requests ▸ sortBy_pairwise (chronicle requests)
    rw [after_registerBuiltIns_eq]
    exact .inr (joins_of_not_refuses (sound_run requests) sorted
      (mt refuses_readable_iff.mp held)).exists_append

/-- After any requests, the serializers that come with the library are registered without an error
or a warning. Then one serializer has the id of the report as text, and all that were there are
still there, in their order. To register them again changes nothing. -/
theorem builtIns_registered (requests : List Request) :
    ∃ r, (run requests).answer .registerBuiltIns = .ok { registry := r } ∧
      r = run (requests ++ [.registerBuiltIns]) ∧
      r.ids.count Serializer.readableId = 1 ∧
      (run requests).serializers.Sublist r.serializers ∧
      (∀ s ∈ r.serializers, s ∈ (run requests).serializers ∨ s = .readable Options.defaultDepth) ∧
      Options.resolve {} = some (Options.defaultDepth, []) ∧
      r.answer .registerBuiltIns = .ok { registry := r } := by
  have held := readableId_mem_after (run requests)
  have again := answer_registerBuiltIns ((run requests).after .registerBuiltIns)
  rw [after_registerBuiltIns_of_mem held] at again
  have sound := sound_after (sound_run requests) .registerBuiltIns
  have trimmed : Text.Trimmed Serializer.readableId := by
    exact (by decide : Text.trim Serializer.readableId = Serializer.readableId)
  have once : ((run requests).after .registerBuiltIns).ids.count Serializer.readableId = 1 :=
    Nat.le_antisymm (sound.once _ trimmed) (List.count_pos_iff.mpr held)
  refine ⟨_, answer_registerBuiltIns _, (run_append requests _).symm, once, ?_, ?_, rfl, again⟩
  · obtain same | ⟨front, back, before, after⟩ := after_registerBuiltIns_cases requests
    · rw [same]
    · rw [before, after]
      exact List.Sublist.append_left (List.sublist_cons_self _ back) front
  · intro s member
    obtain same | ⟨front, back, before, after⟩ := after_registerBuiltIns_cases requests
    · exact .inl (same ▸ member)
    · rw [after, List.mem_append, List.mem_cons] at member
      rw [before, List.mem_append]
      tauto

end SnapshotReport.Registry
