import SnapshotReport.Proofs.Registration
import SnapshotReport.Proofs.Sorting

/-! The registry and its past. The serializers at hand can be written down in the order in which they
were registered; the registry holds the same ones by id, and of equal ids the earlier one first. So
which one is picked is told by the requests alone, and a request changes no more than it names. -/
namespace SnapshotReport

/-- The serializer is for files of this name, or with this extension. -/
def Serializer.Takes (s : Serializer) (name : String) : Prop :=
  FileName.extension name ∈ s.extensions

namespace Registry

def byId (a b : Serializer) : Ordering :=
  Text.byUnits a.id b.id

instance : Std.TransCmp byId :=
  transCmp_on Text.byUnits Serializer.id

/-- What a registration makes of the serializers at hand, the latest one last. -/
def enter (held : List Serializer) (s : Serializer) (replace : Bool) : List Serializer :=
  if Text.trim s.id = "" ∨ Text.trim s.id ∈ held.map (·.id) ∧ replace = false then held
  else held.filter (·.id ≠ Text.trim s.id) ++ [s]

/-- What a request makes of the serializers at hand. -/
def follow (held : List Serializer) : Request → List Serializer
  | .register s replace => enter held s replace
  | .registerBuiltIns => enter held (.readable Options.defaultDepth) false
  | .pick _ => held
  | .clear => []

/-- The serializers at hand after requests, in the order in which they were registered. -/
def chronicle (requests : List Request) : List Serializer :=
  requests.foldl follow []

/-- Of the serializers for files of a name, listed in the order in which they were registered, `s`
has the least id, and is the first that has it. -/
structure Foremost (held : List Serializer) (name : String) (s : Serializer) : Prop where
  takes : s.Takes name
  least : ∃ earlier later, held = earlier ++ s :: later ∧
    (∀ t ∈ earlier, t.Takes name → Text.byUnits s.id t.id = .lt) ∧
    ∀ t ∈ later, t.Takes name → (Text.byUnits s.id t.id).isLE

/-- A request that is refused: a registration for its id, or a name that no serializer takes. -/
def Refuses (r : Registry) : Request → Prop
  | .register s replace => Text.trim s.id = "" ∨ Text.trim s.id ∈ r.ids ∧ replace = false
  | .pick name => ∀ s ∈ r.serializers, ¬s.Takes name
  | _ => False

/-- The serializers of a registry before and after the registration of `s`. It joins the others, and
they keep their order. All of them stay if the id is new; else the one that has it gives way. -/
inductive Joins (s : Serializer) (replace : Bool) : List Serializer → List Serializer → Prop where
  | new {front back} : Text.trim s.id ∉ (front ++ back).map (·.id) →
      Joins s replace (front ++ back) (front ++ s :: back)
  | instead {low old high front back} : replace = true → old.id = Text.trim s.id →
      (∀ t ∈ low ++ high, t.id ≠ Text.trim s.id) → low ++ high = front ++ back →
      Joins s replace (low ++ old :: high) (front ++ s :: back)

variable {r : Registry} {s : Serializer} {held : List Serializer} {name : String}

theorem run_append (requests : List Request) (request : Request) :
    run (requests ++ [request]) = (run requests).after request := by
  rw [run, List.foldl_append, List.foldl_cons, List.foldl_nil, ← run]

theorem chronicle_append (requests : List Request) (request : Request) :
    chronicle (requests ++ [request]) = follow (chronicle requests) request := by
  rw [chronicle, List.foldl_append, List.foldl_cons, List.foldl_nil, ← chronicle]

theorem runAt_enroll_of_refuses {replace : Bool} (refuses : r.Refuses (.register s replace)) :
    ∃ error, (enroll s replace).runAt r = (.error error, r) := by
  rw [runAt_enroll]
  split
  · exact ⟨_, rfl⟩
  · rename_i given
    obtain ⟨found, rfl⟩ := refuses.resolve_left given
    rw [if_pos found]
    exact ⟨_, rfl⟩

theorem runAt_enroll_of_not_refuses {replace : Bool}
    (granted : ¬r.Refuses (.register s replace)) :
    ∃ warnings, (enroll s replace).runAt r = (.ok warnings, add (kept r s) s) := by
  rw [Refuses, not_or, not_and, Bool.not_eq_false] at granted
  obtain ⟨given, replaced⟩ := granted
  rw [runAt_enroll, if_neg given]
  split
  · rename_i found
    rw [replaced found]
    exact ⟨_, rfl⟩
  · exact ⟨_, rfl⟩

theorem register_of_not_refuses {replace : Bool}
    (granted : ¬r.Refuses (.register s replace)) :
    ∃ warnings, r.register s replace = .ok (add (kept r s) s, warnings) := by
  obtain ⟨warnings, registered⟩ := runAt_enroll_of_not_refuses granted
  rw [register, registered]
  exact ⟨warnings, rfl⟩

theorem after_register_of_refuses {replace : Bool} (refuses : r.Refuses (.register s replace)) :
    r.after (.register s replace) = r := by
  obtain ⟨error, refused⟩ := runAt_enroll_of_refuses refuses
  rw [after_register, refused]

theorem after_register_of_not_refuses {replace : Bool}
    (granted : ¬r.Refuses (.register s replace)) :
    r.after (.register s replace) = add (kept r s) s := by
  obtain ⟨warnings, registered⟩ := runAt_enroll_of_not_refuses granted
  rw [after_register, registered]

/-- A request that is refused takes no step that changes the registry. -/
theorem after_of_refuses {request : Request} (refuses : r.Refuses request) :
    r.after request = r := by
  cases request with
  | register s replace => exact after_register_of_refuses refuses
  | pick name => exact after_pick r name
  | registerBuiltIns | clear => contradiction

theorem refuses_readable_iff : r.Refuses (.register (.readable Options.defaultDepth) false) ↔
    Serializer.readableId ∈ r.ids := by
  have trimmed : Text.trim Serializer.readableId = Serializer.readableId := by decide
  have given : Serializer.readableId ≠ "" := by decide
  simp [Refuses, Serializer.readable, trimmed, given]

theorem after_registerBuiltIns_eq (r : Registry) :
    r.after .registerBuiltIns = r.after (.register (.readable Options.defaultDepth) false) := by
  rw [after_registerBuiltIns_eq_if]
  split
  · rename_i found
    rw [after_register_of_refuses (refuses_readable_iff.mpr found)]
  · rfl

/-- There is no error if they are there already, and nothing to warn of if they are not. -/
theorem runAt_enrollBuiltIns_ok (r : Registry) :
    enrollBuiltIns.runAt r = (.ok [], r.after .registerBuiltIns) := by
  rw [after_registerBuiltIns_eq_if, runAt_enrollBuiltIns]
  split
  · rfl
  · rename_i new
    have trimmed : Text.trim (Serializer.readable Options.defaultDepth).id =
        Serializer.readableId := by decide
    have given : Serializer.readableId ≠ "" := by decide
    rw [after_register, runAt_enroll, trimmed, if_neg given, if_neg new]

theorem eraseP_eq_filter_of_count_le_one {α β : Type} [DecidableEq β] {f : α → β} {b : β}
    {xs : List α} (once : (xs.map f).count b ≤ 1) :
    xs.eraseP (f · == b) = xs.filter (f · ≠ b) := by
  induction xs with
  | nil => rfl
  | cons x rest ih =>
    rw [List.map_cons, List.count_cons] at once
    by_cases found : f x = b
    · have others : b ∉ rest.map f := by
        rw [← List.count_eq_zero]
        simp only [found, beq_self_eq_true, if_true] at once
        omega
      rw [List.eraseP_cons_of_pos (by simpa using found),
        List.filter_cons_of_neg (by simpa using found), List.filter_eq_self.mpr]
      intro y member
      simpa using fun same => others (List.mem_map.mpr ⟨y, member, same⟩)
    · rw [List.eraseP_cons_of_neg (by simpa using found),
        List.filter_cons_of_pos (by simpa using found), ih]
      exact Nat.le_of_add_right_le once

/-- One serializer at most gives way, for the id that is looked for has no blanks around it. -/
theorem Sound.kept_eq_filter (sound : r.Sound) (s : Serializer) :
    kept r s = r.serializers.filter (·.id ≠ Text.trim s.id) :=
  eraseP_eq_filter_of_count_le_one (sound.once _ (Text.trimmed_trim s.id))

theorem refuses_register_iff (same : r.serializers = sortBy byId held) (replace : Bool) :
    r.Refuses (.register s replace) ↔
      Text.trim s.id = "" ∨ Text.trim s.id ∈ held.map (·.id) ∧ replace = false := by
  rw [Refuses, ids, same, ((sortBy_perm byId held).map _).mem_iff]

theorem serializers_after_register (sound : r.Sound) (same : r.serializers = sortBy byId held)
    (s : Serializer) (replace : Bool) :
    (r.after (.register s replace)).serializers = sortBy byId (enter held s replace) := by
  rw [enter]
  split
  · rename_i refuses
    rw [after_register_of_refuses ((refuses_register_iff same replace).mpr refuses), same]
  · rename_i granted
    rw [after_register_of_not_refuses (mt (refuses_register_iff same replace).mp granted)]
    calc (add (kept r s) s).serializers
        = sortBy byId (kept r s ++ [s]) := rfl
      _ = sortBy byId (sortBy byId (held.filter (·.id ≠ Text.trim s.id)) ++ [s]) := by
          rw [sound.kept_eq_filter, same, filter_sortBy]
      _ = sortBy byId (held.filter (·.id ≠ Text.trim s.id) ++ [s]) := sortBy_sortBy_append _ s

/-- The registry holds what was registered, sorted by id. -/
theorem serializers_run (requests : List Request) :
    (run requests).serializers = sortBy byId (chronicle requests) := by
  induction requests using List.reverseRecOn with
  | nil => rfl
  | append_singleton requests request ih =>
    rw [run_append, chronicle_append]
    have registered := serializers_after_register (sound_run requests) ih
    cases request with
    | register s replace => exact registered s replace
    | registerBuiltIns =>
      rw [after_registerBuiltIns_eq]
      exact registered _ false
    | pick name =>
      rw [after_pick]
      exact ih
    | clear => rfl

theorem toOption_pick (r : Registry) (name : String) :
    (r.pick name).toOption =
      r.serializers.find? fun t => t.extensions.contains (FileName.extension name) := by
  rw [pick]
  cases r.serializers.find? fun t => t.extensions.contains (FileName.extension name) <;> rfl

/-- The serializer that is picked is the first in the registry that takes the name. -/
theorem find?_of_pick (picked : r.pick name = .ok s) :
    r.serializers.find? (fun t => t.extensions.contains (FileName.extension name)) = some s := by
  rw [← toOption_pick, picked, Except.toOption]

theorem pick_eq_error_iff :
    (∃ error, r.pick name = .error error) ↔ ∀ s ∈ r.serializers, ¬s.Takes name := by
  have none : r.serializers.find? (fun t => t.extensions.contains (FileName.extension name)) = none ↔
      ∀ s ∈ r.serializers, ¬s.Takes name := by
    simp [Serializer.Takes]
  rw [← none, pick]
  split
  · rename_i found
    rw [found]
    simp
  · rename_i missing
    exact iff_of_true ⟨_, rfl⟩ missing

theorem extension_of_pick_error {error : UnsupportedFormat} (missed : r.pick name = .error error) :
    error.extension = FileName.extension name := by
  rw [pick] at missed
  split at missed
  · contradiction
  · rw [← Except.error.inj missed]

theorem foremost_of_pick (same : r.serializers = sortBy byId held) (picked : r.pick name = .ok s) :
    Foremost held name s := by
  have found := find?_of_pick picked
  rw [same] at found
  obtain ⟨earlier, later, placed, before, behind⟩ := exists_append_of_find?_sortBy found
  have takes (t : Serializer) :
      t.extensions.contains (FileName.extension name) = true ↔ t.Takes name :=
    List.contains_iff_mem
  simp only [takes] at before behind
  have chosen := List.find?_some found
  exact ⟨(takes s).mp chosen, earlier, later, placed, before, behind⟩

theorem refused_iff (r : Registry) (request : Request) :
    (∃ refusal, r.answer request = .error refusal) ↔ r.Refuses request := by
  cases request with
  | register s replace =>
    by_cases refuses : r.Refuses (.register s replace)
    · obtain ⟨error, refused⟩ := runAt_enroll_of_refuses refuses
      refine iff_of_true ⟨.registration error, ?_⟩ refuses
      rw [answer, perform, runAt_warned, refused]
      rfl
    · obtain ⟨warnings, registered⟩ := runAt_enroll_of_not_refuses refuses
      refine iff_of_false ?_ refuses
      rw [answer, perform, runAt_warned, registered]
      rintro ⟨refusal, refused⟩
      contradiction
  | registerBuiltIns =>
    refine iff_of_false ?_ id
    rw [answer, perform, runAt_warned, runAt_enrollBuiltIns_ok]
    rintro ⟨refusal, refused⟩
    contradiction
  | pick name =>
    rw [Refuses, ← pick_eq_error_iff, answer, perform, runAt_get_bind]
    cases r.pick name with
    | error error => exact iff_of_true ⟨.format error, rfl⟩ ⟨error, rfl⟩
    | ok s =>
      refine iff_of_false ?_ ?_
      · rintro ⟨refusal, refused⟩
        contradiction
      · rintro ⟨error, missed⟩
        contradiction
  | clear =>
    refine iff_of_false ?_ id
    rintro ⟨refusal, refused⟩
    contradiction

theorem exists_of_found (found : Text.trim s.id ∈ r.ids) : ∃ low old high,
    r.serializers = low ++ old :: high ∧ old.id = Text.trim s.id ∧ kept r s = low ++ high := by
  obtain ⟨other, member, same⟩ := List.mem_map.mp found
  obtain ⟨old, low, high, -, first, placed, erased⟩ :=
    List.exists_of_eraseP (p := fun t : Serializer => t.id == Text.trim s.id) member (by simpa using same)
  exact ⟨low, old, high, placed, by simpa using first, erased⟩

theorem joins_of_not_refuses {replace : Bool} (sound : r.Sound)
    (sorted : r.serializers.Pairwise fun a b => (byId a b).isLE)
    (granted : ¬r.Refuses (.register s replace)) :
    Joins s replace r.serializers (r.after (.register s replace)).serializers := by
  have others : (kept r s).Pairwise fun a b => (byId a b).isLE :=
    sorted.sublist List.eraseP_sublist
  obtain ⟨front, back, same, inserted⟩ := insertBehind_eq_append byId s (kept r s)
  have joined : (r.after (.register s replace)).serializers = front ++ s :: back := by
    rw [after_register_of_not_refuses granted, ← inserted, ← sortBy_of_pairwise others,
      ← sortBy_append_singleton, sortBy_of_pairwise others]
    rfl
  rw [joined]
  by_cases found : Text.trim s.id ∈ r.ids
  · obtain ⟨low, old, high, placed, first, rest⟩ := exists_of_found found
    rw [Refuses, not_or, not_and, Bool.not_eq_false] at granted
    rw [placed]
    refine .instead (granted.2 found) first (fun t member => ?_) (rest.symm.trans same)
    rw [← rest, sound.kept_eq_filter] at member
    simpa using (List.mem_filter.mp member).2
  · rw [kept_of_not_mem found] at same
    rw [same]
    exact .new (by rwa [← same])

/-- After any requests the serializers are in the order of their ids, and for a name the foremost one
that takes it is picked. A request that is refused changes nothing, and a registration no more than it
names. -/
theorem requests_outcome (requests : List Request) :
    ((run requests).serializers.Pairwise fun a b => (Text.byUnits a.id b.id).isLE) ∧
    (run requests).serializers.Perm (chronicle requests) ∧
    (∀ name,
      (∀ s, (run requests).pick name = .ok s → Foremost (chronicle requests) name s) ∧
      (∀ error, (run requests).pick name = .error error →
        error.extension = FileName.extension name) ∧
      ((∃ error, (run requests).pick name = .error error) ↔
        ∀ s ∈ (run requests).serializers, ¬s.Takes name)) ∧
    (∀ request,
      ((∃ refusal, (run requests).answer request = .error refusal) ↔
        (run requests).Refuses request) ∧
      ((run requests).Refuses request → run (requests ++ [request]) = run requests)) ∧
    (∀ s replace, ¬(run requests).Refuses (.register s replace) →
      Joins s replace (run requests).serializers
        (run (requests ++ [.register s replace])).serializers) ∧
    run (requests ++ [.registerBuiltIns]) =
      run (requests ++ [.register (.readable Options.defaultDepth) false]) := by
  have held := serializers_run requests
  have sorted : (run requests).serializers.Pairwise fun a b => (byId a b).isLE :=
    held ▸ sortBy_pairwise (chronicle requests)
  refine ⟨sorted, held ▸ sortBy_perm byId (chronicle requests), ?_, ?_, ?_, ?_⟩
  · intro name
    exact ⟨fun s => foremost_of_pick held, fun error => extension_of_pick_error, pick_eq_error_iff⟩
  · intro request
    refine ⟨refused_iff (run requests) request, fun refuses => ?_⟩
    rw [run_append, after_of_refuses refuses]
  · intro s replace granted
    rw [run_append]
    exact joins_of_not_refuses (sound_run requests) sorted granted
  · rw [run_append, run_append, after_registerBuiltIns_eq]

/-- A serializer for the same files as the plain one, and behind it by its id. -/
def behindPlain : Serializer :=
  { plain with id := "b" }

/-- The plain serializer is picked though the other one was registered before it. It cannot be
registered twice, and where it takes its own place the other one stays. -/
theorem plain_picked :
    (run [.register behindPlain false, .register plain false]).pick "f.x" = .ok plain ∧
    Foremost (chronicle [.register behindPlain false, .register plain false]) "f.x" plain ∧
    run [.register behindPlain false, .register plain false, .register plain false] =
      run [.register behindPlain false, .register plain false] ∧
    Joins plain true
      (run [.register behindPlain false, .register plain false]).serializers
      (run [.register behindPlain false, .register plain false, .register plain true]).serializers := by
  have picked : (run [.register behindPlain false, .register plain false]).pick "f.x" =
      .ok plain := by
    rfl
  obtain ⟨-, -, choice, requested, registered, -⟩ :=
    requests_outcome [.register behindPlain false, .register plain false]
  refine ⟨picked, (choice "f.x").1 plain picked, (requested (.register plain false)).2 ?_,
    registered plain true ?_⟩
  · exact .inr ⟨by decide, rfl⟩
  · rintro (blank | ⟨-, kept⟩)
    · exact absurd blank (by decide)
    · exact absurd kept (by decide)

end Registry

end SnapshotReport
