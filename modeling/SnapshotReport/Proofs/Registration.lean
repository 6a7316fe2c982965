import Mathlib.Data.List.Count
import Mathlib.Data.List.DropRight
import Mathlib.Data.List.Induction
import Mathlib.Data.List.Nodup
import SnapshotReport.Registry

/-! The ids in a registry. An id is looked for without the blanks around it and kept as it was
given. So an id without such blanks is held once at most after any requests, and one with them is
never found again: it can be held any number of times. -/
namespace SnapshotReport

namespace Text

/-- No blanks stand around the text. -/
def Trimmed (text : String) : Prop :=
  trim text = text

theorem trimChars_trimChars (text : List Char) : trimChars (trimChars text) = trimChars text := by
  let front := text.dropWhile isBlank
  have trimmed : trimChars text = front.rdropWhile isBlank := rfl
  have visible : (trimChars text).dropWhile isBlank = trimChars text := by
    rw [List.dropWhile_eq_self_iff]
    intro some
    have shorter : trimChars text <+: front := List.rdropWhile_prefix isBlank front
    rw [shorter.getElem some]
    exact List.dropWhile_get_zero_not isBlank text (Nat.lt_of_lt_of_le some shorter.length_le)
  calc trimChars (trimChars text)
      = ((trimChars text).dropWhile isBlank).rdropWhile isBlank := rfl
    _ = (front.rdropWhile isBlank).rdropWhile isBlank := by rw [visible, trimmed]
    _ = trimChars text := List.rdropWhile_idempotent isBlank front

theorem trimmed_trim (text : String) : Trimmed (trim text) := by
  rw [Trimmed, trim, trim, String.toList_ofList, trimChars_trimChars]

end Text

namespace Registry

/-- The serializers that stay when another one is registered. -/
def kept (r : Registry) (s : Serializer) : List Serializer :=
  r.serializers.eraseP (·.id == Text.trim s.id)

/-- The registry after requests one after the other. Those that are refused leave it as it is. -/
def run (requests : List Request) : Registry :=
  requests.foldl after empty

/-- The serializer that a request adds if it is granted and has anything to add. -/
def Request.Adds : Request → Serializer → Prop
  | .register s _, added => added = s
  | .registerBuiltIns, added => added = .readable Options.defaultDepth
  | _, _ => False

variable {r : Registry} {s : Serializer} {id : String}

theorem kept_of_not_mem (new : Text.trim s.id ∉ r.ids) : kept r s = r.serializers := by
  apply List.eraseP_of_forall_not
  intro other member same
  exact new (List.mem_map.mpr ⟨other, member, eq_of_beq same⟩)

theorem runAt_get_bind {ε α : Type} (r : Registry) (f : Registry → Action ε α) :
    Action.runAt r (do f (← get)) = (f r).runAt r :=
  rfl

/-- An error comes before any step that changes the registry. -/
theorem runAt_enroll (r : Registry) (s : Serializer) (replace : Bool) :
    (enroll s replace).runAt r =
      if Text.trim s.id = "" then (.error .blankId, r)
      else if Text.trim s.id ∈ r.ids then
        if replace then (.ok [.replacing (Text.trim s.id)], add (kept r s) s)
        else (.error (.duplicateId (Text.trim s.id)), r)
      else (.ok [], add (kept r s) s) := by
  by_cases blank : Text.trim s.id = ""
  · rw [if_pos blank, enroll, blank]
    rfl
  · rw [if_neg blank, enroll, if_neg (mt String.isEmpty_iff.mp blank), runAt_get_bind]
    by_cases found : Text.trim s.id ∈ r.ids
    · rw [if_pos found, if_pos (List.contains_iff_mem.mpr found)]
      cases replace <;> rfl
    · rw [if_neg found, if_neg (mt List.contains_iff_mem.mp found), kept_of_not_mem found]
      rfl

theorem runAt_enrollBuiltIns (r : Registry) : enrollBuiltIns.runAt r =
    if Serializer.readableId ∈ r.ids then (.ok [], r)
    else (enroll (.readable Options.defaultDepth) false).runAt r := by
  rw [enrollBuiltIns, runAt_get_bind]
  by_cases found : Serializer.readableId ∈ r.ids
  · rw [if_pos found, if_pos (List.contains_iff_mem.mpr found)]
    rfl
  · rw [if_neg found, if_neg (mt List.contains_iff_mem.mp found)]

theorem runAt_warned (r : Registry) (action : Action RegistrationError (List Warning)) :
    (warned action).runAt r =
      (((action.runAt r).1.mapError .registration).map fun warnings => { warnings },
        (action.runAt r).2) := by
  have adapted : (action.adapt Refusal.registration).run =
      Except.mapError .registration <$> action.run := rfl
  simp only [warned, Action.runAt, bind_pure_comp, ExceptT.run_map, StateT.run_map, adapted]
  rfl

/-- Registering is refused for a blank id, and for one that is found unless it may be replaced. Else
the serializer is added to those that stay. -/
theorem register_eq (r : Registry) (s : Serializer) (replace : Bool) :
    r.register s replace =
      if Text.trim s.id = "" then .error .blankId
      else if Text.trim s.id ∈ r.ids then
        if replace then .ok (add (kept r s) s, [.replacing (Text.trim s.id)])
        else .error (.duplicateId (Text.trim s.id))
      else .ok (add (kept r s) s, []) := by
  rw [register, runAt_enroll]
  split
  · rfl
  · split
    · cases replace <;> rfl
    · rfl

theorem after_register (r : Registry) (s : Serializer) (replace : Bool) :
    r.after (.register s replace) = ((enroll s replace).runAt r).2 := by
  rw [after, perform, runAt_warned]

theorem after_registerBuiltIns (r : Registry) :
    r.after .registerBuiltIns = (enrollBuiltIns.runAt r).2 := by
  rw [after, perform, runAt_warned]

theorem after_pick (r : Registry) (name : String) : r.after (.pick name) = r := by
  rw [after, perform, runAt_get_bind]
  cases r.pick name <;> rfl

theorem after_register_cases (r : Registry) (s : Serializer) (replace : Bool) :
    r.after (.register s replace) = r ∨
      Text.trim s.id ≠ "" ∧ r.after (.register s replace) = add (kept r s) s := by
  rw [after_register, runAt_enroll]
  split
  · exact .inl rfl
  · rename_i given
    split
    · cases replace
      · exact .inl rfl
      · exact .inr ⟨given, rfl⟩
    · exact .inr ⟨given, rfl⟩

/-- The serializers that come with the library are registered like others, where none has their id. -/
theorem after_registerBuiltIns_eq_if (r : Registry) : r.after .registerBuiltIns =
    if Serializer.readableId ∈ r.ids then r
    else r.after (.register (.readable Options.defaultDepth) false) := by
  rw [after_registerBuiltIns, runAt_enrollBuiltIns, after_register]
  split <;> rfl

/-- A request changes nothing, clears the registry or adds a serializer to those that stay. -/
theorem after_cases (r : Registry) (request : Request) :
    r.after request = r ∨ r.after request = empty ∨
      ∃ s, request.Adds s ∧ Text.trim s.id ≠ "" ∧ r.after request = add (kept r s) s := by
  cases request with
  | register s replace =>
    obtain same | ⟨given, added⟩ := after_register_cases r s replace
    · exact .inl same
    · exact .inr (.inr ⟨s, rfl, given, added⟩)
  | registerBuiltIns =>
    rw [after_registerBuiltIns_eq_if]
    split
    · exact .inl rfl
    · obtain same | ⟨given, added⟩ := after_register_cases r (.readable Options.defaultDepth) false
      · exact .inl same
      · exact .inr (.inr ⟨_, rfl, given, added⟩)
  | pick name => exact .inl (after_pick r name)
  | clear => exact .inr (.inl rfl)

theorem ids_add_perm (serializers : List Serializer) (s : Serializer) :
    (add serializers s).ids.Perm (s.id :: serializers.map (·.id)) := by
  have ids : (serializers ++ [s]).map (·.id) = serializers.map (·.id) ++ [s.id] := by
    rw [List.map_append, List.map_singleton]
  have sorted : (add serializers s).ids.Perm (serializers.map (·.id) ++ [s.id]) :=
    ids ▸ (sortBy_perm _ _).map _
  exact sorted.trans (List.perm_append_singleton _ _)

theorem ids_kept (r : Registry) (s : Serializer) :
    (kept r s).map (·.id) = r.ids.erase (Text.trim s.id) := by
  have found : (fun other : Serializer => other.id == Text.trim s.id) =
      (Text.trim s.id == ·) ∘ Serializer.id := by
    funext other
    exact Bool.beq_comm
  rw [kept, found, ids, List.erase_eq_eraseP, List.eraseP_map]

/-- Every id that is held came with one of the requests. -/
theorem mem_ids_run {requests : List Request} (held : id ∈ (run requests).ids) :
    ∃ request ∈ requests, ∃ s, request.Adds s ∧ s.id = id := by
  induction requests using List.reverseRecOn with
  | nil => exact absurd held List.not_mem_nil
  | append_singleton requests request ih =>
    rw [run, List.foldl_append, List.foldl_cons, List.foldl_nil, ← run] at held
    have earlier (held : id ∈ (run requests).ids) :
        ∃ request' ∈ requests ++ [request], ∃ s, request'.Adds s ∧ s.id = id := by
      obtain ⟨request', member, added⟩ := ih held
      exact ⟨request', List.mem_append_left _ member, added⟩
    obtain same | cleared | ⟨s, adds, -, registered⟩ := after_cases (run requests) request
    · exact earlier (same ▸ held)
    · rw [cleared] at held
      exact absurd held List.not_mem_nil
    · rw [registered, (ids_add_perm _ _).mem_iff, List.mem_cons, ids_kept] at held
      rcases held with rfl | held
      · exact ⟨request, List.mem_append_right _ (List.mem_singleton_self _), s, adds, rfl⟩
      · exact earlier (List.mem_of_mem_erase held)

/-- No id is blank, and none that is written without blanks around it is held twice. -/
structure Sound (r : Registry) : Prop where
  visible : ∀ id ∈ r.ids, Text.trim id ≠ ""
  once : ∀ id, Text.Trimmed id → r.ids.count id ≤ 1

theorem Sound.add_kept (sound : r.Sound) (given : Text.trim s.id ≠ "") :
    (add (kept r s) s).Sound := by
  constructor
  · intro id held
    rw [(ids_add_perm _ _).mem_iff, List.mem_cons, ids_kept] at held
    rcases held with rfl | held
    · exact given
    · exact sound.visible id (List.mem_of_mem_erase held)
  · intro id trimmed
    have before := sound.once id trimmed
    rw [(ids_add_perm _ _).count_eq, ids_kept, List.count_cons]
    by_cases same : s.id = id
    · -- the id is found as it was given, so an earlier serializer that has it does not stay
      have found : Text.trim s.id = id := same ▸ (same ▸ trimmed : Text.Trimmed s.id)
      rw [found, List.count_erase_self, if_pos (beq_iff_eq.mpr same)]
      omega
    · have fewer := (List.erase_sublist (a := Text.trim s.id) (l := r.ids)).count_le id
      rw [if_neg (mt beq_iff_eq.mp same)]
      omega

theorem sound_after (sound : r.Sound) (request : Request) : (r.after request).Sound := by
  obtain same | cleared | ⟨s, -, given, registered⟩ := after_cases r request
  · rwa [same]
  · rw [cleared]
    exact ⟨fun id held => absurd held List.not_mem_nil, fun id _ => Nat.zero_le 1⟩
  · rw [registered]
    exact sound.add_kept given

theorem sound_run (requests : List Request) : (run requests).Sound := by
  induction requests using List.reverseRecOn with
  | nil => exact ⟨fun id held => absurd held List.not_mem_nil, fun id _ => Nat.zero_le 1⟩
  | append_singleton requests request ih =>
    rw [run, List.foldl_append, List.foldl_cons, List.foldl_nil, ← run]
    exact sound_after ih request

/-- After any requests, an id without blanks around it is held once at most. If all ids were given
so, no two are the same, with or without blanks. To register such an id again is refused, or leaves
one serializer that has it and all other ids as they were. -/
theorem ids_distinct (requests : List Request) :
    (∀ id, Text.Trimmed id → (run requests).ids.count id ≤ 1) ∧
    ((∀ s replace, Request.register s replace ∈ requests → Text.Trimmed s.id) →
      ((run requests).ids.map Text.trim).Nodup) ∧
    (∀ s, Text.Trimmed s.id → s.id ∈ (run requests).ids →
      (run requests).register s false = .error (.duplicateId s.id) ∧
      ∃ r, (run requests).register s true = .ok (r, [.replacing s.id]) ∧
        r.ids.count s.id = 1 ∧ r.ids.Perm (run requests).ids) := by
  have sound := sound_run requests
  refine ⟨sound.once, ?_, ?_⟩
  · intro given
    have trimmed : ∀ id ∈ (run requests).ids, Text.Trimmed id := by
      intro id held
      obtain ⟨request, member, s, adds, rfl⟩ := mem_ids_run held
      cases request with
      | register _ replace => exact adds ▸ given _ replace member
      | registerBuiltIns => exact adds ▸ (by decide : Text.trim Serializer.readableId = _)
      | pick | clear => exact adds.elim
    rw [List.map_congr_left trimmed, List.map_id']
    apply List.nodup_iff_count_le_one.mpr
    intro id
    by_cases held : id ∈ (run requests).ids
    · exact sound.once id (trimmed id held)
    · rw [List.count_eq_zero.mpr held]
      exact Nat.zero_le 1
  · intro s trimmed held
    have found : Text.trim s.id = s.id := trimmed
    have given : s.id ≠ "" := found ▸ sound.visible s.id held
    have replaced : (add (kept (run requests) s) s).ids.Perm (run requests).ids := by
      have perm := ids_add_perm (kept (run requests) s) s
      rw [ids_kept, found] at perm
      exact perm.trans (List.perm_cons_erase held).symm
    constructor
    · simp [register_eq, found, given, held]
    · refine ⟨_, by simp [register_eq, found, given, held], ?_, replaced⟩
      rw [replaced.count_eq]
      exact Nat.le_antisymm (sound.once s.id trimmed) (List.count_pos_iff.mpr held)

def plain : Serializer where
  id := "a"
  format := "x"
  extensions := ["x"]
  serialize _ := .ok ""

/-- The second registration of an id is refused, with others registered in between. -/
theorem plain_id_held_once :
    ((run [.register plain false, .registerBuiltIns]).ids.map Text.trim).Nodup ∧
      (run [.register plain false, .registerBuiltIns]).register plain false =
        .error (.duplicateId "a") := by
  have given : ∀ s replace,
      Request.register s replace ∈ [.register plain false, .registerBuiltIns] →
        Text.Trimmed s.id := by
    intro s replace member
    simp only [List.mem_cons, Request.register.injEq, reduceCtorEq, List.not_mem_nil,
      or_false] at member
    obtain ⟨rfl, -⟩ := member
    exact (by decide : Text.trim "a" = "a")
  have trimmed : Text.Trimmed plain.id := given plain false List.mem_cons_self
  have held : plain.id ∈ (run [.register plain false, .registerBuiltIns]).ids := by decide
  obtain ⟨-, distinct, again⟩ := ids_distinct [.register plain false, .registerBuiltIns]
  exact ⟨distinct given, (again plain trimmed held).1⟩

/-- A serializer whose id begins with a blank. -/
def padded : Serializer :=
  { plain with id := " a" }

/-- It is registered twice without being asked to replace anything. -/
theorem padded_id_held_twice :
    (run [.register padded false, .register padded false]).ids = [" a", " a"] ∧
      ¬(run [.register padded false, .register padded false]).ids.Nodup := by
  have held : (run [.register padded false, .register padded false]).ids = [" a", " a"] := by
    decide
  rw [held]
  exact ⟨rfl, by decide⟩

end Registry

end SnapshotReport
