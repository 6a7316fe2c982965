import SnapshotReport.Sorting
import SnapshotReport.Text.Units

/-! Records: values by name, each name once, in the order in which the names were first written.
What is shown of a record is shown in the order of its names. -/
namespace SnapshotReport

structure Record (α : Type) where
  entries : List (String × α)
  nodup : (entries.map Prod.fst).Nodup
deriving DecidableEq

namespace Record

variable {α β : Type}

def empty : Record α := ⟨[], by simp⟩

instance : EmptyCollection (Record α) := ⟨empty⟩

instance : Inhabited (Record α) := ⟨empty⟩

def keys (r : Record α) : List String :=
  r.entries.map Prod.fst

def get? (r : Record α) (key : String) : Option α :=
  r.entries.lookup key

def modifyEntry (key : String) (f : α → α) (entry : String × α) : String × α :=
  if entry.1 = key then (entry.1, f entry.2) else entry

theorem keys_modifyEntry (key : String) (f : α → α) (entries : List (String × α)) :
    (entries.map (modifyEntry key f)).map Prod.fst = entries.map Prod.fst := by
  rw [List.map_map]
  refine List.map_congr_left fun entry _ => ?_
  simp only [Function.comp_apply, modifyEntry]
  split <;> rfl

/-- Changes the value under a name that has one. -/
def modify (r : Record α) (key : String) (f : α → α) : Record α :=
  ⟨r.entries.map (modifyEntry key f), by rw [keys_modifyEntry]; exact r.nodup⟩

/-- Writes a value. A new name goes to the end, a name already there keeps its place. -/
def insert (r : Record α) (key : String) (value : α) : Record α :=
  if new : key ∈ r.keys then r.modify key fun _ => value
  else
    ⟨r.entries ++ [(key, value)], by
      rw [List.map_append, List.nodup_append]
      refine ⟨r.nodup, by simp, fun a ha b hb => ?_⟩
      rintro rfl
      rw [List.map_singleton, List.mem_singleton] at hb
      exact new (by rw [keys, ← show a = key from hb]; exact ha)⟩

def ofList (entries : List (String × α)) : Record α :=
  entries.foldl (fun r (key, value) => r.insert key value) empty

def map (f : α → β) (r : Record α) : Record β :=
  ⟨r.entries.map fun (key, value) => (key, f value), by
    simpa [List.map_map, Function.comp_def] using r.nodup⟩

/-- The entries by name. -/
def sorted (r : Record α) : List (String × α) :=
  sortBy (fun a b => Text.byUnits a.1 b.1) r.entries

theorem sorted_perm (r : Record α) : r.sorted.Perm r.entries :=
  sortBy_perm _ _

theorem lookup_cons_eq_if (key name : String) (value : α) (rest : List (String × α)) :
    List.lookup key ((name, value) :: rest) =
      if key = name then some value else rest.lookup key := by
  rw [List.lookup_cons]
  by_cases same : key = name
  · simp [same]
  · rw [beq_false_of_ne same, if_neg same]

theorem get?_eq_none_iff {r : Record α} {key : String} : r.get? key = none ↔ key ∉ r.keys := by
  rw [get?, List.lookup_eq_none_iff, keys, List.mem_map]
  constructor
  · rintro apart ⟨entry, mem, rfl⟩
    simpa using apart entry mem
  · intro absent entry mem
    simpa [bne_iff_ne] using fun same => absent ⟨entry, mem, same.symm⟩

theorem get?_eq_some_iff {r : Record α} {key : String} {value : α} :
    r.get? key = some value ↔ (key, value) ∈ r.entries := by
  obtain ⟨entries, nodup⟩ := r
  rw [get?]
  induction entries with
  | nil => simp
  | cons entry rest ih =>
    obtain ⟨apart, nodup⟩ := List.nodup_cons.mp nodup
    rw [lookup_cons_eq_if, List.mem_cons, ← ih nodup]
    split
    · rename_i same
      subst same
      have none : rest.lookup entry.1 ≠ some value := by
        intro found
        have member := (ih nodup).mp found
        exact apart (List.mem_map.mpr ⟨_, member, rfl⟩)
      simp [none, Prod.ext_iff, eq_comm]
    · rename_i other
      simp [Prod.ext_iff, other]

theorem get?_modify (r : Record α) (key other : String) (f : α → α) :
    (r.modify key f).get? other = if other = key then (r.get? other).map f else r.get? other := by
  obtain ⟨entries, nodup⟩ := r
  simp only [modify, get?]
  clear nodup
  induction entries with
  | nil => simp
  | cons entry rest ih =>
    rw [List.map_cons, modifyEntry, lookup_cons_eq_if]
    split <;> rw [lookup_cons_eq_if, ih] <;> grind

theorem get?_insert (r : Record α) (key other : String) (value : α) :
    (r.insert key value).get? other = if other = key then some value else r.get? other := by
  unfold insert
  split
  · rename_i known
    rw [get?_modify]
    split
    · rename_i same
      subst same
      cases h : r.get? other with
      | none => exact absurd known (get?_eq_none_iff.mp h)
      | some => rfl
    · rfl
  · rename_i new
    rw [get?, List.lookup_append]
    split
    · rename_i same
      subst same
      rw [show r.entries.lookup other = none from get?_eq_none_iff.mpr new]
      simp
    · rename_i apart
      rw [List.lookup_cons, beq_false_of_ne apart]
      exact Option.or_none

theorem get?_map (f : α → β) (r : Record α) (key : String) :
    (r.map f).get? key = (r.get? key).map f := by
  obtain ⟨entries, nodup⟩ := r
  simp only [map, get?]
  clear nodup
  induction entries with
  | nil => rfl
  | cons entry rest ih =>
    rw [List.map_cons, lookup_cons_eq_if, lookup_cons_eq_if, ih]
    split <;> rfl

end Record

/-- Names in the order of their units. -/
def sortNames (names : List String) : List String :=
  sortBy Text.byUnits names

end SnapshotReport
