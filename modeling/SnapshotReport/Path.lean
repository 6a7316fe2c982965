/-! The path to an entity: the names that were met on the way, each kept once. Entities are told
apart on a path by their names alone, whatever their types. -/
namespace SnapshotReport

structure Path where
  names : List String
  nodup : names.Nodup
deriving DecidableEq

namespace Path

def empty : Path := ⟨[], by simp⟩

instance : EmptyCollection Path := ⟨empty⟩

instance : Membership String Path := ⟨fun path name => name ∈ path.names⟩

instance (name : String) (path : Path) : Decidable (name ∈ path) :=
  inferInstanceAs (Decidable (name ∈ path.names))

def size (path : Path) : Nat :=
  path.names.length

def insert (path : Path) (name : String) : Path :=
  if known : name ∈ path.names then path else ⟨name :: path.names, by simp [known, path.nodup]⟩

def ofList (names : List String) : Path :=
  names.foldl insert empty

theorem mem_insert {path : Path} {name other : String} :
    other ∈ path.insert name ↔ other = name ∨ other ∈ path := by
  simp only [insert, Membership.mem]
  split <;> rename_i known
  · constructor
    · exact .inr
    · rintro (rfl | h)
      · exact known
      · exact h
  · exact List.mem_cons

theorem insert_of_mem {path : Path} {name : String} (h : name ∈ path) : path.insert name = path :=
  dif_pos h

theorem size_insert_of_not_mem {path : Path} {name : String} (h : name ∉ path) :
    (path.insert name).size = path.size + 1 := by
  rw [insert, dif_neg (show name ∉ path.names from h), size, List.length_cons, size]

theorem mem_foldl_insert {names : List String} {path : Path} {name : String} :
    name ∈ names.foldl insert path ↔ name ∈ names ∨ name ∈ path := by
  induction names generalizing path with
  | nil => simp
  | cons first rest ih => rw [List.foldl_cons, ih, mem_insert, List.mem_cons]; grind

theorem mem_ofList {names : List String} {name : String} :
    name ∈ ofList names ↔ name ∈ names := by
  rw [ofList, mem_foldl_insert]
  exact or_iff_left List.not_mem_nil

end Path

end SnapshotReport
