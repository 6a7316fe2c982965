import Mathlib.Data.List.DropRight
import SnapshotReport.Proofs.LowerCase
import SnapshotReport.Proofs.Registration.Chronicle

/-! File names and their extensions. An extension can be given in place of a name, and the same
serializer is picked for it, as long as no blank stands right behind the last dot of the name. Such
a blank is kept in front of the extension, for blanks are taken off the ends of a whole name only;
it is lost when the extension is given by itself. -/
namespace SnapshotReport

namespace Text

variable {text : List Char}

theorem dropWhile_isBlank_eq_self_iff :
    text.dropWhile isBlank = text ↔ text.head?.any isBlank = false := by
  cases text with
  | nil => exact ⟨fun _ => rfl, fun _ => rfl⟩
  | cons c rest => simp [List.dropWhile_eq_self_iff]

theorem rdropWhile_isBlank_eq_self_iff :
    text.rdropWhile isBlank = text ↔ text.getLast?.any isBlank = false := by
  induction text using List.reverseRecOn with
  | nil => exact ⟨fun _ => rfl, fun _ => rfl⟩
  | append_singleton front c => simp [List.rdropWhile_eq_self_iff]

theorem getLast?_rdropWhile_isBlank (text : List Char) :
    (text.rdropWhile isBlank).getLast?.any isBlank = false := by
  rw [← rdropWhile_isBlank_eq_self_iff, List.rdropWhile_idempotent]

/-- There is nothing to take off a text that neither begins nor ends with a blank. -/
theorem trimChars_eq_self_iff :
    trimChars text = text ↔
      text.head?.any isBlank = false ∧ text.getLast?.any isBlank = false := by
  have trimmed : trimChars text = (text.dropWhile isBlank).rdropWhile isBlank := rfl
  rw [← dropWhile_isBlank_eq_self_iff, ← rdropWhile_isBlank_eq_self_iff, trimmed]
  constructor
  · intro same
    have shorter : text.length ≤ (text.dropWhile isBlank).length := by
      have prefixed := (List.rdropWhile_prefix isBlank (text.dropWhile isBlank)).length_le
      rwa [same] at prefixed
    have front : text.dropWhile isBlank = text :=
      (List.dropWhile_suffix isBlank).eq_of_length_le shorter
    rw [front] at same
    exact ⟨front, same⟩
  · rintro ⟨front, back⟩
    rw [front, back]

theorem trimChars_subset (text : List Char) : trimChars text ⊆ text :=
  List.Subset.trans (List.rdropWhile_prefix isBlank (text.dropWhile isBlank)).subset
    (List.dropWhile_sublist isBlank).subset

theorem dropWhile_isBlank_append_dot (front back : List Char) :
    (front ++ '.' :: back).dropWhile isBlank = front.dropWhile isBlank ++ '.' :: back := by
  have visible : ¬isBlank '.' = true := by decide
  rw [List.dropWhile_append, List.dropWhile_cons_of_neg visible]
  split
  · rename_i blank
    rw [List.isEmpty_iff.mp blank, List.nil_append]
  · rfl

theorem rdropWhile_isBlank_append_dot (front back : List Char) :
    (front ++ '.' :: back).rdropWhile isBlank = front ++ '.' :: back.rdropWhile isBlank := by
  have turned : (front ++ '.' :: back).reverse = back.reverse ++ '.' :: front.reverse := by simp
  rw [List.rdropWhile, turned, dropWhile_isBlank_append_dot, List.rdropWhile]
  simp

/-- Blanks are taken off at either side of a dot as if the other side were not there. -/
theorem trimChars_append_dot (front back : List Char) :
    trimChars (front ++ '.' :: back) =
      front.dropWhile isBlank ++ '.' :: back.rdropWhile isBlank := by
  rw [← rdropWhile_isBlank_append_dot, ← dropWhile_isBlank_append_dot]
  rfl

end Text

namespace FileName

variable {name : String} {front back : List Char}

/-- What follows the last dot, as it stands in the name. -/
def lastPart (name : String) : List Char :=
  (Text.trimChars name.toList).rtakeWhile (· ≠ '.')

theorem toList_extension (name : String) :
    (extension name).toList = Text.LowerCase.chars [] (lastPart name) := by
  have lowered : extension name = Text.lowerCase (String.ofList (lastPart name)) := rfl
  rw [lowered, Text.lowerCase, String.toList_ofList, String.toList_ofList]

theorem not_dot_mem_lastPart (name : String) : '.' ∉ lastPart name := by
  intro member
  have other := List.mem_rtakeWhile_imp member
  simp at other

theorem lastPart_of_not_mem (dotless : '.' ∉ name.toList) :
    lastPart name = Text.trimChars name.toList := by
  rw [lastPart, List.rtakeWhile_eq_self_iff]
  intro c member
  rw [decide_eq_true_eq]
  rintro rfl
  exact dotless (Text.trimChars_subset name.toList member)

theorem rtakeWhile_append_dot (front : List Char) (dotless : '.' ∉ back) :
    (front ++ '.' :: back).rtakeWhile (· ≠ '.') = back := by
  have turned : (front ++ '.' :: back).reverse = back.reverse ++ '.' :: front.reverse := by simp
  have other : ∀ c ∈ back.reverse, decide (c ≠ '.') = true := by
    intro c member
    rw [decide_eq_true_eq]
    rintro rfl
    exact dotless (List.mem_reverse.mp member)
  rw [List.rtakeWhile, turned, List.takeWhile_append_of_pos other,
    List.takeWhile_cons_of_neg (by decide), List.append_nil, List.reverse_reverse]

theorem lastPart_of_append_dot (split : name.toList = front ++ '.' :: back)
    (dotless : '.' ∉ back) : lastPart name = back.rdropWhile Text.isBlank := by
  have kept : '.' ∉ back.rdropWhile Text.isBlank :=
    fun dot => dotless ((List.rdropWhile_prefix Text.isBlank back).subset dot)
  rw [lastPart, split, Text.trimChars_append_dot, rtakeWhile_append_dot _ kept]

theorem exists_append_dot (dotted : '.' ∈ name.toList) :
    ∃ front back, name.toList = front ++ '.' :: back ∧ '.' ∉ back := by
  obtain ⟨back, front, split, dotless⟩ := List.eq_append_cons_of_mem (List.mem_reverse.mpr dotted)
  refine ⟨front.reverse, back.reverse, ?_, mt List.mem_reverse.mp dotless⟩
  rw [← List.reverse_reverse name.toList, split]
  simp

/-- A blank stands right behind the last dot of the name, and something else farther on. -/
def BlankBehindDot (name : String) : Prop :=
  ∃ front c back, name.toList = front ++ '.' :: c :: back ∧ '.' ∉ back ∧
    Text.isBlank c = true ∧ ∃ d ∈ back, Text.isBlank d = false

theorem getLast?_lastPart (name : String) : (lastPart name).getLast?.any Text.isBlank = false := by
  by_cases dotted : '.' ∈ name.toList
  · obtain ⟨front, back, split, dotless⟩ := exists_append_dot dotted
    rw [lastPart_of_append_dot split dotless, Text.getLast?_rdropWhile_isBlank]
  · rw [lastPart_of_not_mem dotted]
    exact (Text.trimChars_eq_self_iff.mp (Text.trimChars_trimChars name.toList)).2

theorem BlankBehindDot.head?_lastPart (blank : BlankBehindDot name) :
    (lastPart name).head?.any Text.isBlank = true := by
  obtain ⟨front, c, back, split, dotless, blank, d, member, visible⟩ := blank
  have dotless' : '.' ∉ c :: back := by
    rw [List.mem_cons, not_or]
    refine ⟨?_, dotless⟩
    rintro rfl
    exact absurd blank (by decide)
  have some : (c :: back).rdropWhile Text.isBlank ≠ [] := by
    intro none
    have blank := List.rdropWhile_eq_nil_iff.mp none d (List.mem_cons_of_mem c member)
    exact absurd blank (by rw [visible]; decide)
  obtain nothing | ⟨rest, begins, -⟩ :=
    List.prefix_cons_iff.mp (List.rdropWhile_prefix Text.isBlank (c :: back))
  · exact absurd nothing some
  · rw [lastPart_of_append_dot split dotless', begins, List.head?_cons, Option.any_some, blank]

theorem blankBehindDot_of_head?_lastPart (blank : (lastPart name).head?.any Text.isBlank = true) :
    BlankBehindDot name := by
  by_cases dotted : '.' ∈ name.toList
  · obtain ⟨front, back, split, dotless⟩ := exists_append_dot dotted
    obtain ⟨c, begins, blank⟩ := (Option.any_eq_true _ _).mp blank
    obtain ⟨rest, begins⟩ := List.head?_eq_some_iff.mp begins
    -- the last part does not end with a blank, so there is more of it than the one it begins with
    have visible := getLast?_lastPart name
    rw [begins] at visible
    have more : rest ≠ [] := by
      rintro rfl
      rw [List.getLast?_singleton, Option.any_some, blank] at visible
      contradiction
    rw [List.getLast?_cons_of_ne_nil more, List.getLast?_eq_some_getLast more,
      Option.any_some] at visible
    have kept : c :: rest <+: back := by
      rw [← begins, lastPart_of_append_dot split dotless]
      exact List.rdropWhile_prefix Text.isBlank back
    obtain ⟨blanks, rfl⟩ := kept
    exact ⟨front, c, rest ++ blanks, split, fun dot => dotless (List.mem_cons_of_mem c dot), blank,
      rest.getLast more, List.mem_append_left blanks (List.getLast_mem more), visible⟩
  · rw [lastPart_of_not_mem dotted,
      (Text.trimChars_eq_self_iff.mp (Text.trimChars_trimChars name.toList)).1] at blank
    contradiction

theorem blankBehindDot_iff (name : String) :
    BlankBehindDot name ↔ (lastPart name).head?.any Text.isBlank = true :=
  ⟨BlankBehindDot.head?_lastPart, blankBehindDot_of_head?_lastPart⟩

theorem not_dot_mem_extension (name : String) : '.' ∉ (extension name).toList := by
  rw [toList_extension]
  exact Text.LowerCase.not_dot_mem_chars (not_dot_mem_lastPart name) []

/-- An extension is taken for itself but for blanks around it. -/
theorem extension_extension (name : String) :
    extension (extension name) = Text.trim (extension name) := by
  have settled : ∀ c ∈ Text.trimChars (extension name).toList, Text.LowerCase.Settled c := by
    intro c member
    have listed := Text.trimChars_subset _ member
    rw [toList_extension] at listed
    exact Text.LowerCase.settled_of_mem_chars listed
  rw [← String.toList_inj, toList_extension (extension name),
    lastPart_of_not_mem (not_dot_mem_extension name), Text.LowerCase.chars_of_settled settled,
    Text.trim, String.toList_ofList]

theorem extension_extension_eq_iff (name : String) :
    extension (extension name) = extension name ↔ ¬BlankBehindDot name := by
  rw [extension_extension, Text.trim, ← String.toList_inj, String.toList_ofList,
    Text.trimChars_eq_self_iff, toList_extension, Text.LowerCase.head?_chars_any_isBlank,
    Text.LowerCase.getLast?_chars_any_isBlank, getLast?_lastPart, blankBehindDot_iff,
    Bool.not_eq_true, and_iff_left rfl]

/-- What stands before the last dot makes no difference. -/
theorem extension_append_dot (front front' : String) {back : String} (dotless : '.' ∉ back.toList) :
    extension (front ++ "." ++ back) = extension (front' ++ "." ++ back) := by
  have lastPart_eq (front : String) :
      lastPart (front ++ "." ++ back) = back.toList.rdropWhile Text.isBlank := by
    have split : (front ++ "." ++ back).toList = front.toList ++ '.' :: back.toList := by simp
    exact lastPart_of_append_dot split dotless
  rw [← String.toList_inj, toList_extension, toList_extension, lastPart_eq, lastPart_eq]

end FileName

namespace Registry

open FileName

variable {s : Serializer}

theorem toOption_pick_singleton (s : Serializer) (name : String) :
    (pick ⟨[s]⟩ name).toOption = if extension name ∈ s.extensions then some s else none := by
  rw [toOption_pick]
  by_cases takes : extension name ∈ s.extensions <;> simp [takes]

theorem run_register (given : Text.trim s.id ≠ "") : run [.register s false] = ⟨[s]⟩ := by
  have granted : ¬empty.Refuses (.register s false) := by
    rintro (blank | ⟨held, -⟩)
    · exact given blank
    · exact absurd held List.not_mem_nil
  rw [run, List.foldl_cons, List.foldl_nil, after_register_of_not_refuses granted]
  rfl

/-- What takes a name and nothing else tells two names with different extensions apart. -/
theorem exists_picked_apart {name name' : String} (apart : extension name ≠ extension name') :
    ∃ requests, ((run requests).pick name).toOption ≠ ((run requests).pick name').toOption := by
  let s : Serializer := { plain with extensions := [extension name] }
  have given : Text.trim plain.id ≠ "" := by decide
  have registered : run [.register s false] = ⟨[s]⟩ := run_register given
  have taken : extension name ∈ s.extensions := List.mem_singleton_self (extension name)
  have left : extension name' ∉ s.extensions := by
    rw [List.mem_singleton]
    exact Ne.symm apart
  refine ⟨[.register s false], ?_⟩
  rw [registered, toOption_pick_singleton, toOption_pick_singleton, if_pos taken, if_neg left]
  exact Option.some_ne_none s

/-- The extension of an extension is the same without the blanks around it. A name and its extension
have the same serializer picked in every registry exactly if no blank stands right behind the last
dot, and what stands before that dot makes no difference. -/
theorem picked_by_extension (name : String) :
    '.' ∉ (extension name).toList ∧
    extension (extension name) = Text.trim (extension name) ∧
    (extension (extension name) = extension name ↔ ¬BlankBehindDot name) ∧
    (¬BlankBehindDot name → ∀ r : Registry,
      (r.pick name).toOption = (r.pick (extension name)).toOption) ∧
    (BlankBehindDot name → ∃ requests,
      ((run requests).pick name).toOption ≠ ((run requests).pick (extension name)).toOption) ∧
    ∀ front front' back : String, '.' ∉ back.toList →
      extension (front ++ "." ++ back) = extension (front' ++ "." ++ back) := by
  refine ⟨not_dot_mem_extension name, extension_extension name, extension_extension_eq_iff name,
    fun tidy r => ?_, fun blank => ?_, fun front front' back => extension_append_dot front front'⟩
  · rw [toOption_pick, toOption_pick, (extension_extension_eq_iff name).mpr tidy]
  · apply exists_picked_apart
    intro same
    exact (extension_extension_eq_iff name).mp same.symm blank

/-- Blanks at either end of a name do not count. -/
theorem tidy_name_picked : ¬BlankBehindDot " out/Snap.Shot.TXT " ∧
    ∀ r : Registry, (r.pick " out/Snap.Shot.TXT ").toOption = (r.pick "txt").toOption := by
  have ext : extension " out/Snap.Shot.TXT " = "txt" := by decide
  obtain ⟨-, -, same, picked, -⟩ := picked_by_extension " out/Snap.Shot.TXT "
  have tidy := same.mp (by rw [ext]; decide)
  rw [ext] at picked
  exact ⟨tidy, picked tidy⟩

/-- With nothing but the serializers that come with the library, there is none for the name, and one
for its extension. -/
theorem blank_behind_dot_picked_apart :
    extension "a. txt" = " txt" ∧ extension " txt" = "txt" ∧
    ((run [.registerBuiltIns]).pick "a. txt").toOption = none ∧
    ((run [.registerBuiltIns]).pick " txt").toOption = some (.readable Options.defaultDepth) := by
  have first : extension "a. txt" = " txt" := by decide
  have second : extension " txt" = "txt" := by decide
  refine ⟨first, second, ?_, ?_⟩
  · rw [toOption_pick, first]
    rfl
  · rw [toOption_pick, second]
    rfl

end Registry

end SnapshotReport
