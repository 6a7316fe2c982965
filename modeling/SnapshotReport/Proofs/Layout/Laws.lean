import Mathlib.Data.List.Basic
import SnapshotReport.Proofs.LineEnds
import SnapshotReport.Text.Width

/-! Laws of indentation and of line ends. A document is put together of texts that are indented
again and again, and its line ends are made the same at last, over all seams at once. So it matters
what either does to a text that is itself made of texts. Where a width comes as a number and a text
has only so much room, the laws of indentation are those of every width and text that fit. -/
namespace SnapshotReport.Text

section Indentation

theorem indentChars_indentChars (outer inner : Nat) (text : List Char) :
    indentChars outer (indentChars inner text) = indentChars (inner + outer) text := by
  have moved : padLine outer ∘ padLine inner = padLine (inner + outer) := by
    funext line
    rw [Function.comp_apply, padLine_padLine, Nat.add_comm]
  rw [← lines_inj, lines_indentChars, lines_indentChars, lines_indentChars, List.map_map, moved]

theorem indentChars_append_newline (width : Nat) (front back : List Char) :
    indentChars width (front ++ '\n' :: back) =
      indentChars width front ++ '\n' :: indentChars width back := by
  rw [← lines_inj, lines_append, lines_indentChars, lines_indentChars, lines_indentChars,
    lines_append, List.map_append]

theorem padLine_eq_nil_iff {width : Nat} {line : List Char} :
    padLine width line = [] ↔ line = [] := by
  cases line <;> simp

theorem padLine_injective (width : Nat) : Function.Injective (padLine width) := by
  intro line line' same
  cases line with
  | nil => exact (padLine_eq_nil_iff.mp same.symm).symm
  | cons c rest =>
    cases line' with
    | nil => exact padLine_eq_nil_iff.mp same
    | cons d rest' =>
      rw [padLine_cons, padLine_cons] at same
      exact List.append_cancel_left same

theorem indentChars_injective (width : Nat) : Function.Injective (indentChars width) := by
  intro text text' same
  have moved := congrArg lines same
  rw [lines_indentChars, lines_indentChars] at moved
  exact lines_inj.mp (List.map_injective_iff.mpr (padLine_injective width) moved)

/-- The lines that are empty stay so, and no other line becomes empty. -/
theorem getElem?_lines_indentChars_eq_nil_iff (width : Nat) (text : List Char) (i : Nat) :
    (lines (indentChars width text))[i]? = some [] ↔ (lines text)[i]? = some [] := by
  rw [lines_indentChars, List.getElem?_map, Option.map_eq_some_iff]
  simp only [padLine_eq_nil_iff, exists_eq_right]

theorem indent_indent (outer inner : Nat) (text : String) :
    indent outer (indent inner text) = indent (inner + outer) text := by
  rw [← String.toList_inj, toList_indent, toList_indent, toList_indent, indentChars_indentChars]

theorem indent_append_newline (width : Nat) (a b : String) :
    indent width (a ++ "\n" ++ b) = indent width a ++ "\n" ++ indent width b := by
  have split : (a ++ "\n" ++ b).toList = a.toList ++ '\n' :: b.toList := by simp
  have joined : (indent width a ++ "\n" ++ indent width b).toList =
      indentChars width a.toList ++ '\n' :: indentChars width b.toList := by simp
  rw [← String.toList_inj, toList_indent, split, joined, indentChars_append_newline]

theorem length_lines_indent (width : Nat) (text : String) :
    (lines (indent width text).toList).length = (lines text.toList).length := by
  rw [toList_indent, lines_indentChars, List.length_map]

theorem indent_injective (width : Nat) : Function.Injective (indent width) := by
  intro a b same
  have chars := congrArg String.toList same
  rw [toList_indent, toList_indent] at chars
  exact String.toList_inj.mp (indentChars_injective width chars)

/-- The widths of indentations add up. Texts one below the other can be indented together or one by
one. There are as many lines as before, and the same ones are empty. Two texts that are not the same
are not the same when they are indented alike. -/
theorem indentation_laws (outer inner width : Nat) :
    (∀ text, indent outer (indent inner text) = indent (inner + outer) text) ∧
    (∀ a b, indent width (a ++ "\n" ++ b) = indent width a ++ "\n" ++ indent width b) ∧
    (∀ text : String,
      (lines (indent width text).toList).length = (lines text.toList).length ∧
      ∀ i : Nat, (lines (indent width text).toList)[i]? = some [] ↔
        (lines text.toList)[i]? = some []) ∧
    Function.Injective (indent width) := by
  refine ⟨indent_indent outer inner, indent_append_newline width, fun text =>
    ⟨length_lines_indent width text, fun i => ?_⟩, indent_injective width⟩
  rw [toList_indent, getElem?_lines_indentChars_eq_nil_iff]

end Indentation

section Width

/-- The units of a line, with the one that ends it. -/
def lineUnits (line : List Char) : List Nat :=
  line.flatMap unitsOfChar ++ unitsOfChar '\n'

theorem flatMap_unlines (first : List Char) (rest : List (List Char)) :
    (unlines (first :: rest)).flatMap unitsOfChar ++ unitsOfChar '\n' =
      (first :: rest).flatMap lineUnits := by
  induction rest generalizing first with
  | nil => simp [unlines, lineUnits]
  | cons next rest ih =>
    rw [unlines_cons_cons, List.flatMap_append, List.flatMap_cons, List.flatMap_cons, ← ih next,
      lineUnits]
    simp only [List.append_assoc]

theorem units_eq_flatMap_lines (text : String) :
    units text ++ unitsOfChar '\n' = (lines text.toList).flatMap lineUnits := by
  obtain ⟨first, rest, split⟩ := List.exists_cons_of_ne_nil (lines_ne_nil text.toList)
  rw [split, ← flatMap_unlines, ← split, unlines_lines]
  rfl

theorem length_lineUnits_padLine (width : Nat) (line : List Char) :
    (lineUnits (padLine width line)).length =
      (lineUnits line).length + if line.isEmpty then 0 else width := by
  have pad : ((List.replicate width ' ').flatMap unitsOfChar).length = width := by
    rw [List.length_flatMap]
    simp [unitsOfChar]
  cases line with
  | nil => rfl
  | cons c rest =>
    rw [padLine_cons, lineUnits, List.flatMap_append, List.append_assoc, List.length_append, pad,
      lineUnits, Nat.add_comm]
    rfl

theorem length_flatMap_padLine (width : Nat) (ls : List (List Char)) :
    ((ls.map (padLine width)).flatMap lineUnits).length =
      (ls.flatMap lineUnits).length + width * ls.countP (!·.isEmpty) := by
  induction ls with
  | nil => rfl
  | cons line rest ih =>
    rw [List.map_cons, List.flatMap_cons, List.flatMap_cons, List.length_append, List.length_append,
      ih, length_lineUnits_padLine]
    cases line <;> simp [Nat.mul_succ] <;> omega

/-- The size of an indented text is known before it is made. -/
theorem length_units_indent (width : Nat) (text : String) :
    (units (indent width text)).length = indentedSize width text := by
  have before := congrArg List.length (units_eq_flatMap_lines text)
  have after := congrArg List.length (units_eq_flatMap_lines (indent width text))
  rw [toList_indent, lines_indentChars, length_flatMap_padLine, ← before, List.length_append,
    List.length_append] at after
  rw [indentedSize]
  omega

theorem indentedSize_mono {inner total : Nat} (within : inner ≤ total) (text : String) :
    indentedSize inner text ≤ indentedSize total text :=
  Nat.add_le_add_left (Nat.mul_le_mul_right _ within) _

/-- There is room for the text when it is moved by so many columns, and for the columns alone. -/
def Fits (columns : Nat) (text : String) : Prop :=
  columns ≤ maxUnits ∧ (units (indent columns text)).length ≤ maxUnits

theorem indentBy_of_truncate? {width : Number} {columns : Nat}
    (whole : width.truncate? = some (columns : Int)) (text : String) :
    indentBy width text =
      if columns ≤ maxUnits ∧ indentedSize columns text ≤ maxUnits then .ok (indent columns text)
      else .error .tooLong := by
  rw [indentBy, whole]
  simp only [Bool.and_eq_true, decide_eq_true_eq]

/-- A text is moved exactly when the width is a number of columns and there is room. -/
theorem indentBy_eq_ok_iff {width : Number} {text moved : String} :
    indentBy width text = .ok moved ↔ ∃ columns : Nat,
      width.truncate? = some (columns : Int) ∧ Fits columns text ∧ moved = indent columns text := by
  constructor
  · intro done
    obtain ⟨columns, whole⟩ : ∃ columns : Nat, width.truncate? = some (columns : Int) := by
      rw [indentBy] at done
      split at done
      · contradiction
      · contradiction
      · exact ⟨_, ‹_›⟩
    rw [indentBy_of_truncate? whole, ← length_units_indent] at done
    split at done
    · exact ⟨columns, whole, ‹_›, (Except.ok.inj done).symm⟩
    · contradiction
  · rintro ⟨columns, whole, fits, rfl⟩
    rw [indentBy_of_truncate? whole, ← length_units_indent]
    exact if_pos fits

/-- Widths add up, and no text that fits in the end is refused on the way. -/
theorem indentBy_bind_indentBy {inner outer total : Number} {a b : Nat}
    (first : inner.truncate? = some (a : Int)) (second : outer.truncate? = some (b : Int))
    (both : total.truncate? = some ((a + b : Nat) : Int)) (room : a + b ≤ maxUnits)
    (text : String) : (indentBy inner text).bind (indentBy outer) = indentBy total text := by
  have sizes := indentedSize_mono (Nat.le_add_right a b) text
  rw [indentBy_of_truncate? first, indentBy_of_truncate? both]
  by_cases fits : indentedSize (a + b) text ≤ maxUnits
  · rw [if_pos ⟨by omega, by omega⟩, if_pos ⟨room, fits⟩, Except.bind,
      indentBy_of_truncate? second, ← length_units_indent, indent_indent, length_units_indent,
      if_pos ⟨by omega, fits⟩]
  · rw [if_neg (not_and_of_not_right _ fits)]
    split
    · rw [Except.bind, indentBy_of_truncate? second, ← length_units_indent, indent_indent,
        length_units_indent, if_neg (not_and_of_not_right _ fits)]
    · rfl

/-- Texts one below the other are moved together where each of them is and both have room. -/
theorem indentBy_append_newline_iff {width : Number} {a b moved : String} :
    indentBy width (a ++ "\n" ++ b) = .ok moved ↔ ∃ front back,
      indentBy width a = .ok front ∧ indentBy width b = .ok back ∧
      moved = front ++ "\n" ++ back ∧ (units moved).length ≤ maxUnits := by
  constructor
  · intro done
    obtain ⟨columns, whole, ⟨room, fits⟩, rfl⟩ := indentBy_eq_ok_iff.mp done
    have sizes := fits
    rw [indent_append_newline, units_append, units_append, List.length_append,
      List.length_append] at sizes
    exact ⟨_, _, indentBy_eq_ok_iff.mpr ⟨columns, whole, ⟨room, by omega⟩, rfl⟩,
      indentBy_eq_ok_iff.mpr ⟨columns, whole, ⟨room, by omega⟩, rfl⟩,
      indent_append_newline _ _ _, fits⟩
  · rintro ⟨front, back, upper, lower, rfl, fits⟩
    obtain ⟨columns, whole, ⟨room, -⟩, rfl⟩ := indentBy_eq_ok_iff.mp upper
    obtain ⟨others, whole', -, rfl⟩ := indentBy_eq_ok_iff.mp lower
    obtain rfl := Int.ofNat.inj (Option.some.inj (whole.symm.trans whole'))
    rw [← indent_append_newline] at fits ⊢
    exact indentBy_eq_ok_iff.mpr ⟨columns, whole, ⟨room, fits⟩, rfl⟩

/-- A text that is moved has as many lines as before, and the same ones are empty. -/
theorem lines_of_indentBy {width : Number} {text moved : String}
    (done : indentBy width text = .ok moved) :
    (lines moved.toList).length = (lines text.toList).length ∧
    ∀ i : Nat, (lines moved.toList)[i]? = some [] ↔ (lines text.toList)[i]? = some [] := by
  obtain ⟨columns, -, -, rfl⟩ := indentBy_eq_ok_iff.mp done
  refine ⟨length_lines_indent columns text, fun i => ?_⟩
  rw [toList_indent, getElem?_lines_indentChars_eq_nil_iff]

theorem eq_of_indentBy {width : Number} {a b moved : String}
    (done : indentBy width a = .ok moved) (done' : indentBy width b = .ok moved) : a = b := by
  obtain ⟨columns, whole, -, rfl⟩ := indentBy_eq_ok_iff.mp done
  obtain ⟨others, whole', -, same⟩ := indentBy_eq_ok_iff.mp done'
  obtain rfl := Int.ofNat.inj (Option.some.inj (whole.symm.trans whole'))
  exact indent_injective columns same

end Width

section LineEnds

/-- One pass over a text. A carriage return becomes a line feed, one with the line feed behind it
becomes a line feed together with it, and everything else stays. -/
def scanLineEnds : List Char → List Char
  | '\r' :: '\n' :: rest => '\n' :: scanLineEnds rest
  | '\r' :: rest => '\n' :: scanLineEnds rest
  | c :: rest => c :: scanLineEnds rest
  | [] => []

/-- Put one behind the other, the texts have a pair in between that neither of them has. -/
def JoinsPair (a b : String) : Prop :=
  a.toList.getLast? = some '\r' ∧ b.toList.head? = some '\n'

theorem normalizeChars_eq_scanLineEnds (text : List Char) :
    normalizeChars text = scanLineEnds text := by
  fun_induction scanLineEnds text with
  | case1 rest ih => rw [normalizeChars_pair rfl, normalizeChars_cons (by decide), ih]
  | case2 rest single ih =>
    rw [normalizeChars_return, ih]
    intro pair
    obtain ⟨back, rfl⟩ := List.head?_eq_some_iff.mp pair
    exact single back rfl
  | case3 c rest _ other ih => rw [normalizeChars_cons other, ih]
  | case4 => rfl

theorem normalizeNewlines_append {a b : String} (apart : ¬JoinsPair a b) :
    normalizeNewlines (a ++ b) = normalizeNewlines a ++ normalizeNewlines b := by
  rw [JoinsPair, not_and_or] at apart
  rw [← String.toList_inj, String.toList_append, toList_normalizeNewlines, String.toList_append,
    normalizeChars_append apart, toList_normalizeNewlines, toList_normalizeNewlines]

/-- The line ends of either text make one line end of the two. -/
theorem normalizeNewlines_append_of_joinsPair {a b : String} (joins : JoinsPair a b) :
    ∃ front back, normalizeNewlines a = front ++ "\n" ∧ normalizeNewlines b = "\n" ++ back ∧
      normalizeNewlines (a ++ b) = front ++ "\n" ++ back := by
  obtain ⟨front, ending⟩ := List.getLast?_eq_some_iff.mp joins.1
  obtain ⟨back, start⟩ := List.head?_eq_some_iff.mp joins.2
  refine ⟨String.ofList (normalizeChars front), String.ofList (normalizeChars back), ?_, ?_, ?_⟩
  · rw [← String.toList_inj, toList_normalizeNewlines, ending,
      normalizeChars_append (.inr (by simp)), normalizeChars_return (by simp)]
    simp [normalizeChars, mergePairs, replaceReturns]
  · rw [← String.toList_inj, toList_normalizeNewlines, start, normalizeChars_cons (by decide)]
    simp
  · rw [← String.toList_inj, toList_normalizeNewlines, String.toList_append, ending, start,
      List.append_assoc, List.singleton_append, normalizeChars_append (.inr (by simp)),
      normalizeChars_pair rfl, normalizeChars_cons (by decide)]
    simp

/-- Line ends are made the same as by one pass from the front. No carriage return is left, and
nothing is left to be done. Two texts one behind the other are treated as each by itself, but that a
carriage return and a line feed that come together between them are one line end and not two. -/
theorem line_ends_in_one_scan :
    (∀ text, normalizeNewlines text = String.ofList (scanLineEnds text.toList)) ∧
    (∀ text, '\r' ∉ (normalizeNewlines text).toList ∧
      normalizeNewlines (normalizeNewlines text) = normalizeNewlines text) ∧
    ∀ a b,
      (¬JoinsPair a b → normalizeNewlines (a ++ b) = normalizeNewlines a ++ normalizeNewlines b) ∧
      (JoinsPair a b → ∃ front back,
        normalizeNewlines a = front ++ "\n" ∧ normalizeNewlines b = "\n" ++ back ∧
        normalizeNewlines (a ++ b) = front ++ "\n" ++ back) := by
  have clean (text : String) : '\r' ∉ (normalizeNewlines text).toList := by
    rw [toList_normalizeNewlines]
    exact not_mem_normalizeChars text.toList
  refine ⟨fun text => ?_, fun text => ⟨clean text, ?_⟩, fun a b =>
    ⟨normalizeNewlines_append, normalizeNewlines_append_of_joinsPair⟩⟩
  · rw [normalizeNewlines, normalizeChars_eq_scanLineEnds]
  · rw [← String.toList_inj, toList_normalizeNewlines,
      normalizeChars_of_not_mem (clean text)]

end LineEnds

end SnapshotReport.Text
