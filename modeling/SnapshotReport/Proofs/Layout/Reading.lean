import Mathlib.Data.List.Chain
import SnapshotReport.Proofs.LineEnds

/-! Outlines read back from lines. Where each text takes up one line and begins with a character that
is no space, the margin of a line shows its level; and levels show which text belongs to which, since
what is below a text is what follows it at deeper levels. Empty lines carry no level and are passed
over. -/
namespace SnapshotReport

namespace Text

/-- The text is not empty, and it does not begin with a space. -/
def Begins (text : String) : Prop :=
  ∃ c rest, text.toList = c :: rest ∧ c ≠ ' '

/-- There is no line end in the text. -/
structure Unbroken (text : String) : Prop where
  newline : '\n' ∉ text.toList
  carriageReturn : '\r' ∉ text.toList

/-- How far a line is from the left. -/
def margin (line : List Char) : Nat :=
  (line.takeWhile (· = ' ')).length

/-- The level of a line, and its text. -/
def readLine (line : List Char) : Nat × String :=
  (margin line / levelWidth, String.ofList (line.dropWhile (· = ' ')))

theorem Begins.append {front : String} (begins : Begins front) (back : String) :
    Begins (front ++ back) := by
  obtain ⟨c, rest, chars, other⟩ := begins
  exact ⟨c, rest ++ back.toList, by rw [String.toList_append, chars, List.cons_append], other⟩

/-- An empty text may stand in front, and any other that does not begin with a space. -/
theorem Begins.behind {back : String} (begins : Begins back) {front : String}
    (flush : front.toList.head? ≠ some ' ') : Begins (front ++ back) := by
  cases chars : front.toList with
  | nil =>
    obtain ⟨c, rest, same, other⟩ := begins
    exact ⟨c, rest, by rw [String.toList_append, chars, List.nil_append, same], other⟩
  | cons c rest =>
    refine Begins.append ⟨c, rest, chars, ?_⟩ back
    rintro rfl
    exact flush (by rw [chars, List.head?_cons])

theorem Begins.ne_empty {text : String} (begins : Begins text) : text ≠ "" := by
  rintro rfl
  obtain ⟨c, rest, chars, -⟩ := begins
  simp at chars

theorem lines_of_not_mem {line : List Char} (none : '\n' ∉ line) : lines line = [line] := by
  have single : unlines [line] = line := by simp [unlines]
  rw [← single, lines_unlines (by simpa using none) (by simp), single]

theorem brokenLine_of_not_mem {line : List Char} (newline : '\n' ∉ line) (ret : '\r' ∉ line) :
    brokenLine line = [line] := by
  have plain : '\r' ∉ line ++ ['\n'] := by simpa using ret
  rw [brokenLine, endLine, normalizeChars_of_not_mem plain, List.dropLast_concat,
    lines_of_not_mem newline]

theorem takeWhile_replicate_append (width : Nat) {c : Char} (rest : List Char) (other : c ≠ ' ') :
    (List.replicate width ' ' ++ c :: rest).takeWhile (· = ' ') = List.replicate width ' ' := by
  rw [List.takeWhile_append_of_pos (by simp), List.takeWhile_cons_of_neg (by simpa using other),
    List.append_nil]

theorem dropWhile_replicate_append (width : Nat) {c : Char} (rest : List Char) (other : c ≠ ' ') :
    (List.replicate width ' ' ++ c :: rest).dropWhile (· = ' ') = c :: rest := by
  rw [List.dropWhile_append_of_pos (by simp), List.dropWhile_cons_of_neg (by simpa using other)]

end Text

namespace Outline

/-- The line of a text at its level. -/
def placeLine (placed : Nat × String) : List Char :=
  Text.padLine (placed.1 * Text.levelWidth) placed.2.toList

theorem placeLine_eq_nil_iff {placed : Nat × String} : placeLine placed = [] ↔ placed.2 = "" := by
  rw [placeLine, ← String.toList_eq_nil_iff]
  cases placed.2.toList with
  | nil => simp
  | cons c rest => simp

theorem documentLines_eq_map {texts : List (Nat × String)}
    (unbroken : ∀ placed ∈ texts, Text.Unbroken placed.2) :
    documentLines texts = texts.map placeLine := by
  have single (placed : Nat × String) (member : placed ∈ texts) :
      (placedLines placed).flatMap Text.brokenLine = [placeLine placed] := by
    obtain ⟨newline, ret⟩ := unbroken placed member
    have newline' : '\n' ∉ placeLine placed := Text.not_mem_padLine newline
    have ret' : '\r' ∉ placeLine placed := by
      rw [placeLine, Text.padLine]
      split
      · exact ret
      · simp [ret]
    rw [placedLines, Text.lines_of_not_mem newline, List.map_singleton, List.flatMap_singleton]
    exact Text.brokenLine_of_not_mem newline' ret'
  rw [documentLines, List.flatMap_assoc, List.flatMap_congr single,
    ← List.map_eq_flatMap]

section Margins

variable {placed : Nat × String}

theorem margin_placeLine (begins : Text.Begins placed.2) :
    Text.margin (placeLine placed) = placed.1 * Text.levelWidth := by
  obtain ⟨c, rest, chars, other⟩ := begins
  rw [placeLine, chars, Text.padLine_cons, Text.margin,
    Text.takeWhile_replicate_append _ rest other, List.length_replicate]

theorem readLine_placeLine (begins : Text.Begins placed.2) :
    Text.readLine (placeLine placed) = placed := by
  have margin := margin_placeLine begins
  obtain ⟨c, rest, chars, other⟩ := begins
  rw [Text.readLine, margin, Nat.mul_div_cancel _ (by decide : 0 < Text.levelWidth), placeLine,
    chars, Text.padLine_cons, Text.dropWhile_replicate_append _ rest other, ← chars,
    String.ofList_toList]

end Margins

/-- Empty texts stand as empty lines, and no others do. -/
theorem filter_map_placeLine (texts : List (Nat × String)) :
    (texts.map placeLine).filter (· ≠ []) = (texts.filter (·.2 ≠ "")).map placeLine := by
  have shown : (fun line => decide (line ≠ [])) ∘ placeLine =
      fun placed => decide (placed.2 ≠ "") := by
    funext placed
    simp [placeLine_eq_nil_iff]
  rw [List.filter_map, shown]

/-- The lines of texts show the texts and their levels. -/
theorem map_readLine_placeLine {texts : List (Nat × String)}
    (begins : ∀ placed ∈ texts, Text.Begins placed.2) :
    (texts.map placeLine).map Text.readLine = texts := by
  rw [List.map_map]
  conv_rhs => rw [← List.map_id texts]
  apply List.map_congr_left
  intro placed member
  exact readLine_placeLine (begins placed member)

mutual

theorem le_of_mem_levels (level : Nat) : (o : Outline) → ∀ placed ∈ o.levels level,
    level ≤ placed.1
  | .node _ children => by
    intro placed member
    rw [mem_levels] at member
    rcases member with rfl | below
    · exact Nat.le_refl level
    · exact Nat.le_of_succ_le (le_of_mem_levelsOf (level + 1) children placed below)

/-- The texts of outlines at a level are at this level or deeper. -/
theorem le_of_mem_levelsOf (level : Nat) : (outlines : List Outline) →
    ∀ placed ∈ levelsOf level outlines, level ≤ placed.1
  | [] => fun _ member => absurd member List.not_mem_nil
  | o :: rest => by
    intro placed member
    rw [levelsOf, List.mem_append] at member
    rcases member with here | behind
    · exact le_of_mem_levels level o placed here
    · exact le_of_mem_levelsOf level rest placed behind

end

theorem head?_levelsOf {level : Nat} {outlines : List Outline} {placed : Nat × String}
    (first : placed ∈ (levelsOf level outlines).head?) : placed.1 = level := by
  cases outlines with
  | nil => contradiction
  | cons o rest =>
    obtain ⟨text, children⟩ := o
    obtain rfl := Option.some.inj first
    rfl

/-- What is below a text ends where the next one at its level or above begins. -/
theorem append_inj_of_levels {level : Nat} {below below' behind behind' : List (Nat × String)}
    (deep : ∀ placed ∈ below, level < placed.1) (deep' : ∀ placed ∈ below', level < placed.1)
    (next : ∀ placed ∈ behind.head?, placed.1 = level)
    (next' : ∀ placed ∈ behind'.head?, placed.1 = level)
    (same : below ++ behind = below' ++ behind') : below = below' ∧ behind = behind' := by
  induction below generalizing below' with
  | nil =>
    cases below' with
    | nil => exact ⟨rfl, same⟩
    | cons placed rest =>
      have here := next placed (by rw [← List.nil_append behind, same]; rfl)
      have within := deep' placed List.mem_cons_self
      omega
  | cons placed rest ih =>
    cases below' with
    | nil =>
      have here := next' placed (by rw [← List.nil_append behind', ← same]; rfl)
      have within := deep placed List.mem_cons_self
      omega
    | cons placed' rest' =>
      obtain ⟨rfl, tails⟩ := List.cons.inj same
      obtain ⟨rfl, rfl⟩ := ih (fun other member => deep other (List.mem_cons_of_mem _ member))
        (fun other member => deep' other (List.mem_cons_of_mem _ member)) tails
      exact ⟨rfl, rfl⟩

/-- Outlines are told by their texts from top to bottom with their levels. -/
theorem levelsOf_injective (level : Nat) : {outlines outlines' : List Outline} →
    levelsOf level outlines = levelsOf level outlines' → outlines = outlines'
  | [], [], _ => rfl
  | [], .node _ _ :: _, same => by simp [levelsOf, levels] at same
  | .node _ _ :: _, [], same => by simp [levelsOf, levels] at same
  | .node text children :: rest, .node text' children' :: rest', same => by
    rw [levelsOf, levelsOf, levels, levels, List.cons_append, List.cons_append] at same
    obtain ⟨first, same⟩ := List.cons.inj same
    obtain ⟨below, behind⟩ := append_inj_of_levels
      (le_of_mem_levelsOf (level + 1) children) (le_of_mem_levelsOf (level + 1) children')
      (fun _ => head?_levelsOf) (fun _ => head?_levelsOf) same
    rw [(Prod.mk.inj first).2, levelsOf_injective (level + 1) below,
      levelsOf_injective level behind]
termination_by outlines => sizeOf outlines

mutual

theorem levels_isChain (level : Nat) : (o : Outline) →
    (o.levels level).IsChain fun a b => b.1 ≤ a.1 + 1
  | .node text children => by
    rw [levels]
    apply (levelsOf_isChain (level + 1) children).cons
    intro next first
    rw [head?_levelsOf first]

/-- From one text to the next the level rises by one at most. -/
theorem levelsOf_isChain (level : Nat) : (outlines : List Outline) →
    (levelsOf level outlines).IsChain fun a b => b.1 ≤ a.1 + 1
  | [] => .nil
  | o :: rest => by
    rw [levelsOf]
    apply (levels_isChain level o).append (levelsOf_isChain level rest)
    intro last member next first
    have deep := le_of_mem_levels level o last (List.mem_of_getLast? member)
    rw [head?_levelsOf first]
    omega

end

end Outline

end SnapshotReport
