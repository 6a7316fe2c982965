import SnapshotReport.Proofs.Layout

/-! Carriage returns in indented text. Indentation knows line feeds only, and it comes before line
ends are made the same. So whether a text stands in a block as it would with line feeds alone
depends on where its carriage returns are: at the end of a line that has something on it they do no
harm, and everywhere else they do. -/
namespace SnapshotReport

namespace Text

/-- Every carriage return ends a line, together with the line feed that is behind it or behind
others of its kind, and none stands where a line begins. The first line of the text is taken to have
something in front of it. -/
def ReturnsEndLines (text : List Char) : Prop :=
  ∀ front back, text = front ++ '\r' :: back →
    (back.head? = some '\n' ∨ back.head? = some '\r') ∧ front.getLast? ≠ some '\n'

theorem returnsEndLines_nil : ReturnsEndLines [] := by
  intro front back split
  simp at split

theorem returnsEndLines_cons {c : Char} {rest : List Char} : ReturnsEndLines (c :: rest) ↔
    (c = '\r' → rest.head? = some '\n' ∨ rest.head? = some '\r') ∧
      (c = '\n' → rest.head? ≠ some '\r') ∧ ReturnsEndLines rest := by
  constructor
  · intro ends
    refine ⟨?_, ?_, ?_⟩
    · rintro rfl
      exact (ends [] rest rfl).1
    · rintro rfl start
      obtain ⟨back, rfl⟩ := List.head?_eq_some_iff.mp start
      exact (ends ['\n'] back rfl).2 rfl
    · rintro front back rfl
      obtain ⟨behind, before⟩ := ends (c :: front) back rfl
      refine ⟨behind, fun last => before ?_⟩
      rw [List.getLast?_cons, last]
      rfl
  · rintro ⟨here, start, ends⟩ front back split
    cases front with
    | nil =>
      obtain ⟨rfl, rfl⟩ := List.cons.inj split
      exact ⟨here rfl, by simp⟩
    | cons d front =>
      obtain ⟨rfl, rfl⟩ := List.cons.inj split
      obtain ⟨behind, before⟩ := ends front back rfl
      refine ⟨behind, fun last => ?_⟩
      cases front with
      | nil => exact start (by simpa using last) rfl
      | cons e front => exact before (by simpa [List.getLast?_cons] using last)

theorem normalizeChars_cons {c : Char} {rest : List Char} (other : c ≠ '\r') :
    normalizeChars (c :: rest) = c :: normalizeChars rest := by
  rw [normalizeChars, mergePairs_cons, if_neg fun pair => other pair.1, replaceReturns,
    List.map_cons, if_neg other]
  rfl

theorem normalizeChars_return {rest : List Char} (single : rest.head? ≠ some '\n') :
    normalizeChars ('\r' :: rest) = '\n' :: normalizeChars rest := by
  rw [normalizeChars, mergePairs_cons, if_neg fun pair => single pair.2, replaceReturns,
    List.map_cons, if_pos rfl]
  rfl

theorem normalizeChars_pair {rest : List Char} (pair : rest.head? = some '\n') :
    normalizeChars ('\r' :: rest) = normalizeChars rest := by
  rw [normalizeChars, mergePairs_cons, if_pos ⟨rfl, pair⟩]
  rfl

/-- A carriage return is seen as a line feed, be it its own or that of the pair. -/
theorem normalizeChars_return_eq_cons (rest : List Char) :
    ∃ back, normalizeChars ('\r' :: rest) = '\n' :: back := by
  by_cases pair : rest.head? = some '\n'
  · obtain ⟨back, rfl⟩ := List.head?_eq_some_iff.mp pair
    exact ⟨_, by rw [normalizeChars_pair pair, normalizeChars_cons (by decide)]⟩
  · exact ⟨_, normalizeChars_return pair⟩

theorem not_mem_normalizeChars (text : List Char) : '\r' ∉ normalizeChars text := by
  intro member
  obtain ⟨c, -, same⟩ := List.mem_map.mp member
  split at same
  · exact absurd same (by decide)
  · contradiction

theorem normalizeChars_of_not_mem {text : List Char} (none : '\r' ∉ text) :
    normalizeChars text = text := by
  induction text with
  | nil => rfl
  | cons c rest ih =>
    rw [List.mem_cons, not_or] at none
    obtain ⟨apart, none⟩ := none
    rw [normalizeChars_cons (Ne.symm apart), ih none]

theorem endLine_of_getLast? {text : List Char} (last : text.getLast? ≠ some '\r') :
    endLine text = normalizeChars text ++ ['\n'] := by
  rw [endLine, normalizeChars_append (.inl last)]
  rfl

theorem endLine_normalizeChars (text : List Char) :
    endLine (normalizeChars text) = normalizeChars text ++ ['\n'] := by
  have none := not_mem_normalizeChars text
  rw [endLine_of_getLast?, normalizeChars_of_not_mem none]
  intro last
  exact none (List.mem_of_getLast? last)

/-- A carriage return at the end of a text is one with the line feed that is to end it. -/
theorem endLine_append_return (text : List Char) :
    endLine (text ++ ['\r']) = normalizeChars (text ++ ['\r']) := by
  have merged : replaceReturns (mergePairs (text ++ ['\r', '\n'])) =
      replaceReturns (mergePairs (text ++ ['\r'])) := by
    induction text with
    | nil => simp [mergePairs_cons, mergePairs, replaceReturns]
    | cons c rest ih =>
      have head : (rest ++ ['\r', '\n']).head? = (rest ++ ['\r']).head? := by cases rest <;> rfl
      rw [List.cons_append, List.cons_append, mergePairs_cons, mergePairs_cons, head]
      split
      · exact ih
      · rw [replaceReturns, replaceReturns, List.map_cons, List.map_cons]
        exact congrArg _ ih
  rw [endLine, List.append_assoc]
  exact merged

/-- At the margin only a carriage return at the very end of a text matters. -/
theorem endLine_eq_iff (text : List Char) :
    endLine text = endLine (normalizeChars text) ↔ text.getLast? ≠ some '\r' := by
  rw [endLine_normalizeChars]
  constructor
  · intro same last
    obtain ⟨front, rfl⟩ := List.getLast?_eq_some_iff.mp last
    rw [endLine_append_return] at same
    have size := congrArg List.length same
    simp at size
  · exact endLine_of_getLast?

/-- What indentation makes of a text that stands behind something on its line. -/
def behind (width : Nat) (text : List Char) : List Char :=
  match text with
  | [] => []
  | c :: rest => c :: if c = '\n' then indentChars width rest else behind width rest

theorem behind_newline (width : Nat) (rest : List Char) :
    behind width ('\n' :: rest) = '\n' :: indentChars width rest :=
  rfl

theorem behind_cons (width : Nat) {c : Char} (rest : List Char) (other : c ≠ '\n') :
    behind width (c :: rest) = c :: behind width rest := by
  rw [behind, if_neg other]

theorem behind_eq_unlines (width : Nat) (text : List Char) {first : List Char}
    {others : List (List Char)} (split : lines text = first :: others) :
    behind width text = unlines (first :: others.map (padLine width)) := by
  induction text generalizing first others with
  | nil =>
    obtain ⟨rfl, rfl⟩ := List.cons.inj (show [[]] = first :: others from split)
    rfl
  | cons c rest ih =>
    rw [lines, List.splitOn_cons_eq_if_modifyHead] at split
    by_cases feed : c = '\n'
    · rw [if_pos (by simpa using feed)] at split
      obtain ⟨rfl, rfl⟩ := List.cons.inj split
      obtain ⟨next, more, tail⟩ := List.exists_cons_of_ne_nil (lines_ne_nil rest)
      rw [behind, if_pos feed, indentChars, show rest.splitOn '\n' = lines rest from rfl, tail,
        List.map_cons, unlines_cons_cons, feed]
      rfl
    · rw [if_neg (by simpa using feed)] at split
      obtain ⟨next, more, tail⟩ := List.exists_cons_of_ne_nil (lines_ne_nil rest)
      rw [show rest.splitOn '\n' = lines rest from rfl, tail, List.modifyHead_cons] at split
      obtain ⟨rfl, rfl⟩ := List.cons.inj split
      rw [behind, if_neg feed, ih tail]
      cases more <;> simp [unlines]

theorem indentChars_newline (width : Nat) (rest : List Char) :
    indentChars width ('\n' :: rest) = '\n' :: indentChars width rest := by
  obtain ⟨next, more, tail⟩ := List.exists_cons_of_ne_nil (lines_ne_nil rest)
  have split : lines ('\n' :: rest) = [] :: lines rest := lines_append [] rest
  rw [indentChars, indentChars, split, tail, List.map_cons, List.map_cons, padLine_nil,
    unlines_cons_cons]
  rfl

theorem indentChars_cons (width : Nat) {c : Char} (rest : List Char) (other : c ≠ '\n') :
    indentChars width (c :: rest) = List.replicate width ' ' ++ c :: behind width rest := by
  obtain ⟨next, more, tail⟩ := List.exists_cons_of_ne_nil (lines_ne_nil rest)
  have split : lines (c :: rest) = (c :: next) :: more := by
    rw [lines, List.splitOn_cons_eq_if_modifyHead, if_neg (by simpa using other),
      show rest.splitOn '\n' = lines rest from rfl, tail, List.modifyHead_cons]
  rw [indentChars, split, List.map_cons, padLine_cons, behind_eq_unlines width rest tail]
  cases more.map (padLine width) <;> simp [unlines]

/-- Of what stands in front of a text only that it is on the same line has a bearing on how the text
is indented. -/
theorem indentChars_append (width : Nat) {front : List Char} {c : Char} (other : c ≠ '\n')
    (last : front.getLast? = some c) (text : List Char) :
    indentChars width (front ++ text) = indentChars width front ++ behind width text ∧
    behind width (front ++ text) = behind width front ++ behind width text := by
  induction front with
  | nil => simp at last
  | cons d front ih =>
    by_cases feed : d = '\n'
    · subst feed
      cases front with
      | nil => exact absurd (Option.some.inj last).symm other
      | cons e front =>
        obtain ⟨indented, moved⟩ := ih (by simpa [List.getLast?_cons_cons] using last)
        rw [List.cons_append, indentChars_newline, indentChars_newline, behind_newline,
          behind_newline, indented]
        exact ⟨rfl, rfl⟩
    · have rest : behind width (front ++ text) = behind width front ++ behind width text := by
        cases front with
        | nil => rfl
        | cons e front => exact (ih (by simpa [List.getLast?_cons_cons] using last)).2
      rw [List.cons_append, indentChars_cons width _ feed, indentChars_cons width _ feed,
        behind_cons width _ feed, behind_cons width _ feed, rest]
      simp

theorem getLast?_indentChars (width : Nat) {text : List Char} {c : Char} (other : c ≠ '\n')
    (last : text.getLast? = some c) :
    (indentChars width text).getLast? = some c ∧ (behind width text).getLast? = some c := by
  induction text with
  | nil => simp at last
  | cons d rest ih =>
    cases rest with
    | nil =>
      obtain rfl : d = c := Option.some.inj last
      rw [indentChars_cons width [] other, behind_cons width [] other]
      simp [behind]
    | cons e rest =>
      obtain ⟨indented, moved⟩ := ih (by simpa [List.getLast?_cons_cons] using last)
      by_cases feed : d = '\n'
      · subst feed
        simp [indentChars_newline, behind_newline, List.getLast?_cons, indented]
      · simp [indentChars_cons width _ feed, behind_cons width _ feed, List.getLast?_cons, moved]

theorem endLine_cons {c : Char} {rest : List Char} (other : c ≠ '\r') :
    endLine (c :: rest) = c :: endLine rest :=
  normalizeChars_cons other

theorem endLine_return {rest : List Char} (single : rest.head?.getD '\n' ≠ '\n') :
    endLine ('\r' :: rest) = '\n' :: endLine rest := by
  apply normalizeChars_return
  cases rest with
  | nil => simp at single
  | cons => simpa using single

theorem endLine_pair {rest : List Char} (pair : rest.head?.getD '\n' = '\n') :
    endLine ('\r' :: rest) = endLine rest := by
  apply normalizeChars_pair
  cases rest with
  | nil => rfl
  | cons => simpa using pair

theorem head?_behind (width : Nat) (text : List Char) :
    (behind width text).head? = text.head? := by
  cases text <;> rfl

theorem endLine_replicate_append (width : Nat) (text : List Char) :
    endLine (List.replicate width ' ' ++ text) = List.replicate width ' ' ++ endLine text := by
  induction width with
  | zero => rfl
  | succ width ih =>
    rw [List.replicate_succ, List.cons_append, endLine_cons (by decide), ih]
    rfl

theorem endLine_indentChars_cons (width : Nat) {c : Char} (rest : List Char) (other : c ≠ '\n') :
    endLine (indentChars width (c :: rest)) =
      List.replicate width ' ' ++ endLine (behind width (c :: rest)) := by
  rw [indentChars_cons width rest other, endLine_replicate_append,
    behind_cons width rest other]

theorem endLine_indentChars_newline (width : Nat) (rest : List Char) :
    endLine (indentChars width ('\n' :: rest)) = endLine (behind width ('\n' :: rest)) := by
  rw [indentChars_newline, behind_newline]

/-- What stands in front of the first line end of either kind. -/
def firstLine (text : List Char) : List Char :=
  text.takeWhile fun c => c ≠ '\n' && c ≠ '\r'

theorem firstLine_normalizeChars (text : List Char) :
    firstLine (normalizeChars text) = firstLine text := by
  induction text with
  | nil => rfl
  | cons c rest ih =>
    by_cases carriage : c = '\r'
    · subst carriage
      obtain ⟨back, normal⟩ := normalizeChars_return_eq_cons rest
      simp [normal, firstLine]
    · rw [firstLine, firstLine] at ih
      rw [normalizeChars_cons carriage, firstLine, firstLine, List.takeWhile_cons,
        List.takeWhile_cons, ih]

theorem firstLine_endLine_behind (width : Nat) (text : List Char) :
    firstLine (endLine (behind width text)) = firstLine text := by
  induction text with
  | nil => rfl
  | cons c rest ih =>
    rw [behind]
    by_cases carriage : c = '\r'
    · subst carriage
      rw [if_neg (by decide)]
      by_cases pair : rest.head?.getD '\n' = '\n'
      · rw [endLine_pair (by rwa [head?_behind]), ih]
        cases rest with
        | nil => rfl
        | cons d back =>
          obtain rfl : d = '\n' := by simpa using pair
          simp [firstLine]
      · rw [endLine_return (by rwa [head?_behind])]
        simp [firstLine]
    · rw [endLine_cons carriage]
      by_cases feed : c = '\n'
      · subst feed
        simp [firstLine]
      · rw [if_neg feed]
        simpa [firstLine, carriage, feed] using ih

/-- Behind a line end that indentation does not know the next line is not moved. -/
theorem endLine_behind_ne {width : Nat} (positive : 0 < width) (text : List Char) :
    endLine (behind width text) ≠
      List.replicate width ' ' ++ endLine (behind width (normalizeChars text)) := by
  intro same
  have first := congrArg firstLine same
  have blank : ∀ c ∈ List.replicate width ' ', (c ≠ '\n' && c ≠ '\r') = true := by
    intro c member
    rw [List.eq_of_mem_replicate member]
    decide
  have kept : firstLine (endLine (behind width (normalizeChars text))) = firstLine text := by
    rw [firstLine_endLine_behind, firstLine_normalizeChars]
  have moved : firstLine (List.replicate width ' ' ++
      endLine (behind width (normalizeChars text))) =
        List.replicate width ' ' ++ firstLine text := by
    rw [← kept]
    exact List.takeWhile_append_of_pos blank
  rw [moved, firstLine_endLine_behind] at first
  have size := congrArg List.length first
  rw [List.length_append, List.length_replicate] at size
  omega

/-- An indented text, given the same behind something on its line. -/
theorem endLine_indentChars_eq_iff {width : Nat} (positive : 0 < width) {text : List Char}
    (same : endLine (behind width text) = endLine (behind width (normalizeChars text)) ↔
      ReturnsEndLines text) :
    endLine (indentChars width text) = endLine (indentChars width (normalizeChars text)) ↔
      text.head? ≠ some '\r' ∧ ReturnsEndLines text := by
  cases text with
  | nil => simp [normalizeChars, mergePairs, replaceReturns, returnsEndLines_nil]
  | cons c rest =>
    by_cases carriage : c = '\r'
    · subst carriage
      -- The line has nothing on it but a carriage return, and so it is moved.
      obtain ⟨width, rfl⟩ := Nat.exists_eq_succ_of_ne_zero (Nat.pos_iff_ne_zero.mp positive)
      obtain ⟨back, normal⟩ := normalizeChars_return_eq_cons rest
      rw [normal, indentChars_newline, endLine_cons (by decide), endLine_indentChars_cons _ _
        (by decide), List.replicate_succ]
      simp
    · by_cases feed : c = '\n'
      · subst feed
        rw [normalizeChars_cons carriage] at same ⊢
        rw [endLine_indentChars_newline, endLine_indentChars_newline, same]
        simp
      · rw [normalizeChars_cons carriage] at same ⊢
        rw [endLine_indentChars_cons _ _ feed, endLine_indentChars_cons _ _ feed,
          List.append_right_inj, same]
        simp [carriage]

/-- Behind something on its line a text is indented as if it had line feeds only exactly if its
carriage returns end lines. Each step asks both for the rest behind something and for the rest at
the start of a line, whose first character decides if the line is moved. -/
theorem endLine_behind_eq_iff {width : Nat} (positive : 0 < width) (text : List Char) :
    endLine (behind width text) = endLine (behind width (normalizeChars text)) ↔
      ReturnsEndLines text := by
  induction text with
  | nil => simp [normalizeChars, mergePairs, replaceReturns, returnsEndLines_nil]
  | cons c rest ih =>
    rw [returnsEndLines_cons]
    by_cases carriage : c = '\r'
    · subst carriage
      rw [behind_cons width rest (by decide)]
      cases rest with
      | nil =>
        simp [behind, normalizeChars, mergePairs, replaceReturns, indentChars, lines, unlines,
          endLine, mergePairs_cons]
      | cons d back =>
        by_cases pair : d = '\n'
        · subst pair
          rw [endLine_pair (by rw [head?_behind]; rfl), normalizeChars_pair rfl, ih]
          simp
        · -- The line feed that replaces the carriage return starts a new line.
          rw [endLine_return (by rw [head?_behind]; exact pair),
            normalizeChars_return (by simpa using pair), behind_newline,
            endLine_cons (by decide), List.cons_inj_right]
          by_cases again : d = '\r'
          · subst again
            obtain ⟨rest, normal⟩ := normalizeChars_return_eq_cons back
            rw [normal] at ih ⊢
            rw [endLine_indentChars_newline, ih]
            simp
          · have moved := endLine_behind_ne positive (d :: back)
            rw [normalizeChars_cons again] at moved ⊢
            rw [endLine_indentChars_cons width _ pair]
            simp [moved, pair, again]
    · rw [normalizeChars_cons carriage, behind, behind, endLine_cons carriage,
        endLine_cons carriage, List.cons_inj_right]
      by_cases feed : c = '\n'
      · rw [if_pos feed, if_pos feed, endLine_indentChars_eq_iff positive ih]
        simp [feed]
      · rw [if_neg feed, if_neg feed, ih]
        simp [carriage, feed]

theorem length_lines (text : List Char) : (lines text).length = text.count '\n' + 1 := by
  induction text with
  | nil => rfl
  | cons c rest ih =>
    rw [lines, List.splitOn_cons_eq_if_modifyHead, List.count_cons]
    rw [lines] at ih
    split <;> simp [ih]

theorem length_brokenLine (line : List Char) :
    (brokenLine line).length = (endLine line).count '\n' := by
  have ended := congrArg List.length (lines_flatMap_endLine [line])
  rw [List.flatMap_singleton, List.flatMap_singleton, length_lines, List.length_append] at ended
  exact (Nat.add_right_cancel ended).symm

theorem count_endLine_padLine (width : Nat) (line : List Char) :
    (endLine (padLine width line)).count '\n' = (endLine line).count '\n' := by
  cases line with
  | nil => rfl
  | cons c rest =>
    rw [padLine_cons, endLine_replicate_append, List.count_append]
    simp [List.count_replicate]

theorem endLine_append {front : List Char} (last : front.getLast? ≠ some '\r')
    (text : List Char) : endLine (front ++ text) = normalizeChars front ++ endLine text := by
  rw [endLine, List.append_assoc, normalizeChars_append (.inl last)]
  rfl

/-- With line feeds alone a text takes no fewer lines. -/
theorem count_endLine_le (text : List Char) :
    (endLine text).count '\n' ≤ (endLine (normalizeChars text)).count '\n' := by
  by_cases last : text.getLast? = some '\r'
  · obtain ⟨front, rfl⟩ := List.getLast?_eq_some_iff.mp last
    rw [endLine_append_return, endLine_normalizeChars, List.count_append]
    exact Nat.le_add_right _ _
  · exact Nat.le_of_eq (congrArg _ ((endLine_eq_iff text).mpr last))

end Text

namespace Outline

theorem documentLines_singleton (level : Nat) (text : String) :
    documentLines [(level, text)] ++ [[]] =
      Text.lines (Text.endLine (Text.indentChars (level * Text.levelWidth) text.toList)) := by
  have some : placedLines (level, text) ≠ [] := by
    simpa [placedLines] using Text.lines_ne_nil text.toList
  rw [documentLines, List.flatMap_singleton, ← Text.lines_flatMap_endLine,
    ← Text.normalizeChars_unlines some]
  rfl

theorem length_documentLines_singleton (level : Nat) (text : String) :
    (documentLines [(level, text)]).length = (Text.endLine text.toList).count '\n' := by
  have whole := Text.normalizeChars_unlines (Text.lines_ne_nil text.toList)
  rw [Text.unlines_lines] at whole
  rw [documentLines, List.flatMap_singleton, placedLines, List.flatMap_map, List.length_flatMap,
    Text.endLine, whole, List.count_flatMap]
  simp only [Text.length_brokenLine, Text.count_endLine_padLine]
  rfl

/-- The first texts take no more lines in a document than the second ones, and they are the same
lines exactly if `p` holds. -/
structure Respelled (p : Prop) (xs ys : List (Nat × String)) : Prop where
  shorter : (documentLines xs).length ≤ (documentLines ys).length
  same : documentLines xs = documentLines ys ↔ p

namespace Respelled

variable {p q : Prop} {xs ys xs' ys' : List (Nat × String)}

theorem refl (xs : List (Nat × String)) : Respelled True xs xs :=
  ⟨Nat.le_refl _, iff_true_intro rfl⟩

theorem congr (respelled : Respelled p xs ys) (same : p ↔ q) : Respelled q xs ys :=
  ⟨respelled.shorter, respelled.same.trans same⟩

theorem append (first : Respelled p xs ys) (second : Respelled q xs' ys') :
    Respelled (p ∧ q) (xs ++ xs') (ys ++ ys') := by
  have split (front back : List (Nat × String)) :
      documentLines (front ++ back) = documentLines front ++ documentLines back := by
    simp [documentLines]
  have shorter := first.shorter
  have shorter' := second.shorter
  constructor
  · rw [split, split, List.length_append, List.length_append]
    omega
  · rw [split, split, ← first.same, ← second.same]
    constructor
    · intro same
      have size := congrArg List.length same
      rw [List.length_append, List.length_append] at size
      exact List.append_inj same (by omega)
    · rintro ⟨front, back⟩
      rw [front, back]

theorem flatMap {α : Type} {p : α → Prop} {f g : α → List (Nat × String)} {list : List α}
    (each : ∀ a ∈ list, Respelled (p a) (f a) (g a)) :
    Respelled (∀ a ∈ list, p a) (list.flatMap f) (list.flatMap g) := by
  induction list with
  | nil => exact (refl []).congr (by simp)
  | cons a rest ih =>
    have others := ih fun b member => each b (List.mem_cons_of_mem a member)
    exact ((each a List.mem_cons_self).append others).congr (by simp)

section Single

variable {lead : String} (blank : lead.toList.getLast? = some ' ')
include blank

theorem length_le (level : Nat) (text : String) :
    (documentLines [(level, lead ++ text)]).length ≤
      (documentLines [(level, lead ++ Text.normalizeNewlines text)]).length := by
  have last : lead.toList.getLast? ≠ some '\r' := by simp [blank]
  rw [length_documentLines_singleton, length_documentLines_singleton, String.toList_append,
    String.toList_append, Text.endLine_append last, Text.endLine_append last, List.count_append,
    List.count_append, Text.toList_normalizeNewlines]
  exact Nat.add_le_add_left (Text.count_endLine_le text.toList) _

/-- A text at the margin, behind words on its line. -/
theorem margin (text : String) : Respelled (text.toList.getLast? ≠ some '\r')
    [(0, lead ++ text)] [(0, lead ++ Text.normalizeNewlines text)] := by
  have last : lead.toList.getLast? ≠ some '\r' := by simp [blank]
  have unmoved (text : List Char) : Text.indentChars (0 * Text.levelWidth) text = text := by
    rw [Text.indentChars, map_padLine_zero, Text.unlines_lines]
  refine ⟨length_le blank 0 text, ?_⟩
  rw [← List.append_left_inj [[]], documentLines_singleton, documentLines_singleton,
    Text.lines_inj, unmoved, unmoved, String.toList_append, String.toList_append,
    Text.endLine_append last, Text.endLine_append last, List.append_right_inj,
    Text.toList_normalizeNewlines, Text.endLine_eq_iff]

/-- A text in a block, behind words on its line. -/
theorem below (level : Nat) (text : String) : Respelled (Text.ReturnsEndLines text.toList)
    [(level + 1, lead ++ text)] [(level + 1, lead ++ Text.normalizeNewlines text)] := by
  have positive : 0 < (level + 1) * Text.levelWidth :=
    Nat.mul_pos (Nat.succ_pos level) (by decide)
  have last : (Text.indentChars ((level + 1) * Text.levelWidth) lead.toList).getLast? ≠
      some '\r' := by
    simp [(Text.getLast?_indentChars _ (by decide) blank).1]
  refine ⟨length_le blank (level + 1) text, ?_⟩
  rw [← List.append_left_inj [[]], documentLines_singleton, documentLines_singleton,
    Text.lines_inj, String.toList_append, String.toList_append,
    (Text.indentChars_append _ (by decide) blank _).1,
    (Text.indentChars_append _ (by decide) blank _).1, Text.endLine_append last,
    Text.endLine_append last, List.append_right_inj, Text.toList_normalizeNewlines,
    Text.endLine_behind_eq_iff positive]

end Single

end Respelled

end Outline

end SnapshotReport
