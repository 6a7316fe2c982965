import Mathlib.Data.Nat.ModEq
import SnapshotReport.Text.Blank
import SnapshotReport.Text.LowerCase

/-! Lower case a second time. The table has a lower case for none of those it gives, and neither a
dot nor a blank in any place. So lower case changes nothing in a text that is in lower case, and the
dots and the blanks of a text are where they were. -/
namespace SnapshotReport.Text.LowerCase

variable {run other : Run} {ranges : List (Nat × Nat)} {c d : Char} {code : Nat}
  {before after text : List Char}

section Table

/-- The character with this code is one of the run. -/
structure Run.Covers (run : Run) (code : Nat) : Prop where
  first_le : run.first ≤ code
  le_last : code ≤ run.last
  step_dvd : run.step ∣ code - run.first

/-- The code of the lower case of a character of the run. -/
def Run.lowered (run : Run) (code : Nat) : Nat :=
  run.lower + (code - run.first)

/-- Whether a look at the ends of the runs and at their steps shows that the lower case of no
character of `run` is in `other`. -/
def Run.misses (run other : Run) : Bool :=
  (run.lowered run.last).blt other.first || other.last.blt run.lower ||
    (run.first == run.last || run.step % other.step == 0) &&
      run.lower % other.step != other.first % other.step

/-- No character in the ranges has a lower case in the table or is one there. -/
def Avoided (ranges : List (Nat × Nat)) : Prop :=
  ∀ run ∈ mapping, ∀ range ∈ ranges, (run.last < range.1 ∨ range.2 < run.first) ∧
    (run.lowered run.last < range.1 ∨ range.2 < run.lower)

theorem misses_of_mem (runs : run ∈ mapping) (others : other ∈ mapping) :
    run.misses other = true := by
  have all : (mapping.all fun run => mapping.all run.misses) = true := by decide +kernel
  exact List.all_eq_true.mp (List.all_eq_true.mp all run runs) other others

/-- The dot, and the capital I with a dot, whose lower case is not a single character. -/
theorem avoided_dots : Avoided [(0x2E, 0x2E), (0x130, 0x130)] := by
  unfold Avoided
  decide +kernel

theorem avoided_blankRanges : Avoided blankRanges := by
  unfold Avoided
  decide +kernel

theorem not_covers_of_misses (misses : run.misses other = true) (covers : run.Covers code) :
    ¬other.Covers (run.lowered code) := by
  intro again
  obtain ⟨first, last, steps⟩ := covers
  obtain ⟨otherFirst, otherLast, otherSteps⟩ := again
  simp only [Run.misses, Run.lowered, Bool.or_eq_true, Bool.and_eq_true, Nat.blt_eq, beq_iff_eq,
    bne_iff_ne] at misses
  rw [Run.lowered] at otherFirst otherLast otherSteps
  rcases misses with (below | above) | ⟨whole, apart⟩
  · omega
  · omega
  · -- divided by the step of the other run, the lower case leaves the same rest as either start
    have moved : other.step ∣ code - run.first := by
      rcases whole with single | whole
      · rw [show code - run.first = 0 by omega]
        exact Nat.dvd_zero other.step
      · exact (Nat.dvd_of_mod_eq_zero whole).trans steps
    have lower : run.lower ≡ run.lower + (code - run.first) [MOD other.step] := by
      rw [Nat.modEq_iff_dvd' (Nat.le_add_right _ _), Nat.add_sub_cancel_left]
      exact moved
    have start : other.first ≡ run.lower + (code - run.first) [MOD other.step] :=
      (Nat.modEq_iff_dvd' otherFirst).mpr otherSteps
    exact apart (lower.trans start.symm)

end Table

section Character

theorem lower?_eq_some_iff :
    run.lower? c = some d ↔ run.Covers c.toNat ∧ Char.ofNat (run.lowered c.toNat) = d := by
  have covers : run.Covers c.toNat ↔
      (run.first ≤ c.toNat && c.toNat ≤ run.last &&
        (c.toNat - run.first) % run.step == 0) = true := by
    simp only [Bool.and_eq_true, decide_eq_true_eq, beq_iff_eq, and_assoc]
    exact ⟨fun ⟨first, last, step⟩ => ⟨first, last, Nat.mod_eq_zero_of_dvd step⟩,
      fun ⟨first, last, step⟩ => ⟨first, last, Nat.dvd_of_mod_eq_zero step⟩⟩
  rw [Run.lower?, covers, Option.ite_none_right_eq_some, Option.some_inj, Run.lowered]

theorem isValidChar_lowered (listed : run ∈ mapping) (covers : run.Covers code) :
    (run.lowered code).isValidChar := by
  have ends : ∀ run ∈ mapping, run.lowered run.last < 0xD800 ∨
      0xDFFF < run.lower ∧ run.lowered run.last < 0x110000 := by
    decide +kernel
  have valid := ends run listed
  have last := covers.le_last
  rw [Run.lowered] at valid ⊢
  rw [Nat.isValidChar]
  omega

theorem toNat_ofNat_lowered (listed : run ∈ mapping) (covers : run.Covers code) :
    (Char.ofNat (run.lowered code)).toNat = run.lowered code := by
  rw [Char.ofNat, dif_pos (isValidChar_lowered listed covers)]
  rfl

/-- A character stays as it is if it is in no run, else it becomes the one that its run gives. -/
theorem ofChar_cases (c : Char) :
    (∀ run ∈ mapping, ¬run.Covers c.toNat) ∧ ofChar c = c ∨
      ∃ run ∈ mapping, run.Covers c.toNat ∧ (ofChar c).toNat = run.lowered c.toNat := by
  cases found : mapping.findSome? (·.lower? c) with
  | none =>
    refine .inl ⟨fun run listed covers => ?_, by rw [ofChar, found, Option.getD_none]⟩
    have lowered := lower?_eq_some_iff.mpr ⟨covers, rfl⟩
    rw [List.findSome?_eq_none_iff.mp found run listed] at lowered
    contradiction
  | some d =>
    obtain ⟨run, listed, lowered⟩ := List.exists_of_findSome?_eq_some found
    obtain ⟨covers, rfl⟩ := lower?_eq_some_iff.mp lowered
    refine .inr ⟨run, listed, covers, ?_⟩
    rw [ofChar, found, Option.getD_some, toNat_ofNat_lowered listed covers]

theorem ofChar_ofChar (c : Char) : ofChar (ofChar c) = ofChar c := by
  obtain ⟨-, own⟩ | ⟨run, listed, covers, code⟩ := ofChar_cases c
  · rw [own, own]
  · obtain ⟨-, own⟩ | ⟨other, others, again, -⟩ := ofChar_cases (ofChar c)
    · exact own
    · rw [code] at again
      exact absurd again (not_covers_of_misses (misses_of_mem listed others) covers)

theorem inRanges_iff :
    inRanges ranges c = true ↔ ∃ range ∈ ranges, range.1 ≤ c.toNat ∧ c.toNat ≤ range.2 := by
  simp [inRanges]

/-- A character in ranges that the table avoids is the lower case of itself, and of no other. -/
theorem Avoided.ofChar_eq (avoided : Avoided ranges)
    (either : inRanges ranges c = true ∨ inRanges ranges (ofChar c) = true) : ofChar c = c := by
  obtain ⟨-, own⟩ | ⟨run, listed, ⟨first, last, -⟩, code⟩ := ofChar_cases c
  · exact own
  · rw [inRanges_iff, inRanges_iff, code, Run.lowered] at either
    obtain ⟨range, member, low, high⟩ | ⟨range, member, low, high⟩ := either
    · obtain ⟨outside, -⟩ := avoided run listed range member
      omega
    · obtain ⟨-, outside⟩ := avoided run listed range member
      rw [Run.lowered] at outside
      omega

theorem Avoided.inRanges_ofChar (avoided : Avoided ranges) (c : Char) :
    inRanges ranges (ofChar c) = inRanges ranges c := by
  rw [Bool.eq_iff_iff]
  constructor
  · intro marked
    rwa [avoided.ofChar_eq (.inr marked)] at marked
  · intro marked
    rwa [avoided.ofChar_eq (.inl marked)]

theorem Avoided.ofChar_eq_iff (avoided : Avoided ranges) (marked : inRanges ranges d = true) :
    ofChar c = d ↔ c = d := by
  constructor
  · rintro rfl
    exact (avoided.ofChar_eq (.inr marked)).symm
  · rintro rfl
    exact avoided.ofChar_eq (.inl marked)

end Character

section Context

/-- Lower case leaves the character as it is, whatever stands around it. -/
def Settled (c : Char) : Prop :=
  ∀ before after, inContext before c after = [c]

theorem settled_of_ofChar (own : ofChar c = c) (single : c ≠ 'İ') : Settled c := by
  intro before after
  have other : c ≠ 'Σ' := by
    rintro rfl
    exact absurd own (by decide)
  rw [inContext, if_neg other, if_neg single, own]

/-- What stands for a character in lower case: one of the two forms of a sigma, one of the two parts
of a capital I with a dot, or what the table says. -/
theorem mem_inContext_cases (member : d ∈ inContext before c after) :
    c = 'Σ' ∧ (d = 'ς' ∨ d = 'σ') ∨ c = 'İ' ∧ (d = 'i' ∨ d = '\u0307') ∨
      c ≠ 'İ' ∧ d = ofChar c := by
  by_cases sigma : c = 'Σ'
  · rw [inContext, if_pos sigma, List.mem_singleton] at member
    refine .inl ⟨sigma, ?_⟩
    split at member
    · exact .inl member
    · exact .inr member
  · by_cases dotted : c = 'İ'
    · rw [inContext, if_neg sigma, if_pos dotted, List.mem_cons, List.mem_singleton] at member
      exact .inr (.inl ⟨dotted, member⟩)
    · rw [inContext, if_neg sigma, if_neg dotted, List.mem_singleton] at member
      exact .inr (.inr ⟨dotted, member⟩)

theorem settled_of_mem_inContext (member : d ∈ inContext before c after) : Settled d := by
  obtain ⟨-, rfl | rfl⟩ | ⟨-, rfl | rfl⟩ | ⟨single, rfl⟩ := mem_inContext_cases member
  iterate 4 exact settled_of_ofChar (by decide) (by decide)
  exact settled_of_ofChar (ofChar_ofChar c) (mt (avoided_dots.ofChar_eq_iff (by decide)).mp single)

theorem inContext_ne_nil : inContext before c after ≠ [] := by
  rw [inContext]
  split
  · exact List.cons_ne_nil _ _
  · split <;> exact List.cons_ne_nil _ _

theorem eq_dot_iff_of_mem_inContext (member : d ∈ inContext before c after) :
    d = '.' ↔ c = '.' := by
  obtain ⟨rfl, rfl | rfl⟩ | ⟨rfl, rfl | rfl⟩ | ⟨-, rfl⟩ := mem_inContext_cases member
  iterate 4 decide
  exact avoided_dots.ofChar_eq_iff (by decide)

theorem isBlank_of_mem_inContext (member : d ∈ inContext before c after) :
    isBlank d = isBlank c := by
  obtain ⟨rfl, rfl | rfl⟩ | ⟨rfl, rfl | rfl⟩ | ⟨-, rfl⟩ := mem_inContext_cases member
  iterate 4 decide
  exact avoided_blankRanges.inRanges_ofChar c

end Context

section Text

theorem chars_of_settled (settled : ∀ c ∈ text, Settled c) (before : List Char) :
    chars before text = text := by
  induction text generalizing before with
  | nil => rfl
  | cons c after ih =>
    have rest : ∀ d ∈ after, Settled d := fun d member => settled d (List.mem_cons_of_mem c member)
    rw [chars, settled c List.mem_cons_self, ih rest, List.singleton_append]

theorem settled_of_mem_chars (member : c ∈ chars before text) : Settled c := by
  induction text generalizing before with
  | nil => exact absurd member List.not_mem_nil
  | cons d after ih =>
    rw [chars, List.mem_append] at member
    rcases member with here | later
    · exact settled_of_mem_inContext here
    · exact ih later

theorem not_dot_mem_chars (dotless : '.' ∉ text) (before : List Char) :
    '.' ∉ chars before text := by
  induction text generalizing before with
  | nil => exact List.not_mem_nil
  | cons c after ih =>
    rw [List.mem_cons, not_or] at dotless
    rw [chars, List.mem_append, not_or]
    exact ⟨fun here => dotless.1 ((eq_dot_iff_of_mem_inContext here).mp rfl).symm,
      ih dotless.2 (c :: before)⟩

theorem chars_eq_nil_iff : chars before text = [] ↔ text = [] := by
  cases text with
  | nil => exact ⟨fun _ => rfl, fun _ => rfl⟩
  | cons c after =>
    rw [chars, List.append_eq_nil_iff]
    exact ⟨fun nothing => absurd nothing.1 inContext_ne_nil, fun nothing => by contradiction⟩

/-- A text begins with a blank exactly if it does so in lower case. -/
theorem head?_chars_any_isBlank (before text : List Char) :
    (chars before text).head?.any isBlank = text.head?.any isBlank := by
  cases text with
  | nil => rfl
  | cons c after =>
    have some : inContext before c after ≠ [] := inContext_ne_nil
    rw [chars, List.head?_append, List.head?_eq_some_head some, Option.some_or, Option.any_some,
      List.head?_cons, Option.any_some]
    exact isBlank_of_mem_inContext (List.head_mem some)

/-- A text ends with a blank exactly if it does so in lower case. -/
theorem getLast?_chars_any_isBlank (before text : List Char) :
    (chars before text).getLast?.any isBlank = text.getLast?.any isBlank := by
  induction text generalizing before with
  | nil => rfl
  | cons c after ih =>
    by_cases last : after = []
    · subst last
      have some : inContext before c [] ≠ [] := inContext_ne_nil
      rw [chars, chars, List.append_nil, List.getLast?_eq_some_getLast some, Option.any_some,
        List.getLast?_singleton, Option.any_some]
      exact isBlank_of_mem_inContext (List.getLast_mem some)
    · have more : chars (c :: before) after ≠ [] := mt chars_eq_nil_iff.mp last
      have same : (chars before (c :: after)).getLast? = (chars (c :: before) after).getLast? := by
        rw [chars, List.getLast?_append, List.getLast?_eq_some_getLast more, Option.some_or]
      rw [same, ih, List.getLast?_cons_of_ne_nil last]

end Text

end SnapshotReport.Text.LowerCase
