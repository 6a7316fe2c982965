/-! The order of texts by 16-bit units. A character up to `0xFFFF` is one unit, the others are two,
both from the range that single units leave free. So the characters above `0xFFFF` come before those
from `0xE000` on, and elsewhere the order is that of code points. Every text here is a sequence of
characters: one in which half of a pair stands alone is left out, and no result speaks of it. -/
namespace SnapshotReport.Text

def unitsOfChar (c : Char) : List Nat :=
  if c.toNat < 0x10000 then [c.toNat]
  else [0xD800 + (c.toNat - 0x10000) / 0x400, 0xDC00 + (c.toNat - 0x10000) % 0x400]

def units (text : String) : List Nat :=
  text.toList.flatMap unitsOfChar

theorem units_append (a b : String) : units (a ++ b) = units a ++ units b := by
  simp [units]

/-- A text that begins another one comes first; else the first unit that differs decides. -/
def byUnits (a b : String) : Ordering :=
  compare (units a) (units b)

theorem toNat_lt (c : Char) : c.toNat < 0xD800 ∨ 0xE000 ≤ c.toNat ∧ c.toNat < 0x110000 := by
  have valid := c.valid
  simp only [UInt32.isValidChar, Nat.isValidChar] at valid
  have : c.val.toNat = c.toNat := rfl
  omega

/-- The units of a character show where the next one begins. -/
theorem unitsOfChar_append_inj {c d : Char} {rest rest' : List Nat}
    (h : unitsOfChar c ++ rest = unitsOfChar d ++ rest') : c = d ∧ rest = rest' := by
  have boundC := toNat_lt c
  have boundD := toNat_lt d
  simp only [unitsOfChar] at h
  split at h <;> split at h <;> simp only [List.cons_append, List.nil_append, List.cons.injEq] at h
  · exact ⟨Char.toNat_inj.mp h.1, h.2⟩
  · omega
  · omega
  · exact ⟨Char.toNat_inj.mp (by omega), h.2.2⟩

theorem units_injective {a b : String} (h : units a = units b) : a = b := by
  rw [← String.toList_inj]
  unfold units at h
  generalize a.toList = cs at h
  generalize b.toList = ds at h
  induction cs generalizing ds with
  | nil =>
    cases ds with
    | nil => rfl
    | cons d ds =>
      simp only [List.flatMap_nil, List.flatMap_cons] at h
      unfold unitsOfChar at h
      split at h <;> simp at h
  | cons c cs ih =>
    cases ds with
    | nil =>
      simp only [List.flatMap_nil, List.flatMap_cons] at h
      unfold unitsOfChar at h
      split at h <;> simp at h
    | cons d ds =>
      rw [List.flatMap_cons, List.flatMap_cons] at h
      obtain ⟨rfl, same⟩ := unitsOfChar_append_inj h
      rw [ih ds same]

instance : Std.TransCmp byUnits where
  eq_swap := Std.OrientedOrd.eq_swap
  isLE_trans := Std.TransOrd.isLE_trans

instance : Std.LawfulEqCmp byUnits where
  compare_self := Std.ReflOrd.compare_self
  eq_of_compare h := units_injective (Std.LawfulEqOrd.eq_of_compare h)

end SnapshotReport.Text
