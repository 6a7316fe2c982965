import SnapshotReport.Number.Nearest
import SnapshotReport.Text.Blank

/-! Numerals: texts that stand for numbers. Blank characters around a numeral do not count, and a
blank text stands for zero. A numeral is decimal, with a sign, a point and an exponent if need be,
or whole and marked with its base. -/
namespace SnapshotReport

namespace Numeral

def digit? (base : Nat) (c : Char) : Option Nat :=
  let value :=
    if c.isDigit then c.toNat - '0'.toNat
    else if c.isAlpha then c.toLower.toNat - 'a'.toNat + 10
    else base
  if value < base then some value else none

/-- Digits of a base, at least one. -/
def natural? (base : Nat) (digits : List Char) : Option Nat :=
  if digits.isEmpty then none
  else digits.foldlM (fun value c => (digit? base c).map (value * base + ·)) 0

/-- A whole number marked with its base: sixteen, eight or two. -/
def marked? : List Char → Option Nat
  | '0' :: mark :: digits =>
    match mark.toLower with
    | 'x' => natural? 16 digits
    | 'o' => natural? 8 digits
    | 'b' => natural? 2 digits
    | _ => none
  | _ => none

/-- Whether a numeral has a minus sign, and what is behind its sign. -/
def sign : List Char → Bool × List Char
  | '-' :: rest => (true, rest)
  | '+' :: rest => (false, rest)
  | rest => (false, rest)

def signed (negative : Bool) (value : Nat) : Int :=
  if negative then -value else value

def exponent? : List Char → Option Int
  | [] => some 0
  | mark :: rest =>
    if mark.toLower = 'e' then
      let (negative, digits) := sign rest
      (natural? 10 digits).map (signed negative)
    else none

/-- A decimal without a sign. There is a digit in front of the point or behind it. -/
def decimal? (text : List Char) : Option Decimal :=
  let (whole, rest) := text.span Char.isDigit
  let (fraction, rest) := match rest with
    | '.' :: rest => rest.span Char.isDigit
    | rest => ([], rest)
  match natural? 10 (whole ++ fraction), exponent? rest with
  | some digits, some exponent => some ⟨digits, exponent - fraction.length⟩
  | _, _ => none

/-- The whole number that a text stands for. -/
def integer? (text : String) : Option Int :=
  match Text.trimChars text.toList with
  | [] => some 0
  | numeral =>
    match marked? numeral with
    | some value => some value
    | none =>
      let (negative, digits) := sign numeral
      (natural? 10 digits).map (signed negative)

/-- The number that a text stands for. -/
def number (text : String) : Number :=
  match Text.trimChars text.toList with
  | [] => .zero false
  | numeral =>
    match marked? numeral with
    | some value => .ofDecimal false ⟨value, 0⟩
    | none =>
      let (negative, size) := sign numeral
      if size = "Infinity".toList then .infinite negative
      else match decimal? size with
        | some d => .ofDecimal negative d
        | none => .nan

end Numeral

end SnapshotReport
