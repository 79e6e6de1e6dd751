import Provenance.Decimal.Binary64

/-! The shortest decimal that reads back as a double, and nearest to it among
those of that length. -/

namespace Provenance.Binary64

structure Digits where
  digits : Nat
  exponent : Int

/-- Twice the reach of a double's rounding interval to either side, in units,
and whether its ends belong to it. -/
structure Reach where
  below : Nat
  above : Nat
  closed : Bool

/-- Half a gap to each neighbour; below a power of two the gap is half as wide. -/
def reach (pattern : Nat) : Reach :=
  let gap := Nat.pow 2 (binade pattern)
  let narrow := significand pattern = leadingBit ∧ 0 < binade pattern
  ⟨if narrow then gap else 2 * gap, 2 * gap, significand pattern % 2 = 0⟩

/-- The power of ten just above a fraction of one, as the count of places the
point has to move to make it at least one tenth. -/
def leadingZeros (limit : Nat) (units : Nat) : Nat :=
  match limit with
  | 0 => 0
  | limit + 1 => if unitsOfOne ≤ 10 * units then 0 else leadingZeros limit (10 * units) + 1

/-- The least `k` with the value below ten to the `k`. -/
def decade (units : Nat) : Int :=
  if unitsOfOne ≤ units then (Nat.toDigits 10 (units / unitsOfOne)).length
  else -(leadingZeros 400 units : Int)

/-- Whether `digits` times ten to the `exponent` rounds to the double, and how
far it is away, both over one common denominator. -/
def offset (pattern : Nat) (digits : Nat) (exponent : Int) : Option Nat :=
  let up := Nat.pow 10 exponent.toNat
  let down := Nat.pow 10 (-exponent).toNat
  let value := 4 * units pattern * down
  let candidate := 4 * digits * up * unitsOfOne
  let r := reach pattern
  let away := if candidate < value then value - candidate else candidate - value
  let bound := (if candidate < value then r.below else r.above) * down
  if away < bound ∨ (r.closed ∧ away = bound) then some away else none

/-- The better of the two neighbours of the value on one decimal grid. -/
def onGrid (pattern : Nat) (exponent : Int) : Option Digits :=
  let up := Nat.pow 10 exponent.toNat
  let down := Nat.pow 10 (-exponent).toNat
  let low := units pattern * down / (unitsOfOne * up)
  match offset pattern low exponent, offset pattern (low + 1) exponent with
  | none, none => none
  | some _, none => some ⟨low, exponent⟩
  | none, some _ => some ⟨low + 1, exponent⟩
  | some a, some b =>
    if a < b ∨ (a = b ∧ low % 2 = 0) then some ⟨low, exponent⟩ else some ⟨low + 1, exponent⟩

/-- Tries grids of one digit, two digits and so on. Seventeen always suffice. -/
def shortest (pattern : Nat) : Digits :=
  let top := decade (units pattern)
  let grids := (List.range 17).map fun n => onGrid pattern (top - (n + 1 : Nat))
  (grids.findSome? id).getD ⟨0, 0⟩

/-- Moves trailing zeros of the digits into the exponent. -/
def Digits.trimZeros (limit : Nat) (d : Digits) : Digits :=
  match limit with
  | 0 => d
  | limit + 1 =>
    if d.digits ≠ 0 ∧ d.digits % 10 = 0 then trimZeros limit ⟨d.digits / 10, d.exponent + 1⟩ else d

end Provenance.Binary64
