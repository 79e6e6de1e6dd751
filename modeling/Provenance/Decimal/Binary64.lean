/-! Finite double-precision numbers as exact natural numbers of the least
positive double, with rounding to nearest and ties to even. -/

namespace Provenance

/-- The bit pattern of infinity; smaller patterns are the finite magnitudes. -/
def Binary64.infinity : Nat := 0x7FF0000000000000

/-- A finite double. Bit patterns without sign are ordered as their values. -/
structure Binary64 where
  negative : Bool
  magnitude : Nat
  finite : magnitude < Binary64.infinity
  deriving DecidableEq

namespace Binary64

/-- The leading bit of a significand, which patterns leave out. -/
def leadingBit : Nat := 0x10000000000000

/-- The exponent field, counted so that subnormal and least normal agree. -/
def binade (pattern : Nat) : Nat := pattern / leadingBit - 1

def significand (pattern : Nat) : Nat :=
  if pattern < leadingBit then pattern else pattern % leadingBit + leadingBit

/-- The value of a pattern in units of the least positive double. -/
def units (pattern : Nat) : Nat := significand pattern * Nat.pow 2 (binade pattern)

def unitsOfOne : Nat := Nat.pow 2 1074

/-- The nearest natural number to a quotient, a half going to the even one. -/
def roundHalfEven (numerator denominator : Nat) : Nat :=
  let whole := numerator / denominator
  let twice := 2 * (numerator % denominator)
  if twice < denominator then whole
  else if denominator < twice then whole + 1
  else whole + whole % 2

/-- The pattern nearest to a quotient counted in units. It may reach
`infinity`, which callers refuse. -/
def nearest (numerator denominator : Nat) : Nat :=
  let shift := Nat.log2 (numerator / denominator) - 52
  shift * leadingBit + roundHalfEven numerator (denominator * Nat.pow 2 shift)

def ofNat (n : Nat) : Nat := nearest (n * unitsOfOne) 1

def mul (a b : Nat) : Nat := nearest (units a * units b) unitsOfOne

def div (a b : Nat) : Nat := nearest (units a * unitsOfOne) (units b)

def signed? (negative : Bool) (pattern : Nat) : Option Binary64 :=
  if bounded : pattern < infinity then some ⟨negative, pattern, bounded⟩ else none

/-- Equality of values: the two zeros are equal. -/
def agrees (a b : Binary64) : Bool :=
  a == b || (a.magnitude == 0 && b.magnitude == 0)

theorem agrees_refl (a : Binary64) : a.agrees a = true := by simp [agrees]

/-- Scales digits by a power of ten with one rounded operation at a time.
Powers beyond the 308th are not doubles: upwards there is no value, downwards the
scaling takes several divisions. -/
def scale? (pattern : Nat) (exponent : Int) : Option Nat :=
  if exponent.natAbs ≤ 308 then
    let power := ofNat (Nat.pow 10 exponent.natAbs)
    if 0 ≤ exponent then
      let product := mul pattern power
      if product < infinity then some product else none
    else some (div pattern power)
  else if pattern = 0 then some 0
  else if 0 ≤ exponent then none
  else scale? (div pattern (ofNat (Nat.pow 10 308))) (exponent + 308)
termination_by exponent.natAbs
decreasing_by omega

end Binary64

end Provenance
