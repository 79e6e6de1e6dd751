import Provenance.Decimal.Shortest
import Provenance.Text.Chars

/-! JSON numbers. A literal without fraction and exponent is a whole number when
it fits 64 bits; every other literal is a double. -/

namespace Provenance.Json

inductive Number where
  | whole (value : Int)
  | real (value : Binary64)
  deriving DecidableEq

namespace Number

/-- A whole number and a double are different even where their values agree. -/
def agrees : Number → Number → Bool
  | .whole a, .whole b => a == b
  | .real a, .real b => a.agrees b
  | _, _ => false

theorem agrees_refl (n : Number) : n.agrees n = true := by
  cases n with
  | whole value => simp [agrees]
  | real value => exact value.agrees_refl

/-- The parts of a number literal, each a run of ASCII digits. `exponent` holds
the sign and the digits after the exponent mark. -/
structure Literal where
  negative : Bool
  whole : List Char
  fraction : Option (List Char)
  exponent : Option (Bool × List Char)

def digitValue (c : Char) : Nat := c.toNat - '0'.toNat

/-- Whole numbers and significands have 64 bits. -/
def wordLimit : Nat := 0x10000000000000000

/-- The digits that fit a significand, and the ones after them. -/
def significant (value : Nat) : List Char → Nat × List Char
  | [] => (value, [])
  | c :: rest =>
    if 10 * value + digitValue c < wordLimit then significant (10 * value + digitValue c) rest
    else (value, c :: rest)

def fromDigits (digits : List Char) : Nat :=
  digits.foldl (fun n c => 10 * n + digitValue c) 0

/-- Exponents from here on are not read: they leave zero or no value. -/
def exponentLimit : Nat := 0x80000000

/-- The double of a literal: the digits that fit 64 bits scaled by a power of
ten, the digits beyond them counting as zeros. Too large a value is none. -/
def Literal.real? (l : Literal) : Option Binary64 := do
  let (head, dropped) := significant 0 l.whole
  let (digits, places) : Nat × Int :=
    match l.fraction with
    | none => (head, dropped.length)
    | some fraction =>
      let (digits, ignored) := significant head fraction
      (digits, (dropped.length : Int) - (fraction.length - ignored.length : Nat))
  let pattern ← match l.exponent with
    | none => Binary64.scale? (Binary64.ofNat digits) places
    | some (down, shift) =>
      let shift := fromDigits shift
      if exponentLimit ≤ shift then
        if digits = 0 ∨ down then some 0 else none
      else Binary64.scale? (Binary64.ofNat digits) (if down then places - shift else places + shift)
  Binary64.signed? l.negative pattern

/-- The value of a literal. Minus zero is a double, since whole numbers have
one zero. -/
def ofLiteral? (l : Literal) : Option Number :=
  let value := fromDigits l.whole
  let plain := l.fraction.isNone && l.exponent.isNone
  if plain && !l.negative && value < wordLimit then some (.whole value)
  else if plain && l.negative && 0 < value && value ≤ wordLimit / 2 then some (.whole (-value))
  else l.real?.map .real

/-- How a double is written: positionally with at least one decimal from 1e-5
up to below 1e16, and otherwise with one digit before the point and a signed
exponent. -/
def realText (value : Binary64) : String :=
  let d := (Binary64.shortest value.magnitude).trimZeros 20
  let digits := Nat.toDigits 10 d.digits
  let point : Int := digits.length + d.exponent
  let zeros (n : Int) : List Char := List.replicate n.toNat '0'
  let body : List Char :=
    if value.magnitude = 0 then ['0', '.', '0']
    else if 0 ≤ d.exponent ∧ point ≤ 16 then digits ++ zeros d.exponent ++ ['.', '0']
    else if 0 < point ∧ point ≤ 16 then
      digits.take point.toNat ++ '.' :: digits.drop point.toNat
    else if -5 < point ∧ point ≤ 0 then '0' :: '.' :: zeros (-point) ++ digits
    else
      let mantissa := match digits with
        | [single] => [single]
        | first :: others => first :: '.' :: others
        | [] => []
      let shift := point - 1
      mantissa ++ 'e' :: (if 0 ≤ shift then '+' else '-') :: Nat.toDigits 10 shift.natAbs
  String.ofList (if value.negative then '-' :: body else body)

def text : Number → String
  | .whole value => toString value
  | .real value => realText value

end Number

end Provenance.Json
