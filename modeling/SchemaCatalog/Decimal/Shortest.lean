namespace SchemaCatalog.Decimal

/-- A binary64 taken apart: the absolute value is `significand · 2 ^ exponent`. -/
structure Binary where
  negative : Bool
  significand : Nat
  exponent : Int
  /-- The gap below the value is half the gap above it. -/
  atBinade : Bool
deriving DecidableEq, Repr

/-- Decodes the bits of a finite binary64. -/
def Binary.ofBits (bits : UInt64) : Binary :=
  let fraction := (bits &&& 0xfffffffffffff).toNat
  let power := ((bits >>> 52) &&& 0x7ff).toNat
  { negative := bits >>> 63 == 1
    significand := if power = 0 then fraction else fraction + Nat.pow 2 52
    exponent := (if power = 0 then 1 else (power : Int)) - 1075
    atBinade := fraction = 0 && 1 < power }

/-- Decimal digits `d₁ … dₙ` standing for `d₁ . d₂ … dₙ · 10 ^ exponent`. -/
structure Digits where
  digits : List Char
  exponent : Int
deriving DecidableEq, Repr

/-- A positive rational `num / den`. -/
structure Ratio where
  num : Nat
  den : Nat

namespace Ratio

def scale (r : Ratio) (power : Int) : Ratio :=
  if 0 ≤ power then ⟨r.num * Nat.pow 10 power.toNat, r.den⟩
  else ⟨r.num, r.den * Nat.pow 10 (-power).toNat⟩

def firstShift (r : Ratio) : Nat → Nat → Nat
  | 0, k => k
  | fuel + 1, k => if r.den ≤ r.num * Nat.pow 10 k then k else firstShift r fuel (k + 1)

def leadingExponent (r : Ratio) : Int :=
  if r.den ≤ r.num then (toString (r.num / r.den)).length - 1 else -(firstShift r 400 1 : Int)

end Ratio

/-- The grid point with `count` digits nearest to `value` among those that pass `inside`. -/
def gridHit (value : Ratio) (inside : Ratio → Bool) (leading : Int) (count : Nat) : Option Nat :=
  let unit : Int := leading - (count - 1 : Nat)
  let scaled := value.scale (-unit)
  let low := scaled.num / scaled.den
  let rest := scaled.num % scaled.den
  let hit (n : Nat) : Bool := inside (Ratio.scale ⟨n, 1⟩ unit)
  match hit low, hit (low + 1) with
  | true, true =>
    if 2 * rest < scaled.den || (2 * rest = scaled.den && low % 2 = 0) then some low
    else some (low + 1)
  | true, false => some low
  | false, true => some (low + 1)
  | false, false => none

/-- Drops the zeros at the end, keeping one digit. -/
def trimZeros (digits : List Char) : List Char :=
  match (digits.reverse.dropWhile (· == '0')).reverse with
  | [] => ['0']
  | ds => ds

/-- The fewest digits that read back as the same binary64, nearest to it among those. -/
def shortest (b : Binary) : Digits :=
  if b.significand = 0 then ⟨['0'], 0⟩ else
  let up := Nat.pow 2 b.exponent.toNat
  let den := 4 * Nat.pow 2 (-b.exponent).toNat
  let value : Ratio := ⟨4 * b.significand * up, den⟩
  let top := (4 * b.significand + 2) * up
  let bottom := (4 * b.significand - if b.atBinade then 1 else 2) * up
  let closed := b.significand % 2 = 0
  let inside (r : Ratio) : Bool :=
    let x := r.num * den
    let lo := bottom * r.den
    let hi := top * r.den
    if closed then lo ≤ x && x ≤ hi else lo < x && x < hi
  let leading := value.leadingExponent
  let found := (List.range 17).findSome? fun n =>
    (gridHit value inside leading (n + 1)).map fun digits => (n + 1, digits)
  let finest := value.scale (16 - leading)
  let (count, digits) := found.getD (17, finest.num / finest.den)
  let text := (toString digits).toList
  ⟨trimZeros text, leading + (text.length - count : Nat)⟩

end SchemaCatalog.Decimal
