namespace SchemaCatalog.Decimal

def powerOfTen (exponent : Nat) : Float := Float.ofScientific 1 false exponent

/-- Divides by a power of ten in steps of at most 308, stopping at zero. -/
def divideSteps (x : Float) (exponent : Nat) : Float :=
  if exponent ≤ 308 then x / powerOfTen exponent
  else if x == 0 then x
  else divideSteps (x / powerOfTen 308) (exponent - 308)
termination_by exponent

/-- The value of `significand · 10 ^ exponent`, or nothing beyond the range of binary64. -/
def scaled? (significand : Nat) (exponent : Int) : Option Float :=
  let x := Float.ofNat significand
  if exponent < 0 then some (divideSteps x (-exponent).toNat)
  else if exponent ≤ 308 then
    let y := x * powerOfTen exponent.toNat
    if y.isInf then none else some y
  else if x == 0 then some x
  else none

end SchemaCatalog.Decimal
