namespace RecordFilter

/-- A binary64 number. Every finite one is a whole number of units of `2 ^ -1074`; zero keeps its sign. -/
inductive Double
  | finite (negative : Bool) (units : Nat)
  | infinite (negative : Bool)
  | nan
  deriving DecidableEq, Repr, Inhabited

namespace Double

/-- The units in one. -/
def scale : Nat := Nat.pow 2 1074

def limit : Nat := Nat.pow 2 2098

/-- Bits that a number of that many units has to drop to keep 53. -/
def excess (units : Nat) : Nat := units.log2 - 52

/-- The quotient rounded to the nearest whole number, a half to the even neighbour. -/
def roundDiv (num den : Nat) : Nat :=
  if 2 * (num % den) < den then num / den
  else if den < 2 * (num % den) then num / den + 1
  else num / den + num / den % 2

/-- The double nearest to `num / den` units, ties to the even significand. -/
@[irreducible] def ofUnits (negative : Bool) (num den : Nat) : Double :=
  let step := Nat.pow 2 (excess (num / den))
  let units := roundDiv num (den * step) * step
  if units < limit then .finite negative units else .infinite negative

/-- The double nearest to `num / den`. -/
def ofRatio (negative : Bool) (num den : Nat) : Double := ofUnits negative (num * scale) den

/-- The double nearest to `digits · 10 ^ exponent`. Far outside the range the answer is known without
computing the power. -/
def ofDecimal (negative : Bool) (digits : Nat) (exponent : Int) : Double :=
  if digits = 0 then .finite negative 0
  else if 400 ≤ exponent then .infinite negative
  else if exponent + digits.log2 / 3 < -400 then .finite negative 0
  else if 0 ≤ exponent then ofRatio negative (digits * Nat.pow 10 exponent.toNat) 1
  else ofRatio negative digits (Nat.pow 10 (-exponent).toNat)

/-- A double that is finite. -/
def finite? : Double → Option Double
  | .finite s u => some (.finite s u)
  | _ => none

/-- The nearest double, when an integer is within range. -/
def ofInt? (n : Int) : Option Double := (ofRatio (n < 0) n.natAbs 1).finite?

def zero : Double := .finite false 0

def signedUnits (negative : Bool) (units : Nat) : Int := if negative then -units else units

def neg : Double → Double
  | .finite s u => .finite (!s) u
  | .infinite s => .infinite (!s)
  | .nan => .nan

/-- The rounded sum. A sum of zero is positive. -/
def add : Double → Double → Double
  | .finite s u, .finite t v =>
    let total := signedUnits s u + signedUnits t v
    ofUnits (total < 0) total.natAbs 1
  | .infinite s, .infinite t => if s = t then .infinite s else .nan
  | .infinite s, .finite _ _ | .finite _ _, .infinite s => .infinite s
  | .nan, _ | _, .nan => .nan

def mul : Double → Double → Double
  | .finite s u, .finite t v => ofUnits (s != t) (u * v) scale
  | .infinite s, .infinite t => .infinite (s != t)
  | .infinite s, .finite t u | .finite t u, .infinite s => if u = 0 then .nan else .infinite (s != t)
  | .nan, _ | _, .nan => .nan

end Double

/-- A place on the number line with both ends, finite places counted in units of `2 ^ -1074`. -/
inductive Place
  | bottom
  | at (units : Int)
  | top
  deriving DecidableEq, Repr

namespace Place

def lt : Place → Place → Bool
  | .bottom, .bottom => false
  | .bottom, _ => true
  | .at _, .bottom => false
  | .at a, .at b => a < b
  | .at _, .top => true
  | .top, _ => false

def ofInt (n : Int) : Place := .at (n * Double.scale)

/-- A value that is no number has no place. -/
def ofDouble? : Double → Option Place
  | .finite s u => some (.at (Double.signedUnits s u))
  | .infinite s => some (if s then .bottom else .top)
  | .nan => none

end Place

end RecordFilter
