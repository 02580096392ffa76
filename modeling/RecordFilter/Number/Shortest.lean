import RecordFilter.Number.Double

namespace RecordFilter

structure Decimal where
  digits : Nat
  exponent : Int
  deriving DecidableEq, Repr

namespace Decimal

/-- Whether the decimal lies strictly between, or with `closed` also at, two bounds in units of
`2 ^ -1076`. -/
def within (d : Decimal) (low high : Nat) (closed : Bool) : Bool :=
  let up := Nat.pow 10 d.exponent.toNat
  let down := Nat.pow 10 (-d.exponent).toNat
  let place := d.digits * up * (4 * Double.scale)
  if closed then low * down ≤ place && place ≤ high * down
  else low * down < place && place < high * down

/-- Four times the distance to a number of units, in units of `2 ^ -1076` and of the decimal's own grid. -/
def distance (d : Decimal) (units : Nat) : Nat :=
  let place := d.digits * Nat.pow 10 d.exponent.toNat * (4 * Double.scale)
  let target := 4 * units * Nat.pow 10 (-d.exponent).toNat
  (place - target) + (target - place)

/-- The decimal of the grid `10 ^ exponent` next below a number of units, or the number itself. -/
def below (units : Nat) (exponent : Int) : Decimal :=
  ⟨units * Nat.pow 10 (-exponent).toNat / (Double.scale * Nat.pow 10 exponent.toNat), exponent⟩

/-- Of the two grid neighbours the one that reads back, the nearer if both do, the even one if they
are equally near. -/
def neighbour? (units : Nat) (exponent : Int) (low high : Nat) (closed : Bool) : Option Decimal :=
  let a := below units exponent
  let b : Decimal := ⟨a.digits + 1, exponent⟩
  match a.within low high closed, b.within low high closed with
  | false, false => none
  | true, false => some a
  | false, true => some b
  | true, true =>
    if a.distance units < b.distance units then some a
    else if b.distance units < a.distance units then some b
    else some (if a.digits % 2 = 0 then a else b)

/-- The number of digits before the point, counted from the leading digit: the least `p` with the
value below `10 ^ p`. -/
def magnitude (units : Nat) : Int :=
  let guess : Int := ((units.log2 : Int) - 1074) * 30103 / 100000
  let isBelow (p : Int) : Bool :=
    units * Nat.pow 10 (-p).toNat < Double.scale * Nat.pow 10 p.toNat
  if isBelow guess then guess
  else if isBelow (guess + 1) then guess + 1
  else if isBelow (guess + 2) then guess + 2
  else guess + 3

/-- The fewest digits that read back as a positive double, nearest to it among those. -/
def shortest (units : Nat) : Decimal :=
  let step := Nat.pow 2 (Double.excess units)
  let significand := units / step
  let low := 4 * units - (if significand = Nat.pow 2 52 ∧ 1 < step then step else 2 * step)
  let high := 4 * units + 2 * step
  let candidates := (List.range 17).filterMap fun n : Nat =>
    neighbour? units (magnitude units - (n + 1)) low high (significand % 2 = 0)
  candidates.headD (below units (magnitude units - 17))

end Decimal

structure DecimalStyle where
  /-- Positions of the point, after the leading digit, that are written without an exponent. -/
  firstPositional : Int
  lastPositional : Int
  exponentMark : Char
  exponentDigits : Nat

namespace Double

/-- Doubles are positional from `0.0001` up to sixteen digits before the point. -/
def plain : DecimalStyle := ⟨-4, 15, 'e', 2⟩

def digitsOf (n : Nat) : List Char := Nat.toDigits 10 n

def padLeft (width : Nat) (c : Char) (s : List Char) : List Char :=
  List.replicate (width - s.length) c ++ s

/-- Digits with the point after the first `point` of them, filled with zeros on both sides; a whole
number ends in `.0`. -/
def positional (digits : List Char) (point : Int) : List Char :=
  if point ≤ 0 then '0' :: '.' :: List.replicate (-point).toNat '0' ++ digits
  else
    let whole := digits.take point.toNat
    let rest := digits.drop point.toNat
    whole ++ List.replicate (point.toNat - digits.length) '0' ++ '.' :: (if rest.isEmpty then ['0'] else rest)

def scientific (n : DecimalStyle) (digits : List Char) (power : Int) : List Char :=
  let sign := if power < 0 then '-' else '+'
  let lead := match digits with
    | [] => []
    | [d] => [d]
    | d :: rest => d :: '.' :: rest
  lead ++ n.exponentMark :: sign :: padLeft n.exponentDigits '0' (digitsOf power.natAbs)

def significant (digits : List Char) : List Char :=
  match (digits.reverse.dropWhile (· == '0')).reverse with
  | [] => ['0']
  | ds => ds

def unsignedText (n : DecimalStyle) (units : Nat) : List Char :=
  if units = 0 then ['0', '.', '0']
  else
    let d := Decimal.shortest units
    let all := digitsOf d.digits
    let power : Int := (all.length : Int) - 1 + d.exponent
    let digits := significant all
    if n.firstPositional ≤ power && power ≤ n.lastPositional then positional digits (power + 1)
    else scientific n digits power

def textIn (n : DecimalStyle) : Double → List Char
  | .finite false u => unsignedText n u
  | .finite true u => '-' :: unsignedText n u
  | .infinite false => "inf".toList
  | .infinite true => "-inf".toList
  | .nan => "nan".toList

def text (x : Double) : String := String.ofList (textIn plain x)

end Double

end RecordFilter
