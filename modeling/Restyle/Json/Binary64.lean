/-!
Floating-point numbers of 53 bits. A decimal is rounded to the nearest number, ties to the even
mantissa, and a number is written with the fewest digits that read back as it. Both are done on
natural numbers, so nothing is lost on the way.
-/

namespace Restyle.Json

/-- A sign and `mantissa * 2 ^ exponent`, or one of the values that are no number. -/
inductive Binary64 where
  | finite (negative : Bool) (mantissa : Nat) (exponent : Int)
  | infinity (negative : Bool)
  | nan
deriving DecidableEq, Repr

namespace Binary64

def precision : Nat := 53

def minExponent : Int := -1074

/-- `num / den * 2 ^ (-q)` as a quotient of natural numbers. -/
def scaled (num den : Nat) (q : Int) : Nat × Nat :=
  if q ≥ 0 then (num, den * Nat.pow 2 q.toNat) else (num * Nat.pow 2 (-q).toNat, den)

/-- A quotient rounded to the nearest natural number, a tie to the even one. -/
def roundHalfEven (num den : Nat) : Nat :=
  let f := num / den
  let twice := 2 * (num % den)
  if twice < den then f
  else if twice > den then f + 1
  else if f % 2 = 0 then f else f + 1

/-- The number nearest to a positive quotient, as mantissa and exponent. -/
def nearest (num den : Nat) : Nat × Int :=
  let magnitude : Int := (Nat.log2 num : Int) - (Nat.log2 den : Int)
  let fine := max (magnitude - 53) minExponent
  let (n, d) := scaled num den fine
  -- the estimate of the magnitude is exact or one too small
  let q := if n / d ≥ Nat.pow 2 precision then fine + 1 else fine
  let (n, d) := scaled num den q
  let m := roundHalfEven n d
  if m = Nat.pow 2 precision then (Nat.pow 2 (precision - 1), q + 1) else (m, q)

/-- The number nearest to `digits * 10 ^ exponent`. -/
def ofDecimal (negative : Bool) (digits : Nat) (exponent : Int) : Binary64 :=
  let size : Int := (toString digits).length + exponent
  if digits = 0 ∨ size < -350 then .finite negative 0 0
  else if size > 350 then .infinity negative
  else
    let (m, q) :=
      if exponent ≥ 0 then nearest (digits * Nat.pow 10 exponent.toNat) 1
      else nearest digits (Nat.pow 10 (-exponent).toNat)
    if q > 971 then .infinity negative
    else if m = 0 then .finite negative 0 0
    else .finite negative m q

/-! ### Comparison with natural numbers -/

def isIntegral : Binary64 → Bool
  | .finite _ m q => q ≥ 0 || m % Nat.pow 2 (-q).toNat == 0
  | _ => false

def isAbove (x : Binary64) (n : Nat) : Bool :=
  match x with
  | .finite negative m q => !negative && let (a, d) := scaled m 1 (-q); a > n * d
  | .infinity negative => !negative
  | .nan => false

def isBelow (x : Binary64) (n : Nat) : Bool :=
  match x with
  | .finite negative m q =>
    let (a, d) := scaled m 1 (-q)
    if negative then m > 0 || n > 0 else a < n * d
  | .infinity negative => negative
  | .nan => false

/-! ### Shortest decimal -/

/-- The exponent `k` with `10 ^ (k - 1) ≤ num / den < 10 ^ k`. -/
def decimalExponent (num den : Nat) : Int :=
  if num ≥ den then ((toString (num / den)).length : Int)
  else
    let j := ((List.range 400).find? fun j => num * Nat.pow 10 (j + 1) ≥ den).getD 0
    Int.negOfNat j

/-- The decimals with `n` digits on either side of `v = num / den` that lie between `lo` and
`hi`, the nearer one if both do. All four share the denominator `den`. -/
def candidate? (num den lo hi : Nat) (closed : Bool) (k : Int) (n : Nat) : Option Nat :=
  let shift : Int := k - n
  -- one unit of the grid is `up / down`
  let up := if shift ≥ 0 then Nat.pow 10 shift.toNat else 1
  let down := if shift ≥ 0 then 1 else Nat.pow 10 (-shift).toNat
  let inside (d : Nat) : Bool :=
    let x := d * up * den
    if closed then lo * down ≤ x && x ≤ hi * down else lo * down < x && x < hi * down
  let below := num * down / (den * up)
  let above := below + 1
  let gapBelow := num * down - below * up * den
  let gapAbove := above * up * den - num * down
  if inside below && inside above then
    if gapBelow < gapAbove || (gapBelow == gapAbove && below % 2 == 0) then some below
    else some above
  else if inside below then some below
  else if inside above then some above
  else none

/-- The fewest digits that read back as `mantissa * 2 ^ exponent`, with the place `k` of the
decimal point: the value is `0.d₁d₂… * 10 ^ k`. -/
def shortest (m : Nat) (q : Int) : List Char × Int :=
  -- four times the value, so that the ends of the interval are whole
  let (num, den) :=
    if q ≥ 0 then (m * Nat.pow 2 q.toNat * 4, 4) else (m * 4, Nat.pow 2 (-q).toNat * 4)
  let ulp := if q ≥ 0 then Nat.pow 2 q.toNat * 4 else 4
  let lower := if m = Nat.pow 2 (precision - 1) ∧ q > minExponent then ulp / 4 else ulp / 2
  let k := decimalExponent num den
  let found := (List.range 17).findSome? fun i =>
    (candidate? num den (num - lower) (num + ulp / 2) (m % 2 == 0) k (i + 1)).map (·, i + 1)
  let (digits, count) := found.getD (0, 1)
  let text := (toString digits).toList
  let k := if text.length > count then k + 1 else k
  let kept := (text.reverse.dropWhile (· == '0')).reverse
  (kept, k)

/-! ### Text -/

/-- How a number is written: positional notation is used while the point stands after place
`low` and not after place `high`. -/
structure NumberStyle where
  low : Int
  high : Int
  fraction : String
  exponentDigits : Nat

/-- Positional from `0.0001` up to `10 ^ 16`, whole numbers with `.0`, exponents of at least two
digits. -/
def decimalStyle : NumberStyle := ⟨-4, 16, ".0", 2⟩

def NumberStyle.write (f : NumberStyle) (digits : List Char) (k : Int) : String :=
  if f.low < k ∧ k ≤ f.high then
    if k ≤ 0 then "0." ++ String.ofList (List.replicate (-k).toNat '0' ++ digits)
    else if digits.length ≤ k.toNat then
      String.ofList (digits ++ List.replicate (k.toNat - digits.length) '0') ++ f.fraction
    else String.ofList (digits.take k.toNat ++ ['.'] ++ digits.drop k.toNat)
  else
    let e := k - 1
    let size := toString e.natAbs
    let padded := String.ofList (List.replicate (f.exponentDigits - size.length) '0') ++ size
    let mantissa := match digits with
      | d :: rest@(_ :: _) => String.ofList (d :: '.' :: rest)
      | ds => String.ofList ds
    mantissa ++ "e" ++ (if e < 0 then "-" else "+") ++ padded

def text : Binary64 → String
  | .nan => "nan"
  | .infinity negative => if negative then "-inf" else "inf"
  | .finite negative m q =>
    (if negative then "-" else "") ++
      if m = 0 then "0.0" else let (digits, k) := shortest m q; decimalStyle.write digits k

end Binary64

end Restyle.Json
