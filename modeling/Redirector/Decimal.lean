/-!
# Double-precision numbers

A finite double is a sign, a mantissa below `2 ^ 53` and a power of two. All arithmetic here is on
natural numbers: a quotient is rounded once, to the nearest double, and a tie goes to the even
mantissa.

## Reading decimals

A decimal `s * 10 ^ e` is read the fast way: the significand is rounded to a double, and the result
is multiplied or divided by the double nearest to the power of ten. That is two roundings, so the
double read is not always the nearest one; the format's readers agree on this value, and so do we.
-/

namespace Redirector

/-- A finite double: `mantissa * 2 ^ exponent`, negated if `negative`. -/
structure Binary64 where
  negative : Bool
  mantissa : Nat
  exponent : Int
  deriving DecidableEq, Repr, Inhabited

namespace Binary64

/-- The least exponent a double can have; zero is written with it. -/
def leastExponent : Int := -1074

def greatestExponent : Int := 971

/-- The quotient nearest to `num / den`, a tie going to the even one. -/
def roundDiv (num den : Nat) : Nat :=
  let q := num / den
  let r := num % den
  if 2 * r < den ∨ (2 * r = den ∧ q % 2 = 0) then q else q + 1

/-- The mantissa that `num / den` has at an exponent, rounded. -/
def mantissaAt (num den : Nat) (e : Int) : Nat :=
  if 0 ≤ e then roundDiv num (den * Nat.pow 2 e.toNat)
  else roundDiv (num * Nat.pow 2 (-e).toNat) den

/-- The exponent at which `num / den` has a mantissa of 53 bits, or the least one. -/
def exponentFor (num den : Nat) : Int :=
  let guess : Int := (Nat.log2 num : Int) - (Nat.log2 den : Int) - 52
  let small : Bool :=
    if 0 ≤ guess then num / (den * Nat.pow 2 guess.toNat) < Nat.pow 2 52
    else num * Nat.pow 2 (-guess).toNat / den < Nat.pow 2 52
  max leastExponent (if small then guess - 1 else guess)

/-- The double nearest to `num / den`; `none` if that is out of range. -/
def ofRatio (num den : Nat) : Option Binary64 :=
  if num = 0 then some ⟨false, 0, leastExponent⟩
  else
    let e := exponentFor num den
    let m := mantissaAt num den e
    let (m, e) := if m = Nat.pow 2 53 then (Nat.pow 2 52, e + 1) else (m, e)
    if greatestExponent < e then none else some ⟨false, m, e⟩

def ofNat (n : Nat) : Option Binary64 := ofRatio n 1

/-- A double as a ratio of natural numbers, its sign apart. -/
def ratio (x : Binary64) : Nat × Nat :=
  if 0 ≤ x.exponent then (x.mantissa * Nat.pow 2 x.exponent.toNat, 1)
  else (x.mantissa, Nat.pow 2 (-x.exponent).toNat)

/-- The product, rounded; the sign is the first factor's. -/
def mul (x y : Binary64) : Option Binary64 :=
  (ofRatio (x.ratio.1 * y.ratio.1) (x.ratio.2 * y.ratio.2)).map ({ · with negative := x.negative })

/-- The quotient, rounded; the sign is the dividend's. -/
def div (x y : Binary64) : Option Binary64 :=
  (ofRatio (x.ratio.1 * y.ratio.2) (x.ratio.2 * y.ratio.1)).map ({ · with negative := x.negative })

/-- The largest power of ten that is a double. -/
def greatestPower : Nat := 308

/-- A double times a power of ten, by one product or by as many quotients as the power needs;
`none` if the result is out of range. The fuel bounds the quotients: three turn any significand
into zero. -/
def scale : Nat → Binary64 → Int → Option Binary64
  | 0, x, _ => some { x with mantissa := 0, exponent := leastExponent }
  | fuel + 1, x, e =>
    if e.natAbs ≤ greatestPower then do
      let power ← ofNat (Nat.pow 10 e.natAbs)
      if 0 ≤ e then x.mul power else x.div power
    else if x.mantissa = 0 then some x
    else if 0 ≤ e then none
    else do
      let power ← ofNat (Nat.pow 10 greatestPower)
      scale fuel (← x.div power) (e + greatestPower)

/-- The double read from `significand * 10 ^ exponent`; `none` if it is out of range. -/
def ofDecimal (significand : Nat) (exponent : Int) : Option Binary64 := do
  scale 8 (← ofNat significand) exponent

end Binary64

end Redirector

/-! ## The shortest decimal of a double

Among the decimals that read back as a given double there is a shortest one. It is found on grids:
the grid of `n` digits holds the multiples of one power of ten, the number's two neighbours on it
are tried, and the first grid with a hit wins. All tests are exact comparisons of natural numbers.
-/

namespace Redirector.Decimal

/-- A decimal: `digits * 10 ^ exponent`. -/
structure Scientific where
  digits : Nat
  exponent : Int
  deriving DecidableEq, Repr, Inhabited

/-- The numbers that round to a double, as three numerators over one denominator: the lower end,
the double itself and the upper end. The ends belong to it iff the mantissa is even. -/
structure Interval where
  low : Nat
  mid : Nat
  high : Nat
  den : Nat
  closed : Bool

/-- The interval of a double. Below a power of two the neighbours lie twice as dense. -/
def Interval.ofBinary64 (x : Binary64) : Interval :=
  let below : Nat :=
    if x.mantissa = Nat.pow 2 52 ∧ Binary64.leastExponent < x.exponent then 1 else 2
  -- Two more binary places make the ends, halfway to the neighbours, whole numbers.
  let (scale, den) := if 0 ≤ x.exponent - 2 then (Nat.pow 2 (x.exponent - 2).toNat, 1)
    else (1, Nat.pow 2 (2 - x.exponent).toNat)
  ⟨(4 * x.mantissa - below) * scale, 4 * x.mantissa * scale, (4 * x.mantissa + 2) * scale, den,
    x.mantissa % 2 = 0⟩

/-- Whether `n * 10 ^ e` lies in the interval. -/
def Interval.contains (i : Interval) (n : Nat) (e : Int) : Bool :=
  let (a, b) := if 0 ≤ e then (n * Nat.pow 10 e.toNat * i.den, 1)
    else (n * i.den, Nat.pow 10 (-e).toNat)
  if i.closed then i.low * b ≤ a ∧ a ≤ i.high * b else i.low * b < a ∧ a < i.high * b

/-- The multiple of `10 ^ e` that is at most the number in the middle. -/
def Interval.floorAt (i : Interval) (e : Int) : Nat :=
  if 0 ≤ e then i.mid / (i.den * Nat.pow 10 e.toNat) else i.mid * Nat.pow 10 (-e).toNat / i.den

/-- Whether the middle is nearer to `(n + 1) * 10 ^ e` than to `n * 10 ^ e`, a tie counting as
nearer to the even one. -/
def Interval.roundsUp (i : Interval) (n : Nat) (e : Int) : Bool :=
  let (twice, unit) := if 0 ≤ e then (2 * i.mid, i.den * Nat.pow 10 e.toNat)
    else (2 * i.mid * Nat.pow 10 (-e).toNat, i.den)
  twice > (2 * n + 1) * unit ∨ (twice = (2 * n + 1) * unit ∧ n % 2 = 1)

/-- The hit on one grid, if there is one. -/
def Interval.hit? (i : Interval) (e : Int) : Option Scientific :=
  let n := i.floorAt e
  match i.contains n e, i.contains (n + 1) e with
  | true, true => some (if i.roundsUp n e then ⟨n + 1, e⟩ else ⟨n, e⟩)
  | true, false => some ⟨n, e⟩
  | false, true => some ⟨n + 1, e⟩
  | false, false => none

/-- The power of ten just above the middle, as its exponent: `10 ^ (k - 1) ≤ mid < 10 ^ k`. -/
def Interval.magnitude (i : Interval) : Int :=
  let bits : Int := (Nat.log2 i.mid : Int) - (Nat.log2 i.den : Int)
  -- 30103 / 100000 is the logarithm of 2 to the base 10, closely enough for a guess from below.
  let guess : Int := bits * 30103 / 100000 - 1
  let above (k : Int) : Bool :=
    if 0 ≤ k then i.mid < i.den * Nat.pow 10 k.toNat else i.mid * Nat.pow 10 (-k).toNat < i.den
  (List.range 5).foldr
    (fun (d : Nat) best ↦ if above (guess + d) then guess + d else best) (guess + 5)

/-- A decimal without zeros at its end. -/
def Scientific.stripZeros : Nat → Scientific → Scientific
  | 0, s => s
  | fuel + 1, s =>
    if s.digits ≠ 0 ∧ s.digits % 10 = 0 then stripZeros fuel ⟨s.digits / 10, s.exponent + 1⟩ else s

/-- The shortest decimal that reads back as a double, its sign apart. -/
def shortest (x : Binary64) : Scientific :=
  if x.mantissa = 0 then ⟨0, 0⟩
  else
    let i := Interval.ofBinary64 x
    let k := i.magnitude
    let grids := (List.range 17).map fun (n : Nat) ↦ k - 1 - (n : Int)
    ((grids.findSome? i.hit?).getD ⟨i.floorAt (k - 17), k - 17⟩).stripZeros 20

/-- How numbers are laid out in text. -/
structure Layout where
  /-- A number is written positionally if its point stands after this many digits at least … -/
  leastPoint : Int
  /-- … and at most. -/
  greatestPoint : Int

/-- The layout of the interchange format: up to four zeros after the point, and up to sixteen
digits before it. -/
def Layout.interchange : Layout := ⟨-4, 16⟩

/-- The text of a decimal that is not zero: positional within the layout's bounds, with at least
one digit on either side of the point; else with an exponent that always has a sign. -/
def Layout.write (l : Layout) (s : Scientific) : String :=
  let ds := Nat.toDigits 10 s.digits
  let point : Int := ds.length + s.exponent
  String.ofList <|
    if l.leastPoint ≤ point ∧ point ≤ l.greatestPoint then
      if 0 ≤ s.exponent then ds ++ List.replicate s.exponent.toNat '0' ++ ['.', '0']
      else if 0 < point then ds.take point.toNat ++ '.' :: ds.drop point.toNat
      else '0' :: '.' :: List.replicate (-point).toNat '0' ++ ds
    else
      let tail := if ds.length = 1 then ds else ds.take 1 ++ '.' :: ds.drop 1
      let e := point - 1
      tail ++ 'e' :: (if e < 0 then '-' else '+') :: Nat.toDigits 10 e.natAbs

end Redirector.Decimal

namespace Redirector

/-- The text of a double: its shortest decimal in the interchange layout. -/
def Binary64.text (x : Binary64) : String :=
  let body :=
    if x.mantissa = 0 then "0.0" else Decimal.Layout.interchange.write (Decimal.shortest x)
  if x.negative then "-" ++ body else body

end Redirector
