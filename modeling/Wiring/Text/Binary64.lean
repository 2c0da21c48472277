namespace Wiring.Text

/-! Binary64 floating point, computed exactly on natural numbers. A finite non-negative double
is `mantissa * 2 ^ exponent` with a mantissa below `2 ^ 53` and an exponent from `-1074` to
`971`. This module rounds a positive ratio to the nearest double (ties to even), reads decimal
digits the way a text reader does (the significand rounded, then one multiplication or
division by a tabled power of ten), finds the shortest decimal digits that read back to a
double, and writes those digits: positional for moderate magnitudes, scientific beyond. -/

/-- A finite, non-negative double: `mantissa * 2 ^ exponent`. -/
structure Binary64 where
  mantissa : Nat
  exponent : Int
  deriving DecidableEq, Repr, Inhabited

namespace Binary64

def zero : Binary64 := ⟨0, 0⟩

def minExponent : Int := -1074

def maxExponent : Int := 971

def twoTo (e : Int) : Nat × Nat :=
  if 0 ≤ e then (Nat.pow 2 e.toNat, 1) else (1, Nat.pow 2 (-e).toNat)

def tenTo (e : Int) : Nat × Nat :=
  if 0 ≤ e then (Nat.pow 10 e.toNat, 1) else (1, Nat.pow 10 (-e).toNat)

def ratio (b : Binary64) : Nat × Nat :=
  let (n, d) := twoTo b.exponent
  (b.mantissa * n, d)

/-- The exponent `e` with `2 ^ e ≤ n / d < 2 ^ (e + 1)`, for positive `n` and `d`: the
difference of the bit lengths, or one less. -/
def floorLog2 (n d : Nat) : Int :=
  let e : Int := (n.log2 : Int) - d.log2
  let (p, q) := twoTo e
  if n * q < d * p then e - 1 else e

def nearest (n d : Nat) : Option Binary64 :=
  if n = 0 ∨ d = 0 then some zero
  else
    let e := max (floorLog2 n d - 52) minExponent
    let (p, q) := twoTo e
    let num := n * q
    let den := d * p
    let m := num / den
    let r := num % den
    let m := if 2 * r > den ∨ (2 * r = den ∧ m % 2 = 1) then m + 1 else m
    let (m, e) := if m = 9007199254740992 then (4503599627370496, e + 1) else (m, e)
    if e > maxExponent then none else some ⟨m, e⟩

def mul (a b : Binary64) : Option Binary64 :=
  let (an, ad) := a.ratio
  let (bn, bd) := b.ratio
  nearest (an * bn) (ad * bd)

def div (a b : Binary64) : Option Binary64 :=
  let (an, ad) := a.ratio
  let (bn, bd) := b.ratio
  nearest (an * bd) (ad * bn)

def tableLimit : Nat := 308

def power (k : Nat) : Binary64 := (nearest (Nat.pow 10 k) 1).getD zero

/-- Scales a double by `10 ^ exponent` as a reader does: one multiplication or division by a
tabled power, first dividing by `10 ^ 308` while the power is beyond the table; none when the
result overflows. Each division by `10 ^ 308` takes the value closer to zero, so a few rounds
reach zero or the table. -/
def scaleTen (f : Binary64) (exponent : Int) : Nat → Option Binary64
  | 0 => some zero
  | fuel + 1 =>
    if exponent.natAbs ≤ tableLimit then
      if 0 ≤ exponent then mul f (power exponent.toNat) else div f (power exponent.natAbs)
    else if f.mantissa = 0 then some zero
    else if 0 ≤ exponent then none
    else (div f (power tableLimit)).bind fun g => scaleTen g (exponent + tableLimit) fuel

def ofDecimal (significand : Nat) (exponent : Int) : Option Binary64 :=
  (nearest significand 1).bind fun f => scaleTen f exponent 8

def roundRatio (n d : Nat) : Nat :=
  let q := n / d
  let r := n % d
  if 2 * r > d ∨ (2 * r = d ∧ q % 2 = 1) then q + 1 else q

/-- The digits `d` at the decimal exponent `p` whose value `d * 10 ^ p` lies between the
neighbours' midpoints, nearest to the double; none when no multiple of `10 ^ p` lies there.
The bounds count as inside when the mantissa is even, since a reader rounds ties to even. -/
def digitsAt (b : Binary64) (p : Int) : Option Nat :=
  let m := b.mantissa
  let (sn, sd) := twoTo (b.exponent - 2)
  let (tn, td) := tenTo p
  let low := if m = 4503599627370496 ∧ b.exponent > minExponent then 4 * m - 1 else 4 * m - 2
  let high := 4 * m + 2
  let inside := m % 2 = 0
  let den := sd * tn
  let a := low * sn * td
  let c := high * sn * td
  let least := (a + den - 1) / den + (if !inside ∧ a % den = 0 then 1 else 0)
  let most : Int := (c / den : Nat) - (if !inside ∧ c % den = 0 then 1 else 0)
  if (least : Int) ≤ most then
    let near := roundRatio (4 * m * sn * td) den
    some (if near < least then least else if (near : Int) > most then most.toNat else near)
  else none

def search (b : Binary64) (p : Int) : Nat → Nat × Int
  | 0 => (b.mantissa, 0)
  | fuel + 1 =>
    match b.digitsAt p with
    | some d => (d, p)
    | none => search b (p - 1) fuel

def trimZeros (d : Nat) (p : Int) : Nat → Nat × Int
  | 0 => (d, p)
  | fuel + 1 => if d ≠ 0 ∧ d % 10 = 0 then trimZeros (d / 10) (p + 1) fuel else (d, p)

/-- The shortest digits `d` and exponent `p` such that `d * 10 ^ p` reads back to this
(positive) double, nearest to it among those of that length. The search starts above the
double's order of magnitude, where no digits fit, so the first exponent with digits gives the
fewest of them. -/
def shortest (b : Binary64) : Nat × Int :=
  let top : Int := ((b.mantissa.log2 : Int) + 1 + b.exponent) * 30103 / 100000 + 2
  let (d, p) := search b top 80
  trimZeros d p 40

def zeros (n : Nat) : String := String.ofList (List.replicate n '0')

/-- The double as a JSON writer prints it: positional with `.0` up to sixteen integer digits,
positional down to four leading zeros after the point, scientific otherwise, with a sign on a
positive exponent. -/
def jsonText (negative : Bool) (b : Binary64) : String :=
  let sign := if negative then "-" else ""
  if b.mantissa = 0 then sign ++ "0.0"
  else
    let (d, p) := b.shortest
    let ds := toString d
    let len := ds.length
    let kk : Int := len + p
    sign ++
      if 0 ≤ p ∧ kk ≤ 16 then ds ++ zeros p.toNat ++ ".0"
      else if 0 < kk ∧ kk ≤ 16 then
        String.ofList (ds.toList.take kk.toNat) ++ "." ++ String.ofList (ds.toList.drop kk.toNat)
      else if -5 < kk ∧ kk ≤ 0 then "0." ++ zeros (-kk).toNat ++ ds
      else
        let mark := if 0 < kk - 1 then "e+" else "e"
        if len = 1 then ds ++ mark ++ toString (kk - 1)
        else
          String.ofList (ds.toList.take 1) ++ "." ++ String.ofList (ds.toList.drop 1) ++ mark ++
            toString (kk - 1)

end Binary64

end Wiring.Text
