import Sagas.Binary64.Basic

/-! The shortest decimal that reads back as a given binary64 number, and its text. -/
namespace Sagas

/-- The decimal `digits * 10 ^ exponent`. -/
structure Decimal where
  digits : Nat
  exponent : Int
deriving DecidableEq

namespace Decimal

/-- The same decimal without trailing zeros among its digits; `fuel` bounds how many are dropped. -/
def trim (fuel : Nat) (d : Decimal) : Decimal :=
  match fuel with
  | 0 => d
  | fuel + 1 =>
    if d.digits ≠ 0 ∧ d.digits % 10 = 0 then trim fuel ⟨d.digits / 10, d.exponent + 1⟩ else d

end Decimal

namespace Binary64

/-- The least `j ≥ start` for which `num * 10 ^ j` reaches `den`, looking at most `fuel` further. -/
def tenfoldsToReach (num den : Nat) (start fuel : Nat) : Nat :=
  match fuel with
  | 0 => start
  | fuel + 1 =>
    if den ≤ num * Nat.pow 10 start then start else tenfoldsToReach num den (start + 1) fuel

/-- The `p` with `10 ^ (p - 1) ≤ num / den < 10 ^ p`, for a quotient that is not zero. -/
def decimalPoint (num den : Nat) : Int :=
  if den ≤ num then (Nat.toDigits 10 (num / den)).length
  else 1 - (tenfoldsToReach num den 1 400 : Int)

/-- The reals that round to `m * 2 ^ q`, in units of `2 ^ (q - 2)`: the lower end is nearer when `m`
is the least significand of its exponent, and the ends belong to it when `m` is even. -/
structure RoundingInterval where
  low : Nat
  high : Nat
  closed : Bool

def RoundingInterval.holds (i : RoundingInterval) (num den : Nat) : Bool :=
  if i.closed then i.low * den ≤ num && num ≤ i.high * den
  else i.low * den < num && num < i.high * den

/-- The multiple of `10 ^ t` nearest to `m * 2 ^ q` among its two neighbours that lie in the
interval, a tie going to the even multiple. -/
def gridHit (i : RoundingInterval) (m : Nat) (q t : Int) : Option Nat :=
  let num := Nat.pow 10 t.toNat <<< (2 - q).toNat
  let den := Nat.pow 10 (-t).toNat <<< (q - 2).toNat
  let below := 4 * m * den / num
  let above := below + 1
  let belowFits := i.holds (below * num) den
  let aboveFits := i.holds (above * num) den
  if belowFits && aboveFits then
    let down := 4 * m * den - below * num
    let up := above * num - 4 * m * den
    some (if down < up ∨ (down = up ∧ below % 2 = 0) then below else above)
  else if belowFits then some below
  else if aboveFits then some above
  else none

/-- The hit on the coarsest grid that has one, trying `digits` to 17 significant digits. -/
def firstHit (i : RoundingInterval) (m : Nat) (q point : Int) (digits fuel : Nat) : Decimal :=
  match fuel with
  | 0 => ⟨m, q⟩
  | fuel + 1 =>
    match gridHit i m q (point - digits) with
    | some d => ⟨d, point - digits⟩
    | none => firstHit i m q point (digits + 1) fuel

/-- The shortest decimal that rounds to a finite number's absolute value, of these the nearest. -/
def shortest (x : Binary64) : Decimal :=
  let (m, q) := x.magnitude
  if m = 0 then ⟨0, 0⟩
  else
    let nearBelow := x.fraction = 0 ∧ 1 < x.biasedExponent
    let interval := ⟨4 * m - (if nearBelow then 1 else 2), 4 * m + 2, m % 2 = 0⟩
    let ratio := ratioOf m q
    (firstHit interval m q (decimalPoint ratio.1 ratio.2) 1 17).trim 20

/-! ## Text -/

/-- Absolute values from `10 ^ -5` to below `10 ^ 16` are written without an exponent. -/
def plainExponents (e : Int) : Bool :=
  -5 ≤ e && e < 16

/-- Digits with a point, and at least one digit on each side of it. -/
def plainText (digits : List Char) (exponent : Int) : List Char :=
  let whole : Int := digits.length + exponent
  if 0 ≤ exponent then digits ++ List.replicate exponent.toNat '0' ++ ['.', '0']
  else if 0 < whole then digits.take whole.toNat ++ '.' :: digits.drop whole.toNat
  else '0' :: '.' :: List.replicate (-whole).toNat '0' ++ digits

/-- One digit before the point, then the signed exponent of ten. -/
def exponentText (digits : List Char) (exponent : Int) : List Char :=
  let mantissa :=
    match digits with
    | first :: second :: rest => first :: '.' :: second :: rest
    | _ => digits
  let sign := if exponent < 0 then '-' else '+'
  mantissa ++ 'e' :: sign :: Nat.toDigits 10 exponent.natAbs

/-- The decimal text of a finite number: its shortest digits, always with a point or an exponent. -/
def text (x : Binary64) : String :=
  let decimal := x.shortest
  let digits := Nat.toDigits 10 decimal.digits
  let leading : Int := digits.length + decimal.exponent - 1
  let body :=
    if plainExponents leading then plainText digits decimal.exponent
    else exponentText digits leading
  String.ofList (if x.isNegative then '-' :: body else body)

end Sagas.Binary64
