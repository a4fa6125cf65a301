/-!
# Shortest decimals

The shortest decimal that reads back as a given floating-point number: of all decimals in the
interval of reals that round to the number, one with the fewest digits, and of those the nearest.
The search is in exact arithmetic, on one decimal grid after another from coarse to fine.
-/

namespace ThemeTemplates

/-- A decimal `significand · 10 ^ exponent` with a sign. -/
structure Decimal where
  negative : Bool
  significand : Nat
  exponent : Int
deriving DecidableEq, Repr

inductive FloatClass where
  | nan
  | infinite (negative : Bool)
  /-- The number `mantissa · 2 ^ exponent`. -/
  | finite (negative : Bool) (mantissa : Nat) (exponent : Int)
deriving DecidableEq, Repr

namespace FloatClass

def ofBits (bits : Nat) : FloatClass :=
  let negative := bits / Nat.pow 2 63 % 2 == 1
  let biased := bits / Nat.pow 2 52 % Nat.pow 2 11
  let fraction := bits % Nat.pow 2 52
  if biased == 2047 then if fraction == 0 then infinite negative else nan
  else if biased == 0 then finite negative fraction (-1074)
  else finite negative (Nat.pow 2 52 + fraction) (Int.ofNat biased - 1075)

def ofFloat (x : Float) : FloatClass :=
  ofBits x.toBits.toNat

def toInt? : FloatClass → Option Int
  | finite negative mantissa exponent =>
    let scaled := mantissa * Nat.pow 2 exponent.toNat
    let unit := Nat.pow 2 (-exponent).toNat
    if scaled % unit == 0 then
      let whole := Int.ofNat (scaled / unit)
      some (if negative then -whole else whole)
    else none
  | _ => none

end FloatClass

namespace Decimal

def digitCount (n : Nat) : Nat :=
  if n < 10 then 1 else digitCount (n / 10) + 1

/-- A positive real and the interval of reals that round to it, all over one denominator. -/
structure Rounding where
  value : Nat
  lower : Nat
  upper : Nat
  denominator : Nat
  /-- Whether the ends of the interval round to the value too. -/
  closed : Bool

/-- The reals that round to `mantissa · 2 ^ exponent`. Below a power of two the gap is halved. -/
def Rounding.ofBinary (mantissa : Nat) (exponent : Int) : Rounding :=
  let scale := Nat.pow 2 (exponent - 2).toNat
  let below := if mantissa == Nat.pow 2 52 && exponent != -1074 then 1 else 2
  { value := 4 * mantissa * scale
    lower := (4 * mantissa - below) * scale
    upper := (4 * mantissa + 2) * scale
    denominator := Nat.pow 2 (2 - exponent).toNat
    closed := mantissa % 2 == 0 }

/-- Whether `significand · 10 ^ exponent` lies in the interval. -/
def Rounding.contains (r : Rounding) (significand : Nat) (exponent : Int) : Bool :=
  let point := significand * Nat.pow 10 exponent.toNat * r.denominator
  let unit := Nat.pow 10 (-exponent).toNat
  if r.closed then r.lower * unit ≤ point && point ≤ r.upper * unit
  else r.lower * unit < point && point < r.upper * unit

/-- The decimal on the grid of a given exponent that rounds to the value and is nearest to it, the
even one of two as near. -/
def Rounding.nearest? (r : Rounding) (exponent : Int) : Option Nat :=
  let value := r.value * Nat.pow 10 (-exponent).toNat
  let step := r.denominator * Nat.pow 10 exponent.toNat
  let below := value / step
  let rest := value % step
  let fits := fun significand => r.contains significand exponent
  match fits below && below != 0, fits (below + 1) with
  | true, true =>
    if 2 * rest < step || (2 * rest == step && below % 2 == 0) then some below else some (below + 1)
  | true, false => some below
  | false, true => some (below + 1)
  | false, false => none

def Rounding.leadingExponent (r : Rounding) : Int :=
  Int.ofNat (digitCount (r.value * Nat.pow 10 400 / r.denominator)) - 401

def reduce (significand : Nat) (exponent : Int) : Nat × Int :=
  if _h : 10 ≤ significand ∧ significand % 10 = 0 then reduce (significand / 10) (exponent + 1)
  else (significand, exponent)
termination_by significand
decreasing_by omega

def Rounding.shortest (r : Rounding) : Nat × Int :=
  let found := (List.range 17).findSome? fun (extra : Nat) =>
    let exponent := r.leadingExponent - extra
    (r.nearest? exponent).map fun significand => reduce significand exponent
  found.getD (0, 0)

def ofBinary (negative : Bool) (mantissa : Nat) (exponent : Int) : Decimal :=
  if mantissa == 0 then { negative, significand := 0, exponent := 0 }
  else
    let (significand, exponent) := (Rounding.ofBinary mantissa exponent).shortest
    { negative, significand, exponent }

end Decimal

end ThemeTemplates
