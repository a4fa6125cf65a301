/-!
# Reading decimals

The number a decimal stands for, written with digits, a point and an exponent.
-/

namespace ThemeTemplates

namespace Decimal

def natOfDigits (digits : List Char) : Nat :=
  digits.foldl (fun n c => n * 10 + (c.toNat - '0'.toNat)) 0

/-- The number nearest to a decimal written with digits, point and exponent. -/
def readFloat? (written : List Char) : Option Float := do
  let (whole, rest) := written.span Char.isDigit
  let (fraction, rest) :=
    match rest with
    | '.' :: rest => rest.span Char.isDigit
    | _ => ([], rest)
  let exponent ←
    match rest with
    | [] => some 0
    | _ :: rest =>
      let (negative, digits) :=
        match rest with
        | '-' :: digits => (true, digits)
        | '+' :: digits => (false, digits)
        | digits => (false, digits)
      if digits.isEmpty || !digits.all Char.isDigit then none
      else
        let value := Int.ofNat (natOfDigits digits)
        some (if negative then -value else value)
  let significand := natOfDigits (whole ++ fraction)
  let bound := Int.ofNat (whole.length + fraction.length) + 1000
  let exponent := max (-bound) (min bound (exponent - Int.ofNat fraction.length))
  return Float.ofScientific significand (exponent < 0) exponent.natAbs

end Decimal

end ThemeTemplates
