import ThemeTemplates.Decimal.Shortest

/-!
# Decimal notation

How a floating-point number is written, as one record of decisions for each place that writes one.
-/

namespace ThemeTemplates

/-- The decisions of a decimal format. A number in positional notation has at least one digit after
the point. -/
structure FloatNotation where
  /-- Whether a leading digit of this exponent is written positionally. -/
  positional : Int → Bool
  /-- What stands in front of an exponent that is not negative. -/
  plus : String
  nan : String
  infinity : String

namespace FloatNotation

private def digitsOf (n : Nat) : List Char :=
  (Nat.repr n).toList

private def writePositional (digits : List Char) (leading : Int) : List Char :=
  if leading < 0 then
    ['0', '.'] ++ List.replicate (-leading - 1).toNat '0' ++ digits
  else
    let whole := leading.toNat + 1
    let fraction := digits.drop whole
    digits.take whole ++ List.replicate (whole - digits.length) '0' ++
      '.' :: (if fraction.isEmpty then ['0'] else fraction)

private def writeExponent (plus : String) (digits : List Char) (leading : Int) : List Char :=
  let mantissa :=
    match digits with
    | first :: second :: rest => first :: '.' :: second :: rest
    | digits => digits
  mantissa ++ 'e' :: (if leading < 0 then ['-'] else plus.toList) ++ digitsOf leading.natAbs

private def withSign (negative : Bool) (text : List Char) : String :=
  String.ofList (if negative then '-' :: text else text)

def writeDecimal (format : FloatNotation) (d : Decimal) : String :=
  let digits := digitsOf d.significand
  let leading := d.exponent + Int.ofNat digits.length - 1
  withSign d.negative
    (if format.positional leading then writePositional digits leading
    else writeExponent format.plus digits leading)

def write (format : FloatNotation) (x : Float) : String :=
  match FloatClass.ofFloat x with
  | .nan => format.nan
  | .infinite negative => withSign negative format.infinity.toList
  | .finite negative mantissa exponent =>
    format.writeDecimal (Decimal.ofBinary negative mantissa exponent)

end FloatNotation

end ThemeTemplates
