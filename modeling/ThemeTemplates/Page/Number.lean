import ThemeTemplates.Decimal.Shortest

/-!
# Numbers of the page language

Whole numbers and floating-point numbers. A whole number is kept in one of four machine ranges. The
range is not shown, yet it decides which sums are out of reach and which floating-point numbers a
whole number equals.
-/

namespace ThemeTemplates

/-- The machine range that a whole number is kept in. -/
inductive IntRange where
  | unsigned64
  | signed64
  | unsigned128
  | signed128
deriving DecidableEq, Repr

namespace IntRange

def greatest : IntRange → Int
  | unsigned64 => Int.pow 2 64 - 1
  | signed64 => Int.pow 2 63 - 1
  | unsigned128 => Int.pow 2 128 - 1
  | signed128 => Int.pow 2 127 - 1

def least : IntRange → Int
  | unsigned64 | unsigned128 => 0
  | signed64 => -(Int.pow 2 63)
  | signed128 => -(Int.pow 2 127)

def contains (range : IntRange) (n : Int) : Bool :=
  range.least ≤ n && n ≤ range.greatest

def given (n : Int) : IntRange :=
  if n < 0 then signed64 else if unsigned64.contains n then unsigned64 else unsigned128

def computed (n : Int) : IntRange :=
  if signed64.contains n then signed64 else signed128

end IntRange

inductive Number where
  | whole (n : Int) (range : IntRange)
  | float (x : Float)

namespace Number

def given (n : Int) : Number :=
  whole n (.given n)

def computed? (n : Int) : Option Number :=
  if IntRange.signed128.contains n then some (whole n (.computed n)) else none

/-- The number as a floating-point number, the nearest one if there is none equal to it. -/
def toFloat : Number → Float
  | whole n _ => Float.ofInt n
  | float x => x

/-- The floating-point number that a number converts to, if it converts back. Past the end of the
range, the way back stops at the greatest number. -/
def exactFloat? : Number → Option Float
  | whole n range =>
    let x := Float.ofInt n
    match (FloatClass.ofFloat x).toInt? with
    | some m => if min m range.greatest == n then some x else none
    | none => none
  | float x => some x

def toInt? : Number → Option Int
  | whole n _ => some n
  | float x => (FloatClass.ofFloat x).toInt?

/-- What a whole number counts as in a sum. Two numbers of the widest range count by their last 128
bits. -/
def addends? (m n : Int) (left right : IntRange) : Option (Int × Int) :=
  if left = .unsigned128 && right = .unsigned128 then some
    (m.bmod (Nat.pow 2 128), n.bmod (Nat.pow 2 128))
  else if IntRange.signed128.contains m && IntRange.signed128.contains n then some (m, n)
  else none

def add? : Number → Number → Option Number
  | whole m left, whole n right => do
    let (m, n) ← addends? m n left right
    computed? (m + n)
  | x, y => some (float (x.toFloat + y.toFloat))

/-- The number with its sign changed. The number just past the end of the range of computed numbers
is left as it is. -/
def negate? : Number → Option Number
  | whole n range =>
    if range = .unsigned128 && n == Int.pow 2 127 then some (whole n range)
    else if IntRange.signed128.contains n then computed? (-n) else none
  | float x => some (float (-x))

/-- Whether two numbers are equal. A whole number equals a floating-point number if it converts to
it and back. -/
def equal : Number → Number → Bool
  | whole m _, whole n _ => m == n
  | x, y =>
    match x.exactFloat?, y.exactFloat? with
    | some x, some y => x == y
    | _, _ => false

/-- Places floating-point numbers in their total order, which tells zeros of different sign
apart. -/
def floatRank (x : Float) : Int :=
  let bits := Int.ofNat x.toBits.toNat
  if bits < Int.pow 2 63 then bits else Int.pow 2 63 - 1 - bits

def compare : Number → Number → Ordering
  | whole m _, whole n _ => Ord.compare m n
  | x, y => Ord.compare (floatRank x.toFloat) (floatRank y.toFloat)

def isZero : Number → Bool
  | whole n _ => n == 0
  | float x => x == 0

end Number

end ThemeTemplates
