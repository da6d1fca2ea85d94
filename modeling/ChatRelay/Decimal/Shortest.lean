/-! The shortest decimals that stand for binary fractions: of all decimals with the fewest digits that lie
closer to a double than to its neighbours, the nearest one. Numbers are written positionally. -/
namespace ChatRelay.Decimal

/-- A positive fraction `numerator / denominator` with the bounds of what rounds to it, as numerators. The
bounds themselves round to it if `closed`. -/
structure Interval where
  low : Nat
  value : Nat
  high : Nat
  denominator : Nat
  closed : Bool
deriving Repr

/-- The interval of the double `significand * 2 ^ exponent`. Below a power of two the neighbour is nearer. -/
def Interval.ofBinary (significand : Nat) (exponent : Int) : Interval :=
  let below := if significand = 1 <<< 52 ∧ -1074 < exponent then 1 else 2
  let up := 1 <<< (exponent - 2).toNat
  { low := (4 * significand - below) * up
    value := 4 * significand * up
    high := (4 * significand + 2) * up
    denominator := 1 <<< (2 - exponent).toNat
    closed := significand % 2 = 0 }

def Interval.holds (interval : Interval) (digits : Nat) (exponent : Int) : Bool :=
  let decimal := digits * interval.denominator * Nat.pow 10 exponent.toNat
  let scale := Nat.pow 10 (-exponent).toNat
  if interval.closed then decide (interval.low * scale ≤ decimal ∧ decimal ≤ interval.high * scale)
  else decide (interval.low * scale < decimal ∧ decimal < interval.high * scale)

/-- The one of two neighbouring decimals `digits` and `digits + 1` that rounds to the fraction, the nearer
one if both do, the larger one if they are equally near. -/
def Interval.neighbour? (interval : Interval) (exponent : Int) : Option Nat :=
  let unit := interval.denominator * Nat.pow 10 exponent.toNat
  let scaled := interval.value * Nat.pow 10 (-exponent).toNat
  let digits := scaled / unit
  let rest := scaled % unit
  match interval.holds digits exponent, interval.holds (digits + 1) exponent with
  | true, true => if 2 * rest < unit then some digits else some (digits + 1)
  | true, false => some digits
  | false, true => some (digits + 1)
  | false, false => none

/-- The exponent of the first digit of the upper bound: no coarser power of ten has a multiple that rounds to
the fraction. The bounds of doubles are not below ten to the power -324. -/
def Interval.magnitude (interval : Interval) : Int :=
  ((Nat.toDigits 10 (interval.high * Nat.pow 10 324 / interval.denominator)).length : Int) - 325

/-- Looks for a multiple of a power of ten that rounds to the fraction, from the exponent `exponent` down to
the finest of `grids` grids. The coarsest grid with a hit gives the fewest digits. -/
def Interval.coarsest (interval : Interval) (exponent : Int) : (grids : Nat) → Nat × Int
  | 0 => (0, 0)
  | grids + 1 =>
    match interval.neighbour? exponent with
    | some digits => (digits, exponent)
    | none => interval.coarsest (exponent - 1) grids

/-- The shortest decimal, as digits and an exponent of ten. Seventeen digits are enough for every double, and
the first may fall one place below that of the upper bound. -/
def Interval.shortest (interval : Interval) : Nat × Int := interval.coarsest interval.magnitude 18

/-- Writes `digits * 10 ^ exponent` without an exponent, and without a point if it is whole. -/
def positional (digits : Nat) (exponent : Int) : String :=
  let text := Nat.toDigits 10 digits
  let places := (-exponent).toNat
  if places = 0 then String.ofList (text ++ List.replicate exponent.toNat '0')
  else
    let padded := List.replicate (places + 1 - text.length) '0' ++ text
    let whole := padded.length - places
    String.ofList (padded.take whole ++ '.' :: padded.drop whole)

/-- Writes a double by its shortest decimal. -/
def ofFloat (value : Float) : String :=
  let bits := value.toBits.toNat
  let sign := if bits >>> 63 = 1 then "-" else ""
  let exponent : Nat := bits >>> 52 % 0x800
  let fraction : Nat := bits % (1 <<< 52)
  if exponent = 0x7ff then
    if fraction = 0 then sign ++ "inf" else "NaN"
  else if exponent = 0 ∧ fraction = 0 then sign ++ "0"
  else
    let interval :=
      if exponent = 0 then Interval.ofBinary fraction (-1074)
      else Interval.ofBinary (1 <<< 52 + fraction) (exponent - 1075)
    let (digits, exponent) := interval.shortest
    sign ++ positional digits exponent

end ChatRelay.Decimal
