/-!
Shortest decimal text of a binary floating-point number: of the decimals that read back as the
number, those that are a multiple of the largest power of ten, and of these the nearest.
-/

namespace AuthorizedCalls.Decimal

/-- The number `mantissa * 2 ^ exponent`. Its neighbours are one unit of the mantissa away, but
the lower one is half as far where `closeBelow` says so. -/
structure Binary where
  mantissa : Nat
  exponent : Int
  closeBelow : Bool

namespace Binary

/-- The magnitude of a finite number in the 64-bit format: eleven bits of exponent above fifty-two
of mantissa, whose leading one is left out unless the exponent field is zero. -/
def ofBits (bits : UInt64) : Binary :=
  let field : Nat := (bits >>> 52 &&& 0x7ff).toNat
  let fraction : Nat := (bits &&& 0xfffffffffffff).toNat
  if field = 0 then ⟨fraction, -1074, false⟩
  else ⟨0x10000000000000 + fraction, (field : Int) - 1075, fraction == 0 && decide (1 < field)⟩

/-- A decimal that lies on the grid of the multiples of `10 ^ power` and rounds to the number, if
there is one. An end of the interval that rounds to the number belongs to it where the mantissa
is even. Of two decimals the nearer is taken, and at equal distance the even one. -/
def onGrid? (b : Binary) (power : Int) : Option Nat :=
  let scale := Nat.pow 2 b.exponent.toNat * Nat.pow 10 (-power).toNat
  let unit := 4 * Nat.pow 2 (-b.exponent).toNat * Nat.pow 10 power.toNat
  let value := 4 * b.mantissa * scale
  let below := if b.closeBelow then scale else 2 * scale
  let above := 2 * scale
  let low := value / unit
  let within (distance bound : Nat) : Bool :=
    if b.mantissa % 2 = 0 then distance ≤ bound else distance < bound
  let hitLow := 0 < low && within (value - low * unit) below
  let hitHigh := within ((low + 1) * unit - value) above
  if hitLow && hitHigh then
    let twice := 2 * value
    let middle := (2 * low + 1) * unit
    if twice < middle || (twice = middle && low % 2 = 0) then some low else some (low + 1)
  else if hitLow then some low
  else if hitHigh then some (low + 1)
  else none

/-- Looks through so many grids, each ten times finer than the one before. -/
def search (b : Binary) (power : Int) : (grids : Nat) → Nat × Int
  | 0 => (0, 0)
  | grids + 1 =>
    match b.onGrid? power with
    | some digits => (digits, power)
    | none => search b (power - 1) grids

/-- Digits and power of ten of the shortest decimal of a positive number. No finite number of the
format reaches `10 ^ 309`, and neighbours are further apart than `10 ^ (-324)`, so one of these
grids has it. -/
def shortest (b : Binary) : Nat × Int :=
  b.search 309 634

end Binary

structure Layout where
  /-- Written out if the point stands after more places than this, counted from the first digit. -/
  lowestPoint : Int
  /-- Written out if the point stands after at most so many places. -/
  highestPoint : Int
  /-- What stands in front of an exponent that is not negative. -/
  exponentSign : String

def Layout.exponentText (l : Layout) (exponent : Int) : String :=
  "e" ++ (if exponent < 0 then "" else l.exponentSign) ++ toString exponent

/-- The decimal `digits * 10 ^ power`. At least one place follows the point where it is written
out; an exponent follows the digits, with a point after the first of several. -/
def Layout.text (l : Layout) (digits : Nat) (power : Int) : String :=
  let ds := Nat.toDigits 10 digits
  let point := (ds.length : Int) + power
  let zeros (n : Int) := List.replicate n.toNat '0'
  if digits = 0 then "0.0"
  else if 0 ≤ power && point ≤ l.highestPoint then
    String.ofList (ds ++ zeros power ++ ['.', '0'])
  else if 0 < point && point ≤ l.highestPoint then
    String.ofList (ds.take point.toNat ++ '.' :: ds.drop point.toNat)
  else if l.lowestPoint < point && point ≤ 0 then
    String.ofList ('0' :: '.' :: (zeros (-point) ++ ds))
  else
    match ds with
    | [] => ""
    | [d] => String.ofList [d] ++ l.exponentText (point - 1)
    | d :: rest => String.ofList (d :: '.' :: rest) ++ l.exponentText (point - 1)

def Layout.floatText (l : Layout) (x : Float) : String :=
  let b := Binary.ofBits x.toBits
  let magnitude :=
    if b.mantissa = 0 then l.text 0 0
    else
      let (digits, power) := b.shortest
      l.text digits power
  if x.toBits >>> 63 = 1 then "-" ++ magnitude else magnitude

end AuthorizedCalls.Decimal
