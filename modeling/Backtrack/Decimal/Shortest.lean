import Backtrack.Decimal.Binary64

/-!
# The shortest decimal of a binary64 number

Among the decimals that round to a given magnitude, the one with the fewest digits is sought, and
of those the nearest.  The candidates with a given number of digits are the two neighbours of the
magnitude on that decimal grid; the ends of the rounding interval belong to it exactly when the
significand is even.  `Binary64.written` prints these digits, with a point from `1e-4` up to
`1e16` and with an exponent elsewhere.
-/

namespace Backtrack.Binary64

/-- The integer `m` and exponent `q` of the finite magnitude `m * 2 ^ q`. -/
def decompose (magnitude : Nat) : Nat × Int :=
  if magnitude < leadingBit then (magnitude, -1074)
  else (leadingBit + magnitude % leadingBit, (magnitude / leadingBit : Nat) - 1075)

/-- The greatest `e` with `10 ^ e * den ≤ num`, searched from `e` downwards. -/
def floorLog10Below (num den : Nat) : Nat → Int → Int
  | 0, e => e
  | fuel + 1, e =>
    if den ≤ num * Nat.pow 10 (-e).toNat then e else floorLog10Below num den fuel (e - 1)

/-- The greatest `e` with `10 ^ e ≤ num / den`, for magnitudes in the range of binary64. -/
def floorLog10 (num den : Nat) : Int :=
  if den ≤ num then (Nat.toDigits 10 (num / den)).length - 1
  else floorLog10Below num den 400 (-1)

/-- The decimal with the fewest digits that rounds to a positive finite magnitude, as an integer
and a power of ten. -/
def shortest (magnitude : Nat) : Nat × Int :=
  let (m, q) := decompose magnitude
  -- the magnitude and its rounding interval in quarters of the spacing
  let lowWidth := if m = leadingBit ∧ 2 * leadingBit ≤ magnitude then 1 else 2
  let (up, down) := if 2 ≤ q then (Nat.pow 2 (q - 2).toNat, 1) else (1, Nat.pow 2 (2 - q).toNat)
  let value := 4 * m * up
  let low := (4 * m - lowWidth) * up
  let high := (4 * m + 2) * up
  let top := floorLog10 value down
  let rec search : Nat → Nat → Nat × Int
    | 0, _ => (0, 0)
    | fuel + 1, count =>
      let k : Int := top - count + 1
      -- `c * 10 ^ k` against `x / down` is `c * tens` against `x * tenths`
      let tens := down * Nat.pow 10 k.toNat
      let tenths := Nat.pow 10 (-k).toNat
      let holds (c : Nat) : Bool :=
        if m % 2 = 0 then low * tenths ≤ c * tens && c * tens ≤ high * tenths
        else low * tenths < c * tens && c * tens < high * tenths
      let below := value * tenths / tens
      let rest := value * tenths % tens
      let preferBelow := 2 * rest < tens || (2 * rest = tens && below % 2 = 0)
      if holds below && (preferBelow || !holds (below + 1)) then (below, k)
      else if holds (below + 1) then (below + 1, k)
      else search fuel (count + 1)
  search 20 1

/-- Drops zeros at the end of the digits, raising the exponent. -/
def dropZeros : Nat → Nat × Int → Nat × Int
  | 0, d => d
  | fuel + 1, (n, k) => if n % 10 = 0 ∧ n ≠ 0 then dropZeros fuel (n / 10, k + 1) else (n, k)

/-- The digits of a positive decimal with a point, or with an exponent where a point would stand
too far from them. -/
def layout (digits : List Char) (exponent : Int) : List Char :=
  let point : Int := digits.length + exponent
  if -4 < point ∧ point ≤ 16 then
    if point ≤ 0 then '0' :: '.' :: List.replicate (-point).toNat '0' ++ digits
    else if digits.length ≤ point.toNat then
      digits ++ List.replicate (point.toNat - digits.length) '0' ++ ['.', '0']
    else digits.take point.toNat ++ '.' :: digits.drop point.toNat
  else
    let e := point - 1
    let size := Nat.toDigits 10 e.natAbs
    let padded := List.replicate (2 - size.length) '0' ++ size
    let mantissa :=
      match digits with
      | [] | [_] => digits
      | d :: ds => d :: '.' :: ds
    mantissa ++ 'e' :: (if e < 0 then '-' else '+') :: padded

/-- The written form of a binary64 number. -/
def written (x : Binary64) : String :=
  let sign := if x.negative then "-" else ""
  if infinity ≤ x.magnitude then sign ++ "inf"
  else if x.magnitude = 0 then sign ++ "0.0"
  else
    let (n, k) := dropZeros 20 (shortest x.magnitude)
    sign ++ String.ofList (layout (Nat.toDigits 10 n) k)

end Backtrack.Binary64
