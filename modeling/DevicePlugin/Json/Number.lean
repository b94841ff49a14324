import DevicePlugin.Bytes

/-!
# Numbers in JSON

Whole numbers are kept when 64 bits hold them. Any other number is only known to
be a fraction, and to be in the range of a double: its leading digits, as many
as 64 bits hold, times a power of ten must not round to infinity.
-/

namespace DevicePlugin.Json

inductive Number where
  | natural (value : UInt64)
  | negative (value : Int64)
  /-- Neither of the two above: a fraction, an exponent, minus zero, or too many digits. -/
  | fraction
  deriving DecidableEq

namespace Number

def isDigit (b : UInt8) : Bool := 0x30 ≤ b && b ≤ 0x39

def digitValue (b : UInt8) : Nat := b.toNat - 0x30

/-- Appends digits to a number while 64 bits hold it. The second answer counts the digits
that are left over. -/
def accumulate (n : Nat) : Bytes → Nat × Nat
  | [] => (n, 0)
  | d :: ds =>
    let next := n * 10 + digitValue d
    if next < UInt64.size then accumulate next ds else (n, ds.length + 1)

/-- The nearest number with 53 significant bits, a tie going to the even one. -/
def roundToDouble (n : Nat) : Nat :=
  let dropped := n.log2 + 1 - 53
  if dropped = 0 then n
  else
    let kept := n / Nat.pow 2 dropped
    let lost := n % Nat.pow 2 dropped
    let half := Nat.pow 2 (dropped - 1)
    let up := half < lost ∨ (lost = half ∧ kept % 2 = 1)
    (if up then kept + 1 else kept) * Nat.pow 2 dropped

def tooLarge (significand : Nat) (exponent : Int) : Bool :=
  significand ≠ 0 && 0 ≤ exponent &&
    (308 < exponent ||
      Nat.pow 2 1024 - Nat.pow 2 970 ≤
        roundToDouble significand * roundToDouble (Nat.pow 10 exponent.toNat))

def fraction? (significand : Nat) (exponent : Int) : Option Number :=
  if tooLarge significand exponent then none else some .fraction

def whole? (negative : Bool) (digits : Bytes) : Option Number :=
  match accumulate 0 digits with
  | (n, 0) =>
    if !negative then some (.natural (UInt64.ofNat n))
    else if n = 0 ∨ UInt64.size / 2 < n then some .fraction
    else some (.negative (Int64.ofInt (-n)))
  | (n, left) => fraction? n left

def mixed? (whole fractional : Bytes) (exponent : Int) : Option Number :=
  let (n, left) := accumulate 0 whole
  let (n, left') := accumulate n fractional
  fraction? n (left - ((fractional.length - left' : Nat) : Int) + exponent)

def bytes : Number → Bytes
  | .natural value => Bytes.ofAscii (Nat.toDigits 10 value.toNat)
  | .negative value => 0x2d :: Bytes.ofAscii (Nat.toDigits 10 value.toInt.natAbs)
  | .fraction => []

end Number

end DevicePlugin.Json
