import DevicePlugin.Text.Blank

/-!
# Decimal numerals

Reading a whole number below a bound from text. A leading plus sign and leading
zeros are allowed; nothing else may stand beside the digits.
-/

namespace DevicePlugin.Text

def digits? (cs : List Char) : Option Nat :=
  if cs ≠ [] ∧ cs.all Char.isDigit then some (Nat.ofDigitChars 10 cs 0) else none

/-- Digits, perhaps after a plus sign. -/
def numeral? : List Char → Option Nat
  | '+' :: cs => digits? cs
  | cs => digits? cs

def numeralBelow? (bound : Nat) (s : String) : Option Nat :=
  (numeral? (trim s.toList)).filter (· < bound)

end DevicePlugin.Text
