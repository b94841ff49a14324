/-!
# Durations

A length of time in nanoseconds, shown in the largest of four units that is not
above it, with as many decimal places as it needs.
-/

namespace DevicePlugin.Text

/-- A fraction of `10 ^ places`, without the zeros at its end. -/
def decimalPlaces (fraction places : Nat) : List Char :=
  let digits := Nat.toDigits 10 fraction
  let padded := List.replicate (places - digits.length) '0' ++ digits
  (padded.reverse.dropWhile (· = '0')).reverse

/-- `count / 10 ^ places`, in decimals. -/
def decimal (count places : Nat) : String :=
  let whole := (count / Nat.pow 10 places).repr
  match decimalPlaces (count % Nat.pow 10 places) places with
  | [] => whole
  | digits => whole ++ "." ++ String.ofList digits

def duration (nanoseconds : Nat) : String :=
  if 1000000000 ≤ nanoseconds then decimal nanoseconds 9 ++ "s"
  else if 1000000 ≤ nanoseconds then decimal nanoseconds 6 ++ "ms"
  else if 1000 ≤ nanoseconds then decimal nanoseconds 3 ++ "µs"
  else decimal nanoseconds 0 ++ "ns"

end DevicePlugin.Text
