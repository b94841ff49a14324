import DevicePlugin.Untyped
import DevicePlugin.Yaml.Token

/-!
# What scalars stand for

A plain scalar without a tag is null, a flag, a number or text, by its spelling.
A scalar with a tag of the core types must be spelled like one of them; other
scalars are text.
-/

namespace DevicePlugin.Yaml.Scalar

/-! ## Words -/

def isNull (text : String) : Bool := ["null", "Null", "NULL", "~"].contains text

def flag? (text : String) : Option Bool :=
  if ["true", "True", "TRUE"].contains text then some true
  else if ["false", "False", "FALSE"].contains text then some false
  else none

/-! ## Whole numbers -/

def digitValue? (base : Nat) (c : Char) : Option Nat :=
  let value? :=
    if c.isDigit then some (c.toNat - '0'.toNat)
    else if 'a' ≤ c ∧ c ≤ 'f' then some (c.toNat - 'a'.toNat + 10)
    else if 'A' ≤ c ∧ c ≤ 'F' then some (c.toNat - 'A'.toNat + 10)
    else none
  value?.filter (· < base)

def natural? (base : Nat) (cs : List Char) : Option Nat :=
  if cs = [] then none
  else (cs.mapM (digitValue? base)).map fun digits => digits.foldl (fun n d => n * base + d) 0

/-- A zero in front of other digits makes no number. -/
def hasLeadingZero (cs : List Char) : Bool :=
  match cs with
  | '0' :: rest => rest ≠ [] && rest.all Char.isDigit
  | _ => false

def magnitude? : List Char → Option Nat
  | '0' :: 'x' :: cs => natural? 16 cs
  | '0' :: 'o' :: cs => natural? 8 cs
  | '0' :: 'b' :: cs => natural? 2 cs
  | cs => if hasLeadingZero cs then none else natural? 10 cs

def sign : List Char → Bool × List Char
  | '-' :: cs => (true, cs)
  | '+' :: cs => (false, cs)
  | cs => (false, cs)

/-- A whole number. 64 bits must hold it, or 128 bits must be too few. -/
inductive Whole where
  | value (v : Untyped)
  | tooLarge
  | notWhole

def whole (text : String) : Whole :=
  match sign text.toList with
  | (isNegative, cs) =>
    match magnitude? cs with
    | none => .notWhole
    | some n =>
      if isNegative then
        if n ≤ UInt64.size / 2 then .value (.int (Int64.ofInt (-n)))
        else if n ≤ UInt64.size * UInt64.size / 2 then .tooLarge
        else .notWhole
      else if n < UInt64.size then .value (.uint (UInt64.ofNat n))
      else if n < UInt64.size * UInt64.size then .tooLarge
      else .notWhole

/-! ## Fractions -/

/-- The least number that rounds to the infinite double. -/
def infinityBound : Nat := Nat.pow 2 1024 - Nat.pow 2 970

def isFinite (significand : Nat) (exponent : Int) : Bool :=
  let digits : Int := (Nat.toDigits 10 significand).length
  if significand = 0 || exponent + digits < 0 then true
  else if 400 < exponent + digits then false
  else if 0 ≤ exponent then significand * Nat.pow 10 exponent.toNat < infinityBound
  else significand < infinityBound * Nat.pow 10 (-exponent).toNat

/-- The exponent at the end of a number, which may be missing. -/
def exponent? : List Char → Option Int
  | [] => some 0
  | e :: cs =>
    if e = 'e' ∨ e = 'E' then
      match sign cs with
      | (isNegative, cs) =>
        if cs ≠ [] ∧ cs.all Char.isDigit then
          let n := Nat.ofDigitChars 10 cs 0
          some (if isNegative then -n else n)
        else none
    else none

/-- Whether text after a sign is a number with a point or an exponent or neither. -/
def isDecimal (cs : List Char) : Bool :=
  match cs.span Char.isDigit with
  | (whole, rest) =>
    let (fractional, rest) :=
      match rest with
      | '.' :: rest => rest.span Char.isDigit
      | rest => ([], rest)
    match exponent? rest with
    | none => false
    | some exponent =>
      (whole ≠ [] || fractional ≠ []) &&
        isFinite (Nat.ofDigitChars 10 (whole ++ fractional) 0) (exponent - fractional.length)

def isFraction (text : String) : Bool :=
  [".inf", ".Inf", ".INF", "+.inf", "+.Inf", "+.INF", "-.inf", "-.Inf", "-.INF", ".nan", ".NaN",
    ".NAN"].contains text || isDecimal (sign text.toList).2

/-! ## Scalars -/

/-- The meaning of a plain scalar without a tag. Numbers between 64 and 128 bits have none. -/
def ofPlain? (text : String) : Option Untyped :=
  if text.isEmpty || isNull text then some .null
  else
    match flag? text, whole text with
    | some b, _ => some (.bool b)
    | none, .value v => some v
    | none, .tooLarge => none
    | none, .notWhole =>
      if !hasLeadingZero (sign text.toList).2 && isFraction text then some .fraction
      else some (.text text)

/-- Whether a tag is of a kind that only this document knows. -/
def isLocalTag (tag : Bytes) : Bool :=
  match tag with
  | 0x21 :: name => (Bytes.toText? name).isSome
  | _ => false

def coreTag (name : String) : Bytes := Bytes.ofText ("tag:yaml.org,2002:" ++ name)

/-- The meaning of a scalar. A local tag has none. -/
def meaning? (tag : Option Bytes) (text : String) (plain : Bool) : Option Untyped :=
  match tag with
  | none => if plain then ofPlain? text else some (.text text)
  | some tag =>
    if isLocalTag tag then none
    else if tag = coreTag "bool" then (flag? text).map .bool
    else if tag = coreTag "int" then
      match whole text with
      | .value v => some v
      | _ => none
    else if tag = coreTag "float" then if isFraction text then some .fraction else none
    else if tag = coreTag "null" then if isNull text then some .null else none
    else if tag.head? = some 0x21 && plain then ofPlain? text
    else some (.text text)

end DevicePlugin.Yaml.Scalar
