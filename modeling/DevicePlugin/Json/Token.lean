import DevicePlugin.Json.Number

/-!
# JSON tokens

A text is read as the list of its tokens up to the first place where no token
can be read; a broken token then stands last. A reader that needs what it reads
is careful. One that skips is not: it takes any bytes as text, and it does not
ask in which way a number is broken.
-/

namespace DevicePlugin.Json

inductive Fault where
  | malformed
  | truncated
  /-- JSON, but not of the form asked for. -/
  | mistyped
  deriving DecidableEq, Repr

def Fault.category : Fault → String
  | .malformed => "syntax"
  | .truncated => "eof"
  | .mistyped => "data"

inductive Token where
  | openBrace
  | closeBrace
  | openBracket
  | closeBracket
  | colon
  | comma
  | null
  | bool (value : Bool)
  /-- The number, if it is not too large. -/
  | number (value : Option Number)
  /-- The text, if the literal denotes one. -/
  | text (content : Option String)
  | brokenText (careful skipping : Fault)
  /-- Anything else that is no token. -/
  | broken (careful skipping : Fault)
  deriving DecidableEq

namespace Token

def isBlank (b : UInt8) : Bool := b = 0x20 || b = 0x0a || b = 0x09 || b = 0x0d

/-! ## Text -/

def unescape? (b : UInt8) : Option UInt8 :=
  if b = 0x22 ∨ b = 0x5c ∨ b = 0x2f then some b
  else if b = 0x62 then some 0x08
  else if b = 0x66 then some 0x0c
  else if b = 0x6e then some 0x0a
  else if b = 0x72 then some 0x0d
  else if b = 0x74 then some 0x09
  else none

def hexDigit? (b : UInt8) : Option Nat :=
  if 0x30 ≤ b ∧ b ≤ 0x39 then some (b.toNat - 0x30)
  else if 0x41 ≤ b ∧ b ≤ 0x46 then some (b.toNat - 0x41 + 10)
  else if 0x61 ≤ b ∧ b ≤ 0x66 then some (b.toNat - 0x61 + 10)
  else none

def hex4? (a b c d : UInt8) : Option Nat :=
  match hexDigit? a, hexDigit? b, hexDigit? c, hexDigit? d with
  | some a, some b, some c, some d => some (((a * 16 + b) * 16 + c) * 16 + d)
  | _, _, _, _ => none

/-- The bytes of a literal read so far, the last first; or why a careful reader has given up. -/
abbrev Content := Except Fault (List UInt8)

/-- The reason to give up: an older one, or this. -/
def Content.faultOr (content : Content) (fault : Fault) : Fault :=
  match content with
  | .error older => older
  | .ok _ => fault

def Content.push (content : Content) (bytes : Bytes) : Content :=
  content.map fun read => bytes.reverse ++ read

/-- Gives up if the first half of a surrogate pair still waits for the second. -/
def Content.noHalf (content : Content) (half : Option Nat) : Content :=
  match half with
  | none => content
  | some _ => .error (content.faultOr .malformed)

/-- Takes one UTF-16 unit that was written as an escape. -/
def Content.unit (content : Content) (half : Option Nat) (unit : Nat) : Content × Option Nat :=
  let isHigh := 0xd800 ≤ unit ∧ unit ≤ 0xdbff
  let isLow := 0xdc00 ≤ unit ∧ unit ≤ 0xdfff
  match half with
  | none =>
    if isHigh then (content, some unit)
    else if isLow then (.error (content.faultOr .malformed), none)
    else (content.push (Bytes.ofText (String.singleton (Char.ofNat unit))), none)
  | some high =>
    if isLow then
      let point := 0x10000 + (high - 0xd800) * 0x400 + (unit - 0xdc00)
      (content.push (Bytes.ofText (String.singleton (Char.ofNat point))), none)
    else (.error (content.faultOr .malformed), none)

def Content.token (content : Content) : Token :=
  match content with
  | .error _ => .text none
  | .ok read => .text (Bytes.toText? read.reverse)

/-- Reads a literal after its opening mark. `half` is the first half of a surrogate pair when that
was just read. -/
def readText (content : Content) (half : Option Nat) : Bytes → Token × Bytes
  | [] => (.brokenText (content.faultOr .truncated) .truncated, [])
  | b :: rest =>
    if b = 0x22 then ((content.noHalf half).token, rest)
    else if b = 0x5c then
      match rest with
      | [] => (.brokenText (content.faultOr .truncated) .truncated, [])
      | e :: rest =>
        if e = 0x75 then
          match rest with
          | h₁ :: h₂ :: h₃ :: h₄ :: rest =>
            match hex4? h₁ h₂ h₃ h₄ with
            | some unit => readText (content.unit half unit).1 (content.unit half unit).2 rest
            | none => (.brokenText (content.faultOr .malformed) .malformed, [])
          | _ => (.brokenText (content.faultOr .truncated) .truncated, [])
        else
          match unescape? e with
          | some byte => readText ((content.noHalf half).push [byte]) none rest
          | none => (.brokenText (content.faultOr .malformed) .malformed, [])
    else if b < 0x20 then (.brokenText (content.faultOr .malformed) .malformed, [])
    else readText ((content.noHalf half).push [b]) none rest

/-! ## Numbers -/

/-- The token of a number that needs a digit where these bytes stand. -/
def noDigit (bytes : Bytes) : Token :=
  if bytes = [] then .broken .truncated .malformed else .broken .malformed .malformed

def readExponent (whole fractional : Bytes) (bytes : Bytes) : Token × Bytes :=
  let (negative, bytes) :=
    match bytes with
    | 0x2b :: rest => (false, rest)
    | 0x2d :: rest => (true, rest)
    | _ => (false, bytes)
  match bytes.span Number.isDigit with
  | ([], rest) => (noDigit rest, [])
  | (digits, rest) =>
    let size : Int := digits.foldl (fun n d => n * 10 + Number.digitValue d) 0
    (.number (Number.mixed? whole fractional (if negative then -size else size)), rest)

/-- Reads what may follow the digits before the point. -/
def readAfterWhole (negative : Bool) (whole : Bytes) : Bytes → Token × Bytes
  | [] => (.number (Number.whole? negative whole), [])
  | b :: rest =>
    if b = 0x2e then
      match rest.span Number.isDigit with
      | ([], rest) => (noDigit rest, [])
      | (digits, rest) =>
        match rest with
        | [] => (.number (Number.mixed? whole digits 0), [])
        | e :: after =>
          if e = 0x65 ∨ e = 0x45 then readExponent whole digits after
          else (.number (Number.mixed? whole digits 0), e :: after)
    else if b = 0x65 ∨ b = 0x45 then readExponent whole [] rest
    else (.number (Number.whole? negative whole), b :: rest)

/-- Reads a number after its sign. A zero may not lead other digits. -/
def readNumber (negative : Bool) (bytes : Bytes) : Token × Bytes :=
  match bytes.span Number.isDigit with
  | ([], rest) => (noDigit rest, [])
  | (d :: digits, rest) =>
    if d = 0x30 ∧ digits ≠ [] then (.broken .malformed .malformed, [])
    else readAfterWhole negative (d :: digits) rest

/-! ## Words and marks -/

/-- Reads the rest of a word. -/
def readWord (token : Token) : (expected : Bytes) → Bytes → Token × Bytes
  | [], rest => (token, rest)
  | _ :: _, [] => (.broken .truncated .truncated, [])
  | e :: expected, b :: rest =>
    if b = e then readWord token expected rest else (.broken .malformed .malformed, [])

/-- Reads the token that starts with a byte. Nothing is left after a broken one. -/
def read (b : UInt8) (rest : Bytes) : Token × Bytes :=
  if b = 0x7b then (.openBrace, rest)
  else if b = 0x7d then (.closeBrace, rest)
  else if b = 0x5b then (.openBracket, rest)
  else if b = 0x5d then (.closeBracket, rest)
  else if b = 0x3a then (.colon, rest)
  else if b = 0x2c then (.comma, rest)
  else if b = 0x22 then readText (.ok []) none rest
  else if b = 0x2d then readNumber true rest
  else if Number.isDigit b then readNumber false (b :: rest)
  else if b = 0x6e then readWord .null [0x75, 0x6c, 0x6c] rest
  else if b = 0x74 then readWord (.bool true) [0x72, 0x75, 0x65] rest
  else if b = 0x66 then readWord (.bool false) [0x61, 0x6c, 0x73, 0x65] rest
  else (.broken .malformed .malformed, [])

def readAll : (fuel : Nat) → Bytes → List Token
  | 0, _ => []
  | _, [] => []
  | fuel + 1, b :: rest =>
    if isBlank b then readAll fuel rest
    else (read b rest).1 :: readAll fuel (read b rest).2

/-- The tokens of a text. Each takes at least one byte, so its length bounds their number. -/
def ofBytes (bytes : Bytes) : List Token := readAll bytes.length bytes

/-! ## Writing -/

def hexByte (n : Nat) : UInt8 := UInt8.ofNat (if n < 10 then 0x30 + n else 0x57 + n)

def escapeByte (b : UInt8) : Bytes :=
  if b = 0x22 then [0x5c, 0x22]
  else if b = 0x5c then [0x5c, 0x5c]
  else if b = 0x08 then [0x5c, 0x62]
  else if b = 0x0c then [0x5c, 0x66]
  else if b = 0x0a then [0x5c, 0x6e]
  else if b = 0x0d then [0x5c, 0x72]
  else if b = 0x09 then [0x5c, 0x74]
  else if b < 0x20 then [0x5c, 0x75, 0x30, 0x30, hexByte (b.toNat / 16), hexByte (b.toNat % 16)]
  else [b]

def textBytes (s : String) : Bytes :=
  0x22 :: (Bytes.ofText s).flatMap escapeByte ++ [0x22]

/-- How a token is written. Tokens that no writer makes have no bytes. -/
def bytes : Token → Bytes
  | .openBrace => [0x7b]
  | .closeBrace => [0x7d]
  | .openBracket => [0x5b]
  | .closeBracket => [0x5d]
  | .colon => [0x3a]
  | .comma => [0x2c]
  | .null => [0x6e, 0x75, 0x6c, 0x6c]
  | .bool true => [0x74, 0x72, 0x75, 0x65]
  | .bool false => [0x66, 0x61, 0x6c, 0x73, 0x65]
  | .number (some n) => n.bytes
  | .text (some s) => textBytes s
  | _ => []

end Token

end DevicePlugin.Json
