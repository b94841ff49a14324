import DevicePlugin.Yaml.Scalar.Gap

/-!
# Quoted scalars

Single quotes know one escape, the doubled quote. Double quotes know escapes
after a backslash, one of which is a break that does not count.
-/

namespace DevicePlugin.Yaml.QuotedScalar

/-- Reads on in single quotes, after some text, given from its end, and a gap. -/
def readSingle (read : List Char) (gap : Gap) : Source → Option (String × Source)
  | [] => none
  | s :: rest =>
    if isSpace s.char then readSingle read (gap.push s.char) rest
    else if Source.atBoundary (s :: rest) then none
    else if s.char = '\'' then
      match rest with
      | q :: after =>
        if q.char = '\'' then readSingle ('\'' :: (gap.text.reverse ++ read)) .none after
        else some (String.ofList (gap.text.reverse ++ read).reverse, rest)
      | [] => some (String.ofList (gap.text.reverse ++ read).reverse, [])
    else readSingle (s.char :: (gap.text.reverse ++ read)) .none rest

/-! ## Double quotes -/

def unescape? (c : Char) : Option Char :=
  match c with
  | '0' => some '\x00'
  | 'a' => some '\x07'
  | 'b' => some '\x08'
  | 't' => some '\t'
  | '\t' => some '\t'
  | 'n' => some '\n'
  | 'v' => some '\x0b'
  | 'f' => some '\x0c'
  | 'r' => some '\r'
  | 'e' => some '\x1b'
  | ' ' => some ' '
  | '"' => some '"'
  | '/' => some '/'
  | '\\' => some '\\'
  | 'N' => some nextLine
  | '_' => some '\xa0'
  | 'L' => some '\u2028'
  | 'P' => some '\u2029'
  | _ => none

def codeLength? (c : Char) : Option Nat :=
  match c with
  | 'x' => some 2
  | 'u' => some 4
  | 'U' => some 8
  | _ => none

def hexDigit? (c : Char) : Option Nat :=
  if c.isDigit then some (c.toNat - '0'.toNat)
  else if 'a' ≤ c ∧ c ≤ 'f' then some (c.toNat - 'a'.toNat + 10)
  else if 'A' ≤ c ∧ c ≤ 'F' then some (c.toNat - 'A'.toNat + 10)
  else none

/-- The character with a code, which must not be half of a surrogate pair. -/
def charOfCode? (n : Nat) : Option Char :=
  if n.isValidChar then some (Char.ofNat n) else none

inductive Mode where
  | text
  | escaped
  /-- So many digits of a code are still due, at least one. -/
  | code (due value : Nat)

/-- Reads on in double quotes. The gap is empty except in the mode `text`. -/
def readDouble (read : List Char) (gap : Gap) : Mode → Source → Option (String × Source)
  | _, [] => none
  | .text, s :: rest =>
    if isSpace s.char then readDouble read (gap.push s.char) .text rest
    else if Source.atBoundary (s :: rest) then none
    else
      let read := gap.text.reverse ++ read
      if s.char = '"' then some (String.ofList read.reverse, rest)
      else if s.char = '\\' then readDouble read .none .escaped rest
      else readDouble (s.char :: read) .none .text rest
  | .escaped, s :: rest =>
    if isBreak s.char then readDouble read (.breaks none []) .text rest
    else
      match unescape? s.char, codeLength? s.char with
      | some c, _ => readDouble (c :: read) .none .text rest
      | none, some due => readDouble read .none (.code due 0) rest
      | none, none => none
  | .code due value, s :: rest =>
    match hexDigit? s.char with
    | none => none
    | some digit =>
      let value := value * 16 + digit
      if due ≤ 1 then
        match charOfCode? value with
        | none => none
        | some c => readDouble (c :: read) .none .text rest
      else readDouble read .none (.code (due - 1) value) rest

/-- The scalar after an opening quote, and what stands after the closing one. -/
def read? (double : Bool) (source : Source) : Option (String × Source) :=
  if double then readDouble [] .none .text source else readSingle [] .none source

end DevicePlugin.Yaml.QuotedScalar
