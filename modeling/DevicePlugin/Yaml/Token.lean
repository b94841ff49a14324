import DevicePlugin.Bytes
import DevicePlugin.Yaml.Source

/-!
# YAML tokens

The tokens of a text, in which layout has become explicit: block collections
have a start and an end, and keys and values are marked.
-/

namespace DevicePlugin.Yaml

inductive Token where
  | version (major minor : Nat)
  | tagHandle (handle : String) (start : Bytes)
  | documentStart
  | documentEnd
  | sequenceStart
  | mappingStart
  | blockEnd
  | flowSequenceStart
  | flowSequenceEnd
  | flowMappingStart
  | flowMappingEnd
  | blockEntry
  | flowEntry
  | key
  | value
  | alias (name : String)
  | anchor (name : String)
  | tag (handle : String) (suffix : Bytes)
  | scalar (text : String) (plain : Bool)
  deriving DecidableEq

def wordsText (spots : Source) : String := String.ofList (spots.map Spot.char)

namespace Token

/-! ## Anchors -/

def endsAnchor : Source → Bool
  | [] => true
  | s :: _ => isSpace s.char || ['?', ':', ',', ']', '}', '%', '@', Char.ofNat 0x60].contains s.char

def anchorName? (source : Source) : Option (String × Source) :=
  match source.span fun p => isWord p.char with
  | ([], _) => none
  | (name, rest) => if endsAnchor rest then some (wordsText name, rest) else none

/-! ## Tags -/

def hexValue? (s : Spot) : Option Nat :=
  if s.char.isDigit then some (s.char.toNat - '0'.toNat)
  else if 'a' ≤ s.char ∧ s.char ≤ 'f' then some (s.char.toNat - 'a'.toNat + 10)
  else if 'A' ≤ s.char ∧ s.char ≤ 'F' then some (s.char.toNat - 'A'.toNat + 10)
  else none

def byte? (high low : Spot) : Option UInt8 :=
  match hexValue? high, hexValue? low with
  | some high, some low => some (UInt8.ofNat (high * 16 + low))
  | _, _ => none

def sizeOfCharacter? (b : UInt8) : Option Nat :=
  if b < 0x80 then some 1
  else if 0xc0 ≤ b ∧ b < 0xe0 then some 2
  else if 0xe0 ≤ b ∧ b < 0xf0 then some 3
  else if 0xf0 ≤ b ∧ b < 0xf8 then some 4
  else none

/-- Whether a character may stand in a tag. Inside angle brackets more of them may. -/
def isTagCharacter (verbatim : Bool) (c : Char) : Bool :=
  isWord c || ";/?:@&=+$.!~*'()".toList.contains c || (verbatim && ",[]".toList.contains c)

/-- Reads the characters of a tag and its percent escapes, which come in whole characters: of the
present one, `due` bytes are still to come. -/
def tagCharacters? (verbatim : Bool) (due : Nat) (read : Bytes) : Source → Option (Bytes × Source)
  | [] => if due = 0 then some (read.reverse, []) else none
  | s :: rest =>
    if s.char = '%' then
      match rest with
      | high :: low :: rest =>
        match byte? high low with
        | none => none
        | some b =>
          if due = 0 then
            match sizeOfCharacter? b with
            | none => none
            | some size => tagCharacters? verbatim (size - 1) (b :: read) rest
          else if 0x80 ≤ b ∧ b < 0xc0 then tagCharacters? verbatim (due - 1) (b :: read) rest
          else none
      | _ => none
    else if due ≠ 0 then none
    else if isTagCharacter verbatim s.char then
      tagCharacters? verbatim 0 ((Bytes.ofText (String.singleton s.char)).reverse ++ read) rest
    else some (read.reverse, s :: rest)

/-- What counts of a tag: it ends before a zero byte. -/
def untilZero (tag : Bytes) : Bytes := tag.takeWhile (· ≠ 0)

/-- At least one character of a tag, as far as it counts. -/
def tagText? (verbatim : Bool) (source : Source) : Option (Bytes × Source) :=
  match tagCharacters? verbatim 0 [] source with
  | none | some ([], _) => none
  | some (read, rest) => some (untilZero read, rest)

/-- A tag ends with a word, inside a flow collection also before a comma. -/
def closedTag? (inFlow : Bool) (handle : String) (suffix : Bytes) (rest : Source) :
    Option (Token × Source) :=
  if (inFlow && Source.at? ',' rest) || Source.atSpace rest then some (.tag handle suffix, rest)
  else none

/-- A tag after its exclamation mark: in angle brackets, with a handle, or with the handle of local
tags. A mark that stands alone is a suffix without a handle. -/
def readTag? (inFlow : Bool) (source : Source) : Option (Token × Source) :=
  match source with
  | [] => closedTag? inFlow "" (Bytes.ofText "!") []
  | first :: after =>
    if first.char = '<' then
      match tagText? true after with
      | some (suffix, close :: rest) =>
        if close.char = '>' then closedTag? inFlow "" suffix rest else none
      | _ => none
    else
      match source.span fun p => isWord p.char with
      | (name, mark :: rest) =>
        if mark.char = '!' then
          match tagText? false rest with
          | some (suffix, rest) => closedTag? inFlow ("!" ++ wordsText name ++ "!") suffix rest
          | none => none
        else readLocal inFlow source
      | (_, []) => readLocal inFlow source
where
  readLocal (inFlow : Bool) (source : Source) : Option (Token × Source) :=
    match tagCharacters? false 0 [] source with
    | none => none
    | some (read, rest) =>
      match untilZero read with
      | [] => closedTag? inFlow "" (Bytes.ofText "!") rest
      | suffix => closedTag? inFlow "!" suffix rest

/-! ## Directives -/

/-- At most nine digits. -/
def versionNumber? (source : Source) : Option (Nat × Source) :=
  match source.span fun p => p.char.isDigit with
  | (digits, rest) =>
    if digits = [] ∨ 9 < digits.length then none
    else some (Nat.ofDigitChars 10 (digits.map Spot.char) 0, rest)

def readVersion? (source : Source) : Option (Token × Source) := do
  let (major, source) ← versionNumber? (Source.skipBlanks source)
  match source with
  | dot :: source =>
    if dot.char = '.' then
      let (minor, source) ← versionNumber? source
      return (.version major minor, source)
    else none
  | [] => none

/-- A handle: an exclamation mark alone, or a word between two of them. -/
def handle? (source : Source) : Option (String × Source) :=
  match source with
  | mark :: source =>
    if mark.char = '!' then
      match source.span fun p => isWord p.char with
      | (name, close :: rest) =>
        if close.char = '!' then some ("!" ++ wordsText name ++ "!", rest)
        else if name = [] then some ("!", close :: rest)
        else none
      | (_, []) => none
    else none
  | [] => none

def readTagHandle? (source : Source) : Option (Token × Source) := do
  let (handle, source) ← handle? (Source.skipBlanks source)
  match source with
  | blank :: _ =>
    if isBlank blank.char then
      let (start, rest) ← tagText? true (Source.skipBlanks source)
      if Source.atSpace rest then return (.tagHandle handle start, rest) else none
    else none
  | [] => none

/-- A directive after its percent sign, up to the end of the line. -/
def readDirective? (source : Source) : Option (Token × Source) := do
  let (name, source) := source.span fun p => isWord p.char
  if !Source.atSpace source then none
  let (token, source) ←
    match wordsText name with
    | "YAML" => readVersion? source
    | "TAG" => readTagHandle? source
    | _ => none
  let rest ← Source.skipLine? source
  return (token, rest)

end Token

end DevicePlugin.Yaml
