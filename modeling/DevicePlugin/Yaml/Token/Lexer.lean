import DevicePlugin.Yaml.Scalar.Block
import DevicePlugin.Yaml.Scalar.Plain
import DevicePlugin.Yaml.Scalar.Quoted
import DevicePlugin.Yaml.Token

/-!
# Reading YAML tokens

A key of a mapping is recognised by the colon after it, so whatever may be a key
is kept in mind until it is clear that none follows: a key stands on one line and
is not long. The columns of keys and entries decide where block collections
start and end.
-/

namespace DevicePlugin.Yaml

/-- Something that turns out to be a key if a colon follows. -/
structure PossibleKey where
  /-- Nothing else may stand there. -/
  isRequired : Bool
  position : Nat
  spot : Spot

structure Lexer where
  rest : Source
  /-- The tokens read so far, the last first. -/
  tokens : List Token := []
  count : Nat := 0
  indent : Option Nat := none
  outer : List (Option Nat) := []
  keyAllowed : Bool := true
  /-- The possible key of the innermost flow collection, of those around it, and of the block
  context. -/
  keys : List (Option PossibleKey) := [none]

namespace Lexer

def inFlow (l : Lexer) : Bool := 1 < l.keys.length

def push (l : Lexer) (t : Token) : Lexer := { l with tokens := t :: l.tokens, count := l.count + 1 }

/-- Puts tokens before those that were read after the first `position`. -/
def insertAt (l : Lexer) (position : Nat) (ts : List Token) : Lexer :=
  match l.tokens.splitAt (l.count - position) with
  | (after, before) =>
    { l with tokens := after ++ (ts.reverse ++ before), count := l.count + ts.length }

/-! ## Space between tokens -/

/-- Skips blanks, comments, breaks, and a byte order mark at the start of a line, which counts as a
column. A tab may not stand where a key may. The first answer tells whether a key may start after
that. -/
def skipSpace (inFlow : Bool) : (keyAllowed inComment : Bool) → Source → Bool × Source
  | keyAllowed, _, [] => (keyAllowed, [])
  | keyAllowed, inComment, s :: rest =>
    if isBreak s.char then skipSpace inFlow (keyAllowed || !inFlow) false rest
    else if s.char = byteOrderMark && s.column = 0 then skipSpace inFlow keyAllowed false rest
    else if inComment then skipSpace inFlow keyAllowed true rest
    else if s.char = ' ' || (s.char = '\t' && (inFlow || !keyAllowed)) then
      skipSpace inFlow keyAllowed false rest
    else if s.char = '#' then skipSpace inFlow keyAllowed true rest
    else (keyAllowed, s :: rest)

def atToken (l : Lexer) : Lexer :=
  match skipSpace l.inFlow l.keyAllowed false l.rest with
  | (keyAllowed, rest) => { l with keyAllowed, rest }

/-! ## Possible keys -/

def longestKey : Nat := 1024

def PossibleKey.isOpen (k : PossibleKey) (s : Spot) : Bool :=
  s.line ≤ k.spot.line && s.index ≤ k.spot.index + longestKey

def dropOldKeys? (l : Lexer) (s : Spot) : Option Lexer :=
  let isOld (k : PossibleKey) : Bool := !PossibleKey.isOpen k s
  if l.keys.any fun k => k.any fun k => k.isRequired && isOld k then none
  else some { l with keys := l.keys.map fun k => k.filter fun k => !isOld k }

def setKey (l : Lexer) (k : Option PossibleKey) : Lexer := { l with keys := k :: l.keys.tail }

def dropKey? (l : Lexer) : Option Lexer :=
  if l.keys.head?.join.any PossibleKey.isRequired then none else some (l.setKey none)

def saveKey? (l : Lexer) (s : Spot) : Option Lexer :=
  if l.keyAllowed then
    let isRequired := !l.inFlow && l.indent = some s.column
    l.dropKey?.map fun l => l.setKey (some ⟨isRequired, l.count, s⟩)
  else some l

/-! ## Block collections -/

/-- Starts a collection at a column, unless the present one is as far to the right. -/
def openBlock (l : Lexer) (column : Nat) : Lexer × Bool :=
  if l.inFlow || l.indent.any (column ≤ ·) then (l, false)
  else ({ l with indent := some column, outer := l.indent :: l.outer }, true)

def openBlockWith (l : Lexer) (column : Nat) (t : Token) : Lexer :=
  match l.openBlock column with
  | (l, true) => l.push t
  | (l, false) => l

/-- Ends collections that are to the right of a column, or all. -/
def closeBlocks (column : Option Nat) (l : Lexer) : (outer : List (Option Nat)) → Lexer
  | [] => l
  | next :: outer =>
    if !l.inFlow && l.indent.any (fun i => column.all (· < i)) then
      closeBlocks column ({ l with indent := next, outer }.push .blockEnd) outer
    else l

def closeTo (l : Lexer) (column : Option Nat) : Lexer := closeBlocks column l l.outer

/-! ## Tokens -/

/-- A token that no key can be part of. -/
def mark? (l : Lexer) (t : Token) (rest : Source) (keyAllowed : Bool) : Option Lexer :=
  l.dropKey?.map fun l => { l with rest, keyAllowed }.push t

/-- A token that a key can start with. -/
def keyPart? (l : Lexer) (s : Spot) (read : Option (Token × Source)) : Option Lexer :=
  match l.saveKey? s, read with
  | some l, some (t, rest) => some ({ l with rest, keyAllowed := false }.push t)
  | _, _ => none

/-- A token of a whole line, which ends all collections. -/
def boundary? (l : Lexer) (read : Option (Token × Source)) : Option Lexer :=
  match read with
  | none => none
  | some (t, rest) => (l.closeTo none).mark? t rest false

def openFlow? (l : Lexer) (s : Spot) (t : Token) (rest : Source) : Option Lexer :=
  (l.saveKey? s).map fun l => { l with rest, keyAllowed := true, keys := none :: l.keys }.push t

def closeFlow? (l : Lexer) (t : Token) (rest : Source) : Option Lexer :=
  l.dropKey?.map fun l =>
    let keys := if l.inFlow then l.keys.tail else l.keys
    { l with rest, keyAllowed := false, keys }.push t

def blockMark? (l : Lexer) (s : Spot) (start t : Token) (rest : Source) (keyAllowed : Bool) :
    Option Lexer :=
  if l.inFlow then l.mark? t rest keyAllowed
  else if l.keyAllowed then (l.openBlockWith s.column start).mark? t rest keyAllowed
  else none

/-- The colon after a key, or one that stands alone. -/
def value? (l : Lexer) (s : Spot) (rest : Source) : Option Lexer :=
  match l.keys.head?.join with
  | some k =>
    let (l, opened) := l.openBlock k.spot.column
    let l := l.insertAt k.position (if opened then [.mappingStart, .key] else [.key])
    some ({ l.setKey none with rest, keyAllowed := false }.push .value)
  | none =>
    if l.inFlow then some ({ l with rest, keyAllowed := false }.push .value)
    else if l.keyAllowed then
      some ({ l.openBlockWith s.column .mappingStart with rest, keyAllowed := true }.push .value)
    else none

def blockScalar? (l : Lexer) (literal : Bool) (rest : Source) : Option Lexer :=
  match BlockScalar.read? literal l.indent rest with
  | none => none
  | some (text, rest) => l.mark? (.scalar text false) rest true

def plainScalar? (l : Lexer) (s : Spot) (source : Source) : Option Lexer :=
  let indent := match l.indent with
    | none => 0
    | some n => n + 1
  match l.saveKey? s, PlainScalar.read? l.inFlow indent source with
  | some l, some p => some ({ l with rest := p.rest, keyAllowed := p.isBroken }.push (.scalar p.text true))
  | _, _ => none

/-- Whether a plain scalar starts here. Some marks may start one if something follows. -/
def startsPlain (inFlow : Bool) (c : Char) (rest : Source) : Bool :=
  if c = '-' then !(rest.head?.any fun s => isBlank s.char)
  else if c = '?' || c = ':' then !inFlow && !Source.atSpace rest
  else !(isSpace c || ",[]{}#&*!|>'\"%@".toList.contains c || c = Char.ofNat 0x60)

def read? (l : Lexer) (s : Spot) (rest : Source) : Option Lexer :=
  let c := s.char
  let ends := l.inFlow || Source.atSpace rest
  if c = '%' && s.column = 0 then l.boundary? (Token.readDirective? rest)
  else if Source.atMarks '-' (s :: rest) then l.boundary? (some (.documentStart, rest.drop 2))
  else if Source.atMarks '.' (s :: rest) then l.boundary? (some (.documentEnd, rest.drop 2))
  else if c = '[' then l.openFlow? s .flowSequenceStart rest
  else if c = '{' then l.openFlow? s .flowMappingStart rest
  else if c = ']' then l.closeFlow? .flowSequenceEnd rest
  else if c = '}' then l.closeFlow? .flowMappingEnd rest
  else if c = ',' then l.mark? .flowEntry rest true
  else if c = '-' && Source.atSpace rest then l.blockMark? s .sequenceStart .blockEntry rest true
  else if c = '?' && ends then l.blockMark? s .mappingStart .key rest (!l.inFlow)
  else if c = ':' && ends then l.value? s rest
  else if c = '*' then
    l.keyPart? s ((Token.anchorName? rest).map fun (name, rest) => (.alias name, rest))
  else if c = '&' then
    l.keyPart? s ((Token.anchorName? rest).map fun (name, rest) => (.anchor name, rest))
  else if c = '!' then l.keyPart? s (Token.readTag? l.inFlow rest)
  else if c = '|' && !l.inFlow then l.blockScalar? true rest
  else if c = '>' && !l.inFlow then l.blockScalar? false rest
  else if c = '\'' || c = '"' then
    l.keyPart? s ((QuotedScalar.read? (c = '"') rest).map fun (text, rest) => (.scalar text false, rest))
  else if startsPlain l.inFlow c rest then l.plainScalar? s (s :: rest)
  else none

/-- The end of the text ends all collections. -/
def finish? (l : Lexer) : Option (List Token) :=
  (l.closeTo none).dropKey?.map fun l => l.tokens.reverse

def readAll? : (fuel : Nat) → Lexer → Option (List Token)
  | 0, _ => none
  | fuel + 1, l =>
    let l := l.atToken
    match l.rest with
    | [] => l.finish?
    | s :: rest => do
      let l ← l.dropOldKeys? s
      let l ← (l.closeTo (some s.column)).read? s rest
      readAll? fuel l

end Lexer

/-- The tokens of a text. Each takes a character, so that their number is bounded. -/
def Token.ofText? (text : String) : Option (List Token) := do
  let source ← Source.ofText? text
  Lexer.readAll? (source.length + 1) { rest := source }

end DevicePlugin.Yaml
