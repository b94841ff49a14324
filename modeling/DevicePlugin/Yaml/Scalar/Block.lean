import DevicePlugin.Yaml.Scalar.Gap

/-!
# Block scalars

A block scalar holds the lines that are indented as far as its first one. The
literal style keeps their breaks. The folded style makes spaces of them, except
beside empty lines and lines that start with a blank.
-/

namespace DevicePlugin.Yaml.BlockScalar

inductive Chomping where
  | strip
  | clip
  | keep
  deriving DecidableEq

structure Header where
  chomping : Chomping := .clip
  /-- How much further the lines are indented than what surrounds them, if that is said. -/
  indent : Option Nat := none

def chomping? (c : Char) : Option Chomping :=
  if c = '+' then some .keep else if c = '-' then some .strip else none

def indent? (c : Char) : Option Nat :=
  if c.isDigit && c ≠ '0' then some (c.toNat - '0'.toNat) else none

/-- At most one mark of each kind, in any order. -/
def readHeader (source : Source) : Header × Source :=
  match source with
  | [] => ({}, [])
  | a :: rest =>
    match chomping? a.char, indent? a.char with
    | some chomping, _ =>
      match rest with
      | b :: after =>
        match indent? b.char with
        | some n => ({ chomping, indent := some n }, after)
        | none => ({ chomping }, rest)
      | [] => ({ chomping }, [])
    | none, some n =>
      match rest with
      | b :: after =>
        match chomping? b.char with
        | some chomping => ({ chomping, indent := some n }, after)
        | none => ({ indent := some n }, rest)
      | [] => ({ indent := some n }, [])
    | none, none => ({}, source)

/-- How far the first line with content is indented, or an empty line before it if that goes
further. A tab may not stand among these spaces. -/
def leadingIndent? (deepest : Nat) : Source → Option Nat
  | [] => some deepest
  | s :: rest =>
    if s.char = ' ' then leadingIndent? (max deepest (s.column + 1)) rest
    else if s.char = '\t' then none
    else if isBreak s.char then leadingIndent? deepest rest
    else some deepest

structure Lines where
  /-- From the end. -/
  read : List Char := []
  /-- The break at the end of the last line. -/
  last : Option Char := none
  /-- The empty lines after it. -/
  empty : List Char := []
  /-- Whether the last line starts with a blank. -/
  isIndented : Bool := false

def Lines.start (l : Lines) (literal : Bool) (c : Char) : Lines :=
  let last :=
    if !literal && l.last = some '\n' && !l.isIndented && !isBlank c then
      if l.empty = [] then [' '] else []
    else l.last.toList
  { read := c :: (l.empty.reverse ++ (last ++ l.read)), isIndented := isBlank c }

def Lines.text (l : Lines) (chomping : Chomping) : String :=
  let last := if chomping = .strip then [] else l.last.toList
  let empty := if chomping = .keep then l.empty else []
  String.ofList (l.read.reverse ++ last ++ empty)

/-- Reads lines that are indented by `indent`. `inLine` tells whether one has begun. -/
def readLines (literal : Bool) (indent : Nat) (l : Lines) : (inLine : Bool) → Source → Option (Lines × Source)
  | _, [] => some (l, [])
  | true, s :: rest =>
    if isBreak s.char then readLines literal indent { l with last := some s.char } false rest
    else readLines literal indent { l with read := s.char :: l.read } true rest
  | false, s :: rest =>
    if isBreak s.char then readLines literal indent { l with empty := l.empty ++ [s.char] } false rest
    else if s.column < indent then
      if s.char = ' ' then readLines literal indent l false rest
      else if s.char = '\t' then none
      else some (l, s :: rest)
    else readLines literal indent (l.start literal s.char) true rest

/-- The scalar after its mark, and what stands after it. `parent` is how far the surrounding
collection is indented, if there is one. -/
def read? (literal : Bool) (parent : Option Nat) (source : Source) : Option (String × Source) := do
  let (header, source) := readHeader source
  let source ← Source.skipLine? source
  let least := match parent with
    | none => 0
    | some n => n + 1
  let indent ←
    match header.indent with
    | some n => some (parent.getD 0 + n)
    | none => (leadingIndent? 0 source).map fun n => max (max n least) 1
  let (lines, rest) ← readLines literal indent {} false source
  return (lines.text header.chomping, rest)

end DevicePlugin.Yaml.BlockScalar
