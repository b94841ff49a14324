import DevicePlugin.Text.Ranges

/-!
# The characters of a YAML text

Layout has a meaning in YAML, so every character carries its place. The breaks
`\r\n`, `\r`, `\n` and the next-line character are all read as `\n`; the line
and the paragraph separator are breaks that stay what they are.
-/

namespace DevicePlugin.Yaml

/-- A character, and where it stands: after how many bytes of the text, on which line, and after how
many characters of the line. -/
structure Spot where
  char : Char
  index : Nat
  line : Nat
  column : Nat
  deriving DecidableEq, Repr

abbrev Source := List Spot

/-! ## Classes of characters -/

def allowedRanges : List (Nat × Nat) :=
  [(0x9, 0xa), (0xd, 0xd), (0x20, 0x7e), (0x85, 0x85), (0xa0, 0xd7ff), (0xe000, 0xfffd),
    (0x10000, 0x10ffff)]

def isAllowed (c : Char) : Bool := Text.inRanges allowedRanges c

def nextLine : Char := '\x85'

def isSeparator (c : Char) : Bool := c = '\u2028' || c = '\u2029'

/-- A break, once all breaks of one line count as `\n`. -/
def isBreak (c : Char) : Bool := c = '\n' || isSeparator c

def isBlank (c : Char) : Bool := c = ' ' || c = '\t'

def isSpace (c : Char) : Bool := isBlank c || isBreak c

def isWord (c : Char) : Bool := c.isAlphanum || c = '_' || c = '-'

/-! ## Places -/

def locate (index line column : Nat) : List Char → Source
  | [] => []
  | '\r' :: '\n' :: cs => ⟨'\n', index, line, column⟩ :: locate (index + 2) (line + 1) 0 cs
  | c :: cs =>
    let next := index + c.utf8Size
    if c = '\r' ∨ c = nextLine then ⟨'\n', index, line, column⟩ :: locate next (line + 1) 0 cs
    else if isBreak c then ⟨c, index, line, column⟩ :: locate next (line + 1) 0 cs
    else ⟨c, index, line, column⟩ :: locate next line (column + 1) cs

def byteOrderMark : Char := '\ufeff'

namespace Source

/-- The characters of a text, if all may stand there. -/
def ofText? (text : String) : Option Source :=
  if text.toList.all isAllowed then some (locate 0 0 0 text.toList) else none

/-! ## Looking ahead -/

def at? (c : Char) : Source → Bool
  | s :: _ => s.char = c
  | [] => false

def atSpace : Source → Bool
  | s :: _ => isSpace s.char
  | [] => true

/-- Whether three of the same mark stand at the start of a line, and nothing right after them. -/
def atMarks (c : Char) : Source → Bool
  | a :: b :: d :: rest => a.column = 0 && a.char = c && b.char = c && d.char = c && atSpace rest
  | _ => false

/-- Whether the text of a document ends here at the latest. -/
def atBoundary (s : Source) : Bool := atMarks '-' s || atMarks '.' s

def skipBlanks (s : Source) : Source := s.dropWhile fun p => isBlank p.char

/-- What stands after the rest of a line, if it is blank but for a comment. -/
def skipLine? (s : Source) : Option Source :=
  let s := skipBlanks s
  let s := if at? '#' s then s.dropWhile fun p => !isBreak p.char else s
  match s with
  | [] => some []
  | p :: rest => if isBreak p.char then some rest else none

end Source

end DevicePlugin.Yaml
