import DevicePlugin.Yaml.Scalar.Gap

/-!
# Plain scalars

A plain scalar ends before a colon with space after it, before a comment, before
a line that is not indented enough, and in flow collections before their marks.
-/

namespace DevicePlugin.Yaml

def isFlowMark (c : Char) : Bool := c = ',' || c = '[' || c = ']' || c = '{' || c = '}'

structure PlainScalar where
  text : String
  isBroken : Bool
  rest : Source

namespace PlainScalar

def endsBefore (inFlow : Bool) (c : Char) (rest : Source) : Bool :=
  (c = ':' && rest.atSpace) || (inFlow && isFlowMark c)

/-- Whether a colon stands where a flow collection allows none. -/
def misplacedColon (inFlow : Bool) (c : Char) (rest : Source) : Bool :=
  match rest with
  | [] => false
  | next :: _ => inFlow && c = ':' && (isFlowMark next.char || next.char = '?')

/-- Reads on after some text, given from its end, and a gap. `indent` is the least column of
further lines. -/
def readFrom (inFlow : Bool) (indent : Nat) (read : List Char) (gap : Gap) :
    Source → Option PlainScalar
  | [] => some ⟨String.ofList read.reverse, gap.isBroken, []⟩
  | s :: rest =>
    let stop : PlainScalar := ⟨String.ofList read.reverse, gap.isBroken, s :: rest⟩
    if isSpace s.char then
      if gap.isBroken && s.char = '\t' && s.column < indent then none
      else readFrom inFlow indent read (gap.push s.char) rest
    else if !gap.isEmpty &&
        (!inFlow && s.column < indent || Source.atBoundary (s :: rest) || s.char = '#') then
      some stop
    else if misplacedColon inFlow s.char rest then none
    else if endsBefore inFlow s.char rest then some stop
    else readFrom inFlow indent (s.char :: (gap.text.reverse ++ read)) .none rest

def read? (inFlow : Bool) (indent : Nat) (source : Source) : Option PlainScalar :=
  readFrom inFlow indent [] .none source

end PlainScalar

end DevicePlugin.Yaml
