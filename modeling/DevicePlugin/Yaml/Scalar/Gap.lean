import DevicePlugin.Yaml.Source

/-!
# Space inside a scalar

Plain and quoted scalars may go on over several lines. The space between two of
their pieces stays as it is within a line; across lines it is folded.
-/

namespace DevicePlugin.Yaml

inductive Gap where
  | blanks (cs : List Char)
  /-- Breaks, the first of which may be written off. Blanks around breaks do not count. -/
  | breaks (first : Option Char) (others : List Char)

namespace Gap

def none : Gap := .blanks []

def isEmpty : Gap → Bool
  | .blanks [] => true
  | _ => false

def isBroken : Gap → Bool
  | .blanks _ => false
  | .breaks .. => true

def push (gap : Gap) (c : Char) : Gap :=
  match gap, isBreak c with
  | .blanks cs, false => .blanks (cs ++ [c])
  | .blanks _, true => .breaks (some c) []
  | .breaks first others, false => .breaks first others
  | .breaks first others, true => .breaks first (others ++ [c])

/-- What a gap stands for: one break is a space, of several the first is left out. -/
def text : Gap → List Char
  | .blanks cs => cs
  | .breaks .none others => others
  | .breaks (some first) others =>
    if first = '\n' then (if others = [] then [' '] else others) else first :: others

end Gap

end DevicePlugin.Yaml
