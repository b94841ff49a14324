import DevicePlugin.Yaml.Token.Lexer

/-!
# YAML documents

The tokens of a text form at most one document, a tree of scalars, sequences and
mappings. A node may have a tag, and an anchor that aliases refer to.

Anchors are numbered by how many names were in use when they were met, and an
alias means the last node with the number of its name. That is the node of that
name unless a name is used twice.
-/

namespace DevicePlugin.Yaml

inductive Node where
  | alias (number : Nat)
  | scalar (tag : Option Bytes) (text : String) (plain : Bool)
  | sequence (tag : Option Bytes) (items : List Node)
  | mapping (tag : Option Bytes) (members : List (Node × Node))

structure Document where
  root : Node
  /-- The anchored nodes by number, the last first. -/
  anchors : List (Nat × Node)

namespace Node

def empty : Node := .scalar none "" true

structure Reader where
  tokens : List Token
  handles : List (String × Bytes) := []
  names : List (String × Nat) := []
  anchorCount : Nat := 0
  /-- The anchors by number, the last first; each says which anchor it is, in order. -/
  numbered : List (Nat × Nat) := []
  anchored : List (Nat × Node) := []

/-- A step of reading, which may find that the tokens form no document. -/
abbrev Read (α : Type) := StateT Reader Option α

namespace Reader

def peek : Read (Option Token) := return (← get).tokens.head?

def skip : Read Unit := modify fun r => { r with tokens := r.tokens.tail }

def fail {α : Type} : Read α := fun _ => none

def expect (t : Token) : Read Unit := do
  if (← peek) = some t then skip else fail

def meet (name : String) : Read Nat := do
  let r ← get
  let number := r.names.length
  set { r with
    names := (name, number) :: r.names.filter fun p => p.1 ≠ name
    anchorCount := r.anchorCount + 1
    numbered := (number, r.anchorCount) :: r.numbered }
  return r.anchorCount

def keep (anchor : Option Nat) (n : Node) : Read Node := do
  match anchor with
  | none => return n
  | some which =>
    modify fun r => { r with anchored := (which, n) :: r.anchored }
    return n

def numberOf (name : String) : Read Nat := do
  match (← get).names.lookup name with
  | some number => return number
  | none => fail

def resolve (handle : String) (suffix : Bytes) : Read Bytes := do
  if handle.isEmpty then return suffix
  match (← get).handles.lookup handle with
  | some start => return start ++ suffix
  | none => fail

end Reader

open Reader

/-- An anchor and a tag in any order. -/
def readProperties : Read (Option Nat × Option Bytes) := do
  match ← peek with
  | some (.anchor name) =>
    skip
    match ← peek with
    | some (.tag handle suffix) =>
      skip
      let tag ← resolve handle suffix
      return (some (← meet name), some tag)
    | _ => return (some (← meet name), none)
  | some (.tag handle suffix) =>
    skip
    match ← peek with
    | some (.anchor name) =>
      skip
      let tag ← resolve handle suffix
      return (some (← meet name), some tag)
    | _ => return (none, some (← resolve handle suffix))
  | _ => return (none, none)

/-- A scalar that is not written, if there is something else of the node. -/
def readEmpty (anchor : Option Nat) (tag : Option Bytes) : Read Node :=
  if anchor = none ∧ tag = none then fail else keep anchor (.scalar tag "" true)

inductive Place where
  | block
  /-- A sequence may be indented only as far as the mapping it belongs to. -/
  | member
  | flow
  deriving DecidableEq

mutual

def read : (fuel : Nat) → Place → Read Node
  | 0, _ => fail
  | fuel + 1, place => do
    match ← peek with
    | some (.alias name) =>
      skip
      return .alias (← numberOf name)
    | _ =>
      let (anchor, tag) ← readProperties
      match ← peek, place with
      | some (.scalar text plain), _ =>
        skip
        keep anchor (.scalar tag text plain)
      | some .flowSequenceStart, _ =>
        skip
        keep anchor (.sequence tag (← readFlowItems fuel true))
      | some .flowMappingStart, _ =>
        skip
        keep anchor (.mapping tag (← readFlowMembers fuel true))
      | some .sequenceStart, .block | some .sequenceStart, .member =>
        skip
        let items ← readEntries fuel
        expect .blockEnd
        keep anchor (.sequence tag items)
      | some .mappingStart, .block | some .mappingStart, .member =>
        skip
        let members ← readMembers fuel
        expect .blockEnd
        keep anchor (.mapping tag members)
      | some .blockEntry, .member => keep anchor (.sequence tag (← readEntries fuel))
      | _, _ => readEmpty anchor tag

/-- A node, or an empty one if one of these tokens comes first. -/
def readUnless : (fuel : Nat) → (ends : List Token) → Place → Read Node
  | 0, _, _ => fail
  | fuel + 1, ends, place => do
    match ← peek with
    | some t => if ends.contains t then return empty else read fuel place
    | none => fail

/-- The value of a member, which may be left out together with its mark. -/
def readValue : (fuel : Nat) → (ends : List Token) → Place → Read Node
  | 0, _, _ => fail
  | fuel + 1, ends, place => do
    if (← peek) = some .value then
      skip
      readUnless fuel ends place
    else return empty

def readEntries : (fuel : Nat) → Read (List Node)
  | 0 => fail
  | fuel + 1 => do
    if (← peek) = some .blockEntry then
      skip
      let item ← readUnless fuel [.blockEntry, .key, .value, .blockEnd] .block
      return item :: (← readEntries fuel)
    else return []

def readMembers : (fuel : Nat) → Read (List (Node × Node))
  | 0 => fail
  | fuel + 1 => do
    if (← peek) = some .key then
      skip
      let key ← readUnless fuel [.key, .value, .blockEnd] .member
      let value ← readValue fuel [.key, .value, .blockEnd] .member
      return (key, value) :: (← readMembers fuel)
    else return []

/-- The items of a flow sequence, and its end. An item may be a member of a mapping that is not
written otherwise. -/
def readFlowItems : (fuel : Nat) → (isFirst : Bool) → Read (List Node)
  | 0, _ => fail
  | fuel + 1, isFirst => do
    if (← peek) = some .flowSequenceEnd then
      skip
      return []
    if !isFirst then expect .flowEntry
    match ← peek with
    | some .flowSequenceEnd =>
      skip
      return []
    | some .key =>
      skip
      let member ← readFlowPair fuel
      return .mapping none [member] :: (← readFlowItems fuel false)
    | _ =>
      let item ← read fuel .flow
      return item :: (← readFlowItems fuel false)

/-- The member of such a mapping. A key that is left out takes the next mark with it. -/
def readFlowPair : (fuel : Nat) → Read (Node × Node)
  | 0 => fail
  | fuel + 1 => do
    match ← peek with
    | some .value | some .flowEntry | some .flowSequenceEnd =>
      skip
      return (empty, ← readValue fuel [.flowEntry, .flowSequenceEnd] .flow)
    | _ =>
      let key ← read fuel .flow
      return (key, ← readValue fuel [.flowEntry, .flowSequenceEnd] .flow)

def readFlowMembers : (fuel : Nat) → (isFirst : Bool) → Read (List (Node × Node))
  | 0, _ => fail
  | fuel + 1, isFirst => do
    if (← peek) = some .flowMappingEnd then
      skip
      return []
    if !isFirst then expect .flowEntry
    match ← peek with
    | some .flowMappingEnd =>
      skip
      return []
    | some .key =>
      skip
      let key ← readUnless fuel [.value, .flowEntry, .flowMappingEnd] .flow
      let value ← readValue fuel [.flowEntry, .flowMappingEnd] .flow
      return (key, value) :: (← readFlowMembers fuel false)
    | _ =>
      let key ← read fuel .flow
      return (key, empty) :: (← readFlowMembers fuel false)

end

end Node

namespace Document

open Yaml.Node Yaml.Node.Reader

def standardHandles : List (String × Bytes) :=
  [("!", Bytes.ofText "!"), ("!!", Bytes.ofText "tag:yaml.org,2002:")]

/-- Directives: at most one version, which must be 1.1 or 1.2, and every handle once. -/
def readDirectives (hasVersion : Bool) : List Token → Read Unit
  | .version major minor :: tokens => do
    if hasVersion || major ≠ 1 || !(minor = 1 || minor = 2) then fail
    skip
    readDirectives true tokens
  | .tagHandle handle start :: tokens => do
    let r ← get
    if (r.handles.lookup handle).isSome then fail
    set { r with handles := (handle, start) :: r.handles }
    skip
    readDirectives hasVersion tokens
  | _ => modify fun r => { r with handles := r.handles ++ standardHandles }

/-- The root after the mark of a document, which may be left out. -/
def readContent (fuel : Nat) : Read Node := do
  match ← peek with
  | none | some (.version _ _) | some (.tagHandle _ _) | some .documentStart | some .documentEnd =>
    return empty
  | some _ => read fuel .block

def readRoot (fuel : Nat) : Read Node := do
  match ← peek with
  | none => return empty
  | some (.version _ _) | some (.tagHandle _ _) | some .documentStart =>
    readDirectives false (← get).tokens
    expect .documentStart
    readContent fuel
  | some _ =>
    readDirectives false []
    read fuel .block

/-- The document of a text; a text without one counts as an empty document. Between two nodes a
token is taken, so that their number is bounded. -/
def ofText? (text : String) : Option Document := do
  let tokens ← Token.ofText? text
  let (root, r) ← (readRoot (4 * (tokens.length + 1))).run { tokens }
  if r.tokens.all (· = .documentEnd) then
    let anchors := r.numbered.filterMap fun (number, which) =>
      (r.anchored.lookup which).map fun n => (number, n)
    return { root, anchors }
  else none

end Document

end DevicePlugin.Yaml
