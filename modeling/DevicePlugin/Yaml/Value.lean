import DevicePlugin.Yaml.Node
import DevicePlugin.Yaml.Scalar.Meaning

/-!
# The values of YAML nodes

An alias has the value of the node it means. Nodes may be nested only so deep,
which an alias inside its own node is not, and aliases may be followed only so
often.
-/

namespace DevicePlugin.Yaml

mutual

/-- How many places a node takes: one for a scalar, two for the ends of a collection. -/
def Node.size : Node → Nat
  | .alias _ => 1
  | .scalar .. => 1
  | .sequence _ items => Node.sizeOfItems items + 2
  | .mapping _ members => Node.sizeOfMembers members + 2

def Node.sizeOfItems : List Node → Nat
  | [] => 0
  | n :: rest => n.size + Node.sizeOfItems rest

def Node.sizeOfMembers : List (Node × Node) → Nat
  | [] => 0
  | (key, value) :: rest => key.size + value.size + Node.sizeOfMembers rest

end

/-- A computation that follows aliases, and has so many left to follow. -/
abbrev Following (α : Type) := StateT Nat Option α

namespace Document

/-- How often aliases may be followed. -/
def aliasLimit (d : Document) : Nat := 100 * d.root.size

/-- How many collections may be open at a time. -/
def depthLimit : Nat := 128

def follow (d : Document) : Node → Following Node
  | .alias number => fun left =>
    match left, d.anchors.lookup number with
    | left + 1, some n => some (n, left)
    | _, _ => none
  | n => return n

def isLocal (tag : Option Bytes) : Bool := tag.any Scalar.isLocalTag

/-- The value of a node. Collections with local tags have none. -/
def value (d : Document) : (depth : Nat) → Node → Following Untyped
  | depth, n => do
    match ← d.follow n, depth with
    | .scalar tag text plain, _ => fun left => (Scalar.meaning? tag text plain).map (·, left)
    | .sequence tag items, depth + 1 =>
      if isLocal tag then failure
      return .list (← items.mapM (d.value depth))
    | .mapping tag members, depth + 1 =>
      if isLocal tag then failure
      return .mapping (← members.mapM fun (k, v) => return (← d.value depth k, ← d.value depth v))
    | _, _ => failure

def textOf (d : Document) (n : Node) : Following String := do
  match ← d.follow n with
  | .scalar _ text _ => return text
  | _ => failure

/-- The members of the root, which may be left out. -/
def members? (d : Document) : Option (List (String × Untyped)) :=
  match d.root with
  | .scalar _ "" true => some []
  | .mapping _ members =>
    let read : Following (List (String × Untyped)) :=
      members.mapM fun (k, v) => return (← d.textOf k, ← d.value (depthLimit - 1) v)
    read.run' d.aliasLimit
  | _ => none

end Document

end DevicePlugin.Yaml
