import DevicePlugin.Json.Tree
import DevicePlugin.Untyped

/-!
# Decoding JSON

Each decoder asks for one form of value. It reports what it meets first in the
text: broken grammar, or a value of another form.
-/

namespace DevicePlugin.Json

abbrev Decoder (α : Type) := Tree → Except Fault α

/-- A list ends well only with its closing mark. -/
def Stop.check (stop : Stop) : Except Fault Unit :=
  match stop.fault? with
  | none => .ok ()
  | some fault => .error fault

namespace Tree

/-- What a careful reader says where a value is due and none is found. -/
def missingValue : Option Token → Fault
  | none => .truncated
  | some (.broken careful _) => careful
  | some (.brokenText careful _) => careful
  | some _ => .malformed

def missingSkipped : Option Token → Fault
  | none => .truncated
  | some (.broken _ skipping) => skipping
  | some (.brokenText _ skipping) => skipping
  | some _ => .malformed

def unexpected : Tree → Fault
  | .number none => .malformed
  | .text none => .malformed
  | .broken found => missingValue found
  | .noColon found => missingMark found
  | _ => .mistyped

/-! ## Skipping -/

mutual

/-- The fault of a value that nobody reads. -/
def skipFault? : Tree → Option Fault
  | .array items stop => (skipItems? items).or stop.skipFault?
  | .object members stop => (skipMembers? members).or stop.skipFault?
  | .broken found => some (missingSkipped found)
  | .noColon found => some (missingMark found)
  | _ => none

def skipItems? : List Tree → Option Fault
  | [] => none
  | item :: items => item.skipFault?.or (skipItems? items)

def skipMembers? : List (Option String × Tree) → Option Fault
  | [] => none
  | (_, value) :: members => value.skipFault?.or (skipMembers? members)

end

def skip (tree : Tree) : Except Fault Unit :=
  match tree.skipFault? with
  | none => .ok ()
  | some fault => .error fault

/-! ## Keeping a value for later -/

mutual

/-- A value that is read whole before its form is looked at. Fewer than `depth` containers may be
open at a time. -/
def whole (depth : Nat) : Tree → Except Fault Untyped
  | .null => .ok .null
  | .bool value => .ok (.bool value)
  | .number (some (.natural n)) => .ok (.uint n)
  | .number (some (.negative n)) => .ok (.int n)
  | .number (some .fraction) => .ok .fraction
  | .text (some s) => .ok (.text s)
  | .array items stop =>
    if depth ≤ 1 then .error .malformed
    else do
      let items ← wholeItems (depth - 1) items
      stop.check
      return .list items
  | .object members stop =>
    if depth ≤ 1 then .error .malformed
    else do
      let members ← wholeMembers (depth - 1) members
      stop.check
      return .mapping members
  | tree => .error tree.unexpected

def wholeItems (depth : Nat) : List Tree → Except Fault (List Untyped)
  | [] => .ok []
  | item :: items => do
    let item ← item.whole depth
    let items ← wholeItems depth items
    return item :: items

def wholeMembers (depth : Nat) :
    List (Option String × Tree) → Except Fault (List (Untyped × Untyped))
  | [] => .ok []
  | (none, _) :: _ => .error .malformed
  | (some key, value) :: members => do
    let value ← value.whole depth
    let members ← wholeMembers depth members
    return (.text key, value) :: members

end

/-! ## Single values -/

def asText : Decoder String
  | .text (some s) => .ok s
  | tree => .error tree.unexpected

def asWord : Decoder UInt64
  | .number (some (.natural n)) => .ok n
  | tree => .error tree.unexpected

def asNull : Decoder Unit
  | .null => .ok ()
  | tree => .error tree.unexpected

def asOptional {α : Type} (decode : Decoder α) : Decoder (Option α)
  | .null => .ok none
  | tree => (decode tree).map some

/-! ## Lists and members -/

def decodeItems {α : Type} (decode : Decoder α) : List Tree → Except Fault (List α)
  | [] => .ok []
  | item :: items => do
    let a ← decode item
    let rest ← decodeItems decode items
    return a :: rest

def asList {α : Type} (decode : Decoder α) : Decoder (List α)
  | .array items stop => do
    let read ← decodeItems decode items
    stop.check
    return read
  | tree => .error tree.unexpected

/-- Members one after another; `step` sees each key and its value. -/
def foldMembers {σ : Type} (step : σ → String → Tree → Except Fault σ) :
    σ → List (Option String × Tree) → Except Fault σ
  | state, [] => .ok state
  | _, (none, _) :: _ => .error .malformed
  | state, (some key, value) :: members => do
    let state ← step state key value
    foldMembers step state members

def asMembers {σ : Type} (step : σ → String → Tree → Except Fault σ) (start : σ) : Decoder σ
  | .object members stop => do
    let state ← foldMembers step start members
    stop.check
    return state
  | tree => .error tree.unexpected

/-! ## Records -/

/-- What a record has read so far, and how each field adds to it. `set` answers `none` when the
field was read before. -/
structure Field (σ : Type) where
  name : String
  isSet : σ → Bool
  read : σ → Decoder σ

/-- The items of a record that is written as a list, in the order of the fields. -/
def foldFields {σ : Type} : List (Field σ) → σ → List Tree → Stop → Except Fault σ
  | [], state, [], stop => do
    stop.check
    return state
  | [], _, _ :: _, _ => .error .malformed
  | _ :: _, state, [], stop => do
    stop.check
    return state
  | field :: fields, state, item :: items, stop => do
    let state ← field.read state item
    foldFields fields state items stop

/-- A record: an object whose unknown members are skipped and whose known ones may not be
repeated, or a list of the fields' values. -/
def asRecord {σ : Type} (fields : List (Field σ)) (start : σ) : Decoder σ
  | .array items stop => foldFields fields start items stop
  | tree =>
    asMembers (fun state key value =>
      match fields.find? (·.name = key) with
      | none => do
        value.skip
        return state
      | some field => if field.isSet state then .error .mistyped else field.read state value) start tree

/-! ## Variants -/

/-- The only member of an object that names a variant. -/
def decodeTagged {α : Type} (decode : String → Except Fault (Decoder α)) :
    List (Option String × Tree) → Stop → Except Fault α
  | [], stop => .error (stop.fault?.getD .malformed)
  | (none, _) :: _, _ => .error .malformed
  | (some key, value) :: members, stop => do
    let content ← decode key
    let a ← content value
    match members, stop with
    | [], .closed => return a
    | [], .noSeparator found => .error (missingMark found)
    | _, _ => .error .malformed

/-- One of several variants: a name alone, or an object with the name and its content. -/
def asVariant {α : Type} (alone : String → Except Fault α)
    (tagged : String → Except Fault (Decoder α)) : Decoder α
  | .text (some name) => alone name
  | .text none => .error .malformed
  | .object members stop => decodeTagged tagged members stop
  | .broken (some (.brokenText careful _)) => .error careful
  | .broken (some _) => .error .malformed
  | .broken none => .error .truncated
  | .noColon found => .error (missingMark found)
  | _ => .error .malformed

end Tree

/-- Decodes a whole text. Only when its value is of the right form is it asked whether anything
stands after it. -/
def decode {α : Type} (decoder : Decoder α) (bytes : Bytes) : Except Fault α :=
  match Tree.ofBytes bytes with
  | (tree, rest) =>
    match decoder tree with
    | .error fault => .error fault
    | .ok a => if rest = [] then .ok a else .error .malformed

end DevicePlugin.Json
