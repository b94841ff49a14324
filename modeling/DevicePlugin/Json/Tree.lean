import DevicePlugin.Json.Token

/-!
# JSON as far as it can be read

A tree holds what stands in a text before the first place where the grammar is
broken, and what was found at that place. Decoders walk it in the order of the
text, so of several faults they report the first.
-/

namespace DevicePlugin.Json

inductive Stop where
  | closed
  /-- Neither a comma nor the closing mark follows; `none` is the end of the text. -/
  | noSeparator (found : Option Token)
  /-- A key is due, and this is none. -/
  | noKey (found : Option Token)
  deriving DecidableEq

/-- What is said when neither a comma nor a closing mark is found. -/
def missingMark : Option Token → Fault
  | none => .truncated
  | some _ => .malformed

namespace Stop

def fault? : Stop → Option Fault
  | .closed => none
  | .noSeparator found => some (missingMark found)
  | .noKey (some (.brokenText careful _)) => some careful
  | .noKey found => some (missingMark found)

def skipFault? : Stop → Option Fault
  | .noKey (some (.brokenText _ skipping)) => some skipping
  | stop => stop.fault?

end Stop

inductive Tree where
  | null
  | bool (value : Bool)
  | number (value : Option Number)
  | text (content : Option String)
  | array (items : List Tree) (stop : Stop)
  | object (members : List (Option String × Tree)) (stop : Stop)
  /-- A value is due, and this is none. -/
  | broken (found : Option Token)
  | noColon (found : Option Token)

namespace Tree

mutual

def readValue : (fuel : Nat) → List Token → Tree × List Token
  | 0, tokens => (.broken tokens.head?, [])
  | _ + 1, [] => (.broken none, [])
  | fuel + 1, token :: rest =>
    match token with
    | .null => (.null, rest)
    | .bool value => (.bool value, rest)
    | .number value => (.number value, rest)
    | .text content => (.text content, rest)
    | .openBracket =>
      match rest with
      | [] => (.array [] (.noSeparator none), [])
      | .closeBracket :: rest => (.array [] .closed, rest)
      | _ =>
        match readItems fuel rest with
        | (items, stop, rest) => (.array items stop, rest)
    | .openBrace =>
      match rest with
      | .closeBrace :: rest => (.object [] .closed, rest)
      | .text _ :: _ =>
        match readMembers fuel rest with
        | (members, stop, rest) => (.object members stop, rest)
      | _ => (.object [] (.noKey rest.head?), [])
    | _ => (.broken (some token), [])

def readItems : (fuel : Nat) → List Token → List Tree × Stop × List Token
  | 0, tokens => ([], .noSeparator tokens.head?, [])
  | fuel + 1, tokens =>
    match readValue fuel tokens with
    | (item, .comma :: rest) =>
      match readItems fuel rest with
      | (items, stop, rest) => (item :: items, stop, rest)
    | (item, .closeBracket :: rest) => ([item], .closed, rest)
    | (item, rest) => ([item], .noSeparator rest.head?, [])

def readMembers : (fuel : Nat) → List Token → List (Option String × Tree) × Stop × List Token
  | 0, tokens => ([], .noKey tokens.head?, [])
  | fuel + 1, .text key :: .colon :: tokens =>
    match readValue fuel tokens with
    | (value, .comma :: rest) =>
      match readMembers fuel rest with
      | (members, stop, rest) => ((key, value) :: members, stop, rest)
    | (value, .closeBrace :: rest) => ([(key, value)], .closed, rest)
    | (value, rest) => ([(key, value)], .noSeparator rest.head?, [])
  | _ + 1, .text key :: rest => ([(key, .noColon rest.head?)], .closed, [])
  | _ + 1, tokens => ([], .noKey tokens.head?, [])

end

/-- The first value of a text, and the tokens after it. Every token is read once, and reading an
item or a member takes one step more. -/
def ofBytes (bytes : Bytes) : Tree × List Token :=
  let tokens := Token.ofBytes bytes
  readValue (2 * tokens.length + 1) tokens

end Tree

end DevicePlugin.Json
