import DevicePlugin.Json.Token

/-!
# Written JSON

What the library writes: documents of whole numbers and text, without blanks.
-/

namespace DevicePlugin.Json

inductive Value where
  | null
  | bool (value : Bool)
  | natural (value : UInt64)
  | negative (value : Int64)
  | text (value : String)
  | array (items : List Value)
  | object (members : List (String × Value))

namespace Value

mutual

def tokens : Value → List Token
  | .null => [.null]
  | .bool value => [.bool value]
  | .natural value => [.number (some (.natural value))]
  | .negative value => [.number (some (.negative value))]
  | .text value => [.text (some value)]
  | .array items => .openBracket :: itemTokens items
  | .object members => .openBrace :: memberTokens members

def itemTokens : List Value → List Token
  | [] => [.closeBracket]
  | item :: items => item.tokens ++ moreItemTokens items

def moreItemTokens : List Value → List Token
  | [] => [.closeBracket]
  | item :: items => .comma :: item.tokens ++ moreItemTokens items

def memberTokens : List (String × Value) → List Token
  | [] => [.closeBrace]
  | (key, value) :: members =>
    .text (some key) :: .colon :: value.tokens ++ moreMemberTokens members

def moreMemberTokens : List (String × Value) → List Token
  | [] => [.closeBrace]
  | (key, value) :: members =>
    .comma :: .text (some key) :: .colon :: value.tokens ++ moreMemberTokens members

end

def bytes (v : Value) : Bytes := v.tokens.flatMap Token.bytes

/-- The written form as text; every byte of it comes from text. -/
def render (v : Value) : String := (Bytes.toText? v.bytes).getD ""

end Value

end DevicePlugin.Json
