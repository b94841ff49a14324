/-!
# Untyped values

What a document holds, before it is known what is asked for. Every format that
documents come in is read into these values.
-/

namespace DevicePlugin

inductive Untyped where
  | null
  | bool (value : Bool)
  | uint (value : UInt64)
  | int (value : Int64)
  /-- A number that no option takes. -/
  | fraction
  | text (content : String)
  | list (items : List Untyped)
  /-- Members in the order of the document. Not every format asks for texts as keys. -/
  | mapping (members : List (Untyped × Untyped))

end DevicePlugin
