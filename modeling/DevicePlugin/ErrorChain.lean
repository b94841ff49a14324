/-!
# Errors with contexts

An error of foreign code: what went wrong, and what was being done, from the
outermost activity to the innermost. The error of a pass keeps its identity
under any contexts.
-/

namespace DevicePlugin

inductive RootCause where
  | pass (name message : String)
  | other (text : String)
  deriving DecidableEq

def RootCause.text : RootCause → String
  | .pass name message => "pass '" ++ name ++ "' failed: " ++ message
  | .other text => text

structure ErrorChain where
  contexts : List String
  root : RootCause
  deriving DecidableEq

namespace ErrorChain

def ofText (text : String) : ErrorChain := ⟨[], .other text⟩

def within (e : ErrorChain) (context : String) : ErrorChain := { e with contexts := context :: e.contexts }

def top (e : ErrorChain) : String := (e.contexts ++ [e.root.text]).headD ""

def full (e : ErrorChain) : String := String.intercalate ": " (e.contexts ++ [e.root.text])

/-- A chain given from its root outwards. -/
def ofRoot (root : RootCause) (contexts : List String) : ErrorChain :=
  contexts.foldl within ⟨[], root⟩

end ErrorChain

end DevicePlugin
