/-!
# Executors

Where tasks run. An executor runs what it is given at once, keeps it for later,
or gives it up.
-/

namespace DevicePlugin

abbrev ExecutorId := Nat

inductive ExecutorKind where
  /-- Runs a task before taking it over is finished. -/
  | inline
  /-- The same, and counts. -/
  | counting
  | parked
  | pooled
  | dropping
  deriving DecidableEq, Repr

structure Executor (τ : Type) where
  name : String
  kind : ExecutorKind
  /-- The tasks that are kept, the oldest first. -/
  queue : List τ := []
  runs : Nat := 0

end DevicePlugin
