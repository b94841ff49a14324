import DevicePlugin.Bytes

/-!
# Sinks and sources

A stream moves bytes in calls. What a call does depends on how many bytes have
moved before it: it moves some, or none because the stream has stopped, or it
fails. A call may also be interrupted; then it has done nothing and is made
again.
-/

namespace DevicePlugin.Stream

/-- Every kind of failure. To be interrupted is none: the call is made again. -/
inductive FaultKind where
  | addrInUse
  | addrNotAvailable
  | alreadyExists
  | argumentListTooLong
  | brokenPipe
  | connectionAborted
  | connectionRefused
  | connectionReset
  | crossesDevices
  | deadlock
  | directoryNotEmpty
  | executableFileBusy
  | fileTooLarge
  | filesystemLoop
  | hostUnreachable
  | inProgress
  | invalidData
  | invalidFilename
  | invalidInput
  | isADirectory
  | networkDown
  | networkUnreachable
  | notADirectory
  | notConnected
  | notFound
  | notSeekable
  | other
  | outOfMemory
  | permissionDenied
  | quotaExceeded
  | readOnlyFilesystem
  | resourceBusy
  | staleNetworkFileHandle
  | storageFull
  | timedOut
  | tooManyLinks
  | uncategorized
  | unexpectedEof
  | unsupported
  | wouldBlock
  | writeZero
  deriving DecidableEq, Repr

def FaultKind.name : FaultKind → String
  | .addrInUse => "AddrInUse"
  | .addrNotAvailable => "AddrNotAvailable"
  | .alreadyExists => "AlreadyExists"
  | .argumentListTooLong => "ArgumentListTooLong"
  | .brokenPipe => "BrokenPipe"
  | .connectionAborted => "ConnectionAborted"
  | .connectionRefused => "ConnectionRefused"
  | .connectionReset => "ConnectionReset"
  | .crossesDevices => "CrossesDevices"
  | .deadlock => "Deadlock"
  | .directoryNotEmpty => "DirectoryNotEmpty"
  | .executableFileBusy => "ExecutableFileBusy"
  | .fileTooLarge => "FileTooLarge"
  | .filesystemLoop => "FilesystemLoop"
  | .hostUnreachable => "HostUnreachable"
  | .inProgress => "InProgress"
  | .invalidData => "InvalidData"
  | .invalidFilename => "InvalidFilename"
  | .invalidInput => "InvalidInput"
  | .isADirectory => "IsADirectory"
  | .networkDown => "NetworkDown"
  | .networkUnreachable => "NetworkUnreachable"
  | .notADirectory => "NotADirectory"
  | .notConnected => "NotConnected"
  | .notFound => "NotFound"
  | .notSeekable => "NotSeekable"
  | .other => "Other"
  | .outOfMemory => "OutOfMemory"
  | .permissionDenied => "PermissionDenied"
  | .quotaExceeded => "QuotaExceeded"
  | .readOnlyFilesystem => "ReadOnlyFilesystem"
  | .resourceBusy => "ResourceBusy"
  | .staleNetworkFileHandle => "StaleNetworkFileHandle"
  | .storageFull => "StorageFull"
  | .timedOut => "TimedOut"
  | .tooManyLinks => "TooManyLinks"
  | .uncategorized => "Uncategorized"
  | .unexpectedEof => "UnexpectedEof"
  | .unsupported => "Unsupported"
  | .wouldBlock => "WouldBlock"
  | .writeZero => "WriteZero"

structure Fault where
  kind : FaultKind
  text : String
  deriving DecidableEq

/-- A sink that takes nothing of what it is offered cannot be written to. -/
def Fault.writeZero : Fault := ⟨.writeZero, "failed to write whole buffer"⟩

inductive Response where
  | move (limit : Nat)
  | fail (fault : Fault)
  deriving DecidableEq

/-- How far a stream has moved, and the positions from which on a call is still to be interrupted,
one call for each. -/
structure Cursor where
  position : Nat := 0
  interrupts : List Nat := []
  deriving DecidableEq

def Cursor.advance (c : Cursor) : Cursor := { c with position := c.position + 1 }

/-- The response of a call at each position. -/
abbrev Behaviour := Nat → Response

/-- The interrupts that are left after those due at a position. -/
def pendingInterrupts (position : Nat) (interrupts : List Nat) : List Nat :=
  interrupts.dropWhile (· ≤ position)

def Behaviour.call (b : Behaviour) (c : Cursor) : Response × Cursor :=
  (b c.position, { c with interrupts := pendingInterrupts c.position c.interrupts })

/-! ## Writing -/

/-- What a sink has taken, and why it took no more. -/
structure Written where
  taken : Bytes
  cursor : Cursor
  fault : Option Fault

def Written.push (w : Written) (b : UInt8) : Written := { w with taken := b :: w.taken }

/-- Offers bytes until all are taken. `budget` is what the present call still takes. -/
def Behaviour.write (b : Behaviour) : (budget : Nat) → Cursor → Bytes → Written
  | _, cursor, [] => ⟨[], cursor, none⟩
  | budget + 1, cursor, x :: xs => (b.write budget cursor.advance xs).push x
  | 0, cursor, x :: xs =>
    match b.call cursor with
    | (.fail fault, cursor) => ⟨[], cursor, some fault⟩
    | (.move 0, cursor) => ⟨[], cursor, some .writeZero⟩
    | (.move (limit + 1), cursor) => (b.write limit cursor.advance xs).push x

/-- Offers several byte strings, each from a call of its own; the first fault ends the writing. -/
def Behaviour.writeEach (b : Behaviour) (cursor : Cursor) : List Bytes → Written
  | [] => ⟨[], cursor, none⟩
  | bytes :: rest =>
    match b.write 0 cursor bytes with
    | ⟨taken, cursor, some fault⟩ => ⟨taken, cursor, some fault⟩
    | ⟨taken, cursor, none⟩ =>
      match b.writeEach cursor rest with
      | ⟨taken', cursor, fault⟩ => ⟨taken ++ taken', cursor, fault⟩

/-! ## Reading -/

inductive Ending where
  | full
  | ended
  | failed (fault : Fault)
  deriving DecidableEq

/-- A source: what it has still to deliver, and how far it has moved. -/
structure Source where
  behaviour : Behaviour
  remaining : Bytes
  cursor : Cursor := {}

structure Fetched where
  bytes : Bytes
  remaining : Bytes
  cursor : Cursor
  ending : Ending

def Fetched.push (f : Fetched) (b : UInt8) : Fetched := { f with bytes := b :: f.bytes }

/-- Reads `count` bytes. `budget` is what the present call still delivers. -/
def Behaviour.fetch (b : Behaviour) : (count budget : Nat) → Cursor → Bytes → Fetched
  | 0, _, cursor, remaining => ⟨[], remaining, cursor, .full⟩
  | _ + 1, _, cursor, [] =>
    match b.call cursor with
    | (.fail fault, cursor) => ⟨[], [], cursor, .failed fault⟩
    | (.move _, cursor) => ⟨[], [], cursor, .ended⟩
  | count + 1, budget + 1, cursor, x :: xs => (b.fetch count budget cursor.advance xs).push x
  | count + 1, 0, cursor, x :: xs =>
    match b.call cursor with
    | (.fail fault, cursor) => ⟨[], x :: xs, cursor, .failed fault⟩
    | (.move 0, cursor) => ⟨[], x :: xs, cursor, .ended⟩
    | (.move (limit + 1), cursor) => (b.fetch count limit cursor.advance xs).push x

def Source.fetch (s : Source) (count : Nat) : Bytes × Ending × Source :=
  match s.behaviour.fetch count 0 s.cursor s.remaining with
  | ⟨bytes, remaining, cursor, ending⟩ => (bytes, ending, { s with remaining, cursor })

/-! ## Settings -/

structure Settings where
  chunk : Option Nat := none
  interruptAt : Option Nat := none
  failAt : Option Nat := none
  fault : Fault := ⟨.brokenPipe, "closed"⟩
  stopAt : Option Nat := none

/-- A call never moves more bytes than a 64-bit word can count. -/
def callLimit : Nat := UInt64.size

/-- Fails from `failAt` on. Before it a call moves at most `chunk` bytes, and none past `failAt` or
`stopAt`. -/
def Settings.behaviour (s : Settings) : Behaviour := fun position =>
  let upTo (bound : Option Nat) (limit : Nat) : Nat :=
    match bound with
    | none => limit
    | some bound => min limit (bound - position)
  let response := Response.move (upTo s.stopAt (upTo s.failAt (s.chunk.getD callLimit)))
  match s.failAt with
  | none => response
  | some failAt => if failAt ≤ position then .fail s.fault else response

def Settings.cursor (s : Settings) : Cursor := { interrupts := s.interruptAt.toList }

def Settings.source (s : Settings) (bytes : Bytes) : Source :=
  { behaviour := s.behaviour, remaining := bytes, cursor := s.cursor }

end DevicePlugin.Stream
