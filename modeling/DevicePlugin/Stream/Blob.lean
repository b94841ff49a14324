import DevicePlugin.Stream.Endpoint

/-!
# Blobs

An exported model on a stream: two blocks, the document of its structure and the
constants, each after its length as a 64-bit word. Nothing stands before, between or after them.
-/

namespace DevicePlugin

structure Blob where
  document : Bytes := []
  constants : Bytes := []
  deriving DecidableEq

inductive Block where
  | document
  | constants
  deriving DecidableEq, Repr

def Block.name : Block → String
  | .document => "structure"
  | .constants => "constants"

inductive FormFault where
  | missingLength (block : Block)
  | shortBlock (block : Block) (declared present : Nat)
  | sliceRange (node : String) (offset size present : Nat)
  deriving DecidableEq

def FormFault.message : FormFault → String
  | .missingLength block => "missing " ++ block.name ++ " block length"
  | .shortBlock block declared present =>
    block.name ++ " block declares " ++ declared.repr ++ " bytes but only " ++ present.repr ++
      " are present"
  | .sliceRange node offset size present =>
    "constant '" ++ node ++ "' slice " ++ offset.repr ++ "+" ++ size.repr ++ " exceeds " ++
      present.repr ++ " constant bytes"

inductive ReadFault where
  | form (fault : FormFault)
  | stream (fault : Stream.Fault)
  deriving DecidableEq

namespace Blob

def segments (b : Blob) : List Bytes :=
  [Bytes.word b.document.length, b.document, Bytes.word b.constants.length, b.constants]

def encode (b : Blob) : Bytes := b.segments.flatten

def write (b : Blob) (sink : Stream.Behaviour) (cursor : Stream.Cursor) : Stream.Written :=
  sink.writeEach cursor b.segments

/-- One block. A length that breaks off is a fault of form, also where the source reports its end
as a failure. -/
def readBlock (block : Block) (source : Stream.Source) : Except ReadFault Bytes × Stream.Source :=
  match source.fetch 8 with
  | (_, .ended, source) => (.error (.form (.missingLength block)), source)
  | (_, .failed fault, source) =>
    if fault.kind = .unexpectedEof then (.error (.form (.missingLength block)), source)
    else (.error (.stream fault), source)
  | (length, .full, source) =>
    let declared := length.toNat
    match source.fetch declared with
    | (_, .failed fault, source) => (.error (.stream fault), source)
    | (bytes, .ended, source) => (.error (.form (.shortBlock block declared bytes.length)), source)
    | (bytes, .full, source) => (.ok bytes, source)

def read (source : Stream.Source) : Except ReadFault Blob × Stream.Source :=
  match readBlock .document source with
  | (.error fault, source) => (.error fault, source)
  | (.ok document, source) =>
    match readBlock .constants source with
    | (.error fault, source) => (.error fault, source)
    | (.ok constants, source) => (.ok ⟨document, constants⟩, source)

end Blob

end DevicePlugin
