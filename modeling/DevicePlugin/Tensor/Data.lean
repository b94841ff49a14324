import DevicePlugin.Bytes
import DevicePlugin.Tensor.Descriptor

/-!
# Tensors

A descriptor with exactly as many bytes as it asks for. Values of type `f32`
travel as bit patterns, four bytes each, the least first.
-/

namespace DevicePlugin

inductive TensorFault where
  | overflow (desc : TensorDesc)
  | wrongSize (desc : TensorDesc) (given needed : Nat)
  deriving DecidableEq

def TensorFault.message : TensorFault → String
  | .overflow desc =>
    "tensor shape " ++ shapeText desc.shape ++ " of " ++ desc.elementType.label ++
      " overflows the address space"
  | .wrongSize desc given needed =>
    "tensor data is " ++ given.repr ++ " bytes but " ++ desc.shown ++ " needs " ++ needed.repr

structure Tensor where
  desc : TensorDesc
  data : Bytes
  sized : desc.byteSize = some data.length
  deriving DecidableEq

namespace Tensor

def ofData (desc : TensorDesc) (data : Bytes) : Except TensorFault Tensor :=
  match h : desc.byteSize with
  | none => .error (.overflow desc)
  | some needed =>
    if hlen : data.length = needed then .ok ⟨desc, data, by rw [h, hlen]⟩
    else .error (.wrongSize desc data.length needed)

def zeros (desc : TensorDesc) : Except TensorFault Tensor :=
  match h : desc.byteSize with
  | none => .error (.overflow desc)
  | some needed => .ok ⟨desc, List.replicate needed 0, by rw [h, List.length_replicate]⟩

def packBits (bits : List UInt32) : Bytes :=
  bits.flatMap fun b => Bytes.littleEndian 4 b.toNat

def unpackBits : Bytes → List UInt32
  | a :: b :: c :: d :: rest => UInt32.ofNat (Bytes.toNat [a, b, c, d]) :: unpackBits rest
  | _ => []

def ofF32 (shape : List UInt64) (bits : List UInt32) : Except TensorFault Tensor :=
  ofData ⟨.f32, shape⟩ (packBits bits)

def toF32 (t : Tensor) : Option (List UInt32) :=
  if t.desc.elementType = .f32 then some (unpackBits t.data) else none

end Tensor

end DevicePlugin
