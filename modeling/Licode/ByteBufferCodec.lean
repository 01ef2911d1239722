import Licode.ByteBuffer
import Licode.Lib.Base128
import Licode.Lib.ByteImage

/-!
# Typed values in the ring buffer

The `ReadXYZ` and `WriteXYZ` functions of `cByteBuffer` for integers, booleans and strings, and the
byte-order functions they use. The host is little-endian. A string is the list of its bytes.
-/

namespace Licode

open ByteImage

abbrev AString := List UInt8

instance : LawfulBEq AString := inferInstanceAs (LawfulBEq (List UInt8))

/-- The bytes of a string literal. -/
def ascii (s : String) : AString := s.toList.map fun char => UInt8.ofNat char.toNat

/-- `ntohl` and `htonl`. -/
def ntohl (v : UInt32) : UInt32 := UInt32.ofNat (swap 4 v.toNat)

/-- `ntohs` and `htons`. -/
def ntohs (v : UInt16) : UInt16 := UInt16.ofNat (swap 2 v.toNat)

def hostToNetwork4 (v : UInt32) : UInt32 := ntohl v

/-- The macro `ntohll`, and the same expression in `HostToNetwork8`. -/
def ntohll (v : UInt64) : UInt64 := (ntohl v.toUInt32).toUInt64 <<< 32 + (ntohl (v >>> 32).toUInt32).toUInt64

def hostToNetwork8 (v : UInt64) : UInt64 := ntohll v

/-- `value << shift` in a type of `width` bits. -/
def shiftLeft (width value shift : Nat) : Checked Nat :=
  if shift < width then .ok ((value <<< shift) % 2 ^ width) else .error .shiftRange

namespace ByteBuffer

/-- The common body of the fixed-width readers: the image of `width` bytes is copied into a local
variable and converted. -/
def readScalar {α : Type} (b : ByteBuffer) (width : Nat) (convert : Nat → α) :
    Checked (Option α × ByteBuffer) := do
  b.checkValid
  if ¬ (← b.canReadBytes width) then
    return (none, b)
  else
    let (image, b) ← b.readBuf width
    return (some (convert (value (image.getD []))), b)

def readBEInt8 (b : ByteBuffer) : Checked (Option Int8 × ByteBuffer) :=
  b.readScalar 1 fun v => (UInt8.ofNat v).toInt8

def readBEUInt8 (b : ByteBuffer) : Checked (Option UInt8 × ByteBuffer) :=
  b.readScalar 1 fun v => UInt8.ofNat v

def readBEInt16 (b : ByteBuffer) : Checked (Option Int16 × ByteBuffer) :=
  b.readScalar 2 fun v => (ntohs (UInt16.ofNat v)).toInt16

def readBEUInt16 (b : ByteBuffer) : Checked (Option UInt16 × ByteBuffer) :=
  b.readScalar 2 fun v => ntohs (UInt16.ofNat v)

def readBEInt32 (b : ByteBuffer) : Checked (Option Int32 × ByteBuffer) :=
  b.readScalar 4 fun v => (ntohl (UInt32.ofNat v)).toInt32

def readBEUInt32 (b : ByteBuffer) : Checked (Option UInt32 × ByteBuffer) :=
  b.readScalar 4 fun v => ntohl (UInt32.ofNat v)

def readBEInt64 (b : ByteBuffer) : Checked (Option Int64 × ByteBuffer) :=
  b.readScalar 8 fun v => (ntohll (UInt64.ofNat v)).toInt64

def readBEUInt64 (b : ByteBuffer) : Checked (Option UInt64 × ByteBuffer) :=
  b.readScalar 8 fun v => ntohll (UInt64.ofNat v)

def readBool (b : ByteBuffer) : Checked (Option Bool × ByteBuffer) :=
  b.readScalar 1 fun v => UInt8.ofNat v != 0

def readLEInt (b : ByteBuffer) : Checked (Option Int32 × ByteBuffer) :=
  b.readScalar 4 fun v => (UInt32.ofNat v).toInt32

/-- The loop of `ReadVarInt32` and `ReadVarInt64`, whose accumulator has `width` bits. -/
def readVarIntLoop (width : Nat) :
    Nat → ByteBuffer → Nat → Nat → Checked (Option Nat × ByteBuffer)
  | 0, _, _, _ => .error .diverged
  | fuel + 1, b, value, shift => do
      if ¬ (← b.canReadBytes 1) then
        return (none, b)
      else
        let (image, b) ← b.readBuf 1
        let byte := (image.getD []).headD 0
        let value := value ||| (← shiftLeft width (byte &&& 0x7f).toNat shift)
        if byte &&& 0x80 ≠ 0 then
          readVarIntLoop width fuel b value (shift + 7)
        else
          return (some value, b)

def readVarInt32 (b : ByteBuffer) : Checked (Option UInt32 × ByteBuffer) := do
  b.checkValid
  let (v, b) ← readVarIntLoop 32 ((← b.getReadableSpace) + 1) b 0 0
  return (v.map UInt32.ofNat, b)

def readVarInt64 (b : ByteBuffer) : Checked (Option UInt64 × ByteBuffer) := do
  b.checkValid
  let (v, b) ← readVarIntLoop 64 ((← b.getReadableSpace) + 1) b 0 0
  return (v.map UInt64.ofNat, b)

/-- `ReadVarInt` at the type `UInt32`, the only one it is used at: the value is read with 64 bits
and then cast. -/
def readVarInt (b : ByteBuffer) : Checked (Option UInt32 × ByteBuffer) := do
  let (v, b) ← b.readVarInt64
  return (v.map UInt64.toUInt32, b)

def readVarUTF8String (b : ByteBuffer) : Checked (Option AString × ByteBuffer) := do
  b.checkValid
  let (size, b) ← b.readVarInt
  match size with
  | none => return (none, b)
  -- above `MAX_STRING_SIZE` only a warning is logged
  | some size => b.readString size.toNat

/-- The common body of the fixed-width writers. -/
def writeScalar (b : ByteBuffer) (width image : Nat) : Checked (Bool × ByteBuffer) := do
  b.checkValid
  if ¬ (← b.canWriteBytes width) then
    return (false, b)
  else
    b.writeBuf (littleEndian width image)

def writeBEInt8 (b : ByteBuffer) (v : Int8) : Checked (Bool × ByteBuffer) :=
  b.writeScalar 1 v.toUInt8.toNat

def writeBEUInt8 (b : ByteBuffer) (v : UInt8) : Checked (Bool × ByteBuffer) :=
  b.writeScalar 1 v.toNat

def writeBEInt16 (b : ByteBuffer) (v : Int16) : Checked (Bool × ByteBuffer) :=
  b.writeScalar 2 (ntohs v.toUInt16).toNat

def writeBEUInt16 (b : ByteBuffer) (v : UInt16) : Checked (Bool × ByteBuffer) :=
  b.writeScalar 2 (ntohs v).toNat

def writeBEInt32 (b : ByteBuffer) (v : Int32) : Checked (Bool × ByteBuffer) :=
  b.writeScalar 4 (hostToNetwork4 v.toUInt32).toNat

def writeBEUInt32 (b : ByteBuffer) (v : UInt32) : Checked (Bool × ByteBuffer) :=
  b.writeScalar 4 (hostToNetwork4 v).toNat

def writeBEInt64 (b : ByteBuffer) (v : Int64) : Checked (Bool × ByteBuffer) :=
  b.writeScalar 8 (hostToNetwork8 v.toUInt64).toNat

def writeBEUInt64 (b : ByteBuffer) (v : UInt64) : Checked (Bool × ByteBuffer) :=
  b.writeScalar 8 (hostToNetwork8 v).toNat

def writeBool (b : ByteBuffer) (v : Bool) : Checked (Bool × ByteBuffer) := do
  b.checkValid
  b.write [if v then 1 else 0]

def writeLEInt32 (b : ByteBuffer) (v : Int32) : Checked (Bool × ByteBuffer) := do
  b.checkValid
  b.writeBuf (littleEndian 4 v.toUInt32.toNat)

/-- The loop of `WriteVarInt32` and `WriteVarInt64`; `room` is what is left of the local array. -/
def varIntBytes : Nat → Nat → Checked (List UInt8)
  | 0, _ => .error .outOfBounds
  | room + 1, value => do
      let byte := UInt8.ofNat ((value &&& 0x7f) ||| (if value > 0x7f then 0x80 else 0x00))
      let value := value >>> 7
      if value > 0 then
        return byte :: (← varIntBytes room value)
      else
        return [byte]

def writeVarInt32 (b : ByteBuffer) (v : UInt32) : Checked (Bool × ByteBuffer) := do
  b.checkValid
  b.writeBuf (← varIntBytes 5 v.toNat)

def writeVarInt64 (b : ByteBuffer) (v : UInt64) : Checked (Bool × ByteBuffer) := do
  b.checkValid
  b.writeBuf (← varIntBytes 10 v.toNat)

def writeVarUTF8String (b : ByteBuffer) (v : AString) : Checked (Bool × ByteBuffer) := do
  b.checkValid
  if ¬ (← b.canWriteBytes (v.length + 1)) then
    return (false, b)
  else
    let (res, b) ← b.writeVarInt32 (UInt32.ofNat v.length)
    if ¬ res then
      return (false, b)
    else
      b.writeBuf v

end ByteBuffer

end Licode
