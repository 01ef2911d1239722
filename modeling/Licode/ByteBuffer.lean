import Licode.Checked
import Licode.Lib.CyclicWindow

/-!
# The ring buffer of bytes

`cByteBuffer`, function by function. The array is allocated with one byte more than the capacity
asked for, so that a full ring and an empty one differ; its initial contents are whatever the
allocation left there. Every `memcpy` into or out of the array is checked against the allocation.
Positions and sizes are natural numbers: no sum formed here exceeds twice the size of an array that
has been allocated, so `size_t` does not wrap.
-/

namespace Licode

open CyclicWindow

structure ByteBuffer where
  buffer : List UInt8
  bufferSize : Nat
  dataStart : Nat
  writePos : Nat
  readPos : Nat
  deriving DecidableEq, Repr

namespace ByteBuffer

/-- The constructor: `garbage` is what the fresh allocation holds. -/
def create (size : Nat) (garbage : Nat → UInt8 := fun _ => 0) : ByteBuffer :=
  { buffer := (List.range (size + 1)).map garbage
    bufferSize := size + 1
    dataStart := 0
    writePos := 0
    readPos := 0 }

/-- `memcpy(m_Buffer + pos, bytes, |bytes|)`. -/
def copyIn (b : ByteBuffer) (pos : Nat) (bytes : List UInt8) : Checked ByteBuffer :=
  if pos + bytes.length ≤ b.buffer.length then
    .ok { b with buffer := store b.buffer pos bytes }
  else
    .error .outOfBounds

/-- `memcpy(_, m_Buffer + pos, count)`. -/
def copyOut (b : ByteBuffer) (pos count : Nat) : Checked (List UInt8) :=
  if pos + count ≤ b.buffer.length then
    .ok ((b.buffer.drop pos).take count)
  else
    .error .outOfBounds

def checkValid (b : ByteBuffer) : Checked Unit := do
  assert (b.readPos < b.bufferSize)
  assert (b.writePos < b.bufferSize)

def getFreeSpace (b : ByteBuffer) : Checked Nat := do
  b.checkValid
  if b.writePos ≥ b.dataStart then
    assert (b.bufferSize ≥ b.writePos)
    assert (b.bufferSize - b.writePos + b.dataStart ≥ 1)
    return b.bufferSize - b.writePos + b.dataStart - 1
  else
    assert (b.bufferSize ≥ b.writePos)
    assert (b.bufferSize - b.writePos ≥ 1)
    return b.dataStart - b.writePos - 1

def getUsedSpace (b : ByteBuffer) : Checked Nat := do
  b.checkValid
  let free ← b.getFreeSpace
  assert (b.bufferSize ≥ free)
  assert (b.bufferSize - free ≥ 1)
  return b.bufferSize - free - 1

def getReadableSpace (b : ByteBuffer) : Checked Nat := do
  b.checkValid
  if b.readPos > b.writePos then
    assert (b.bufferSize ≥ b.readPos)
    return b.bufferSize - b.readPos + b.writePos
  else
    assert (b.writePos ≥ b.readPos)
    return b.writePos - b.readPos

def canReadBytes (b : ByteBuffer) (count : Nat) : Checked Bool := do
  b.checkValid
  return decide (count ≤ (← b.getReadableSpace))

def canWriteBytes (b : ByteBuffer) (count : Nat) : Checked Bool := do
  b.checkValid
  return decide (count ≤ (← b.getFreeSpace))

/-- The branch of `write` and `writeBuf` taken when the bytes reach the end of the array: the part up
to the end is stored and the write position goes to the beginning. Left over are the bytes still to
be stored; the last component counts the bytes stored. -/
def writeTillEnd (b : ByteBuffer) (bytes : List UInt8) :
    Checked (ByteBuffer × List UInt8 × Nat) :=
  let tillEnd := b.bufferSize - b.writePos
  if tillEnd ≤ bytes.length then do
    let b ← if tillEnd > 0 then b.copyIn b.writePos (bytes.take tillEnd) else pure b
    return ({ b with writePos := 0 }, bytes.drop tillEnd, tillEnd)
  else
    return (b, bytes, 0)

/-- The second, straight part of `write` and `writeBuf`. -/
def writeRest (b : ByteBuffer) (bytes : List UInt8) : Checked (ByteBuffer × Nat) :=
  if bytes.length > 0 then do
    let b ← b.copyIn b.writePos bytes
    return ({ b with writePos := b.writePos + bytes.length }, bytes.length)
  else
    return (b, 0)

def write (b : ByteBuffer) (bytes : List UInt8) : Checked (Bool × ByteBuffer) := do
  b.checkValid
  let curFreeSpace ← b.getFreeSpace
  let curReadableSpace ← b.getReadableSpace
  if curFreeSpace < bytes.length then
    return (false, b)
  else
    assert (b.bufferSize ≥ b.writePos)
    let (b, rest, first) ← b.writeTillEnd bytes
    let (b, last) ← b.writeRest rest
    let writtenBytes := first + last
    assert ((← b.getFreeSpace) = curFreeSpace - writtenBytes)
    assert ((← b.getReadableSpace) = curReadableSpace + writtenBytes)
    return (true, b)

def writeBuf (b : ByteBuffer) (bytes : List UInt8) : Checked (Bool × ByteBuffer) := do
  b.checkValid
  if ¬ (← b.canWriteBytes bytes.length) then
    return (false, b)
  else
    assert (b.bufferSize ≥ b.readPos)
    let (b, rest, _) ← b.writeTillEnd bytes
    let (b, _) ← b.writeRest rest
    return (true, b)

/-- The branch of `readBuf` and `readString` taken when the read reaches the end of the array. The
last component is the number of bytes still to be read; the assertion is the one of `ReadString`,
and repeats the condition of the branch. -/
def readTillEnd (b : ByteBuffer) (count : Nat) : Checked (List UInt8 × ByteBuffer × Nat) :=
  let bytesToEndOfBuffer := b.bufferSize - b.readPos
  if bytesToEndOfBuffer ≤ count then do
    let first ← if bytesToEndOfBuffer > 0 then b.copyOut b.readPos bytesToEndOfBuffer else pure []
    assert (count ≥ bytesToEndOfBuffer)
    return (first, { b with readPos := 0 }, count - bytesToEndOfBuffer)
  else
    return ([], b, count)

/-- The second, straight part of `readBuf` and `readString`. -/
def readRest (b : ByteBuffer) (count : Nat) : Checked (List UInt8 × ByteBuffer) :=
  if count > 0 then do
    let rest ← b.copyOut b.readPos count
    return (rest, { b with readPos := b.readPos + count })
  else
    return ([], b)

/-- `some` of the bytes copied out stands for `true`. -/
def readBuf (b : ByteBuffer) (count : Nat) : Checked (Option (List UInt8) × ByteBuffer) := do
  b.checkValid
  if ¬ (← b.canReadBytes count) then
    return (none, b)
  else
    assert (b.bufferSize ≥ b.readPos)
    let (first, b, count) ← b.readTillEnd count
    let (rest, b) ← b.readRest count
    return (some (first ++ rest), b)

/-- The same copying as `readBuf`, into a string instead of an array of the caller. -/
def readString (b : ByteBuffer) (count : Nat) : Checked (Option (List UInt8) × ByteBuffer) := do
  b.checkValid
  if ¬ (← b.canReadBytes count) then
    return (none, b)
  else
    assert (b.bufferSize ≥ b.readPos)
    let (string, b, count) ← b.readTillEnd count
    let (rest, b) ← b.readRest count
    return (some (string ++ rest), b)

def advanceReadPos (b : ByteBuffer) (count : Nat) : Checked ByteBuffer := do
  b.checkValid
  let readPos := b.readPos + count
  if readPos ≥ b.bufferSize then
    return { b with readPos := readPos - b.bufferSize }
  else
    return { b with readPos := readPos }

def skipRead (b : ByteBuffer) (count : Nat) : Checked (Bool × ByteBuffer) := do
  b.checkValid
  if ¬ (← b.canReadBytes count) then
    return (false, b)
  else
    return (true, ← b.advanceReadPos count)

/-- `data` is the string the caller passes; a failing `readString` would leave it alone. -/
def readAll (b : ByteBuffer) (data : List UInt8) : Checked (List UInt8 × ByteBuffer) := do
  b.checkValid
  let (result, b) ← b.readString (← b.getReadableSpace)
  return (result.getD data, b)

/-- The copying loop of `readToByteBuffer`, through a local array of 1024 bytes. -/
def readToByteBufferLoop : Nat → ByteBuffer → ByteBuffer → Nat → Checked (ByteBuffer × ByteBuffer)
  | _, src, dst, 0 => .ok (src, dst)
  | 0, _, _, _ + 1 => .error .diverged
  | fuel + 1, src, dst, numBytes + 1 => do
      let num := if numBytes + 1 > 1024 then 1024 else numBytes + 1
      let (bytes, src) ← src.readBuf num
      verify bytes.isSome
      let (written, dst) ← dst.write (bytes.getD [])
      verify written
      assert (numBytes + 1 ≥ num)
      readToByteBufferLoop fuel src dst (numBytes + 1 - num)

/-- The second component is the destination. -/
def readToByteBuffer (b dst : ByteBuffer) (numBytes : Nat) :
    Checked (Bool × ByteBuffer × ByteBuffer) := do
  if ¬ (← dst.canWriteBytes numBytes) then
    return (false, b, dst)
  else if ¬ (← b.canReadBytes numBytes) then
    return (false, b, dst)
  else
    let (b, dst) ← readToByteBufferLoop numBytes b dst numBytes
    return (true, b, dst)

def commitRead (b : ByteBuffer) : Checked ByteBuffer := do
  b.checkValid
  return { b with dataStart := b.readPos }

def resetRead (b : ByteBuffer) : Checked ByteBuffer := do
  b.checkValid
  return { b with readPos := b.dataStart }

/-- `ClearAll`. Its `memset` has the size and the value the wrong way round and stores nothing. -/
def clearAll (b : ByteBuffer) : ByteBuffer := { b with dataStart := 0, writePos := 0, readPos := 0 }

/-- The result is what `out` holds afterwards. -/
def readAgain (b : ByteBuffer) (out : List UInt8) : Checked (List UInt8) := do
  b.checkValid
  let (out, dataStart) ←
    if b.readPos < b.dataStart then do
      assert (b.bufferSize ≥ b.dataStart)
      let first ← b.copyOut b.dataStart (b.bufferSize - b.dataStart)
      pure (out ++ first, 0)
    else
      pure (out, b.dataStart)
  assert (b.readPos ≥ dataStart)
  let rest ← b.copyOut dataStart (b.readPos - dataStart)
  return out ++ rest

end ByteBuffer

end Licode
