import Licode.Lib.SortedRange
import Licode.Media.FecPackets
import Mathlib.Data.Prod.Lex

/-!
# The FEC codec

An FEC packet is the exclusive or of the media packets that its mask selects. `GenerateFEC` makes FEC
packets for a frame, `DecodeFEC` takes in what has come of both kinds and recovers the only packet that
an FEC packet lacks, until no FEC packet lacks only one. The pairs of a length and an array are copied
and combined without a look at their sizes.

What `internal::GeneratePacketMasks` reads from its tables is a parameter.
-/

namespace Licode.Media.Fec

open Overlay

/-! ### Sizes and numbers -/

def kFecHeaderSize : Nat := 10

def kRtpHeaderSize : Nat := 12

def kMaskSizeLBitSet : Nat := 6

def kMaskSizeLBitClear : Nat := 2

def kMaxMediaPackets : Nat := 48

def kMaxFecPackets : Nat := kMaxMediaPackets

def maskSize (lBit : Bool) : Nat := if lBit then kMaskSizeLBitSet else kMaskSizeLBitClear

def ulpHeaderSize (lBit : Bool) : Nat := 2 + maskSize lBit

/-- `RtpUtility::AssignUWord16ToBuffer`. -/
def assignUWord16 (value : UInt16) : List UInt8 := image 2 value.toNat

/-- `RtpUtility::AssignUWord32ToBuffer`. -/
def assignUWord32 (value : UInt32) : List UInt8 := image 4 value.toNat

/-- `RtpUtility::BufferToUWord16`. -/
def bufferToUWord16 (bytes : List UInt8) : UInt16 := .ofNat (number bytes)

/-- `RtpUtility::BufferToUWord32`. -/
def bufferToUWord32 (bytes : List UInt8) : UInt32 := .ofNat (number bytes)

def parseSequenceNumber (packet : Packet) : UInt16 := bufferToUWord16 (read packet.data.bytes 2 2)

def isNewerSequenceNumber (sequenceNumber prevSequenceNumber : UInt16) : Bool :=
  sequenceNumber != prevSequenceNumber && sequenceNumber - prevSequenceNumber < 0x8000

/-- `SortablePacket::LessThan`. -/
def lessThan (first second : UInt16) : Bool := isNewerSequenceNumber second first

/-- `byte & (1 << (7 - i))`. -/
def bitSet (byte : UInt8) (i : Nat) : Bool := byte &&& (1 <<< UInt8.ofNat (7 - i)) != 0

/-- Whether the L bit of an FEC header is set. -/
def lBitSet (packet : Packet) : Bool := packet.data.cell 0 &&& 0x40 != 0

/-! ### Packet masks -/

/-- The memory of some masks, row after row. -/
def maskByte (mask : List UInt8) (i : Nat) : Checked UInt8 :=
  if h : i < mask.length then .ok mask[i] else .error .outOfBounds

def setMaskByte (mask : List UInt8) (i : Nat) (byte : UInt8) : Checked (List UInt8) :=
  if i < mask.length then .ok (mask.set i byte) else .error .outOfBounds

/-- `CopyColumn`, for one row. -/
def copyColumnRow (newMaskBytes oldMaskBytes newBitIndex oldBitIndex : Nat) (masks : List UInt8 × List UInt8)
    (row : Nat) : Checked (List UInt8 × List UInt8) := do
  let newByteIndex := row * newMaskBytes + newBitIndex / 8
  let oldByteIndex := row * oldMaskBytes + oldBitIndex / 8
  let old ← maskByte masks.2 oldByteIndex
  let new ← maskByte masks.1 newByteIndex
  let new := new ||| ((old &&& 0x80) >>> 7)
  let new := if newBitIndex % 8 ≠ 7 then new <<< 1 else new
  let newMask ← setMaskByte masks.1 newByteIndex new
  let oldMask ← setMaskByte masks.2 oldByteIndex (old <<< 1)
  return (newMask, oldMask)

/-- The first of the masks is the new one. -/
def copyColumn (newMaskBytes oldMaskBytes numFecPackets newBitIndex oldBitIndex : Nat)
    (masks : List UInt8 × List UInt8) : Checked (List UInt8 × List UInt8) :=
  (List.range numFecPackets).foldlM (copyColumnRow newMaskBytes oldMaskBytes newBitIndex oldBitIndex) masks

/-- `InsertZeroColumns`, for one row. -/
def insertZerosRow (numZeros newMaskBytes newBitIndex : Nat) (newMask : List UInt8) (row : Nat) :
    Checked (List UInt8) := do
  let newByteIndex := row * newMaskBytes + newBitIndex / 8
  let byte ← maskByte newMask newByteIndex
  setMaskByte newMask newByteIndex (byte <<< .ofNat (min numZeros (7 - newBitIndex % 8)))

def insertZeroColumns (numZeros newMaskBytes numFecPackets newBitIndex : Nat) (newMask : List UInt8) :
    Checked (List UInt8) :=
  (List.range numFecPackets).foldlM (insertZerosRow numZeros newMaskBytes newBitIndex) newMask

/-- The loop of `InsertZerosInBitMasks` over the packets behind the first one. -/
def insertHoles (newMaskBytes oldMaskBytes numFecPackets : Nat) : List Packet → UInt16 → Nat → Nat →
    List UInt8 × List UInt8 → Checked (Nat × List UInt8)
  | [], _, newBitIndex, _, masks => .ok (newBitIndex, masks.1)
  | packet :: rest, prevSeqNum, newBitIndex, oldBitIndex, masks =>
      if newBitIndex = 8 * kMaskSizeLBitSet then .ok (newBitIndex, masks.1)
      else do
        let seqNum := parseSequenceNumber packet
        let zerosToInsert := (seqNum - prevSeqNum - 1).toNat
        let newMask ← if zerosToInsert > 0 then
          insertZeroColumns zerosToInsert newMaskBytes numFecPackets newBitIndex masks.1 else .ok masks.1
        let newBitIndex := newBitIndex + zerosToInsert
        let masks ← copyColumn newMaskBytes oldMaskBytes numFecPackets newBitIndex oldBitIndex (newMask, masks.2)
        insertHoles newMaskBytes oldMaskBytes numFecPackets rest seqNum (newBitIndex + 1) (oldBitIndex + 1) masks

/-- The last byte of a row that is not full is shifted to its place. -/
def alignRow (newMaskBytes newBitIndex : Nat) (newMask : List UInt8) (row : Nat) : Checked (List UInt8) := do
  let newByteIndex := row * newMaskBytes + newBitIndex / 8
  let byte ← maskByte newMask newByteIndex
  setMaskByte newMask newByteIndex (byte <<< .ofNat (7 - newBitIndex % 8))

/-- `packetMask` is the memory of the masks, with room for six bytes a row. -/
def insertZerosInBitMasks (mediaPackets : List Packet) (packetMask : List UInt8) (numMaskBytes numFecPackets : Nat) :
    Checked (Nat × List UInt8) :=
  match mediaPackets with
  | [] => .ok (0, packetMask)
  | first :: rest =>
      let firstSeqNum := parseSequenceNumber first
      let span := (parseSequenceNumber (rest.getLastD first) - firstSeqNum).toNat + 1
      if rest = [] ∨ span = mediaPackets.length then .ok (mediaPackets.length, packetMask)
      else do
        let newMaskBytes := if span > 8 * kMaskSizeLBitClear then kMaskSizeLBitSet else kMaskSizeLBitClear
        let newMask := List.replicate (numFecPackets * kMaskSizeLBitSet) 0
        let masks ← copyColumn newMaskBytes numMaskBytes numFecPackets 0 0 (newMask, packetMask)
        let inserted ← insertHoles newMaskBytes numMaskBytes numFecPackets rest firstSeqNum 1 1 masks
        let newMask ← if inserted.1 % 8 ≠ 0 then
          (List.range numFecPackets).foldlM (alignRow newMaskBytes inserted.1) inserted.2 else .ok inserted.2
        return (inserted.1, newMask)

/-! ### Generating FEC packets -/

/-- How much farther back the payload stands in an FEC packet. -/
def fecRtpOffset (lBit : Bool) : Nat := kFecHeaderSize + ulpHeaderSize lBit - kRtpHeaderSize

/-- What `GenerateFecBitStrings` does for the first packet of a mask, which is copied into an array of zeros. -/
def copyMediaPacket (lBit : Bool) (fec media : Packet) : Checked PacketData := do
  let data ← fec.data.store 0 (read media.data.bytes 0 2)
  let data ← data.store 4 (read media.data.bytes 4 4)
  let data ← data.store 8 (assignUWord16 (media.length - .ofNat kRtpHeaderSize))
  let field ← media.data.load kRtpHeaderSize (media.length.toNat - kRtpHeaderSize)
  data.store (kFecHeaderSize + ulpHeaderSize lBit) field

/-- What it does for the others. -/
def combineMediaPacket (lBit : Bool) (fec media : Packet) : Checked PacketData := do
  let payload := kFecHeaderSize + ulpHeaderSize lBit
  let mediaPayloadLength := assignUWord16 (media.length - .ofNat kRtpHeaderSize)
  let fecPacketLength := media.length + .ofNat (fecRtpOffset lBit)
  let data ← PacketData.xorBytes media.data 0 0 2 fec.data
  let data ← PacketData.xorBytes media.data 0 4 4 data
  let data ← data.xorByte 8 (mediaPayloadLength.getD 0 0)
  let data ← data.xorByte 9 (mediaPayloadLength.getD 1 0)
  PacketData.xorBytes media.data (fecRtpOffset lBit) payload (fecPacketLength.toNat - payload) data

/-- A packet without a length has not taken in another. -/
def addMediaPacket (lBit : Bool) (fec media : Packet) : Checked Packet := do
  let fecPacketLength := media.length + .ofNat (fecRtpOffset lBit)
  let data ← if fec.length = 0 then copyMediaPacket lBit fec media else combineMediaPacket lBit fec media
  return { data, length := if fecPacketLength > fec.length then fecPacketLength else fec.length }

/-- The loop over the media packets for one FEC packet. The index of the bit is one of 32 bits without sign, and a
shift by 7 less an index above 7 is one by more than the width. -/
def addMediaPackets (lBit : Bool) (packetMask : List UInt8) : List Packet → Nat → Nat → Packet → Checked Packet
  | [], _, _, fec => .ok fec
  | media :: rest, pktMaskIdx, mediaPktIdx, fec => do
      let byte ← maskByte packetMask pktMaskIdx
      let selected ← if mediaPktIdx ≤ 7 then .ok (bitSet byte mediaPktIdx) else .error .shiftRange
      let fec ← if selected then addMediaPacket lBit fec media else .ok fec
      let mediaPktIdx := match rest with
        | [] => mediaPktIdx
        | next :: _ => mediaPktIdx + (parseSequenceNumber next - parseSequenceNumber media).toNat
      if mediaPktIdx = 8 then addMediaPackets lBit packetMask rest (pktMaskIdx + 1) 0 fec
      else addMediaPackets lBit packetMask rest pktMaskIdx mediaPktIdx fec

/-- `GenerateFecBitStrings`, for one FEC packet. -/
def generateFecBitString (mediaPackets : List Packet) (packetMask : List UInt8) (lBit : Bool) (i : Nat) :
    Checked Packet := do
  let fec ← addMediaPackets lBit packetMask mediaPackets (i * maskSize lBit) 0 .create
  assert (fec.length ≠ 0)
  return fec

/-- `GenerateFecUlpHeaders`, for one FEC packet. -/
def generateFecUlpHeader (media : Packet) (packetMask : List UInt8) (lBit : Bool) (i : Nat) (fec : Packet) :
    Checked Packet := do
  let first := fec.data.cell 0 &&& 0x7f
  let data ← fec.data.store 0 [if lBit then first ||| 0x40 else first &&& 0xbf]
  let data ← data.store 2 (read media.data.bytes 2 2)
  let data ← data.store 10
    (assignUWord16 (fec.length - .ofNat kFecHeaderSize - .ofNat (ulpHeaderSize lBit)))
  let mask ← Rtcp.load packetMask (i * maskSize lBit) (maskSize lBit)
  let data ← data.store 12 mask
  return { fec with data }

/-- Both for one FEC packet. -/
def generateFecPacket (mediaPackets : List Packet) (packetMask : List UInt8) (lBit : Bool) (i : Nat) :
    Checked Packet := do
  let fec ← generateFecBitString mediaPackets packetMask lBit i
  generateFecUlpHeader (mediaPackets.headD .create) packetMask lBit i fec

def getNumberOfFecPackets (numMediaPackets protectionFactor : Nat) : Checked Nat := do
  let numFecPackets := (numMediaPackets * protectionFactor + 2 ^ 7) / 2 ^ 8
  let numFecPackets := if protectionFactor > 0 ∧ numFecPackets = 0 then 1 else numFecPackets
  assert (numFecPackets ≤ numMediaPackets)
  return numFecPackets

/-- `GenerateFEC`, with `none` for -1. `masks` gives the memory that `GeneratePacketMasks` leaves for numbers of media
and of FEC packets. -/
def generateFEC (masks : Nat → Nat → List UInt8) (mediaPackets : List Packet) (protectionFactor : UInt8) :
    Checked (Option (List Packet)) := do
  assert (0 < mediaPackets.length % 2 ^ 16)
  let numMediaPackets := mediaPackets.length % 2 ^ 16
  if numMediaPackets > kMaxMediaPackets then return none
  if mediaPackets.any fun packet => packet.length.toNat < kRtpHeaderSize then return none
  let numFecPackets ← getNumberOfFecPackets numMediaPackets protectionFactor.toNat
  if numFecPackets = 0 then return some []
  let lBit := decide (numMediaPackets > 8 * kMaskSizeLBitClear)
  let inserted ← insertZerosInBitMasks mediaPackets (masks numMediaPackets numFecPackets) (maskSize lBit) numFecPackets
  let lBit := decide (inserted.1 > 8 * kMaskSizeLBitClear)
  let fecPackets ← (List.range numFecPackets).mapM (generateFecPacket mediaPackets inserted.2 lBit)
  return some fecPackets

end Licode.Media.Fec
