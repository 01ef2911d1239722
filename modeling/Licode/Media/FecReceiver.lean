import Licode.Media.FecDecoder
import Licode.Media.RtpVP8Parser

/-!
# The FEC receiver

A connection whose remote side does not support RED, and the recorder, give RED packets to a
`FecReceiverImpl`. It takes the header of RED off, hands on a media packet as it is and an FEC packet to
the decoder, and calls back for every packet that the decoder recovers.

A read behind the end of a packet is a fault, even if there is more room in the array it came in.
The member `ssrc` of a second packet is not set.
-/

namespace Licode.Media.Fec

open Overlay

/-- `ULP_90000_PT`. -/
def ulpPT : UInt8 := 117

/-- `incoming_rtp_packet[i]`. -/
def incomingByte (incoming : List UInt8) (i : Nat) : Checked UInt8 :=
  if h : i < incoming.length then .ok incoming[i] else .error .outOfBounds

/-- What `memcpy` takes out of a packet; a negative count is a great one. -/
def incomingBytes (incoming : List UInt8) (offset : Nat) (count : Int) : Checked (List UInt8) :=
  if 0 ≤ count ∧ offset + count ≤ incoming.length then .ok (read incoming offset count.toNat) else .error .outOfBounds

/-- The members of `webrtc::RTPHeader` that the callers set. -/
structure RTPHeader where
  headerLength : UInt16
  sequenceNumber : UInt16

structure FecReceiverImpl where
  fec : ForwardErrorCorrection
  receivedPacketList : List ReceivedPacket
  recoveredPacketList : List RecoveredPacket

namespace FecReceiverImpl

def create : FecReceiverImpl := ⟨.create, [], []⟩

/-- The size of the RED header and the length of the first block, or `none` for a packet that is refused. -/
def redHeader (header : RTPHeader) (incoming : List UInt8) (payloadDataLength : UInt16) :
    Checked (Option (Nat × Nat)) := do
  let hl := header.headerLength.toNat
  let first ← incomingByte incoming hl
  if first &&& 0x80 = 0 then return some (1, 0)
  let high ← incomingByte incoming (hl + 1)
  let low ← incomingByte incoming (hl + 2)
  if number [high, low] / 4 ≠ 0 then return none
  let last ← incomingByte incoming (hl + 3)
  let blockLength := number [0x03 &&& low, last]
  let next ← incomingByte incoming (hl + 4)
  assert (next &&& 0x80 = 0)
  assert ((blockLength : Int) ≤ payloadDataLength.toNat - 4)
  return some (4, blockLength)

/-- The header of a packet with the payload type of a block, and the payload behind it. -/
def mediaData (header : RTPHeader) (incoming : List UInt8) (payloadType : UInt8) (payload : List UInt8) :
    Checked PacketData := do
  let hl := header.headerLength.toNat
  let rtpHeader ← incomingBytes incoming 0 hl
  let data ← PacketData.zero.store 0 rtpHeader
  let data ← data.store 1 [(data.cell 1 &&& 0x80) + payloadType]
  data.store hl payload

/-- The packets that a RED packet has in it; `stale` is what the member `ssrc` is where it is not set. -/
def redBlocks (header : RTPHeader) (incoming : List UInt8) (ulpfecPayloadType : UInt8) (stale : UInt32) :
    Checked (Option (ReceivedPacket × Option ReceivedPacket)) := do
  let hl := header.headerLength.toNat
  let payloadDataLength : UInt16 := .ofNat incoming.length - header.headerLength
  let first ← incomingByte incoming hl
  let payloadType := first &&& 0x7f
  let isFec := payloadType == ulpfecPayloadType
  let seqNum := header.sequenceNumber
  let red ← redHeader header incoming payloadDataLength
  match red with
  | none => return none
  | some (redHeaderLength, blockLength) =>
      if blockLength > 0 then do
        let block ← incomingBytes incoming (hl + 5) blockLength
        let data ← mediaData header incoming payloadType block
        let behind ← incomingBytes incoming (hl + 5 + blockLength) (payloadDataLength.toNat - 5 - blockLength)
        let second ← PacketData.zero.store 0 behind
        return some (⟨seqNum, stale, isFec, ⟨.ofNat blockLength, data⟩⟩,
          some ⟨seqNum, stale, true, ⟨.ofNat behind.length, second⟩⟩)
      else do
        let payload ← incomingBytes incoming (hl + redHeaderLength) (payloadDataLength.toNat - redHeaderLength)
        if isFec then do
          let data ← PacketData.zero.store 0 payload
          let ssrc ← incomingBytes incoming 8 4
          return some (⟨seqNum, bufferToUWord32 ssrc, isFec, ⟨.ofNat payload.length, data⟩⟩, none)
        else do
          let data ← mediaData header incoming payloadType payload
          let length := header.headerLength + payloadDataLength - .ofNat redHeaderLength
          return some (⟨seqNum, stale, isFec, ⟨length, data⟩⟩, none)

/-- `AddReceivedRedPacket`, and whether it returns 0. -/
def addReceivedRedPacket (r : FecReceiverImpl) (header : RTPHeader) (incoming : List UInt8) (ulpfecPayloadType : UInt8)
    (stale : UInt32) : Checked (FecReceiverImpl × Bool) := do
  let blocks ← redBlocks header incoming ulpfecPayloadType stale
  match blocks with
  | none => return (r, false)
  | some (first, second) =>
      if first.pkt.length = 0 then return (r, true)
      else return ({ r with receivedPacketList := r.receivedPacketList ++ first :: second.toList }, true)

/-- What the callback copies out of the array of a packet. -/
def onRecoveredPacket (packet : Packet) : Checked (List UInt8) := packet.data.load 0 packet.length.toNat

/-- The callback for a packet, unless the receiver passes over it. -/
def handOn (passOver : Bool) (packet : Packet) : Checked (List (List UInt8)) :=
  if passOver then .ok [] else (onRecoveredPacket packet).map fun bytes => [bytes]

/-- The callbacks for the recovered packets that have not been returned. -/
def returnRecovered : List RecoveredPacket → Checked (List (List UInt8))
  | [] => .ok []
  | packet :: rest => do
      let here ← handOn packet.returned packet.pkt
      let others ← returnRecovered rest
      return here ++ others

/-- `ProcessReceivedFec` with the packets it calls back for. -/
def processReceivedFec (r : FecReceiverImpl) : Checked (FecReceiverImpl × List (List UInt8)) := do
  let decoded ← match r.receivedPacketList with
    | [] => .ok ((r.fec, r.recoveredPacketList), [])
    | front :: rest => do
        let handed ← handOn front.isFec front.pkt
        let decoded ← r.fec.decodeFec (front :: rest) r.recoveredPacketList
        .ok (decoded, handed)
  let returned ← returnRecovered decoded.1.2
  let recoveredPacketList := decoded.1.2.map fun packet => { packet with returned := true }
  return (⟨decoded.1.1, [], recoveredPacketList⟩, decoded.2 ++ returned)

/-- What the callers do with a RED packet. -/
def receiveRed (r : FecReceiverImpl) (buf : List UInt8) (stale : Nat → UInt8) (staleSsrc : UInt32) :
    Checked (FecReceiverImpl × List (List UInt8)) := do
  let header : RTPHeader := ⟨.ofNat (getHeaderLength buf stale), getSeqNumber buf⟩
  let added ← r.addReceivedRedPacket header buf ulpPT staleSsrc
  if added.2 then added.1.processReceivedFec else return (added.1, [])

end FecReceiverImpl

end Licode.Media.Fec
