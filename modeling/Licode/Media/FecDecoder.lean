import Licode.Media.ForwardErrorCorrection

/-!
# The FEC decoder and its receiver

The decoder keeps the media packets that it knows, and the FEC packets with a list of the packets that
each protects. The entries of such a list point to the packets that are known. `FecReceiverImpl` takes
the media and the FEC packets out of RED packets, hands on the media packet at once and what
is recovered after it.

A pointer to a packet is the packet itself: nobody writes to one that is shared. `std::list::sort` is
stable, and so is the merge sort in its place.
-/

namespace Licode.Media.Fec

open Overlay

structure ReceivedPacket where
  seqNum : UInt16
  ssrc : UInt32
  isFec : Bool
  pkt : Packet
  deriving DecidableEq

structure RecoveredPacket where
  seqNum : UInt16
  wasRecovered : Bool
  returned : Bool
  pkt : Packet
  deriving DecidableEq

/-- `pkt` is `none` where the packet is missing. -/
structure ProtectedPacket where
  seqNum : UInt16
  pkt : Option Packet
  deriving DecidableEq

structure FecPacket where
  seqNum : UInt16
  protectedPktList : List ProtectedPacket
  ssrc : UInt32
  pkt : Packet
  deriving DecidableEq

/-! ### Recovery -/

/-- A packet that is being recovered, with the two bytes of its `length_recovery`. -/
structure Recovery where
  data : PacketData
  lengthRecovery : List UInt8
  seqNum : UInt16

def initRecovery (fec : FecPacket) : Checked Recovery := do
  let protectionLength := bufferToUWord16 (read fec.pkt.data.bytes 10 2)
  let field ← fec.pkt.data.load (kFecHeaderSize + ulpHeaderSize (lBitSet fec.pkt)) protectionLength.toNat
  let data ← PacketData.zero.store kRtpHeaderSize field
  let data ← data.store 0 (read fec.pkt.data.bytes 0 2)
  let data ← data.store 4 (read fec.pkt.data.bytes 4 4)
  let data ← data.store 8 (assignUWord32 fec.ssrc)
  return { data, lengthRecovery := read fec.pkt.data.bytes 8 2, seqNum := 0 }

def xorPackets (src : Packet) (dst : Recovery) : Checked Recovery := do
  let data ← PacketData.xorBytes src.data 0 0 2 dst.data
  let data ← PacketData.xorBytes src.data 0 4 4 data
  let mediaPayloadLength := assignUWord16 (src.length - .ofNat kRtpHeaderSize)
  let lengthRecovery := List.zipWith (· ^^^ ·) dst.lengthRecovery mediaPayloadLength
  let data ← PacketData.xorBytes src.data 0 kRtpHeaderSize (src.length.toNat - kRtpHeaderSize) data
  return { dst with data, lengthRecovery }

def finishRecovery (recovered : Recovery) : Checked RecoveredPacket := do
  let data ← recovered.data.store 0 [(recovered.data.cell 0 ||| 0x80) &&& 0xbf]
  let data ← data.store 2 (assignUWord16 recovered.seqNum)
  let length := bufferToUWord16 recovered.lengthRecovery + .ofNat kRtpHeaderSize
  return { seqNum := recovered.seqNum, wasRecovered := true, returned := false, pkt := { length, data } }

/-- The loop of `RecoverPacket` over the packets that are protected. -/
def recoverFrom (recovery : Recovery) : List ProtectedPacket → Checked Recovery
  | [] => .ok recovery
  | p :: rest => do
      let recovery ← match p.pkt with
        | none => .ok { recovery with seqNum := p.seqNum }
        | some pkt => xorPackets pkt recovery
      recoverFrom recovery rest

def recoverPacket (fec : FecPacket) : Checked RecoveredPacket := do
  let recovery ← initRecovery fec
  let recovery ← recoverFrom recovery fec.protectedPktList
  finishRecovery recovery

/-- The count stops at 2. -/
def numCoveredPacketsMissing (fec : FecPacket) : Nat :=
  min 2 (fec.protectedPktList.countP fun p => p.pkt.isNone)

/-! ### The lists -/

/-- `RecoveredPacketList::sort`. -/
def sortRecovered (packets : List RecoveredPacket) : List RecoveredPacket :=
  packets.mergeSort fun first second => !lessThan second.seqNum first.seqNum

/-- `FecPacketList::sort`. -/
def sortFec (packets : List FecPacket) : List FecPacket :=
  packets.mergeSort fun first second => !lessThan second.seqNum first.seqNum

def discardOldPackets (recovered : List RecoveredPacket) : List RecoveredPacket :=
  recovered.drop (recovered.length - kMaxMediaPackets)

/-- `UpdateCoveringFECPackets`, for one FEC packet. -/
def FecPacket.update (fec : FecPacket) (packet : RecoveredPacket) : FecPacket :=
  let i := SortedRange.lowerBound (fun p => lessThan p.seqNum packet.seqNum) fec.protectedPktList
  match fec.protectedPktList[i]? with
  | none => fec
  | some p =>
      if p.seqNum = packet.seqNum then
        { fec with protectedPktList := fec.protectedPktList.set i { p with pkt := some packet.pkt } }
      else fec

def updateCoveringFecPackets (fecs : List FecPacket) (packet : RecoveredPacket) : List FecPacket :=
  fecs.map fun fec => fec.update packet

@[simp]
theorem length_updateCoveringFecPackets (fecs : List FecPacket) (packet : RecoveredPacket) :
    (updateCoveringFecPackets fecs packet).length = fecs.length := List.length_map _

/-- The loops of `AssignRecoveredPackets`; the inner one does not ask whether it has come to the end. -/
def assignPackets : List ProtectedPacket → List RecoveredPacket → Checked (List ProtectedPacket)
  | ps, [] => .ok ps
  | [], _ :: _ => .error .outOfBounds
  | p :: ps, r :: rs =>
      if p.seqNum = r.seqNum then assignPackets ({ p with pkt := some r.pkt } :: ps) rs
      else do
        let ps ← assignPackets ps (r :: rs)
        return p :: ps
termination_by ps rs => ps.length + rs.length

def assignRecoveredPackets (fec : FecPacket) (recovered : List RecoveredPacket) : Checked FecPacket := do
  let alreadyRecovered := SortedRange.setIntersection (fun (r : RecoveredPacket) (p : ProtectedPacket) =>
    lessThan r.seqNum p.seqNum) (fun p r => lessThan p.seqNum r.seqNum) recovered fec.protectedPktList
  let protectedPktList ← assignPackets fec.protectedPktList alreadyRecovered
  return { fec with protectedPktList }

/-- The bits of the mask that are set, as distances from the base. -/
def maskOffsets (mask : List UInt8) : List Nat :=
  (List.range (8 * mask.length)).filter fun i => bitSet (mask.getD (i / 8) 0) (i % 8)

def Packet.mask (pkt : Packet) : List UInt8 := read pkt.data.bytes 12 (maskSize (lBitSet pkt))

/-- The packets that an FEC packet protects, with none of them known. -/
def protectedPackets (pkt : Packet) : List ProtectedPacket :=
  (maskOffsets pkt.mask).map fun i => ⟨parseSequenceNumber pkt + .ofNat i, none⟩

/-! ### The decoder -/

structure ForwardErrorCorrection where
  fecPacketList : List FecPacket
  fecPacketReceived : Bool

namespace ForwardErrorCorrection

def create : ForwardErrorCorrection := ⟨[], false⟩

/-- `ResetState`, which leaves no recovered packets. -/
def resetState (_ : ForwardErrorCorrection) : ForwardErrorCorrection := ⟨[], false⟩

def insertMediaPacket (f : ForwardErrorCorrection) (rx : ReceivedPacket) (recovered : List RecoveredPacket) :
    ForwardErrorCorrection × List RecoveredPacket :=
  if recovered.any fun r => r.seqNum = rx.seqNum then (f, recovered)
  else
    let packet : RecoveredPacket := { seqNum := rx.seqNum, wasRecovered := false, returned := true, pkt := rx.pkt }
    ({ f with fecPacketList := updateCoveringFecPackets f.fecPacketList packet }, sortRecovered (recovered ++ [packet]))

def insertFecPacket (f : ForwardErrorCorrection) (rx : ReceivedPacket) (recovered : List RecoveredPacket) :
    Checked ForwardErrorCorrection :=
  if f.fecPacketList.any fun fec => fec.seqNum = rx.seqNum then .ok { f with fecPacketReceived := true }
  else if protectedPackets rx.pkt = [] then .ok { f with fecPacketReceived := true }
  else do
    let fec ← assignRecoveredPackets
      { seqNum := rx.seqNum, ssrc := rx.ssrc, pkt := rx.pkt, protectedPktList := protectedPackets rx.pkt } recovered
    let fecs := sortFec (f.fecPacketList ++ [fec])
    return { fecPacketReceived := true, fecPacketList := if fecs.length > kMaxFecPackets then fecs.tail else fecs }

/-- The oldest FEC packet is discarded when a packet comes whose number is far from its own. -/
def discardOldest (f : ForwardErrorCorrection) (rx : ReceivedPacket) : ForwardErrorCorrection :=
  match f.fecPacketList with
  | [] => f
  | fec :: rest =>
      if ((rx.seqNum.toNat : Int) - fec.seqNum.toNat).natAbs > 0x3fff then { f with fecPacketList := rest } else f

def insertPacket (f : ForwardErrorCorrection) (rx : ReceivedPacket) (recovered : List RecoveredPacket) :
    Checked (ForwardErrorCorrection × List RecoveredPacket) :=
  let f := f.discardOldest rx
  if rx.isFec then do
    let f ← f.insertFecPacket rx recovered
    return (f, recovered)
  else .ok (f.insertMediaPacket rx recovered)

/-- The loop of `InsertPackets`. -/
def insertAll : ForwardErrorCorrection → List ReceivedPacket → List RecoveredPacket →
    Checked (ForwardErrorCorrection × List RecoveredPacket)
  | f, [], recovered => .ok (f, recovered)
  | f, rx :: rest, recovered => do
      let inserted ← f.insertPacket rx recovered
      insertAll inserted.1 rest inserted.2

def insertPackets (f : ForwardErrorCorrection) (received : List ReceivedPacket) (recovered : List RecoveredPacket) :
    Checked (ForwardErrorCorrection × List RecoveredPacket) := do
  let inserted ← f.insertAll received recovered
  return (inserted.1, discardOldPackets inserted.2)

/-- The loop of `AttemptRecover`, which has come to the head of `rest` and starts again whenever it has recovered a
packet. -/
def attemptRecoverFrom (before rest : List FecPacket) (recovered : List RecoveredPacket) :
    Checked (List FecPacket × List RecoveredPacket) :=
  match rest with
  | [] => .ok (before, recovered)
  | fec :: rest =>
      if numCoveredPacketsMissing fec = 1 then do
        let packet ← recoverPacket fec
        let recovered := discardOldPackets (sortRecovered (recovered ++ [packet]))
        attemptRecoverFrom [] (updateCoveringFecPackets (before ++ rest) packet) recovered
      else if numCoveredPacketsMissing fec = 0 then attemptRecoverFrom before rest recovered
      else attemptRecoverFrom (before ++ [fec]) rest recovered
termination_by (before.length + rest.length, rest.length)
decreasing_by
  all_goals simp [Prod.lex_def]
  all_goals omega

def attemptRecover (f : ForwardErrorCorrection) (recovered : List RecoveredPacket) :
    Checked (ForwardErrorCorrection × List RecoveredPacket) := do
  let attempted ← attemptRecoverFrom [] f.fecPacketList recovered
  return ({ f with fecPacketList := attempted.1 }, attempted.2)

/-- Where the list of recovered packets is full, a big gap between it and the next packet resets the decoder. -/
def decodeFec (f : ForwardErrorCorrection) (received : List ReceivedPacket) (recovered : List RecoveredPacket) :
    Checked (ForwardErrorCorrection × List RecoveredPacket) := do
  let start ← if recovered.length = kMaxMediaPackets then
      match received.head?, recovered.getLast? with
      | some front, some back =>
          .ok (if ((front.seqNum.toNat : Int) - back.seqNum.toNat).natAbs > kMaxMediaPackets
            then (f.resetState, []) else (f, recovered))
      | _, _ => .error .outOfBounds
    else .ok (f, recovered)
  let inserted ← start.1.insertPackets received start.2
  inserted.1.attemptRecover inserted.2

end ForwardErrorCorrection

end Licode.Media.Fec
