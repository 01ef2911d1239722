import Licode.Lib.Overlay

/-!
# The send queue of a connection

`queueData` copies a packet into `sendQueue_`, and on the way gives it the payload type that the remote
side knows and, where one is asked for, another sequence number. The header is overlaid on the bytes
of the packet: on a little-endian machine the low bits of a byte belong to the first of its bit-fields,
and the numbers of more than one byte stand in network order.

Which payload types the remote side knows comes from its description, and is a parameter here.
-/

namespace Licode.Media

open Overlay

inductive PacketType where
  | video
  | audio
  | other
  deriving DecidableEq, Repr

/-! ### Headers -/

/-- The byte that is `packettype` in `RtcpHeader`, and `marker` and `payloadtype` in `RtpHeader`. -/
def typeByte (data : List UInt8) : UInt8 := data.getD 1 0

/-- `RtcpHeader::isFeedback`. -/
def isFeedback (data : List UInt8) : Bool :=
  typeByte data = 201 || typeByte data = 206 || typeByte data = 205

/-- `RtcpHeader::isRtcp`. -/
def isRtcp (data : List UInt8) : Bool :=
  typeByte data = 200 || typeByte data = 204 || isFeedback data

def getMarker (data : List UInt8) : Bool := typeByte data ≥ 128

def getPayloadType (data : List UInt8) : UInt8 := typeByte data % 128

def setPayloadType (data : List UInt8) (type : UInt8) : List UInt8 :=
  write data 1 [128 * (typeByte data / 128) + type % 128]

def getSeqNumber (data : List UInt8) : UInt16 := .ofNat (number (read data 2 2))

def setSeqNumber (data : List UInt8) (seqNumber : UInt16) : List UInt8 :=
  write data 2 (image 2 seqNumber.toNat)

@[simp]
theorem length_setPayloadType (data : List UInt8) (type : UInt8) :
    (setPayloadType data type).length = data.length :=
  length_write _ _ _

theorem getSeqNumber_setPayloadType (data : List UInt8) (type : UInt8) :
    getSeqNumber (setPayloadType data type) = getSeqNumber data := by
  rw [getSeqNumber, setPayloadType, read_write_after data 2 (by simp), getSeqNumber]

theorem getSeqNumber_setSeqNumber {data : List UInt8} (h : 4 ≤ data.length) (seqNumber : UInt16) :
    getSeqNumber (setSeqNumber data seqNumber) = seqNumber := by
  have hin : 2 + (image 2 seqNumber.toNat).length ≤ data.length := by
    rw [length_image]
    exact h
  have hread := read_write hin
  rw [length_image] at hread
  rw [getSeqNumber, setSeqNumber, hread, number_image seqNumber.toNat_lt, UInt16.ofNat_toNat]

/-! ### The queue -/

/-- `data` holds the first `length` bytes of the array in the source. -/
structure DataPacket where
  comp : Int32
  data : List UInt8
  type : PacketType
  deriving DecidableEq

/-- `pushed` is not in the source: the packets that were put in the queue, taken out since or not. -/
structure SendQueue where
  sending : Bool
  sendQueue : List DataPacket
  pushed : List DataPacket

namespace SendQueue

variable (externalPT : PacketType → UInt8 → UInt8)

def create : SendQueue := ⟨true, [], []⟩

/-- `changeDeliverPayloadType`; only video and audio have their own types outside. -/
def changeDeliverPayloadType (data : List UInt8) (type : PacketType) : List UInt8 :=
  if isRtcp data then data
  else
    let internal := getPayloadType data
    let external := if type = .other then internal else externalPT type internal
    if internal = external then data else setPayloadType data external

/-- The packet that `queueData` makes. A sequence number of 0 leaves it with its own. -/
def packetFor (comp : Int32) (buf : List UInt8) (type : PacketType) (seqNum : UInt16) : DataPacket :=
  let data := changeDeliverPayloadType externalPT buf type
  ⟨comp, if seqNum = 0 then data else setSeqNumber data seqNum, type⟩

/-- The packet that ends the send thread takes the place of all others. -/
def queueData (q : SendQueue) (comp : Int32) (buf : List UInt8) (type : PacketType) (seqNum : UInt16) :
    SendQueue :=
  if q.sending = false then q
  else if comp = -1 then { q with sending := false, sendQueue := [⟨-1, [], .other⟩] }
  else if q.sendQueue.length < 1000 then
    let packet := packetFor externalPT comp buf type seqNum
    { q with sendQueue := q.sendQueue ++ [packet], pushed := q.pushed ++ [packet] }
  else q

/-- What one turn of `sendLoop` does to the queue, where it finds a packet. -/
def takeFront (q : SendQueue) : SendQueue :=
  match q.sendQueue with
  | [] => q
  | packet :: rest =>
      if packet.comp = -1 then { q with sending := false, sendQueue := rest }
      else { q with sendQueue := rest }

variable {externalPT}

@[simp]
theorem length_changeDeliverPayloadType (data : List UInt8) (type : PacketType) :
    (changeDeliverPayloadType externalPT data type).length = data.length := by
  unfold changeDeliverPayloadType
  dsimp only
  split_ifs <;> simp

theorem getSeqNumber_changeDeliverPayloadType (data : List UInt8) (type : PacketType) :
    getSeqNumber (changeDeliverPayloadType externalPT data type) = getSeqNumber data := by
  unfold changeDeliverPayloadType
  dsimp only
  split_ifs
  · rfl
  all_goals first | rfl | exact getSeqNumber_setPayloadType _ _

@[simp]
theorem length_packetFor (comp : Int32) (buf : List UInt8) (type : PacketType) (seqNum : UInt16) :
    (packetFor externalPT comp buf type seqNum).data.length = buf.length := by
  unfold packetFor
  dsimp only
  split_ifs
  · exact length_changeDeliverPayloadType buf type
  · rw [setSeqNumber, length_write, length_changeDeliverPayloadType]

theorem getSeqNumber_packetFor (comp : Int32) {buf : List UInt8} (hsize : 4 ≤ buf.length)
    (type : PacketType) (seqNum : UInt16) :
    getSeqNumber (packetFor externalPT comp buf type seqNum).data
      = if seqNum = 0 then getSeqNumber buf else seqNum := by
  unfold packetFor
  dsimp only
  split_ifs
  · exact getSeqNumber_changeDeliverPayloadType _ _
  · exact getSeqNumber_setSeqNumber (by rwa [length_changeDeliverPayloadType]) _

theorem queueData_of_room {q : SendQueue} (hsending : q.sending = true)
    (hroom : q.sendQueue.length < 1000) (buf : List UInt8) (type : PacketType) (seqNum : UInt16) :
    q.queueData externalPT 0 buf type seqNum
      = { q with
          sendQueue := q.sendQueue ++ [packetFor externalPT 0 buf type seqNum]
          pushed := q.pushed ++ [packetFor externalPT 0 buf type seqNum] } := by
  rw [queueData, if_neg (by simp [hsending]), if_neg (by decide), if_pos hroom]

theorem queueData_of_not_sending {q : SendQueue} (h : q.sending = false) (comp : Int32)
    (buf : List UInt8) (type : PacketType) (seqNum : UInt16) :
    q.queueData externalPT comp buf type seqNum = q :=
  if_pos h

theorem sending_takeFront {q : SendQueue} (h : q.sending = false) : q.takeFront.sending = false := by
  unfold takeFront
  split
  · exact h
  · split_ifs
    · rfl
    · exact h

theorem sendQueue_takeFront (q : SendQueue) : q.takeFront.sendQueue <:+ q.sendQueue := by
  unfold takeFront
  split
  · exact List.suffix_refl _
  next packet rest hqueue =>
    rw [hqueue]
    split_ifs <;> exact List.suffix_cons packet rest

end SendQueue

end Licode.Media
