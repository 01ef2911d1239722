import Licode.Lib.Run
import Licode.Media.RtpVP8Fragmenter

/-!
# Recording of video

`ExternalOutput::writeVideoData` puts the frames together again that come in packets, and hands each
to `av_interleaved_write_frame`. It looks for the start of a frame or for its end, and begins anew where
a packet is missing.

`initContext` gets the stream of the output ready, as soon as the codecs are known. What libav makes of
the frames is outside of the model.
-/

namespace Licode.Media

open Overlay RtpVP8Parser

inductive Vp8SearchState where
  | lookingForStart
  | lookingForEnd
  deriving DecidableEq, Repr

/-- What is handed to `av_interleaved_write_frame`. -/
structure AVPacket where
  data : List UInt8
  pts : Int
  deriving DecidableEq

/-- `unpackagedBuffer` holds the bytes up to `unpackagedBufferpart_`, and `unpackagedSize_` is their number.
The stream is given by the denominator of its time base. `written` is not in the source. -/
structure ExternalOutput where
  vp8SearchState : Vp8SearchState
  unpackagedBuffer : List UInt8
  lastVideoSequenceNumber : UInt16
  firstVideoTimestamp : Int
  videoOffsetMsec : Int
  videoStream : Option Int
  written : List AVPacket
  deriving DecidableEq

namespace ExternalOutput

/-- The last number has no value before the first packet. -/
def create (lastVideoSequenceNumber : UInt16) (videoOffsetMsec : Int) : ExternalOutput where
  vp8SearchState := .lookingForStart
  unpackagedBuffer := []
  lastVideoSequenceNumber := lastVideoSequenceNumber
  firstVideoTimestamp := -1
  videoOffsetMsec := videoOffsetMsec
  videoStream := none
  written := []

/-- `UNPACKAGE_BUFFER_SIZE`. -/
def unpackageBufferSize : Nat := 200000

def clear (s : ExternalOutput) : ExternalOutput := { s with unpackagedBuffer := [] }

/-- `bufferCheck`, and the copy if there is enough buffer. -/
def copyPayload (s : ExternalOutput) (data : List UInt8) : Bool × ExternalOutput :=
  if data.length + s.unpackagedBuffer.length ≥ unpackageBufferSize then
    (false, { s.clear with vp8SearchState := .lookingForStart })
  else (true, { s with unpackagedBuffer := s.unpackagedBuffer ++ data })

/-- The bytes that `data` and `dataLength` of a parsed payload stand for. -/
def dataOf (payload : List UInt8) (vp8 : RTPPayloadVP8) : Option (List UInt8) := do
  let place ← vp8.data
  let length ← vp8.dataLength
  return read payload place length

/-- The switch of `writeVideoData`, with whether a frame is to be delivered. It is `none` where the data
is used and has no value. -/
def search (s : ExternalOutput) (startOfFrame endOfFrame : Bool) (data : Option (List UInt8)) :
    Option (Bool × ExternalOutput) :=
  match s.vp8SearchState, startOfFrame, endOfFrame with
  | .lookingForStart, true, true => do
      let data ← data
      return s.clear.copyPayload data
  | .lookingForStart, false, _ => some (false, s.clear)
  | .lookingForStart, true, false => do
      let data ← data
      let (copied, s) := s.copyPayload data
      return (false, if copied then { s with vp8SearchState := .lookingForEnd } else s)
  | .lookingForEnd, true, true => do
      let data ← data
      return copyPayload { s.clear with vp8SearchState := .lookingForStart } data
  | .lookingForEnd, false, false => do
      let data ← data
      return (false, (s.copyPayload data).2)
  | .lookingForEnd, true, false => do
      let data ← data
      return (false, (s.clear.copyPayload data).2)
  | .lookingForEnd, false, true => do
      let data ← data
      return copyPayload { s with vp8SearchState := .lookingForStart } data

/-- What comes with the number of a packet: one that does not follow the last discards what we have.
The numbers are compared as `int`s. -/
def notice (s : ExternalOutput) (buf : List UInt8) : ExternalOutput :=
  let current := getSeqNumber buf
  let s := if current.toNat ≠ s.lastVideoSequenceNumber.toNat + 1 then
    { s.clear with vp8SearchState := .lookingForStart } else s
  { s with
    lastVideoSequenceNumber := current
    firstVideoTimestamp :=
      if s.firstVideoTimestamp = -1 then (getTimestamp buf).toNat else s.firstVideoTimestamp }

/-- `timestampToWrite`. We only handle a single wrap around. -/
def timestampToWrite (s : ExternalOutput) (timestamp : UInt32) (den : Int) : Int :=
  let current : Int := if (timestamp.toNat : Int) - s.firstVideoTimestamp < 0 then timestamp.toNat + 0xFFFFFFFF
    else timestamp.toNat
  (current - s.firstVideoTimestamp).tdiv ((90000 : Int).tdiv den)
    + s.videoOffsetMsec.tdiv ((1000 : Int).tdiv den)

/-- What is done with a frame, if there is a stream to write it to. -/
def deliver (s : ExternalOutput) (timestamp : UInt32) : ExternalOutput :=
  match s.videoStream with
  | none => s
  | some den =>
      { s.clear with written := s.written ++ [⟨s.unpackagedBuffer, s.timestampToWrite timestamp den⟩] }

/-- `writeVideoData`. `opened` is the stream, if this call of `initContext` gets it ready. -/
def writeVideoData (s : ExternalOutput) (buf : List UInt8) (stale : Nat → UInt8) (opened : Option Int) :
    Option ExternalOutput := do
  let payload := payloadOf buf stale
  let vp8 := parseVP8 payload (stale (getHeaderLength buf stale))
  let (frame, s) ← (s.notice buf).search vp8.beginningOfPartition (getMarker buf) (dataOf payload vp8)
  let s := { s with videoStream := s.videoStream.or opened }
  return if frame then s.deliver (getTimestamp buf) else s

end ExternalOutput

end Licode.Media
