import Licode.Media.Rtcp
import Mathlib.Data.List.Sort
import Mathlib.Logic.Function.Basic

/-!
# Aggregation of RTCP feedback

`RtcpAggregator::analyzeFeedback` gathers what subscribers report about a source, for reports that the
connection makes itself. All sub-packets of a compound packet are counted for the source that the first
of them names.
-/

namespace Licode.Media

open Overlay Rtcp

/-- `struct timeval`: seconds and microseconds. -/
structure Timeval where
  sec : Nat
  usec : Nat
  deriving DecidableEq, Repr

instance : Zero Timeval := ⟨⟨0, 0⟩⟩

/-- `(tv_sec * 1000) + (tv_usec / 1000)`. -/
def Timeval.ms (t : Timeval) : UInt64 := .ofNat (t.sec * 1000 + t.usec / 1000)

/-- `srNtp` and the time at which the report came. -/
structure SrData where
  srNtp : UInt32
  timestamp : Timeval

/-- The members of `RtcpData` that feedback is gathered in. -/
structure RtcpData where
  rrsReceivedInPeriod : UInt16 := 0
  totalPacketsLost : UInt32 := 0
  ratioLost : UInt8 := 0
  highestSeqNumReceived : UInt16 := 0
  seqNumCycles : UInt16 := 0
  extendedSeqNo : UInt32 := 0
  lastSr : UInt32 := 0
  reportedBandwidth : UInt64 := 0
  delaySinceLastSr : UInt32 := 0
  lastDelay : UInt32 := 0
  jitter : UInt32 := 0
  nackSeqnum : UInt16 := 0
  nackBlp : UInt16 := 0
  lastSrUpdated : Timeval := 0
  shouldSendPli : Bool := false
  shouldSendREMB : Bool := false
  shouldSendNACK : Bool := false
  requestRr : Bool := false
  isAudio : Bool := false
  senderReports : List SrData := []
  nackedPackets : List UInt32 := []

structure RtcpAggregator where
  audioSourceSSRC : UInt32
  defaultVideoBw : UInt32
  rtcpData : UInt32 → Option RtcpData

namespace RtcpData

/-- `nackedPackets_.insert`, with whether the number is new; the set is kept in its order. -/
def insertNacked (d : RtcpData) (number : UInt32) : Bool × RtcpData :=
  if number ∈ d.nackedPackets then (false, d)
  else (true, { d with nackedPackets := d.nackedPackets.orderedInsert (· ≤ ·) number })

/-- The loop that erases the smallest numbers until there are fewer than `MAP_NACK_SIZE`. -/
def trimNacked (d : RtcpData) : RtcpData :=
  { d with nackedPackets := d.nackedPackets.drop (d.nackedPackets.length - 49) }

/-- The time between a sender report and now, less the time it was held back; the last report that matches
decides, and without one the variable stays as it was. -/
def delayOf (d : RtcpData) (now : Timeval) (lastSr calculatedlsr delay : UInt32) : UInt32 :=
  d.senderReports.foldl
    (fun delay report =>
      if report.srNtp = lastSr then (now.ms - report.timestamp.ms - calculatedlsr.toUInt64).toUInt32 else delay) delay

/-- What is made of the first block of a receiver report, with the variable `delay` of the function. -/
def takeReport (now : Timeval) (d : RtcpData) (delay : UInt32) (fraction : UInt8) (lost : UInt32) (cycles highest : Nat)
    (jitter lastSr delaySinceLastSr : UInt32) : RtcpData × UInt32 :=
  let d := { d with
    rrsReceivedInPeriod := d.rrsReceivedInPeriod + 1
    ratioLost := if d.ratioLost > fraction then d.ratioLost else fraction
    totalPacketsLost := if d.totalPacketsLost > lost then d.totalPacketsLost else lost
    jitter := if d.jitter > jitter then d.jitter else jitter }
  let extendedSeqNo : UInt32 := (UInt32.ofNat cycles <<< 16) + .ofNat highest
  let d :=
    if extendedSeqNo > d.extendedSeqNo then
      { d with extendedSeqNo, highestSeqNumReceived := .ofNat highest, seqNumCycles := .ofNat cycles }
    else d
  let delay := d.delayOf now lastSr (delaySinceLastSr * 1000 / 65536) delay
  if d.lastSr = 0 ∨ d.lastDelay < delay then
    ({ d with lastSr, delaySinceLastSr, lastSrUpdated := now, lastDelay := delay }, delay)
  else (d, delay)

/-- The case of a receiver report. The source is compared with that of the video for the log only. -/
def receiverReport (now : Timeval) (d : RtcpData) (delay : UInt32) (chead : List UInt8) :
    Checked (RtcpData × UInt32) := do
  let _ ← getSourceSSRC chead
  let fraction ← getFractionLost chead
  let lost ← getLostPackets chead
  let cycles ← getSeqnumCycles chead
  let highest ← getHighestSeqnum chead
  let jitter ← getJitter chead
  let lastSr ← getLastSr chead
  let delaySinceLastSr ← getDelaySinceLastSr chead
  return takeReport now d delay fraction lost cycles highest jitter lastSr delaySinceLastSr

/-- A bit of `blp` stands for one of the sixteen numbers behind the first. -/
def nackFollower (pid : UInt32) (blp : UInt16) (d : RtcpData) (i : Nat) : RtcpData :=
  if blp.toNat / 2 ^ i % 2 = 1 then
    let (isNew, d) := d.insertNacked (pid + 1 + .ofNat i)
    { d with shouldSendNACK := d.shouldSendNACK || isNew }
  else d

/-- What is made of the first entry of transport-layer feedback. -/
def takeNack (d : RtcpData) (pid : Nat) (blp : UInt16) : RtcpData :=
  let (isNew, d) := { d with shouldSendNACK := false }.insertNacked (.ofNat pid)
  let d := if isNew then { d with shouldSendNACK := true } else d.trimNacked
  let d := if blp ≠ 0 then (List.range 16).foldl (nackFollower (.ofNat pid) blp) d else d
  if d.shouldSendNACK then { d with nackSeqnum := .ofNat pid, nackBlp := blp, requestRr := true } else d

/-- The case of transport-layer feedback. -/
def rtpFeedback (d : RtcpData) (chead : List UInt8) : Checked RtcpData := do
  let blp ← getNackBlp chead
  let pid ← getNackPid chead
  return d.takeNack pid blp

/-- What is made of the bit rate of a REMB message. -/
def takeBitrate (defaultVideoBw : UInt32) (d : RtcpData) (bitrate : UInt64) : RtcpData :=
  if bitrate < defaultVideoBw.toUInt64 then { d with reportedBandwidth := bitrate, shouldSendREMB := true }
  else { d with reportedBandwidth := defaultVideoBw.toUInt64 }

/-- The case of payload-specific feedback. -/
def psFeedback (defaultVideoBw : UInt32) (d : RtcpData) (chead : List UInt8) : Checked RtcpData := do
  let fmt ← getBlockCount chead
  if fmt = pliFMT then return { d with shouldSendPli := true }
  else if fmt = afbFMT then
    let uniqueId ← load chead 12 4
    if uniqueId = rembId then
      let mantissa ← getBrMantis chead
      let exp ← getBrExp chead
      return takeBitrate defaultVideoBw d (mantissa <<< exp).toUInt64
    else return d
  else return d

/-- The body of the loop of `analyzeFeedback`. -/
def visit (defaultVideoBw : UInt32) (now : Timeval) (s : RtcpData × UInt32) (chead : List UInt8) :
    Checked (RtcpData × UInt32) := do
  let type ← getPacketType chead
  if type = receiverPT then receiverReport now s.1 s.2 chead
  else if type = rtpFeedbackPT then
    let d ← s.1.rtpFeedback chead
    return (d, s.2)
  else if type = psFeedbackPT then
    let d ← s.1.psFeedback defaultVideoBw chead
    return (d, s.2)
  else return s

end RtcpData

namespace RtcpAggregator

/-- The data of a source, made if there is none. -/
def addSourceSsrc (a : RtcpAggregator) (ssrc : UInt32) : RtcpData :=
  (a.rtcpData ssrc).getD { isAudio := ssrc = a.audioSourceSSRC }

/-- `RtcpAggregator::analyzeFeedback`; `delay` is a variable that has no value at first. -/
def analyzeFeedback (a : RtcpAggregator) (now : Timeval) (delay : UInt32) (buf : List UInt8) :
    Checked RtcpAggregator := do
  let type ← getPacketType buf
  if type = receiverPT ∨ type = psFeedbackPT ∨ type = rtpFeedbackPT then
    let count ← getBlockCount buf
    let length ← rtcpLength buf
    if count = 0 ∧ length = buf.length then return a
    let sourceSsrc ← getSourceSSRC buf
    let (theData, _) ← scan (RtcpData.visit a.defaultVideoBw now) buf.length buf.length
      (a.addSourceSsrc sourceSsrc, delay) buf
    return { a with rtcpData := Function.update a.rtcpData sourceSsrc (some theData) }
  else return a

end RtcpAggregator

end Licode.Media
