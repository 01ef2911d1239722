import Licode.Media.Rtcp
import Mathlib.Logic.Function.Basic

/-!
# Statistics of a connection

What a connection counts about the RTCP packets it receives, by the SSRC of their sender. The listener
that is told after each packet has no part in what is read of it.
-/

namespace Licode.Media

open Rtcp

/-- The names of the statistics of a source. -/
inductive StatsKey where
  | packetsLost
  | fractionLost
  | rtcpPacketSent
  | rtcpBytesSent
  | jitter
  | bandwidth
  | sourceSsrc
  | pli
  | sli
  | fir
  | nack
  deriving DecidableEq, Repr

/-- `statsPacket_`: a statistic that was never set is not there. -/
structure Stats where
  statsPacket : UInt32 → StatsKey → Option UInt64

namespace Stats

def create : Stats := ⟨fun _ _ => none⟩

def set (s : Stats) (ssrc : UInt32) (key : StatsKey) (value : UInt64) : Stats :=
  ⟨Function.update s.statsPacket ssrc (Function.update (s.statsPacket ssrc) key (some value))⟩

/-- `accountPLIMessage` and its likes: the first message counts as one. -/
def account (s : Stats) (ssrc : UInt32) (key : StatsKey) : Stats :=
  s.set ssrc key (match s.statsPacket ssrc key with
    | some count => count + 1
    | none => 1)

def accountPLIMessage (s : Stats) (ssrc : UInt32) : Stats := s.account ssrc .pli
def accountSLIMessage (s : Stats) (ssrc : UInt32) : Stats := s.account ssrc .sli
def accountFIRMessage (s : Stats) (ssrc : UInt32) : Stats := s.account ssrc .fir
def accountNACKMessage (s : Stats) (ssrc : UInt32) : Stats := s.account ssrc .nack

def processReceiverReport (s : Stats) (ssrc : UInt32) (chead : List UInt8) : Checked Stats := do
  let fraction ← getFractionLost chead
  let lost ← getLostPackets chead
  let jitter ← getJitter chead
  let source ← getSourceSSRC chead
  return (((s.set ssrc .fractionLost fraction.toUInt64).set ssrc .packetsLost lost.toUInt64).set ssrc .jitter
    jitter.toUInt64).set ssrc .sourceSsrc source.toUInt64

def processSenderReport (s : Stats) (ssrc : UInt32) (chead : List UInt8) : Checked Stats := do
  let packets ← getPacketsSent chead
  let octets ← getOctetsSent chead
  return (s.set ssrc .rtcpPacketSent packets.toUInt64).set ssrc .rtcpBytesSent octets.toUInt64

def processPsFeedback (s : Stats) (ssrc : UInt32) (chead : List UInt8) : Checked Stats := do
  let fmt ← getBlockCount chead
  if fmt = pliFMT then return s.accountPLIMessage ssrc
  else if fmt = sliFMT then return s.accountSLIMessage ssrc
  else if fmt = firFMT then return s.accountFIRMessage ssrc
  else if fmt = afbFMT then
    let uniqueId ← load chead 12 4
    if uniqueId = rembId then
      let mantissa ← getBrMantis chead
      let exp ← getBrExp chead
      return s.set ssrc .bandwidth (mantissa <<< exp).toUInt64
    else return s
  else return s

/-- `processRtcpPacket` of one header. -/
def processRtcpHeader (s : Stats) (chead : List UInt8) : Checked Stats := do
  let ssrc ← getSSRC chead
  let type ← getPacketType chead
  if type = receiverPT then s.processReceiverReport ssrc chead
  else if type = senderPT then s.processSenderReport ssrc chead
  else if type = rtpFeedbackPT then return s.accountNACKMessage ssrc
  else if type = psFeedbackPT then s.processPsFeedback ssrc chead
  else return s

def processRtcpPacket (s : Stats) (buf : List UInt8) : Checked Stats :=
  scan processRtcpHeader buf.length buf.length s buf

end Stats

end Licode.Media
