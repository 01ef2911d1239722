import Licode.Media.RtcpAggregator
import Licode.Media.SubPackets
import Licode.Lib.Outcome
import Licode.Lib.Run

/-!
# Reports of the connection itself

`RtcpAggregator::checkRtcpFb` makes a receiver report of what has been gathered about a source, with a
NACK and a REMB message behind it where they are wanted. It divides integers and converts the quotient
to a byte, which C++ gives no meaning to for some of the values; such a run has a fault of its own.
-/

namespace Licode.Media

open Overlay Rtcp

/-- What C++ does not define of the arithmetic of a report. -/
inductive ReportFault where
  | divisionByZero
  | conversion
  deriving DecidableEq, Repr

/-- The members of `RtcpData` that are about what has been sent. -/
structure RtcpSent where
  prevTotalPacketsLost : UInt32 := 0
  prevExtendedSeqNo : UInt32 := 0
  nextPacketInMs : UInt32 := 0
  lastREMBSent : Timeval := 0
  lastRrWasScheduled : Timeval := 0
  lastRrSent : Timeval := 0
  shouldReset : Bool := false

/-- The rest of the aggregator. Its sink and its source give the SSRCs. -/
structure RtcpReporter where
  gathered : RtcpAggregator
  maxVideoBw : UInt32
  videoSourceSSRC : UInt32
  audioSinkSSRC : UInt32
  videoSinkSSRC : UInt32
  sent : UInt32 → RtcpSent

/-- What a check hands to the sink, and what it asks of the source. -/
inductive RtcpOut where
  | deliverVideoData (packet : List UInt8)
  | deliverAudioData (packet : List UInt8)
  | sendPLI
  deriving DecidableEq, Repr

/-- The difference of two times in milliseconds, by seconds and by microseconds. -/
def Timeval.msSince (now t : Timeval) : Int :=
  ((now.sec : Int) - t.sec) * 1000 + ((now.usec : Int) - t.usec).tdiv 1000

def rembTimeout : UInt32 := 1000

namespace RtcpData

/-- `rtcpHead.setFractionLost(ratio*256)`: the quotient is one of integers before it is a `double`, and a `double`
from 256 on is not converted to a byte. -/
def fractionLost (packetsLostInInterval packetsReceivedInInterval : UInt32) : Except ReportFault UInt8 :=
  if packetsReceivedInInterval = 0 then .error .divisionByZero
  else
    let ratio := packetsLostInInterval.toNat / packetsReceivedInInterval.toNat
    if ratio * 256 < 256 then .ok (.ofNat (ratio * 256)) else .error .conversion

/-- The time that is added to the delay that was recorded. -/
def delayAdjusted (d : RtcpData) (now : Timeval) : UInt32 :=
  let edlsr := UInt32.ofInt (now.msSince d.lastSrUpdated)
  d.delaySinceLastSr + edlsr * 65536 / 1000

/-- The bytes of the receiver report. -/
def receiverReportBytes (d : RtcpData) (sinkSsrc sourceSsrc : UInt32) (fraction : UInt8) (delay : UInt32) :
    List UInt8 :=
  [0x81, 201] ++ image 2 7 ++ image 4 sinkSsrc.toNat ++ image 4 sourceSsrc.toNat ++ [fraction]
    ++ image 3 d.totalPacketsLost.toNat ++ image 2 d.seqNumCycles.toNat ++ image 2 d.highestSeqNumReceived.toNat
    ++ image 4 d.jitter.toNat ++ image 4 d.lastSr.toNat ++ image 4 delay.toNat

/-- `RtcpAggregator::resetData`. -/
def reset (d : RtcpData) (bandwidth : UInt32) : RtcpData :=
  { d with
    ratioLost := 0
    requestRr := false
    jitter := 0
    rrsReceivedInPeriod := 0
    reportedBandwidth :=
      if d.reportedBandwidth > bandwidth.toUInt64 then bandwidth.toUInt64 else d.reportedBandwidth
    lastDelay := .ofNat (d.lastDelay.toNat * 3 / 5) }

end RtcpData

namespace RtcpReporter

/-- `RtcpAggregator::addNACK`. -/
def addNACK (seqNum blp : UInt16) (sourceSsrc sinkSsrc : UInt32) : List UInt8 :=
  [0x81, 205] ++ image 2 3 ++ image 4 sinkSsrc.toNat ++ image 4 sourceSsrc.toNat ++ image 2 seqNum.toNat
    ++ (image 2 blp.toNat).reverse

/-- `RtcpAggregator::addREMB`, which takes a bit rate of 32 bits. -/
def addREMB (r : RtcpReporter) (bitrate : UInt32) : List UInt8 :=
  [0x8F, 206] ++ image 2 5 ++ image 4 r.videoSinkSSRC.toNat ++ image 4 r.videoSourceSSRC.toNat ++ rembId ++ [1]
    ++ rembField bitrate.toUInt64 ++ image 4 r.videoSourceSSRC.toNat

/-- The condition under which a report is made. -/
def Due (now : Timeval) (d : RtcpData) (s : RtcpSent) : Prop :=
  (d.requestRr = true ∨ UInt32.ofInt (now.msSince s.lastRrSent) ≥ s.nextPacketInMs ∨ d.shouldSendREMB = true)
    ∧ d.lastSr > 0

instance (now : Timeval) (d : RtcpData) (s : RtcpSent) : Decidable (Due now d s) := inferInstanceAs (Decidable (_ ∧ _))

/-- The SSRCs of the sink and the source for a report. -/
def addresses (r : RtcpReporter) (sourceSsrc : UInt32) : UInt32 × UInt32 :=
  if sourceSsrc = r.gathered.audioSourceSSRC then (r.audioSinkSSRC, r.gathered.audioSourceSSRC)
  else (r.videoSinkSSRC, r.videoSourceSSRC)

/-- The NACK message, where there is one to send. -/
def appendNACK (r : RtcpReporter) (sourceSsrc : UInt32) (d : RtcpData) (packet : List UInt8) : RtcpData × List UInt8 :=
  if d.shouldSendNACK = true then
    ({ d with shouldSendNACK := false, nackSeqnum := 0, nackBlp := 0 },
      packet ++ addNACK d.nackSeqnum d.nackBlp sourceSsrc (r.addresses sourceSsrc).1)
  else (d, packet)

/-- The REMB message of a video source, where one is wanted or none has been sent for long. -/
def appendREMB (r : RtcpReporter) (now : Timeval) (d : RtcpData) (s : RtcpSent) (packet : List UInt8) :
    RtcpData × RtcpSent × List UInt8 :=
  if d.isAudio = true then (d, s, packet)
  else if d.shouldSendREMB = true ∨ UInt32.ofInt (now.msSince s.lastREMBSent) > rembTimeout then
    ({ d with shouldSendREMB := false }, { s with lastREMBSent := now },
      packet ++ r.addREMB d.reportedBandwidth.toUInt32)
  else (d, s, packet)

/-- What is noted of a report that has been sent, with the time `next` that is drawn for the next one. -/
def schedule (r : RtcpReporter) (now : Timeval) (next : UInt32) (d : RtcpData) (s : RtcpSent) : RtcpData × RtcpSent :=
  let shouldReset := s.shouldReset || decide (UInt32.ofInt (now.msSince s.lastRrWasScheduled) > s.nextPacketInMs)
  let sent : RtcpSent := { s with lastRrSent := now, lastRrWasScheduled := now, nextPacketInMs := next, shouldReset := false }
  if shouldReset = true then (d.reset r.gathered.defaultVideoBw, sent) else (d, sent)

/-- The report on a source whose lost packets make `fraction`, with what is appended to it and noted of it. -/
def reportWith (r : RtcpReporter) (now : Timeval) (next : UInt32) (sourceSsrc : UInt32) (d : RtcpData) (s : RtcpSent)
    (fraction : UInt8) : RtcpData × RtcpSent × List UInt8 :=
  let addresses := r.addresses sourceSsrc
  let packet := d.receiverReportBytes addresses.1 addresses.2 fraction (d.delayAdjusted now)
  let nack := r.appendNACK sourceSsrc { d with requestRr := false } packet
  let remb := r.appendREMB now nack.1
    { s with prevTotalPacketsLost := d.totalPacketsLost, prevExtendedSeqNo := d.extendedSeqNo } nack.2
  let scheduled := r.schedule now next remb.1 remb.2.1
  (scheduled.1, scheduled.2, remb.2.2)

/-- The report on a source. -/
def report (r : RtcpReporter) (now : Timeval) (next : UInt32) (sourceSsrc : UInt32) (d : RtcpData) (s : RtcpSent) :
    Except ReportFault (RtcpData × RtcpSent × List UInt8) := do
  let fraction ← RtcpData.fractionLost (d.totalPacketsLost - s.prevTotalPacketsLost)
    (d.extendedSeqNo - s.prevExtendedSeqNo)
  return r.reportWith now next sourceSsrc d s fraction

/-- The report on a source for which one is due, on its way. -/
def deliver (r : RtcpReporter) (now : Timeval) (next : UInt32) (ssrc : UInt32) (d : RtcpData) (s : RtcpSent) :
    Except ReportFault (RtcpData × RtcpSent × List RtcpOut) :=
  if Due now d s then do
    let (d, s, packet) ← r.report now next ssrc d s
    return (d, s, [if ssrc = r.videoSourceSSRC then .deliverVideoData packet else .deliverAudioData packet])
  else .ok (d, s, [])

/-- The body of the loop of `checkRtcpFb`. -/
def checkSource (r : RtcpReporter) (now : Timeval) (next : UInt32) (ssrc : UInt32) (d : RtcpData) (s : RtcpSent) :
    Except ReportFault (RtcpData × RtcpSent × List RtcpOut) := do
  let (d, s, out) ← r.deliver now next ssrc d s
  return ({ d with shouldSendPli := false }, s, out ++ if d.shouldSendPli = true then [.sendPLI] else [])

def setData (r : RtcpReporter) (ssrc : UInt32) (d : RtcpData) : RtcpReporter :=
  { r with gathered := { r.gathered with rtcpData := Function.update r.gathered.rtcpData ssrc (some d) } }

def setSource (r : RtcpReporter) (ssrc : UInt32) (d : RtcpData) (s : RtcpSent) : RtcpReporter :=
  { r.setData ssrc d with sent := Function.update r.sent ssrc s }

/-- `RtcpAggregator::checkRtcpFb` over the keys of the map in their order; `next` gives what is drawn for a source. -/
def checkRtcpFb (r : RtcpReporter) (now : Timeval) (next : UInt32 → UInt32) :
    List UInt32 → Except ReportFault (RtcpReporter × List RtcpOut)
  | [] => .ok (r, [])
  | ssrc :: ssrcs =>
      match r.gathered.rtcpData ssrc with
      | none => r.checkRtcpFb now next ssrcs
      | some d => do
          let (d, s, out) ← r.checkSource now (next ssrc) ssrc d (r.sent ssrc)
          let (r, more) ← (r.setSource ssrc d s).checkRtcpFb now next ssrcs
          return (r, out ++ more)

/-- `RtcpAggregator::addSourceSsrc`. -/
def addSourceSsrc (r : RtcpReporter) (ssrc : UInt32) : RtcpReporter :=
  r.setData ssrc (r.gathered.addSourceSsrc ssrc)

def setMaxVideoBW (r : RtcpReporter) (bandwidth : UInt32) : RtcpReporter := { r with maxVideoBw := bandwidth }

/-- `bandwidth*1.2`, and no more than the greatest. -/
def setPublisherBW (r : RtcpReporter) (bandwidth : UInt32) : RtcpReporter :=
  { r with gathered := { r.gathered with
      defaultVideoBw :=
        if bandwidth.toNat * 6 > r.maxVideoBw.toNat * 5 then r.maxVideoBw else .ofNat (bandwidth.toNat * 6 / 5) } }

/-- `getNtpTimestamp`, of whose 64 bits the middle ones are kept. -/
def ntpMiddle (chead : List UInt8) : Checked UInt32 := do
  let ntp ← load chead 8 8
  return .ofNat (number ntp / 2 ^ 16)

/-- The last 20 sender reports are kept. -/
def keepReport (reports : List SrData) (report : SrData) : List SrData :=
  let reports := reports ++ [report]
  if reports.length > 20 then reports.tail else reports

/-- `RtcpAggregator::analyzeSr`. -/
def analyzeSr (r : RtcpReporter) (now : Timeval) (chead : List UInt8) : Checked RtcpReporter := do
  let recvSSRC ← getSSRC chead
  let srNtp ← ntpMiddle chead
  let theData := r.gathered.addSourceSsrc recvSSRC
  return r.setData recvSSRC { theData with senderReports := keepReport theData.senderReports ⟨srNtp, now⟩ }

def analyzeFeedback (r : RtcpReporter) (now : Timeval) (delay : UInt32) (buf : List UInt8) : Checked RtcpReporter := do
  let gathered ← r.gathered.analyzeFeedback now delay buf
  return { r with gathered }

/-- A new aggregator. -/
def create (maxVideoBw audioSourceSSRC videoSourceSSRC audioSinkSSRC videoSinkSSRC : UInt32) : RtcpReporter where
  gathered := ⟨audioSourceSSRC, maxVideoBw / 2, fun _ => none⟩
  maxVideoBw := maxVideoBw
  videoSourceSSRC := videoSourceSSRC
  audioSinkSSRC := audioSinkSSRC
  videoSinkSSRC := videoSinkSSRC
  sent := fun _ => {}

end RtcpReporter

/-! ### Runs -/

/-- The keys of the map in their order, in which the loop of `checkRtcpFb` goes. -/
structure KeysOf (rtcpData : UInt32 → Option RtcpData) (ssrcs : List UInt32) : Prop where
  sorted : ssrcs.Pairwise (· < ·)
  mem_iff : ∀ ssrc, ssrc ∈ ssrcs ↔ (rtcpData ssrc).isSome = true

theorem KeysOf.nodup {rtcpData : UInt32 → Option RtcpData} {ssrcs : List UInt32} (h : KeysOf rtcpData ssrcs) :
    ssrcs.Nodup :=
  h.sorted.imp fun hlt => UInt32.ne_of_lt hlt

/-- The operations, each with the time at which it is called and the values that it finds by chance. -/
inductive RtcpEvent where
  | addSourceSsrc (ssrc : UInt32)
  | setMaxVideoBW (bandwidth : UInt32)
  | setPublisherBW (bandwidth : UInt32)
  | analyzeSr (now : Timeval) (chead : List UInt8)
  | analyzeFeedback (now : Timeval) (delay : UInt32) (buf : List UInt8)
  | checkRtcpFb (now : Timeval) (next : UInt32 → UInt32) (ssrcs : List UInt32)

namespace RtcpReporter

/-- An operation that returns. -/
def Step (r : RtcpReporter) (event : RtcpEvent) (r' : RtcpReporter) : Prop :=
  match event with
  | .addSourceSsrc ssrc => r' = r.addSourceSsrc ssrc
  | .setMaxVideoBW bandwidth => r' = r.setMaxVideoBW bandwidth
  | .setPublisherBW bandwidth => r' = r.setPublisherBW bandwidth
  | .analyzeSr now chead => r.analyzeSr now chead = .ok r'
  | .analyzeFeedback now delay buf => r.analyzeFeedback now delay buf = .ok r'
  | .checkRtcpFb now next ssrcs =>
      KeysOf r.gathered.rtcpData ssrcs ∧ ∃ out, r.checkRtcpFb now next ssrcs = .ok (r', out)

/-- The states that the operations on a new aggregator lead to. -/
def Reachable (r : RtcpReporter) : Prop :=
  ∃ maxVideoBw audioSource videoSource audioSink videoSink events,
    Run Step (create maxVideoBw audioSource videoSource audioSink videoSink) events r

/-! ### What a step does to a source -/

/-- What becomes of the data of a source in a step. -/
inductive Effect (r : RtcpReporter) (ssrc : UInt32) (d : RtcpData) (s : RtcpSent) :
    RtcpEvent → RtcpData → RtcpSent → Prop
  | same (event : RtcpEvent) : Effect r ssrc d s event d s
  | senderReport (now : Timeval) (chead : List UInt8) (senderReports : List SrData) :
      Effect r ssrc d s (.analyzeSr now chead) { d with senderReports } s
  | feedback {now : Timeval} {delay : UInt32} {buf : List UInt8} {result : RtcpData × UInt32}
      (hscan : scan (RtcpData.visit r.gathered.defaultVideoBw now) buf.length buf.length (d, delay) buf = .ok result) :
      Effect r ssrc d s (.analyzeFeedback now delay buf) result.1 s
  | check {now : Timeval} {next : UInt32 → UInt32} {ssrcs : List UInt32} {d' : RtcpData} {s' : RtcpSent}
      {out : List RtcpOut} (hcheck : r.checkSource now (next ssrc) ssrc d s = .ok (d', s', out)) :
      Effect r ssrc d s (.checkRtcpFb now next ssrcs) d' s'

/-- The data of a source, as it is made if there is none. -/
def data (r : RtcpReporter) (ssrc : UInt32) : RtcpData := r.gathered.addSourceSsrc ssrc

theorem data_of_some {r : RtcpReporter} {ssrc : UInt32} {d : RtcpData} (h : r.gathered.rtcpData ssrc = some d) :
    r.data ssrc = d := by
  rw [data, RtcpAggregator.addSourceSsrc, h]
  rfl

theorem data_setData (r : RtcpReporter) (source : UInt32) (d : RtcpData) (ssrc : UInt32) :
    (r.setData source d).data ssrc = if ssrc = source then d else r.data ssrc := by
  rw [data, RtcpAggregator.addSourceSsrc, setData]
  dsimp only
  rw [Function.update_apply]
  split
  all_goals rfl

theorem setData_sent (r : RtcpReporter) (source : UInt32) (d : RtcpData) : (r.setData source d).sent = r.sent := rfl

theorem isSome_setData {r : RtcpReporter} (source : UInt32) (d : RtcpData) {ssrc : UInt32}
    (hsome : (r.gathered.rtcpData ssrc).isSome = true) :
    ((r.setData source d).gathered.rtcpData ssrc).isSome = true := by
  rw [setData]
  dsimp only
  rw [Function.update_apply]
  split
  · rfl
  · exact hsome

section SetSource

variable (r : RtcpReporter) (source : UInt32) (d : RtcpData) (s : RtcpSent)

/-- What is made of a source depends on the SSRCs and the bandwidth, and not on the data of others. -/
theorem checkSource_setSource : (r.setSource source d s).checkSource = r.checkSource := rfl

theorem setSource_rtcpData : (r.setSource source d s).gathered.rtcpData source = some d := Function.update_self _ _ _

theorem setSource_sent : (r.setSource source d s).sent source = s := Function.update_self _ _ _

variable {ssrc : UInt32} (hne : ssrc ≠ source)

include hne

theorem setSource_rtcpData_of_ne : (r.setSource source d s).gathered.rtcpData ssrc = r.gathered.rtcpData ssrc :=
  Function.update_of_ne hne _ _

theorem setSource_sent_of_ne : (r.setSource source d s).sent ssrc = r.sent ssrc := Function.update_of_ne hne _ _

end SetSource

/-- A turn of the loop of `checkRtcpFb`. -/
theorem checkRtcpFb_cons {r r' : RtcpReporter} {now : Timeval} {next : UInt32 → UInt32} {first : UInt32}
    {ssrcs : List UInt32} {out : List RtcpOut} (hcheck : r.checkRtcpFb now next (first :: ssrcs) = .ok (r', out)) :
    (r.gathered.rtcpData first = none ∧ r.checkRtcpFb now next ssrcs = .ok (r', out))
      ∨ ∃ d d' s' here more, r.gathered.rtcpData first = some d
        ∧ r.checkSource now (next first) first d (r.sent first) = .ok (d', s', here)
        ∧ (r.setSource first d' s').checkRtcpFb now next ssrcs = .ok (r', more) ∧ out = here ++ more := by
  rw [checkRtcpFb] at hcheck
  split at hcheck
  · next hnone => exact .inl ⟨hnone, hcheck⟩
  · next d hd =>
      obtain ⟨result, hfirst, hcheck⟩ := exists_of_bind_ok hcheck
      obtain ⟨more, hrest, hcheck⟩ := exists_of_bind_ok hcheck
      cases hcheck
      exact .inr ⟨d, result.1, result.2.1, result.2.2, more.2, hd, hfirst, hrest, rfl⟩

/-- What the loop does not come to stays as it is. -/
theorem checkRtcpFb_frame {r r' : RtcpReporter} {now : Timeval} {next : UInt32 → UInt32} {ssrcs : List UInt32}
    {out : List RtcpOut} (hcheck : r.checkRtcpFb now next ssrcs = .ok (r', out)) {ssrc : UInt32}
    (hmem : ssrc ∉ ssrcs) :
    r'.gathered.rtcpData ssrc = r.gathered.rtcpData ssrc ∧ r'.sent ssrc = r.sent ssrc := by
  induction ssrcs generalizing r out with
  | nil =>
      cases hcheck
      exact ⟨rfl, rfl⟩
  | cons first ssrcs ih =>
      rw [List.mem_cons, not_or] at hmem
      rcases checkRtcpFb_cons hcheck with ⟨-, hrest⟩ | ⟨d, d', s', here, more, -, -, hrest, -⟩
      · exact ih hrest hmem.2
      · have hsame := ih hrest hmem.2
        rw [setSource_rtcpData_of_ne _ _ _ _ hmem.1, setSource_sent_of_ne _ _ _ _ hmem.1] at hsame
        exact hsame

/-- A loop over keys that are all different comes to each source once. -/
theorem checkRtcpFb_source {r r' : RtcpReporter} {now : Timeval} {next : UInt32 → UInt32} {ssrcs : List UInt32}
    {out : List RtcpOut} (hnodup : ssrcs.Nodup) (hcheck : r.checkRtcpFb now next ssrcs = .ok (r', out))
    (ssrc : UInt32) :
    (r'.gathered.rtcpData ssrc = r.gathered.rtcpData ssrc ∧ r'.sent ssrc = r.sent ssrc)
      ∨ ∃ d d' s' here, r.gathered.rtcpData ssrc = some d
        ∧ r.checkSource now (next ssrc) ssrc d (r.sent ssrc) = .ok (d', s', here)
        ∧ r'.gathered.rtcpData ssrc = some d' ∧ r'.sent ssrc = s' := by
  induction ssrcs generalizing r out with
  | nil =>
      cases hcheck
      exact .inl ⟨rfl, rfl⟩
  | cons first ssrcs ih =>
      rw [List.nodup_cons] at hnodup
      rcases checkRtcpFb_cons hcheck with ⟨-, hrest⟩ | ⟨d, d', s', here, more, hd, hfirst, hrest, -⟩
      · exact ih hnodup.2 hrest
      · by_cases hssrc : ssrc = first
        · subst hssrc
          have hsame := checkRtcpFb_frame hrest hnodup.1
          rw [setSource_rtcpData, setSource_sent] at hsame
          exact .inr ⟨d, d', s', here, hd, hfirst, hsame.1, hsame.2⟩
        · have hlater := ih hnodup.2 hrest
          rw [setSource_rtcpData_of_ne _ _ _ _ hssrc, setSource_sent_of_ne _ _ _ _ hssrc, checkSource_setSource]
            at hlater
          exact hlater

/-- The SSRC that tells an audio source stays the same. -/
theorem checkRtcpFb_audioSourceSSRC {r r' : RtcpReporter} {now : Timeval} {next : UInt32 → UInt32}
    {ssrcs : List UInt32} {out : List RtcpOut} (hcheck : r.checkRtcpFb now next ssrcs = .ok (r', out)) :
    r'.gathered.audioSourceSSRC = r.gathered.audioSourceSSRC := by
  induction ssrcs generalizing r out with
  | nil =>
      cases hcheck
      rfl
  | cons first ssrcs ih =>
      rcases checkRtcpFb_cons hcheck with ⟨-, hrest⟩ | ⟨d, d', s', here, more, -, -, hrest, -⟩
      · exact ih hrest
      · have hsame := ih hrest
        exact hsame

theorem analyzeSr_eq {r r' : RtcpReporter} {now : Timeval} {chead : List UInt8} (h : r.analyzeSr now chead = .ok r') :
    ∃ source senderReports, r' = r.setData source { r.data source with senderReports } := by
  obtain ⟨source, -, h⟩ := exists_of_bind_ok h
  obtain ⟨srNtp, -, h⟩ := exists_of_bind_ok h
  cases h
  exact ⟨source, _, rfl⟩

theorem analyzeFeedback_eq {r r' : RtcpReporter} {now : Timeval} {delay : UInt32} {buf : List UInt8}
    (h : r.analyzeFeedback now delay buf = .ok r') :
    r' = r ∨ ∃ source result,
      scan (RtcpData.visit r.gathered.defaultVideoBw now) buf.length buf.length (r.data source, delay) buf = .ok result
        ∧ r' = r.setData source result.1 := by
  obtain ⟨gathered, hgathered, hr'⟩ := exists_of_bind_ok h
  obtain ⟨type, -, hgathered⟩ := exists_of_bind_ok hgathered
  cases hr'
  split at hgathered
  · obtain ⟨count, -, hgathered⟩ := exists_of_bind_ok hgathered
    obtain ⟨length, -, hgathered⟩ := exists_of_bind_ok hgathered
    split at hgathered
    · cases hgathered
      exact .inl rfl
    · obtain ⟨source, -, hgathered⟩ := exists_of_bind_ok hgathered
      obtain ⟨result, hscan, hgathered⟩ := exists_of_bind_ok hgathered
      cases hgathered
      exact .inr ⟨source, result, hscan, rfl⟩
  · cases hgathered
    exact .inl rfl

/-- A compound packet of feedback is gathered for the source of its first sub-packet. -/
theorem analyzeFeedback_of_scan {r : RtcpReporter} {now : Timeval} {delay source : UInt32} {sub : SubPacket}
    {subs : List SubPacket} {result : RtcpData × UInt32}
    (htype : sub.type = receiverPT ∨ sub.type = psFeedbackPT ∨ sub.type = rtpFeedbackPT) (hcount : sub.count ≠ 0)
    (hsource : sub.sourceSSRC = source) (hsize : 12 ≤ sub.bytes.length)
    (hscan : scan (RtcpData.visit r.gathered.defaultVideoBw now) (compound (sub :: subs)).length
      (compound (sub :: subs)).length (r.data source, delay) (compound (sub :: subs)) = .ok result) :
    r.analyzeFeedback now delay (compound (sub :: subs)) = .ok (r.setData source result.1) := by
  have hanalyzed : r.gathered.analyzeFeedback now delay (compound (sub :: subs))
      = .ok { r.gathered with rtcpData := Function.update r.gathered.rtcpData source (some result.1) } := by
    have hnot : ¬ (sub.count = 0 ∧ sub.bytes.length = (compound (sub :: subs)).length) := fun h => hcount h.1
    rw [data] at hscan
    rw [compound_cons] at hscan hnot ⊢
    rw [RtcpAggregator.analyzeFeedback, sub.getPacketType_append, Checked.ok_bind, if_pos htype,
      sub.getBlockCount_append, Checked.ok_bind, sub.rtcpLength_append, Checked.ok_bind, if_neg hnot,
      sub.getSourceSSRC_append _ hsize, Checked.ok_bind, hsource, hscan]
    rfl
  rw [analyzeFeedback, hanalyzed]
  rfl

theorem effect_of_step {r r' : RtcpReporter} {event : RtcpEvent} (hstep : r.Step event r') (ssrc : UInt32) :
    Effect r ssrc (r.data ssrc) (r.sent ssrc) event (r'.data ssrc) (r'.sent ssrc) := by
  cases event with
  | addSourceSsrc source =>
      cases hstep
      rw [addSourceSsrc, data_setData, setData_sent]
      split
      · next hssrc =>
          subst hssrc
          exact .same _
      · exact .same _
  | setMaxVideoBW bandwidth =>
      cases hstep
      exact .same _
  | setPublisherBW bandwidth =>
      cases hstep
      exact .same _
  | analyzeSr now chead =>
      obtain ⟨source, senderReports, rfl⟩ := analyzeSr_eq hstep
      rw [data_setData, setData_sent]
      split
      · next hssrc =>
          subst hssrc
          exact .senderReport now chead senderReports
      · exact .same _
  | analyzeFeedback now delay buf =>
      rcases analyzeFeedback_eq hstep with rfl | ⟨source, result, hscan, rfl⟩
      · exact .same _
      · rw [data_setData, setData_sent]
        split
        · next hssrc =>
            subst hssrc
            exact .feedback hscan
        · exact .same _
  | checkRtcpFb now next ssrcs =>
      obtain ⟨hkeys, out, hcheck⟩ := hstep
      have haudio := checkRtcpFb_audioSourceSSRC hcheck
      rcases checkRtcpFb_source hkeys.nodup hcheck ssrc with ⟨hdata, hsent⟩ | ⟨d, d', s', here, hd, hone, hd', rfl⟩
      · have hsame : r'.data ssrc = r.data ssrc := by
          rw [data, data, RtcpAggregator.addSourceSsrc, RtcpAggregator.addSourceSsrc, hdata, haudio]
        rw [hsame, hsent]
        exact .same _
      · rw [data_of_some hd, data_of_some hd']
        exact .check hone

/-- The data of a source are never given up. -/
theorem isSome_of_step {r r' : RtcpReporter} {event : RtcpEvent} (hstep : r.Step event r') {ssrc : UInt32}
    (hsome : (r.gathered.rtcpData ssrc).isSome = true) : (r'.gathered.rtcpData ssrc).isSome = true := by
  cases event with
  | addSourceSsrc source =>
      cases hstep
      exact isSome_setData _ _ hsome
  | setMaxVideoBW bandwidth =>
      cases hstep
      exact hsome
  | setPublisherBW bandwidth =>
      cases hstep
      exact hsome
  | analyzeSr now chead =>
      obtain ⟨source, senderReports, rfl⟩ := analyzeSr_eq hstep
      exact isSome_setData _ _ hsome
  | analyzeFeedback now delay buf =>
      rcases analyzeFeedback_eq hstep with rfl | ⟨source, result, -, rfl⟩
      · exact hsome
      · exact isSome_setData _ _ hsome
  | checkRtcpFb now next ssrcs =>
      obtain ⟨hkeys, out, hcheck⟩ := hstep
      rcases checkRtcpFb_source hkeys.nodup hcheck ssrc with ⟨hdata, -⟩ | ⟨d, d', s', here, -, -, hd', -⟩
      · rw [hdata]
        exact hsome
      · rw [hd']
        rfl

end RtcpReporter

end Licode.Media
