import Licode.Media.ExternalOutput
import Licode.Media.VideoSequence

/-!
# The use of a parsed payload

Three functions look at what `parseVP8` has found, and none of them at how it has returned: slide-show
mode at the type of the frame, the recorder and the unpackager at the data. Here they are `none` where
they look at a member that has no value.
-/

namespace Licode.Media

open Overlay RtpVP8Parser

/-- The payload of a packet as the three functions have it parsed. -/
def parsePayload (buf : List UInt8) (stale : Nat → UInt8) : RTPPayloadVP8 :=
  parseVP8 (payloadOf buf stale) (stale (getHeaderLength buf stale))

theorem parsePayload_stale {buf : List UInt8} {stale : Nat → UInt8} (h : Described (payloadOf buf stale))
    (stale' : Nat → UInt8) : parsePayload buf stale' = parsePayload buf stale := by
  rw [parsePayload, parsePayload, h.stale stale']
  exact parseVP8_stale h.ne_nil _ _

namespace VideoSender

section Deliver

variable (externalPT : PacketType → UInt8 → UInt8) (supportsRed : Bool)
  (fecReceiver : VideoSender → List UInt8 → VideoSender)

/-- `deliverVideoData_` with the parser for VP8 in its place. -/
def deliverVideoPacket (s : VideoSender) (buf : List UInt8) (stale : Nat → UInt8) : Option VideoSender :=
  if s.hasVideoTransport = false ∨ s.videoEnabled = false then some s
  else if isRtcp buf then some { s with queue := s.queue.queueData externalPT 0 buf .video 0 }
  else
    let s : VideoSender := { s with sendSeqNo := getSeqNumber buf }
    if getPayloadType buf = redPT ∧ (supportsRed = false ∨ s.slideShowMode = true) then some (fecReceiver s buf)
    else if s.slideShowMode then do
      let frameType ← (parsePayload buf stale).frameType
      return s.deliverSlide externalPT buf (frameType = .iFrame)
    else if s.seqNoOffset > 0 then
      some { s with queue := s.queue.queueData externalPT 0 buf .video (s.sendSeqNo - s.seqNoOffset) }
    else some { s with queue := s.queue.queueData externalPT 0 buf .video 0 }

/-- A packet that is looked at for a keyframe. -/
def Slides (s : VideoSender) (buf : List UInt8) : Prop :=
  s.hasVideoTransport = true ∧ s.videoEnabled = true ∧ s.slideShowMode = true ∧ isRtcp buf = false
    ∧ getPayloadType buf ≠ redPT

/-- It is `deliverVideoData` with the keyframe that the parser finds. -/
theorem deliverVideoPacket_eq (s : VideoSender) (buf : List UInt8) (stale : Nat → UInt8)
    (h : s.Slides buf → (parsePayload buf stale).frameType.isSome) :
    s.deliverVideoPacket externalPT supportsRed fecReceiver buf stale
      = some (s.deliverVideoData externalPT supportsRed fecReceiver buf
          ((parsePayload buf stale).frameType = some .iFrame)) := by
  rw [deliverVideoPacket, deliverVideoData]
  by_cases hoff : s.hasVideoTransport = false ∨ s.videoEnabled = false
  · rw [if_pos hoff, if_pos hoff]
  rw [if_neg hoff, if_neg hoff]
  by_cases hrtcp : isRtcp buf = true
  · rw [if_pos hrtcp, if_pos hrtcp]
  rw [if_neg hrtcp, if_neg hrtcp]
  dsimp only
  by_cases hred : getPayloadType buf = redPT ∧ (supportsRed = false ∨ s.slideShowMode = true)
  · rw [if_pos hred, if_pos hred]
  rw [if_neg hred, if_neg hred]
  by_cases hslides : s.slideShowMode = true
  · rw [if_pos hslides, if_pos hslides]
    have hon : s.hasVideoTransport = true ∧ s.videoEnabled = true := by simpa [not_or] using hoff
    obtain ⟨frameType, htype⟩ := Option.isSome_iff_exists.mp
      (h ⟨hon.1, hon.2, hslides, by simpa using hrtcp, fun hpt => hred ⟨hpt, .inr hslides⟩⟩)
    rw [htype]
    simp
  · rw [if_neg hslides, if_neg hslides]
    split_ifs <;> rfl

theorem deliverVideoPacket_ne_none_iff (s : VideoSender) (buf : List UInt8) (stale : Nat → UInt8) :
    s.deliverVideoPacket externalPT supportsRed fecReceiver buf stale ≠ none
      ↔ (s.Slides buf → Described (payloadOf buf stale)) := by
  constructor
  · rintro hne ⟨htransport, henabled, hslides, hrtcp, hred⟩
    by_contra hnot
    refine hne ?_
    have hunset : (parsePayload buf stale).frameType = none := (parseVP8_of_not_described hnot _).1
    rw [deliverVideoPacket, if_neg (by simp [htransport, henabled]), if_neg (by simp [hrtcp])]
    dsimp only
    rw [if_neg (fun h => hred h.1), if_pos hslides, hunset]
    rfl
  · intro h
    rw [deliverVideoPacket_eq externalPT supportsRed fecReceiver s buf stale
      fun hslides => (parseVP8_of_described (h hslides) _).1]
    exact Option.some_ne_none _

/-- A frame whose descriptor can be read is delivered by the packet alone. -/
theorem deliverVideoPacket_stale {s : VideoSender} {buf : List UInt8} {stale : Nat → UInt8}
    (h : s.Slides buf → Described (payloadOf buf stale)) (stale' : Nat → UInt8) :
    s.deliverVideoPacket externalPT supportsRed fecReceiver buf stale'
      = s.deliverVideoPacket externalPT supportsRed fecReceiver buf stale := by
  rw [deliverVideoPacket, deliverVideoPacket]
  by_cases hoff : s.hasVideoTransport = false ∨ s.videoEnabled = false
  · rw [if_pos hoff, if_pos hoff]
  rw [if_neg hoff, if_neg hoff]
  by_cases hrtcp : isRtcp buf = true
  · rw [if_pos hrtcp, if_pos hrtcp]
  rw [if_neg hrtcp, if_neg hrtcp]
  dsimp only
  by_cases hred : getPayloadType buf = redPT ∧ (supportsRed = false ∨ s.slideShowMode = true)
  · rw [if_pos hred, if_pos hred]
  rw [if_neg hred, if_neg hred]
  by_cases hslides : s.slideShowMode = true
  · have hon : s.hasVideoTransport = true ∧ s.videoEnabled = true := by simpa [not_or] using hoff
    rw [parsePayload_stale (h ⟨hon.1, hon.2, hslides, by simpa using hrtcp, fun hpt => hred ⟨hpt, .inr hslides⟩⟩)]
  · rw [if_neg hslides, if_neg hslides]

end Deliver

end VideoSender

namespace ExternalOutput

/-- A packet whose data is copied: one with the S bit, or one that follows the last within a frame. -/
def Copies (s : ExternalOutput) (buf : List UInt8) (stale : Nat → UInt8) : Prop :=
  bit ((payloadOf buf stale).headD (stale (getHeaderLength buf stale))) 4 = true
    ∨ s.vp8SearchState = .lookingForEnd ∧ (getSeqNumber buf).toNat = s.lastVideoSequenceNumber.toNat + 1

theorem search_ne_none_iff (s : ExternalOutput) (startOfFrame endOfFrame : Bool) (data : Option (List UInt8)) :
    s.search startOfFrame endOfFrame data ≠ none
      ↔ (startOfFrame = true ∨ s.vp8SearchState = .lookingForEnd → data ≠ none) := by
  unfold search
  cases s.vp8SearchState <;> cases startOfFrame <;> cases endOfFrame <;> cases data <;> simp

theorem vp8SearchState_notice (s : ExternalOutput) (buf : List UInt8) :
    (s.notice buf).vp8SearchState = .lookingForEnd
      ↔ s.vp8SearchState = .lookingForEnd ∧ (getSeqNumber buf).toNat = s.lastVideoSequenceNumber.toNat + 1 := by
  rw [notice]
  dsimp only
  by_cases hgap : (getSeqNumber buf).toNat ≠ s.lastVideoSequenceNumber.toNat + 1
  · rw [if_pos hgap]
    exact ⟨by rintro ⟨⟩, fun h => absurd h.2 hgap⟩
  · rw [if_neg hgap]
    exact (and_iff_left (not_not.mp hgap)).symm

theorem dataOf_ne_none_iff (payload : List UInt8) (stale : UInt8) :
    dataOf payload (parseVP8 payload stale) ≠ none ↔ Described payload := by
  constructor
  · intro hne
    by_contra hnot
    obtain ⟨-, hdata, -⟩ := parseVP8_of_not_described hnot stale
    exact hne (by rw [dataOf, hdata]; rfl)
  · intro h
    obtain ⟨-, hdata, hlength⟩ := parseVP8_of_described h stale
    rw [dataOf, hdata, hlength]
    exact Option.some_ne_none _

theorem writeVideoData_ne_none_iff (s : ExternalOutput) (buf : List UInt8) (stale : Nat → UInt8)
    (opened : Option Int) :
    s.writeVideoData buf stale opened ≠ none ↔ (s.Copies buf stale → Described (payloadOf buf stale)) := by
  have hcall : s.writeVideoData buf stale opened ≠ none
      ↔ (s.notice buf).search (parsePayload buf stale).beginningOfPartition (getMarker buf)
        (dataOf (payloadOf buf stale) (parsePayload buf stale)) ≠ none := by
    rw [writeVideoData]
    dsimp only
    rw [← parsePayload]
    cases (s.notice buf).search (parsePayload buf stale).beginningOfPartition (getMarker buf)
      (dataOf (payloadOf buf stale) (parsePayload buf stale)) <;> simp
  rw [hcall, search_ne_none_iff, vp8SearchState_notice, parsePayload, dataOf_ne_none_iff,
    beginningOfPartition_parseVP8, Copies]

end ExternalOutput

/-- `VP8_90000_PT`. -/
def vp8PT : UInt8 := 100

/-- `InputProcessor::unpackageVideo`, with what it returns, copies and says about the frame. -/
def unpackageVideo (videoUnpackager : Bool) (inBuff : List UInt8) (stale : Nat → UInt8) :
    Option (Int × List UInt8 × Option Bool) :=
  if videoUnpackager = false then some (-1, [], none)
  else if getPayloadType inBuff ≠ vp8PT then some (-1, [], some false)
  else do
    let data ← ExternalOutput.dataOf (payloadOf inBuff stale) (parsePayload inBuff stale)
    return (data.length, data, some (getMarker inBuff))

theorem unpackageVideo_ne_none_iff (videoUnpackager : Bool) (inBuff : List UInt8) (stale : Nat → UInt8) :
    unpackageVideo videoUnpackager inBuff stale ≠ none
      ↔ (videoUnpackager = true ∧ getPayloadType inBuff = vp8PT → Described (payloadOf inBuff stale)) := by
  rw [unpackageVideo, ← ExternalOutput.dataOf_ne_none_iff (payloadOf inBuff stale) (stale (getHeaderLength inBuff stale)),
    ← parsePayload]
  cases videoUnpackager with
  | false => simp
  | true =>
      by_cases htype : getPayloadType inBuff = vp8PT
      · cases ExternalOutput.dataOf (payloadOf inBuff stale) (parsePayload inBuff stale) <;> simp [htype]
      · simp [htype]

/-- The data is what stands behind the descriptor, up to the end of the payload. -/
theorem data_suffix {payload : List UInt8} {stale : UInt8} {place length : Nat}
    (hdata : (parseVP8 payload stale).data = some place) (hlength : (parseVP8 payload stale).dataLength = some length) :
    place + length = payload.length ∧ read payload place length <:+ payload := by
  have hdescribed : Described payload := by
    by_contra hnot
    obtain ⟨-, hnone, -⟩ := parseVP8_of_not_described hnot stale
    rw [hnone] at hdata
    cases hdata
  have hsize := hdescribed.size
  obtain ⟨-, hplace, hrest⟩ := parseVP8_of_described hdescribed stale
  rw [hdata] at hplace
  rw [hlength] at hrest
  cases hplace
  cases hrest
  refine ⟨by omega, ?_⟩
  rw [Overlay.read, List.take_of_length_le (by rw [List.length_drop])]
  exact List.drop_suffix _ _

/-- **Members are used only with a value** where the descriptor of a packet that is looked at is neither corrupt
nor cut off. -/
theorem payload_uses_iff (externalPT : PacketType → UInt8 → UInt8) (supportsRed : Bool)
    (fecReceiver : VideoSender → List UInt8 → VideoSender) (s : VideoSender) (r : ExternalOutput)
    (opened : Option Int) (videoUnpackager : Bool) (buf : List UInt8) (stale : Nat → UInt8) :
    (s.deliverVideoPacket externalPT supportsRed fecReceiver buf stale ≠ none
        ↔ (s.Slides buf → Described (payloadOf buf stale)))
      ∧ (r.writeVideoData buf stale opened ≠ none ↔ (r.Copies buf stale → Described (payloadOf buf stale)))
      ∧ (unpackageVideo videoUnpackager buf stale ≠ none
        ↔ (videoUnpackager = true ∧ getPayloadType buf = vp8PT → Described (payloadOf buf stale)))
      ∧ ∀ place length, (parsePayload buf stale).data = some place → (parsePayload buf stale).dataLength = some length →
        place + length = (payloadOf buf stale).length
          ∧ read (payloadOf buf stale) place length <:+ payloadOf buf stale :=
  ⟨s.deliverVideoPacket_ne_none_iff externalPT supportsRed fecReceiver buf stale,
    r.writeVideoData_ne_none_iff buf stale opened, unpackageVideo_ne_none_iff videoUnpackager buf stale,
    fun _ _ hdata hlength => data_suffix hdata hlength⟩

/-- A packet that is the start of partition 15. -/
def corruptPacket : List UInt8 := OutputProcessor.packetOf true 1 0 [0x1F, 1, 2, 3]

theorem corrupt_payload_used :
    VideoSender.deliverVideoPacket (fun _ type => type) true (fun s _ => s)
        { VideoSender.create with slideShowMode := true } corruptPacket (fun _ => 0) = none
      ∧ (ExternalOutput.create 0 0).writeVideoData corruptPacket (fun _ => 0) none = none
      ∧ unpackageVideo true corruptPacket (fun _ => 0) = none := by
  refine ⟨?_, by decide, by decide⟩
  rw [VideoSender.deliverVideoPacket, if_neg (by decide), if_neg (by decide)]
  rfl

end Licode.Media
