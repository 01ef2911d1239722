import Licode.Media.Rtcp

/-!
# Forwarding of RTCP feedback

`RtcpForwarder::analyzeFeedback` makes the feedback of a subscriber into feedback of the connection: the
receiver reports get the SSRC of the connection, and the bit rate of a REMB message is capped.

The table of sources, to which the first source is added, has no part in what is sent.
-/

namespace Licode.Media

open Overlay Rtcp

structure RtcpForwarder where
  videoSourceSSRC : UInt32
  videoSinkSSRC : UInt32
  audioSinkSSRC : UInt32
  maxVideoBw : UInt32

namespace RtcpForwarder

/-- The SSRC that a receiver report gets, by the source of its first block. -/
def sinkSSRC (f : RtcpForwarder) (source : UInt32) : UInt32 :=
  if source = f.videoSourceSSRC then f.videoSinkSSRC else f.audioSinkSSRC

/-- `mantissa << exp` is a shift of 32 bits, which takes the exponent modulo 32. -/
def cappedBitrate (f : RtcpForwarder) (mantissa exp : UInt32) : UInt64 :=
  let bitrate := (mantissa <<< exp).toUInt64
  if bitrate < f.maxVideoBw.toUInt64 then bitrate else f.maxVideoBw.toUInt64

def remb : List UInt8 := [82, 69, 77, 66]

/-- The body of the loop of `analyzeFeedback`. -/
def visit (f : RtcpForwarder) (chead : List UInt8) : Checked (List UInt8) := do
  let type ← getPacketType chead
  if type = receiverPT then
    let source ← getSourceSSRC chead
    setSSRC chead (f.sinkSSRC source)
  else if type = psFeedbackPT then
    let fmt ← getBlockCount chead
    if fmt = afbFMT then
      let uniqueId ← load chead 12 4
      if uniqueId = remb then
        let mantissa ← getBrMantis chead
        let exp ← getBrExp chead
        setREMBBitRate chead (f.cappedBitrate mantissa exp)
      else return chead
    else return chead
  else return chead

/-- `RtcpForwarder::analyzeFeedback`, with the buffer it leaves and the places its loop has been at. -/
def analyzeFeedback (f : RtcpForwarder) (buf : List UInt8) : Checked (Nat × List UInt8 × List Nat) := do
  let type ← getPacketType buf
  if type = receiverPT ∨ type = psFeedbackPT ∨ type = rtpFeedbackPT then
    let count ← getBlockCount buf
    let length ← rtcpLength buf
    if count = 0 ∧ length = buf.length then return (0, buf, [])
    let _ ← getSourceSSRC buf
    let (buf', offsets) ← walk f.visit buf.length 0 buf.length buf
    return (buf.length, buf', offsets)
  else return (0, buf, [])

/-! ### What becomes of a sub-packet -/

/-- Feedback has at least 12 bytes, and that of an application layer at least 20. -/
def Sized (sub : SubPacket) : Prop :=
  (sub.type = receiverPT ∨ sub.type = psFeedbackPT ∨ sub.type = rtpFeedbackPT → 12 ≤ sub.bytes.length)
    ∧ (sub.type = psFeedbackPT ∧ sub.count = afbFMT → 20 ≤ sub.bytes.length)

def IsRemb (sub : SubPacket) : Prop :=
  sub.type = psFeedbackPT ∧ sub.count = afbFMT ∧ read sub.bytes 12 4 = remb

/-- A receiver report has another sender, a REMB message another bit rate, and no other byte of them
or of other sub-packets has changed. -/
structure Forwarded (f : RtcpForwarder) (sub : SubPacket) (result : List UInt8) : Prop where
  report : sub.type = receiverPT → SameOutside sub.bytes result 4 4
    ∧ number (read result 4 4) = (f.sinkSSRC (.ofNat (number (read sub.bytes 8 4)))).toNat
  remb : IsRemb sub → SameOutside sub.bytes result 17 3
  other : sub.type ≠ receiverPT → ¬ IsRemb sub → result = sub.bytes

/-- Feedback is looked at further only if it is of the application layer. -/
theorem visit_feedback (f : RtcpForwarder) {sub : SubPacket} (hreport : sub.type ≠ receiverPT) (rest : List UInt8) :
    f.visit (sub.bytes ++ rest)
      = if sub.type = psFeedbackPT ∧ sub.count = afbFMT then (do
          let uniqueId ← load (sub.bytes ++ rest) 12 4
          if uniqueId = RtcpForwarder.remb then do
            let mantissa ← getBrMantis (sub.bytes ++ rest)
            let exp ← getBrExp (sub.bytes ++ rest)
            setREMBBitRate (sub.bytes ++ rest) (f.cappedBitrate mantissa exp)
          else return sub.bytes ++ rest)
        else .ok (sub.bytes ++ rest) := by
  rw [visit, sub.getPacketType_append, Checked.ok_bind, if_neg hreport]
  by_cases hps : sub.type = psFeedbackPT
  · rw [if_pos hps, sub.getBlockCount_append, Checked.ok_bind]
    by_cases hafb : sub.count = afbFMT
    · rw [if_pos hafb, if_pos ⟨hps, hafb⟩]
    · rw [if_neg hafb, if_neg fun h => hafb h.2]
      rfl
  · rw [if_neg hps, if_neg fun h => hps h.1]
    rfl

theorem not_report_of_psFeedback {sub : SubPacket} (h : sub.type = psFeedbackPT) : sub.type ≠ receiverPT := by
  rw [h]
  decide

/-- The bit rate of a REMB message is written anew. -/
theorem visit_remb (f : RtcpForwarder) {sub : SubPacket} (hsized : Sized sub) (hremb : IsRemb sub) :
    ∃ mantissa exp, getBrMantis sub.bytes = .ok mantissa ∧ getBrExp sub.bytes = .ok exp
      ∧ ∀ rest, f.visit (sub.bytes ++ rest)
        = .ok (write sub.bytes 17 (rembField (f.cappedBitrate mantissa exp)) ++ rest) := by
  obtain ⟨hps, hafb, huid⟩ := hremb
  have hsize : 20 ≤ sub.bytes.length := hsized.2 ⟨hps, hafb⟩
  set field : UInt32 := .ofNat (number (read sub.bytes 17 3) * 256)
  have hfield (rest : List UInt8) : brLength (sub.bytes ++ rest) = .ok field := by
    rw [brLength, load_append (by omega)]
    rfl
  have hhere : brLength sub.bytes = .ok field := by
    have hnil := hfield []
    rwa [List.append_nil] at hnil
  refine ⟨field >>> 8 &&& 0x3FFFF, field >>> 26, ?_, ?_, fun rest => ?_⟩
  · rw [getBrMantis, hhere]
    rfl
  · rw [getBrExp, hhere]
    rfl
  · rw [visit_feedback f (not_report_of_psFeedback hps), if_pos ⟨hps, hafb⟩, load_append (by omega), Checked.ok_bind,
      if_pos huid, getBrMantis, getBrExp, hfield]
    exact store_append (by rw [length_rembField]; omega) rest

theorem visit_local (f : RtcpForwarder) {sub : SubPacket} (hsized : Sized sub) :
    ∃ result, f.Forwarded sub result ∧ result.length = sub.bytes.length
      ∧ ∀ rest, f.visit (sub.bytes ++ rest) = .ok (result ++ rest) := by
  by_cases hreport : sub.type = receiverPT
  · have hsize : 12 ≤ sub.bytes.length := hsized.1 (.inl hreport)
    set ssrc := f.sinkSSRC (.ofNat (number (read sub.bytes 8 4))) with hssrc
    have hin : 4 + (image 4 ssrc.toNat).length ≤ sub.bytes.length := by
      rw [length_image]
      omega
    refine ⟨write sub.bytes 4 (image 4 ssrc.toNat), ⟨fun _ => ⟨?_, ?_⟩, ?_, ?_⟩, length_write _ _ _, ?_⟩
    · have hsame := sameOutside_write sub.bytes 4 (image 4 ssrc.toNat)
      rwa [length_image] at hsame
    · have hread := read_write hin
      rw [length_image] at hread
      rw [hread, number_image ssrc.toNat_lt]
    · exact fun h => absurd hreport (not_report_of_psFeedback h.1)
    · exact fun h => absurd hreport h
    · intro rest
      rw [visit, sub.getPacketType_append, Checked.ok_bind, if_pos hreport, getSourceSSRC,
        load_append (by omega)]
      exact store_append hin rest
  by_cases hremb : IsRemb sub
  · obtain ⟨mantissa, exp, -, -, hvisit⟩ := visit_remb f hsized hremb
    refine ⟨write sub.bytes 17 (rembField (f.cappedBitrate mantissa exp)), ⟨?_, fun _ => ?_, ?_⟩,
      length_write _ _ _, hvisit⟩
    · exact fun h => absurd h hreport
    · have hsame := sameOutside_write sub.bytes 17 (rembField (f.cappedBitrate mantissa exp))
      rwa [length_rembField] at hsame
    · exact fun _ h => absurd hremb h
  · refine ⟨sub.bytes, ⟨fun h => absurd h hreport, fun h => absurd h hremb, fun _ _ => rfl⟩, rfl, ?_⟩
    intro rest
    rw [visit_feedback f hreport]
    by_cases hafb : sub.type = psFeedbackPT ∧ sub.count = afbFMT
    · have hsize : 20 ≤ sub.bytes.length := hsized.2 hafb
      rw [if_pos hafb, load_append (by omega), Checked.ok_bind,
        if_neg fun h => hremb ⟨hafb.1, hafb.2, h⟩]
      rfl
    · rw [if_neg hafb]

def IsFeedback (type : Nat) : Prop := type = receiverPT ∨ type = psFeedbackPT ∨ type = rtpFeedbackPT

theorem analyzeFeedback_start (f : RtcpForwarder) (first : SubPacket) (more : List SubPacket)
    (hfirst : IsFeedback first.type) :
    f.analyzeFeedback (compound (first :: more))
      = if more = [] ∧ first.count = 0 then .ok (0, compound (first :: more), [])
        else (do
          let _ ← getSourceSSRC (compound (first :: more))
          let (buf', offsets) ← walk f.visit (compound (first :: more)).length 0
            (compound (first :: more)).length (compound (first :: more))
          return ((compound (first :: more)).length, buf', offsets)) := by
  have hsingle : first.count = 0 ∧ first.bytes.length = (compound (first :: more)).length
      ↔ more = [] ∧ first.count = 0 := by
    have hlong := length_le_compound more
    rw [compound_cons, List.length_append]
    constructor
    · rintro ⟨hcount, hlength⟩
      exact ⟨List.eq_nil_of_length_eq_zero (by omega), hcount⟩
    · rintro ⟨rfl, hcount⟩
      exact ⟨hcount, rfl⟩
  have htype := first.getPacketType_append (compound more)
  have hcount := first.getBlockCount_append (compound more)
  have hlength := first.rtcpLength_append (compound more)
  rw [← compound_cons] at htype hcount hlength
  rw [analyzeFeedback, htype, Checked.ok_bind, if_pos (show _ ∨ _ ∨ _ from hfirst), hcount, Checked.ok_bind, hlength,
    Checked.ok_bind]
  exact if_congr hsingle rfl rfl

/-- What is done at each of the sub-packets gives what is made of all. -/
theorem analyzeFeedback_of_visit (f : RtcpForwarder) {R : SubPacket → List UInt8 → Prop} {first : SubPacket}
    {more : List SubPacket} (hfirst : IsFeedback first.type) (hsize : 12 ≤ first.bytes.length)
    (hnot : ¬ (more = [] ∧ first.count = 0))
    (hvisit : ∀ sub ∈ first :: more, ∃ result, R sub result ∧ result.length = sub.bytes.length
      ∧ ∀ rest, f.visit (sub.bytes ++ rest) = .ok (result ++ rest)) :
    ∃ results, List.Forall₂ R (first :: more) results
      ∧ f.analyzeFeedback (compound (first :: more))
        = .ok ((compound (first :: more)).length, results.flatten, offsetsFrom 0 (first :: more)) := by
  obtain ⟨results, hall, hwalk⟩ :=
    walk_compound (List.cons_ne_nil first more) hvisit (length_le_compound _) 0
  refine ⟨results, hall, ?_⟩
  rw [analyzeFeedback_start f first more hfirst, if_neg hnot, hwalk, compound_cons, getSourceSSRC,
    load_append (by omega)]
  rfl

/-- **Forwarding changes only what it must.** -/
theorem analyzeFeedback_compound (f : RtcpForwarder) (first : SubPacket) (more : List SubPacket)
    (hfirst : first.type = receiverPT ∨ first.type = psFeedbackPT ∨ first.type = rtpFeedbackPT)
    (hsized : ∀ sub ∈ first :: more, Sized sub) :
    (more = [] ∧ first.count = 0 →
        f.analyzeFeedback (compound (first :: more)) = .ok (0, compound (first :: more), []))
      ∧ (¬ (more = [] ∧ first.count = 0) → ∃ results,
          List.Forall₂ f.Forwarded (first :: more) results
            ∧ f.analyzeFeedback (compound (first :: more))
              = .ok ((compound (first :: more)).length, results.flatten,
                  offsetsFrom 0 (first :: more))) := by
  constructor
  · intro hempty
    rw [analyzeFeedback_start f first more hfirst, if_pos hempty]
  · intro hnot
    have hsize : 12 ≤ first.bytes.length := (hsized first List.mem_cons_self).1 hfirst
    exact f.analyzeFeedback_of_visit hfirst hsize hnot fun sub hmem => f.visit_local (hsized sub hmem)

/-- A receiver report with one block, about the source 7. -/
def reportAbout7 : SubPacket where
  bytes := [0x81, 201, 0, 7, 0, 0, 0, 1, 0, 0, 0, 7] ++ List.replicate 20 0
  size := by decide

/-- A REMB message of the greatest exponent and mantissa. -/
def rembMessage : SubPacket where
  bytes := [0x8F, 206, 0, 5, 0, 0, 0, 1, 0, 0, 0, 0, 82, 69, 77, 66, 1, 255, 255, 255, 0, 0, 0, 7]
  size := by decide

instance (sub : SubPacket) : Decidable (Sized sub) := inferInstanceAs (Decidable ((_ → _) ∧ (_ → _)))

theorem analyzeFeedback_report_remb :
    ∃ results, List.Forall₂ (Forwarded ⟨7, 55543, 44444, 300000⟩) [reportAbout7, rembMessage] results
      ∧ analyzeFeedback ⟨7, 55543, 44444, 300000⟩ (compound [reportAbout7, rembMessage])
        = .ok (56, results.flatten, [0, 32]) :=
  (analyzeFeedback_compound ⟨7, 55543, 44444, 300000⟩ reportAbout7 [rembMessage] (by decide)
    (by decide)).2 (by decide)

end RtcpForwarder

end Licode.Media
