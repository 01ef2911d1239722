import Licode.Media.SdpCodecs
import Licode.Media.SdpPrinter

/-!
# The counters of codecs

`getSdp` takes the payload type for the last one of its line that comes where the counter of codecs says. A text adds
to the counters and to the payloads, an offer adds to the counters and replaces the payloads, and an answer copies both.
-/

namespace Licode.Media.Sdp

/-- The counters are the numbers of payloads. -/
structure Codecs.Counted (c : Codecs) : Prop where
  video : c.videoCodecs.toInt = c.payloads.countP (·.mediaType = .video)
  audio : c.audioCodecs.toInt = c.payloads.countP (·.mediaType = .audio)

theorem toInt_add_one {n : Int32} {count : Nat} (h : n.toInt = count) (hsmall : count + 1 < 2 ^ 31) :
    (n + 1).toInt = (count + 1 : Nat) := by
  have hone : (1 : Int32).toInt = 1 := rfl
  rw [Int32.toInt_add, h, hone]
  apply Int.bmod_eq_of_le <;> omega

namespace Codecs

variable {c : Codecs}

theorem Counted.add (h : c.Counted) {n : Negotiated} (hmedia : n.mediaType ≠ .other)
    (hsmall : c.payloads.length + 1 < 2 ^ 31) : (c.add n).Counted := by
  have hvideo : c.payloads.countP (·.mediaType = .video) ≤ c.payloads.length := List.countP_le_length
  have haudio : c.payloads.countP (·.mediaType = .audio) ≤ c.payloads.length := List.countP_le_length
  have hpayload : n.payload.mediaType = n.mediaType := rfl
  cases htype : n.mediaType with
  | video =>
      constructor
      · simp only [Codecs.add, htype, if_true, List.countP_append, List.countP_singleton, hpayload, decide_true]
        exact toInt_add_one h.video (by omega)
      · simpa [Codecs.add, htype, hpayload] using h.audio
  | audio =>
      constructor
      · simpa [Codecs.add, htype, hpayload] using h.video
      · simp only [Codecs.add, htype, reduceCtorEq, if_false, List.countP_append, List.countP_singleton, hpayload,
          decide_true, if_true]
        exact toInt_add_one h.audio (by omega)
  | other => exact absurd htype hmedia

theorem Counted.addAll (h : c.Counted) {found : List Negotiated} (hmedia : ∀ n ∈ found, n.mediaType ≠ .other)
    (hsmall : c.payloads.length + found.length < 2 ^ 31) : (c.addAll found).Counted := by
  induction found generalizing c with
  | nil => exact h
  | cons n found ih =>
      obtain ⟨hn, hfound⟩ := List.forall_mem_cons.mp hmedia
      rw [List.length_cons] at hsmall
      have hlength : (c.add n).payloads.length = c.payloads.length + 1 := by
        rw [Codecs.add, List.length_append, List.length_singleton]
      apply ih (h.add hn (by omega)) hfound
      omega

end Codecs

namespace SdpInfo

/-- What calls make of new descriptions, each of them under its condition. A text has no codec before its first
section, and there are not too many of them; an offer is made only while nothing is counted. -/
inductive Made : SdpInfo → Prop
  | create : Made create
  | initWithSdp {info info' : SdpInfo} {sdp media : AString} {answer : Bool} (h : Made info)
      (hread : info.processSdp sdp media = .ok (answer, info'))
      (hsections : ∀ n ∈ negotiated (Parser.start info media).mtype (getlines sdp), n.mediaType ≠ .other)
      (hsmall :
        info.payloadVector.length + (negotiated (Parser.start info media).mtype (getlines sdp)).length < 2 ^ 31) :
      Made info'
  | setOfferSdp {info offerSdp : SdpInfo} (h : Made info) (hoffer : Made offerSdp) : Made (info.setOfferSdp offerSdp)
  | createOfferSdp {info : SdpInfo} (h : Made info) (hnone : info.videoCodecs = 0 ∧ info.audioCodecs = 0)
      (videoEnabled audioEnabled : Bool) : Made (info.createOfferSdp videoEnabled audioEnabled)

/-- An offer leaves the counters right only if nothing has been counted before it. -/
theorem counted_createOfferSdp_iff (info : SdpInfo) (videoEnabled audioEnabled : Bool) :
    (info.createOfferSdp videoEnabled audioEnabled).codecs.Counted ↔ info.videoCodecs = 0 ∧ info.audioCodecs = 0 := by
  have hcount (counter step : Int32) (h : (counter + step).toInt = step.toInt) : counter = 0 := by
    calc counter = counter + step - step := (Int32.add_sub_cancel _ _).symm
      _ = 0 := by rw [Int32.toInt_inj.mp h, Int32.sub_self]
  constructor
  · rintro ⟨hvideo, haudio⟩
    exact ⟨hcount info.videoCodecs (countCodecs .video) hvideo, hcount info.audioCodecs (countCodecs .audio) haudio⟩
  · intro hnone
    rw [createOfferSdp, hnone.1, hnone.2]
    exact ⟨rfl, rfl⟩

theorem Made.counted {info : SdpInfo} (h : Made info) : info.codecs.Counted := by
  induction h with
  | create => exact ⟨rfl, rfl⟩
  | initWithSdp _ hread hsections hsmall ih =>
      rw [codecs_processSdp hread]
      apply ih.addAll hsections
      rw [codecs, List.length_map]
      exact hsmall
  | setOfferSdp _ _ _ ih => exact ih
  | createOfferSdp _ hnone videoEnabled audioEnabled _ =>
      exact (counted_createOfferSdp_iff _ videoEnabled audioEnabled).mpr hnone

/-! ### The line of a section -/

/-- The payload types with one blank between two of them. -/
def spaced (payloads : List RtpMap) : AString :=
  (ascii " ").intercalate (payloads.map fun rtp => decimal rtp.payloadType.toNat)

theorem printPayloadTypes_eq (payloads : List RtpMap) {codecs : Int32} (h : codecs.toInt = payloads.length) :
    printPayloadTypes payloads codecs = spaced payloads := by
  have hall : ∀ k : Nat, codecs.toInt = (k + payloads.length : Nat) →
      (payloads.zipIdx k).flatMap (fun place =>
        decimal place.1.payloadType.toNat ++ if ((place.2 + 1 : Nat) : Int) < codecs.toInt then ascii " " else [])
      = spaced payloads := by
    clear h
    induction payloads with
    | nil => exact fun _ _ => rfl
    | cons rtp payloads ih =>
        intro k hk
        rw [List.length_cons] at hk
        rw [List.zipIdx_cons, List.flatMap_cons, ih (k + 1) (by omega)]
        cases payloads with
        | nil =>
            have hlast : ¬ ((k + 1 : Nat) : Int) < codecs.toInt := by
              rw [hk, List.length_nil]
              omega
            simp only [if_neg hlast, List.append_nil, spaced, List.map_cons, List.map_nil, List.intercalate_nil,
              List.intercalate_singleton]
        | cons next payloads =>
            have hmore : ((k + 1 : Nat) : Int) < codecs.toInt := by
              rw [hk, List.length_cons]
              omega
            simp only [if_pos hmore, spaced, List.map_cons, List.intercalate_cons_cons]
  rw [printPayloadTypes, hall 0 (by rw [h, Nat.zero_add])]

theorem length_payloadsOf (info : SdpInfo) (mediaType : MediaType) :
    info.codecs.payloads.countP (·.mediaType = mediaType) = (info.payloadsOf mediaType).length := by
  have hkind : ((fun rtp : RtpMap => decide (rtp.mediaType = mediaType)) ∘ skeleton)
      = fun rtp : RtpMap => decide (rtp.mediaType = mediaType) := rfl
  rw [codecs, List.countP_map, hkind, List.countP_eq_length_filter, payloadsOf]

/-- What the line of a section has to be. -/
def sectionLine (start : String) (info : SdpInfo) (mediaType : MediaType) : AString :=
  ascii start ++ printProfile info.profile ++ spaced (info.payloadsOf mediaType)

/-- **The counters are right, and every section lists its payload types with a blank between them,** after calls that
meet their conditions. -/
theorem counters_right {info : SdpInfo} (h : Made info) :
    info.videoCodecs.toInt = (info.payloadsOf .video).length ∧ info.audioCodecs.toInt = (info.payloadsOf .audio).length
      ∧ (∀ msidtemp lines, info.printAudio msidtemp = .ok lines →
        lines.head? = some (sectionLine "m=audio 1" info .audio))
      ∧ ∀ msidtemp lines, info.printVideo msidtemp = .ok lines →
        lines.head? = some (sectionLine "m=video 1" info .video) := by
  obtain ⟨hvideo, haudio⟩ := h.counted
  rw [length_payloadsOf] at hvideo haudio
  change info.videoCodecs.toInt = _ at hvideo
  change info.audioCodecs.toInt = _ at haudio
  refine ⟨hvideo, haudio, fun msidtemp lines hprint => ?_, fun msidtemp lines hprint => ?_⟩
  · obtain ⟨extMaps, -, hprint⟩ := exists_of_bind_ok hprint
    obtain ⟨mids, -, hprint⟩ := exists_of_bind_ok hprint
    rw [printPayloadTypes_eq _ haudio] at hprint
    rw [← Except.ok.inj hprint]
    rfl
  · obtain ⟨extMaps, -, hprint⟩ := exists_of_bind_ok hprint
    obtain ⟨mids, -, hprint⟩ := exists_of_bind_ok hprint
    rw [printPayloadTypes_eq _ hvideo] at hprint
    rw [← Except.ok.inj hprint]
    rfl

theorem counters_right_answer : (create.setOfferSdp (create.createOfferSdp true true)).videoCodecs.toInt = 3
    ∧ (create.setOfferSdp (create.createOfferSdp true true)).audioCodecs.toInt = 2 := by
  have h := counters_right (.setOfferSdp .create (.createOfferSdp .create ⟨rfl, rfl⟩ true true))
  exact ⟨h.1, h.2.1⟩

/-- An offer after an answer, as when a peer is subscribed to: the line of video ends with a blank. -/
theorem offer_after_answer :
    let info := (create.setOfferSdp (create.createOfferSdp true true)).createOfferSdp true true
    info.videoCodecs.toInt = 6 ∧ (info.payloadsOf .video).length = 3
      ∧ printPayloadTypes (info.payloadsOf .video) info.videoCodecs = ascii "100 116 117 " := by
  decide

end SdpInfo

end Licode.Media.Sdp
