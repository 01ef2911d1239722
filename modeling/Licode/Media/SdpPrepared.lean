import Licode.Media.SdpCodecs
import Licode.Media.SdpPayloads

/-!
# Descriptions that a connection prepares

A description is prepared as an offer, or as the answer to a description that has been read, and then gets
credentials, candidates, a fingerprint and sources. What holds of the payloads of a description that has been
read holds of those of its answer.
-/

namespace Licode.Media.Sdp

open Licode.Media.Sdp.SdpInfo

/-- What is known of payloads when all lines have been read, and before the feedback is added. -/
structure PayloadsFound (payloads : List RtpMap) : Prop where
  known : ∀ rtp ∈ payloads, isKnown rtp = true
  channels : ∀ rtp ∈ payloads, rtp.channels = 1
  absorbs : payloads.Pairwise Parser.Absorbs
  feedback : ∀ rtp ∈ payloads, rtp.feedbackTypes = []

/-- What is known of them then: payloads of one type have the same feedback. -/
structure PayloadsRead (payloads : List RtpMap) : Prop where
  known : ∀ rtp ∈ payloads, isKnown rtp = true
  channels : ∀ rtp ∈ payloads, rtp.channels = 1
  absorbs : payloads.Pairwise Parser.Absorbs
  feedback : ∀ rtp ∈ payloads, ∀ fb ∈ rtp.feedbackTypes, fb ≠ []
  same : ∀ r ∈ payloads, ∀ s ∈ payloads, r.payloadType = s.payloadType → r.feedbackTypes = s.feedbackTypes

theorem PayloadsFound.read {payloads : List RtpMap} (h : PayloadsFound payloads) : PayloadsRead payloads where
  known := h.known
  channels := h.channels
  absorbs := h.absorbs
  feedback rtp hrtp fb hfb := by
    rw [h.feedback rtp hrtp] at hfb
    cases hfb
  same r hr s hs _ := by rw [h.feedback r hr, h.feedback s hs]

theorem payloadsFound_internal : PayloadsFound internalPayloads where
  known := by decide
  channels := by decide
  absorbs := by simp [internalPayloads, codec, Parser.Absorbs]
  feedback := by decide

/-- A map after an assignment. -/
theorem mem_mapSet_iff {ν : Type} {key : AString} {value : ν} {m : List (AString × ν)}
    (h : m.Pairwise fun a b => a.1 < b.1) (entry : AString × ν) :
    entry ∈ mapSet key value m ↔ entry = (key, value) ∨ entry ∈ m ∧ entry.1 ≠ key := by
  induction m with
  | nil => simp [mapSet]
  | cons first rest ih =>
      obtain ⟨k, v⟩ := first
      obtain ⟨hfirst, hrest⟩ := List.pairwise_cons.mp h
      have hne (hle : ¬ k < key) (entry : AString × ν) (hmem : entry ∈ rest) : entry.1 ≠ key := by
        rintro rfl
        exact hle (hfirst entry hmem)
      rw [mapSet]
      split_ifs with heq hlt
      · subst heq
        have hothers (hmem : entry ∈ rest) : entry.1 ≠ k := hne (List.lt_irrefl k) entry hmem
        rw [List.mem_cons, List.mem_cons]
        constructor
        · exact Or.imp_right fun hmem => ⟨.inr hmem, hothers hmem⟩
        · rintro (hsame | ⟨rfl | hmem, hother⟩)
          · exact .inl hsame
          · exact absurd rfl hother
          · exact .inr hmem
      · rw [List.mem_cons]
        refine or_congr_right ⟨fun hmem => ⟨hmem, ?_⟩, And.left⟩
        obtain rfl | hmem := List.mem_cons.mp hmem
        · exact heq
        · exact hne (List.lt_asymm hlt) entry hmem
      · rw [List.mem_cons, ih hrest, List.mem_cons]
        constructor
        · rintro (rfl | hsame | ⟨hmem, hother⟩)
          · exact .inr ⟨.inl rfl, heq⟩
          · exact .inl hsame
          · exact .inr ⟨.inr hmem, hother⟩
        · rintro (hsame | ⟨hmem | hmem, hother⟩)
          · exact .inr (.inl hsame)
          · exact .inl hmem
          · exact .inr (.inr ⟨hmem, hother⟩)

theorem set_subset_set {m m' : FormatParameters} (h : m.entries ⊆ m'.entries) (option value : AString) :
    (m.set option value).entries ⊆ (m'.set option value).entries := by
  intro entry hentry
  rw [FormatParameters.set, mem_mapSet_iff m.ordered] at hentry
  rw [FormatParameters.set, mem_mapSet_iff m'.ordered]
  exact hentry.imp_right fun hmem => ⟨h hmem.1, hmem.2⟩

namespace Parser

/-! ### One more payload, or one more parameter -/

variable {p : Parser} {line : AString}

theorem payloadsFound_addRtpMap (h : PayloadsFound p.info.payloadVector) (payloadType : UInt32) (codecname : AString)
    (clock : UInt32) : PayloadsFound (p.addRtpMap payloadType codecname clock).info.payloadVector := by
  have hview := view_addRtpMap p ⟨payloadType, codecname, clock, p.mtype, 1, [], ⟨[], .nil⟩⟩
  have hpayloads : (p.addRtpMap payloadType codecname clock).info.payloadVector = p.info.payloadVector
      ++ if isKnown ⟨payloadType, codecname, clock, p.mtype, 1, [], ⟨[], .nil⟩⟩ then
        [⟨payloadType, codecname, clock, p.mtype, 1, [], ⟨[], .nil⟩⟩] else [] :=
    congrArg (fun v : Parser => v.info.payloadVector) hview
  rw [hpayloads]
  split_ifs with hknown
  · refine ⟨?_, ?_, ?_, ?_⟩
    · exact List.forall_mem_append.mpr ⟨h.known, List.forall_mem_singleton.mpr hknown⟩
    · exact List.forall_mem_append.mpr ⟨h.channels, List.forall_mem_singleton.mpr rfl⟩
    · refine List.pairwise_append.mpr ⟨h.absorbs, List.pairwise_singleton _ _, fun r _ s hs => ?_⟩
      rw [List.mem_singleton.mp hs]
      exact fun _ => List.nil_subset _
    · exact List.forall_mem_append.mpr ⟨h.feedback, List.forall_mem_singleton.mpr rfl⟩
  · rw [List.append_nil]
    exact h

theorem payloadsFound_setFormatParameter (h : PayloadsFound p.info.payloadVector) (payloadType : UInt32)
    (option value : AString) :
    PayloadsFound (p.setFormatParameter payloadType option value).info.payloadVector := by
  rw [setFormatParameter]
  refine ⟨List.forall_mem_map.mpr fun rtp hrtp => ?_, List.forall_mem_map.mpr fun rtp hrtp => ?_, ?_,
    List.forall_mem_map.mpr fun rtp hrtp => ?_⟩
  · split_ifs
    · exact h.known rtp hrtp
    · exact h.known rtp hrtp
  · split_ifs
    · exact h.channels rtp hrtp
    · exact h.channels rtp hrtp
  · refine List.pairwise_map.mpr (h.absorbs.imp fun {r s} hrs => ?_)
    -- both get the parameter, or neither does
    by_cases hr : r.payloadType = payloadType
    · by_cases hs : s.payloadType = payloadType
      · rw [if_pos hr, if_pos hs]
        exact fun htype => set_subset_set (hrs htype) option value
      · rw [if_pos hr, if_neg hs]
        exact fun htype => absurd (htype.symm.trans hr) hs
    · by_cases hs : s.payloadType = payloadType
      · rw [if_neg hr, if_pos hs]
        exact fun htype => absurd (htype.trans hs) hr
      · rw [if_neg hr, if_neg hs]
        exact hrs
  · split_ifs
    · exact h.feedback rtp hrtp
    · exact h.feedback rtp hrtp

/-! ### A line -/

/-- What a part of the loop body may do to the payloads. -/
def Finds (p q : Parser) : Prop := PayloadsFound p.info.payloadVector → PayloadsFound q.info.payloadVector

/-- The same of a part that may fail. -/
def Leads (p : Parser) (x : Checked Parser) : Prop := Ends (fun _ => True) (Finds p) x

theorem leads_bind {α : Type} {x : Checked α} {f : α → Checked Parser} (h : ∀ a, Leads p (f a)) :
    Leads p (x >>= f) := by
  cases x with
  | error e => trivial
  | ok a => exact h a

theorem leads_ok {q : Parser} (h : q.info.payloadVector = p.info.payloadVector) : Leads p (.ok q) :=
  Ends.ok fun hfound => h ▸ hfound

theorem leads_if {condition : Prop} [Decidable condition] {x : Checked Parser} (h : Leads p x) :
    Leads p (if condition then x else .ok p) := by
  split_ifs
  · exact h
  · exact leads_ok rfl

theorem finds_processFmtp (p : Parser) (line : AString) : Finds p (p.processFmtp line) := by
  intro h
  rw [processFmtp]
  split_ifs
  · split
    · exact payloadsFound_setFormatParameter h _ _ _
    · exact payloadsFound_setFormatParameter h _ _ _
    · exact h
  · exact h

theorem leads_processRtpmap (p : Parser) (line : AString) :
    Leads p (p.processRtpmap line) := by
  rw [processRtpmap]
  refine leads_if (leads_bind fun _ => leads_bind fun _ => leads_bind fun _ => ?_)
  exact Ends.ok fun h => payloadsFound_addRtpMap h _ _ _

/-- All other parts leave the payloads as they are. -/
theorem leads_branch {branch : List String × (Parser → AString → Checked Parser)} (hbranch : branch ∈ branches)
    (p : Parser) (line : AString) : Leads p (branch.2 p line) := by
  by_cases hcodecs : branch.1 ∈ codecKeywords
  · simp only [branches, List.mem_cons, List.not_mem_nil, or_false] at hbranch
    rcases hbranch with rfl | rfl | rfl | rfl | rfl | rfl | rfl | rfl | rfl | rfl | rfl | rfl | rfl | rfl
      | rfl | rfl | rfl | rfl | rfl
    all_goals try exact absurd hcodecs (by decide)
    · refine leads_ok ?_
      rw [processVideo]
      split_ifs <;> rfl
    · refine leads_ok ?_
      rw [processAudio]
      split_ifs <;> rfl
    · exact leads_processRtpmap p line
    · exact Ends.ok (finds_processFmtp p line)
  · refine (keeps_branch hbranch hcodecs p line).mono fun q hq hfound => ?_
    simp only [codecState, Prod.mk.injEq] at hq
    rw [hq.2.1]
    exact hfound

theorem leads_processLine (p : Parser) (line : AString) : Leads p (p.processLine line) := by
  rw [processLine_eq_branches]
  refine Ends.foldlM (show Finds p p from id) fun q branch hbranch hq => ?_
  exact (leads_branch hbranch q line).mono fun r hr h => hr (hq h)

theorem payloadsFound_lines {lines : List AString} {p q : Parser} (h : PayloadsFound p.info.payloadVector)
    (hread : lines.foldlM processLine p = .ok q) : PayloadsFound q.info.payloadVector := by
  have hends : Ends (fun _ => True) (fun q : Parser => PayloadsFound q.info.payloadVector)
      (lines.foldlM processLine p) :=
    Ends.foldlM h fun r line _ hr => (leads_processLine r line).mono fun _ hfinds => hfinds hr
  exact hends.value hread

/-! ### The feedback -/

theorem getElem?_of_piece {parts : List AString} {i : Nat} {part : AString} (h : piece parts i = .ok part) :
    parts[i]? = some part := by
  rw [piece] at h
  split at h
  · cases h
    assumption
  · cases h

theorem payloadsRead_addFeedback {payloads payloads' : List RtpMap} {line : AString} (h : PayloadsRead payloads)
    (hadd : addFeedback payloads line = .ok payloads') : PayloadsRead payloads' := by
  obtain ⟨payloadType, -, hadd⟩ := exists_of_bind_ok hadd
  obtain ⟨feedback, hfeedback, hadd⟩ := exists_of_bind_ok hadd
  have hne : feedback ≠ [] := splitOneOf_last_ne_nil (by decide) (getElem?_of_piece hfeedback)
  cases hadd
  refine ⟨List.forall_mem_map.mpr fun rtp hrtp => ?_, List.forall_mem_map.mpr fun rtp hrtp => ?_, ?_,
    List.forall_mem_map.mpr fun rtp hrtp => ?_,
    List.forall_mem_map.mpr fun r hr => List.forall_mem_map.mpr fun s hs => ?_⟩
  · split_ifs
    · exact h.known rtp hrtp
    · exact h.known rtp hrtp
  · split_ifs
    · exact h.channels rtp hrtp
    · exact h.channels rtp hrtp
  · refine List.pairwise_map.mpr (h.absorbs.imp fun {r s} hrs => ?_)
    split_ifs
    · exact hrs
    · exact hrs
    · exact hrs
    · exact hrs
  · split_ifs
    · exact List.forall_mem_append.mpr ⟨h.feedback rtp hrtp, List.forall_mem_singleton.mpr hne⟩
    · exact h.feedback rtp hrtp
  · by_cases htype : r.payloadType = strtoul payloadType
    · by_cases htype' : s.payloadType = strtoul payloadType
      · rw [if_pos htype, if_pos htype']
        exact fun hsame => congrArg (· ++ [feedback]) (h.same r hr s hs hsame)
      · rw [if_pos htype, if_neg htype']
        exact fun hsame => absurd (hsame.symm.trans htype) htype'
    · by_cases htype' : s.payloadType = strtoul payloadType
      · rw [if_neg htype, if_pos htype']
        exact fun hsame => absurd (hsame.trans htype') htype
      · rw [if_neg htype, if_neg htype']
        exact h.same r hr s hs

theorem payloadsRead_finish {p : Parser} (h : PayloadsFound p.info.payloadVector) {ok : Bool} {info : SdpInfo}
    (hfinish : p.finish = .ok (ok, info)) : PayloadsRead info.payloadVector := by
  have hshare : (shareCredentials p.info).payloadVector = p.info.payloadVector := by
    rw [shareCredentials]
    split_ifs <;> rfl
  rw [finish] at hfinish
  split_ifs at hfinish
  · cases hfinish
    exact h.read
  · obtain ⟨payloadVector, hadd, hinfo⟩ := exists_of_bind_ok hfinish
    cases hinfo
    have hstart : PayloadsRead (addCredentials (shareCredentials p.info)).payloadVector := by
      change PayloadsRead (shareCredentials p.info).payloadVector
      rw [hshare]
      exact h.read
    have hends : Ends (fun _ => True) PayloadsRead (p.tmpFeedbackVector.foldlM addFeedback
        (addCredentials (shareCredentials p.info)).payloadVector) :=
      Ends.foldlM hstart fun payloads line _ hpayloads =>
        Ends.of_forall (fun _ _ => trivial) fun _ hok => payloadsRead_addFeedback hpayloads hok
    exact hends.value hadd

end Parser

theorem payloadsRead_processSdp {sdp media : AString} {ok : Bool} {info : SdpInfo}
    (h : SdpInfo.create.processSdp sdp media = .ok (ok, info)) : PayloadsRead info.payloadVector := by
  obtain ⟨p, hlines, hfinish⟩ := exists_of_bind_ok h
  have hnone : PayloadsFound (Parser.start .create media).info.payloadVector :=
    ⟨by simp [Parser.start, create], by simp [Parser.start, create], List.Pairwise.nil, by simp [Parser.start, create]⟩
  exact Parser.payloadsRead_finish (Parser.payloadsFound_lines hnone hlines) hfinish

/-! ### Preparing a description -/

/-- What a connection may make of a new description before it is written. -/
inductive Prepared : SdpInfo → Prop
  | createOfferSdp (videoEnabled audioEnabled : Bool) : Prepared (create.createOfferSdp videoEnabled audioEnabled)
  | setOfferSdp {sdp media : AString} {ok : Bool} {offerSdp : SdpInfo}
      (hoffer : create.processSdp sdp media = .ok (ok, offerSdp)) : Prepared (create.setOfferSdp offerSdp)
  | setCredentials {x : SdpInfo} (h : Prepared x) (username password : AString) (mediaType : MediaType) :
      Prepared (x.setCredentials username password mediaType)
  | addCandidate {x : SdpInfo} (h : Prepared x) (candidate : CandidateInfo) : Prepared (x.addCandidate candidate)
  | fingerprint {x : SdpInfo} (h : Prepared x) (fingerprint : AString) :
      Prepared { x with isFingerprint := true, fingerprint := fingerprint }
  | ssrcs {x : SdpInfo} (h : Prepared x) (audioSsrc videoSsrc videoRtxSsrc : UInt32) :
      Prepared { x with audioSsrc := audioSsrc, videoSsrc := videoSsrc, videoRtxSsrc := videoRtxSsrc }

/-- What holds of a prepared description. -/
structure Ready (x : SdpInfo) : Prop where
  payloads : PayloadsRead x.payloadVector
  crypto : x.cryptoVector = []
  audioDirection : ∃ direction, x.audioDirection = some direction
  videoDirection : ∃ direction, x.videoDirection = some direction
  fingerprint : x.isFingerprint = true ∨ x.fingerprint = []

theorem Prepared.ready {x : SdpInfo} (h : Prepared x) : Ready x := by
  induction h with
  | createOfferSdp videoEnabled audioEnabled =>
      exact ⟨payloadsFound_internal.read, rfl, ⟨_, rfl⟩, ⟨_, rfl⟩, .inr rfl⟩
  | setOfferSdp hoffer =>
      have hpayloads := payloadsRead_processSdp hoffer
      exact ⟨hpayloads, rfl, ⟨_, rfl⟩, ⟨_, rfl⟩, .inr rfl⟩
  | setCredentials _ username password mediaType ih =>
      cases mediaType with
      | video => exact ⟨ih.payloads, ih.crypto, ih.audioDirection, ih.videoDirection, ih.fingerprint⟩
      | audio => exact ⟨ih.payloads, ih.crypto, ih.audioDirection, ih.videoDirection, ih.fingerprint⟩
      | other => exact ⟨ih.payloads, ih.crypto, ih.audioDirection, ih.videoDirection, ih.fingerprint⟩
  | addCandidate _ candidate ih =>
      exact ⟨ih.payloads, ih.crypto, ih.audioDirection, ih.videoDirection, ih.fingerprint⟩
  | fingerprint _ fingerprint ih => exact ⟨ih.payloads, ih.crypto, ih.audioDirection, ih.videoDirection, .inl rfl⟩
  | ssrcs _ audioSsrc videoSsrc videoRtxSsrc ih =>
      exact ⟨ih.payloads, ih.crypto, ih.audioDirection, ih.videoDirection, ih.fingerprint⟩

end Licode.Media.Sdp
