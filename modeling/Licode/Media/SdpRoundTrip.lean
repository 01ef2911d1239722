import Licode.Media.SdpWholeText

/-!
# The round trip of a description

`getSdp` writes a description and `processSdp` reads it into a new one. What is read is the description again
where the two agree on every kind of attribute. They do not for extensions, whose URI loses its last character,
for the source of retransmissions, which is written like any other source, for the feedback of audio, for candidates
of video in a bundle, which are written twice, and for candidates that are not for UDP. A description without one
of the media has a direction that is never set.
-/

namespace Licode.Media.Sdp

open Licode.Media.Sdp.SdpInfo

open Licode.Media.Sdp.Parser

/-! ### What is compared -/

/-- The descriptions say the same. A candidate says what its text says about it. -/
structure Same (x info : SdpInfo) : Prop where
  hasAudio : info.hasAudio = x.hasAudio
  hasVideo : info.hasVideo = x.hasVideo
  isBundle : info.isBundle = x.isBundle
  isRtcpMux : info.isRtcpMux = x.isRtcpMux
  audioDirection : info.audioDirection = x.audioDirection
  videoDirection : info.videoDirection = x.videoDirection
  iceAudioUsername : info.iceAudioUsername = x.iceAudioUsername
  iceAudioPassword : info.iceAudioPassword = x.iceAudioPassword
  iceVideoUsername : info.iceVideoUsername = x.iceVideoUsername
  iceVideoPassword : info.iceVideoPassword = x.iceVideoPassword
  isFingerprint : info.isFingerprint = x.isFingerprint
  fingerprint : info.fingerprint = x.fingerprint
  audioSsrc : info.audioSsrc = x.audioSsrc
  videoSsrc : info.videoSsrc = x.videoSsrc
  videoRtxSsrc : info.videoRtxSsrc = x.videoRtxSsrc
  bundleTags : info.bundleTags = x.bundleTags
  extMapVector : info.extMapVector = x.extMapVector
  payloadVector : info.payloadVector = x.payloadVector
  candidates : ∀ mediaType, (info.candidateVector.filter (·.mediaType = mediaType)).map (written mediaType)
    = (x.candidateVector.filter (·.mediaType = mediaType)).map (written mediaType)

theorem same_erase_iff (x info : SdpInfo) : Same x (erase info) ↔ Same x info :=
  ⟨fun h => ⟨h.1, h.2, h.3, h.4, h.5, h.6, h.7, h.8, h.9, h.10, h.11, h.12, h.13, h.14, h.15, h.16, h.17, h.18, h.19⟩,
    fun h => ⟨h.1, h.2, h.3, h.4, h.5, h.6, h.7, h.8, h.9, h.10, h.11, h.12, h.13, h.14, h.15, h.16, h.17, h.18, h.19⟩⟩

/-- The description is written, and what is read from the text says the same. -/
def RoundTrip (x : SdpInfo) (rand : Nat → Nat) (media : AString) : Prop :=
  ∃ text x' info, x.getSdp (genRandom rand) = .ok (text, x') ∧ create.processSdp text media = .ok (true, info)
    ∧ Same x' info

/-- The tags that the line of the group carries, and the types that the lines of the media give them. -/
structure TagsCarried (x : SdpInfo) : Prop where
  bundle : x.isBundle = false → x.bundleTags = []
  nine : x.bundleTags.length ≤ 9
  last : ∀ tag, x.bundleTags.getLast? = some tag → tag.id ≠ []
  unnamed : ∀ tag ∈ x.bundleTags, tag.id = [] → tag.mediaType = .other
  namesakes : ∀ tag ∈ x.bundleTags, ∀ tag' ∈ x.bundleTags, tag.id = tag'.id → tag.mediaType = tag'.mediaType

/-- Payloads are written for audio first, and their feedback for video only: it goes to all of one type. -/
structure PayloadsCarried (x : SdpInfo) : Prop where
  order : x.payloadVector = x.payloadsOf .audio ++ x.payloadsOf .video
  feedback : ∀ rtp ∈ x.payloadVector, rtp.feedbackTypes ≠ [] →
    (x.payloadsOf .video).countP (·.payloadType = rtp.payloadType) = 1

/-- A bundle writes all candidates for audio. Those that are not for UDP are not read. -/
def CandidatesCarried (x : SdpInfo) : Prop :=
  ∀ c ∈ x.candidateVector, isUdp c ∧ (c.mediaType = .audio ∨ x.isBundle = false ∧ c.mediaType = .video)

/-- What the text can carry. -/
structure Carried (x : SdpInfo) : Prop where
  hasAudio : x.hasAudio = true
  hasVideo : x.hasVideo = true
  credentials : ∀ text ∈ [x.iceAudioUsername, x.iceAudioPassword, x.iceVideoUsername, x.iceVideoPassword], text ≠ []
  fingerprint : x.isFingerprint = true → x.fingerprint ≠ []
  retransmission : x.videoRtxSsrc = 0
  extMaps : x.extMapVector = []
  tags : TagsCarried x
  payloads : PayloadsCarried x
  candidates : CandidatesCarried x

/-! ### Kind by kind -/

section Kinds

variable {x : SdpInfo}

/-- The tags as they are found. -/
def foundTags (x : SdpInfo) : List BundleTag :=
  nameAllTags (nameAllTags (if x.isBundle then (groupIds x.bundleTags).map fun id => ⟨id, .other⟩ else [])
    (tagIds x .audio) .audio) (tagIds x .video) .video

/-- The type that a tag with a name is found with. -/
def foundType (x : SdpInfo) (id : AString) : MediaType :=
  if id ≠ [] ∧ id ∈ tagIds x .video then .video
  else if id ≠ [] ∧ id ∈ tagIds x .audio then .audio
  else .other

theorem nameAllTags_nameAllTags (ids : List AString) :
    nameAllTags (nameAllTags (ids.map fun id => ⟨id, .other⟩) (tagIds x .audio) .audio) (tagIds x .video) .video
      = ids.map fun id => ⟨id, foundType x id⟩ := by
  rw [nameAllTags, nameAllTags, List.map_map, List.map_map]
  refine List.map_congr_left fun id _ => ?_
  simp only [Function.comp_apply, foundType]
  split_ifs <;> rfl

theorem mem_tagIds_iff {id : AString} {mediaType : MediaType} :
    id ∈ tagIds x mediaType ↔ ⟨id, mediaType⟩ ∈ x.bundleTags := by
  rw [tagIds, List.mem_map]
  constructor
  · rintro ⟨tag, htag, rfl⟩
    obtain ⟨hmem, htype⟩ := List.mem_filter.mp htag
    have heq : tag.mediaType = mediaType := of_decide_eq_true htype
    rw [← heq]
    exact hmem
  · exact fun hmem => ⟨⟨id, mediaType⟩, List.mem_filter.mpr ⟨hmem, decide_eq_true rfl⟩, rfl⟩

theorem foundType_eq (hunnamed : ∀ tag ∈ x.bundleTags, tag.id = [] → tag.mediaType = .other)
    (hnamesakes : ∀ tag ∈ x.bundleTags, ∀ tag' ∈ x.bundleTags, tag.id = tag'.id → tag.mediaType = tag'.mediaType)
    {tag : BundleTag} (htag : tag ∈ x.bundleTags) : foundType x tag.id = tag.mediaType := by
  rw [foundType]
  by_cases hnone : tag.id = []
  · rw [if_neg (fun h => h.1 hnone), if_neg (fun h => h.1 hnone), hunnamed tag htag hnone]
  · by_cases hvideo : tag.id ∈ tagIds x .video
    · rw [if_pos ⟨hnone, hvideo⟩]
      exact hnamesakes _ (mem_tagIds_iff.mp hvideo) tag htag rfl
    rw [if_neg fun h => hvideo h.2]
    by_cases haudio : tag.id ∈ tagIds x .audio
    · rw [if_pos ⟨hnone, haudio⟩]
      exact hnamesakes _ (mem_tagIds_iff.mp haudio) tag htag rfl
    rw [if_neg fun h => haudio h.2]
    cases htype : tag.mediaType with
    | video => exact absurd (mem_tagIds_iff.mpr (htype ▸ htag)) hvideo
    | audio => exact absurd (mem_tagIds_iff.mpr (htype ▸ htag)) haudio
    | other => rfl

theorem foundTags_of_bundle (hbundle : x.isBundle = true) :
    foundTags x = (groupIds x.bundleTags).map fun id => ⟨id, foundType x id⟩ := by
  rw [foundTags, if_pos hbundle, nameAllTags_nameAllTags]

theorem foundTags_eq_iff (hclean : Clean x) : foundTags x = x.bundleTags ↔ TagsCarried x := by
  have hfree : ∀ tag ∈ x.bundleTags, free ":  \r\n" tag.id = true :=
    fun tag htag => free_subset (hclean.tags tag htag) rfl
  by_cases hbundle : x.isBundle = true
  · rw [foundTags_of_bundle hbundle]
    constructor
    · intro h
      have hids : groupIds x.bundleTags = x.bundleTags.map (·.id) := by
        conv_rhs => rw [← h, List.map_map]
        exact (List.map_id _).symm
      obtain ⟨hnine, hlast⟩ := (groupIds_eq_iff hfree).mp hids
      have htype : ∀ tag ∈ x.bundleTags, tag.mediaType = foundType x tag.id := by
        intro tag htag
        rw [← h] at htag
        obtain ⟨id, -, rfl⟩ := List.mem_map.mp htag
        rfl
      refine ⟨fun hnone => absurd hbundle (by simp [hnone]), hnine, hlast, fun tag htag hnone => ?_,
        fun tag htag tag' htag' hname => ?_⟩
      · rw [htype tag htag, foundType, if_neg (fun h => h.1 hnone), if_neg (fun h => h.1 hnone)]
      · rw [htype tag htag, htype tag' htag', hname]
    · intro h
      rw [(groupIds_eq_iff hfree).mpr ⟨h.nine, h.last⟩, List.map_map]
      refine (List.map_congr_left fun tag htag => ?_).trans (List.map_id _)
      rw [Function.comp_apply, foundType_eq h.unnamed h.namesakes htag]
      rfl
  · have hnone : foundTags x = [] := by
      rw [foundTags, if_neg hbundle]
      rfl
    rw [hnone]
    constructor
    · intro h
      rw [eq_comm] at h
      exact ⟨fun _ => h, by simp [h], by simp [h], by simp [h], by simp [h]⟩
    · exact fun h => (h.bundle (by simpa using hbundle)).symm

/-- The extensions as they are found. -/
def foundExtMaps (x : SdpInfo) : List ExtMap :=
  (extMapsOf x .audio).map (shorten .audio) ++ (extMapsOf x .video).map (shorten .video)

/-- The characters of all URIs. -/
def uriLength (exts : List ExtMap) : Nat := (exts.map (·.uri.length)).sum

theorem uriLength_append (exts exts' : List ExtMap) : uriLength (exts ++ exts') = uriLength exts + uriLength exts' := by
  rw [uriLength, List.map_append, List.sum_append]
  rfl

theorem uriLength_shorten {exts : List ExtMap} (h : ∀ ext ∈ exts, ext.uri ≠ []) (mediaType : MediaType) :
    uriLength (exts.map (shorten mediaType)) + exts.length = uriLength exts := by
  induction exts with
  | nil => rfl
  | cons ext exts ih =>
      have hrest := ih fun e he => h e (List.mem_cons_of_mem ext he)
      have hone : (shorten mediaType ext).uri.length + 1 = ext.uri.length := by
        rw [shorten, List.length_dropLast]
        exact Nat.sub_add_cancel (List.length_pos_of_ne_nil (h ext List.mem_cons_self))
      simp only [uriLength, List.map_cons, List.sum_cons, List.length_cons] at hrest ⊢
      omega

theorem uriLength_extMapsOf (x : SdpInfo) :
    uriLength (extMapsOf x .audio) + uriLength (extMapsOf x .video) ≤ uriLength x.extMapVector := by
  rw [extMapsOf, extMapsOf]
  induction x.extMapVector with
  | nil => exact Nat.zero_le _
  | cons ext exts ih =>
      simp only [uriLength] at ih ⊢
      cases hmedia : ext.mediaType <;> simp [hmedia] <;> omega

/-- Every URI that is read has lost its last character. -/
theorem foundExtMaps_eq_iff (haudio : AudioRead x) (hvideo : VideoRead x) :
    foundExtMaps x = x.extMapVector ↔ x.extMapVector = [] := by
  constructor
  · intro h
    have hlength : (extMapsOf x .audio).length + (extMapsOf x .video).length = x.extMapVector.length := by
      rw [← h, foundExtMaps, List.length_append, List.length_map, List.length_map]
    have huris : uriLength (foundExtMaps x) = uriLength x.extMapVector := congrArg uriLength h
    have haudioUris := uriLength_shorten haudio.extMaps .audio
    have hvideoUris := uriLength_shorten hvideo.extMaps .video
    have hall := uriLength_extMapsOf x
    rw [foundExtMaps, uriLength_append] at huris
    exact List.eq_nil_of_length_eq_zero (by omega)
  · intro h
    rw [foundExtMaps, extMapsOf, extMapsOf, h]
    rfl

/-- The payloads as they are found. -/
def foundPayloads (x : SdpInfo) : List RtpMap :=
  ((x.payloadsOf .audio ++ x.payloadsOf .video).foldl readPayload []).map fun r =>
    { r with feedbackTypes := r.feedbackTypes ++ feedbackFor (x.payloadsOf .video) r.payloadType }

/-- Payloads of one type have the same feedback, and it is written once for each. -/
theorem feedbackFor_eq {payloads : List RtpMap} {payloadType : UInt32} {feedback : List AString}
    (h : ∀ rtp ∈ payloads, rtp.payloadType = payloadType → rtp.feedbackTypes = feedback) :
    feedbackFor payloads payloadType
      = (List.replicate (payloads.countP (·.payloadType = payloadType)) feedback).flatten := by
  induction payloads with
  | nil => rfl
  | cons rtp payloads ih =>
      have hrest := ih fun r hr => h r (List.mem_cons_of_mem rtp hr)
      rw [feedbackFor] at hrest ⊢
      by_cases htype : rtp.payloadType = payloadType
      · rw [List.filter_cons_of_pos (by simpa using htype), List.countP_cons_of_pos (by simpa using htype),
          List.flatMap_cons, hrest, h rtp List.mem_cons_self htype]
        rfl
      · rw [List.filter_cons_of_neg (by simpa using htype), List.countP_cons_of_neg (by simpa using htype), hrest]

theorem feedbackFor_video (hread : PayloadsRead x.payloadVector) {rtp : RtpMap} (hrtp : rtp ∈ x.payloadVector) :
    feedbackFor (x.payloadsOf .video) rtp.payloadType
      = (List.replicate ((x.payloadsOf .video).countP (·.payloadType = rtp.payloadType)) rtp.feedbackTypes).flatten :=
  feedbackFor_eq fun r hr htype => hread.same r (List.mem_of_mem_filter hr) rtp hrtp htype

theorem foundPayloads_eq_map (hread : PayloadsRead x.payloadVector)
    (horder : x.payloadVector = x.payloadsOf .audio ++ x.payloadsOf .video) :
    foundPayloads x = x.payloadVector.map fun rtp =>
      { rtp with feedbackTypes := feedbackFor (x.payloadsOf .video) rtp.payloadType } := by
  rw [foundPayloads, ← horder, foldl_readPayload hread.channels hread.absorbs, List.map_map]
  rfl

theorem all_of_map_replicate {payloads : List RtpMap} {mediaType : MediaType} {others : List RtpMap}
    (hothers : ∀ rtp ∈ others, rtp.mediaType = mediaType)
    (h : payloads.map (·.mediaType) = others.map (·.mediaType)) : ∀ rtp ∈ payloads, rtp.mediaType = mediaType := by
  intro rtp hrtp
  have hmem : rtp.mediaType ∈ others.map (·.mediaType) := by
    rw [← h]
    exact List.mem_map_of_mem hrtp
  obtain ⟨other, hother, heq⟩ := List.mem_map.mp hmem
  rw [← heq, hothers other hother]

/-- Payloads whose media are in this order are themselves. -/
theorem order_of_mediaTypes (h : x.payloadVector.map (·.mediaType)
    = (x.payloadsOf .audio).map (·.mediaType) ++ (x.payloadsOf .video).map (·.mediaType)) :
    x.payloadVector = x.payloadsOf .audio ++ x.payloadsOf .video := by
  have hof (mediaType : MediaType) : ∀ rtp ∈ x.payloadsOf mediaType, rtp.mediaType = mediaType :=
    fun rtp hrtp => of_decide_eq_true (List.mem_filter.mp hrtp).2
  obtain ⟨audio, video, hsplit, haudio, hvideo⟩ := List.map_eq_append_iff.mp h
  have hallAudio := all_of_map_replicate (hof .audio) haudio
  have hallVideo := all_of_map_replicate (hof .video) hvideo
  have haudioPart : x.payloadsOf .audio = audio := by
    rw [payloadsOf, hsplit, List.filter_append, List.filter_eq_self.mpr, List.filter_eq_nil_iff.mpr, List.append_nil]
    · exact fun rtp hrtp => by simp [hallVideo rtp hrtp]
    · exact fun rtp hrtp => by simp [hallAudio rtp hrtp]
  have hvideoPart : x.payloadsOf .video = video := by
    rw [payloadsOf, hsplit, List.filter_append, List.filter_eq_nil_iff.mpr, List.filter_eq_self.mpr, List.nil_append]
    · exact fun rtp hrtp => by simp [hallVideo rtp hrtp]
    · exact fun rtp hrtp => by simp [hallAudio rtp hrtp]
  rw [haudioPart, hvideoPart, hsplit]

/-- As many copies of some feedback as there are payloads for it. -/
theorem flatten_replicate_eq_iff {feedback : List AString} {n : Nat} :
    (List.replicate n feedback).flatten = feedback ↔ (feedback ≠ [] → n = 1) := by
  constructor
  · intro h hne
    have hlength := congrArg List.length h
    rw [List.length_flatten, List.map_replicate, List.sum_replicate_nat] at hlength
    exact Nat.eq_of_mul_eq_mul_right (List.length_pos_of_ne_nil hne) (hlength.trans (Nat.one_mul _).symm)
  · intro h
    by_cases hnone : feedback = []
    · rw [hnone]
      exact List.flatten_replicate_nil
    · rw [h hnone]
      exact List.append_nil _

theorem foundPayloads_eq_iff (hread : PayloadsRead x.payloadVector) :
    foundPayloads x = x.payloadVector ↔ PayloadsCarried x := by
  have hfeedback (horder : x.payloadVector = x.payloadsOf .audio ++ x.payloadsOf .video) :
      foundPayloads x = x.payloadVector ↔ ∀ rtp ∈ x.payloadVector, rtp.feedbackTypes ≠ [] →
        (x.payloadsOf .video).countP (·.payloadType = rtp.payloadType) = 1 := by
    rw [foundPayloads_eq_map hread horder]
    conv_lhs => rhs; rw [← List.map_id x.payloadVector]
    rw [List.map_inj_left]
    refine forall₂_congr fun rtp hrtp => ?_
    rw [← flatten_replicate_eq_iff, ← feedbackFor_video hread hrtp]
    exact ⟨congrArg RtpMap.feedbackTypes, fun h => by rw [h]; rfl⟩
  constructor
  · intro h
    have horder : x.payloadVector = x.payloadsOf .audio ++ x.payloadsOf .video := by
      refine order_of_mediaTypes ?_
      conv_lhs => rw [← h, foundPayloads, List.map_map]
      rw [← List.map_append]
      exact map_mediaType_foldl_readPayload (x.payloadsOf .audio ++ x.payloadsOf .video) []
    exact ⟨horder, (hfeedback horder).mp h⟩
  · exact fun h => (hfeedback h.order).mpr h.feedback

/-- The candidates as they are found, before they get their credentials. -/
def foundCandidates (x : SdpInfo) : List CandidateInfo :=
  ((audioCandidates x).filter (isUdp ·)).map (written .audio)
    ++ ((videoCandidates x).filter (isUdp ·)).map (written .video)

/-- Those of one media, as they have been written for it. -/
def foundFor (x : SdpInfo) : MediaType → List CandidateInfo
  | .audio => ((audioCandidates x).filter (isUdp ·)).map (written .audio)
  | .video => ((videoCandidates x).filter (isUdp ·)).map (written .video)
  | .other => []

theorem written_written (mediaType mediaType' : MediaType) (c : CandidateInfo) :
    written mediaType (written mediaType' c) = written mediaType c := by
  have haddress : (written mediaType (written mediaType' c)).rAddress = (written mediaType c).rAddress := by
    change (if related c then if related c then c.rAddress else [] else []) = if related c then c.rAddress else []
    split_ifs <;> rfl
  have hport : (written mediaType (written mediaType' c)).rPort = (written mediaType c).rPort := by
    change (if related c then if related c then c.rPort else 0 else 0) = if related c then c.rPort else 0
    split_ifs <;> rfl
  calc written mediaType (written mediaType' c)
      = { written mediaType c with
          rAddress := (written mediaType (written mediaType' c)).rAddress
          rPort := (written mediaType (written mediaType' c)).rPort } := rfl
    _ = written mediaType c := by rw [haddress, hport]

theorem filter_map_written (candidates : List CandidateInfo) (mediaType mediaType' : MediaType) :
    (((candidates.map (written mediaType')).filter (·.mediaType = mediaType)).map (written mediaType))
      = if mediaType' = mediaType then candidates.map (written mediaType) else [] := by
  have hmedia : ∀ c ∈ candidates.map (written mediaType'), c.mediaType = mediaType' :=
    List.forall_mem_map.mpr fun c _ => rfl
  split_ifs with hsame
  · subst hsame
    have hall : (candidates.map (written mediaType')).filter (·.mediaType = mediaType')
        = candidates.map (written mediaType') :=
      List.filter_eq_self.mpr fun c hc => decide_eq_true (hmedia c hc)
    rw [hall, List.map_map]
    exact List.map_congr_left fun c _ => written_written mediaType' mediaType' c
  · have hnone : (candidates.map (written mediaType')).filter (·.mediaType = mediaType) = [] :=
      List.filter_eq_nil_iff.mpr fun c hc h => hsame ((hmedia c hc).symm.trans (of_decide_eq_true h))
    rw [hnone]
    rfl

theorem foundCandidates_filter (mediaType : MediaType) :
    ((foundCandidates x).filter (·.mediaType = mediaType)).map (written mediaType) = foundFor x mediaType := by
  rw [foundCandidates, List.filter_append, List.map_append, filter_map_written, filter_map_written]
  cases mediaType with
  | audio => rw [if_pos rfl, if_neg (by decide), List.append_nil]; rfl
  | video => rw [if_neg (by decide), if_pos rfl, List.nil_append]; rfl
  | other => rw [if_neg (by decide), if_neg (by decide)]; rfl

/-- Credentials are not written. -/
theorem addCredentials_filter (info : SdpInfo) (mediaType : MediaType) :
    ((addCredentials info).candidateVector.filter (·.mediaType = mediaType)).map (written mediaType)
      = (info.candidateVector.filter (·.mediaType = mediaType)).map (written mediaType) := by
  rw [addCredentials]
  induction info.candidateVector with
  | nil => rfl
  | cons c candidates ih =>
      have hone : ∀ d : CandidateInfo, d.mediaType = c.mediaType → written mediaType d = written mediaType c →
          ((d :: candidates.map fun c => if c.mediaType = .video then
              { c with isBundle := info.isBundle, username := info.iceVideoUsername, password := info.iceVideoPassword }
            else
              { c with isBundle := info.isBundle, username := info.iceAudioUsername, password := info.iceAudioPassword }
            ).filter (·.mediaType = mediaType)).map (written mediaType)
          = ((c :: candidates).filter (·.mediaType = mediaType)).map (written mediaType) := by
        intro d htype hwritten
        by_cases hmedia : c.mediaType = mediaType
        · rw [List.filter_cons_of_pos (by simp [htype, hmedia]), List.filter_cons_of_pos (by simp [hmedia]),
            List.map_cons, List.map_cons, hwritten]
          exact congrArg _ ih
        · rw [List.filter_cons_of_neg (by simp [htype, hmedia]), List.filter_cons_of_neg (by simp [hmedia])]
          exact ih
      rw [List.map_cons]
      split_ifs
      · exact hone _ rfl rfl
      · exact hone _ rfl rfl

theorem foundFor_eq (h : CandidatesCarried x) (mediaType : MediaType) :
    foundFor x mediaType = (x.candidateVector.filter (·.mediaType = mediaType)).map (written mediaType) := by
  have hudp (candidates : List CandidateInfo) (hsub : candidates ⊆ x.candidateVector) :
      candidates.filter (isUdp ·) = candidates :=
    List.filter_eq_self.mpr fun c hc => decide_eq_true (h c (hsub hc)).1
  cases mediaType with
  | audio =>
      have haudio : audioCandidates x = x.candidateVector.filter (·.mediaType = .audio) := by
        refine List.filter_congr fun c hc => ?_
        obtain ⟨-, hmedia | ⟨hbundle, -⟩⟩ := h c hc
        · simp [hmedia]
        · simp [hbundle]
      rw [foundFor, hudp (audioCandidates x) fun c hc => List.mem_of_mem_filter hc, haudio]
  | video => rw [foundFor, hudp (videoCandidates x) fun c hc => List.mem_of_mem_filter hc, videoCandidates]
  | other =>
      have hnone : x.candidateVector.filter (·.mediaType = .other) = [] := by
        refine List.filter_eq_nil_iff.mpr fun c hc => ?_
        obtain ⟨-, hmedia | ⟨-, hmedia⟩⟩ := h c hc
        · simp [hmedia]
        · simp [hmedia]
      rw [foundFor, hnone]
      rfl

/-- What is found is for UDP. -/
theorem isUdp_of_mem_foundFor {mediaType : MediaType} {c : CandidateInfo} (h : c ∈ foundFor x mediaType) : isUdp c := by
  cases mediaType with
  | audio =>
      obtain ⟨c, hc, rfl⟩ := List.mem_map.mp h
      exact of_decide_eq_true (List.mem_filter.mp hc).2
  | video =>
      obtain ⟨c, hc, rfl⟩ := List.mem_map.mp h
      exact of_decide_eq_true (List.mem_filter.mp hc).2
  | other => cases h

theorem foundFor_eq_iff :
    (∀ mediaType,
      foundFor x mediaType = (x.candidateVector.filter (·.mediaType = mediaType)).map (written mediaType))
      ↔ CandidatesCarried x := by
  refine ⟨fun h => ?_, foundFor_eq⟩
  have hmem : ∀ c ∈ x.candidateVector, written c.mediaType c ∈ foundFor x c.mediaType := by
    intro c hc
    rw [h c.mediaType]
    exact List.mem_map_of_mem (List.mem_filter.mpr ⟨hc, decide_eq_true rfl⟩)
  have hudp : ∀ c ∈ x.candidateVector, isUdp c := by
    intro c hc
    have hfound : isUdp (written c.mediaType c) := isUdp_of_mem_foundFor (hmem c hc)
    exact hfound
  -- a bundle writes as many for audio as there are
  have hbundle : x.isBundle = true → ∀ c ∈ x.candidateVector, c.mediaType = .audio := by
    intro hbundle
    have hall : (audioCandidates x).filter (isUdp ·) = x.candidateVector := by
      rw [audioCandidates, hbundle, List.filter_filter]
      exact List.filter_eq_self.mpr fun c hc => by simp [hudp c hc]
    have hlength := congrArg List.length (h .audio)
    rw [foundFor, hall, List.length_map, List.length_map] at hlength
    exact fun c hc => of_decide_eq_true (List.length_filter_eq_length_iff.mp hlength.symm c hc)
  intro c hc
  refine ⟨hudp c hc, ?_⟩
  by_cases hx : x.isBundle = true
  · exact .inl (hbundle hx c hc)
  · have hfound := hmem c hc
    cases hmedia : c.mediaType with
    | audio => exact .inl rfl
    | video => exact .inr ⟨by simpa using hx, rfl⟩
    | other =>
        rw [hmedia] at hfound
        cases hfound

end Kinds

/-! ### The round trip -/

section Trip

variable {x : SdpInfo}

theorem hearGroup_eq (v : Parser) : hearGroup x v = { v with info := { v.info with
    isBundle := v.info.isBundle || x.isBundle
    bundleTags := v.info.bundleTags
      ++ if x.isBundle then (groupIds x.bundleTags).map fun id => ⟨id, .other⟩ else [] } } := by
  rw [hearGroup]
  cases x.isBundle with
  | true => simp
  | false => simp

/-- What is found when both media are there. -/
def found (x : SdpInfo) : SdpInfo :=
  { create with
    videoSdpMLine := 0
    audioSdpMLine := 0
    hasAudio := true
    hasVideo := true
    isBundle := x.isBundle
    isRtcpMux := x.isRtcpMux
    audioDirection := x.audioDirection
    videoDirection := x.videoDirection
    iceAudioUsername := writtenUsername x
    iceAudioPassword := writtenPassword x
    iceVideoUsername := x.iceVideoUsername
    iceVideoPassword := x.iceVideoPassword
    isFingerprint := x.isFingerprint
    fingerprint := if x.isFingerprint then x.fingerprint else []
    audioSsrc := x.withSsrcs.audioSsrc
    videoSsrc := x.withSsrcs.videoSsrc
    bundleTags := foundTags x
    extMapVector := foundExtMaps x
    payloadVector := (x.payloadsOf .audio ++ x.payloadsOf .video).foldl readPayload []
    candidateVector := foundCandidates x }

theorem hear_eq (haudio : x.hasAudio = true) (hvideo : x.hasVideo = true) (media : AString) :
    (hear x (start create media).view).info = found x := by
  have hfingerprint : (if x.isFingerprint then x.fingerprint else if x.isFingerprint then x.fingerprint else [])
      = if x.isFingerprint then x.fingerprint else [] := by
    split_ifs <;> rfl
  rw [hear, haudio, hvideo, if_pos rfl, if_pos rfl, hearGroup_eq]
  calc (hearVideo x (hearAudio x _)).info
      = { found x with
          isRtcpMux := x.isRtcpMux || x.isRtcpMux
          isFingerprint := x.isFingerprint || x.isFingerprint
          fingerprint := if x.isFingerprint then x.fingerprint else if x.isFingerprint then x.fingerprint else []
          payloadVector := (x.payloadsOf .video).foldl readPayload ((x.payloadsOf .audio).foldl readPayload []) } := rfl
    _ = found x := by
        rw [Bool.or_self, Bool.or_self, hfingerprint, ← List.foldl_append]
        rfl

/-- What has been read when both media are there. -/
def result (x : SdpInfo) : SdpInfo := { addCredentials (found x) with payloadVector := foundPayloads x }

theorem finish_found (hready : Ready x) (hallRead : AllRead x) (haudio : x.hasAudio = true) (hvideo : x.hasVideo = true)
    {q : Parser} {media : AString} (hview : q.view = hear x (start create media).view) :
    ∃ info, q.finish = .ok (true, info) ∧ erase info = erase (result x) := by
  have hinfo : q.view.info = found x := by rw [hview, hear_eq haudio hvideo]
  have hne : ∀ rtp ∈ x.payloadsOf .video, ∀ fb ∈ rtp.feedbackTypes, fb ≠ [] :=
    fun rtp hrtp => hready.payloads.feedback rtp (List.mem_of_mem_filter hrtp)
  have hfeedback : q.view.tmpFeedbackVector
      = (x.payloadsOf .video).flatMap fun rtp => rtp.feedbackTypes.map (printFeedback rtp) := by
    rw [hview, hear, haudio, hvideo, if_pos rfl, if_pos rfl, hearGroup_eq]
    rfl
  have hvideoName : q.view.info.iceVideoUsername ≠ [] := by
    rw [hinfo]
    exact (hallRead.2 hvideo).username
  have haudioName : q.view.info.iceAudioUsername ≠ [] := by
    rw [hinfo]
    exact (hallRead.1 haudio).username
  have hfinish := finish_view q
  rw [finish_eq hvideoName haudioName hne hfeedback, hinfo] at hfinish
  cases hq : q.finish with
  | error e =>
      rw [hq] at hfinish
      cases hfinish
  | ok r =>
      obtain ⟨ok, info⟩ := r
      rw [hq] at hfinish
      obtain ⟨hok, herase⟩ := Prod.mk.inj (Except.ok.inj hfinish)
      exact ⟨info, by rw [show ok = true from hok], herase⟩

theorem same_result_iff (hclean : Clean x) (hready : Ready x) (hallRead : AllRead x) (haudio : x.hasAudio = true)
    (hvideo : x.hasVideo = true) : Same x.withSsrcs (result x) ↔ Carried x := by
  obtain ⟨haudioRead, hvideoRead⟩ := And.intro (hallRead.1 haudio) (hallRead.2 hvideo)
  have hcandidates (mediaType : MediaType) :
      ((result x).candidateVector.filter (·.mediaType = mediaType)).map (written mediaType) = foundFor x mediaType := by
    change ((addCredentials (found x)).candidateVector.filter (·.mediaType = mediaType)).map (written mediaType) = _
    rw [addCredentials_filter]
    exact foundCandidates_filter mediaType
  constructor
  · intro h
    have hname : writtenUsername x = x.iceAudioUsername := h.iceAudioUsername
    have hpassword : writtenPassword x = x.iceAudioPassword := h.iceAudioPassword
    refine ⟨haudio, hvideo, ?_, haudioRead.fingerprint, h.videoRtxSsrc.symm, ?_, ?_, ?_, ?_⟩
    · simp only [List.forall_mem_cons, List.not_mem_nil, false_implies, implies_true, and_true]
      exact ⟨hname ▸ haudioRead.username, hpassword ▸ haudioRead.password, hvideoRead.username, hvideoRead.password⟩
    · exact (foundExtMaps_eq_iff haudioRead hvideoRead).mp h.extMapVector
    · exact (foundTags_eq_iff hclean).mp h.bundleTags
    · exact (foundPayloads_eq_iff hready.payloads).mp h.payloadVector
    · exact foundFor_eq_iff.mp fun mediaType => (hcandidates mediaType).symm.trans (h.candidates mediaType)
  · intro h
    have hnamed : x.iceAudioUsername ≠ [] := h.credentials _ (by simp)
    have hfingerprint : (if x.isFingerprint then x.fingerprint else []) = x.fingerprint := by
      obtain hflag | hnone := hready.fingerprint
      · rw [if_pos hflag]
      · rw [hnone, ite_self]
    exact {
      hasAudio := haudio.symm
      hasVideo := hvideo.symm
      isBundle := rfl
      isRtcpMux := rfl
      audioDirection := rfl
      videoDirection := rfl
      iceAudioUsername := if_pos hnamed
      iceAudioPassword := if_pos hnamed
      iceVideoUsername := rfl
      iceVideoPassword := rfl
      isFingerprint := rfl
      fingerprint := hfingerprint
      audioSsrc := rfl
      videoSsrc := rfl
      videoRtxSsrc := h.retransmission.symm
      bundleTags := (foundTags_eq_iff hclean).mpr h.tags
      extMapVector := (foundExtMaps_eq_iff haudioRead hvideoRead).mpr h.extMaps
      payloadVector := (foundPayloads_eq_iff hready.payloads).mpr h.payloads
      candidates := fun mediaType => (hcandidates mediaType).trans (foundFor_eq h.candidates mediaType) }

theorem Carried.allRead (h : Carried x) : AllRead x := by
  have hnamed : x.iceAudioUsername ≠ [] := h.credentials _ (by simp)
  have hextMaps (mediaType : MediaType) : ∀ ext ∈ extMapsOf x mediaType, ext.uri ≠ [] := by
    rw [extMapsOf, h.extMaps]
    exact fun ext hext => by cases hext
  refine ⟨fun _ => ⟨?_, ?_, h.fingerprint, hextMaps .audio⟩, fun _ => ⟨?_, ?_, h.fingerprint, hextMaps .video⟩⟩
  · rw [writtenUsername, if_pos hnamed]
    exact hnamed
  · rw [writtenPassword, if_pos hnamed]
    exact h.credentials _ (by simp)
  · exact h.credentials _ (by simp)
  · exact h.credentials _ (by simp)

/-- A direction is read only for a media that is there. -/
theorem direction_hear (media : AString) :
    ((hear x (start create media).view).info.audioDirection = if x.hasAudio then x.audioDirection else none)
      ∧ (hear x (start create media).view).info.videoDirection = if x.hasVideo then x.videoDirection else none := by
  rw [hear, hearGroup_eq]
  cases x.hasAudio with
  | true => cases x.hasVideo with
    | true => exact ⟨rfl, rfl⟩
    | false => exact ⟨rfl, rfl⟩
  | false => cases x.hasVideo with
    | true => exact ⟨rfl, rfl⟩
    | false => exact ⟨rfl, rfl⟩

theorem media_of_same (hready : Ready x) {q : Parser} {media : AString}
    (hview : q.view = hear x (start create media).view) {ok : Bool} {info : SdpInfo} (hfinish : q.finish = .ok (ok, info))
    (hsame : Same x.withSsrcs info) : x.hasAudio = true ∧ x.hasVideo = true := by
  obtain ⟨haudio, hvideo⟩ := directions_finish hfinish
  obtain ⟨haudioHeard, hvideoHeard⟩ := @direction_hear x media
  obtain ⟨audioDirection, haudioSome⟩ := hready.audioDirection
  obtain ⟨videoDirection, hvideoSome⟩ := hready.videoDirection
  rw [← hview] at haudioHeard hvideoHeard
  constructor
  · by_contra hnone
    have hread : none = x.audioDirection := by
      rw [if_neg hnone] at haudioHeard
      exact (haudio.trans haudioHeard).symm.trans hsame.audioDirection
    rw [haudioSome] at hread
    cases hread
  · by_contra hnone
    have hread : none = x.videoDirection := by
      rw [if_neg hnone] at hvideoHeard
      exact (hvideo.trans hvideoHeard).symm.trans hsame.videoDirection
    rw [hvideoSome] at hread
    cases hread

theorem readBack_iff (hprepared : Prepared x) (hclean : Clean x) (rand : Nat → Nat) (media : AString) :
    RoundTrip x rand media ↔ Carried x := by
  have hready := hprepared.ready
  constructor
  · rintro ⟨text, x', info, hprint, hparse, hsame⟩
    have hends := (getSdp_needs x (genRandom rand)).ne_error_iff.mp (by simp [hprint])
    obtain ⟨text', hprint', hread, hfault⟩ := getSdp_tells hclean hready hends rand media
    rw [hprint] at hprint'
    obtain ⟨rfl, rfl⟩ := Prod.mk.inj (Except.ok.inj hprint')
    have hallRead : AllRead x := by
      by_contra hnot
      rw [hfault hnot] at hparse
      cases hparse
    obtain ⟨q, hview, hq⟩ := hread hallRead
    rw [hq] at hparse
    obtain ⟨haudio, hvideo⟩ := media_of_same hready hview hparse hsame
    obtain ⟨info', hfinish, herase⟩ := finish_found hready hallRead haudio hvideo hview
    rw [hparse] at hfinish
    obtain ⟨-, rfl⟩ := Prod.mk.inj (Except.ok.inj hfinish)
    rw [← same_result_iff hclean hready hallRead haudio hvideo, ← same_erase_iff, ← herase, same_erase_iff]
    exact hsame
  · intro h
    have hends : PrintEnds x.isBundle (x.hasAudio || x.hasVideo) x.bundleTags.length x.extMapVector.length := by
      have hnine := h.tags.nine
      rw [h.extMaps]
      exact ⟨fun _ => by omega, fun _ => ⟨Nat.zero_le _, by omega⟩⟩
    obtain ⟨text, hprint, hread, -⟩ := getSdp_tells hclean hready hends rand media
    obtain ⟨q, hview, hq⟩ := hread h.allRead
    obtain ⟨info, hfinish, herase⟩ := finish_found hready h.allRead h.hasAudio h.hasVideo hview
    refine ⟨text, _, info, hprint, hq.trans hfinish, ?_⟩
    rw [← same_erase_iff, herase, same_erase_iff, same_result_iff hclean hready h.allRead h.hasAudio h.hasVideo]
    exact h

/-- Just the descriptions that the text can carry are read back. -/
theorem roundTrip_iff (hprepared : Prepared x) (hclean : Clean x) (rand : Nat → Nat) (media : AString) :
    RoundTrip x rand media ↔ Carried x :=
  readBack_iff hprepared hclean rand media

end Trip

/-! An answer to an offer with one codec for each media, in a bundle. -/

def smallOffer : AString :=
  ascii "a=group:BUNDLE a v\nm=audio 1 RTP/SAVPF 0\na=mid:a\na=ice-ufrag:remote\na=rtcp-mux\na=rtpmap:0 PCMU/8000\n"
    ++ ascii "m=video 1 RTP/SAVPF 100\na=mid:v\na=rtpmap:100 VP8/90000\na=rtcp-fb:100 nack\na=fmtp:100 max-fr=30\n"

/-- What is found in it. -/
def smallOffered : SdpInfo :=
  { create with
    isBundle := true
    isRtcpMux := true
    hasAudio := true
    hasVideo := true
    videoSdpMLine := 1
    audioSdpMLine := 0
    videoCodecs := 1
    audioCodecs := 1
    inOutPTMap := [(0, 0), (100, 100)]
    outInPTMap := [(0, 0), (100, 100)]
    iceVideoUsername := ascii "remote"
    iceAudioUsername := ascii "remote"
    bundleTags := [⟨ascii "a", .audio⟩, ⟨ascii "v", .video⟩]
    payloadVector := [codec 0 "PCMU" 8000 .audio,
      ⟨100, ascii "VP8", 90000, .video, 1, [ascii "nack"], ⟨[(ascii "max-fr", ascii "30")], List.pairwise_singleton _ _⟩⟩] }

theorem processSdp_smallOffer : create.processSdp smallOffer [] = .ok (true, smallOffered) := by rfl

/-- The answer, with its fingerprint and one candidate. -/
def smallAnswer : SdpInfo :=
  { (((create.setOfferSdp smallOffered).setCredentials (ascii "local") (ascii "secret") .other).addCandidate
      { isBundle := true, priority := 33562367, componentId := 1, foundation := ascii "1367696781",
        hostAddress := ascii "138.4.1.2", rAddress := ascii "10.0.0.7", hostPort := 49462, rPort := 53531,
        netProtocol := ascii "udp", hostType := .srflx, transProtocol := ascii "udp", username := ascii "local",
        password := ascii "secret", mediaType := .audio }) with
    isFingerprint := true
    fingerprint := ascii "AB:CD" }

theorem prepared_smallAnswer : Prepared smallAnswer :=
  (((Prepared.setOfferSdp processSdp_smallOffer).setCredentials _ _ _).addCandidate _).fingerprint _

theorem clean_smallAnswer : Clean smallAnswer where
  credentials := by decide
  fingerprint := by decide
  tags := by decide
  extMaps := by decide
  candidates := by
    refine List.forall_mem_singleton.mpr ⟨by decide, by decide, by decide, fun _ => by decide⟩
  payloads := by
    refine List.forall_mem_cons.mpr ⟨⟨by decide, List.forall_mem_nil _⟩, List.forall_mem_singleton.mpr ⟨by decide, ?_⟩⟩
    exact List.forall_mem_singleton.mpr ⟨by decide, by decide, by decide, by decide, by decide⟩

theorem carried_smallAnswer : Carried smallAnswer where
  hasAudio := rfl
  hasVideo := rfl
  credentials := by decide
  fingerprint := by decide
  retransmission := rfl
  extMaps := rfl
  tags := ⟨by decide, by decide, by decide, by decide, by decide⟩
  payloads := ⟨rfl, by decide⟩
  candidates := by
    refine List.forall_mem_singleton.mpr ⟨by decide, .inl rfl⟩

theorem roundTrip_smallAnswer : RoundTrip smallAnswer (fun _ => 0) [] :=
  (roundTrip_iff prepared_smallAnswer clean_smallAnswer (fun _ => 0) []).mpr carried_smallAnswer

/-! The answer to an offer with an extension writes the URI, and the URI is read without its last character. -/

def levelOffer : AString :=
  ascii "m=audio 1 RTP/SAVPF 0\r\na=ice-ufrag:remote\r\na=extmap:1 urn:ietf:params:rtp-hdrext:ssrc-audio-level\r\n"
    ++ ascii "m=video 1 RTP/SAVPF 100\r\n"

/-- What is found in it. -/
def levelOffered : SdpInfo :=
  { create with
    hasAudio := true
    hasVideo := true
    videoSdpMLine := 1
    audioSdpMLine := 0
    iceVideoUsername := ascii "remote"
    iceAudioUsername := ascii "remote"
    extMapVector := [⟨1, ascii "urn:ietf:params:rtp-hdrext:ssrc-audio-level", .audio⟩] }

theorem processSdp_levelOffer : create.processSdp levelOffer [] = .ok (true, levelOffered) := by rfl

def levelAnswer : SdpInfo := (create.setOfferSdp levelOffered).setCredentials (ascii "local") (ascii "secret") .other

theorem extension_not_read_back :
    Prepared levelAnswer ∧ Clean levelAnswer ∧ ∀ rand media, ¬ RoundTrip levelAnswer rand media := by
  have hprepared : Prepared levelAnswer := (Prepared.setOfferSdp processSdp_levelOffer).setCredentials _ _ _
  have hclean : Clean levelAnswer := {
    credentials := by decide
    fingerprint := by decide
    tags := by decide
    extMaps := by decide
    candidates := fun c hc => by cases hc
    payloads := fun rtp hrtp => by cases hrtp }
  refine ⟨hprepared, hclean, fun rand media htrip => ?_⟩
  have hextMaps := ((readBack_iff hprepared hclean rand media).mp htrip).extMaps
  cases hextMaps

end Licode.Media.Sdp
