import Licode.Media.SdpPayloads

/-!
# Descriptions that are read back

The parts of a description as `getSdp` writes them, and what `processSdp` finds in each as a whole.
-/

namespace Licode.Media.Sdp

open Licode.Media.Sdp.SdpInfo

theorem mem_alphanum_of_mem_genRandom {rand : Nat → Nat} {c : UInt8} (h : c ∈ genRandom rand) : c ∈ alphanum := by
  obtain ⟨i, -, rfl⟩ := List.mem_map.mp h
  have hi : rand i % alphanum.length < alphanum.length := Nat.mod_lt _ (by decide)
  rw [List.getD_eq_getElem _ _ hi]
  exact List.getElem_mem hi

theorem free_genRandom (rand : Nat → Nat) : free "\n=" (genRandom rand) = true := by
  refine free_of_forall fun c hc => ?_
  exact not_mem_of_free (show free "\n=" alphanum = true by decide) c (mem_alphanum_of_mem_genRandom hc)

theorem flatMap_printIf {α : Type} (items : List α) (condition : α → Bool) (print : α → AString) :
    (items.flatMap fun a => printIf (condition a) (print a)) = (items.filter condition).map print := by
  induction items with
  | nil => rfl
  | cons a items ih =>
      rw [List.flatMap_cons, ih]
      cases h : condition a with
      | true => rw [List.filter_cons_of_pos h]; rfl
      | false => rw [List.filter_cons_of_neg (by simp [h])]; rfl

theorem printExtMaps_eq {info : SdpInfo} (h : info.extMapVector.length ≤ 255) (mediaType : MediaType) :
    info.printExtMaps mediaType
      = .ok ((info.extMapVector.filter (·.mediaType = mediaType)).map Parser.extText) := by
  rw [printExtMaps, printEach_eq, if_pos h, flatMap_printIf]
  rfl

theorem printMids_eq {info : SdpInfo} (h : info.bundleTags.length ≤ 255) (mediaType : MediaType) :
    info.printMids mediaType
      = .ok (((info.bundleTags.filter (·.mediaType = mediaType)).map (·.id)).map (ascii "a=mid:" ++ ·)) := by
  rw [printMids, printEach_eq, if_pos h, flatMap_printIf, List.map_map]
  rfl

namespace Parser

theorem hears_printIf {condition : Bool} {line : AString} {v w : Parser}
    (h : condition = true → Hears [line] v w) (h' : condition = false → w = v) :
    Hears (printIf condition line) v w := by
  cases condition with
  | true => exact h rfl
  | false =>
      rw [h' rfl]
      exact Hears.nil v

theorem hears_connection (v : Parser) : Hears [ascii "c=IN IP4 0.0.0.0"] v v := hears_plain rfl rfl v

theorem hears_maxptime (v : Parser) : Hears [ascii "a=maxptime:60"] v v := hears_plain rfl rfl v

theorem hears_printRtcp (condition : Bool) (v : Parser) :
    Hears (printIf condition (ascii "a=rtcp:1 IN IP4 0.0.0.0")) v v :=
  hears_printIf (fun _ => hears_plain rfl rfl v) fun _ => rfl

theorem hears_printMux (condition : Bool) (v : Parser) :
    Hears (printIf condition (ascii "a=rtcp-mux")) v
      { v with info := { v.info with isRtcpMux := v.info.isRtcpMux || condition } } := by
  refine hears_printIf ?_ ?_
  · rintro rfl
    rw [Bool.or_true]
    exact hears_mux v
  · rintro rfl
    rw [Bool.or_false]

theorem tells_printFingerprint (condition : Bool) {fingerprint : AString} (h : free " \n=" fingerprint = true)
    (v : Parser) :
    Tells (printIf condition (ascii "a=fingerprint:sha-256 " ++ fingerprint)) v
      (condition = true → fingerprint ≠ [])
      { v with info := { v.info with
        fingerprint := if condition then fingerprint else v.info.fingerprint
        isFingerprint := v.info.isFingerprint || condition } } := by
  cases condition with
  | true =>
      rw [Bool.or_true]
      exact (tells_fingerprint h v).congr (by simp)
  | false =>
      rw [Bool.or_false]
      exact (Hears.nil v).tells.congr (by simp)

theorem takeSsrc_takeSsrc {ssrc : UInt32} (hssrc : ssrc ≠ 0) (v : Parser) :
    (v.takeSsrc ssrc).takeSsrc ssrc = v.takeSsrc ssrc := by
  by_cases hvideo : v.mtype = .video ∧ v.info.videoSsrc = 0
  · simp [takeSsrc, hvideo, hssrc]
  · by_cases haudio : v.mtype = .audio ∧ v.info.audioSsrc = 0
    · simp [takeSsrc, haudio, hssrc]
    · simp [takeSsrc, hvideo, haudio]

/-- The four lines of a source say the same. -/
theorem hears_printSsrc {ssrc : UInt32} (hssrc : ssrc ≠ 0) {msidtemp track : AString}
    (hmsid : free "\n=" msidtemp = true) (htrack : free "\n=" track = true) (v : Parser) :
    Hears (printSsrc ssrc msidtemp track) v (v.takeSsrc ssrc) := by
  have hline {line rest : AString} (hrest : free "\n=" rest = true)
      (h : line = ascii "a=ssrc:" ++ decimal ssrc.toNat ++ 32 :: rest) (v : Parser) :
      Hears [line] v (v.takeSsrc ssrc) := h ▸ hears_ssrc ssrc hrest v
  have hcname := @hline (ascii "a=ssrc:" ++ decimal ssrc.toNat ++ ascii " cname:o/i14u9pJrxRKAsu") _ rfl rfl v
  have hmsidLine := @hline (ascii "a=ssrc:" ++ decimal ssrc.toNat ++ ascii " msid:" ++ msidtemp ++ ascii " " ++ track)
    (ascii "msid:" ++ msidtemp ++ ascii " " ++ track)
    (free_text (free_text (free_text rfl hmsid) rfl) htrack) (by simp only [List.append_assoc]; rfl) (v.takeSsrc ssrc)
  have hmslabel := @hline (ascii "a=ssrc:" ++ decimal ssrc.toNat ++ ascii " mslabel:" ++ msidtemp)
    (ascii "mslabel:" ++ msidtemp) (free_text rfl hmsid) (by simp only [List.append_assoc]; rfl) (v.takeSsrc ssrc)
  have hlabel := @hline (ascii "a=ssrc:" ++ decimal ssrc.toNat ++ ascii " label:" ++ msidtemp ++ track)
    (ascii "label:" ++ msidtemp ++ track) (free_text (free_text rfl hmsid) htrack)
    (by simp only [List.append_assoc]; rfl) (v.takeSsrc ssrc)
  rw [takeSsrc_takeSsrc hssrc] at hmsidLine hmslabel hlabel
  exact hcname.cons (hmsidLine.cons (hmslabel.cons hlabel))

/-- A source that gets a number while it is written is not zero then. -/
theorem filled_ne_zero {hasMedia : Bool} {ssrc number : UInt32} (hmedia : hasMedia = true) (hnumber : number ≠ 0) :
    (if hasMedia ∧ ssrc = 0 then number else ssrc) ≠ 0 := by
  split_ifs with hzero
  · exact hnumber
  · exact fun hssrc => hzero ⟨hmedia, hssrc⟩

theorem free_mline (profile : Profile) (payloads : List RtpMap) (codecs : Int32) :
    free "\n=" (ascii " 1" ++ printProfile profile ++ printPayloadTypes payloads codecs) = true := by
  have hprofile : free "\n=" (printProfile profile) = true := by
    cases profile <;> rfl
  refine free_text (free_text rfl hprofile) (free_flatMap fun entry _ => free_text (free_decimal rfl _) ?_)
  split_ifs <;> rfl

/-! ### The two media -/

/-- The strings of a description have none of the characters that its text is cut at. -/
structure Clean (info : SdpInfo) : Prop where
  credentials : ∀ text ∈ [info.iceAudioUsername, info.iceAudioPassword, info.iceVideoUsername,
    info.iceVideoPassword], free "\r\n=" text = true
  fingerprint : free " \n=" info.fingerprint = true
  tags : ∀ tag ∈ info.bundleTags, free ": \r\n=" tag.id = true
  extMaps : ∀ ext ∈ info.extMapVector, free "\n=" ext.uri = true
  candidates : ∀ candidate ∈ info.candidateVector, CandidateClean candidate
  payloads : ∀ rtp ∈ info.payloadVector, PayloadClean rtp

/-- The name of the credentials that the part for audio is written with. -/
def writtenUsername (x : SdpInfo) : AString :=
  if x.iceAudioUsername ≠ [] then x.iceAudioUsername else x.iceVideoUsername

def writtenPassword (x : SdpInfo) : AString :=
  if x.iceAudioUsername ≠ [] then x.iceAudioPassword else x.iceVideoPassword

/-- The names of the tags of some media. -/
def tagIds (x : SdpInfo) (mediaType : MediaType) : List AString :=
  (x.bundleTags.filter (·.mediaType = mediaType)).map (·.id)

def extMapsOf (x : SdpInfo) (mediaType : MediaType) : List ExtMap :=
  x.extMapVector.filter (·.mediaType = mediaType)

/-- The candidates that are written in the part for audio. -/
def audioCandidates (x : SdpInfo) : List CandidateInfo :=
  x.candidateVector.filter fun c => c.mediaType = .audio || x.isBundle

def videoCandidates (x : SdpInfo) : List CandidateInfo :=
  x.candidateVector.filter (·.mediaType = .video)

/-- What is found in the part for audio. -/
def hearAudio (x : SdpInfo) (v : Parser) : Parser :=
  { v with
    mtype := .audio
    info := { v.info with
      hasAudio := true
      candidateVector := v.info.candidateVector ++ ((audioCandidates x).filter (isUdp ·)).map (written .audio)
      iceAudioUsername := writtenUsername x
      iceAudioPassword := writtenPassword x
      fingerprint := if x.isFingerprint then x.fingerprint else v.info.fingerprint
      isFingerprint := v.info.isFingerprint || x.isFingerprint
      audioDirection := x.audioDirection
      extMapVector := v.info.extMapVector ++ (extMapsOf x .audio).map (shorten .audio)
      bundleTags := nameAllTags v.info.bundleTags (tagIds x .audio) .audio
      isRtcpMux := v.info.isRtcpMux || x.isRtcpMux
      payloadVector := (x.payloadsOf .audio).foldl readPayload v.info.payloadVector
      audioSsrc := x.withSsrcs.audioSsrc } }

/-- What is found in the part for video. -/
def hearVideo (x : SdpInfo) (v : Parser) : Parser :=
  { v with
    mtype := .video
    tmpFeedbackVector := v.tmpFeedbackVector
      ++ (x.payloadsOf .video).flatMap fun rtp => rtp.feedbackTypes.map (printFeedback rtp)
    info := { v.info with
      hasVideo := true
      candidateVector := v.info.candidateVector ++ ((videoCandidates x).filter (isUdp ·)).map (written .video)
      iceVideoUsername := x.iceVideoUsername
      iceVideoPassword := x.iceVideoPassword
      fingerprint := if x.isFingerprint then x.fingerprint else v.info.fingerprint
      isFingerprint := v.info.isFingerprint || x.isFingerprint
      videoDirection := x.videoDirection
      extMapVector := v.info.extMapVector ++ (extMapsOf x .video).map (shorten .video)
      bundleTags := nameAllTags v.info.bundleTags (tagIds x .video) .video
      isRtcpMux := v.info.isRtcpMux || x.isRtcpMux
      payloadVector := (x.payloadsOf .video).foldl readPayload v.info.payloadVector
      videoSsrc := x.withSsrcs.videoSsrc } }

/-- What the parts need to be read: no attribute is without a value. -/
structure AudioRead (x : SdpInfo) : Prop where
  username : writtenUsername x ≠ []
  password : writtenPassword x ≠ []
  fingerprint : x.isFingerprint = true → x.fingerprint ≠ []
  extMaps : ∀ ext ∈ extMapsOf x .audio, ext.uri ≠ []

structure VideoRead (x : SdpInfo) : Prop where
  username : x.iceVideoUsername ≠ []
  password : x.iceVideoPassword ≠ []
  fingerprint : x.isFingerprint = true → x.fingerprint ≠ []
  extMaps : ∀ ext ∈ extMapsOf x .video, ext.uri ≠ []

section Sections

variable {x : SdpInfo} (hclean : Clean x) (hknown : ∀ rtp ∈ x.payloadVector, isKnown rtp = true)
  (hsizes : x.extMapVector.length ≤ 255 ∧ x.bundleTags.length ≤ 255) (hcrypto : x.cryptoVector = [])

include hclean in
theorem free_written : free "\r\n=" (writtenUsername x) = true ∧ free "\r\n=" (writtenPassword x) = true := by
  rw [writtenUsername, writtenPassword]
  split_ifs
  · exact ⟨hclean.credentials _ (by simp), hclean.credentials _ (by simp)⟩
  · exact ⟨hclean.credentials _ (by simp), hclean.credentials _ (by simp)⟩

include hclean in
theorem free_tagIds (mediaType : MediaType) : ∀ id ∈ tagIds x mediaType, free ": \r\n=" id = true :=
  List.forall_mem_map.mpr fun tag htag => hclean.tags tag (List.mem_of_mem_filter htag)

include hclean in
theorem free_extMapsOf (mediaType : MediaType) : ∀ ext ∈ extMapsOf x mediaType, free "\n=" ext.uri = true :=
  fun ext hext => hclean.extMaps ext (List.mem_of_mem_filter hext)

include hclean hknown in
theorem mem_payloadsOf {mediaType : MediaType} {rtp : RtpMap} (h : rtp ∈ x.payloadsOf mediaType) :
    PayloadClean rtp ∧ isKnown rtp = true ∧ rtp.mediaType = mediaType := by
  obtain ⟨hmem, hmtype⟩ := List.mem_filter.mp h
  exact ⟨hclean.payloads rtp hmem, hknown rtp hmem, of_decide_eq_true hmtype⟩

include hcrypto in
theorem printCrypto_eq_nil (mediaType : MediaType) : x.printCrypto mediaType = [] := by
  rw [printCrypto, hcrypto]
  rfl

include hclean hknown hsizes hcrypto

theorem tells_printAudio (hmedia : x.hasAudio = true) {direction : StreamDirection}
    (hdirection : x.audioDirection = some direction) (rand : Nat → Nat) {v : Parser}
    (hbundle : v.info.isBundle = true ∨ v.info.bundleTags = []) (htags : v.info.bundleTags.length ≤ 255)
    (hssrc : v.info.audioSsrc = 0) :
    ∃ lines, x.printAudio (genRandom rand) = .ok lines ∧ Tells lines v (AudioRead x) (hearAudio x v) := by
  have hnonzero : x.withSsrcs.audioSsrc ≠ 0 := filled_ne_zero hmedia (by decide)
  obtain ⟨hfreeName, hfreePassword⟩ := free_written hclean
  have hmline : ascii "m=audio 1" ++ printProfile x.profile ++ printPayloadTypes (x.payloadsOf .audio) x.audioCodecs
      = ascii "m=audio" ++ (ascii " 1" ++ printProfile x.profile
        ++ printPayloadTypes (x.payloadsOf .audio) x.audioCodecs) := by
    simp only [List.append_assoc]
    rfl
  have hcandidates : ∀ c ∈ audioCandidates x, CandidateClean c :=
    fun c hc => hclean.candidates c (List.mem_of_mem_filter hc)
  rw [printAudio, printExtMaps_eq hsizes.1, printMids_eq hsizes.2]
  refine ⟨_, rfl, ?_⟩
  rw [hmline, printCrypto_eq_nil hcrypto, List.append_nil, hdirection]
  have hstart := (((hears_audio (free_mline x.profile (x.payloadsOf .audio) x.audioCodecs) v).cons
    (hears_connection _)).append (hears_printRtcp x.isRtcpMux _)).append (hears_candidates hcandidates _)
  have hcredentials := hstart.tells.append ((tells_user hfreeName _).cons (tells_pass hfreePassword _))
  have hdirections := (hcredentials.append (tells_printFingerprint x.isFingerprint hclean.fingerprint _)).hear
    (hears_direction direction _)
  have hextensions := hdirections.append (tells_extmaps (free_extMapsOf hclean .audio) _)
  have hmids := (hextensions.hear (hears_mids (free_tagIds hclean .audio) hbundle htags)).hear
    (hears_printMux x.isRtcpMux _)
  have hpayloads := hmids.hear (@hears_payloads (x.payloadsOf .audio) printAudioPayload (fun _ => []) _
    fun rtp hrtp w hw => by
      obtain ⟨hrtpClean, hrtpKnown, hmtype⟩ := mem_payloadsOf hclean hknown hrtp
      exact hears_audioPayload hrtpClean hrtpKnown (hmtype.trans hw.symm))
  have hall := (hpayloads.hear (hears_maxptime _)).hear
    (hears_printSsrc hnonzero (free_genRandom rand) (show free "\n=" (ascii "a0") = true from rfl) _)
  refine (hall.to ?_).congr ⟨?_, ?_⟩
  · simp [hearAudio, takeSsrc, hssrc, setDirection, addCandidates, addExtMaps, hearPayloads, hdirection]
  · rintro ⟨⟨⟨-, hname, hpassword⟩, hfingerprint⟩, huris⟩
    exact ⟨hname, hpassword, hfingerprint, huris⟩
  · exact fun h => ⟨⟨⟨trivial, h.username, h.password⟩, h.fingerprint⟩, h.extMaps⟩

theorem tells_printVideo (hmedia : x.hasVideo = true) {direction : StreamDirection}
    (hdirection : x.videoDirection = some direction) (rand : Nat → Nat) {v : Parser}
    (hbundle : v.info.isBundle = true ∨ v.info.bundleTags = []) (htags : v.info.bundleTags.length ≤ 255)
    (hssrc : v.info.videoSsrc = 0) :
    ∃ lines, x.printVideo (genRandom rand) = .ok lines ∧ Tells lines v (VideoRead x) (hearVideo x v) := by
  have hnonzero : x.withSsrcs.videoSsrc ≠ 0 := filled_ne_zero hmedia (by decide)
  have hfreeName : free "\r\n=" x.iceVideoUsername = true := hclean.credentials _ (by simp)
  have hfreePassword : free "\r\n=" x.iceVideoPassword = true := hclean.credentials _ (by simp)
  have hmline : ascii "m=video 1" ++ printProfile x.profile ++ printPayloadTypes (x.payloadsOf .video) x.videoCodecs
      = ascii "m=video" ++ (ascii " 1" ++ printProfile x.profile
        ++ printPayloadTypes (x.payloadsOf .video) x.videoCodecs) := by
    simp only [List.append_assoc]
    rfl
  have hcandidates : ∀ c ∈ videoCandidates x, CandidateClean c :=
    fun c hc => hclean.candidates c (List.mem_of_mem_filter hc)
  have htrack : free "\n=" (ascii "v0") = true := rfl
  -- the source of the retransmissions is written like another one, and then there is one already
  have hrtx (w : Parser) (hw : w.mtype = .video) (hfound : w.info.videoSsrc ≠ 0) :
      Hears (if x.videoRtxSsrc ≠ 0 then printSsrc x.videoRtxSsrc (genRandom rand) (ascii "v0") else []) w w := by
    by_cases hzero : x.videoRtxSsrc = 0
    · rw [if_neg (not_not.mpr hzero)]
      exact Hears.nil w
    · rw [if_pos hzero]
      refine (hears_printSsrc hzero (free_genRandom rand) htrack w).to ?_
      simp [takeSsrc, hw, hfound]
  rw [printVideo, printExtMaps_eq hsizes.1, printMids_eq hsizes.2]
  refine ⟨_, rfl, ?_⟩
  rw [hmline, printCrypto_eq_nil hcrypto, List.append_nil, hdirection]
  have hstart := (((hears_video (free_mline x.profile (x.payloadsOf .video) x.videoCodecs) v).cons
    (hears_connection _)).append (hears_printRtcp x.isRtcpMux _)).append (hears_candidates hcandidates _)
  have hcredentials := hstart.tells.append ((tells_user hfreeName _).cons (tells_pass hfreePassword _))
  have hextensions := hcredentials.append (tells_extmaps (free_extMapsOf hclean .video) _)
  have hdirections := (hextensions.append (tells_printFingerprint x.isFingerprint hclean.fingerprint _)).hear
    (hears_direction direction _)
  have hmids := (hdirections.hear (hears_mids (free_tagIds hclean .video) hbundle htags)).hear
    (hears_printMux x.isRtcpMux _)
  have hpayloads := hmids.hear (@hears_payloads (x.payloadsOf .video) printVideoPayload
    (fun rtp => rtp.feedbackTypes.map (printFeedback rtp)) _ fun rtp hrtp w hw => by
      obtain ⟨hrtpClean, hrtpKnown, hmtype⟩ := mem_payloadsOf hclean hknown hrtp
      exact hears_videoPayload hrtpClean hrtpKnown (hmtype.trans hw.symm))
  have hssrcs := hpayloads.hear (hears_printSsrc hnonzero (free_genRandom rand) htrack _)
  refine ((hssrcs.hear (hrtx _ ?_ ?_)).to ?_).congr ⟨?_, ?_⟩
  · simp [takeSsrc, hssrc, setDirection, addCandidates, addExtMaps, hearPayloads]
  · simp [takeSsrc, hssrc, setDirection, addCandidates, addExtMaps, hearPayloads, hnonzero]
  · simp [hearVideo, takeSsrc, hssrc, setDirection, addCandidates, addExtMaps, hearPayloads, hdirection]
  · rintro ⟨⟨⟨-, hname, hpassword⟩, huris⟩, hfingerprint⟩
    exact ⟨hname, hpassword, hfingerprint, huris⟩
  · exact fun h => ⟨⟨⟨trivial, h.username, h.password⟩, h.extMaps⟩, h.fingerprint⟩

end Sections

end Parser

end Licode.Media.Sdp
