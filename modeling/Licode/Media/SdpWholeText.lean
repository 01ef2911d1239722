import Licode.Media.SdpFaults
import Licode.Media.SdpPrepared
import Licode.Media.SdpSections

/-!
# A whole description

`getSdp` writes a description line by line, and `processSdp` reads the lines into a new one. What it finds is put
together here from what it finds in each part. At its end the payloads get their feedback.
-/

namespace Licode.Media.Sdp

open Licode.Media.Sdp.SdpInfo

namespace Parser

/-! ### The whole text -/

/-- What is found in the line of the group. -/
def hearGroup (x : SdpInfo) (v : Parser) : Parser :=
  if x.isBundle then
    { v with info := { v.info with
      isBundle := true
      bundleTags := v.info.bundleTags ++ (groupIds x.bundleTags).map fun id => ⟨id, .other⟩ } }
  else v

/-- What is found in the whole description. -/
def hear (x : SdpInfo) (v : Parser) : Parser :=
  let v := hearGroup x v
  let v := if x.hasAudio then hearAudio x v else v
  if x.hasVideo then hearVideo x v else v

theorem length_nameAllTags (tags : List BundleTag) (ids : List AString) (mediaType : MediaType) :
    (nameAllTags tags ids mediaType).length = tags.length :=
  List.length_map _

theorem hears_printGroup {x : SdpInfo} (hclean : Clean x) (hsize : x.isBundle = true → x.bundleTags.length ≤ 255)
    (rand : Nat → Nat) (v : Parser) :
    ∃ lines, x.printGroup (genRandom rand) = .ok lines ∧ Hears lines v (hearGroup x v) := by
  rw [printGroup, hearGroup]
  by_cases hbundle : x.isBundle = true
  · rw [if_pos hbundle, if_pos hbundle, printEach_eq, if_pos (hsize hbundle)]
    refine ⟨_, rfl, ?_⟩
    have htags : ∀ tag ∈ x.bundleTags, free "\n=" tag.id = true := fun tag htag => free_subset (hclean.tags tag htag) rfl
    have hplain : only [] (ascii "a=msid-semantic: WMS " ++ genRandom rand) = true :=
      only_of_start rfl rfl (free_subset (free_genRandom rand) rfl)
    exact (hears_group htags v).cons
      (hears_plain (free_text rfl (free_subset (free_genRandom rand) rfl)) hplain _)
  · rw [if_neg hbundle, if_neg hbundle]
    exact ⟨[], rfl, Hears.nil v⟩

/-- A part that is there if its media is. -/
theorem tells_printMedia {hasMedia : Bool} {part : Checked (List AString)} {v w : Parser} {needs : Prop}
    (h : hasMedia = true → ∃ lines, part = .ok lines ∧ Tells lines v needs w) :
    ∃ lines, printMedia hasMedia part = .ok lines
      ∧ Tells lines v (hasMedia = true → needs) (if hasMedia then w else v) := by
  cases hasMedia with
  | true =>
      obtain ⟨lines, hlines, htells⟩ := h rfl
      exact ⟨lines, hlines, htells.congr (by simp)⟩
  | false => exact ⟨[], rfl, (Hears.nil v).tells.congr (by simp)⟩

theorem tells_printLines {x : SdpInfo} (hclean : Clean x) (hknown : ∀ rtp ∈ x.payloadVector, isKnown rtp = true)
    (hsized : PrintEnds x.isBundle (x.hasAudio || x.hasVideo) x.bundleTags.length x.extMapVector.length)
    (hcrypto : x.cryptoVector = []) {audioDirection videoDirection : StreamDirection}
    (haudio : x.audioDirection = some audioDirection) (hvideo : x.videoDirection = some videoDirection)
    (rand : Nat → Nat) (media : AString) :
    ∃ lines, x.printLines (genRandom rand) = .ok lines
      ∧ Tells lines (start create media).view
        ((x.hasAudio = true → AudioRead x) ∧ (x.hasVideo = true → VideoRead x)) (hear x (start create media).view) := by
  obtain ⟨group, hgroup, hhears⟩ := hears_printGroup hclean hsized.1 rand (start create media).view
  have hbundle : (hearGroup x (start create media).view).info.isBundle = true
      ∨ (hearGroup x (start create media).view).info.bundleTags = [] := by
    rw [hearGroup]
    split_ifs
    · exact .inl rfl
    · exact .inr rfl
  have htags : (hearGroup x (start create media).view).info.bundleTags.length ≤ 255 := by
    rw [hearGroup]
    split_ifs
    · have hnine := length_groupIds_le x.bundleTags
      have hlength : ([] ++ (groupIds x.bundleTags).map fun id => (⟨id, .other⟩ : BundleTag)).length ≤ 255 := by
        rw [List.nil_append, List.length_map]
        omega
      exact hlength
    · exact Nat.zero_le _
  have hssrc : (hearGroup x (start create media).view).info.audioSsrc = 0
      ∧ (hearGroup x (start create media).view).info.videoSsrc = 0 := by
    rw [hearGroup]
    split_ifs
    · exact ⟨rfl, rfl⟩
    · exact ⟨rfl, rfl⟩
  obtain ⟨audio, haudioLines, haudioTells⟩ := tells_printMedia fun hmedia =>
    tells_printAudio hclean hknown (hsized.2 (by rw [hmedia, Bool.true_or])) hcrypto hmedia haudio rand hbundle htags
      hssrc.1
  have hbundle' : (if x.hasAudio then hearAudio x (hearGroup x (start create media).view)
        else hearGroup x (start create media).view).info.isBundle = true
      ∨ (if x.hasAudio then hearAudio x (hearGroup x (start create media).view)
        else hearGroup x (start create media).view).info.bundleTags = [] := by
    split_ifs
    · exact hbundle.imp_right fun hnil => by rw [hearAudio, hnil]; rfl
    · exact hbundle
  have htags' : (if x.hasAudio then hearAudio x (hearGroup x (start create media).view)
      else hearGroup x (start create media).view).info.bundleTags.length ≤ 255 := by
    split_ifs
    · exact (length_nameAllTags _ _ _).trans_le htags
    · exact htags
  have hssrc' : (if x.hasAudio then hearAudio x (hearGroup x (start create media).view)
      else hearGroup x (start create media).view).info.videoSsrc = 0 := by
    split_ifs
    · exact hssrc.2
    · exact hssrc.2
  obtain ⟨video, hvideoLines, hvideoTells⟩ := tells_printMedia fun hmedia =>
    tells_printVideo hclean hknown (hsized.2 (by rw [hmedia, Bool.or_true])) hcrypto hmedia hvideo rand hbundle' htags'
      hssrc'
  rw [printLines, hgroup, haudioLines, hvideoLines]
  refine ⟨_, rfl, ?_⟩
  have hheader : Hears [ascii "v=0", ascii "o=- 0 0 IN IP4 127.0.0.1", ascii "s=LicodeMCU", ascii "t=0 0"]
      (start create media).view (start create media).view :=
    (hears_plain rfl rfl _).cons ((hears_plain rfl rfl _).cons ((hears_plain rfl rfl _).cons (hears_plain rfl rfl _)))
  exact (((hheader.append hhears).tells.append haudioTells).append hvideoTells).congr (by simp only [true_and])

/-- The text of a description is read line by line. -/
theorem processSdp_of_tells {lines : List AString} {media : AString} {needs : Prop} {w : Parser}
    (h : Tells lines (start create media).view needs w) :
    (needs → ∃ q : Parser, q.view = w ∧ create.processSdp (lines.flatMap (· ++ ascii "\n")) media = q.finish)
      ∧ (¬ needs → create.processSdp (lines.flatMap (· ++ ascii "\n")) media = .error .outOfBounds) := by
  have hlines : getlines (lines.flatMap (· ++ ascii "\n")) = lines :=
    getlines_lines fun line hline hmem => not_mem_of_free (h.1 line hline) 10 hmem (by decide)
  have hneeds := h.2 (start create media) rfl
  rw [processSdp, hlines]
  refine ⟨fun hn => ?_, fun hnot => ?_⟩
  · obtain ⟨q, hq, hview⟩ := hneeds.1 hn
    exact ⟨q, hview, by rw [hq, Checked.ok_bind]⟩
  · rw [hneeds.2 hnot]
    rfl

/-- Every part can be read. -/
def AllRead (x : SdpInfo) : Prop := (x.hasAudio = true → AudioRead x) ∧ (x.hasVideo = true → VideoRead x)

/-- What is read from the text of a description that is ready. -/
theorem getSdp_tells {x : SdpInfo} (hclean : Clean x) (hready : Ready x)
    (hsized : PrintEnds x.isBundle (x.hasAudio || x.hasVideo) x.bundleTags.length x.extMapVector.length)
    (rand : Nat → Nat) (media : AString) :
    ∃ text, x.getSdp (genRandom rand) = .ok (text, x.withSsrcs)
      ∧ (AllRead x → ∃ q : Parser, q.view = hear x (start create media).view
        ∧ create.processSdp text media = q.finish)
      ∧ (¬ AllRead x → create.processSdp text media = .error .outOfBounds) := by
  obtain ⟨audioDirection, haudio⟩ := hready.audioDirection
  obtain ⟨videoDirection, hvideo⟩ := hready.videoDirection
  obtain ⟨lines, hlines, htells⟩ :=
    tells_printLines hclean hready.payloads.known hsized hready.crypto haudio hvideo rand media
  refine ⟨lines.flatMap (· ++ ascii "\n"), ?_, processSdp_of_tells htells⟩
  rw [getSdp, hlines]
  rfl

/-! ### What is made of it at the end -/

/-- A description without what is not written into a text. -/
def erase (info : SdpInfo) : SdpInfo :=
  { info with
    profile := .savpf
    videoCodecs := 0
    audioCodecs := 0
    videoSdpMLine := 0
    audioSdpMLine := 0
    videoBandwidth := 0
    inOutPTMap := []
    outInPTMap := []
    cryptoVector := [] }

theorem erase_shareCredentials (info : SdpInfo) : erase (shareCredentials info) = shareCredentials (erase info) := by
  have hvideo : (erase info).iceVideoUsername = info.iceVideoUsername := rfl
  have haudio : (erase info).iceAudioUsername = info.iceAudioUsername := rfl
  rw [shareCredentials, shareCredentials, hvideo, haudio]
  split_ifs <;> rfl

/-- The end depends only on what the parser looks like. -/
theorem finish_view (p : Parser) :
    (fun r => (r.1, erase r.2)) <$> p.finish = (fun r => (r.1, erase r.2)) <$> p.view.finish := by
  have hnames : p.view.info.iceVideoUsername = [] ∧ p.view.info.iceAudioUsername = []
      ↔ p.info.iceVideoUsername = [] ∧ p.info.iceAudioUsername = [] := Iff.rfl
  rw [finish, finish]
  by_cases hnone : p.info.iceVideoUsername = [] ∧ p.info.iceAudioUsername = []
  · rw [if_pos hnone, if_pos (hnames.mpr hnone)]
    rfl
  rw [if_neg hnone, if_neg (mt hnames.mp hnone)]
  have hpayloads : (addCredentials (shareCredentials p.view.info)).payloadVector
      = (addCredentials (shareCredentials p.info)).payloadVector := by
    change (shareCredentials (erase p.info)).payloadVector = (erase (shareCredentials p.info)).payloadVector
    rw [erase_shareCredentials]
  have hinfo : erase (addCredentials (shareCredentials p.view.info))
      = erase (addCredentials (shareCredentials p.info)) := by
    change addCredentials (erase (shareCredentials (erase p.info))) = addCredentials (erase (shareCredentials p.info))
    rw [erase_shareCredentials, erase_shareCredentials]
    rfl
  dsimp only
  rw [hpayloads]
  change _ <$> ((p.tmpFeedbackVector.foldlM addFeedback _) >>= _)
    = _ <$> ((p.tmpFeedbackVector.foldlM addFeedback _) >>= _)
  cases p.tmpFeedbackVector.foldlM addFeedback (addCredentials (shareCredentials p.info)).payloadVector with
  | error e => rfl
  | ok payloadVector =>
      have hwith (info : SdpInfo) : erase { info with payloadVector := payloadVector }
          = { erase info with payloadVector := payloadVector } := rfl
      change Except.ok (true, erase _) = Except.ok (true, erase _)
      rw [hwith, hwith, hinfo]

/-- Where both media have a name, the feedback of the payloads is added. -/
theorem finish_eq {w : Parser} (hvideo : w.info.iceVideoUsername ≠ []) (haudio : w.info.iceAudioUsername ≠ [])
    {payloads : List RtpMap} (hne : ∀ rtp ∈ payloads, ∀ fb ∈ rtp.feedbackTypes, fb ≠ [])
    (hfeedback : w.tmpFeedbackVector = payloads.flatMap fun rtp => rtp.feedbackTypes.map (printFeedback rtp)) :
    w.finish = .ok (true, { addCredentials w.info with payloadVector := w.info.payloadVector.map fun r =>
      { r with feedbackTypes := r.feedbackTypes ++ feedbackFor payloads r.payloadType } }) := by
  have hshare : shareCredentials w.info = w.info := by
    rw [shareCredentials, if_neg hvideo, if_neg haudio]
  rw [finish, if_neg (fun h => hvideo h.1), hshare, hfeedback]
  dsimp only
  rw [show (addCredentials w.info).payloadVector = w.info.payloadVector from rfl, foldlM_addFeedback hne]
  rfl

/-- The directions are left as they are. -/
theorem directions_finish {p : Parser} {ok : Bool} {info : SdpInfo} (h : p.finish = .ok (ok, info)) :
    info.audioDirection = p.info.audioDirection ∧ info.videoDirection = p.info.videoDirection := by
  have hshare : (shareCredentials p.info).audioDirection = p.info.audioDirection
      ∧ (shareCredentials p.info).videoDirection = p.info.videoDirection := by
    rw [shareCredentials]
    split_ifs <;> exact ⟨rfl, rfl⟩
  rw [finish] at h
  split_ifs at h
  · cases h
    exact ⟨rfl, rfl⟩
  · obtain ⟨payloadVector, -, hinfo⟩ := exists_of_bind_ok h
    cases hinfo
    exact hshare

end Parser

end Licode.Media.Sdp
