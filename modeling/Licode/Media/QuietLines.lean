import Licode.Media.SdpCodecs
import Licode.Media.SdpPrepared
import Licode.Media.SdpReading

/-!
# Lines that add nothing

A line is quiet if it has no codec that is known, no extension, no tag of a bundle and no candidate that is kept. What
else it does is to overwrite: flags, credentials, the media of tags and the parameters of payloads get values that do
not depend on those from before.
-/

namespace Licode.Media.Sdp

/-- Nothing is appended for the line but feedback. -/
structure Quiet (line : AString) : Prop where
  codec : codecLine line = none
  extmap : has "a=extmap:" line → (splitOneOf line (ascii " :=") 3).length < 4
  group : has "a=group:" line → (splitOneOf line (ascii ":  \r\n") 10).length ≤ 2
  candidate : has "a=candidate:" line → ¬ CandidateKept (splitOneOf line (ascii " :") 0)

/-! ### What a line overwrites -/

/-- A line with the media of the section above it and of the section that it stands in. -/
structure PlacedLine where
  above : MediaType
  mtype : MediaType
  line : AString

def place : MediaType → List AString → List PlacedLine
  | _, [] => []
  | above, line :: lines => ⟨above, readMedia above line, line⟩ :: place (readMedia above line) lines

/-- The last value that lines give. -/
def lastOf {α : Type} (value : PlacedLine → Option α) (lines : List PlacedLine) : Option α :=
  (lines.filterMap value).getLast?

/-- A direction in a line. -/
def directionOf (line : AString) : Option StreamDirection :=
  if has "a=recvonly" line then some .recvonly
  else if has "a=sendonly" line then some .sendonly
  else if has "a=sendrecv" line then some .sendrecv
  else none

/-- The direction is looked for before the section, and is that of video but for audio. -/
def directionIn (audio : Bool) (l : PlacedLine) : Option StreamDirection :=
  if decide (l.above = .audio) = audio then directionOf l.line else none

def profileIn (l : PlacedLine) : Option Profile := if has "SAVPF" l.line then some .savpf else none

/-- A group that is a bundle. -/
def bundles (line : AString) : Bool :=
  has "a=group:" line && decide ((splitOneOf line (ascii ":  \r\n") 10)[1]? = some (ascii "BUNDLE"))

/-- The value of an attribute, where it stands in the line. -/
def attributeOf (keyword : String) (line : AString) : Option AString :=
  if has keyword line then (Parser.attributeValue line).toOption else none

/-- The credentials are those of video but for audio. -/
def attributeIn (keyword : String) (audio : Bool) (l : PlacedLine) : Option AString :=
  if decide (l.mtype = .audio) = audio then attributeOf keyword l.line else none

/-- The name that a line gives to a section. -/
def midOf (line : AString) : Option AString :=
  if has "a=mid" line then (splitOneOf line (ascii ": \r\n") 4)[1]? else none

/-- A tag that a line names gets the media of the section. -/
def retag (l : PlacedLine) (tag : BundleTag) : BundleTag :=
  if midOf l.line = some tag.id then { tag with mediaType := l.mtype } else tag

/-- The format parameter that a line gives to the payloads of a type. -/
def parameterOf (line : AString) : Option (UInt32 × AString × AString) :=
  if has "a=fmtp:" line then
    match splitOneOf line (ascii " :=") 4 with
    | [_, _, payloadType, value] => some (strtoul payloadType, ascii "none", cString value)
    | _ :: _ :: payloadType :: option :: value :: _ => some (strtoul payloadType, cString option, cString value)
    | _ => none
  else none

def withParameter (line : AString) (rtp : RtpMap) : RtpMap :=
  match parameterOf line with
  | some (payloadType, option, value) =>
      if rtp.payloadType = payloadType then
        { rtp with formatParameters := rtp.formatParameters.set option value }
      else rtp
  | none => rtp

namespace Parser

variable {p q : Parser} {line : AString}

/-! ### The parts of the loop body -/

theorem processRtcpMux_eq (p : Parser) (line : AString) : p.processRtcpMux line
    = { p with info := { p.info with isRtcpMux := p.info.isRtcpMux || has "a=rtcp-mux" line } } := by
  rw [processRtcpMux]
  split_ifs with h
  · rw [h, Bool.or_true]
  · rw [Bool.not_eq_true] at h
    rw [h, Bool.or_false]

theorem processDirection_eq (p : Parser) (line : AString) : p.processDirection line
    = { p with info := { p.info with
        audioDirection := if p.mtype = .audio then (directionOf line).or p.info.audioDirection
          else p.info.audioDirection
        videoDirection := if p.mtype = .audio then p.info.videoDirection
          else (directionOf line).or p.info.videoDirection } } := by
  have hset (direction : StreamDirection) : p.setDirection direction = { p with info := { p.info with
      audioDirection := if p.mtype = .audio then some direction else p.info.audioDirection
      videoDirection := if p.mtype = .audio then p.info.videoDirection else some direction } } := by
    rw [setDirection]
    split_ifs <;> rfl
  rw [processDirection, directionOf, hset, hset, hset]
  by_cases haudio : p.mtype = .audio
  · simp only [if_pos haudio]
    split_ifs <;> rfl
  · simp only [if_neg haudio]
    split_ifs <;> rfl

theorem processProfile_eq (p : Parser) (line : AString) : p.processProfile line
    = { p with info := { p.info with profile := if has "SAVPF" line then .savpf else p.info.profile } } := by
  rw [processProfile]
  split_ifs <;> rfl

theorem processFingerprint_inv (h : p.processFingerprint line = .ok q) : ∃ fingerprint, q = { p with
    info := { p.info with fingerprint, isFingerprint := p.info.isFingerprint || has "a=fingerprint" line } } := by
  rw [processFingerprint] at h
  split_ifs at h with hhas
  · obtain ⟨value, -, h⟩ := exists_of_bind_ok h
    obtain ⟨fingerprint, -, h⟩ := exists_of_bind_ok h
    cases h
    refine ⟨fingerprint, ?_⟩
    rw [hhas, Bool.or_true]
  · cases h
    refine ⟨p.info.fingerprint, ?_⟩
    rw [Bool.not_eq_true] at hhas
    rw [hhas, Bool.or_false]

theorem processGroup_inv (hquiet : Quiet line) (h : p.processGroup line = .ok q) :
    q = { p with info := { p.info with isBundle := p.info.isBundle || bundles line } } := by
  rw [processGroup] at h
  split_ifs at h with hhas
  · obtain ⟨semantics, hsemantics, h⟩ := exists_of_bind_ok h
    have hpiece : (splitOneOf line (ascii ":  \r\n") 10)[1]? = some semantics := getElem?_of_piece hsemantics
    have hnone : newTags (splitOneOf line (ascii ":  \r\n") 10) = [] := by
      rw [newTags, List.drop_of_length_le (hquiet.group hhas), List.map_nil]
    cases h
    rw [bundles, hhas, hpiece, hnone, List.append_nil, Bool.true_and]
    simp only [Option.some.injEq]
  · cases h
    rw [Bool.not_eq_true] at hhas
    rw [bundles, hhas, Bool.false_and, Bool.or_false]

theorem processSection_inv (p : Parser) (line : AString) : ∃ audioSdpMLine videoSdpMLine mlineNum,
    (p.processVideo line).processAudio line = { p with
      info := { p.info with
        audioSdpMLine
        videoSdpMLine
        hasVideo := p.info.hasVideo || has "m=video" line
        hasAudio := p.info.hasAudio || has "m=audio" line }
      mlineNum
      mtype := readMedia p.mtype line } := by
  rw [processAudio, processVideo, readMedia]
  cases haudio : has "m=audio" line <;> cases hvideo : has "m=video" line <;>
    exact ⟨_, _, _, by simp only [Bool.or_true, Bool.or_false, if_true, Bool.false_eq_true, if_false]; rfl⟩

theorem processCand_inv (hquiet : Quiet line) (h : p.processCand line = .ok q) : q = p := by
  rw [processCand] at h
  split_ifs at h with hhas
  · obtain ⟨candidate, hcandidate, h⟩ := exists_of_bind_ok h
    have hkept := (processCandidate_needs _ p.mtype).value hcandidate
    cases candidate with
    | none =>
        cases h
        rw [Option.toList_none, List.append_nil]
    | some candidate => exact absurd (hkept.mp rfl) (hquiet.candidate hhas)
  · cases h
    rfl

theorem processCrypto_inv (h : p.processCrypto line = .ok q) :
    ∃ cryptoVector, q = { p with info := { p.info with cryptoVector } } := by
  rw [processCrypto] at h
  split_ifs at h with hhas
  · obtain ⟨cipherSuite, -, h⟩ := exists_of_bind_ok h
    obtain ⟨keyParams, -, h⟩ := exists_of_bind_ok h
    cases h
    exact ⟨_, rfl⟩
  · cases h
    exact ⟨_, rfl⟩

theorem keepValue_cases {keyword : String} {audio video : AString → SdpInfo → SdpInfo}
    (h : p.keepValue keyword audio video line = .ok q) :
    attributeOf keyword line = none ∧ q = p ∨ ∃ value, attributeOf keyword line = some value
      ∧ q = { p with info := if p.mtype = .audio then audio value p.info else video value p.info } := by
  rw [keepValue] at h
  rw [attributeOf]
  by_cases hhas : has keyword line = true
  · rw [if_pos hhas] at h ⊢
    obtain ⟨value, hvalue, h⟩ := exists_of_bind_ok h
    refine .inr ⟨value, by rw [hvalue]; rfl, ?_⟩
    split_ifs at h ⊢ <;> cases h <;> rfl
  · rw [if_neg hhas] at h ⊢
    cases h
    exact .inl ⟨rfl, rfl⟩

theorem processUser_inv (h : p.processUser line = .ok q) : q = { p with info := { p.info with
    iceAudioUsername := if p.mtype = .audio then (attributeOf "a=ice-ufrag" line).getD p.info.iceAudioUsername
      else p.info.iceAudioUsername
    iceVideoUsername := if p.mtype = .audio then p.info.iceVideoUsername
      else (attributeOf "a=ice-ufrag" line).getD p.info.iceVideoUsername } } := by
  obtain ⟨hnone, rfl⟩ | ⟨username, hsome, rfl⟩ := keepValue_cases h
  · rw [hnone, Option.getD_none, Option.getD_none, ite_self, ite_self]
  · rw [hsome]
    split_ifs <;> rfl

theorem processPass_inv (h : p.processPass line = .ok q) : q = { p with info := { p.info with
    iceAudioPassword := if p.mtype = .audio then (attributeOf "a=ice-pwd" line).getD p.info.iceAudioPassword
      else p.info.iceAudioPassword
    iceVideoPassword := if p.mtype = .audio then p.info.iceVideoPassword
      else (attributeOf "a=ice-pwd" line).getD p.info.iceVideoPassword } } := by
  obtain ⟨hnone, rfl⟩ | ⟨password, hsome, rfl⟩ := keepValue_cases h
  · rw [hnone, Option.getD_none, Option.getD_none, ite_self, ite_self]
  · rw [hsome]
    split_ifs <;> rfl

/-- The loop over the bundle tags has come to its end, so that there are not too many of them. -/
theorem processMid_inv (above : MediaType) (h : p.processMid line = .ok q) : q = { p with info := { p.info with
    bundleTags := if p.info.isBundle then p.info.bundleTags.map (retag ⟨above, p.mtype, line⟩)
      else p.info.bundleTags } }
      ∧ (p.info.isBundle = true → midOf line ≠ none → p.info.bundleTags.length ≤ 255) := by
  have hnone (hmid : midOf line = none) : p.info.bundleTags.map (retag ⟨above, p.mtype, line⟩) = p.info.bundleTags := by
    have hsame (tag : BundleTag) : retag ⟨above, p.mtype, line⟩ tag = tag := by
      rw [retag, hmid, if_neg nofun]
    rw [List.map_congr_left fun tag _ => hsame tag, List.map_id']
  have hunnamed (hmid : midOf line = none) (hsame : q = p) : q = { p with info := { p.info with
      bundleTags := if p.info.isBundle then p.info.bundleTags.map (retag ⟨above, p.mtype, line⟩)
        else p.info.bundleTags } }
        ∧ (p.info.isBundle = true → midOf line ≠ none → p.info.bundleTags.length ≤ 255) := by
    rw [hnone hmid, ite_self]
    exact ⟨hsame, fun _ hne => absurd hmid hne⟩
  rw [processMid] at h
  by_cases hhas : has "a=mid" line
  · rw [if_pos hhas] at h
    rcases hsplit : splitOneOf line (ascii ": \r\n") 4 with _ | ⟨_, _ | ⟨thisId, _⟩⟩
    iterate 2
      · rw [hsplit] at h
        cases h
        exact hunnamed (by rw [midOf, if_pos hhas, hsplit]; rfl) rfl
    · have hmid : midOf line = some thisId := by
        rw [midOf, if_pos hhas, hsplit]
        rfl
      have hname : (fun tag : BundleTag => if tag.id = thisId then { tag with mediaType := p.mtype } else tag)
          = retag ⟨above, p.mtype, line⟩ := by
        funext tag
        rw [retag, hmid]
        exact if_congr (by rw [Option.some_inj, eq_comm]) rfl rfl
      have hrun : ByteLoop.run p.info.bundleTags.length (nameTag thisId p.mtype) p.info.bundleTags
          = if p.info.bundleTags.length ≤ 255 then some (p.info.bundleTags.map (retag ⟨above, p.mtype, line⟩))
            else none := by
        rw [← hname]
        exact ByteLoop.run_modify _ _
      simp only [hsplit, hrun] at h
      split_ifs at h with hbundle hlength
      · cases h
        rw [if_pos hbundle]
        exact ⟨rfl, fun _ _ => hlength⟩
      · cases h
      · cases h
        rw [if_neg hbundle]
        exact ⟨rfl, fun htrue => absurd htrue hbundle⟩
  · rw [if_neg hhas] at h
    cases h
    exact hunnamed (if_neg hhas) rfl

theorem processSsrc_inv (h : p.processSsrc line = .ok q) : ∃ videoSsrc audioSsrc,
    q = { p with info := { p.info with videoSsrc, audioSsrc } }
      ∧ (videoSsrc = 0 → p.info.videoSsrc = 0) ∧ (audioSsrc = 0 → p.info.audioSsrc = 0) := by
  rw [processSsrc] at h
  split_ifs at h with hhas hvideo haudio
  · obtain ⟨ssrc, -, h⟩ := exists_of_bind_ok h
    cases h
    exact ⟨_, _, rfl, fun _ => hvideo.2, id⟩
  · obtain ⟨ssrc, -, h⟩ := exists_of_bind_ok h
    cases h
    exact ⟨_, _, rfl, id, fun _ => haudio.2⟩
  · cases h
    exact ⟨_, _, rfl, id, id⟩
  · cases h
    exact ⟨_, _, rfl, id, id⟩

theorem processSsrcGroup_inv (p : Parser) (line : AString) :
    ∃ videoRtxSsrc, p.processSsrcGroup line = { p with info := { p.info with videoRtxSsrc } } := by
  rw [processSsrcGroup]
  split_ifs
  · split <;> exact ⟨_, rfl⟩
  · exact ⟨_, rfl⟩

theorem processRtpmap_inv (hquiet : Quiet line) (h : p.processRtpmap line = .ok q) : q = p := by
  have hnone := hquiet.codec
  rw [codecLine] at hnone
  rw [processRtpmap] at h
  split_ifs at h hnone with hhas
  · rcases hsplit : splitOneOf line (ascii " :/\n") 4 with
      _ | ⟨_, _ | ⟨payloadType, _ | ⟨codecname, _ | ⟨clock, _⟩⟩⟩⟩
    iterate 4
      · rw [hsplit] at h
        cases h
    · rw [hsplit] at h hnone
      cases h
      exact addRtpMap_unknown (Option.map_eq_none_iff.mp hnone) p _
  · cases h
    rfl

theorem processExtmap_inv (hquiet : Quiet line) (h : p.processExtmap line = .ok q) : q = p := by
  rw [processExtmap] at h
  dsimp only at h
  split_ifs at h with hhas
  · obtain ⟨id, -, h⟩ := exists_of_bind_ok h
    obtain ⟨text, htext, h⟩ := exists_of_bind_ok h
    have hlength := (List.getElem?_eq_some_iff.mp (getElem?_of_piece htext)).1
    exact absurd hlength (Nat.not_lt.mpr (Nat.le_of_lt_succ (hquiet.extmap hhas)))
  · cases h
    rfl
  · cases h
    rfl

theorem processFeedback_eq (p : Parser) (line : AString) : p.processFeedback line
    = { p with tmpFeedbackVector := p.tmpFeedbackVector ++ if has "a=rtcp-fb:" line then [line] else [] } := by
  rw [processFeedback]
  split_ifs
  · rfl
  · rw [List.append_nil]

theorem processFmtp_withParameter (p : Parser) (line : AString) : p.processFmtp line
    = { p with info := { p.info with payloadVector := p.info.payloadVector.map (withParameter line) } } := by
  have hnone (h : parameterOf line = none) : p.info.payloadVector.map (withParameter line) = p.info.payloadVector := by
    have hsame (rtp : RtpMap) : withParameter line rtp = rtp := by rw [withParameter, h]
    rw [List.map_congr_left fun rtp _ => hsame rtp, List.map_id']
  have hsome {payloadType : UInt32} {option value : AString}
      (h : parameterOf line = some (payloadType, option, value)) :
      p.setFormatParameter payloadType option value
        = { p with info := { p.info with payloadVector := p.info.payloadVector.map (withParameter line) } } := by
    have hsame : withParameter line = fun rtp => if rtp.payloadType = payloadType then
        { rtp with formatParameters := rtp.formatParameters.set option value } else rtp := by
      funext rtp
      rw [withParameter, h]
    rw [hsame, setFormatParameter]
  rw [processFmtp]
  by_cases hhas : has "a=fmtp:" line
  · rw [if_pos hhas]
    rcases hsplit : splitOneOf line (ascii " :=") 4 with
      _ | ⟨_, _ | ⟨_, _ | ⟨payloadType, _ | ⟨option, _ | ⟨value, _⟩⟩⟩⟩⟩
    iterate 4 rw [hnone (by rw [parameterOf, if_pos hhas, hsplit])]
    · exact hsome (by rw [parameterOf, if_pos hhas, hsplit])
    · exact hsome (by rw [parameterOf, if_pos hhas, hsplit])
  · rw [if_neg hhas, hnone (if_neg hhas)]

theorem processBandwidth_inv (p : Parser) (line : AString) :
    ∃ videoBandwidth, p.processBandwidth line = { p with info := { p.info with videoBandwidth } } := by
  rw [processBandwidth]
  split_ifs
  · split <;> exact ⟨_, rfl⟩
  · exact ⟨_, rfl⟩

end Parser

/-! ### Lines one after the other -/

section LastOf

variable {α : Type} {value : PlacedLine → Option α}

theorem lastOf_append (lines lines' : List PlacedLine) :
    lastOf value (lines ++ lines') = (lastOf value lines').or (lastOf value lines) := by
  rw [lastOf, List.filterMap_append, List.getLast?_append]
  rfl

theorem lastOf_singleton (l : PlacedLine) : lastOf value [l] = value l := by
  rw [lastOf, List.filterMap_cons]
  cases value l <;> rfl

theorem lastOf_cons (l : PlacedLine) (lines : List PlacedLine) :
    lastOf value (l :: lines) = (lastOf value lines).or (value l) := by
  rw [← List.singleton_append, lastOf_append, lastOf_singleton]

theorem getD_or (x y : Option α) (a : α) : (x.or y).getD a = x.getD (y.getD a) := by
  cases x <;> rfl

end LastOf

def SdpInfo.username (info : SdpInfo) (audio : Bool) : AString :=
  if audio then info.iceAudioUsername else info.iceVideoUsername

def SdpInfo.password (info : SdpInfo) (audio : Bool) : AString :=
  if audio then info.iceAudioPassword else info.iceVideoPassword

def SdpInfo.direction (info : SdpInfo) (audio : Bool) : Option StreamDirection :=
  if audio then info.audioDirection else info.videoDirection

/-- What quiet lines make of a description. -/
structure LinesRead (p : Parser) (lines : List PlacedLine) (q : Parser) : Prop where
  isRtcpMux : q.info.isRtcpMux = (p.info.isRtcpMux || lines.any fun l => has "a=rtcp-mux" l.line)
  isFingerprint : q.info.isFingerprint = (p.info.isFingerprint || lines.any fun l => has "a=fingerprint" l.line)
  isBundle : q.info.isBundle = (p.info.isBundle || lines.any fun l => bundles l.line)
  hasVideo : q.info.hasVideo = (p.info.hasVideo || lines.any fun l => has "m=video" l.line)
  hasAudio : q.info.hasAudio = (p.info.hasAudio || lines.any fun l => has "m=audio" l.line)
  profile : q.info.profile = (lastOf profileIn lines).getD p.info.profile
  direction (audio : Bool) : q.info.direction audio = (lastOf (directionIn audio) lines).or (p.info.direction audio)
  username (audio : Bool) :
    q.info.username audio = (lastOf (attributeIn "a=ice-ufrag" audio) lines).getD (p.info.username audio)
  password (audio : Bool) :
    q.info.password audio = (lastOf (attributeIn "a=ice-pwd" audio) lines).getD (p.info.password audio)
  videoSsrc : q.info.videoSsrc = 0 → p.info.videoSsrc = 0
  audioSsrc : q.info.audioSsrc = 0 → p.info.audioSsrc = 0
  videoCodecs : q.info.videoCodecs = p.info.videoCodecs
  audioCodecs : q.info.audioCodecs = p.info.audioCodecs
  inOutPTMap : q.info.inOutPTMap = p.info.inOutPTMap
  outInPTMap : q.info.outInPTMap = p.info.outInPTMap
  extMapVector : q.info.extMapVector = p.info.extMapVector
  candidateVector : q.info.candidateVector = p.info.candidateVector
  payloadVector : q.info.payloadVector
    = p.info.payloadVector.map fun rtp => lines.foldl (fun rtp l => withParameter l.line rtp) rtp
  bundleTags : p.info.isBundle = true → q.info.bundleTags
    = p.info.bundleTags.map fun tag => lines.foldl (fun tag l => retag l tag) tag
  ended : p.info.isBundle = true → ∀ l ∈ lines, midOf l.line ≠ none → p.info.bundleTags.length ≤ 255
  unbundled : q.info.isBundle = false → q.info.bundleTags = p.info.bundleTags
  feedback : q.tmpFeedbackVector = p.tmpFeedbackVector ++ (lines.map (·.line)).filter (has "a=rtcp-fb:")

namespace LinesRead

variable {p q r : Parser} {lines lines' : List PlacedLine}

theorem nil (p : Parser) : LinesRead p [] p := by
  constructor <;> simp [lastOf]

theorem append (h : LinesRead p lines q) (h' : LinesRead q lines' r) : LinesRead p (lines ++ lines') r where
  isRtcpMux := by rw [h'.isRtcpMux, h.isRtcpMux, List.any_append, Bool.or_assoc]
  isFingerprint := by rw [h'.isFingerprint, h.isFingerprint, List.any_append, Bool.or_assoc]
  isBundle := by rw [h'.isBundle, h.isBundle, List.any_append, Bool.or_assoc]
  hasVideo := by rw [h'.hasVideo, h.hasVideo, List.any_append, Bool.or_assoc]
  hasAudio := by rw [h'.hasAudio, h.hasAudio, List.any_append, Bool.or_assoc]
  profile := by rw [h'.profile, h.profile, lastOf_append, getD_or]
  direction audio := by rw [h'.direction, h.direction, lastOf_append, Option.or_assoc]
  username audio := by rw [h'.username, h.username, lastOf_append, getD_or]
  password audio := by rw [h'.password, h.password, lastOf_append, getD_or]
  videoSsrc := h.videoSsrc ∘ h'.videoSsrc
  audioSsrc := h.audioSsrc ∘ h'.audioSsrc
  videoCodecs := h'.videoCodecs.trans h.videoCodecs
  audioCodecs := h'.audioCodecs.trans h.audioCodecs
  inOutPTMap := h'.inOutPTMap.trans h.inOutPTMap
  outInPTMap := h'.outInPTMap.trans h.outInPTMap
  extMapVector := h'.extMapVector.trans h.extMapVector
  candidateVector := h'.candidateVector.trans h.candidateVector
  payloadVector := by
    rw [h'.payloadVector, h.payloadVector, List.map_map]
    apply List.map_congr_left
    intro rtp _
    rw [Function.comp_apply, List.foldl_append]
  bundleTags hbundle := by
    have hstill : q.info.isBundle = true := by rw [h.isBundle, hbundle, Bool.true_or]
    rw [h'.bundleTags hstill, h.bundleTags hbundle, List.map_map]
    apply List.map_congr_left
    intro tag _
    rw [Function.comp_apply, List.foldl_append]
  ended hbundle := by
    have hstill : q.info.isBundle = true := by rw [h.isBundle, hbundle, Bool.true_or]
    have hlength : q.info.bundleTags.length = p.info.bundleTags.length := by
      rw [h.bundleTags hbundle, List.length_map]
    have hended := h'.ended hstill
    rw [hlength] at hended
    exact List.forall_mem_append.mpr ⟨h.ended hbundle, hended⟩
  unbundled hbundle := by
    have hbefore : q.info.isBundle = false := by
      rw [h'.isBundle, Bool.or_eq_false_iff] at hbundle
      exact hbundle.1
    exact (h'.unbundled hbundle).trans (h.unbundled hbefore)
  feedback := by rw [h'.feedback, h.feedback, List.map_append, List.filter_append, List.append_assoc]

end LinesRead

namespace Parser

variable {p q : Parser} {line : AString}

/-- A quiet line. -/
theorem processLine_read (hquiet : Quiet line) (h : p.processLine line = .ok q) :
    LinesRead p [⟨p.mtype, readMedia p.mtype line, line⟩] q ∧ q.mtype = readMedia p.mtype line := by
  rw [processLine] at h
  dsimp only at h
  rw [processProfile_eq, processDirection_eq, processRtcpMux_eq] at h
  dsimp only at h
  obtain ⟨p₁, h₁, h⟩ := exists_of_bind_ok h
  obtain ⟨fingerprint, rfl⟩ := processFingerprint_inv h₁
  dsimp only at h
  obtain ⟨p₂, h₂, h⟩ := exists_of_bind_ok h
  obtain rfl := processGroup_inv hquiet h₂
  dsimp only at h
  obtain ⟨audioSdpMLine, videoSdpMLine, mlineNum, hsection⟩ := processSection_inv _ line
  rw [hsection] at h
  dsimp only at h
  obtain ⟨p₃, h₃, h⟩ := exists_of_bind_ok h
  obtain rfl := processCand_inv hquiet h₃
  obtain ⟨p₄, h₄, h⟩ := exists_of_bind_ok h
  obtain ⟨cryptoVector, rfl⟩ := processCrypto_inv h₄
  dsimp only at h
  obtain ⟨p₅, h₅, h⟩ := exists_of_bind_ok h
  obtain rfl := processUser_inv h₅
  dsimp only at h
  obtain ⟨p₆, h₆, h⟩ := exists_of_bind_ok h
  obtain rfl := processPass_inv h₆
  dsimp only at h
  obtain ⟨p₇, h₇, h⟩ := exists_of_bind_ok h
  obtain ⟨rfl, hended⟩ := processMid_inv p.mtype h₇
  dsimp only at h
  obtain ⟨p₈, h₈, h⟩ := exists_of_bind_ok h
  obtain ⟨videoSsrc, audioSsrc, rfl, hvideoSsrc, haudioSsrc⟩ := processSsrc_inv h₈
  dsimp only at h
  obtain ⟨videoRtxSsrc, hgroup⟩ := processSsrcGroup_inv _ line
  rw [hgroup] at h
  dsimp only at h
  obtain ⟨p₉, h₉, h⟩ := exists_of_bind_ok h
  obtain rfl := processRtpmap_inv hquiet h₉
  obtain ⟨p₁₀, h₁₀, h⟩ := exists_of_bind_ok h
  obtain rfl := processExtmap_inv hquiet h₁₀
  rw [processFeedback_eq, processFmtp_withParameter] at h
  obtain ⟨videoBandwidth, hbandwidth⟩ := processBandwidth_inv _ line
  rw [hbandwidth] at h
  dsimp only at h
  cases h
  have hany (f : PlacedLine → Bool) : [⟨p.mtype, readMedia p.mtype line, line⟩].any f
      = f ⟨p.mtype, readMedia p.mtype line, line⟩ := by rw [List.any_cons, List.any_nil, Bool.or_false]
  refine ⟨?_, rfl⟩
  constructor
  case isRtcpMux => rw [hany]
  case isFingerprint => rw [hany]
  case isBundle => rw [hany]
  case hasVideo => rw [hany]
  case hasAudio => rw [hany]
  case profile =>
    rw [lastOf_singleton, profileIn]
    split_ifs <;> rfl
  case direction =>
    intro audio
    rw [lastOf_singleton, directionIn]
    by_cases haudio : p.mtype = .audio <;> cases audio <;> simp [SdpInfo.direction, haudio]
  case username =>
    intro audio
    rw [lastOf_singleton, attributeIn]
    by_cases haudio : readMedia p.mtype line = .audio <;> cases audio <;> simp [SdpInfo.username, haudio]
  case password =>
    intro audio
    rw [lastOf_singleton, attributeIn]
    by_cases haudio : readMedia p.mtype line = .audio <;> cases audio <;> simp [SdpInfo.password, haudio]
  case videoSsrc => exact hvideoSsrc
  case audioSsrc => exact haudioSsrc
  case bundleTags =>
    intro hbundle
    simp only [hbundle, Bool.true_or, if_true, List.foldl_cons, List.foldl_nil]
  case ended =>
    intro hbundle l hl
    rw [List.mem_singleton.mp hl]
    exact hended (by simp only [hbundle, Bool.true_or])
  case unbundled =>
    intro hbundle
    simp only at hbundle
    simp only [hbundle, Bool.false_eq_true, if_false]
  case feedback =>
    simp only [List.map_cons, List.map_nil, List.filter_cons, List.filter_nil]
  all_goals rfl

theorem lines_read {lines : List AString} (hquiet : ∀ line ∈ lines, Quiet line)
    (h : lines.foldlM processLine p = .ok q) : LinesRead p (place p.mtype lines) q := by
  induction lines generalizing p with
  | nil =>
      cases h
      exact LinesRead.nil _
  | cons line lines ih =>
      rw [List.foldlM_cons] at h
      obtain ⟨p', hline, hlines⟩ := exists_of_bind_ok h
      obtain ⟨hread, hmtype⟩ := processLine_read (hquiet line List.mem_cons_self) hline
      have hrest := ih (fun l hl => hquiet l (List.mem_cons_of_mem line hl)) hlines
      rw [hmtype] at hrest
      exact hread.append hrest

end Parser

/-! ### What a line adds -/

namespace Reading

/-- What may only be added to. -/
def total (c : Reading) : Nat := c.tags + c.candidates + c.extMaps

/-- How much a line adds. -/
def added (line : AString) : Nat :=
  (if has "a=group:" line then (splitOneOf line (ascii ":  \r\n") 10).length - 2 else 0)
    + (if has "a=candidate:" line ∧ CandidateKept (splitOneOf line (ascii " :") 0) then 1 else 0)
    + if has "a=extmap:" line ∧ 4 ≤ (splitOneOf line (ascii " :=") 3).length then 1 else 0

theorem total_after (c : Reading) (line : AString) : (c.after line).total = c.total + added line := by
  have hgroup : (c.readGroup line).total
      = c.total + if has "a=group:" line then (splitOneOf line (ascii ":  \r\n") 10).length - 2 else 0 := by
    rw [readGroup]
    split_ifs
    · simp only [total]
      omega
    · rfl
  have hmedia (c : Reading) : (c.readMedia line).total = c.total := rfl
  have hcandidate (c : Reading) : (c.readCandidate line).total = c.total
      + if has "a=candidate:" line ∧ CandidateKept (splitOneOf line (ascii " :") 0) then 1 else 0 := by
    rw [readCandidate]
    split_ifs
    · simp only [total]
      omega
    · rfl
  have huser (c : Reading) : (c.readUser line).total = c.total := by
    rw [readUser]
    split_ifs <;> rfl
  have hssrc (c : Reading) : (c.readSsrc line).total = c.total := by
    rw [readSsrc]
    split_ifs <;> rfl
  have hextmap (c : Reading) : (c.readExtmap line).total = c.total
      + if has "a=extmap:" line ∧ 4 ≤ (splitOneOf line (ascii " :=") 3).length then 1 else 0 := by
    rw [readExtmap]
    split_ifs
    · simp only [total]
      omega
    · rfl
  have hfeedback (c : Reading) : (c.readFeedback line).total = c.total := by
    rw [readFeedback]
    split_ifs <;> rfl
  rw [after, enter, hfeedback, hextmap, hssrc, huser, hcandidate, hmedia, hgroup, added]
  omega

theorem total_foldl_after (lines : List AString) (c : Reading) :
    (lines.foldl after c).total = c.total + (lines.map added).sum := by
  induction lines generalizing c with
  | nil => rfl
  | cons line lines ih => rw [List.foldl_cons, ih, total_after, List.map_cons, List.sum_cons, Nat.add_assoc]

end Reading

theorem quiet_of_added {line : AString} (hcodec : codecLine line = none) (hadded : Reading.added line = 0) :
    Quiet line := by
  rw [Reading.added] at hadded
  refine ⟨hcodec, fun hhas => ?_, fun hhas => ?_, fun hhas hkept => ?_⟩
  · by_contra hparts
    rw [if_pos (⟨hhas, Nat.not_lt.mp hparts⟩ : _ ∧ _)] at hadded
    omega
  · rw [if_pos hhas] at hadded
    omega
  · rw [if_pos (⟨hhas, hkept⟩ : _ ∧ _)] at hadded
    omega

/-! ### Reading quiet lines again -/

/-- A reading for which no line needs more. -/
structure Reading.Below (c c' : Reading) : Prop where
  mtype : c'.mtype = c.mtype
  videoSsrc : c'.videoSsrc = 0 → c.videoSsrc = 0
  audioSsrc : c'.audioSsrc = 0 → c.audioSsrc = 0

namespace Reading

variable {c c' : Reading}

theorem enter_eq (c : Reading) (line : AString) : (c.enter line).mtype = Sdp.readMedia c.mtype line
    ∧ (c.enter line).videoSsrc = c.videoSsrc ∧ (c.enter line).audioSsrc = c.audioSsrc
    ∧ (c.enter line).isBundle = (c.isBundle || bundles line) := by
  have huser (c : Reading) : (c.readUser line).mtype = c.mtype ∧ (c.readUser line).videoSsrc = c.videoSsrc
      ∧ (c.readUser line).audioSsrc = c.audioSsrc ∧ (c.readUser line).isBundle = c.isBundle := by
    rw [readUser]
    split_ifs <;> exact ⟨rfl, rfl, rfl, rfl⟩
  have hcandidate (c : Reading) : (c.readCandidate line).mtype = c.mtype
      ∧ (c.readCandidate line).videoSsrc = c.videoSsrc ∧ (c.readCandidate line).audioSsrc = c.audioSsrc
      ∧ (c.readCandidate line).isBundle = c.isBundle := by
    rw [readCandidate]
    split_ifs <;> exact ⟨rfl, rfl, rfl, rfl⟩
  have hgroup : (c.readGroup line).mtype = c.mtype ∧ (c.readGroup line).videoSsrc = c.videoSsrc
      ∧ (c.readGroup line).audioSsrc = c.audioSsrc ∧ (c.readGroup line).isBundle = (c.isBundle || bundles line) := by
    rw [readGroup, bundles]
    cases has "a=group:" line with
    | true => exact ⟨rfl, rfl, rfl, rfl⟩
    | false => exact ⟨rfl, rfl, rfl, (Bool.or_false _).symm⟩
  obtain ⟨hmtype, hvideo, haudio, hbundle⟩ := huser (((c.readGroup line).readMedia line).readCandidate line)
  obtain ⟨hmtype', hvideo', haudio', hbundle'⟩ := hcandidate ((c.readGroup line).readMedia line)
  refine ⟨?_, hvideo.trans (hvideo'.trans hgroup.2.1), haudio.trans (haudio'.trans hgroup.2.2.1),
    hbundle.trans (hbundle'.trans hgroup.2.2.2)⟩
  rw [enter, hmtype, hmtype', Reading.readMedia, hgroup.1]
  rfl

theorem tags_enter {line : AString} (hquiet : Quiet line) (c : Reading) : (c.enter line).tags = c.tags := by
  have huser (c : Reading) : (c.readUser line).tags = c.tags := by
    rw [readUser]
    split_ifs <;> rfl
  have hcandidate (c : Reading) : (c.readCandidate line).tags = c.tags := by
    rw [readCandidate]
    split_ifs <;> rfl
  have hgroup : (c.readGroup line).tags = c.tags := by
    rw [readGroup]
    split_ifs with hhas
    · exact Nat.add_eq_left.mpr (Nat.sub_eq_zero_of_le (hquiet.group hhas))
    · rfl
  exact (huser _).trans ((hcandidate _).trans hgroup)

theorem Below.after (h : Below c c') (line : AString) : Below (c.after line) (c'.after line) := by
  have hend (c : Reading) : ((c.readExtmap line).readFeedback line).mtype = c.mtype
      ∧ ((c.readExtmap line).readFeedback line).videoSsrc = c.videoSsrc
      ∧ ((c.readExtmap line).readFeedback line).audioSsrc = c.audioSsrc := by
    rw [readFeedback, readExtmap]
    split_ifs <;> exact ⟨rfl, rfl, rfl⟩
  have hssrc {c c' : Reading} (h : Below c c') : Below (c.readSsrc line) (c'.readSsrc line) := by
    obtain ⟨hmtype, hvideo, haudio⟩ := h
    rw [readSsrc, readSsrc, hmtype]
    constructor <;> split_ifs <;> simp_all
  have henter : Below (c.enter line) (c'.enter line) := by
    obtain ⟨hmtype, hvideo, haudio, -⟩ := enter_eq c line
    obtain ⟨hmtype', hvideo', haudio', -⟩ := enter_eq c' line
    refine ⟨?_, ?_, ?_⟩
    · rw [hmtype, hmtype', h.mtype]
    · rw [hvideo, hvideo']
      exact h.videoSsrc
    · rw [haudio, haudio']
      exact h.audioSsrc
  obtain ⟨hmtype, hvideo, haudio⟩ := hend ((c.enter line).readSsrc line)
  obtain ⟨hmtype', hvideo', haudio'⟩ := hend ((c'.enter line).readSsrc line)
  refine ⟨?_, ?_, ?_⟩
  · exact hmtype'.trans ((hssrc henter).mtype.trans hmtype.symm)
  · intro hzero
    exact hvideo.trans ((hssrc henter).videoSsrc (hvideo'.symm.trans hzero))
  · intro hzero
    exact haudio.trans ((hssrc henter).audioSsrc (haudio'.symm.trans hzero))

end Reading

namespace Parser

variable {p p' q : Parser} {line : AString}

theorem processLine_again (hquiet : Quiet line) (h : p.processLine line = .ok q)
    (hbelow : Reading.Below p.reading p'.reading) (hbundle : bundles line = true → p'.info.isBundle = true)
    (hended : p'.info.isBundle = true → midOf line ≠ none → p'.info.bundleTags.length ≤ 255) :
    ∃ q', p'.processLine line = .ok q' ∧ Reading.Below q.reading q'.reading := by
  obtain ⟨hmtype, hvideo, haudio, -⟩ := Reading.enter_eq p.reading line
  obtain ⟨hmtype', hvideo', haudio', hbundle'⟩ := Reading.enter_eq p'.reading line
  have hout := processLine_outcome p line
  rw [h] at hout
  cases hout with
  | read hhead _ htail _ hq =>
      have hstuck : ¬ Stuck (p'.reading.enter line) line := by
        rintro ⟨hhas, hparts, hon, hmany⟩
        have hmid : midOf line ≠ none := by
          rw [midOf, if_pos hhas, ne_eq, List.getElem?_eq_none_iff, Nat.not_le]
          exact hparts
        have hstill : p'.info.isBundle = true := by
          rw [hbundle', Bool.or_eq_true] at hon
          exact hon.elim id hbundle
        rw [Reading.tags_enter hquiet] at hmany
        exact absurd (hended hstill hmid) (Nat.not_le.mpr hmany)
      have htail' : TailSupplied (p'.reading.enter line) line := by
        refine ⟨fun hhas hneeds => htail.ssrc hhas ?_, htail.rtpmap, htail.extmap⟩
        rw [hmtype', hbelow.mtype, ← hmtype, hvideo', haudio'] at hneeds
        rw [hvideo, haudio]
        exact hneeds.imp (And.imp_right hbelow.videoSsrc) (And.imp_right hbelow.audioSsrc)
      have hout' := processLine_outcome p' line
      generalize p'.processLine line = x at hout' ⊢
      cases hout' with
      | headMissing hmissing => exact absurd hhead hmissing
      | stuck _ hstuck' => exact absurd hstuck' hstuck
      | tailMissing _ _ hmissing => exact absurd htail' hmissing
      | read _ _ _ q' hq' =>
          refine ⟨q', rfl, ?_⟩
          rw [hq, hq']
          exact hbelow.after line

theorem lines_again {lines : List AString} (hquiet : ∀ line ∈ lines, Quiet line)
    (h : lines.foldlM processLine p = .ok q) (hbelow : Reading.Below p.reading p'.reading)
    (hbundle : ∀ line ∈ lines, bundles line = true → p'.info.isBundle = true)
    (hended : p'.info.isBundle = true → ∀ line ∈ lines, midOf line ≠ none → p'.info.bundleTags.length ≤ 255) :
    ∃ q', lines.foldlM processLine p' = .ok q' := by
  induction lines generalizing p p' with
  | nil => exact ⟨p', rfl⟩
  | cons line lines ih =>
      rw [List.foldlM_cons] at h ⊢
      obtain ⟨p₁, hline, hlines⟩ := exists_of_bind_ok h
      obtain ⟨hfirst, hrest⟩ := List.forall_mem_cons.mp hquiet
      obtain ⟨hbundleFirst, hbundleRest⟩ := List.forall_mem_cons.mp hbundle
      obtain ⟨p₁', hline', hbelow'⟩ := processLine_again hfirst hline hbelow hbundleFirst
        fun htrue => hended htrue line List.mem_cons_self
      have hread := (processLine_read hfirst hline').1
      have hsame : p₁'.info.isBundle = p'.info.isBundle := by
        rw [hread.isBundle, List.any_cons, List.any_nil, Bool.or_false]
        cases hline : bundles line with
        | true => rw [hbundleFirst hline, Bool.true_or]
        | false => rw [Bool.or_false]
      rw [hline', Checked.ok_bind]
      refine ih hrest hlines hbelow' (fun l hl hl' => hsame.trans (hbundleRest l hl hl')) fun htrue l hl hmid => ?_
      rw [hsame] at htrue
      rw [hread.bundleTags htrue, List.length_map]
      exact hended htrue l (List.mem_cons_of_mem line hl) hmid

end Parser

end Licode.Media.Sdp
