import Licode.Media.RepeatedText
import Licode.Media.RtpExtensions
import Licode.Media.SdpFaults

/-!
# An offer that comes twice

`setRemoteSdp` reads the text into `remoteSdp_`, which is never cleared, and copies what it finds to `localSdp_`. A
client that sends its offer again should change nothing.

What a transport writes into the local description is given when the transport is made: its certificate and the
credentials that libnice has for it. The credentials and candidates that are passed on to the transports, the statistics
and the rate control are left out.
-/

namespace Licode.Media.Sdp

/-- What `processLocalSdp` knows of a `DtlsTransport`. -/
structure LocalTransport where
  mediaType : MediaType
  bundle : Bool
  fingerprint : AString
  username : AString
  password : AString
  deriving DecidableEq

def LocalTransport.processLocalSdp (t : LocalTransport) (localSdp : SdpInfo) : SdpInfo :=
  let localSdp := { localSdp with isFingerprint := true, fingerprint := t.fingerprint }
  if t.bundle then
    (localSdp.setCredentials t.username t.password .video).setCredentials t.username t.password .audio
  else localSdp.setCredentials t.username t.password t.mediaType

/-- The part of a `WebRtcConnection` that is about descriptions. `gathered` says whether `getCurrentState()` is at least
`CONN_GATHERED`. -/
structure SdpConnection where
  remoteSdp : SdpInfo
  localSdp : SdpInfo
  bundle : Bool
  trickleEnabled : Bool
  gathered : Bool
  videoSinkSSRC : UInt32
  audioSinkSSRC : UInt32
  videoTransport : Option LocalTransport
  audioTransport : Option LocalTransport
  extProcessor : RtpExtensionProcessor

namespace SdpConnection

def create (shouldTrickle : Bool) : SdpConnection where
  remoteSdp := .create
  localSdp := .create
  bundle := false
  trickleEnabled := shouldTrickle
  gathered := false
  videoSinkSSRC := 55543
  audioSinkSSRC := 44444
  videoTransport := none
  audioTransport := none
  extProcessor := .create

/-- What the transports write into the local description. -/
def processLocalSdp (c : SdpConnection) (localSdp : SdpInfo) : SdpInfo :=
  let localSdp := match c.videoTransport with
    | some t => t.processLocalSdp localSdp
    | none => localSdp
  match c.bundle, c.audioTransport with
  | false, some t => t.processLocalSdp localSdp
  | _, _ => localSdp

/-- `getLocalSdp`, with what `gen_random` has filled in. -/
def getLocalSdp (c : SdpConnection) (msidtemp : AString) : Checked (AString × SdpConnection) := do
  let (sdp, localSdp) ← { c.processLocalSdp c.localSdp with profile := c.remoteSdp.profile }.getSdp msidtemp
  return (sdp, { c with localSdp })

/-- The transports that a description needs and the connection does not have yet. -/
def createTransports (c : SdpConnection) (make : MediaType → Bool → LocalTransport) : SdpConnection :=
  if c.remoteSdp.profile = .savpf ∧ c.remoteSdp.isFingerprint then
    { c with
      videoTransport :=
        if c.remoteSdp.hasVideo || c.bundle then some (c.videoTransport.getD (make .video c.bundle))
        else c.videoTransport
      audioTransport :=
        if !c.bundle && c.remoteSdp.hasAudio then some (c.audioTransport.getD (make .audio c.bundle))
        else c.audioTransport }
  else c

/-- The transports that get the candidates of a description after the gathering are taken to be there. -/
def setRemoteCandidates (c : SdpConnection) : Checked Unit :=
  if c.gathered ∧ c.remoteSdp.candidateVector ≠ [] then
    if c.remoteSdp.hasVideo && c.videoTransport.isNone
      || !c.bundle && c.remoteSdp.hasAudio && c.audioTransport.isNone then .error .nullPointer
    else .ok ()
  else .ok ()

/-- What is set from a description that has been read. -/
def adopt (c : SdpConnection) (remoteSdp : SdpInfo) (extProcessor : RtpExtensionProcessor) : SdpConnection :=
  { c with
    remoteSdp
    bundle := remoteSdp.isBundle
    localSdp := { c.localSdp.setOfferSdp remoteSdp with videoSsrc := c.videoSinkSSRC, audioSsrc := c.audioSinkSSRC }
    extProcessor }

/-- `setRemoteSdp` as far as the local description is asked for. -/
def adoptSdp (c : SdpConnection) (make : MediaType → Bool → LocalTransport) (sdp : AString) :
    Checked SdpConnection := do
  let (_, remoteSdp) ← c.remoteSdp.processSdp sdp []
  let extProcessor ← c.extProcessor.setSdpInfo (c.localSdp.setOfferSdp remoteSdp)
  let c := (c.adopt remoteSdp extProcessor).createTransports make
  c.setRemoteCandidates
  return c

def setRemoteSdp (c : SdpConnection) (make : MediaType → Bool → LocalTransport) (sdp msidtemp : AString) :
    Checked SdpConnection := do
  let c ← c.adoptSdp make sdp
  if c.trickleEnabled then
    let (_, c) ← c.getLocalSdp msidtemp
    return c
  else return c

end SdpConnection

/-! ### What is printed -/

namespace SdpInfo

/-- A description as it is printed: the sources have their numbers, and the numbers of the sections are not written. -/
def printed (info : SdpInfo) : SdpInfo := { info.withSsrcs with videoSdpMLine := 0, audioSdpMLine := 0 }

theorem withSsrcs_withSsrcs (info : SdpInfo) : info.withSsrcs.withSsrcs = info.withSsrcs := by
  have hfilled {hasMedia : Bool} {ssrc number : UInt32} :
      (if hasMedia ∧ (if hasMedia ∧ ssrc = 0 then number else ssrc) = 0 then number
        else if hasMedia ∧ ssrc = 0 then number else ssrc) = if hasMedia ∧ ssrc = 0 then number else ssrc := by
    by_cases hnone : hasMedia ∧ ssrc = 0
    · rw [if_pos hnone, ite_self]
    · rw [if_neg hnone, if_neg hnone]
  rw [withSsrcs, withSsrcs]
  simp only [hfilled]

theorem printLines_printed (info : SdpInfo) (msidtemp : AString) :
    info.printed.printLines msidtemp = info.printLines msidtemp := by
  have haudio : info.withSsrcs.printAudio msidtemp = info.printAudio msidtemp := by
    rw [printAudio, printAudio, withSsrcs_withSsrcs]
    rfl
  have hvideo : info.withSsrcs.printVideo msidtemp = info.printVideo msidtemp := by
    rw [printVideo, printVideo, withSsrcs_withSsrcs]
    rfl
  rw [printLines, printLines, ← haudio, ← hvideo]
  rfl

/-- The text alone. -/
def text (info : SdpInfo) (msidtemp : AString) : Checked AString := (info.getSdp msidtemp).map Prod.fst

theorem text_of_printed {x y : SdpInfo} (h : x.printed = y.printed) (msidtemp : AString) :
    x.text msidtemp = y.text msidtemp := by
  rw [text, text, getSdp, getSdp, ← printLines_printed, h, printLines_printed]
  cases y.printLines msidtemp <;> rfl

end SdpInfo

namespace LocalTransport

variable (t : LocalTransport) (x : SdpInfo)

theorem processLocalSdp_idem : t.processLocalSdp (t.processLocalSdp x) = t.processLocalSdp x := by
  obtain ⟨mediaType, bundle, fingerprint, username, password⟩ := t
  cases bundle <;> cases mediaType <;> rfl

/-- What is written over has not been seen. -/
theorem processLocalSdp_over (u : LocalTransport) :
    t.processLocalSdp (u.processLocalSdp (t.processLocalSdp x)) = t.processLocalSdp (u.processLocalSdp x) := by
  obtain ⟨mediaType, bundle, fingerprint, username, password⟩ := t
  obtain ⟨mediaType', bundle', fingerprint', username', password'⟩ := u
  cases bundle <;> cases mediaType <;> cases bundle' <;> cases mediaType' <;> rfl

theorem processLocalSdp_withSsrcs : t.processLocalSdp x.withSsrcs = (t.processLocalSdp x).withSsrcs := by
  obtain ⟨mediaType, bundle, fingerprint, username, password⟩ := t
  cases bundle <;> cases mediaType <;> rfl

theorem processLocalSdp_setOfferSdp (offer : SdpInfo) :
    t.processLocalSdp (x.setOfferSdp offer) = (t.processLocalSdp x).setOfferSdp offer := by
  obtain ⟨mediaType, bundle, fingerprint, username, password⟩ := t
  cases bundle <;> cases mediaType <;> rfl

theorem processLocalSdp_ssrcs (videoSsrc audioSsrc : UInt32) :
    t.processLocalSdp { x with videoSsrc, audioSsrc } = { t.processLocalSdp x with videoSsrc, audioSsrc } := by
  obtain ⟨mediaType, bundle, fingerprint, username, password⟩ := t
  cases bundle <;> cases mediaType <;> rfl

theorem processLocalSdp_sdpMLines (videoSdpMLine audioSdpMLine : Int32) :
    t.processLocalSdp { x with videoSdpMLine, audioSdpMLine }
      = { t.processLocalSdp x with videoSdpMLine, audioSdpMLine } := by
  obtain ⟨mediaType, bundle, fingerprint, username, password⟩ := t
  cases bundle <;> cases mediaType <;> rfl

end LocalTransport

namespace SdpConnection

/-- What `getLocalSdp` prints. -/
def described (c : SdpConnection) : SdpInfo := { c.processLocalSdp c.localSdp with profile := c.remoteSdp.profile }

theorem getLocalSdp_eq (c : SdpConnection) (msidtemp : AString) : c.getLocalSdp msidtemp
    = (c.described.getSdp msidtemp).map fun (sdp, localSdp) => (sdp, { c with localSdp }) := by
  rw [getLocalSdp, described]
  cases { c.processLocalSdp c.localSdp with profile := c.remoteSdp.profile }.getSdp msidtemp <;> rfl

variable {c c' : SdpConnection}

/-- A change of members that the transports do not write. -/
theorem processLocalSdp_comm {change : SdpInfo → SdpInfo}
    (h : ∀ (t : LocalTransport) x, t.processLocalSdp (change x) = change (t.processLocalSdp x)) (x : SdpInfo) :
    c.processLocalSdp (change x) = change (c.processLocalSdp x) := by
  rw [processLocalSdp, processLocalSdp]
  cases c.videoTransport <;> cases c.bundle <;> cases c.audioTransport <;> simp only [h]

theorem processLocalSdp_idem (x : SdpInfo) : c.processLocalSdp (c.processLocalSdp x) = c.processLocalSdp x := by
  rw [processLocalSdp, processLocalSdp]
  cases c.videoTransport with
  | none =>
      cases c.bundle <;> cases c.audioTransport <;> simp only [LocalTransport.processLocalSdp_idem]
  | some video =>
      cases c.bundle <;> cases c.audioTransport <;>
        simp only [LocalTransport.processLocalSdp_idem, LocalTransport.processLocalSdp_over]

/-! ### After an offer -/

/-- A connection whose local description answers the remote one, and which has what the remote one asks for. -/
structure Answered (c : SdpConnection) : Prop where
  bundle : c.bundle = c.remoteSdp.isBundle
  localSdp : c.localSdp.setOfferSdp c.remoteSdp = c.localSdp
  ssrcs : { c.localSdp with videoSsrc := c.videoSinkSSRC, audioSsrc := c.audioSinkSSRC }.withSsrcs
    = c.localSdp.withSsrcs
  transports (make : MediaType → Bool → LocalTransport) : c.createTransports make = c
  candidates : c.setRemoteCandidates = .ok ()
  extMaps (extProcessor : RtpExtensionProcessor) :
    ∃ extProcessor', extProcessor.setSdpInfo c.localSdp = .ok extProcessor'

/-- Whether an id is an index of the arrays does not depend on what they hold. -/
theorem setSdpInfo_again {theInfo : SdpInfo} {processor processor' : RtpExtensionProcessor}
    (h : processor.setSdpInfo theInfo = .ok processor') (other : RtpExtensionProcessor) :
    ∃ other', other.setSdpInfo theInfo = .ok other' := by
  have hadd {ext : ExtMap} {processor processor' : RtpExtensionProcessor} (h : processor.addExtMap ext = .ok processor')
      (other : RtpExtensionProcessor) : ∃ other', other.addExtMap ext = .ok other' := by
    have hstore {extMap extMap' : ExtensionArray} {index value : Nat} (h : extMap.store index value = .ok extMap') :
        index < 10 := by
      by_contra hout
      rw [ExtensionArray.store_of_not_lt hout] at h
      cases h
    rw [RtpExtensionProcessor.addExtMap] at h ⊢
    split at h
    · obtain ⟨extMapVideo, hvideo, -⟩ := exists_of_bind_ok h
      rw [ExtensionArray.store_of_lt (hstore hvideo)]
      exact ⟨_, rfl⟩
    · obtain ⟨extMapAudio, haudio, -⟩ := exists_of_bind_ok h
      rw [ExtensionArray.store_of_lt (hstore haudio)]
      exact ⟨_, rfl⟩
    · exact ⟨other, rfl⟩
  rw [RtpExtensionProcessor.setSdpInfo] at h ⊢
  generalize theInfo.extMapVector = exts at h ⊢
  induction exts generalizing processor other with
  | nil => exact ⟨other, rfl⟩
  | cons ext exts ih =>
      rw [List.foldlM_cons] at h ⊢
      obtain ⟨next, hfirst, hrest⟩ := exists_of_bind_ok h
      obtain ⟨next', hfirst'⟩ := hadd hfirst other
      rw [hfirst', Checked.ok_bind]
      exact ih next' hrest

variable {make : MediaType → Bool → LocalTransport} {sdp msidtemp : AString}

theorem createTransports_eq (c : SdpConnection) (make : MediaType → Bool → LocalTransport) :
    ∃ videoTransport audioTransport, c.createTransports make = { c with videoTransport, audioTransport } := by
  rw [createTransports]
  by_cases hneeded : c.remoteSdp.profile = .savpf ∧ c.remoteSdp.isFingerprint
  · rw [if_pos hneeded]
    exact ⟨_, _, rfl⟩
  · rw [if_neg hneeded]
    exact ⟨_, _, rfl⟩

/-- Transports that are there are not made again. -/
theorem createTransports_again (c : SdpConnection) (make make' : MediaType → Bool → LocalTransport) :
    (c.createTransports make).createTransports make' = c.createTransports make := by
  by_cases hneeded : c.remoteSdp.profile = .savpf ∧ c.remoteSdp.isFingerprint
  · rw [createTransports, createTransports, if_pos hneeded, if_pos hneeded]
    congr 1
    · split_ifs <;> rfl
    · split_ifs <;> rfl
  · rw [createTransports, createTransports, if_neg hneeded, if_neg hneeded]

/-- Nor are they if another description asks for the same. -/
theorem transports_again (h : c.createTransports make = c) (hflags : SameFlags c.remoteSdp c'.remoteSdp)
    (hbundle : c'.bundle = c.bundle) (hvideo : c'.videoTransport = c.videoTransport)
    (haudio : c'.audioTransport = c.audioTransport) : c'.createTransports make = c' := by
  rw [createTransports] at h ⊢
  rw [hflags.profile, hflags.isFingerprint, hflags.hasVideo, hflags.hasAudio, hbundle, hvideo, haudio]
  by_cases hneeded : c.remoteSdp.profile = .savpf ∧ c.remoteSdp.isFingerprint
  · rw [if_pos hneeded] at h ⊢
    have hmade := congrArg (·.videoTransport) h
    have hmade' := congrArg (·.audioTransport) h
    dsimp only at hmade hmade'
    rw [hmade, hmade', ← hvideo, ← haudio, ← hbundle]
  · rw [if_neg hneeded]

theorem adoptSdp_answered (h : c.adoptSdp make sdp = .ok c') : c'.Answered
    ∧ ∃ answer, c.remoteSdp.processSdp sdp [] = .ok (answer, c'.remoteSdp) := by
  obtain ⟨⟨answer, remoteSdp⟩, hread, h⟩ := exists_of_bind_ok h
  obtain ⟨extProcessor, hext, h⟩ := exists_of_bind_ok h
  obtain ⟨_, hcandidates, h⟩ := exists_of_bind_ok h
  obtain ⟨videoTransport, audioTransport, hmade⟩ := createTransports_eq (c.adopt remoteSdp extProcessor) make
  have hagain := createTransports_again (c.adopt remoteSdp extProcessor) make
  rw [hmade] at hcandidates h hagain
  cases h
  exact ⟨⟨rfl, rfl, rfl, hagain, hcandidates, setSdpInfo_again hext⟩, answer, hread⟩

namespace Answered

theorem processLocalSdp (h : c.Answered) :
    (c.processLocalSdp c.localSdp).setOfferSdp c.remoteSdp = c.processLocalSdp c.localSdp := by
  have hcomm := @processLocalSdp_comm c (·.setOfferSdp c.remoteSdp)
    (fun t x => t.processLocalSdp_setOfferSdp x c.remoteSdp) c.localSdp
  calc (c.processLocalSdp c.localSdp).setOfferSdp c.remoteSdp
      = c.processLocalSdp (c.localSdp.setOfferSdp c.remoteSdp) := hcomm.symm
    _ = c.processLocalSdp c.localSdp := by rw [h.localSdp]

/-- The profile is that of the remote description already. -/
theorem described (h : c.Answered) : c.described = c.processLocalSdp c.localSdp := by
  rw [SdpConnection.described, ← h.processLocalSdp]
  rfl

/-- The numbers of the sources are those that were there before they were printed. -/
theorem sinks (h : c.Answered) : { c.processLocalSdp c.localSdp with
    videoSsrc := c.videoSinkSSRC
    audioSsrc := c.audioSinkSSRC }.withSsrcs = (c.processLocalSdp c.localSdp).withSsrcs := by
  have hsinks := @processLocalSdp_comm c
    (fun x => { x with videoSsrc := c.videoSinkSSRC, audioSsrc := c.audioSinkSSRC })
    (fun t x => t.processLocalSdp_ssrcs x c.videoSinkSSRC c.audioSinkSSRC) c.localSdp
  have hfilled := @processLocalSdp_comm c SdpInfo.withSsrcs fun t x => t.processLocalSdp_withSsrcs x
  calc { c.processLocalSdp c.localSdp with videoSsrc := c.videoSinkSSRC, audioSsrc := c.audioSinkSSRC }.withSsrcs
      = c.processLocalSdp
          { c.localSdp with videoSsrc := c.videoSinkSSRC, audioSsrc := c.audioSinkSSRC }.withSsrcs := by
        rw [hfilled, hsinks]
    _ = (c.processLocalSdp c.localSdp).withSsrcs := by rw [h.ssrcs, hfilled]

theorem getLocalSdp_eq_ok (h : c.Answered) {text : AString} (hprint : c.getLocalSdp msidtemp = .ok (text, c')) :
    c' = { c with localSdp := (c.processLocalSdp c.localSdp).withSsrcs } := by
  rw [getLocalSdp_eq, h.described] at hprint
  cases hprinted : (c.processLocalSdp c.localSdp).getSdp msidtemp with
  | error e =>
      rw [hprinted] at hprint
      cases hprint
  | ok result =>
      rw [hprinted] at hprint
      obtain ⟨lines, -, hresult⟩ := exists_of_bind_ok hprinted
      cases hresult
      cases hprint
      rfl

/-- What is written while the description is printed does not matter for the next offer. -/
theorem getLocalSdp (h : c.Answered) :
    { c with localSdp := (c.processLocalSdp c.localSdp).withSsrcs }.Answered := by
  refine ⟨h.bundle, ?_, ?_, fun make => ?_, h.candidates, fun extProcessor => ?_⟩
  · calc (c.processLocalSdp c.localSdp).withSsrcs.setOfferSdp c.remoteSdp
        = { (c.processLocalSdp c.localSdp).setOfferSdp c.remoteSdp with
          audioSsrc := (c.processLocalSdp c.localSdp).withSsrcs.audioSsrc
          videoSsrc := (c.processLocalSdp c.localSdp).withSsrcs.videoSsrc } := rfl
      _ = (c.processLocalSdp c.localSdp).withSsrcs := by
        rw [h.processLocalSdp]
        rfl
  · rw [SdpInfo.withSsrcs_withSsrcs]
    exact h.sinks
  · exact transports_again (h.transports make) ⟨rfl, rfl, rfl, rfl, rfl, rfl, fun _ => rfl⟩ rfl rfl rfl
  · have hexts : (c.processLocalSdp c.localSdp).extMapVector = c.localSdp.extMapVector := by
      rw [← h.processLocalSdp, ← h.localSdp]
      rfl
    obtain ⟨extProcessor', hset⟩ := h.extMaps extProcessor
    refine ⟨extProcessor', ?_⟩
    rw [RtpExtensionProcessor.setSdpInfo, ← hexts] at hset
    exact hset

/-- Nor does it for the next print. -/
theorem printed_getLocalSdp (h : c.Answered) :
    { c with localSdp := (c.processLocalSdp c.localSdp).withSsrcs }.described.printed = c.described.printed := by
  have hfilled := @processLocalSdp_comm c SdpInfo.withSsrcs fun t x => t.processLocalSdp_withSsrcs x
  rw [h.described, h.getLocalSdp.described]
  change (c.processLocalSdp (c.processLocalSdp c.localSdp).withSsrcs).printed = _
  rw [hfilled, processLocalSdp_idem, SdpInfo.printed, SdpInfo.withSsrcs_withSsrcs]
  rfl

end Answered

/-! ### The same offer again -/

/-- The lists of both descriptions are the same, and so is the text that is printed, but for the number in it. -/
structure Unchanged (c c' : SdpConnection) : Prop where
  remoteSdp : SameLists c.remoteSdp c'.remoteSdp
  localSdp : SameLists c.localSdp c'.localSdp
  printed (msidtemp : AString) : (c'.getLocalSdp msidtemp).map Prod.fst = (c.getLocalSdp msidtemp).map Prod.fst

/-- What is copied from an offer that has the same lists. -/
theorem Answered.setOfferSdp (h : c.Answered) {remoteSdp : SdpInfo} (hlists : SameLists c.remoteSdp remoteSdp)
    (hflags : SameFlags c.remoteSdp remoteSdp) : c.localSdp.setOfferSdp remoteSdp = { c.localSdp with
      videoSdpMLine := remoteSdp.videoSdpMLine
      audioSdpMLine := remoteSdp.audioSdpMLine } := by
  have hvideo : remoteSdp.videoDirection = c.remoteSdp.videoDirection := hflags.direction false
  have haudio : remoteSdp.audioDirection = c.remoteSdp.audioDirection := hflags.direction true
  have hoffer : c.localSdp.setOfferSdp remoteSdp = { c.localSdp.setOfferSdp c.remoteSdp with
      videoSdpMLine := remoteSdp.videoSdpMLine
      audioSdpMLine := remoteSdp.audioSdpMLine } := by
    rw [SdpInfo.setOfferSdp, SdpInfo.setOfferSdp, hlists.payloadVector, hlists.videoCodecs, hlists.audioCodecs,
      hlists.inOutPTMap, hlists.outInPTMap, hlists.extMapVector, hlists.bundleTags, hflags.isBundle, hflags.profile,
      hflags.isRtcpMux, hflags.hasVideo, hflags.hasAudio, hvideo, haudio]
  rw [hoffer, h.localSdp]

theorem adoptSdp_again (h : c.Answered) (make : MediaType → Bool → LocalTransport) {remoteSdp : SdpInfo} {answer : Bool}
    (hread : c.remoteSdp.processSdp sdp [] = .ok (answer, remoteSdp)) (hlists : SameLists c.remoteSdp remoteSdp)
    (hflags : SameFlags c.remoteSdp remoteSdp) : ∃ c', c.adoptSdp make sdp = .ok c' ∧ c'.Answered
      ∧ c'.remoteSdp = remoteSdp ∧ c'.trickleEnabled = c.trickleEnabled
      ∧ c'.localSdp.candidateVector = c.localSdp.candidateVector ∧ c'.described.printed = c.described.printed := by
  have hbundle : remoteSdp.isBundle = c.bundle := by rw [hflags.isBundle, h.bundle]
  have hoffer := h.setOfferSdp hlists hflags
  obtain ⟨extProcessor, hext⟩ := h.extMaps c.extProcessor
  have hext' : c.extProcessor.setSdpInfo (c.localSdp.setOfferSdp remoteSdp) = .ok extProcessor := by
    rw [hoffer]
    exact hext
  have htransports : (c.adopt remoteSdp extProcessor).createTransports make = c.adopt remoteSdp extProcessor :=
    transports_again (h.transports make) hflags hbundle rfl rfl
  have hcandidates : (c.adopt remoteSdp extProcessor).setRemoteCandidates = c.setRemoteCandidates := by
    rw [setRemoteCandidates, setRemoteCandidates, adopt, hlists.candidateVector, hflags.hasVideo, hflags.hasAudio,
      hbundle]
  have hadopt : c.adoptSdp make sdp = .ok (c.adopt remoteSdp extProcessor) := by
    rw [adoptSdp, hread, Checked.ok_bind]
    dsimp only
    rw [hext', Checked.ok_bind, htransports, hcandidates, h.candidates]
    rfl
  have hanswered := (adoptSdp_answered hadopt).1
  refine ⟨_, hadopt, hanswered, rfl, rfl, rfl, ?_⟩
  have hprocess (x : SdpInfo) : (c.adopt remoteSdp extProcessor).processLocalSdp x = c.processLocalSdp x := by
    rw [processLocalSdp, processLocalSdp, adopt, hbundle]
  have hsinks := @processLocalSdp_comm c
    (fun x => { x with videoSsrc := c.videoSinkSSRC, audioSsrc := c.audioSinkSSRC })
    (fun t x => t.processLocalSdp_ssrcs x c.videoSinkSSRC c.audioSinkSSRC) c.localSdp
  have hlines := @processLocalSdp_comm c (fun x => { x with
      videoSdpMLine := remoteSdp.videoSdpMLine
      audioSdpMLine := remoteSdp.audioSdpMLine })
    (fun t x => t.processLocalSdp_sdpMLines x remoteSdp.videoSdpMLine remoteSdp.audioSdpMLine)
    { c.localSdp with videoSsrc := c.videoSinkSSRC, audioSsrc := c.audioSinkSSRC }
  rw [hanswered.described, h.described, hprocess]
  change (c.processLocalSdp
    { c.localSdp.setOfferSdp remoteSdp with videoSsrc := c.videoSinkSSRC, audioSsrc := c.audioSinkSSRC }).printed = _
  rw [hoffer]
  dsimp only at hlines hsinks
  rw [hlines, hsinks]
  exact congrArg (fun x : SdpInfo => { x with videoSdpMLine := 0, audioSdpMLine := 0 }) h.sinks

theorem text_of_printed (h : c'.described.printed = c.described.printed) (msidtemp : AString) :
    (c'.getLocalSdp msidtemp).map Prod.fst = (c.getLocalSdp msidtemp).map Prod.fst := by
  have htext (c : SdpConnection) : (c.getLocalSdp msidtemp).map Prod.fst = c.described.text msidtemp := by
    rw [getLocalSdp_eq, SdpInfo.text]
    cases c.described.getSdp msidtemp <;> rfl
  rw [htext, htext, SdpInfo.text_of_printed h]

/-- Whether a description can be printed does not depend on the number in it. -/
theorem getLocalSdp_returns (h : c'.described.printed = c.described.printed) {result : AString × SdpConnection}
    (hprint : c.getLocalSdp msidtemp = .ok result) (msidtemp' : AString) :
    ∃ text c'', c'.getLocalSdp msidtemp' = .ok (text, c'') := by
  have hother : ∃ result, c.getLocalSdp msidtemp' = .ok result := by
    have hreturned : ∃ printed, c.described.getSdp msidtemp = .ok printed := by
      rw [getLocalSdp_eq] at hprint
      cases hprinted : c.described.getSdp msidtemp with
      | error e =>
          rw [hprinted] at hprint
          cases hprint
      | ok printed => exact ⟨printed, rfl⟩
    have hends := (SdpInfo.getSdp_needs c.described msidtemp).returns_iff.mp hreturned
    obtain ⟨printed, hprinted⟩ := (SdpInfo.getSdp_needs c.described msidtemp').returns_iff.mpr hends
    rw [getLocalSdp_eq, hprinted]
    exact ⟨_, rfl⟩
  obtain ⟨other, hother⟩ := hother
  have htext := text_of_printed h msidtemp'
  rw [hother] at htext
  cases hagain : c'.getLocalSdp msidtemp' with
  | error e =>
      rw [hagain] at htext
      cases htext
  | ok result => exact ⟨result.1, result.2, rfl⟩

theorem setRemoteSdp_answered (h : c.setRemoteSdp make sdp msidtemp = .ok c') : c'.Answered
    ∧ (∃ answer, c.remoteSdp.processSdp sdp [] = .ok (answer, c'.remoteSdp))
    ∧ (c'.trickleEnabled = true → ∃ result, c'.getLocalSdp msidtemp = .ok result) := by
  obtain ⟨between, hadopt, h⟩ := exists_of_bind_ok h
  obtain ⟨hanswered, hread⟩ := adoptSdp_answered hadopt
  split_ifs at h with htrickle
  · obtain ⟨⟨text, printed⟩, hprint, h⟩ := exists_of_bind_ok h
    cases h
    obtain rfl := hanswered.getLocalSdp_eq_ok hprint
    obtain ⟨text', again, hagain⟩ := getLocalSdp_returns hanswered.printed_getLocalSdp hprint msidtemp
    exact ⟨hanswered.getLocalSdp, hread, fun _ => ⟨_, hagain⟩⟩
  · cases h
    exact ⟨hanswered, hread, fun htrue => absurd htrue htrickle⟩

theorem candidateVector_processLocalSdp (c : SdpConnection) (x : SdpInfo) :
    (c.processLocalSdp x).candidateVector = x.candidateVector := by
  have hkept (t : LocalTransport) (x : SdpInfo) : (t.processLocalSdp x).candidateVector = x.candidateVector := by
    obtain ⟨mediaType, bundle, fingerprint, username, password⟩ := t
    cases bundle <;> cases mediaType <;> rfl
  rw [processLocalSdp]
  cases c.videoTransport <;> cases c.bundle <;> cases c.audioTransport <;> simp only [hkept]

/-- The lists of the local description are those of the remote one, but for the candidates. -/
theorem Answered.sameLists (h : c.Answered) (h' : c'.Answered) (hremote : SameLists c.remoteSdp c'.remoteSdp)
    (hcandidates : c'.localSdp.candidateVector = c.localSdp.candidateVector) : SameLists c.localSdp c'.localSdp := by
  rw [← h.localSdp, ← h'.localSdp]
  exact ⟨hremote.payloadVector, hremote.videoCodecs, hremote.audioCodecs, hremote.inOutPTMap, hremote.outInPTMap,
    hremote.extMapVector, hremote.bundleTags, hcandidates⟩

/-- **A second offer with the same text changes nothing** just if the text is repeatable. -/
theorem setRemoteSdp_again_iff (h : c.setRemoteSdp make sdp msidtemp = .ok c')
    (make' : MediaType → Bool → LocalTransport) (msidtemp' : AString) :
    (∃ c'', c'.setRemoteSdp make' sdp msidtemp' = .ok c'' ∧ Unchanged c' c'')
      ↔ Repeatable (getlines sdp) c'.remoteSdp := by
  obtain ⟨hanswered, ⟨answer, hread⟩, hprints⟩ := setRemoteSdp_answered h
  constructor
  · rintro ⟨c'', hagain, hsame⟩
    obtain ⟨-, ⟨answer', hread'⟩, -⟩ := setRemoteSdp_answered hagain
    exact repeatable_of_again hread hread' hsame.remoteSdp
  · intro hrepeat
    obtain ⟨answer', remoteSdp, hread', hlists, hflags⟩ := again_of_repeatable hread hrepeat
    obtain ⟨between, hadopt, hbetween, rfl, htrickle, hcandidates, hprinted⟩ :=
      adoptSdp_again hanswered make' hread' hlists hflags
    rw [setRemoteSdp, hadopt, Checked.ok_bind, htrickle]
    by_cases htrue : c'.trickleEnabled = true
    · obtain ⟨result, hprint⟩ := hprints htrue
      obtain ⟨text, c'', hprint'⟩ := getLocalSdp_returns hprinted hprint msidtemp'
      obtain rfl := hbetween.getLocalSdp_eq_ok hprint'
      rw [if_pos htrue, hprint']
      have hcandidates' := (candidateVector_processLocalSdp between between.localSdp).trans hcandidates
      refine ⟨_, rfl, hlists, hanswered.sameLists hbetween.getLocalSdp hlists hcandidates', text_of_printed ?_⟩
      rw [hbetween.printed_getLocalSdp, hprinted]
    · rw [if_neg htrue]
      exact ⟨between, rfl, hlists, hanswered.sameLists hbetween hlists hcandidates, text_of_printed hprinted⟩

/-- An offer that only says which way the audio goes. -/
def quietOffer : AString := ascii "m=audio\na=sendonly\na=ice-ufrag:abcd\na=ice-pwd:efgh\n"

/-- A certificate and credentials. -/
def transportOf (mediaType : MediaType) (bundle : Bool) : LocalTransport :=
  ⟨mediaType, bundle, ascii "AB:CD", ascii "ufrag", ascii "pwd"⟩

theorem setRemoteSdp_again_iff_quietOffer : ∃ c' c'', (create false).setRemoteSdp transportOf quietOffer [] = .ok c'
    ∧ c'.setRemoteSdp transportOf quietOffer [] = .ok c'' ∧ Unchanged c' c'' := by
  have hrun : (do
      let c' ← (create false).setRemoteSdp transportOf quietOffer []
      return (c'.remoteSdp.isBundle, c'.remoteSdp.candidateVector)) = .ok (false, []) := by decide
  obtain ⟨c', h, hrun⟩ := exists_of_bind_ok hrun
  simp only [Checked.pure_eq_ok, Except.ok.injEq, Prod.mk.injEq] at hrun
  obtain ⟨hbundle, hcandidates⟩ := hrun
  have hrepeat : Repeatable (getlines quietOffer) c'.remoteSdp := by
    have hquiet : ∀ line ∈ getlines quietOffer, codecLine line = none ∧ has "a=extmap:" line = false
        ∧ has "a=group:" line = false ∧ has "a=candidate:" line = false ∧ has "a=rtcp-fb:" line = false := by decide
    refine ⟨fun line hline => ?_, fun _ line hline hhas => ?_, ?_, ?_, ?_⟩
    · obtain ⟨hcodec, hextmap, hgroup, hcandidate, -⟩ := hquiet line hline
      exact ⟨hcodec, by simp [hextmap], by simp [hgroup], by simp [hcandidate]⟩
    · rw [(hquiet line hline).2.2.2.2] at hhas
      cases hhas
    · simp [hbundle]
    · simp [hbundle]
    · simp [hcandidates]
  obtain ⟨c'', hagain, hsame⟩ := (setRemoteSdp_again_iff h transportOf []).mpr hrepeat
  exact ⟨c', c'', h, hagain, hsame⟩

/-- An offer with a codec. -/
def codecOffer : AString := ascii "m=video\na=rtpmap:100 VP8/90000\n"

/-- When it comes again there are two. -/
theorem codec_twice : ∃ c' c'', (create false).setRemoteSdp transportOf codecOffer [] = .ok c'
    ∧ c'.setRemoteSdp transportOf codecOffer [] = .ok c''
    ∧ c'.localSdp.videoCodecs = 1 ∧ c''.localSdp.videoCodecs = 2
    ∧ c'.localSdp.payloadVector.length = 1 ∧ c''.localSdp.payloadVector.length = 2 ∧ ¬ Unchanged c' c'' := by
  have hrun : (do
      let c' ← (create false).setRemoteSdp transportOf codecOffer []
      let c'' ← c'.setRemoteSdp transportOf codecOffer []
      return (c'.localSdp.videoCodecs, c''.localSdp.videoCodecs, c'.localSdp.payloadVector.length,
        c''.localSdp.payloadVector.length)) = (.ok (1, 2, 1, 2) : Checked (Int32 × Int32 × Nat × Nat)) := by decide
  obtain ⟨c', h, hrun⟩ := exists_of_bind_ok hrun
  obtain ⟨c'', hagain, hrun⟩ := exists_of_bind_ok hrun
  simp only [Checked.pure_eq_ok, Except.ok.injEq, Prod.mk.injEq] at hrun
  obtain ⟨hfirst, hsecond, hpayloads, hpayloads'⟩ := hrun
  refine ⟨c', c'', h, hagain, hfirst, hsecond, hpayloads, hpayloads', fun hsame => ?_⟩
  have hcodecs := hsame.localSdp.videoCodecs
  rw [hfirst, hsecond] at hcodecs
  exact absurd hcodecs (by decide)

end SdpConnection

end Licode.Media.Sdp
