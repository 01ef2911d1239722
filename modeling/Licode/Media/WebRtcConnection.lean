import Licode.Media.Dtls
import Licode.Lib.Run

/-!
# Remote candidates on their way to the ICE agents

A connection has a transport for its video, or for everything when the media are bundled, and one for
its audio when they are not. The candidates of the remote description and those that come later are
kept in `remoteSdp`; they are passed to the transports at three places, each under its own condition:
when the description is set on a connection that has gathered, when a transport reports that it has
gathered, and when a candidate comes on its own.

What a text holds is the result of `SdpInfo::processSdp` (`SdpText`); the credentials it puts on the
candidates are left out.
-/

namespace Licode.Media

inductive MediaType where
  | video
  | audio
  | other
  deriving DecidableEq, Repr

inductive HostType where
  | host
  | srflx
  | prflx
  | relay
  deriving DecidableEq, Repr

structure CandidateInfo where
  mediaType : MediaType
  componentId : UInt32
  priority : UInt32
  hostType : HostType
  hostAddress : AString
  hostPort : Int32
  rAddress : AString
  rPort : Int32
  deriving DecidableEq, Repr

/-- A candidate as the agent gets it; `base` is set for the two types that have one. -/
structure NiceCandidate where
  type : HostType
  componentId : UInt32
  priority : UInt32
  addr : AString × Int32
  base : Option (AString × Int32)
  deriving DecidableEq, Repr

def CandidateInfo.toNice (cinfo : CandidateInfo) : NiceCandidate where
  type := cinfo.hostType
  componentId := cinfo.componentId
  priority := cinfo.priority
  addr := (cinfo.hostAddress, cinfo.hostPort)
  base :=
    if cinfo.hostType = .relay ∨ cinfo.hostType = .srflx then some (cinfo.rAddress, cinfo.rPort)
    else none

/-- The candidates that the loop of `setRemoteCandidates` takes. -/
def CandidateInfo.Usable (cinfo : CandidateInfo) : Prop := cinfo.componentId = 1 ∧ cinfo.hostPort ≠ 0

instance (cinfo : CandidateInfo) : Decidable cinfo.Usable := inferInstanceAs (Decidable (_ ∧ _))

/-- A `DtlsTransport` with its `NiceConnection`. `passed` is not in the source: it is the log of the
arguments of `setRemoteCandidates`, as `agent` is of `nice_agent_set_remote_candidates`. -/
structure Transport where
  mediaType : MediaType
  state : TransportState
  receivedLastCandidate : Bool
  passed : List CandidateInfo
  agent : List NiceCandidate
  deriving DecidableEq

namespace Transport

def create (mediaType : MediaType) : Transport := ⟨mediaType, .initial, false, [], []⟩

/-- `NiceConnection::setRemoteCandidates` on a connection that has its agent. -/
def setRemoteCandidates (t : Transport) (candidates : List CandidateInfo) (isBundle : Bool) :
    Transport :=
  { t with
    passed := t.passed ++ candidates
    agent := t.agent ++ ((candidates.filter fun cinfo =>
      decide cinfo.Usable && (isBundle || cinfo.mediaType = t.mediaType)).map
        CandidateInfo.toNice).reverse }

end Transport

inductive Profile where
  | avpf
  | savpf
  deriving DecidableEq, Repr

/-- What `SdpInfo::processSdp` finds in a text. -/
structure SdpText where
  savpf : Bool
  isBundle : Bool
  isFingerprint : Bool
  hasVideo : Bool
  hasAudio : Bool
  videoSdpMLine : Option Int32
  iceVideoUsername : Option AString
  iceAudioUsername : Option AString
  candidates : List CandidateInfo

/-- The part of a `SdpInfo` that decides about candidates. -/
structure RemoteSdp where
  profile : Profile
  isBundle : Bool
  isFingerprint : Bool
  hasVideo : Bool
  hasAudio : Bool
  videoSdpMLine : Int32
  iceVideoUsername : AString
  iceAudioUsername : AString
  candidateInfos : List CandidateInfo

namespace RemoteSdp

def create : RemoteSdp where
  profile := .savpf
  isBundle := false
  isFingerprint := false
  hasVideo := false
  hasAudio := false
  videoSdpMLine := -1
  iceVideoUsername := []
  iceAudioUsername := []
  candidateInfos := []

/-- What a text adds; nothing that was found before is taken back. -/
def read (info : RemoteSdp) (text : SdpText) : RemoteSdp where
  profile := if text.savpf then .savpf else info.profile
  isBundle := info.isBundle || text.isBundle
  isFingerprint := info.isFingerprint || text.isFingerprint
  hasVideo := info.hasVideo || text.hasVideo
  hasAudio := info.hasAudio || text.hasAudio
  videoSdpMLine := text.videoSdpMLine.getD info.videoSdpMLine
  iceVideoUsername := text.iceVideoUsername.getD info.iceVideoUsername
  iceAudioUsername := text.iceAudioUsername.getD info.iceAudioUsername
  candidateInfos := info.candidateInfos ++ text.candidates

/-- `SdpInfo::initWithSdp`. -/
def initWithSdp (info : RemoteSdp) (text : SdpText) : Bool × RemoteSdp :=
  let info := info.read text
  if info.iceVideoUsername = [] ∧ info.iceAudioUsername = [] then (false, info)
  else if info.iceVideoUsername = [] then
    (true, { info with iceVideoUsername := info.iceAudioUsername })
  else if info.iceAudioUsername = [] then
    (true, { info with iceAudioUsername := info.iceVideoUsername })
  else (true, info)

def getUsername (info : RemoteSdp) (media : MediaType) : AString :=
  if media = .audio then info.iceAudioUsername else info.iceVideoUsername

/-- `setCredentials(username, password, OTHER)` on a new `SdpInfo`. -/
def withCredentials (username : AString) : RemoteSdp :=
  { create with iceVideoUsername := username, iceAudioUsername := username }

end RemoteSdp

inductive WebRTCEvent where
  | connInitial
  | connStarted
  | connGathered
  | connReady
  | connFinished
  | connFailed
  deriving DecidableEq, Repr

def WebRTCEvent.toNat : WebRTCEvent → Nat
  | .connInitial => 101
  | .connStarted => 102
  | .connGathered => 103
  | .connReady => 104
  | .connFinished => 105
  | .connFailed => 500

/-- `localHasVideo` and `localHasAudio` are those of `localSdp_`. `remoteSet` and `known` are not in
the source: whether a remote description has been set, and the candidates that came with one or on
their own. -/
structure WebRtcConnection where
  bundle : Bool
  trickleEnabled : Bool
  globalState : WebRTCEvent
  remoteSdp : RemoteSdp
  localHasVideo : Bool
  localHasAudio : Bool
  videoTransport : Option Transport
  audioTransport : Option Transport
  remoteSet : Bool
  known : List CandidateInfo

namespace WebRtcConnection

def create (shouldTrickle : Bool) : WebRtcConnection where
  bundle := false
  trickleEnabled := shouldTrickle
  globalState := .connInitial
  remoteSdp := .create
  localHasVideo := false
  localHasAudio := false
  videoTransport := none
  audioTransport := none
  remoteSet := false
  known := []

/-- `WebRtcConnection::createOffer`; the offer is always bundled. -/
def createOffer (c : WebRtcConnection) : WebRtcConnection :=
  { c with
    bundle := true
    localHasVideo := true
    localHasAudio := true
    videoTransport := some (.create .video) }

/-- The transports, by their media. -/
def transport (c : WebRtcConnection) : MediaType → Option Transport
  | .video => c.videoTransport
  | .audio => c.audioTransport
  | .other => none

def setTransport (c : WebRtcConnection) (media : MediaType) (t : Transport) : WebRtcConnection :=
  match media with
  | .video => { c with videoTransport := some t }
  | .audio => { c with audioTransport := some t }
  | .other => c

/-- `videoTransport_->setRemoteCandidates(candidates, bundle_)`, or that of `audioTransport_`. -/
def pass (c : WebRtcConnection) (media : MediaType) (candidates : List CandidateInfo) :
    Checked WebRtcConnection :=
  match c.transport media with
  | none => .error .nullPointer
  | some t => .ok (c.setTransport media (t.setRemoteCandidates candidates c.bundle))

def passIf (c : WebRtcConnection) (condition : Bool) (media : MediaType)
    (candidates : List CandidateInfo) : Checked WebRtcConnection :=
  if condition then c.pass media candidates else .ok c

/-- The block that passes what is in `remoteSdp_`, where there is something. -/
def passRemoteSdp (c : WebRtcConnection) : Checked WebRtcConnection :=
  if c.remoteSdp.candidateInfos = [] then .ok c
  else do
    let c ← c.passIf c.remoteSdp.hasVideo .video c.remoteSdp.candidateInfos
    c.passIf (!c.bundle && c.remoteSdp.hasAudio) .audio c.remoteSdp.candidateInfos

/-- The transports that a description needs and the connection does not have yet. -/
def createTransports (c : WebRtcConnection) : WebRtcConnection :=
  if c.remoteSdp.profile = .savpf ∧ c.remoteSdp.isFingerprint = true then
    { c with
      videoTransport :=
        if c.remoteSdp.hasVideo || c.bundle then some (c.videoTransport.getD (.create .video))
        else c.videoTransport
      audioTransport :=
        if !c.bundle && c.remoteSdp.hasAudio then some (c.audioTransport.getD (.create .audio))
        else c.audioTransport }
  else c

/-- `remoteSdp_.initWithSdp` and what is set from it. -/
def adoptSdp (c : WebRtcConnection) (text : SdpText) : WebRtcConnection :=
  let remoteSdp := (c.remoteSdp.initWithSdp text).2
  { c with
    remoteSdp := remoteSdp
    bundle := remoteSdp.isBundle
    localHasVideo := remoteSdp.hasVideo
    localHasAudio := remoteSdp.hasAudio
    remoteSet := true
    known := c.known ++ text.candidates }

/-- `WebRtcConnection::setRemoteSdp`. -/
def setRemoteSdp (c : WebRtcConnection) (text : SdpText) : Checked WebRtcConnection :=
  let c := (c.adoptSdp text).createTransports
  if c.globalState.toNat ≥ WebRTCEvent.connGathered.toNat then c.passRemoteSdp else .ok c

/-- The media that a candidate is for. -/
def candidateType (c : WebRtcConnection) (mid : AString) (mLineIndex : Int32) : MediaType :=
  if mid = ascii "video" ∨ mLineIndex = c.remoteSdp.videoSdpMLine then .video else .audio

/-- `WebRtcConnection::addRemoteCandidate`. The text is given as what is found in it for each of the
media. The last loop counts with eight bits. -/
def addRemoteCandidate (c : WebRtcConnection) (mid : AString) (mLineIndex : Int32)
    (text : MediaType → SdpText) : Checked WebRtcConnection := do
  let theType := c.candidateType mid mLineIndex
  let c := { c with known := c.known ++ (text theType).candidates }
  match c.videoTransport with
  | none => return c
  | some t =>
      let t := if mLineIndex = -1 then { t with receivedLastCandidate := true } else t
      let c : WebRtcConnection := { c with videoTransport := some t }
      let (ok, tempSdp) :=
        (RemoteSdp.withCredentials (c.remoteSdp.getUsername theType)).initWithSdp (text theType)
      let media := if theType = .video ∨ c.bundle = true then .video else .audio
      let c ← c.passIf ok media tempSdp.candidateInfos
      if tempSdp.candidateInfos.length > 255 then .error .diverged
      else return { c with remoteSdp := { c.remoteSdp with
        candidateInfos := c.remoteSdp.candidateInfos ++ tempSdp.candidateInfos } }

/-- Every transport that is needed has come to a state. -/
def allIn (c : WebRtcConnection) (hasVideo hasAudio : Bool) (state : TransportState) : Bool :=
  (!hasAudio || c.audioTransport.any (·.state = state))
    && (!hasVideo || c.videoTransport.any (·.state = state))

/-- `WebRtcConnection::updateState`. -/
def updateState (c : WebRtcConnection) (state : TransportState) : Checked WebRtcConnection := do
  if c.videoTransport = none ∧ c.audioTransport = none then return c
  if c.globalState = .connFailed then return c
  match state with
  | .started =>
      if c.bundle || c.allIn c.remoteSdp.hasVideo c.remoteSdp.hasAudio .started then
        return { c with globalState := .connStarted }
      else return c
  | .gathered =>
      if c.bundle then
        let c ← c.passRemoteSdp
        return if c.trickleEnabled then c else { c with globalState := .connGathered }
      else if c.allIn c.localHasVideo c.localHasAudio .gathered && !c.trickleEnabled then
        return { c with globalState := .connGathered }
      else return c
  | .ready =>
      if c.bundle || c.allIn c.remoteSdp.hasVideo c.remoteSdp.hasAudio .ready then
        return { c with globalState := .connReady }
      else return c
  | .failed => return { c with globalState := .connFailed }
  | .initial | .finished => return c

/-- `Transport::updateTransportState(TRANSPORT_GATHERED)` of one of the transports. -/
def transportGathered (c : WebRtcConnection) (media : MediaType) : Checked WebRtcConnection :=
  match c.transport media with
  | none => .ok c
  | some t =>
      if t.state = .gathered then .ok c
      else (c.setTransport media { t with state := .gathered }).updateState .gathered

inductive Event where
  | setRemoteSdp (text : SdpText)
  | addRemoteCandidate (mid : AString) (mLineIndex : Int32) (text : MediaType → SdpText)
  | transportGathered (media : MediaType)

def next (c : WebRtcConnection) : Event → Checked WebRtcConnection
  | .setRemoteSdp text => c.setRemoteSdp text
  | .addRemoteCandidate mid mLineIndex text => c.addRemoteCandidate mid mLineIndex text
  | .transportGathered media => c.transportGathered media

def Step (c : WebRtcConnection) (event : Event) (c' : WebRtcConnection) : Prop := c.next event = .ok c'

/-- A new connection, which has made an offer or waits for one. -/
def start (shouldTrickle offers : Bool) : WebRtcConnection :=
  if offers then (create shouldTrickle).createOffer else create shouldTrickle

/-- The media of the transport that a candidate is for. -/
def mediaFor (bundle : Bool) (cand : CandidateInfo) : MediaType :=
  if bundle then .video else cand.mediaType

/-- The candidate has been passed to its transport and has reached the agent. -/
def Delivered (c : WebRtcConnection) (bundle : Bool) (cand : CandidateInfo) : Prop :=
  ∃ t, c.transport (mediaFor bundle cand) = some t ∧ cand ∈ t.passed ∧ cand.toNice ∈ t.agent

/-- What is in `remoteSdp_` will be passed when the video transport has gathered. -/
def Pending (c : WebRtcConnection) : Prop :=
  c.bundle = true ∧ c.remoteSdp.hasVideo = true
    ∧ ∃ t, c.videoTransport = some t ∧ t.state ≠ .gathered

/-- The block that passes what is in a description passes the candidate to its transport. -/
def Carries (sdp : RemoteSdp) (bundle : Bool) (cand : CandidateInfo) : Prop :=
  if bundle then sdp.hasVideo = true
  else (cand.mediaType = .video ∧ sdp.hasVideo = true)
    ∨ (cand.mediaType = .audio ∧ sdp.hasAudio = true)

/-- The video transport is there, or will be made for the description, and has not gathered yet. -/
def WillGather (c : WebRtcConnection) (sdp : RemoteSdp) : Prop :=
  match c.videoTransport with
  | none => sdp.profile = .savpf ∧ sdp.isFingerprint = true
  | some t => t.state ≠ .gathered

/-- A candidate of a description is with its agent, or is passed at once, or waits for the end of the
gathering; one that comes on its own comes when there is a video transport, and before the
description, or at a time when it can be passed. -/
def HandOver (c : WebRtcConnection) : Event → Prop
  | .setRemoteSdp text =>
      let sdp := (c.remoteSdp.initWithSdp text).2
      ∀ cand ∈ sdp.candidateInfos, cand.Usable →
        c.Delivered sdp.isBundle cand
          ∨ (WebRTCEvent.connGathered.toNat ≤ c.globalState.toNat ∧ Carries sdp sdp.isBundle cand)
          ∨ (sdp.isBundle = true ∧ sdp.hasVideo = true ∧ c.WillGather sdp)
  | .addRemoteCandidate mid mLineIndex text =>
      let theType := c.candidateType mid mLineIndex
      ∀ cand ∈ (text theType).candidates, cand.Usable →
        c.videoTransport ≠ none ∧
          (c.remoteSet = false ∨ c.Pending
            ∨ ((RemoteSdp.withCredentials (c.remoteSdp.getUsername theType)).initWithSdp
                (text theType)).1 = true ∧ (c.bundle = true ∨ cand.mediaType = theType))
  | .transportGathered _ => True

/-- Nothing that has been passed is lost, and the rest stays as it is. -/
structure Grows (c c' : WebRtcConnection) : Prop where
  bundle : c'.bundle = c.bundle
  trickle : c'.trickleEnabled = c.trickleEnabled
  globalState : c'.globalState = c.globalState
  remoteSdp : c'.remoteSdp = c.remoteSdp
  remoteSet : c'.remoteSet = c.remoteSet
  transports : ∀ media t, c.transport media = some t → ∃ t', c'.transport media = some t'
    ∧ t'.mediaType = t.mediaType ∧ t'.state = t.state ∧ t.passed ⊆ t'.passed ∧ t.agent ⊆ t'.agent
  origin : ∀ media t', c'.transport media = some t' → ∃ t, c.transport media = some t
    ∧ t'.mediaType = t.mediaType

theorem Grows.refl (c : WebRtcConnection) : Grows c c :=
  ⟨rfl, rfl, rfl, rfl, rfl,
    fun _ t h => ⟨t, h, rfl, rfl, List.Subset.refl _, List.Subset.refl _⟩, fun _ t h => ⟨t, h, rfl⟩⟩

theorem Grows.trans {c c' c'' : WebRtcConnection} (h : Grows c c') (h' : Grows c' c'') :
    Grows c c'' := by
  refine ⟨h'.bundle.trans h.bundle, h'.trickle.trans h.trickle, h'.globalState.trans h.globalState,
    h'.remoteSdp.trans h.remoteSdp, h'.remoteSet.trans h.remoteSet, ?_, ?_⟩
  · intro media t ht
    obtain ⟨t', ht', hmedia, hstate, hpassed, hagent⟩ := h.transports media t ht
    obtain ⟨t'', ht'', hmedia', hstate', hpassed', hagent'⟩ := h'.transports media t' ht'
    exact ⟨t'', ht'', hmedia'.trans hmedia, hstate'.trans hstate,
      List.Subset.trans hpassed hpassed', List.Subset.trans hagent hagent'⟩
  · intro media t'' ht''
    obtain ⟨t', ht', hmedia'⟩ := h'.origin media t'' ht''
    obtain ⟨t, ht, hmedia⟩ := h.origin media t' ht'
    exact ⟨t, ht, hmedia'.trans hmedia⟩

theorem Delivered.of_transports {c c' : WebRtcConnection} {bundle : Bool} {cand : CandidateInfo}
    (hdelivered : c.Delivered bundle cand)
    (h : ∀ media t, c.transport media = some t → ∃ t', c'.transport media = some t'
      ∧ t.passed ⊆ t'.passed ∧ t.agent ⊆ t'.agent) : c'.Delivered bundle cand := by
  obtain ⟨t, ht, hpassed, hagent⟩ := hdelivered
  obtain ⟨t', ht', hle, hle'⟩ := h _ t ht
  exact ⟨t', ht', hle hpassed, hle' hagent⟩

theorem Delivered.of_grows {c c' : WebRtcConnection} {bundle : Bool} {cand : CandidateInfo}
    (hdelivered : c.Delivered bundle cand) (h : Grows c c') : c'.Delivered bundle cand := by
  refine hdelivered.of_transports fun media t ht => ?_
  obtain ⟨t', ht', -, -, hle, hle'⟩ := h.transports media t ht
  exact ⟨t', ht', hle, hle'⟩

theorem transport_setTransport {c : WebRtcConnection} {media : MediaType} (hmedia : media ≠ .other)
    (t : Transport) (asked : MediaType) :
    (c.setTransport media t).transport asked = if asked = media then some t else c.transport asked := by
  cases media with
  | other => exact absurd rfl hmedia
  | video | audio => cases asked <;> rfl

theorem ne_other_of_transport {c : WebRtcConnection} {media : MediaType} {t : Transport}
    (ht : c.transport media = some t) : media ≠ .other := by
  rintro rfl
  cases ht

/-- Each transport is that of its media. -/
def Sorted (c : WebRtcConnection) : Prop :=
  ∀ media t, c.transport media = some t → t.mediaType = media

theorem Sorted.of_grows {c c' : WebRtcConnection} (hsorted : c.Sorted) (h : Grows c c') :
    c'.Sorted := by
  intro media t' ht'
  obtain ⟨t, ht, heq⟩ := h.origin media t' ht'
  exact heq.trans (hsorted media t ht)

theorem pass_spec {c c' : WebRtcConnection} (hsorted : c.Sorted) {media : MediaType}
    {candidates : List CandidateInfo} (hcall : c.pass media candidates = .ok c') :
    Grows c c' ∧ ∀ cand ∈ candidates, cand.Usable → mediaFor c.bundle cand = media →
      c'.Delivered c.bundle cand := by
  unfold pass at hcall
  cases ht : c.transport media with
  | none =>
      rw [ht] at hcall
      cases hcall
  | some t =>
      rw [ht] at hcall
      cases hcall
      have hne := ne_other_of_transport ht
      constructor
      · constructor
        case transports =>
          intro asked old hold
          rw [transport_setTransport hne]
          by_cases heq : asked = media
          · subst heq
            rw [ht] at hold
            cases hold
            exact ⟨_, if_pos rfl, rfl, rfl, List.subset_append_left _ _, List.subset_append_left _ _⟩
          · exact ⟨old, by rw [if_neg heq, hold], rfl, rfl, List.Subset.refl _, List.Subset.refl _⟩
        case origin =>
          intro asked new hnew
          rw [transport_setTransport hne] at hnew
          split at hnew
          · next heq =>
            cases hnew
            exact ⟨t, heq ▸ ht, rfl⟩
          · exact ⟨new, hnew, rfl⟩
        all_goals cases media <;> rfl
      · intro cand hmem husable hfor
        refine ⟨_, by rw [hfor, transport_setTransport hne, if_pos rfl], ?_, ?_⟩
        · exact List.mem_append_right _ hmem
        · refine List.mem_append_right _ (List.mem_reverse.mpr (List.mem_map_of_mem ?_))
          rw [List.mem_filter]
          refine ⟨hmem, ?_⟩
          have hown := hsorted media t ht
          unfold mediaFor at hfor
          cases hbundle : c.bundle with
          | true => simp [husable]
          | false => simp_all

theorem passIf_keeps {c c' : WebRtcConnection} {condition : Bool} {media : MediaType}
    {candidates : List CandidateInfo} (hcall : c.passIf condition media candidates = .ok c') :
    c'.known = c.known ∧ c'.globalState = c.globalState := by
  unfold passIf pass at hcall
  split at hcall
  · split at hcall <;> cases hcall
    cases media <;> exact ⟨rfl, rfl⟩
  · cases hcall
    exact ⟨rfl, rfl⟩

theorem passRemoteSdp_keeps {c c' : WebRtcConnection} (hcall : c.passRemoteSdp = .ok c') :
    c'.known = c.known ∧ c'.globalState = c.globalState := by
  unfold passRemoteSdp at hcall
  split at hcall
  · cases hcall
    exact ⟨rfl, rfl⟩
  · obtain ⟨c₁, hfirst, hcall⟩ := exists_of_bind_ok hcall
    obtain ⟨hknown, hstate⟩ := passIf_keeps hfirst
    obtain ⟨hknown', hstate'⟩ := passIf_keeps hcall
    exact ⟨hknown'.trans hknown, hstate'.trans hstate⟩

theorem passIf_spec {c c' : WebRtcConnection} (hsorted : c.Sorted) {condition : Bool}
    {media : MediaType} {candidates : List CandidateInfo}
    (hcall : c.passIf condition media candidates = .ok c') :
    Grows c c' ∧ (condition = true → ∀ cand ∈ candidates, cand.Usable →
      mediaFor c.bundle cand = media → c'.Delivered c.bundle cand) := by
  cases condition with
  | true =>
      obtain ⟨hgrows, hpassed⟩ := pass_spec hsorted hcall
      exact ⟨hgrows, fun _ => hpassed⟩
  | false =>
      cases hcall
      exact ⟨.refl c, nofun⟩

theorem passRemoteSdp_spec {c c' : WebRtcConnection} (hsorted : c.Sorted)
    (hcall : c.passRemoteSdp = .ok c') :
    Grows c c' ∧ ∀ cand ∈ c.remoteSdp.candidateInfos, cand.Usable →
      Carries c.remoteSdp c.bundle cand → c'.Delivered c.bundle cand := by
  unfold passRemoteSdp at hcall
  split at hcall
  · next hnil =>
    cases hcall
    refine ⟨.refl c, fun cand hmem => ?_⟩
    rw [hnil] at hmem
    cases hmem
  obtain ⟨c₁, hfirst, hcall⟩ := exists_of_bind_ok hcall
  obtain ⟨hgrows, hvideo⟩ := passIf_spec hsorted hfirst
  obtain ⟨hgrows', haudio⟩ := passIf_spec (hsorted.of_grows hgrows) hcall
  rw [hgrows.bundle, hgrows.remoteSdp] at haudio
  refine ⟨hgrows.trans hgrows', fun cand hmem husable hcarries => ?_⟩
  unfold Carries at hcarries
  split at hcarries
  · next hbundle => exact (hvideo hcarries cand hmem husable (if_pos hbundle)).of_grows hgrows'
  · next hbundle =>
    obtain ⟨hmedia, hhas⟩ | ⟨hmedia, hhas⟩ := hcarries
    · exact (hvideo hhas cand hmem husable ((if_neg hbundle).trans hmedia)).of_grows hgrows'
    · exact haudio (by simp [hbundle, hhas]) cand hmem husable ((if_neg hbundle).trans hmedia)

theorem Pending.of_grows {c c' : WebRtcConnection} (hpending : c.Pending) (h : Grows c c') :
    c'.Pending := by
  obtain ⟨hbundle, hvideo, t, ht, hstate⟩ := hpending
  obtain ⟨t', ht', -, hstate', -, -⟩ := h.transports .video t ht
  exact ⟨h.bundle.trans hbundle, h.remoteSdp ▸ hvideo, t', ht', hstate' ▸ hstate⟩

/-- Every candidate that came is kept, and once the description is set it is with its agent or waits
for the end of the gathering. -/
structure Inv (c : WebRtcConnection) : Prop where
  sorted : c.Sorted
  working : c.globalState ≠ .connFailed
  stored : ∀ cand ∈ c.known, cand.Usable → cand ∈ c.remoteSdp.candidateInfos
  handed : c.remoteSet = true → ∀ cand ∈ c.remoteSdp.candidateInfos, cand.Usable →
    c.Delivered c.bundle cand ∨ c.Pending

theorem inv_start (shouldTrickle offers : Bool) : (start shouldTrickle offers).Inv := by
  cases offers with
  | false =>
      refine ⟨fun media t ht => ?_, nofun, nofun, nofun⟩
      cases media <;> cases ht
  | true =>
      refine ⟨fun media t ht => ?_, nofun, nofun, nofun⟩
      cases media <;> cases ht
      rfl

/-! ### A description is set -/

theorem candidateInfos_initWithSdp (info : RemoteSdp) (text : SdpText) :
    (info.initWithSdp text).2.candidateInfos = info.candidateInfos ++ text.candidates := by
  unfold RemoteSdp.initWithSdp
  dsimp only
  split
  · rfl
  · split
    · rfl
    · split <;> rfl

/-- The connection with the transports that the description needs. -/
structure Prepared (c : WebRtcConnection) (sdp : RemoteSdp) (c' : WebRtcConnection) : Prop where
  remoteSdp : c'.remoteSdp = sdp
  bundle : c'.bundle = sdp.isBundle
  globalState : c'.globalState = c.globalState
  transports : ∀ media t, c.transport media = some t → c'.transport media = some t
  origin : ∀ media t', c'.transport media = some t' →
    c.transport media = some t' ∨ t' = .create media
  video : sdp.hasVideo = true → c.WillGather sdp → ∃ t, c'.videoTransport = some t ∧ t.state ≠ .gathered

theorem prepared_createTransports (c : WebRtcConnection) (text : SdpText) :
    Prepared c (c.remoteSdp.initWithSdp text).2 (c.adoptSdp text).createTransports := by
  obtain ⟨sdp, hsdp⟩ : ∃ sdp, (c.remoteSdp.initWithSdp text).2 = sdp := ⟨_, rfl⟩
  unfold createTransports adoptSdp
  simp only [hsdp]
  by_cases hneeds : sdp.profile = .savpf ∧ sdp.isFingerprint = true
  · rw [if_pos hneeds]
    refine ⟨rfl, rfl, rfl, fun media t ht => ?_, fun media t' ht' => ?_, fun hvideo hwill => ?_⟩
    · cases media with
      | video =>
          rw [transport, show c.videoTransport = some t from ht]
          exact ite_self (some t)
      | audio =>
          rw [transport, show c.audioTransport = some t from ht]
          exact ite_self (some t)
      | other => cases ht
    · cases media with
      | video =>
          simp only [transport] at ht'
          split at ht'
          · cases ht : c.videoTransport <;> rw [ht] at ht' <;> cases ht'
            exacts [.inr rfl, .inl ht]
          · exact .inl ht'
      | audio =>
          simp only [transport] at ht'
          split at ht'
          · cases ht : c.audioTransport <;> rw [ht] at ht' <;> cases ht'
            exacts [.inr rfl, .inl ht]
          · exact .inl ht'
      | other => cases ht'
    · unfold WillGather at hwill
      simp only [hvideo, Bool.true_or, if_true]
      cases ht : c.videoTransport with
      | none => exact ⟨_, rfl, nofun⟩
      | some t =>
          rw [ht] at hwill
          exact ⟨t, rfl, hwill⟩
  · rw [if_neg hneeds]
    refine ⟨rfl, rfl, rfl, fun media t ht => ?_, fun media t' ht' => ?_, fun hvideo hwill => ?_⟩
    · cases media <;> exact ht
    · cases media <;> exact .inl ht'
    · unfold WillGather at hwill
      cases ht : c.videoTransport with
      | none =>
          rw [ht] at hwill
          exact absurd hwill hneeds
      | some t =>
          rw [ht] at hwill
          exact ⟨t, rfl, hwill⟩

theorem Inv.setRemoteSdp {c c' : WebRtcConnection} (h : c.Inv) {text : SdpText}
    (hguard : c.HandOver (.setRemoteSdp text)) (hstep : c.setRemoteSdp text = .ok c') : c'.Inv := by
  have hprepared := c.prepared_createTransports text
  have hknown : ((c.adoptSdp text).createTransports).known = c.known ++ text.candidates := by
    unfold createTransports adoptSdp
    split <;> rfl
  have hinfos := candidateInfos_initWithSdp c.remoteSdp text
  simp only [WebRtcConnection.HandOver] at hguard
  unfold WebRtcConnection.setRemoteSdp at hstep
  generalize (c.adoptSdp text).createTransports = c₁ at hprepared hknown hstep
  generalize (c.remoteSdp.initWithSdp text).2 = sdp at hprepared hinfos hguard
  have hsorted : c₁.Sorted := by
    intro media t' ht'
    obtain ht | rfl := hprepared.origin media t' ht'
    · exact h.sorted media t' ht
    · rfl
  have hpass : Grows c₁ c' ∧ c'.known = c₁.known ∧ (WebRTCEvent.connGathered.toNat ≤ c.globalState.toNat →
      ∀ cand ∈ sdp.candidateInfos, cand.Usable → Carries sdp sdp.isBundle cand →
        c'.Delivered sdp.isBundle cand) := by
    dsimp only at hstep
    rw [hprepared.globalState] at hstep
    split at hstep
    · have hspec := passRemoteSdp_spec hsorted hstep
      rw [hprepared.remoteSdp, hprepared.bundle] at hspec
      exact ⟨hspec.1, (passRemoteSdp_keeps hstep).1, fun _ => hspec.2⟩
    · next hearly =>
      cases hstep
      exact ⟨.refl _, rfl, fun hlate => absurd hlate hearly⟩
  obtain ⟨hgrows, hsame, hpassed⟩ := hpass
  refine ⟨hsorted.of_grows hgrows, ?_, fun cand hmem husable => ?_, fun _ cand hmem husable => ?_⟩
  · rw [hgrows.globalState, hprepared.globalState]
    exact h.working
  · rw [hgrows.remoteSdp, hprepared.remoteSdp, hinfos, List.mem_append]
    rw [hsame, hknown, List.mem_append] at hmem
    exact hmem.imp_left fun hold => h.stored cand hold husable
  · rw [hgrows.remoteSdp, hprepared.remoteSdp] at hmem
    rw [hgrows.bundle, hprepared.bundle]
    obtain hold | ⟨hlate, hcarries⟩ | ⟨hbundle, hvideo, hwill⟩ := hguard cand hmem husable
    · refine .inl (Delivered.of_grows (hold.of_transports fun media t ht => ?_) hgrows)
      exact ⟨t, hprepared.transports media t ht, List.Subset.refl _, List.Subset.refl _⟩
    · exact .inl (hpassed hlate cand hmem husable hcarries)
    · refine .inr (Pending.of_grows ⟨hprepared.bundle.trans hbundle, ?_, ?_⟩ hgrows)
      · rw [hprepared.remoteSdp]
        exact hvideo
      · exact hprepared.video hvideo hwill

/-! ### A candidate comes on its own -/

/-- The media whose transport `addRemoteCandidate` takes. -/
theorem mediaFor_eq {c : WebRtcConnection} {mid : AString} {mLineIndex : Int32}
    {cand : CandidateInfo}
    (hcand : c.bundle = true ∨ cand.mediaType = c.candidateType mid mLineIndex) :
    mediaFor c.bundle cand
      = if c.candidateType mid mLineIndex = .video ∨ c.bundle = true then .video else .audio := by
  unfold mediaFor
  cases hbundle : c.bundle with
  | true => simp
  | false =>
      rw [hbundle] at hcand
      have hmedia := hcand.resolve_left nofun
      unfold candidateType at hmedia ⊢
      split at hmedia <;> simp_all

/-- The mark of the last candidate. -/
theorem grows_lastCandidate {c : WebRtcConnection} {t : Transport} (hvideo : c.videoTransport = some t)
    (mLineIndex : Int32) (known : List CandidateInfo) :
    Grows c { c with
      known := known
      videoTransport :=
        some (if mLineIndex = -1 then { t with receivedLastCandidate := true } else t) } := by
  have hsame : ∃ t', (if mLineIndex = -1 then { t with receivedLastCandidate := true } else t) = t'
      ∧ t'.mediaType = t.mediaType ∧ t'.state = t.state ∧ t'.passed = t.passed
      ∧ t'.agent = t.agent := by
    refine ⟨_, rfl, ?_⟩
    split <;> exact ⟨rfl, rfl, rfl, rfl⟩
  obtain ⟨t', heq, hmedia, hstate, hpassed, hagent⟩ := hsame
  rw [heq]
  refine ⟨rfl, rfl, rfl, rfl, rfl, fun media old hold => ?_, fun media new hnew => ?_⟩
  · cases media with
    | video =>
        obtain rfl : t = old := Option.some.inj (hvideo.symm.trans hold)
        exact ⟨t', rfl, hmedia, hstate, hpassed ▸ List.Subset.refl _, hagent ▸ List.Subset.refl _⟩
    | audio => exact ⟨old, hold, rfl, rfl, List.Subset.refl _, List.Subset.refl _⟩
    | other => cases hold
  · cases media with
    | video =>
        cases hnew
        exact ⟨t, hvideo, hmedia⟩
    | audio => exact ⟨new, hnew, rfl⟩
    | other => cases hnew

/-- The candidates join those of the description. -/
def keep (c : WebRtcConnection) (candidates : List CandidateInfo) : WebRtcConnection :=
  { c with remoteSdp :=
    { c.remoteSdp with candidateInfos := c.remoteSdp.candidateInfos ++ candidates } }

@[simp]
theorem bundle_keep (c : WebRtcConnection) (candidates : List CandidateInfo) :
    (c.keep candidates).bundle = c.bundle := rfl

theorem Delivered.keep {c : WebRtcConnection} {bundle : Bool} {cand : CandidateInfo}
    (h : c.Delivered bundle cand) (candidates : List CandidateInfo) :
    (c.keep candidates).Delivered bundle cand := h

theorem Pending.keep {c : WebRtcConnection} (h : c.Pending) (candidates : List CandidateInfo) :
    (c.keep candidates).Pending := h

theorem addRemoteCandidate_cases {c c' : WebRtcConnection} {mid : AString} {mLineIndex : Int32}
    {text : MediaType → SdpText} {theType : MediaType}
    (htype : c.candidateType mid mLineIndex = theType)
    (hstep : c.addRemoteCandidate mid mLineIndex text = .ok c') :
    (c.videoTransport = none ∧ c' = { c with known := c.known ++ (text theType).candidates })
      ∨ ∃ c₁ c₂, Grows c c₁ ∧ c₁.known = c.known ++ (text theType).candidates
        ∧ c₁.passIf ((RemoteSdp.withCredentials (c.remoteSdp.getUsername theType)).initWithSdp
            (text theType)).1 (if theType = .video ∨ c.bundle = true then .video else .audio)
            (text theType).candidates = .ok c₂
        ∧ c' = c₂.keep (text theType).candidates := by
  unfold WebRtcConnection.addRemoteCandidate at hstep
  simp only [htype] at hstep
  have hinfos := candidateInfos_initWithSdp
    (RemoteSdp.withCredentials (c.remoteSdp.getUsername theType)) (text theType)
  split at hstep
  · next hvideo =>
    cases hstep
    exact .inl ⟨hvideo, rfl⟩
  · next t hvideo =>
    obtain ⟨c₂, hpass, hstep⟩ := exists_of_bind_ok hstep
    rw [hinfos] at hpass hstep
    split at hstep
    · cases hstep
    · cases hstep
      exact .inr ⟨_, c₂, grows_lastCandidate hvideo mLineIndex _, rfl, hpass, rfl⟩

theorem Inv.addRemoteCandidate {c c' : WebRtcConnection} (h : c.Inv) {mid : AString}
    {mLineIndex : Int32} {text : MediaType → SdpText}
    (hguard : c.HandOver (.addRemoteCandidate mid mLineIndex text))
    (hstep : c.addRemoteCandidate mid mLineIndex text = .ok c') : c'.Inv := by
  simp only [WebRtcConnection.HandOver] at hguard
  obtain ⟨hvideo, rfl⟩ | ⟨c₁, c₂, hmark, hknown, hpass, rfl⟩ := addRemoteCandidate_cases rfl hstep
  · refine ⟨h.sorted, h.working, fun cand hmem husable => ?_, h.handed⟩
    rcases List.mem_append.mp hmem with hold | hnew
    · exact h.stored cand hold husable
    · exact absurd hvideo (hguard cand hnew husable).1
  · obtain ⟨hgrows, hpassed⟩ := passIf_spec (h.sorted.of_grows hmark) hpass
    have hall := hmark.trans hgrows
    have hsorted : c₂.Sorted := h.sorted.of_grows hall
    refine ⟨hsorted, ?_, fun cand hmem husable => ?_, fun hset cand hmem husable => ?_⟩
    · rw [keep, hall.globalState]
      exact h.working
    · have hmem : cand ∈ c₂.known := hmem
      rw [(passIf_keeps hpass).1, hknown, List.mem_append] at hmem
      rw [keep, hall.remoteSdp, List.mem_append]
      exact hmem.imp_left fun hold => h.stored cand hold husable
    · have hset : c.remoteSet = true := hall.remoteSet ▸ hset
      rw [keep, hall.remoteSdp, List.mem_append] at hmem
      rw [bundle_keep, hall.bundle]
      rcases hmem with hold | hnew
      · exact (h.handed hset cand hold husable).imp (fun hdone => (hdone.of_grows hall).keep _)
          fun hwaits => (hwaits.of_grows hall).keep _
      · obtain ⟨-, hunset | hwaits | ⟨hok, hcand⟩⟩ := hguard cand hnew husable
        · rw [hset] at hunset
          cases hunset
        · exact .inr ((hwaits.of_grows hall).keep _)
        · refine .inl (Delivered.keep ?_ _)
          rw [← hmark.bundle]
          refine hpassed hok cand hnew husable ?_
          rw [hmark.bundle]
          exact mediaFor_eq hcand

/-! ### A transport has gathered -/

/-- Only the state of the transport changes. -/
theorem setTransport_gathered {c : WebRtcConnection} (hsorted : c.Sorted) {media : MediaType}
    {t : Transport} (ht : c.transport media = some t) {c₀ : WebRtcConnection}
    (hset : c.setTransport media { t with state := .gathered } = c₀) :
    (c₀.bundle = c.bundle ∧ c₀.remoteSdp = c.remoteSdp ∧ c₀.globalState = c.globalState
        ∧ c₀.remoteSet = c.remoteSet ∧ c₀.known = c.known)
      ∧ c₀.Sorted ∧ ∀ cand, c.Delivered c.bundle cand → c₀.Delivered c.bundle cand := by
  have hne := ne_other_of_transport ht
  have hget := fun asked => transport_setTransport (c := c) hne { t with state := .gathered } asked
  rw [hset] at hget
  refine ⟨?_, fun asked new hnew => ?_, fun cand hold => hold.of_transports fun asked old hold => ?_⟩
  · subst hset
    cases media <;> exact ⟨rfl, rfl, rfl, rfl, rfl⟩
  · rw [hget] at hnew
    split at hnew
    · next heq =>
      cases hnew
      exact (hsorted media t ht).trans heq.symm
    · exact hsorted asked new hnew
  · rw [hget]
    by_cases heq : asked = media
    · rw [if_pos heq]
      obtain rfl : t = old := Option.some.inj (ht.symm.trans (heq ▸ hold))
      exact ⟨_, rfl, List.Subset.refl _, List.Subset.refl _⟩
    · rw [if_neg heq]
      exact ⟨old, hold, List.Subset.refl _, List.Subset.refl _⟩

/-- The end of the gathering passes on what was waiting for it. -/
theorem updateState_gathered {c c' : WebRtcConnection} (hsorted : c.Sorted)
    (hworking : c.globalState ≠ .connFailed) {media : MediaType} {t : Transport}
    (ht : c.transport media = some t) (hcall : c.updateState .gathered = .ok c') :
    ∃ c₁, Grows c c₁ ∧ c₁.known = c.known
      ∧ (c' = c₁ ∨ c' = { c₁ with globalState := .connGathered })
      ∧ (c.bundle = true → ∀ cand ∈ c.remoteSdp.candidateInfos, cand.Usable →
        c.remoteSdp.hasVideo = true → c₁.Delivered c.bundle cand) := by
  have hsome : ¬ (c.videoTransport = none ∧ c.audioTransport = none) := by
    rintro ⟨hvideo, haudio⟩
    cases media with
    | video => cases hvideo.symm.trans ht
    | audio => cases haudio.symm.trans ht
    | other => cases ht
  unfold updateState at hcall
  rw [if_neg hsome, if_neg hworking] at hcall
  dsimp only at hcall
  by_cases hbundle : c.bundle = true
  · rw [if_pos hbundle] at hcall
    obtain ⟨c₁, hpass, hcall⟩ := exists_of_bind_ok hcall
    obtain ⟨hgrows, hpassed⟩ := passRemoteSdp_spec hsorted hpass
    refine ⟨c₁, hgrows, (passRemoteSdp_keeps hpass).1, ?_, fun _ cand hmem husable hvideo => ?_⟩
    · cases hcall
      split
      · exact .inl rfl
      · exact .inr rfl
    · exact hpassed cand hmem husable (by rw [Carries, if_pos hbundle]; exact hvideo)
  · rw [if_neg hbundle] at hcall
    refine ⟨c, .refl c, rfl, ?_, fun htrue => absurd htrue hbundle⟩
    split at hcall <;> cases hcall
    · exact .inr rfl
    · exact .inl rfl

theorem Inv.transportGathered {c c' : WebRtcConnection} (h : c.Inv) {media : MediaType}
    (hstep : c.transportGathered media = .ok c') : c'.Inv := by
  unfold WebRtcConnection.transportGathered at hstep
  cases ht : c.transport media with
  | none =>
      rw [ht] at hstep
      cases hstep
      exact h
  | some t =>
      rw [ht] at hstep
      dsimp only at hstep
      split at hstep
      · cases hstep
        exact h
      obtain ⟨c₀, hset⟩ : ∃ c₀, c.setTransport media { t with state := .gathered } = c₀ := ⟨_, rfl⟩
      obtain ⟨⟨hbundle, hsdp, hglobal, hremote, hknown⟩, hsorted, hstay⟩ :=
        setTransport_gathered h.sorted ht hset
      have ht₀ : c₀.transport media = some { t with state := .gathered } := by
        rw [← hset, transport_setTransport (ne_other_of_transport ht), if_pos rfl]
      rw [hset] at hstep
      obtain ⟨c₁, hgrows, hsame, hc', hpassed⟩ :=
        updateState_gathered hsorted (hglobal ▸ h.working) ht₀ hstep
      rw [hbundle, hsdp] at hpassed
      have hinv : c₁.Inv := by
        refine ⟨hsorted.of_grows hgrows, ?_, fun cand hmem husable => ?_, fun hset cand hmem husable => ?_⟩
        · rw [hgrows.globalState, hglobal]
          exact h.working
        · rw [hsame, hknown] at hmem
          rw [hgrows.remoteSdp, hsdp]
          exact h.stored cand hmem husable
        · rw [hgrows.remoteSdp, hsdp] at hmem
          rw [hgrows.remoteSet, hremote] at hset
          rw [hgrows.bundle, hbundle]
          obtain hold | ⟨hbundled, hvideo, -⟩ := h.handed hset cand hmem husable
          · exact .inl ((hstay cand hold).of_grows hgrows)
          · exact .inl (hpassed hbundled cand hmem husable hvideo)
      obtain rfl | rfl := hc'
      · exact hinv
      · exact ⟨hinv.sorted, nofun, hinv.stored, hinv.handed⟩

theorem Inv.step {c c' : WebRtcConnection} {event : Event} (h : c.Inv)
    (hstep : Guarded HandOver Step c event c') : c'.Inv := by
  obtain ⟨hguard, hstep⟩ := hstep
  cases event with
  | setRemoteSdp text => exact h.setRemoteSdp hguard hstep
  | addRemoteCandidate mid mLineIndex text => exact h.addRemoteCandidate hguard hstep
  | transportGathered media => exact h.transportGathered hstep

/-- **Every remote candidate reaches its agent.** In every run in which the candidates come when they
can be handed over, once the description is set and every transport has gathered, each usable
candidate has been passed to its transport and has reached the agent. -/
theorem every_candidate_reached (shouldTrickle offers : Bool) (events : List Event)
    (c : WebRtcConnection)
    (hrun : Run (Guarded HandOver Step) (start shouldTrickle offers) events c)
    (hset : c.remoteSet = true)
    (hgathered : ∀ media t, c.transport media = some t → t.state = .gathered) :
    ∀ cand ∈ c.known, cand.Usable → c.Delivered c.bundle cand := by
  have hinv : c.Inv := hrun.invariant (inv_start shouldTrickle offers) Inv.step
  intro cand hmem husable
  refine (hinv.handed hset cand (hinv.stored cand hmem husable) husable).resolve_right ?_
  rintro ⟨-, -, t, ht, hstate⟩
  exact hstate (hgathered .video t ht)

def hostCandidate : CandidateInfo where
  mediaType := .video
  componentId := 1
  priority := 2130706432
  hostType := .host
  hostAddress := ascii "10.0.0.2"
  hostPort := 50000
  rAddress := []
  rPort := 0

/-- The description of a peer that sends video. -/
def videoSdp (isBundle : Bool) : SdpText where
  savpf := true
  isBundle := isBundle
  isFingerprint := true
  hasVideo := true
  hasAudio := false
  videoSdpMLine := some 0
  iceVideoUsername := some (ascii "u")
  iceAudioUsername := none
  candidates := [hostCandidate]

theorem every_candidate_reached_bundled :
    ∃ c, Run (Guarded HandOver Step) (start false false)
        [.setRemoteSdp (videoSdp true), .transportGathered .video] c
      ∧ hostCandidate ∈ c.known ∧ c.Delivered c.bundle hostCandidate := by
  have hrun : ∃ c, Run (Guarded HandOver Step) (start false false)
      [.setRemoteSdp (videoSdp true), .transportGathered .video] c
        ∧ c.remoteSet = true ∧ hostCandidate ∈ c.known
        ∧ (∀ media t, c.transport media = some t → t.state = .gathered) := by
    refine ⟨_, .cons ⟨?_, rfl⟩ (.cons ⟨trivial, rfl⟩ .nil), rfl, by decide, ?_⟩
    · exact fun cand _ _ => .inr (.inr ⟨rfl, rfl, rfl, rfl⟩)
    · intro media t ht
      cases media <;> cases ht
      rfl
  obtain ⟨c, hrun, hset, hmem, hgathered⟩ := hrun
  refine ⟨c, hrun, hmem, ?_⟩
  exact every_candidate_reached false false _ c hrun hset hgathered hostCandidate hmem (by decide)

/-- The media of the description are not bundled, and the candidate is never passed. -/
theorem candidate_not_passed :
    ¬ ∀ (shouldTrickle offers : Bool) (events : List Event) (c : WebRtcConnection),
      Run Step (start shouldTrickle offers) events c → c.remoteSet = true →
      (∀ media t, c.transport media = some t → t.state = .gathered) →
      ∀ cand ∈ c.known, cand.Usable → c.Delivered c.bundle cand := by
  intro hclaim
  have hdelivered := hclaim false false [.setRemoteSdp (videoSdp false), .transportGathered .video] _
    (.cons rfl (.cons rfl .nil)) rfl
    (fun media t ht => by
      cases media <;> cases ht
      rfl)
    hostCandidate (by decide) (by decide)
  obtain ⟨t, ht, hpassed, -⟩ := hdelivered
  cases ht
  cases hpassed

end WebRtcConnection

end Licode.Media
