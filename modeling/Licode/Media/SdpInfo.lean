import Licode.Media.WebRtcConnection

/-!
# Session descriptions

The data of `SdpInfo` and the functions that fill it without a text: the constructor, offers and
answers, credentials and candidates.

A member that a constructor leaves without a value (a direction, the other port of a host candidate)
is `none` where a function looks at it, and otherwise has some value that is not used.
-/

namespace Licode.Media.Sdp

inductive StreamDirection where
  | sendrecv
  | sendonly
  | recvonly
  deriving DecidableEq, Repr

structure CryptoInfo where
  tag : Int32
  cipherSuite : AString
  keyParams : AString
  mediaType : MediaType
  deriving DecidableEq

structure CandidateInfo where
  isBundle : Bool
  priority : UInt32
  componentId : UInt32
  foundation : AString
  hostAddress : AString
  rAddress : AString
  hostPort : Int32
  rPort : Int32
  netProtocol : AString
  hostType : HostType
  transProtocol : AString
  username : AString
  password : AString
  mediaType : MediaType
  deriving DecidableEq

structure BundleTag where
  id : AString
  mediaType : MediaType
  deriving DecidableEq

/-- `m[key] = value` for a `std::map`. -/
def mapSet {κ ν : Type} [DecidableEq κ] [LT κ] [DecidableLT κ] (key : κ) (value : ν) :
    List (κ × ν) → List (κ × ν)
  | [] => [(key, value)]
  | (k, v) :: rest =>
      if k = key then (key, value) :: rest
      else if key < k then (key, value) :: (k, v) :: rest
      else (k, v) :: mapSet key value rest

theorem eq_or_mem_of_mem_mapSet {ν : Type} {key : AString} {value : ν} {m : List (AString × ν)}
    {entry : AString × ν} (h : entry ∈ mapSet key value m) : entry = (key, value) ∨ entry ∈ m := by
  induction m with
  | nil => exact Or.inl (List.mem_singleton.mp h)
  | cons first rest ih =>
      rw [mapSet] at h
      split_ifs at h with heq hlt
      · exact (List.mem_cons.mp h).imp_right (List.mem_cons_of_mem first)
      · exact List.mem_cons.mp h
      · obtain rfl | hrest := List.mem_cons.mp h
        · exact Or.inr List.mem_cons_self
        · exact (ih hrest).imp_right (List.mem_cons_of_mem first)

theorem mapSet_ordered {ν : Type} {key : AString} {value : ν} {m : List (AString × ν)}
    (h : m.Pairwise fun a b => a.1 < b.1) : (mapSet key value m).Pairwise fun a b => a.1 < b.1 := by
  induction m with
  | nil => exact List.pairwise_singleton _ _
  | cons entry rest ih =>
      obtain ⟨k, v⟩ := entry
      obtain ⟨hfirst, hrest⟩ := List.pairwise_cons.mp h
      rw [mapSet]
      split_ifs with heq hlt
      · subst heq
        exact List.pairwise_cons.mpr ⟨hfirst, hrest⟩
      · refine List.pairwise_cons.mpr ⟨?_, h⟩
        rintro entry (_ | ⟨_, hentry⟩)
        · exact hlt
        · exact List.lt_trans hlt (hfirst entry hentry)
      · have hgt : k < key := (List.le_iff_lt_or_eq.mp (List.not_lt.mp hlt)).resolve_right heq
        refine List.pairwise_cons.mpr ⟨fun entry hentry => ?_, ih hrest⟩
        obtain rfl | hmem := eq_or_mem_of_mem_mapSet hentry
        · exact hgt
        · exact hfirst entry hmem

/-- A `std::map` from strings to strings, in the order of its keys. -/
structure FormatParameters where
  entries : List (AString × AString)
  ordered : entries.Pairwise fun a b => a.1 < b.1
  deriving DecidableEq

theorem FormatParameters.ordered_nil : List.Pairwise (fun a b : AString × AString => a.1 < b.1) [] := .nil

def FormatParameters.set (m : FormatParameters) (option value : AString) : FormatParameters :=
  ⟨mapSet option value m.entries, mapSet_ordered m.ordered⟩

structure RtpMap where
  payloadType : UInt32
  encodingName : AString
  clockRate : UInt32
  mediaType : MediaType
  channels : UInt32
  feedbackTypes : List AString
  formatParameters : FormatParameters
  deriving DecidableEq

structure ExtMap where
  value : UInt32
  uri : AString
  mediaType : MediaType
  deriving DecidableEq

/-- `internalPayloadVector_` is `internalPayloads` for every `SdpInfo`, and what it has beside is here. -/
structure SdpInfo where
  isBundle : Bool
  isRtcpMux : Bool
  isFingerprint : Bool
  hasAudio : Bool
  hasVideo : Bool
  profile : Profile
  audioSsrc : UInt32
  videoSsrc : UInt32
  videoRtxSsrc : UInt32
  videoCodecs : Int32
  audioCodecs : Int32
  videoSdpMLine : Int32
  audioSdpMLine : Int32
  videoBandwidth : UInt32
  videoDirection : Option StreamDirection
  audioDirection : Option StreamDirection
  fingerprint : AString
  inOutPTMap : List (Int32 × Int32)
  outInPTMap : List (Int32 × Int32)
  payloadVector : List RtpMap
  bundleTags : List BundleTag
  extMapVector : List ExtMap
  candidateVector : List CandidateInfo
  cryptoVector : List CryptoInfo
  iceVideoUsername : AString
  iceVideoPassword : AString
  iceAudioUsername : AString
  iceAudioPassword : AString
  deriving DecidableEq

/-- A codec that is known by its payload type, name, rate and media, with one channel. -/
def codec (payloadType : UInt32) (encodingName : String) (clockRate : UInt32) (mediaType : MediaType) :
    RtpMap :=
  ⟨payloadType, ascii encodingName, clockRate, mediaType, 1, [], ⟨[], FormatParameters.ordered_nil⟩⟩

def internalPayloads : List RtpMap :=
  [codec 100 "VP8" 90000 .video, codec 116 "red" 90000 .video, codec 117 "ulpfec" 90000 .video,
    codec 0 "PCMU" 8000 .audio, codec 126 "telephone-event" 8000 .audio]

/-- A loop that does not come to its end is a fault. -/
def ended {α : Type} : Option α → Checked α
  | some a => .ok a
  | none => .error .diverged

namespace SdpInfo

def create : SdpInfo where
  isBundle := false
  isRtcpMux := false
  isFingerprint := false
  hasAudio := false
  hasVideo := false
  profile := .savpf
  audioSsrc := 0
  videoSsrc := 0
  videoRtxSsrc := 0
  videoCodecs := 0
  audioCodecs := 0
  videoSdpMLine := -1
  audioSdpMLine := -1
  videoBandwidth := 0
  videoDirection := none
  audioDirection := none
  fingerprint := []
  inOutPTMap := []
  outInPTMap := []
  payloadVector := []
  bundleTags := []
  extMapVector := []
  candidateVector := []
  cryptoVector := []
  iceVideoUsername := []
  iceVideoPassword := []
  iceAudioUsername := []
  iceAudioPassword := []

def setCredentials (info : SdpInfo) (username password : AString) : MediaType → SdpInfo
  | .video => { info with iceVideoUsername := username, iceVideoPassword := password }
  | .audio => { info with iceAudioUsername := username, iceAudioPassword := password }
  | .other => { info with
      iceVideoUsername := username
      iceVideoPassword := password
      iceAudioUsername := username
      iceAudioPassword := password }

/-- `addCandidate`; the text of the candidate that it returns is `stringifyCandidate`. -/
def addCandidate (info : SdpInfo) (candidate : CandidateInfo) : SdpInfo :=
  { info with candidateVector := info.candidateVector ++ [candidate] }

/-- The number of codecs of some media. -/
def countCodecs (mediaType : MediaType) : Int32 :=
  .ofNat (internalPayloads.countP (·.mediaType = mediaType))

def createOfferSdp (info : SdpInfo) (videoEnabled audioEnabled : Bool) : SdpInfo :=
  { info with
    payloadVector := internalPayloads
    isBundle := true
    profile := .savpf
    isRtcpMux := true
    videoSdpMLine := if videoEnabled then 0 else info.videoSdpMLine
    audioSdpMLine := if audioEnabled then 0 else info.audioSdpMLine
    videoCodecs := info.videoCodecs + countCodecs .video
    audioCodecs := info.audioCodecs + countCodecs .audio
    hasVideo := videoEnabled
    hasAudio := audioEnabled
    videoDirection := some .sendrecv
    audioDirection := some .sendrecv }

/-- The direction of an answer. One that the offer does not have may be any of them; the switch takes
a value that is none of the three for both ways. -/
def answerDirection : Option StreamDirection → StreamDirection
  | some .sendonly => .recvonly
  | some .recvonly => .sendonly
  | some .sendrecv | none => .sendrecv

def setOfferSdp (info offerSdp : SdpInfo) : SdpInfo :=
  { info with
    videoCodecs := offerSdp.videoCodecs
    audioCodecs := offerSdp.audioCodecs
    payloadVector := offerSdp.payloadVector
    isBundle := offerSdp.isBundle
    profile := offerSdp.profile
    isRtcpMux := offerSdp.isRtcpMux
    videoSdpMLine := offerSdp.videoSdpMLine
    audioSdpMLine := offerSdp.audioSdpMLine
    inOutPTMap := offerSdp.inOutPTMap
    outInPTMap := offerSdp.outInPTMap
    hasVideo := offerSdp.hasVideo
    hasAudio := offerSdp.hasAudio
    bundleTags := offerSdp.bundleTags
    extMapVector := offerSdp.extMapVector
    videoDirection := some (answerDirection offerSdp.videoDirection)
    audioDirection := some (answerDirection offerSdp.audioDirection) }

end SdpInfo

end Licode.Media.Sdp
