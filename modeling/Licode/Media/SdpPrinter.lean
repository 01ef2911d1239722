import Mathlib.Data.Nat.Digits.Defs
import Licode.Checked
import Licode.Lib.ByteLoop
import Licode.Media.SdpInfo

/-!
# Writing session descriptions

`SdpInfo::getSdp` and the text of a candidate. The description is a list of lines, each of which is
ended with a newline.
-/

namespace Licode.Media.Sdp

/-- A number as `<<` writes it. -/
def decimal (n : Nat) : AString :=
  if n = 0 then ascii "0" else (Nat.digits 10 n).reverse.map fun digit => 48 + UInt8.ofNat digit

/-- An `int` as `<<` writes it. -/
def decimalInt (n : Int32) : AString :=
  if n.toInt < 0 then ascii "-" ++ decimal n.toInt.natAbs else decimal n.toInt.natAbs

def alphanum : AString := ascii "0123456789ABCDEFGHIJKLMNOPQRSTUVWXYZabcdefghijklmnopqrstuvwxyz"

/-- `gen_random(msidtemp, 10)`, with the numbers that `rand` returns. -/
def genRandom (rand : Nat → Nat) : AString :=
  (List.range 10).map fun i => alphanum.getD (rand i % alphanum.length) 0

/-- What `for (uint8_t i = 0; i < v.size(); i++)` writes. -/
def printEach {α β : Type} (v : List α) (print : α → List β) : Checked (List β) :=
  ended (ByteLoop.forEach v (fun sdp a => sdp ++ print a) [])

theorem ended_over {α σ : Type} (v : List α) (body : σ → α → σ) (s : σ) :
    ended (ByteLoop.forEach v body s) = if v.length ≤ 255 then .ok (v.foldl body s) else .error .diverged := by
  rw [ByteLoop.forEach_eq]
  split_ifs <;> rfl

theorem printEach_eq {α β : Type} (v : List α) (print : α → List β) :
    printEach v print = if v.length ≤ 255 then .ok (v.flatMap print) else .error .diverged := by
  rw [printEach, ended_over, List.flatMap_eq_foldl]

def hostTypeWord : HostType → AString
  | .host => ascii "host"
  | .srflx => ascii "srflx"
  | .prflx => ascii "prflx"
  | .relay => ascii "relay"

def stringifyCandidate (candidate : CandidateInfo) : AString :=
  ascii "a=candidate:" ++ candidate.foundation ++ ascii " " ++ decimal candidate.componentId.toNat
    ++ ascii " " ++ candidate.netProtocol ++ ascii " " ++ decimal candidate.priority.toNat
    ++ ascii " " ++ candidate.hostAddress ++ ascii " " ++ decimalInt candidate.hostPort
    ++ ascii " typ " ++ hostTypeWord candidate.hostType
    ++ (if candidate.hostType = .srflx ∨ candidate.hostType = .relay then
      ascii " raddr " ++ candidate.rAddress ++ ascii " rport " ++ decimalInt candidate.rPort else [])
    ++ ascii " generation 0"

namespace SdpInfo

/-- A line that stands there under a condition. -/
def printIf (condition : Bool) (line : AString) : List AString := if condition then [line] else []

def printGroup (info : SdpInfo) (msidtemp : AString) : Checked (List AString) :=
  if info.isBundle then do
    let tags ← printEach info.bundleTags fun tag => ascii " " ++ tag.id
    return [ascii "a=group:BUNDLE" ++ tags, ascii "a=msid-semantic: WMS " ++ msidtemp]
  else .ok []

def printProfile : Profile → AString
  | .savpf => ascii " UDP/TLS/RTP/SAVPF "
  | .avpf => ascii " RTP/AVPF "

def payloadsOf (info : SdpInfo) (mediaType : MediaType) : List RtpMap :=
  info.payloadVector.filter (·.mediaType = mediaType)

/-- The payload types of an m-line, where the number of codecs decides which of them is the last. -/
def printPayloadTypes (payloads : List RtpMap) (codecs : Int32) : AString :=
  payloads.zipIdx.flatMap fun (rtp, i) =>
    decimal rtp.payloadType.toNat ++ if ((i + 1 : Nat) : Int) < codecs.toInt then ascii " " else []

def printDirection : Option StreamDirection → List AString
  | some .sendonly => [ascii "a=sendonly"]
  | some .sendrecv => [ascii "a=sendrecv"]
  | some .recvonly => [ascii "a=recvonly"]
  | none => []

def printExtMaps (info : SdpInfo) (mediaType : MediaType) : Checked (List AString) :=
  printEach info.extMapVector fun ext => printIf (ext.mediaType = mediaType)
    (ascii "a=extmap:" ++ decimal ext.value.toNat ++ ascii " " ++ ext.uri)

def printMids (info : SdpInfo) (mediaType : MediaType) : Checked (List AString) :=
  printEach info.bundleTags fun tag => printIf (tag.mediaType = mediaType) (ascii "a=mid:" ++ tag.id)

def printCrypto (info : SdpInfo) (mediaType : MediaType) : List AString :=
  (info.cryptoVector.filter (·.mediaType = mediaType)).map fun crypto =>
    ascii "a=crypto:" ++ decimalInt crypto.tag ++ ascii " " ++ crypto.cipherSuite ++ ascii " "
      ++ ascii "inline:" ++ crypto.keyParams

def printRtpmap (rtp : RtpMap) : AString :=
  ascii "a=rtpmap:" ++ decimalInt rtp.payloadType.toInt32 ++ ascii " " ++ rtp.encodingName ++ ascii "/"
    ++ decimal rtp.clockRate.toNat

def printFmtp (rtp : RtpMap) (parameter : AString × AString) : AString :=
  ascii "a=fmtp:" ++ decimalInt rtp.payloadType.toInt32 ++ ascii " "
    ++ (if parameter.1 = ascii "none" then [] else parameter.1 ++ ascii "=") ++ parameter.2

def printFeedback (rtp : RtpMap) (feedback : AString) : AString :=
  ascii "a=rtcp-fb:" ++ decimalInt rtp.payloadType.toInt32 ++ ascii " " ++ feedback

/-- The channels are written, and no feedback. -/
def printAudioPayload (rtp : RtpMap) : List AString :=
  (if rtp.channels > 1 then printRtpmap rtp ++ ascii "/" ++ decimal rtp.channels.toNat else printRtpmap rtp)
    :: rtp.formatParameters.entries.map (printFmtp rtp)

/-- The feedback is written, and no channels. -/
def printVideoPayload (rtp : RtpMap) : List AString :=
  printRtpmap rtp :: rtp.feedbackTypes.map (printFeedback rtp) ++ rtp.formatParameters.entries.map (printFmtp rtp)

def printSsrc (ssrc : UInt32) (msidtemp track : AString) : List AString :=
  let start := ascii "a=ssrc:" ++ decimal ssrc.toNat
  [start ++ ascii " cname:o/i14u9pJrxRKAsu",
    start ++ ascii " msid:" ++ msidtemp ++ ascii " " ++ track,
    start ++ ascii " mslabel:" ++ msidtemp,
    start ++ ascii " label:" ++ msidtemp ++ track]

/-- A source that is not known gets a number while it is written. -/
def withSsrcs (info : SdpInfo) : SdpInfo :=
  { info with
    audioSsrc := if info.hasAudio ∧ info.audioSsrc = 0 then 44444 else info.audioSsrc
    videoSsrc := if info.hasVideo ∧ info.videoSsrc = 0 then 55543 else info.videoSsrc }

/-- The part of `getSdp` for audio. -/
def printAudio (info : SdpInfo) (msidtemp : AString) : Checked (List AString) := do
  let extMaps ← info.printExtMaps .audio
  let mids ← info.printMids .audio
  let named := info.iceAudioUsername ≠ []
  return [ascii "m=audio 1" ++ printProfile info.profile
        ++ printPayloadTypes (info.payloadsOf .audio) info.audioCodecs,
      ascii "c=IN IP4 0.0.0.0"]
    ++ printIf info.isRtcpMux (ascii "a=rtcp:1 IN IP4 0.0.0.0")
    ++ (info.candidateVector.filter fun c => c.mediaType = .audio || info.isBundle).map stringifyCandidate
    ++ [ascii "a=ice-ufrag:" ++ (if named then info.iceAudioUsername else info.iceVideoUsername),
      ascii "a=ice-pwd:" ++ (if named then info.iceAudioPassword else info.iceVideoPassword)]
    ++ printIf info.isFingerprint (ascii "a=fingerprint:sha-256 " ++ info.fingerprint)
    ++ printDirection info.audioDirection
    ++ extMaps
    ++ mids
    ++ printIf info.isRtcpMux (ascii "a=rtcp-mux")
    ++ info.printCrypto .audio
    ++ (info.payloadsOf .audio).flatMap printAudioPayload
    ++ [ascii "a=maxptime:60"]
    ++ printSsrc info.withSsrcs.audioSsrc msidtemp (ascii "a0")

/-- The part of `getSdp` for video. -/
def printVideo (info : SdpInfo) (msidtemp : AString) : Checked (List AString) := do
  let extMaps ← info.printExtMaps .video
  let mids ← info.printMids .video
  return [ascii "m=video 1" ++ printProfile info.profile
        ++ printPayloadTypes (info.payloadsOf .video) info.videoCodecs,
      ascii "c=IN IP4 0.0.0.0"]
    ++ printIf info.isRtcpMux (ascii "a=rtcp:1 IN IP4 0.0.0.0")
    ++ (info.candidateVector.filter (·.mediaType = .video)).map stringifyCandidate
    ++ [ascii "a=ice-ufrag:" ++ info.iceVideoUsername, ascii "a=ice-pwd:" ++ info.iceVideoPassword]
    ++ extMaps
    ++ printIf info.isFingerprint (ascii "a=fingerprint:sha-256 " ++ info.fingerprint)
    ++ printDirection info.videoDirection
    ++ mids
    ++ printIf info.isRtcpMux (ascii "a=rtcp-mux")
    ++ info.printCrypto .video
    ++ (info.payloadsOf .video).flatMap printVideoPayload
    ++ printSsrc info.withSsrcs.videoSsrc msidtemp (ascii "v0")
    ++ (if info.videoRtxSsrc ≠ 0 then printSsrc info.videoRtxSsrc msidtemp (ascii "v0") else [])

/-- A part that stands there only if there is its media. -/
def printMedia (hasMedia : Bool) (part : Checked (List AString)) : Checked (List AString) :=
  if hasMedia then part else .ok []

/-- All lines of the description. -/
def printLines (info : SdpInfo) (msidtemp : AString) : Checked (List AString) := do
  let group ← info.printGroup msidtemp
  let audio ← printMedia info.hasAudio (info.printAudio msidtemp)
  let video ← printMedia info.hasVideo (info.printVideo msidtemp)
  return [ascii "v=0", ascii "o=- 0 0 IN IP4 127.0.0.1", ascii "s=LicodeMCU", ascii "t=0 0"]
    ++ group ++ audio ++ video

/-- `SdpInfo::getSdp`, with what `gen_random` has filled in. -/
def getSdp (info : SdpInfo) (msidtemp : AString) : Checked (AString × SdpInfo) := do
  let lines ← info.printLines msidtemp
  return (lines.flatMap (· ++ ascii "\n"), info.withSsrcs)

/-- The loop at the end of `addRemoteCandidate`: the candidates of `tempSdp` are added to `remoteSdp_`. -/
def copyCandidates (remoteSdp tempSdp : SdpInfo) : Checked SdpInfo :=
  ended (ByteLoop.forEach tempSdp.candidateVector addCandidate remoteSdp)

end SdpInfo

end Licode.Media.Sdp
