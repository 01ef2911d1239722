import Licode.Checked
import Licode.Lib.ByteLoop
import Licode.Media.SdpInfo
import Licode.Media.StringUtil

/-!
# Reading session descriptions

`SdpInfo::processSdp` looks in every line for each of its attributes, anywhere in the line, and one line
may hold several. Its branches stand here in the order of the source, each with the pieces it takes
from the line. A piece that is not there is a fault, and so is the loop over the bundle tags where it
does not come to its end. All other positions that `processSdp` and `splitOneOf` cut at have been
found in the text.
-/

namespace Licode.Media.Sdp

/-- `line.find(keyword) != std::string::npos`. -/
def has (keyword : String) (line : AString) : Bool := decide (ascii keyword <:+: line)

/-- `parts[i]`. -/
def piece (parts : List AString) (i : Nat) : Checked AString :=
  match parts[i]? with
  | some part => .ok part
  | none => .error .outOfBounds

theorem piece_of_getElem? {parts : List AString} {i : Nat} {part : AString} (h : parts[i]? = some part) :
    piece parts i = .ok part := by
  rw [piece, h]

theorem exists_piece {parts : List AString} {i : Nat} (h : i < parts.length) :
    ∃ part, parts[i]? = some part ∧ piece parts i = .ok part :=
  ⟨parts[i], List.getElem?_eq_getElem h, piece_of_getElem? (List.getElem?_eq_getElem h)⟩

theorem piece_of_length_le {parts : List AString} {i : Nat} (h : parts.length ≤ i) :
    piece parts i = .error .outOfBounds := by
  rw [piece, List.getElem?_eq_none h]

/-- A string that has come through `c_str()`. -/
def cString (text : AString) : AString := text.takeWhile (· ≠ 0)

/-- What `processSdp` keeps while it reads. -/
structure Parser where
  info : SdpInfo
  mlineNum : Int32
  mtype : MediaType
  tmpFeedbackVector : List AString

namespace Parser

def start (info : SdpInfo) (media : AString) : Parser where
  info := info
  mlineNum := -1
  mtype := if media = ascii "audio" then .audio else if media = ascii "video" then .video else .other
  tmpFeedbackVector := []

def processRtcpMux (p : Parser) (line : AString) : Parser :=
  if has "a=rtcp-mux" line then { p with info := { p.info with isRtcpMux := true } } else p

/-- The direction of audio, or else of video. -/
def setDirection (p : Parser) (direction : StreamDirection) : Parser :=
  if p.mtype = .audio then { p with info := { p.info with audioDirection := some direction } }
  else { p with info := { p.info with videoDirection := some direction } }

def processDirection (p : Parser) (line : AString) : Parser :=
  if has "a=recvonly" line then p.setDirection .recvonly
  else if has "a=sendonly" line then p.setDirection .sendonly
  else if has "a=sendrecv" line then p.setDirection .sendrecv
  else p

def processProfile (p : Parser) (line : AString) : Parser :=
  if has "SAVPF" line then { p with info := { p.info with profile := .savpf } } else p

def processFingerprint (p : Parser) (line : AString) : Checked Parser :=
  if has "a=fingerprint" line then do
    let value ← piece (splitOneOf line (ascii ":") 1) 1
    let fingerprint ← piece (splitOneOf value (ascii " ") 0) 1
    return { p with info := { p.info with fingerprint := fingerprint, isFingerprint := true } }
  else .ok p

/-- The tags that a line with a group adds. -/
def newTags (parts : List AString) : List BundleTag := (parts.drop 2).map fun id => ⟨id, .other⟩

def processGroup (p : Parser) (line : AString) : Checked Parser :=
  if has "a=group:" line then do
    let parts := splitOneOf line (ascii ":  \r\n") 10
    let semantics ← piece parts 1
    return { p with info := { p.info with
      isBundle := p.info.isBundle || semantics = ascii "BUNDLE"
      bundleTags := p.info.bundleTags ++ newTags parts } }
  else .ok p

def processVideo (p : Parser) (line : AString) : Parser :=
  if has "m=video" line then
    { p with
      info := { p.info with videoSdpMLine := p.mlineNum + 1, hasVideo := true }
      mlineNum := p.mlineNum + 1
      mtype := .video }
  else p

def processAudio (p : Parser) (line : AString) : Parser :=
  if has "m=audio" line then
    { p with
      info := { p.info with audioSdpMLine := p.mlineNum + 1, hasAudio := true }
      mlineNum := p.mlineNum + 1
      mtype := .audio }
  else p

/-- The type that a word stands for, a host where it stands for none. -/
def hostTypeOf (word : AString) : HostType :=
  if word = ascii "relay" then .relay
  else if word = ascii "prflx" then .prflx
  else if word = ascii "srflx" then .srflx
  else .host

/-- `processCandidate`, with the candidate that is added, if any. -/
def processCandidate (pieces : List AString) (mediaType : MediaType) : Checked (Option CandidateInfo) := do
  let foundation ← piece pieces 1
  let componentId ← piece pieces 2
  let netProtocol ← piece pieces 3
  -- libnice does not support tcp candidates, we ignore them
  if netProtocol ≠ ascii "UDP" ∧ netProtocol ≠ ascii "udp" then return none
  let priority ← piece pieces 4
  let hostAddress ← piece pieces 5
  let hostPort ← piece pieces 6
  let typ ← piece pieces 7
  if typ ≠ ascii "typ" then return none
  let word ← piece pieces 8
  let hostType := hostTypeOf word
  let candidate : CandidateInfo := {
    isBundle := false
    priority := strtoul priority
    componentId := strtoul componentId
    foundation := foundation
    hostAddress := hostAddress
    rAddress := []
    hostPort := (strtoul hostPort).toInt32
    rPort := 0
    netProtocol := netProtocol
    hostType := hostType
    transProtocol := []
    username := []
    password := []
    mediaType := mediaType }
  if hostType = .srflx ∨ hostType = .relay then
    let rAddress ← piece pieces 10
    let rPort ← piece pieces 12
    return some { candidate with rAddress := rAddress, rPort := (strtoul rPort).toInt32 }
  else return some candidate

def processCand (p : Parser) (line : AString) : Checked Parser :=
  if has "a=candidate:" line then do
    let candidate ← processCandidate (splitOneOf line (ascii " :") 0) p.mtype
    return { p with info := { p.info with
      candidateVector := p.info.candidateVector ++ candidate.toList } }
  else .ok p

def processCrypto (p : Parser) (line : AString) : Checked Parser :=
  if has "a=crypto:" line then do
    let cryptopiece := splitOneOf line (ascii " :") 0
    let cipherSuite ← piece cryptopiece 2
    let keyParams ← piece cryptopiece 4
    return { p with info := { p.info with
      cryptoVector := p.info.cryptoVector ++ [⟨0, cipherSuite, keyParams, p.mtype⟩] } }
  else .ok p

/-- What stands behind the first colon, without the carriage return. -/
def attributeValue (line : AString) : Checked AString := do
  let value ← piece (splitOneOf line (ascii ":") 1) 1
  piece (splitOneOf value (ascii "\r") 1) 0

/-- The value of an attribute is kept for the medium of the section. -/
def keepValue (keyword : String) (audio video : AString → SdpInfo → SdpInfo) (p : Parser) (line : AString) :
    Checked Parser :=
  if has keyword line then do
    let value ← attributeValue line
    if p.mtype = .audio then return { p with info := audio value p.info }
    else return { p with info := video value p.info }
  else .ok p

def processUser : Parser → AString → Checked Parser :=
  keepValue "a=ice-ufrag" (fun username info => { info with iceAudioUsername := username })
    fun username info => { info with iceVideoUsername := username }

def processPass : Parser → AString → Checked Parser :=
  keepValue "a=ice-pwd" (fun password info => { info with iceAudioPassword := password })
    fun password info => { info with iceVideoPassword := password }

/-- The loop over the bundle tags: the one at place `i` gets a media type if it has the name. -/
def nameTag (thisId : AString) (mtype : MediaType) (tags : List BundleTag) (i : UInt8) : List BundleTag :=
  tags.modify i.toNat fun tag => if tag.id = thisId then { tag with mediaType := mtype } else tag

def processMid (p : Parser) (line : AString) : Checked Parser :=
  if has "a=mid" line then
    match splitOneOf line (ascii ": \r\n") 4 with
    | _ :: thisId :: _ =>
        if p.info.isBundle then do
          let bundleTags ← ended
            (ByteLoop.run p.info.bundleTags.length (nameTag thisId p.mtype) p.info.bundleTags)
          return { p with info := { p.info with bundleTags := bundleTags } }
        else .ok p
    | _ => .ok p
  else .ok p

def processSsrc (p : Parser) (line : AString) : Checked Parser :=
  if has "a=ssrc" line then
    let parts := splitOneOf line (ascii " :") 2
    if p.mtype = .video ∧ p.info.videoSsrc = 0 then do
      let ssrc ← piece parts 1
      return { p with info := { p.info with videoSsrc := strtoul ssrc } }
    else if p.mtype = .audio ∧ p.info.audioSsrc = 0 then do
      let ssrc ← piece parts 1
      return { p with info := { p.info with audioSsrc := strtoul ssrc } }
    else .ok p
  else .ok p

def processSsrcGroup (p : Parser) (line : AString) : Parser :=
  if has "a=ssrc-group" line ∧ p.mtype = .video then
    match (splitOneOf line (ascii " :") 10)[3]? with
    | some ssrc => { p with info := { p.info with videoRtxSsrc := strtoul ssrc } }
    | none => p
  else p

/-- A codec that is known is counted and mapped; of several with one name the last decides. -/
def addRtpMap (p : Parser) (payloadType : UInt32) (codecname : AString) (clock : UInt32) : Parser :=
  let known := internalPayloads.filter fun rtp => rtp.encodingName = codecname ∧ rtp.clockRate = clock
  match known.getLast? with
  | none => p
  | some last =>
      { p with info := { p.info with
        outInPTMap := known.foldl (fun m rtp => mapSet payloadType.toInt32 rtp.payloadType.toInt32 m)
          p.info.outInPTMap
        inOutPTMap := known.foldl (fun m rtp => mapSet rtp.payloadType.toInt32 payloadType.toInt32 m)
          p.info.inOutPTMap
        videoCodecs := if p.mtype = .video then p.info.videoCodecs + 1 else p.info.videoCodecs
        audioCodecs := if p.mtype = .video then p.info.audioCodecs else p.info.audioCodecs + 1
        payloadVector := p.info.payloadVector
          ++ [⟨payloadType, codecname, clock, p.mtype, last.channels, [],
            ⟨[], FormatParameters.ordered_nil⟩⟩] } }

def processRtpmap (p : Parser) (line : AString) : Checked Parser :=
  if has "a=rtpmap:" line then do
    let parts := splitOneOf line (ascii " :/\n") 4
    let payloadType ← piece parts 1
    let codecname ← piece parts 2
    let clock ← piece parts 3
    return p.addRtpMap (strtoul payloadType) codecname (strtoul clock)
  else .ok p

/-- `text.substr(0, text.size() - 1)`. A length that would wrap around is a fault. -/
def withoutLast (text : AString) : Checked AString :=
  if text = [] then .error .outOfBounds else .ok text.dropLast

/-- The last character of the URI is taken to be a carriage return. -/
def processExtmap (p : Parser) (line : AString) : Checked Parser :=
  if has "a=extmap:" line then
    let parts := splitOneOf line (ascii " :=") 3
    if parts.length ≥ 3 then do
      let id ← piece parts 2
      let text ← piece parts 3
      let uri ← withoutLast text
      return { p with info := { p.info with
        extMapVector := p.info.extMapVector ++ [⟨strtoul id, uri, p.mtype⟩] } }
    else .ok p
  else .ok p

def processFeedback (p : Parser) (line : AString) : Parser :=
  if has "a=rtcp-fb:" line then { p with tmpFeedbackVector := p.tmpFeedbackVector ++ [line] } else p

/-- A format parameter of all payloads of a type. -/
def setFormatParameter (p : Parser) (payloadType : UInt32) (option value : AString) : Parser :=
  { p with info := { p.info with payloadVector := p.info.payloadVector.map fun rtp =>
    if rtp.payloadType = payloadType then
      { rtp with formatParameters := rtp.formatParameters.set option value }
    else rtp } }

def processFmtp (p : Parser) (line : AString) : Parser :=
  if has "a=fmtp:" line then
    match splitOneOf line (ascii " :=") 4 with
    | [_, _, payloadType, value] =>
        p.setFormatParameter (strtoul payloadType) (ascii "none") (cString value)
    | _ :: _ :: payloadType :: option :: value :: _ =>
        p.setFormatParameter (strtoul payloadType) (cString option) (cString value)
    | _ => p
  else p

def processBandwidth (p : Parser) (line : AString) : Parser :=
  if has "b=AS:" line ∧ p.mtype = .video then
    match (splitOneOf line (ascii ":") 2)[1]? with
    | some bandwidth => { p with info := { p.info with videoBandwidth := strtoul bandwidth } }
    | none => p
  else p

/-- The body of the loop of `processSdp`. -/
def processLine (p : Parser) (line : AString) : Checked Parser := do
  let p := ((p.processRtcpMux line).processDirection line).processProfile line
  let p ← p.processFingerprint line
  let p ← p.processGroup line
  let p := (p.processVideo line).processAudio line
  let p ← p.processCand line
  let p ← p.processCrypto line
  let p ← p.processUser line
  let p ← p.processPass line
  let p ← p.processMid line
  let p ← p.processSsrc line
  let p := p.processSsrcGroup line
  let p ← p.processRtpmap line
  let p ← p.processExtmap line
  return ((p.processFeedback line).processFmtp line).processBandwidth line

/-- A line with feedback, for all payloads of a type. -/
def addFeedback (payloadVector : List RtpMap) (line : AString) : Checked (List RtpMap) := do
  let parts := splitOneOf line (ascii " :") 2
  let payloadType ← piece parts 1
  let feedback ← piece parts 2
  return payloadVector.map fun rtp =>
    if rtp.payloadType = strtoul payloadType then
      { rtp with feedbackTypes := rtp.feedbackTypes ++ [feedback] }
    else rtp

/-- The credentials of one media are used for the other where it has none. -/
def shareCredentials (info : SdpInfo) : SdpInfo :=
  if info.iceVideoUsername = [] then
    { info with
      iceVideoUsername := info.iceAudioUsername
      iceVideoPassword := info.iceAudioPassword }
  else if info.iceAudioUsername = [] then
    { info with
      iceAudioUsername := info.iceVideoUsername
      iceAudioPassword := info.iceVideoPassword }
  else info

/-- The candidates get the credentials of their media. -/
def addCredentials (info : SdpInfo) : SdpInfo :=
  { info with candidateVector := info.candidateVector.map fun c =>
    if c.mediaType = .video then
      { c with
        isBundle := info.isBundle
        username := info.iceVideoUsername
        password := info.iceVideoPassword }
    else
      { c with
        isBundle := info.isBundle
        username := info.iceAudioUsername
        password := info.iceAudioPassword } }

/-- What `processSdp` does when it has read all lines. -/
def finish (p : Parser) : Checked (Bool × SdpInfo) :=
  if p.info.iceVideoUsername = [] ∧ p.info.iceAudioUsername = [] then .ok (false, p.info)
  else do
    let info := addCredentials (shareCredentials p.info)
    let payloadVector ← p.tmpFeedbackVector.foldlM addFeedback info.payloadVector
    return (true, { info with payloadVector := payloadVector })

end Parser

/-- `SdpInfo::processSdp`, which is `initWithSdp`. -/
def SdpInfo.processSdp (info : SdpInfo) (sdp media : AString) : Checked (Bool × SdpInfo) := do
  let p ← (getlines sdp).foldlM Parser.processLine (Parser.start info media)
  p.finish

end Licode.Media.Sdp
