import Licode.Media.StringUtil
import Licode.Server.ProtocolImpl

/-!
# DTLS handshakes and the fingerprint of the remote SDP

The remote SDP names the SHA-256 digest of the certificate with which the peer will come
(`a=fingerprint`). When a DTLS handshake completes, `DtlsSocketContext::handshakeCompleted` computes
the digest of the certificate that did come, and hands the SRTP keys to the transport. What it checks
the digest against is that same digest, and it does not look at the result: the fingerprint of the SDP
goes into `SdpInfo` and into nothing else.

What OpenSSL reports of a session is `Ssl`; `srtp_create` is a parameter.
-/

namespace Licode.Media

/-- The fingerprint in a remote SDP. -/
structure SdpInfo where
  isFingerprint : Bool
  fingerprint : AString
  deriving DecidableEq, Repr

namespace SdpInfo

def create : SdpInfo := ⟨false, []⟩

/-- `parts[1]`. -/
def second (parts : List AString) : Checked AString :=
  match parts with
  | _ :: part :: _ => .ok part
  | _ => .error .outOfBounds

/-- What `processSdp` makes of a line that has an `a=fingerprint` in it. -/
def processFingerprint (info : SdpInfo) (line : AString) : Checked SdpInfo :=
  if ascii "a=fingerprint" <:+: line then do
    let parts := splitOneOf line (ascii ":") 1
    let part ← second parts
    let parts := splitOneOf part (ascii " ") 0
    let fingerprint ← second parts
    return { info with isFingerprint := true, fingerprint := fingerprint }
  else .ok info

/-- `processSdp`, as far as the fingerprint is concerned. -/
def processSdp (info : SdpInfo) (sdp : AString) : Checked SdpInfo :=
  (getlines sdp).foldlM processFingerprint info

/-- A line `a=fingerprint:hash value`. -/
theorem processFingerprint_line (info : SdpInfo) {hash value : AString} (hhash : (32 : UInt8) ∉ hash)
    (hvalue : (32 : UInt8) ∉ value) (hne : value ≠ []) :
    info.processFingerprint (ascii "a=fingerprint:" ++ hash ++ ascii " " ++ value)
      = .ok ⟨true, value⟩ := by
  have hinfix : ascii "a=fingerprint" <:+: ascii "a=fingerprint:" ++ hash ++ ascii " " ++ value :=
    ⟨[], ascii ":" ++ hash ++ ascii " " ++ value, by simp [ascii]⟩
  have hfirst : splitOneOf (ascii "a=fingerprint:" ++ hash ++ ascii " " ++ value) (ascii ":") 1
      = [ascii "a=fingerprint", hash ++ 32 :: value] := by
    have hsplit : ascii "a=fingerprint:" ++ hash ++ ascii " " ++ value
        = ascii "a=fingerprint" ++ 58 :: (hash ++ 32 :: value) := by simp [ascii]
    rw [splitOneOf, hsplit, splitLoop_append (.inr Nat.zero_lt_one) []
      (not_mem_of_all (by decide)) (by decide), splitLoop_rest [] (.inl (by decide))]
    simp
  have hsecond : splitOneOf (hash ++ 32 :: value) (ascii " ") 0 = [hash, value] := by
    have hspace : ∀ {text : AString}, (32 : UInt8) ∉ text → ∀ c ∈ text, c ∉ ascii " " := by
      intro text htext c hc hspace
      obtain rfl : c = 32 := List.mem_singleton.mp hspace
      exact htext hc
    rw [splitOneOf, splitLoop_append (.inl rfl) [] (hspace hhash) (by decide),
      splitLoop_rest [] (.inr (hspace hvalue))]
    simp [hne]
  rw [processFingerprint, if_pos hinfix, hfirst]
  simp only [second, Checked.ok_bind, hsecond]
  rfl

/-- The one line with a fingerprint decides. -/
theorem processSdp_line {sdp : AString} {before after : List AString} {hash value : AString}
    (hlines : getlines sdp
      = before ++ (ascii "a=fingerprint:" ++ hash ++ ascii " " ++ value) :: after)
    (hbefore : ∀ line ∈ before, ¬ ascii "a=fingerprint" <:+: line)
    (hafter : ∀ line ∈ after, ¬ ascii "a=fingerprint" <:+: line) (hhash : (32 : UInt8) ∉ hash)
    (hvalue : (32 : UInt8) ∉ value) (hne : value ≠ []) :
    create.processSdp sdp = .ok ⟨true, value⟩ := by
  have hskip : ∀ (lines : List AString) (info : SdpInfo),
      (∀ line ∈ lines, ¬ ascii "a=fingerprint" <:+: line) →
      lines.foldlM processFingerprint info = .ok info := by
    intro lines info hnone
    induction lines with
    | nil => rfl
    | cons line lines ih =>
        rw [List.foldlM_cons, processFingerprint, if_neg (hnone line List.mem_cons_self),
          Checked.ok_bind]
        exact ih fun other hmem => hnone other (List.mem_cons_of_mem line hmem)
  rw [processSdp, hlines, List.foldlM_append, hskip before create hbefore, Checked.ok_bind,
    List.foldlM_cons, processFingerprint_line create hhash hvalue hne, Checked.ok_bind,
    hskip after _ hafter]

end SdpInfo

/-- What OpenSSL says about a session whose handshake is done: the digest of the peer's certificate,
the exported keying material and the SRTP profile. -/
structure Ssl where
  peerDigest : Option (Vector UInt8 32)
  keyingMaterial : Option (Vector UInt8 60)
  srtpProfile : Option AString
  deriving DecidableEq

inductive SslError where
  | none
  | wantRead
  | other
  deriving DecidableEq

def hexDigit (n : Nat) : UInt8 := UInt8.ofNat (if n < 10 then 48 + n else 55 + n)

/-- `%02X`. -/
def hexByte (b : UInt8) : AString := [hexDigit (b.toNat / 16), hexDigit (b.toNat % 16)]

/-- The bytes of a digest in hexadecimal, with colons between them. -/
def hexBytes : List UInt8 → AString
  | [] => []
  | [b] => hexByte b
  | b :: md => hexByte b ++ ascii ":" ++ hexBytes md

/-- `DtlsSocket::computeFingerprint`. -/
def computeFingerprint (md : Vector UInt8 32) : AString := hexBytes md.toList

theorem hexDigit_not_blank : ∀ n < 16, hexDigit n ≠ 32 ∧ hexDigit n ≠ 10 := by decide

theorem hexByte_not_blank (b : UInt8) : ∀ c ∈ hexByte b, c ≠ 32 ∧ c ≠ 10 := by
  have hlt : b.toNat < 256 := b.toNat_lt
  intro c hc
  obtain rfl | hc := List.mem_cons.mp hc
  · exact hexDigit_not_blank _ (by omega)
  · obtain rfl := List.mem_singleton.mp hc
    exact hexDigit_not_blank _ (by omega)

/-- A fingerprint has no spaces and no line ends. -/
theorem hexBytes_not_blank (md : List UInt8) : ∀ c ∈ hexBytes md, c ≠ 32 ∧ c ≠ 10 := by
  fun_induction hexBytes md with
  | case1 => simp
  | case2 b => exact hexByte_not_blank b
  | case3 b md hmd ih =>
      intro c hc
      obtain hc | hc := List.mem_append.mp hc
      · obtain hc | hc := List.mem_append.mp hc
        · exact hexByte_not_blank b c hc
        · obtain rfl : c = 58 := List.mem_singleton.mp hc
          decide
      · exact ih c hc

theorem hexBytes_ne_nil {md : List UInt8} (hmd : md ≠ []) : hexBytes md ≠ [] := by
  match md with
  | [] => exact absurd rfl hmd
  | [b] => simp [hexBytes, hexByte]
  | b :: c :: md => simp [hexBytes, hexByte]

/-- `g_base64_encode`. -/
def base64 : List UInt8 → AString
  | [] => []
  | [a] =>
      let n := a.toNat * 65536
      [letter (n / 262144), letter (n / 4096 % 64), 61, 61]
  | [a, b] =>
      let n := a.toNat * 65536 + b.toNat * 256
      [letter (n / 262144), letter (n / 4096 % 64), letter (n / 64 % 64), 61]
  | a :: b :: c :: rest =>
      let n := a.toNat * 65536 + b.toNat * 256 + c.toNat
      letter (n / 262144) :: letter (n / 4096 % 64) :: letter (n / 64 % 64) :: letter (n % 64) ::
        base64 rest
where
  letter (n : Nat) : UInt8 :=
    UInt8.ofNat (if n < 26 then 65 + n else if n < 52 then 71 + n else if n < 62 then n - 4
      else if n = 62 then 43 else 47)

namespace Ssl

def getRemoteFingerprint (ssl : Ssl) : Option AString := ssl.peerDigest.map computeFingerprint

/-- `DtlsSocket::checkFingerprint`. -/
def checkFingerprint (ssl : Ssl) (fingerprint : AString) (len : Nat) : Bool :=
  match ssl.getRemoteFingerprint with
  | none => false
  | some fprint => fprint.take len = fingerprint.take len

/-- The client's and the server's key, each with its salt, as `getSrtpSessionKeys` cuts them out of
the keying material; nothing where there is none. -/
def getSrtpSessionKeys (ssl : Ssl) : List UInt8 × List UInt8 :=
  match ssl.keyingMaterial with
  | none => ([], [])
  | some material =>
      let bytes := material.toList
      (bytes.take 16 ++ (bytes.drop 32).take 14, (bytes.drop 16).take 16 ++ (bytes.drop 46).take 14)

end Ssl

/-- The arguments of `onHandshakeCompleted`. -/
structure HandshakeCompleted where
  clientKey : AString
  serverKey : AString
  srtpProfile : AString
  deriving DecidableEq

/-- `DtlsSocketContext::handshakeCompleted`, with what it hands to its receiver. -/
def handshakeCompleted (ssl : Ssl) : Checked (Option HandshakeCompleted) :=
  match ssl.getRemoteFingerprint with
  | none => .ok none
  | some fprint =>
      -- logged and not used
      let _check := ssl.checkFingerprint fprint fprint.length
      let (cKey, sKey) := ssl.getSrtpSessionKeys
      -- `srtp_profile->name`
      match ssl.srtpProfile with
      | none => .error .nullPointer
      | some name => .ok (some ⟨base64 cKey, base64 sKey, name⟩)

inductive TransportState where
  | initial
  | started
  | gathered
  | ready
  | finished
  | failed
  deriving DecidableEq, Repr

inductive Component where
  | rtp
  | rtcp
  deriving DecidableEq, Repr

structure SrtpChannel where
  sendingKey : AString
  receivingKey : AString
  active : Bool
  deriving DecidableEq

/-- The two sockets are told apart by whether their handshake is completed; `dtlsRtcp` is missing
where RTCP is multiplexed. -/
structure DtlsTransport where
  isServer : Bool
  dtlsRtp : Bool
  dtlsRtcp : Option Bool
  srtp : Option SrtpChannel
  srtcp : Option SrtpChannel
  readyRtp : Bool
  readyRtcp : Bool
  running : Bool
  state : TransportState
  /-- The calls of the listener's `updateState`. -/
  updates : List TransportState
  deriving DecidableEq

namespace DtlsTransport

def create (isServer rtcpMux : Bool) : DtlsTransport where
  isServer := isServer
  dtlsRtp := false
  dtlsRtcp := if rtcpMux then none else some false
  srtp := none
  srtcp := none
  readyRtp := false
  readyRtcp := false
  running := true
  state := .initial
  updates := []

def updateTransportState (t : DtlsTransport) (state : TransportState) : DtlsTransport :=
  if state = t.state then t else { t with state := state, updates := t.updates ++ [state] }

variable (srtpCreate : AString → Bool)

/-- `SrtpChannel::setRtpParams`. -/
def setRtpParams (sendingKey receivingKey : AString) : Bool × SrtpChannel :=
  let active := srtpCreate sendingKey && srtpCreate receivingKey
  (active, ⟨sendingKey, receivingKey, active⟩)

/-- `DtlsTransport::onHandshakeCompleted`. -/
def onHandshakeCompleted (t : DtlsTransport) (ctx : Component) (call : HandshakeCompleted) :
    DtlsTransport :=
  let (clientKey, serverKey) :=
    if t.isServer then (call.serverKey, call.clientKey) else (call.clientKey, call.serverKey)
  let t :=
    if ctx = .rtp then
      let (ok, srtp) := setRtpParams srtpCreate clientKey serverKey
      let t := { t with srtp := some srtp }
      let t := if ok then { t with readyRtp := true } else t.updateTransportState .failed
      if t.dtlsRtcp = none then { t with readyRtcp := true } else t
    else t
  let t :=
    if ctx = .rtcp ∧ t.dtlsRtcp ≠ none then
      let (ok, srtcp) := setRtpParams srtpCreate clientKey serverKey
      let t := { t with srtcp := some srtcp }
      if ok then { t with readyRtcp := true } else t.updateTransportState .failed
    else t
  if t.readyRtp ∧ t.readyRtcp then t.updateTransportState .ready else t

def onHandshakeFailed (t : DtlsTransport) : DtlsTransport :=
  { t with running := false }.updateTransportState .failed

def isCompleted (t : DtlsTransport) : Component → Bool
  | .rtp => t.dtlsRtp
  | .rtcp => t.dtlsRtcp.getD false

def setCompleted (t : DtlsTransport) : Component → DtlsTransport
  | .rtp => { t with dtlsRtp := true }
  | .rtcp => { t with dtlsRtcp := t.dtlsRtcp.map fun _ => true }

/-- `DtlsSocket::doHandshakeIteration` on one of the sockets, with the calls of
`onHandshakeCompleted` that it makes. -/
def doHandshakeIteration (t : DtlsTransport) (ctx : Component) (sslerr : SslError) (ssl : Ssl) :
    Checked (DtlsTransport × List HandshakeCompleted) :=
  if t.isCompleted ctx then .ok (t, [])
  else
    match sslerr with
    | .none => do
        let t := t.setCompleted ctx
        match ← handshakeCompleted ssl with
        | none => return (t, [])
        | some call => return (t.onHandshakeCompleted srtpCreate ctx call, [call])
    | .wantRead => .ok (t, [])
    | .other => .ok (t.onHandshakeFailed, [])

/-- The digest is the one that the SDP names. -/
def Named (sdp : AString) (digest : AString) : Prop :=
  ∀ info, SdpInfo.create.processSdp sdp = .ok info → info.isFingerprint = true →
    digest = info.fingerprint

/-- A completed handshake hands over the keys, whoever the peer is. -/
theorem doHandshakeIteration_completed {t : DtlsTransport} {ctx : Component}
    (hctx : t.isCompleted ctx = false) {ssl : Ssl} {digest : Vector UInt8 32}
    (hpeer : ssl.peerDigest = some digest) {profile : AString} (hprofile : ssl.srtpProfile = some profile) :
    ∃ t' call, t.doHandshakeIteration srtpCreate ctx .none ssl = .ok (t', [call]) := by
  unfold doHandshakeIteration handshakeCompleted Ssl.getRemoteFingerprint
  rw [if_neg (by simp [hctx]), hpeer, hprofile]
  exact ⟨_, _, rfl⟩

/-- Keys are handed over and the transport becomes ready only for the peer of the SDP, exactly when
that peer is the one who comes or when there is no SRTP profile to go on with. -/
theorem handshake_authenticates_iff (sdp : AString) {t : DtlsTransport} {ctx : Component}
    (hctx : t.isCompleted ctx = false) {ssl : Ssl} {digest : Vector UInt8 32}
    (hpeer : ssl.peerDigest = some digest) :
    (∀ t' calls, t.doHandshakeIteration srtpCreate ctx .none ssl = .ok (t', calls) →
        (calls ≠ [] → Named sdp (computeFingerprint digest))
          ∧ (t.state ≠ .ready → t'.state = .ready → Named sdp (computeFingerprint digest)))
      ↔ Named sdp (computeFingerprint digest) ∨ ssl.srtpProfile = none := by
  constructor
  · intro hclaim
    cases hprofile : ssl.srtpProfile with
    | none => exact .inr rfl
    | some profile =>
        obtain ⟨t', call, hcall⟩ := doHandshakeIteration_completed srtpCreate hctx hpeer hprofile
        exact .inl ((hclaim t' [call] hcall).1 (List.cons_ne_nil _ _))
  · rintro (hnamed | hprofile) t' calls hcall
    · exact ⟨fun _ => hnamed, fun _ _ => hnamed⟩
    · unfold doHandshakeIteration handshakeCompleted Ssl.getRemoteFingerprint at hcall
      rw [if_neg (by simp [hctx]), hpeer, hprofile] at hcall
      cases hcall

/-- A video SDP whose peer has the certificate with digest `digest`. -/
def sdpOf (digest : Vector UInt8 32) : AString :=
  ascii "m=video 1 UDP/TLS/RTP/SAVPF 100\na=fingerprint:sha-256 " ++ computeFingerprint digest
    ++ ascii "\na=rtcp-mux\n"

theorem processSdp_sdpOf (digest : Vector UInt8 32) :
    SdpInfo.create.processSdp (sdpOf digest) = .ok ⟨true, computeFingerprint digest⟩ := by
  have hlines : getlines (sdpOf digest) = [ascii "m=video 1 UDP/TLS/RTP/SAVPF 100"]
      ++ (ascii "a=fingerprint:" ++ ascii "sha-256" ++ ascii " " ++ computeFingerprint digest)
        :: [ascii "a=rtcp-mux"] := by
    have hsplit : sdpOf digest = ascii "m=video 1 UDP/TLS/RTP/SAVPF 100" ++ 10 ::
        ((ascii "a=fingerprint:sha-256 " ++ computeFingerprint digest) ++ 10 ::
          (ascii "a=rtcp-mux" ++ 10 :: [])) := by
      simp [sdpOf, ascii]
    have hline : ∀ c ∈ ascii "a=fingerprint:sha-256 " ++ computeFingerprint digest,
        c ∉ ([10] : AString) := by
      intro c hc
      rw [List.mem_singleton]
      obtain hc | hc := List.mem_append.mp hc
      · have hascii : ∀ c ∈ ascii "a=fingerprint:sha-256 ", c ∉ ([10] : AString) :=
          not_mem_of_all (by decide)
        exact fun heq => hascii c hc (List.mem_singleton.mpr heq)
      · exact (hexBytes_not_blank _ c hc).2
    rw [getlines, splitOneOf, hsplit,
      splitLoop_append (.inl rfl) [] (not_mem_of_all (by decide)) (by decide),
      splitLoop_append (.inl rfl) [] hline (by decide),
      splitLoop_append (.inl rfl) [] (not_mem_of_all (by decide)) (by decide)]
    simp [splitLoop, ascii]
  refine SdpInfo.processSdp_line hlines (by decide) (by decide) (by decide) ?_ ?_
  · exact fun hmem => (hexBytes_not_blank _ _ hmem).1 rfl
  · refine hexBytes_ne_nil fun hnil => ?_
    have hlength : digest.toList.length = 32 := digest.length_toList
    rw [hnil] at hlength
    cases hlength

/-- The peer of the SDP comes. -/
theorem handshake_authenticates_peer :
    Named (sdpOf (Vector.replicate 32 7)) (computeFingerprint (Vector.replicate 32 7))
      ∧ ∀ t' calls, (create false true).doHandshakeIteration (fun _ => true) .rtp .none
          ⟨some (Vector.replicate 32 7), some (Vector.replicate 60 1),
            some (ascii "SRTP_AES128_CM_SHA1_80")⟩ = .ok (t', calls) →
        (calls ≠ [] →
            Named (sdpOf (Vector.replicate 32 7)) (computeFingerprint (Vector.replicate 32 7)))
          ∧ ((create false true).state ≠ .ready → t'.state = .ready →
            Named (sdpOf (Vector.replicate 32 7)) (computeFingerprint (Vector.replicate 32 7))) := by
  have hnamed : Named (sdpOf (Vector.replicate 32 7))
      (computeFingerprint (Vector.replicate 32 7)) := by
    intro info hsdp _
    rw [processSdp_sdpOf] at hsdp
    cases hsdp
    rfl
  refine ⟨hnamed, ?_⟩
  exact (handshake_authenticates_iff (fun _ => true) (sdpOf (Vector.replicate 32 7)) rfl rfl).mpr
    (.inl hnamed)

/-- Somebody else comes, with another certificate. -/
theorem handshake_accepts_impostor :
    ¬ ∀ (srtpCreate : AString → Bool) (sdp : AString) (t : DtlsTransport) (ctx : Component) (ssl : Ssl)
      (digest : Vector UInt8 32), t.isCompleted ctx = false → ssl.peerDigest = some digest →
      ∀ t' calls, t.doHandshakeIteration srtpCreate ctx .none ssl = .ok (t', calls) →
        (calls ≠ [] → Named sdp (computeFingerprint digest))
          ∧ (t.state ≠ .ready → t'.state = .ready → Named sdp (computeFingerprint digest)) := by
  intro hclaim
  have hkeys := (hclaim (fun _ => true) (sdpOf (Vector.replicate 32 7)) (create false true) .rtp
    ⟨some (Vector.replicate 32 8), some (Vector.replicate 60 1),
      some (ascii "SRTP_AES128_CM_SHA1_80")⟩ (Vector.replicate 32 8) rfl rfl _ _ rfl).1
    (List.cons_ne_nil _ _)
  have heq := hkeys _ (processSdp_sdpOf (Vector.replicate 32 7)) rfl
  have hhead : (computeFingerprint (Vector.replicate 32 8)).take 2
      = (computeFingerprint (Vector.replicate 32 7)).take 2 := congrArg (List.take 2) heq
  revert hhead
  decide

/-- With the impostor's keys the transport is ready. -/
example : ((create false true).doHandshakeIteration (fun _ => true) .rtp .none
    ⟨some (Vector.replicate 32 8), some (Vector.replicate 60 1),
      some (ascii "SRTP_AES128_CM_SHA1_80")⟩).toOption.map (fun result => result.1.state)
    = some .ready := by rfl

end DtlsTransport

end Licode.Media
