import Licode.Lib.Outcome
import Licode.Media.Dtls
import Licode.Media.NiceConnection
import Licode.Media.RtpPacketQueue
import Licode.Media.VideoSequence

/-!
# The arrays that packets are copied into

On its way from libnice to other peers and to recorders a packet is copied with `memcpy`, from thread to thread,
into arrays of two sizes. Nobody compares. What the first copy takes fits into all that come after it, but
a datagram has up to 65535 bytes, and `NiceConnection::queueData` an array of 1500. The flight with which OpenSSL
answers a DTLS packet and what the FEC receiver recovers are new, and are copied in the same way.

libsrtp is a parameter. What OpenSSL answers, what the FEC receiver recovers and which sinks a packet is handed to
is told with each step.
-/

namespace Licode.Media

/-- `memcpy` to the start of an array. -/
def copyTo (size : Nat) (data : List UInt8) : Checked (List UInt8) :=
  if data.length ≤ size then .ok data else .error .outOfBounds

/-- `dataPacket::data`. -/
def dataPacketSize : Nat := 1500

/-- `Resender::data_`. -/
def resenderSize : Nat := 1500

/-- `protectBuf_` and `unprotectBuf_`. -/
def protectBufSize : Nat := 5000

/-! ### SRTP -/

/-- What libsrtp makes of a session and of a packet that it does not reject. -/
structure Libsrtp (σ : Type) where
  protect : σ → List UInt8 → Option (σ × List UInt8)
  unprotect : σ → List UInt8 → Option (σ × List UInt8)
  protectRtcp : σ → List UInt8 → Option (σ × List UInt8)
  unprotectRtcp : σ → List UInt8 → Option (σ × List UInt8)

/-- A packet grows by its tag and the index of SRTCP, and a protected one does not grow. -/
structure Libsrtp.Bounded {σ : Type} (lib : Libsrtp σ) : Prop where
  protect : ∀ s b s' b', lib.protect s b = some (s', b') → b'.length ≤ b.length + 14
  unprotect : ∀ s b s' b', lib.unprotect s b = some (s', b') → b'.length ≤ b.length
  protectRtcp : ∀ s b s' b', lib.protectRtcp s b = some (s', b') → b'.length ≤ b.length + 14
  unprotectRtcp : ∀ s b s' b', lib.unprotectRtcp s b = some (s', b') → b'.length ≤ b.length

/-- A `SrtpChannel` with its sessions. -/
structure SrtpSessions (σ : Type) where
  active : Bool
  sendSession : σ
  receiveSession : σ

namespace SrtpSessions

variable {σ : Type} (lib : Libsrtp σ)

/-- `protectRtp` or `protectRtcp`; only the first asks whether the channel is active. -/
def protect (c : SrtpSessions σ) (rtcp : Bool) (buffer : List UInt8) : Option (SrtpSessions σ × List UInt8) :=
  if rtcp then (lib.protectRtcp c.sendSession buffer).map fun r => ({ c with sendSession := r.1 }, r.2)
  else if c.active = false then some (c, buffer)
  else (lib.protect c.sendSession buffer).map fun r => ({ c with sendSession := r.1 }, r.2)

/-- `unprotectRtp` or `unprotectRtcp`. -/
def unprotect (c : SrtpSessions σ) (rtcp : Bool) (buffer : List UInt8) : Option (SrtpSessions σ × List UInt8) :=
  if rtcp then (lib.unprotectRtcp c.receiveSession buffer).map fun r => ({ c with receiveSession := r.1 }, r.2)
  else if c.active = false then some (c, buffer)
  else (lib.unprotect c.receiveSession buffer).map fun r => ({ c with receiveSession := r.1 }, r.2)

end SrtpSessions

/-! ### Transports -/

/-- A `DtlsSocketContext` and the `Resender` that belongs to it: `resendData` is the first `len_` bytes of `data_`. -/
structure DtlsContext where
  handshakeCompleted : Bool
  resendData : List UInt8

/-- `Resender::ScheduleResend`, as far as it keeps the packet. -/
def DtlsContext.scheduleResend (ctx : DtlsContext) (data : List UInt8) : Checked DtlsContext := do
  let data ← copyTo resenderSize data
  return { ctx with resendData := data }

/-- `DtlsSocket::doHandshakeIteration` where OpenSSL has `answer` to send. -/
def DtlsContext.doHandshakeIteration (ctx : DtlsContext) (answer : List UInt8) : Checked DtlsContext :=
  if ctx.handshakeCompleted then .ok ctx
  else if answer.length = 0 then .ok ctx
  else ctx.scheduleResend answer

/-- The members of a `DtlsTransport` and of its `NiceConnection` that packets meet. `dtlsRtcp` is missing, and libnice
has one component, where RTCP is multiplexed. `unprotectBuf` is what the listener is handed. -/
structure PacketTransport (σ : Type) where
  iceState : IceState
  niceQueue : List (Component × List UInt8)
  state : TransportState
  dtlsRtp : DtlsContext
  dtlsRtcp : Option DtlsContext
  srtp : Option (SrtpSessions σ)
  srtcp : Option (SrtpSessions σ)
  unprotectBuf : List UInt8

namespace PacketTransport

variable {σ : Type} (lib : Libsrtp σ)

def create (rtcpMux : Bool) : PacketTransport σ where
  iceState := .initial
  niceQueue := []
  state := .initial
  dtlsRtp := ⟨false, []⟩
  dtlsRtcp := if rtcpMux then none else some ⟨false, []⟩
  srtp := none
  srtcp := none
  unprotectBuf := []

/-- libnice calls back for the components of its stream. -/
def Attached (t : PacketTransport σ) (component : Component) : Prop := component = .rtcp → t.dtlsRtcp.isSome

instance (t : PacketTransport σ) (component : Component) : Decidable (t.Attached component) :=
  inferInstanceAs (Decidable (_ → _))

/-- `NiceConnection::queueData`. -/
def queueData (t : PacketTransport σ) (component : Component) (buf : List UInt8) : Checked (PacketTransport σ) :=
  if t.iceState = .ready ∧ t.niceQueue.length < 1000 then do
    let data ← copyTo dataPacketSize buf
    return { t with niceQueue := t.niceQueue ++ [(component, data)] }
  else .ok t

/-- `cb_nice_recv`. -/
def niceRecv (t : PacketTransport σ) (component : Component) (buf : List UInt8) : Checked (PacketTransport σ) :=
  if buf.length = 0 ∨ ¬ t.Attached component then .ok t else t.queueData component buf

/-- What `demuxPacket` takes for DTLS. -/
def isDtlsPacket (data : List UInt8) : Bool := 20 ≤ data.headD 0 && data.headD 0 ≤ 64

/-- The channel for RTCP where there is one, or the one for all. -/
def channel (t : PacketTransport σ) (rtcp : Bool) : Option (SrtpSessions σ) :=
  if t.dtlsRtcp.isSome ∧ rtcp = true then t.srtcp else t.srtp

def setChannel (t : PacketTransport σ) (rtcp : Bool) (sessions : SrtpSessions σ) : PacketTransport σ :=
  if t.dtlsRtcp.isSome ∧ rtcp = true then { t with srtcp := some sessions } else { t with srtp := some sessions }

/-- `DtlsSocketContext::read` of a packet to which OpenSSL has `answer` to send. -/
def readDtls (t : PacketTransport σ) (component : Component) (answer : List UInt8) : Checked (PacketTransport σ) :=
  match component with
  | .rtp => do
      let ctx ← t.dtlsRtp.doHandshakeIteration answer
      return { t with dtlsRtp := ctx }
  | .rtcp =>
      match t.dtlsRtcp with
      | none => .error .nullPointer
      | some ctx => do
          let ctx ← ctx.doHandshakeIteration answer
          return { t with dtlsRtcp := some ctx }

/-- `DtlsTransport::onNiceData`. -/
def onNiceData (t : PacketTransport σ) (component : Component) (data answer : List UInt8) :
    Checked (PacketTransport σ) :=
  if isDtlsPacket data then t.readDtls component answer
  else if t.state = .ready then do
    let buf ← copyTo protectBufSize data
    match t.channel (component = .rtcp) with
    | none => return t
    | some sessions =>
        match sessions.unprotect lib (isRtcp buf) buf with
        | none => return t
        | some (sessions, buf) =>
            let t := t.setChannel (component = .rtcp) sessions
            if buf.length = 0 then return t
            return { t with unprotectBuf := buf }
  else .ok t

/-- One turn of `getNiceDataLoop`. -/
def getNiceData (t : PacketTransport σ) (answer : List UInt8) : Checked (PacketTransport σ) :=
  match t.niceQueue with
  | [] => .ok t
  | (component, data) :: rest => { t with niceQueue := rest }.onNiceData lib component data answer

/-- `DtlsTransport::write`, with what goes out. `srtp_protect` works in `protectBuf_`. -/
def write (t : PacketTransport σ) (data : List UInt8) :
    Checked (PacketTransport σ × Option (Component × List UInt8)) :=
  if t.state = .ready then do
    let buf ← copyTo protectBufSize data
    let rtcp := isRtcp buf
    let comp := if rtcp = true ∧ t.dtlsRtcp.isSome then Component.rtcp else .rtp
    match t.channel rtcp with
    | none => return (t, if buf.length ≤ 10 ∨ t.iceState ≠ .ready then none else some (comp, buf))
    | some sessions =>
        if t.iceState ≠ .ready then return (t, none)
        match sessions.protect lib rtcp buf with
        | none => return (t, none)
        | some (sessions, buf) =>
            let buf ← copyTo protectBufSize buf
            let t := t.setChannel rtcp sessions
            return (t, if buf.length ≤ 10 then none else some (comp, buf))
  else .ok (t, none)

end PacketTransport

/-! ### Connections and recorders -/

/-- The members of a `WebRtcConnection` that packets meet; its transports have numbers. -/
structure PacketConnection where
  queue : SendQueue
  externalPT : PacketType → UInt8 → UInt8
  bundle : Bool
  videoTransport : Nat
  audioTransport : Nat

namespace PacketConnection

/-- `WebRtcConnection::queueData` with its copy. -/
def queueData (c : PacketConnection) (comp : Int32) (buf : List UInt8) (type : PacketType) (seqNum : UInt16) :
    Checked PacketConnection :=
  if c.queue.sending = false ∨ comp = -1 ∨ 1000 ≤ c.queue.sendQueue.length then
    .ok { c with queue := c.queue.queueData c.externalPT comp buf type seqNum }
  else do
    let data ← copyTo dataPacketSize buf
    return { c with queue := c.queue.queueData c.externalPT comp data type seqNum }

/-- The transport that `sendLoop` writes a packet to. -/
def transportFor (c : PacketConnection) (type : PacketType) : Nat :=
  if c.bundle = true ∨ type = .video then c.videoTransport else c.audioTransport

end PacketConnection

/-- The members of an `ExternalOutput` that packets meet. -/
structure Recorder where
  recording : Bool
  videoQueue : RtpPacketQueue
  audioQueue : RtpPacketQueue

namespace Recorder

def create : Recorder := ⟨true, .create 5 10, .create 5 10⟩

/-- `RtpPacketQueue::pushPacket` with its copy. -/
def pushPacket (q : RtpPacketQueue) (packet : RtpPacket) : Checked RtpPacketQueue :=
  if q.isLate packet then .ok q
  else do
    let _ ← copyTo dataPacketSize packet.data
    q.pushPacket packet

/-- `ExternalOutput::queueData`. The FEC receiver takes the RED packets. -/
def queueData (r : Recorder) (packet : RtpPacket) (type : PacketType) : Checked Recorder :=
  if r.recording = false ∨ isRtcp packet.data then .ok r
  else if type = .video then
    if getPayloadType packet.data = VideoSender.redPT then .ok r
    else do
      let videoQueue ← pushPacket r.videoQueue packet
      return { r with videoQueue }
  else do
    let audioQueue ← pushPacket r.audioQueue packet
    return { r with audioQueue }

/-- `ExternalOutput::OnRecoveredPacket`. -/
def onRecoveredPacket (r : Recorder) (packet : RtpPacket) : Checked Recorder := do
  let videoQueue ← pushPacket r.videoQueue packet
  return { r with videoQueue }

/-- What the writer takes. -/
def popPackets (r : Recorder) (ignoreDepth : Bool) : Recorder :=
  { r with
    videoQueue := (r.videoQueue.popPacket ignoreDepth).2
    audioQueue := (r.audioQueue.popPacket ignoreDepth).2 }

end Recorder

/-! ### The system -/

/-- All transports, connections and recorders, each by its number. -/
structure System (σ : Type) where
  transports : Nat → PacketTransport σ
  connections : Nat → PacketConnection
  recorders : Nat → Recorder

/-- What a packet is handed to. -/
inductive Sink where
  | connection (c : Nat) (seqNum : UInt16)
  | recorder (r : Nat)

/-- The steps of a packet, and those of everything that decides over its way. A packet may have changed in place
(`content`) when it comes to a sink or to `write`. -/
inductive Event (σ : Type) where
  | niceRecv (t : Nat) (component : Component) (buf : List UInt8)
  | getNiceData (t : Nat) (answer : List UInt8)
  | deliver (t : Nat) (content : List UInt8) (type : PacketType) (sink : Sink)
  | recovered (packet : RtpPacket) (sink : Sink)
  | send (c : Nat) (content : List UInt8) (dropped : Bool)
  | close (c : Nat)
  | popPackets (r : Nat) (ignoreDepth : Bool)
  | updateIceState (t : Nat) (state : IceState)
  | updateTransportState (t : Nat) (state : TransportState)
  | handshakeCompleted (t : Nat) (component : Component) (sessions : SrtpSessions σ)

namespace System

variable {σ : Type} (lib : Libsrtp σ)

/-- Everything is new. -/
def create (rtcpMux : Nat → Bool) (connections : Nat → PacketConnection) : System σ where
  transports := fun t => .create (rtcpMux t)
  connections := fun c => { connections c with queue := .create }
  recorders := fun _ => .create

def setTransport (s : System σ) (t : Nat) (transport : PacketTransport σ) : System σ :=
  { s with transports := Function.update s.transports t transport }

def setConnection (s : System σ) (c : Nat) (connection : PacketConnection) : System σ :=
  { s with connections := Function.update s.connections c connection }

def setRecorder (s : System σ) (r : Nat) (recorder : Recorder) : System σ :=
  { s with recorders := Function.update s.recorders r recorder }

/-- A sink is handed the packet of a transport. libsrtp lets none through that has no whole header. -/
def deliver (s : System σ) (packet : List UInt8) (type : PacketType) : Sink → Checked (System σ)
  | .connection c seqNum => do
      let connection ← (s.connections c).queueData 0 packet type seqNum
      return s.setConnection c connection
  | .recorder r =>
      if header : 12 ≤ packet.length then do
        let recorder ← (s.recorders r).queueData ⟨packet, header⟩ type
        return s.setRecorder r recorder
      else .ok s

/-- The FEC receiver of a sink calls back. -/
def recovered (s : System σ) (packet : RtpPacket) : Sink → Checked (System σ)
  | .connection c seqNum => do
      let connection ← (s.connections c).queueData 0 packet.data .video seqNum
      return s.setConnection c connection
  | .recorder r => do
      let recorder ← (s.recorders r).onRecoveredPacket packet
      return s.setRecorder r recorder

/-- One turn of `sendLoop`; rate control may drop the packet. -/
def send (s : System σ) (c : Nat) (content : List UInt8) (dropped : Bool) : Checked (System σ) :=
  match (s.connections c).queue.sendQueue with
  | [] => .ok s
  | packet :: _ => do
      let s := s.setConnection c { s.connections c with queue := (s.connections c).queue.takeFront }
      if packet.comp = -1 ∨ dropped = true then return s
      let t := (s.connections c).transportFor packet.type
      let (transport, _) ← (s.transports t).write lib (Overlay.write packet.data 0 content)
      return s.setTransport t transport

/-- `onHandshakeCompleted`, as far as it makes a channel. -/
def completeHandshake (t : PacketTransport σ) (component : Component) (sessions : SrtpSessions σ) : PacketTransport σ :=
  match component with
  | .rtp => { t with dtlsRtp := { t.dtlsRtp with handshakeCompleted := true }, srtp := some sessions }
  | .rtcp =>
      { t with
        dtlsRtcp := t.dtlsRtcp.map fun ctx => { ctx with handshakeCompleted := true }
        srtcp := some sessions }

def step (s : System σ) : Event σ → Checked (System σ)
  | .niceRecv t component buf => do
      let transport ← (s.transports t).niceRecv component buf
      return s.setTransport t transport
  | .getNiceData t answer => do
      let transport ← (s.transports t).getNiceData lib answer
      return s.setTransport t transport
  | .deliver t content type sink => s.deliver (Overlay.write (s.transports t).unprotectBuf 0 content) type sink
  | .recovered packet sink => s.recovered packet sink
  | .send c content dropped => s.send lib c content dropped
  | .close c => do
      let connection ← (s.connections c).queueData (-1) [] .other 0
      return s.setConnection c connection
  | .popPackets r ignoreDepth => .ok (s.setRecorder r ((s.recorders r).popPackets ignoreDepth))
  | .updateIceState t state => .ok (s.setTransport t { s.transports t with iceState := state })
  | .updateTransportState t state => .ok (s.setTransport t { s.transports t with state := state })
  | .handshakeCompleted t component sessions =>
      .ok (s.setTransport t (completeHandshake (s.transports t) component sessions))

end System

/-! ### What every copy needs -/

theorem copyTo_of_le {size : Nat} {data : List UInt8} (h : data.length ≤ size) : copyTo size data = .ok data := if_pos h

theorem copyTo_needs (size : Nat) (data : List UInt8) :
    Needs .outOfBounds (data.length ≤ size) (· = data) (copyTo size data) := by
  rw [copyTo]
  by_cases h : data.length ≤ size
  · rw [if_pos h]
    exact Needs.ok h rfl
  · rw [if_neg h]
    exact Needs.error h

namespace SrtpSessions

variable {σ : Type} {lib : Libsrtp σ} {c c' : SrtpSessions σ} {rtcp : Bool} {buffer buffer' : List UInt8}

theorem length_protect_le (hlib : lib.Bounded) (h : c.protect lib rtcp buffer = some (c', buffer')) :
    buffer'.length ≤ buffer.length + 14 := by
  rw [protect] at h
  split_ifs at h
  · obtain ⟨r, hr, heq⟩ := Option.map_eq_some_iff.mp h
    cases heq
    exact hlib.protectRtcp _ _ _ _ hr
  · cases h
    exact Nat.le_add_right _ _
  · obtain ⟨r, hr, heq⟩ := Option.map_eq_some_iff.mp h
    cases heq
    exact hlib.protect _ _ _ _ hr

theorem length_unprotect_le (hlib : lib.Bounded) (h : c.unprotect lib rtcp buffer = some (c', buffer')) :
    buffer'.length ≤ buffer.length := by
  rw [unprotect] at h
  split_ifs at h
  · obtain ⟨r, hr, heq⟩ := Option.map_eq_some_iff.mp h
    cases heq
    exact hlib.unprotectRtcp _ _ _ _ hr
  · cases h
    exact le_rfl
  · obtain ⟨r, hr, heq⟩ := Option.map_eq_some_iff.mp h
    cases heq
    exact hlib.unprotect _ _ _ _ hr

end SrtpSessions

theorem DtlsContext.doHandshakeIteration_needs (ctx : DtlsContext) (answer : List UInt8) :
    Needs .outOfBounds (ctx.handshakeCompleted = false → answer.length ≤ resenderSize) (fun _ => True)
      (ctx.doHandshakeIteration answer) := by
  rw [doHandshakeIteration]
  by_cases hcompleted : ctx.handshakeCompleted = true
  · rw [if_pos hcompleted]
    exact Needs.ok (fun hnot => by simp [hcompleted] at hnot) trivial
  rw [if_neg hcompleted]
  by_cases hnone : answer.length = 0
  · rw [if_pos hnone]
    exact Needs.ok (fun _ => hnone ▸ Nat.zero_le _) trivial
  · rw [if_neg hnone, scheduleResend]
    refine Needs.congr ((copyTo_needs _ _).bind id fun h _ _ => Needs.ok h trivial) ?_
    simp [hcompleted]

namespace PacketTransport

variable {σ : Type} {lib : Libsrtp σ}

/-- What waits in the queue has been copied once, and what the listener is handed is no longer. -/
structure Fit (t : PacketTransport σ) : Prop where
  niceQueue : ∀ entry ∈ t.niceQueue, entry.2.length ≤ dataPacketSize ∧ t.Attached entry.1
  unprotectBuf : t.unprotectBuf.length ≤ dataPacketSize

theorem fit_create (rtcpMux : Bool) : (create rtcpMux : PacketTransport σ).Fit :=
  ⟨fun _ h => absurd h List.not_mem_nil, Nat.zero_le _⟩

/-- A datagram that is copied. -/
def Queues (t : PacketTransport σ) (component : Component) : Prop :=
  t.iceState = .ready ∧ t.niceQueue.length < 1000 ∧ t.Attached component

theorem niceRecv_needs {t : PacketTransport σ} (h : t.Fit) (component : Component) (buf : List UInt8) :
    Needs .outOfBounds (t.Queues component → buf.length ≤ dataPacketSize) Fit (t.niceRecv component buf) := by
  rw [niceRecv]
  by_cases hnothing : buf.length = 0 ∨ ¬ t.Attached component
  · rw [if_pos hnothing]
    refine Needs.ok (fun hqueues => ?_) h
    rw [hnothing.resolve_right (not_not.mpr hqueues.2.2)]
    exact Nat.zero_le _
  rw [if_neg hnothing, queueData]
  have hattached : t.Attached component := by_contra fun hnot => hnothing (.inr hnot)
  by_cases hroom : t.iceState = .ready ∧ t.niceQueue.length < 1000
  · rw [if_pos hroom]
    refine (copyTo_needs _ _).bind (fun hneeds => hneeds ⟨hroom.1, hroom.2, hattached⟩) fun hlen data hdata => ?_
    refine Needs.ok (fun _ => hlen) ⟨fun entry hentry => ?_, h.unprotectBuf⟩
    rcases List.mem_append.mp hentry with hold | hnew
    · exact h.niceQueue entry hold
    · rw [List.mem_singleton.mp hnew, hdata]
      exact ⟨hlen, hattached⟩
  · rw [if_neg hroom]
    exact Needs.ok (fun hqueues => absurd ⟨hqueues.1, hqueues.2.1⟩ hroom) h

theorem Fit.setChannel {t : PacketTransport σ} (h : t.Fit) (rtcp : Bool) (sessions : SrtpSessions σ) :
    (t.setChannel rtcp sessions).Fit := by
  rw [PacketTransport.setChannel]
  split_ifs
  · exact ⟨h.niceQueue, h.unprotectBuf⟩
  · exact ⟨h.niceQueue, h.unprotectBuf⟩

/-- The handshake of a component is over. -/
def handshakeCompleted (t : PacketTransport σ) : Component → Bool
  | .rtp => t.dtlsRtp.handshakeCompleted
  | .rtcp => t.dtlsRtcp.any fun ctx => ctx.handshakeCompleted

theorem readDtls_needs {t : PacketTransport σ} (h : t.Fit) {component : Component} (hattached : t.Attached component)
    (answer : List UInt8) :
    Needs .outOfBounds (t.handshakeCompleted component = false → answer.length ≤ resenderSize) Fit
      (t.readDtls component answer) := by
  cases component with
  | rtp =>
      rw [readDtls]
      refine (t.dtlsRtp.doHandshakeIteration_needs answer).bind id fun hneeds _ _ => ?_
      exact Needs.ok hneeds ⟨h.niceQueue, h.unprotectBuf⟩
  | rtcp =>
      obtain ⟨ctx, hctx⟩ := Option.isSome_iff_exists.mp (hattached rfl)
      rw [readDtls, hctx, handshakeCompleted, hctx, Option.any_some]
      refine (ctx.doHandshakeIteration_needs answer).bind id fun hneeds _ _ => ?_
      refine Needs.ok hneeds ⟨fun entry hentry => ⟨(h.niceQueue entry hentry).1, fun _ => rfl⟩, h.unprotectBuf⟩

/-- OpenSSL is asked for an answer to the first packet. -/
def Answers (t : PacketTransport σ) : Prop :=
  ∃ component data rest, t.niceQueue = (component, data) :: rest ∧ isDtlsPacket data = true
    ∧ t.handshakeCompleted component = false

/-- What has been copied once is not too long for `unprotectBuf_`, nor for a sink. -/
theorem getNiceData_needs (hlib : lib.Bounded) {t : PacketTransport σ} (h : t.Fit) (answer : List UInt8) :
    Needs .outOfBounds (t.Answers → answer.length ≤ resenderSize) Fit (t.getNiceData lib answer) := by
  rw [getNiceData]
  match hqueue : t.niceQueue with
  | [] =>
      refine Needs.ok ?_ h
      rintro ⟨component, data, rest, hcons, -⟩
      rw [hqueue] at hcons
      cases hcons
  | (component, data) :: rest =>
      obtain ⟨hlen, hattached⟩ := h.niceQueue (component, data) (hqueue ▸ List.mem_cons_self)
      have hrest : Fit { t with niceQueue := rest } :=
        ⟨fun entry hentry => h.niceQueue entry (hqueue ▸ List.mem_cons_of_mem _ hentry), h.unprotectBuf⟩
      dsimp only
      rw [onNiceData]
      by_cases hdtls : isDtlsPacket data = true
      · rw [if_pos hdtls]
        refine (readDtls_needs hrest hattached answer).congr ⟨?_, ?_⟩
        · rintro hneeds ⟨component', data', rest', hcons, -, hcompleted⟩
          rw [hqueue] at hcons
          cases hcons
          exact hneeds hcompleted
        · exact fun hneeds hcompleted => hneeds ⟨component, data, rest, hqueue, hdtls, hcompleted⟩
      rw [if_neg hdtls]
      have hnot : ¬ t.Answers := by
        rintro ⟨component', data', rest', hcons, hdtls', -⟩
        rw [hqueue] at hcons
        cases hcons
        exact hdtls hdtls'
      have hneeds : t.Answers → answer.length ≤ resenderSize := fun hanswers => absurd hanswers hnot
      by_cases hready : t.state = .ready
      · rw [if_pos (by exact hready), copyTo_of_le (hlen.trans (by decide)), Checked.ok_bind]
        split
        · exact Needs.ok hneeds hrest
        · split
          · exact Needs.ok hneeds hrest
          · rename_i sessions' buf hunprotect
            have hchannel := hrest.setChannel (component = .rtcp) sessions'
            dsimp only
            split_ifs
            · exact Needs.ok hneeds hchannel
            · exact Needs.ok hneeds ⟨hchannel.niceQueue, (SrtpSessions.length_unprotect_le hlib hunprotect).trans hlen⟩
      · rw [if_neg (by exact hready)]
        exact Needs.ok hneeds hrest

/-- `protectBuf_` has room for a packet that has been copied once, protected or not. -/
theorem write_ok (hlib : lib.Bounded) {t : PacketTransport σ} (h : t.Fit) {data : List UInt8}
    (hlen : data.length ≤ dataPacketSize) : ∃ t' sent, t.write lib data = .ok (t', sent) ∧ t'.Fit := by
  rw [write]
  by_cases hready : t.state = .ready
  · rw [if_pos hready, copyTo_of_le (hlen.trans (by decide)), Checked.ok_bind]
    dsimp only
    split
    · exact ⟨_, _, rfl, h⟩
    · by_cases hice : t.iceState ≠ .ready
      · rw [if_pos hice]
        exact ⟨_, _, rfl, h⟩
      rw [if_neg hice]
      split
      · exact ⟨_, _, rfl, h⟩
      · rename_i sessions' buf hprotect
        have hgrown := SrtpSessions.length_protect_le hlib hprotect
        have hroom : buf.length ≤ protectBufSize := by
          rw [protectBufSize]
          rw [dataPacketSize] at hlen
          omega
        rw [copyTo_of_le hroom]
        exact ⟨_, _, rfl, h.setChannel _ _⟩
  · rw [if_neg hready]
    exact ⟨_, _, rfl, h⟩

end PacketTransport

namespace PacketConnection

structure Fit (c : PacketConnection) : Prop where
  sendQueue : ∀ packet ∈ c.queue.sendQueue, packet.data.length ≤ dataPacketSize

/-- A packet that is copied. -/
def Queues (c : PacketConnection) (comp : Int32) : Prop :=
  c.queue.sending = true ∧ comp ≠ -1 ∧ c.queue.sendQueue.length < 1000

theorem Fit.queueData {c : PacketConnection} (h : c.Fit) {comp : Int32} {buf : List UInt8} {type : PacketType}
    {seqNum : UInt16} (hlen : c.Queues comp → buf.length ≤ dataPacketSize) :
    Fit { c with queue := c.queue.queueData c.externalPT comp buf type seqNum } := by
  refine ⟨fun packet hpacket => ?_⟩
  dsimp only at hpacket
  rw [SendQueue.queueData] at hpacket
  split_ifs at hpacket with hsending hend hroom
  · exact h.sendQueue packet hpacket
  · rw [List.mem_singleton.mp hpacket]
    exact Nat.zero_le _
  · rcases List.mem_append.mp hpacket with hold | hnew
    · exact h.sendQueue packet hold
    · rw [List.mem_singleton.mp hnew, SendQueue.length_packetFor]
      exact hlen ⟨by simpa using hsending, hend, hroom⟩
  · exact h.sendQueue packet hpacket

theorem queueData_needs {c : PacketConnection} (h : c.Fit) (comp : Int32) (buf : List UInt8) (type : PacketType)
    (seqNum : UInt16) :
    Needs .outOfBounds (c.Queues comp → buf.length ≤ dataPacketSize) Fit (c.queueData comp buf type seqNum) := by
  rw [queueData]
  by_cases hnothing : c.queue.sending = false ∨ comp = -1 ∨ 1000 ≤ c.queue.sendQueue.length
  · have hnot : ¬ c.Queues comp := by
      rintro ⟨hsending, hend, hroom⟩
      rcases hnothing with hoff | hclose | hfull
      · rw [hsending] at hoff
        cases hoff
      · exact hend hclose
      · omega
    rw [if_pos hnothing]
    exact Needs.ok (fun hqueues => absurd hqueues hnot) (h.queueData fun hqueues => absurd hqueues hnot)
  · have hqueues : c.Queues comp := by
      obtain ⟨hsending, hend, hroom⟩ := not_or.mp hnothing |>.imp_right not_or.mp
      exact ⟨by simpa using hsending, hend, not_le.mp hroom⟩
    rw [if_neg hnothing]
    refine (copyTo_needs _ _).bind (fun hneeds => hneeds hqueues) fun hlen data hdata => ?_
    rw [hdata]
    exact Needs.ok (fun _ => hlen) (h.queueData fun _ => hlen)

theorem Fit.takeFront {c : PacketConnection} (h : c.Fit) : Fit { c with queue := c.queue.takeFront } := by
  refine ⟨fun packet hpacket => h.sendQueue packet ?_⟩
  dsimp only at hpacket
  rw [SendQueue.takeFront] at hpacket
  split at hpacket
  · exact hpacket
  · rename_i hqueue
    rw [hqueue]
    split_ifs at hpacket
    · exact List.mem_cons_of_mem _ hpacket
    · exact List.mem_cons_of_mem _ hpacket

end PacketConnection

namespace Recorder

structure Fit (r : Recorder) : Prop where
  video : 0 ≤ r.videoQueue.maxDepthInSeconds
  audio : 0 ≤ r.audioQueue.maxDepthInSeconds

theorem fit_create : create.Fit := ⟨by decide +kernel, by decide +kernel⟩

theorem pushPacket_needs {q : RtpPacketQueue} (hmax : 0 ≤ q.maxDepthInSeconds) (packet : RtpPacket) :
    Needs .outOfBounds (q.isLate packet = false → packet.data.length ≤ dataPacketSize)
      (fun q' => 0 ≤ q'.maxDepthInSeconds) (pushPacket q packet) := by
  rw [pushPacket]
  rcases RtpPacketQueue.pushPacket_eq hmax packet with ⟨hlate, -⟩ | ⟨hlate, kept, hpush, -⟩
  · rw [if_pos hlate]
    exact Needs.ok (fun hnot => by simp [hlate] at hnot) hmax
  · rw [if_neg (by simp [hlate]), hpush]
    refine (copyTo_needs _ _).bind (fun hneeds => hneeds hlate) fun hlen _ _ => ?_
    exact Needs.ok (fun _ => hlen) hmax

theorem onRecoveredPacket_needs {r : Recorder} (h : r.Fit) (packet : RtpPacket) :
    Needs .outOfBounds (r.videoQueue.isLate packet = false → packet.data.length ≤ dataPacketSize) Fit
      (r.onRecoveredPacket packet) := by
  rw [onRecoveredPacket]
  exact (pushPacket_needs h.video packet).bind id fun hneeds _ hmax => Needs.ok hneeds ⟨hmax, h.audio⟩

theorem queueData_ok {r : Recorder} (h : r.Fit) {packet : RtpPacket} (hlen : packet.data.length ≤ dataPacketSize)
    (type : PacketType) : ∃ r', r.queueData packet type = .ok r' ∧ r'.Fit := by
  obtain ⟨videoQueue, hvideo, hvideoMax⟩ := (pushPacket_needs h.video packet).1 fun _ => hlen
  obtain ⟨audioQueue, haudio, haudioMax⟩ := (pushPacket_needs h.audio packet).1 fun _ => hlen
  rw [queueData, hvideo, haudio]
  split_ifs
  · exact ⟨r, rfl, h⟩
  · exact ⟨r, rfl, h⟩
  · exact ⟨_, rfl, hvideoMax, h.audio⟩
  · exact ⟨_, rfl, h.video, haudioMax⟩

theorem Fit.popPackets {r : Recorder} (h : r.Fit) (ignoreDepth : Bool) : (r.popPackets ignoreDepth).Fit := by
  refine ⟨?_, ?_⟩
  · rw [Recorder.popPackets, RtpPacketQueue.maxDepthInSeconds_popPacket]
    exact h.video
  · rw [Recorder.popPackets, RtpPacketQueue.maxDepthInSeconds_popPacket]
    exact h.audio

end Recorder

namespace System

variable {σ : Type} {lib : Libsrtp σ}

structure Fit (s : System σ) : Prop where
  transports : ∀ t, (s.transports t).Fit
  connections : ∀ c, (s.connections c).Fit
  recorders : ∀ r, (s.recorders r).Fit

theorem fit_create (rtcpMux : Nat → Bool) (connections : Nat → PacketConnection) :
    (create rtcpMux connections : System σ).Fit where
  transports t := PacketTransport.fit_create (rtcpMux t)
  connections _ := ⟨fun _ h => absurd h List.not_mem_nil⟩
  recorders _ := Recorder.fit_create

theorem Fit.setTransport {s : System σ} (h : s.Fit) {t : Nat} {transport : PacketTransport σ} (ht : transport.Fit) :
    (s.setTransport t transport).Fit where
  transports :=
    (Function.forall_update_iff s.transports fun _ => PacketTransport.Fit).mpr ⟨ht, fun i _ => h.transports i⟩
  connections := h.connections
  recorders := h.recorders

theorem Fit.setConnection {s : System σ} (h : s.Fit) {c : Nat} {connection : PacketConnection} (hc : connection.Fit) :
    (s.setConnection c connection).Fit where
  transports := h.transports
  connections :=
    (Function.forall_update_iff s.connections fun _ => PacketConnection.Fit).mpr ⟨hc, fun i _ => h.connections i⟩
  recorders := h.recorders

theorem Fit.setRecorder {s : System σ} (h : s.Fit) {r : Nat} {recorder : Recorder} (hr : recorder.Fit) :
    (s.setRecorder r recorder).Fit where
  transports := h.transports
  connections := h.connections
  recorders := (Function.forall_update_iff s.recorders fun _ => Recorder.Fit).mpr ⟨hr, fun i _ => h.recorders i⟩

/-- A datagram, an answer of OpenSSL or a recovered packet that is copied is not too long. -/
def Fits (s : System σ) : Event σ → Prop
  | .niceRecv t component buf => (s.transports t).Queues component → buf.length ≤ dataPacketSize
  | .getNiceData t answer => (s.transports t).Answers → answer.length ≤ resenderSize
  | .recovered packet (.connection c _) => (s.connections c).Queues 0 → packet.data.length ≤ dataPacketSize
  | .recovered packet (.recorder r) =>
      (s.recorders r).videoQueue.isLate packet = false → packet.data.length ≤ dataPacketSize
  | _ => True

theorem deliver_needs {s : System σ} (h : s.Fit) {packet : List UInt8} (hlen : packet.length ≤ dataPacketSize)
    (type : PacketType) (sink : Sink) : Needs .outOfBounds True Fit (s.deliver packet type sink) := by
  cases sink with
  | connection c seqNum =>
      obtain ⟨connection, hqueue, hfit⟩ :=
        (PacketConnection.queueData_needs (h.connections c) 0 packet type seqNum).1 fun _ => hlen
      rw [deliver, hqueue, Checked.ok_bind]
      exact Needs.ok trivial (h.setConnection hfit)
  | recorder r =>
      rw [deliver]
      by_cases header : 12 ≤ packet.length
      · obtain ⟨recorder, hqueue, hfit⟩ :=
          Recorder.queueData_ok (h.recorders r)
            (show (RtpPacket.mk packet header).data.length ≤ dataPacketSize from hlen) type
        rw [dif_pos header, hqueue, Checked.ok_bind]
        exact Needs.ok trivial (h.setRecorder hfit)
      · rw [dif_neg header]
        exact Needs.ok trivial h

theorem recovered_needs {s : System σ} (h : s.Fit) (packet : RtpPacket) (sink : Sink) :
    Needs .outOfBounds (s.Fits (.recovered packet sink)) Fit (s.recovered packet sink) := by
  cases sink with
  | connection c seqNum =>
      rw [recovered]
      refine (PacketConnection.queueData_needs (h.connections c) 0 packet.data .video seqNum).bind id ?_
      exact fun hneeds _ hfit => Needs.ok hneeds (h.setConnection hfit)
  | recorder r =>
      rw [recovered]
      refine (Recorder.onRecoveredPacket_needs (h.recorders r) packet).bind id ?_
      exact fun hneeds _ hfit => Needs.ok hneeds (h.setRecorder hfit)

theorem send_needs (hlib : lib.Bounded) {s : System σ} (h : s.Fit) (c : Nat) (content : List UInt8) (dropped : Bool) :
    Needs .outOfBounds True Fit (s.send lib c content dropped) := by
  rw [send]
  split
  · exact Needs.ok trivial h
  · rename_i packet rest hqueue
    have hpopped := h.setConnection (c := c) (h.connections c).takeFront
    dsimp only
    by_cases hnothing : packet.comp = -1 ∨ dropped = true
    · rw [if_pos hnothing]
      exact Needs.ok trivial hpopped
    rw [if_neg hnothing]
    have hlen : (Overlay.write packet.data 0 content).length ≤ dataPacketSize := by
      rw [Overlay.length_write]
      exact (h.connections c).sendQueue packet (hqueue ▸ List.mem_cons_self)
    obtain ⟨transport, sent, hwrite, hfit⟩ := PacketTransport.write_ok hlib (h.transports _) hlen
    change Needs _ _ _ ((s.transports _).write lib _ >>= _)
    rw [hwrite, Checked.ok_bind]
    exact Needs.ok trivial (hpopped.setTransport hfit)

theorem fit_completeHandshake {t : PacketTransport σ} (h : t.Fit) (component : Component) (sessions : SrtpSessions σ) :
    (completeHandshake t component sessions).Fit := by
  cases component with
  | rtp => exact ⟨h.niceQueue, h.unprotectBuf⟩
  | rtcp =>
      refine ⟨fun entry hentry => ⟨(h.niceQueue entry hentry).1, fun hrtcp => ?_⟩, h.unprotectBuf⟩
      rw [completeHandshake, Option.isSome_map]
      exact (h.niceQueue entry hentry).2 hrtcp

/-- What a step copies fits just if what is new in it does. -/
theorem step_needs (hlib : lib.Bounded) (s : System σ) (event : Event σ) (h : s.Fit) :
    Needs .outOfBounds (s.Fits event) Fit (s.step lib event) := by
  cases event with
  | niceRecv t component buf =>
      refine (PacketTransport.niceRecv_needs (h.transports t) component buf).bind id fun hneeds _ hfit => ?_
      exact Needs.ok hneeds (h.setTransport hfit)
  | getNiceData t answer =>
      refine (PacketTransport.getNiceData_needs hlib (h.transports t) answer).bind id fun hneeds _ hfit => ?_
      exact Needs.ok hneeds (h.setTransport hfit)
  | deliver t content type sink =>
      refine deliver_needs h ?_ type sink
      rw [Overlay.length_write]
      exact (h.transports t).unprotectBuf
  | recovered packet sink => exact recovered_needs h packet sink
  | send c content dropped => exact send_needs hlib h c content dropped
  | close c =>
      obtain ⟨connection, hqueue, hfit⟩ :=
        (PacketConnection.queueData_needs (h.connections c) (-1) [] .other 0).1 fun _ => Nat.zero_le _
      rw [step, hqueue, Checked.ok_bind]
      exact Needs.ok trivial (h.setConnection hfit)
  | popPackets r ignoreDepth => exact Needs.ok trivial (h.setRecorder ((h.recorders r).popPackets ignoreDepth))
  | updateIceState t state =>
      exact Needs.ok trivial (h.setTransport ⟨(h.transports t).niceQueue, (h.transports t).unprotectBuf⟩)
  | updateTransportState t state =>
      exact Needs.ok trivial (h.setTransport ⟨(h.transports t).niceQueue, (h.transports t).unprotectBuf⟩)
  | handshakeCompleted t component sessions =>
      exact Needs.ok trivial (h.setTransport (fit_completeHandshake (h.transports t) component sessions))

/-- **Copies fit** along a run of any number of transports, connections and recorders, just if every datagram that is
queued, every answer of OpenSSL and every packet that is recovered fits into the array that it is first copied to. -/
theorem copies_fit_iff (hlib : lib.Bounded) (rtcpMux : Nat → Bool) (connections : Nat → PacketConnection)
    (events : List (Event σ)) :
    events.foldlM (step lib) (create rtcpMux connections) ≠ .error .outOfBounds
      ↔ Along Fits (step lib) events (create rtcpMux connections) :=
  (Needs.foldlM (step_needs hlib) (fit_create rtcpMux connections)).ne_error_iff

/-- libsrtp before a packet that nobody has protected. -/
def rejecting : Libsrtp Unit := ⟨fun _ _ => none, fun _ _ => none, fun _ _ => none, fun _ _ => none⟩

def oneConnection : Nat → PacketConnection := fun _ => ⟨.create, fun _ type => type, true, 0, 0⟩

/-- A flight of the handshake, and then a datagram that is just not too long. -/
theorem copies_fit_1500 :
    ([.updateIceState 0 .ready, .niceRecv 0 .rtp [22, 254, 253], .getNiceData 0 (List.replicate 1200 22),
        .handshakeCompleted 0 .rtp ⟨true, (), ()⟩, .updateTransportState 0 .ready,
        .niceRecv 0 .rtp (List.replicate 1500 128), .getNiceData 0 []] : List (Event Unit)).foldlM (step rejecting)
      (create (fun _ => true) oneConnection) ≠ .error .outOfBounds := by
  refine (copies_fit_iff ⟨?_, ?_, ?_, ?_⟩ _ _ _).mpr ?_
  · rintro _ _ _ _ ⟨⟩
  · rintro _ _ _ _ ⟨⟩
  · rintro _ _ _ _ ⟨⟩
  · rintro _ _ _ _ ⟨⟩
  · refine ⟨trivial, fun _ _ => ⟨fun _ => by decide, fun _ _ => ⟨fun _ => ?_, fun _ _ => ⟨trivial, fun _ _ =>
      ⟨trivial, fun _ _ => ⟨fun _ => ?_, fun _ _ => ⟨fun _ => by decide, fun _ _ => trivial⟩⟩⟩⟩⟩⟩⟩
    · rw [List.length_replicate]
      decide
    · rw [List.length_replicate]
      decide

theorem datagram_1501_overflows :
    ([.updateIceState 0 .ready, .niceRecv 0 .rtp (List.replicate 1501 128)] : List (Event Unit)).foldlM (step rejecting)
      (create (fun _ => true) oneConnection) = .error .outOfBounds := by
  have hcopy : copyTo dataPacketSize (List.replicate 1501 128) = .error .outOfBounds := by
    rw [copyTo, List.length_replicate]
    rfl
  have hrecv : PacketTransport.niceRecv { PacketTransport.create (σ := Unit) true with iceState := .ready } .rtp
      (List.replicate 1501 128) = .error .outOfBounds := by
    have hsome : ¬ (List.replicate 1501 (128 : UInt8)).length = 0 := by
      rw [List.length_replicate]
      decide
    rw [PacketTransport.niceRecv, if_neg (not_or.mpr ⟨hsome, not_not.mpr (by rintro ⟨⟩)⟩), PacketTransport.queueData,
      if_pos ⟨rfl, by decide⟩, hcopy]
    rfl
  rw [List.foldlM_cons, step, Checked.ok_bind, List.foldlM_cons, step]
  change (PacketTransport.niceRecv { PacketTransport.create (σ := Unit) true with iceState := .ready } .rtp _ >>= _)
    >>= _ = _
  rw [hrecv]
  rfl

end System

end Licode.Media
