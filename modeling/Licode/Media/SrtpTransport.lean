import Licode.Media.SendQueue
import Licode.Media.TransportState

/-!
# Media on a transport

`DtlsTransport::write` looks at the pointer to the SRTP channel, then at the state of the transport, and then twice
at the state of the ICE agent, while the thread that reads packets and the thread of the agent go on. A packet goes out
as it is where the pointer was null and the transport became ready before its state was looked at, and where
the agent became ready between the two looks at it. Besides that everything that goes out is protected with the
key of the handshake of its component, and what the listener gets has been protected with the peer's.

`write` holds `writeMutex_`, so that there is one at a time. What libsrtp makes of a packet is told by the key.
-/

namespace Licode.Media

/-- A packet as it is, or what `srtp_protect` has made of it. The header stays readable. -/
inductive NiceData where
  | plain (data : List UInt8)
  | srtp (key : AString) (data : List UInt8)
  deriving DecidableEq

namespace NiceData

def data : NiceData → List UInt8
  | .plain data | .srtp _ data => data

/-- An RTP packet gets a tag, an RTCP packet also the index. -/
def length : NiceData → Nat
  | .plain data => data.length
  | .srtp _ data => data.length + if isRtcp data then 14 else 10

end NiceData

/-- A call of `write`, by what it has found out so far. A channel is told by the context it belongs to. -/
inductive Writer where
  | idle
  | loaded (srtp : Option Component) (data : List UInt8)
  | chosen (srtp : Option Component) (comp : Component) (data : List UInt8)
  | prepared (comp : Component) (out : NiceData)
  deriving DecidableEq

/-- The call has found no channel, and has still to look at the state. -/
def Writer.blind : Writer → Bool
  | .loaded none _ => true
  | _ => false

/-- The packet is not protected, and the agent has still to be looked at for the second time. -/
def Writer.bare : Writer → Bool
  | .prepared _ (.plain _) => true
  | _ => false

/-- A transport with its agent. `written` has the packets that `write` was called with, `sent` what it has handed to the
agent, to which the records of DTLS go too, and `delivered` what the listener got. -/
structure MediaTransport where
  live : LiveTransport
  iceState : IceState
  writer : Writer
  written : List (List UInt8)
  sent : List (Component × NiceData)
  delivered : List NiceData

namespace DtlsTransport

def channel (t : DtlsTransport) : Component → Option SrtpChannel
  | .rtp => t.srtp
  | .rtcp => t.srtcp

def isReady (t : DtlsTransport) : Component → Bool
  | .rtp => t.readyRtp
  | .rtcp => t.readyRtcp

/-- There is a context for RTCP where it is not multiplexed. -/
def HasContext (t : DtlsTransport) (ctx : Component) : Prop := ctx = .rtp ∨ t.dtlsRtcp.isSome = true

instance (t : DtlsTransport) (ctx : Component) : Decidable (t.HasContext ctx) := inferInstanceAs (Decidable (_ ∨ _))

/-- The component that a packet goes to. -/
def componentOf (t : DtlsTransport) (data : List UInt8) : Component :=
  if isRtcp data = true ∧ t.dtlsRtcp.isSome = true then .rtcp else .rtp

end DtlsTransport

/-- `protectRtp` and `protectRtcp`, where libsrtp does its work or refuses. The latter does not ask for `active_`. -/
def SrtpChannel.protectPacket (channel : SrtpChannel) (data : List UInt8) (ok : Bool) : Option NiceData :=
  if channel.active = false ∧ isRtcp data = false then some (.plain data)
  else if ok then some (.srtp channel.sendingKey data)
  else none

/-- `unprotectRtp` and `unprotectRtcp`. A packet that was not protected with the key is refused. -/
def SrtpChannel.unprotectPacket (channel : SrtpChannel) (packet : NiceData) (ok : Bool) : Option NiceData :=
  if channel.active = false ∧ isRtcp packet.data = false then some packet
  else
    match packet with
    | .plain _ => none
    | .srtp key data => if key = channel.receivingKey ∧ ok = true then some (.plain data) else none

namespace DtlsTransport

/-- `onNiceData` on a packet that is not one of DTLS, with what it gives to the listener. -/
def onNiceData (t : DtlsTransport) (comp : Component) (packet : NiceData) (ok : Bool) : Option NiceData :=
  if t.state = .ready then
    match if t.dtlsRtcp.isSome ∧ comp = .rtcp then t.srtcp else t.srtp with
    | none => none
    | some channel => (channel.unprotectPacket packet ok).filter fun out => out.length > 0
  else none

end DtlsTransport

/-- `DtlsTransport::isDtlsPacket`, by the first byte. -/
def isDtlsPacket (data : List UInt8) : Bool :=
  match data with
  | [] => false
  | first :: _ => 20 ≤ first && first ≤ 64

namespace MediaTransport

def create (isServer rtcpMux : Bool) : MediaTransport where
  live := .create isServer rtcpMux
  iceState := .initial
  writer := .idle
  written := []
  sent := []
  delivered := []

/-- What the handshakes lead to comes from the handshakes. -/
def handshakes : LiveTransport.Event → Bool
  | .onHandshakeCompleted _ _ | .onHandshakeFailed _ => true
  | _ => false

inductive Event where
  | live (event : LiveTransport.Event)
  | iceState (state : IceState)
  | handshake (ctx : Component) (sslerr : SslError) (ssl : Ssl)
  | write (data : List UInt8)
  | testState
  | protect (ok : Bool)
  | send
  | receive (comp : Component) (packet : NiceData) (ok : Bool)

/-- The state is looked at, and the packet gets its component and its channel. -/
def choose (t : DtlsTransport) (srtp : Option Component) (data : List UInt8) : Writer :=
  if t.state = .ready then
    if isRtcp data then
      .chosen (if t.dtlsRtcp.isSome then t.srtcp.map fun _ => .rtcp else srtp)
        (if t.dtlsRtcp.isSome then .rtcp else .rtp) data
    else .chosen srtp .rtp data
  else .idle

/-- The first look at the agent, and the packet is protected. -/
def protectData (m : MediaTransport) (srtp : Option Component) (comp : Component) (data : List UInt8) (ok : Bool) :
    Writer :=
  match srtp.bind m.live.transport.channel with
  | none => .prepared comp (.plain data)
  | some channel =>
      if m.iceState = .ready then
        match channel.protectPacket data ok with
        | none => .idle
        | some out => .prepared comp out
      else .prepared comp (.plain data)

variable (srtpCreate : AString → Bool)

def tryNext (m : MediaTransport) : Event → Option MediaTransport
  | .live event =>
      if handshakes event then none
      else (m.live.tryNext srtpCreate event).map fun live => { m with live := live }
  | .iceState state => if m.iceState.toNat < state.toNat then some { m with iceState := state } else none
  | .handshake ctx sslerr ssl =>
      if m.live.transport.HasContext ctx then
        match m.live.transport.doHandshakeIteration srtpCreate ctx sslerr ssl with
        | .error _ => none
        | .ok (t, _) => some { m with live := { m.live with transport := t } }
      else none
  | .write data =>
      match m.writer with
      | .idle => some { m with
          writer := .loaded (m.live.transport.srtp.map fun _ => .rtp) data
          written := m.written ++ [data] }
      | _ => none
  | .testState =>
      match m.writer with
      | .loaded srtp data => some { m with writer := choose m.live.transport srtp data }
      | _ => none
  | .protect ok =>
      match m.writer with
      | .chosen srtp comp data => some { m with writer := m.protectData srtp comp data ok }
      | _ => none
  | .send =>
      match m.writer with
      | .prepared comp out => some { m with
          writer := .idle
          sent := if out.length > 10 ∧ m.iceState = .ready then m.sent ++ [(comp, out)] else m.sent }
      | _ => none
  | .receive comp packet ok =>
      if isDtlsPacket packet.data then none
      else some { m with delivered := m.delivered ++ (m.live.transport.onNiceData comp packet ok).toList }

def Step (m : MediaTransport) (event : Event) (m' : MediaTransport) : Prop := m.tryNext srtpCreate event = some m'

end MediaTransport

/-! ### The channels of a transport -/

/-- The half of the keys with which this end sends. -/
def sendingKey (isServer : Bool) (ssl : Ssl) : AString :=
  base64 (if isServer then ssl.getSrtpSessionKeys.2 else ssl.getSrtpSessionKeys.1)

def receivingKey (isServer : Bool) (ssl : Ssl) : AString := sendingKey (!isServer) ssl

/-- A channel has the keys of one of the sessions of its context, and a transport is ready with active channels only. -/
structure ChannelOk (P : Component → Ssl → Prop) (t : DtlsTransport) : Prop where
  completed : ∀ ctx, (t.channel ctx).isSome = true → t.isCompleted ctx = true
  keys : ∀ ctx channel, t.channel ctx = some channel → ∃ ssl, P ctx ssl
    ∧ channel.sendingKey = sendingKey t.isServer ssl ∧ channel.receivingKey = receivingKey t.isServer ssl
  active : ∀ ctx, t.HasContext ctx → t.isReady ctx = true → ∃ channel, t.channel ctx = some channel ∧ channel.active = true
  ready : t.state = .ready → ∀ ctx, t.isReady ctx = true

/-- A callback that has nothing to do with the channels. -/
structure KeepsChannels (t t' : DtlsTransport) : Prop where
  isServer : t'.isServer = t.isServer
  context : t'.dtlsRtcp.isSome = t.dtlsRtcp.isSome
  completed : ∀ ctx, t.isCompleted ctx = true → t'.isCompleted ctx = true
  channel : t'.channel = t.channel
  isReady : t'.isReady = t.isReady
  state : t'.state = .ready → t.state = .ready

/-- What `onHandshakeCompleted` does for a context. -/
structure Completes (srtpCreate : AString → Bool) (ctx : Component) (call : HandshakeCompleted) (t t' : DtlsTransport) :
    Prop where
  isServer : t'.isServer = t.isServer
  context : t'.dtlsRtcp.isSome = t.dtlsRtcp.isSome
  completed : t'.isCompleted = t.isCompleted
  channel : t'.channel = Function.update t.channel ctx
    (some ⟨if t.isServer then call.serverKey else call.clientKey, if t.isServer then call.clientKey else call.serverKey,
      LiveTransport.keysOk srtpCreate call⟩)
  own : t'.isReady ctx = (t.isReady ctx || LiveTransport.keysOk srtpCreate call)
  other : ∀ c, c ≠ ctx → t.HasContext c → t'.isReady c = t.isReady c
  state : t'.state = .ready → t.state = .ready ∨ ∀ c, t'.isReady c = true

section Channels

variable {P : Component → Ssl → Prop} {srtpCreate : AString → Bool} {t t' : DtlsTransport} {ctx : Component}

theorem KeepsChannels.refl (t : DtlsTransport) : KeepsChannels t t := ⟨rfl, rfl, fun _ => id, rfl, rfl, id⟩

theorem keepsChannels_updateTransportState {t t' : DtlsTransport} (h : KeepsChannels t t') {state : TransportState}
    (hstate : state ≠ .ready) : KeepsChannels t (t'.updateTransportState state) := by
  unfold DtlsTransport.updateTransportState
  split_ifs
  · exact h
  · exact ⟨h.isServer, h.context, h.completed, h.channel, h.isReady, fun hready => absurd hready hstate⟩

theorem keepsChannels_running (t : DtlsTransport) : KeepsChannels t { t with running := false } :=
  ⟨rfl, rfl, fun _ => id, rfl, rfl, id⟩

theorem keepsChannels_onHandshakeFailed (t : DtlsTransport) : KeepsChannels t t.onHandshakeFailed :=
  keepsChannels_updateTransportState (keepsChannels_running t) (by decide)

theorem keepsChannels_setCompleted (t : DtlsTransport) (ctx : Component) : KeepsChannels t (t.setCompleted ctx) := by
  cases ctx with
  | rtp => exact ⟨rfl, rfl, fun c hc => by cases c <;> [rfl; exact hc], rfl, rfl, id⟩
  | rtcp =>
      refine ⟨rfl, Option.isSome_map, fun c hc => ?_, rfl, rfl, id⟩
      cases c with
      | rtp => exact hc
      | rtcp => cases hrtcp : t.dtlsRtcp <;> simp_all [DtlsTransport.isCompleted, DtlsTransport.setCompleted]

theorem ChannelOk.keep (h : ChannelOk P t) (hkeep : KeepsChannels t t') : ChannelOk P t' where
  completed c hc := by
    rw [hkeep.channel] at hc
    exact hkeep.completed c (h.completed c hc)
  keys := by
    rw [hkeep.channel, hkeep.isServer]
    exact h.keys
  active := by
    rw [hkeep.channel, hkeep.isReady]
    intro c hc
    rw [DtlsTransport.HasContext, hkeep.context] at hc
    exact h.active c hc
  ready hready := by
    rw [hkeep.isReady]
    exact h.ready (hkeep.state hready)

/-- A transport that is ready has an active channel for each of its contexts. -/
theorem ChannelOk.active_of_ready (h : ChannelOk P t) (hready : t.state = .ready) (ctx : Component) (hctx : t.HasContext ctx) :
    ∃ channel, t.channel ctx = some channel ∧ channel.active = true :=
  h.active ctx hctx (h.ready hready ctx)

/-- The callbacks besides those of a handshake. -/
theorem keepsChannels_live {l l' : LiveTransport} {event : LiveTransport.Event}
    (hevent : MediaTransport.handshakes event = false) (hstep : l.tryNext srtpCreate event = some l') :
    KeepsChannels l.transport l'.transport := by
  unfold LiveTransport.tryNext at hstep
  split at hstep <;> cases hstep
  cases event with
  | updateIceState state =>
      rw [LiveTransport.next]
      unfold LiveTransport.updateIceState
      dsimp only
      split_ifs
      · exact .refl _
      · exact keepsChannels_updateTransportState (.refl _) (by decide)
      · exact keepsChannels_updateTransportState (.refl _) (by decide)
      · exact keepsChannels_updateTransportState (keepsChannels_running _) (by decide)
      · exact .refl _
      · exact .refl _
  | onDtlsPacket ctx => exact .refl _
  | cancel ctx late => exact .refl _
  | onHandshakeCompleted ctx call => cases hevent
  | onHandshakeFailed ctx => cases hevent
  | resend ctx =>
      rw [LiveTransport.next, LiveTransport.resend]
      split_ifs
      · exact .refl _
      · exact keepsChannels_onHandshakeFailed _
  | close => exact ⟨rfl, rfl, fun _ => id, rfl, rfl, fun hready => by cases hready⟩

theorem setRtpParams_swap (call : HandshakeCompleted) (isServer : Bool) :
    DtlsTransport.setRtpParams srtpCreate
      (if isServer then (call.serverKey, call.clientKey) else (call.clientKey, call.serverKey)).1
      (if isServer then (call.serverKey, call.clientKey) else (call.clientKey, call.serverKey)).2
    = (LiveTransport.keysOk srtpCreate call, ⟨if isServer then call.serverKey else call.clientKey,
        if isServer then call.clientKey else call.serverKey, LiveTransport.keysOk srtpCreate call⟩) := by
  unfold DtlsTransport.setRtpParams LiveTransport.keysOk
  cases isServer with
  | false => rfl
  | true => exact Prod.ext (Bool.and_comm _ _) (congrArg (SrtpChannel.mk _ _) (Bool.and_comm _ _))

/-- The last lines of `onHandshakeCompleted`. -/
theorem Completes.becomeReady {call : HandshakeCompleted} (h : Completes srtpCreate ctx call t t') :
    Completes srtpCreate ctx call t (if t'.readyRtp ∧ t'.readyRtcp then t'.updateTransportState .ready else t') := by
  unfold DtlsTransport.updateTransportState
  split_ifs with hboth hstate
  · exact h
  · refine ⟨h.isServer, h.context, h.completed, h.channel, h.own, h.other, fun _ => .inr fun c => ?_⟩
    cases c with
    | rtp => exact hboth.1
    | rtcp => exact hboth.2
  · exact h

theorem Completes.updateTransportState {call : HandshakeCompleted} (h : Completes srtpCreate ctx call t t')
    {state : TransportState} (hstate : state ≠ .ready) : Completes srtpCreate ctx call t (t'.updateTransportState state) := by
  unfold DtlsTransport.updateTransportState
  split_ifs
  · exact h
  · exact ⟨h.isServer, h.context, h.completed, h.channel, h.own, h.other, fun hready => absurd hready hstate⟩

/-- There is nothing to wait for besides the context for RTP. -/
theorem Completes.multiplexed {call : HandshakeCompleted} (h : Completes srtpCreate .rtp call t t') :
    Completes srtpCreate .rtp call t (if t'.dtlsRtcp = none then { t' with readyRtcp := true } else t') := by
  split_ifs with hnone
  · refine ⟨h.isServer, h.context, h.completed, h.channel, h.own, fun c hc hcontext => ?_, fun hready => ?_⟩
    · have hsome := hcontext.resolve_left hc
      rw [← h.context, hnone] at hsome
      cases hsome
    · refine (h.state hready).imp_right fun hall c => ?_
      cases c with
      | rtp => exact hall .rtp
      | rtcp => rfl
  · exact h

/-- Besides the channel of the context a completion touches the state and what is ready. -/
theorem completes_onHandshakeCompleted (srtpCreate : AString → Bool) (t : DtlsTransport) (ctx : Component)
    (hctx : t.HasContext ctx) (call : HandshakeCompleted) :
    Completes srtpCreate ctx call t (t.onHandshakeCompleted srtpCreate ctx call) := by
  unfold DtlsTransport.onHandshakeCompleted
  dsimp only
  refine Completes.becomeReady ?_
  rw [setRtpParams_swap]
  dsimp only
  cases ctx with
  | rtp =>
      rw [if_pos rfl, if_neg (by simp)]
      refine Completes.multiplexed ?_
      cases hok : LiveTransport.keysOk srtpCreate call with
      | true =>
          rw [if_pos rfl]
          refine ⟨rfl, rfl, rfl, funext fun c => ?_, by rw [hok]; exact (Bool.or_true _).symm, fun c hc _ => ?_, .inl⟩
          · cases c <;> [rw [hok]; skip] <;> rfl
          · cases c <;> [exact absurd rfl hc; rfl]
      | false =>
          rw [if_neg (by decide)]
          refine Completes.updateTransportState ?_ (by decide)
          refine ⟨rfl, rfl, rfl, funext fun c => ?_, by rw [hok]; exact (Bool.or_false _).symm, fun c hc _ => rfl, .inl⟩
          cases c <;> [rw [hok]; skip] <;> rfl
  | rtcp =>
      have hsome : t.dtlsRtcp ≠ none := Option.isSome_iff_ne_none.mp (hctx.resolve_left (by decide))
      rw [if_neg (show ¬Component.rtcp = .rtp by decide), if_pos ⟨rfl, hsome⟩]
      cases hok : LiveTransport.keysOk srtpCreate call with
      | true =>
          rw [if_pos rfl]
          refine ⟨rfl, rfl, rfl, funext fun c => ?_, by rw [hok]; exact (Bool.or_true _).symm, fun c hc _ => ?_, .inl⟩
          · cases c <;> [skip; rw [hok]] <;> rfl
          · cases c <;> [rfl; exact absurd rfl hc]
      | false =>
          rw [if_neg (by decide)]
          refine Completes.updateTransportState ?_ (by decide)
          refine ⟨rfl, rfl, rfl, funext fun c => ?_, by rw [hok]; exact (Bool.or_false _).symm, fun c hc _ => rfl, .inl⟩
          cases c <;> [skip; rw [hok]] <;> rfl

theorem handshakeCompleted_keys {ssl : Ssl} {call : HandshakeCompleted} (h : handshakeCompleted ssl = .ok (some call)) :
    call.clientKey = base64 ssl.getSrtpSessionKeys.1 ∧ call.serverKey = base64 ssl.getSrtpSessionKeys.2 := by
  unfold handshakeCompleted at h
  split at h
  · cases h
  · dsimp only at h
    split at h <;> cases h
    exact ⟨rfl, rfl⟩

/-- What an iteration of a handshake comes to. -/
inductive Iterates (srtpCreate : AString → Bool) (ctx : Component) (sslerr : SslError) (ssl : Ssl) (t t' : DtlsTransport) :
    Prop
  | keeps (hkeep : KeepsChannels t t')
  | completes (hfirst : t.isCompleted ctx = false) (hsslerr : sslerr = .none) {call : HandshakeCompleted}
      (hcall : handshakeCompleted ssl = .ok (some call)) (hdone : (t.setCompleted ctx).isCompleted ctx = true)
      (hrun : Completes srtpCreate ctx call (t.setCompleted ctx) t')

theorem isCompleted_setCompleted (hctx : t.HasContext ctx) : (t.setCompleted ctx).isCompleted ctx = true := by
  cases ctx with
  | rtp => rfl
  | rtcp =>
      obtain ⟨completed, hsome⟩ := Option.isSome_iff_exists.mp (hctx.resolve_left (by decide))
      simp [DtlsTransport.setCompleted, DtlsTransport.isCompleted, hsome]

theorem iterates_of_step {sslerr : SslError} {ssl : Ssl} {calls : List HandshakeCompleted} (hctx : t.HasContext ctx)
    (hstep : t.doHandshakeIteration srtpCreate ctx sslerr ssl = .ok (t', calls)) :
    Iterates srtpCreate ctx sslerr ssl t t' := by
  unfold DtlsTransport.doHandshakeIteration at hstep
  split_ifs at hstep with hcompleted
  · cases hstep
    exact .keeps (.refl t)
  · cases sslerr with
    | wantRead =>
        cases hstep
        exact .keeps (.refl t)
    | other =>
        cases hstep
        exact .keeps (keepsChannels_onHandshakeFailed t)
    | none =>
        dsimp only at hstep
        cases hcall : handshakeCompleted ssl with
        | error fault =>
            rw [hcall] at hstep
            cases hstep
        | ok call =>
            rw [hcall, Checked.ok_bind] at hstep
            cases call with
            | none =>
                cases hstep
                exact .keeps (keepsChannels_setCompleted t ctx)
            | some call =>
                obtain rfl : (t.setCompleted ctx).onHandshakeCompleted srtpCreate ctx call = t' :=
                  congrArg Prod.fst (Except.ok.inj hstep)
                have hcontext : (t.setCompleted ctx).HasContext ctx := by
                  rw [DtlsTransport.HasContext, (keepsChannels_setCompleted t ctx).context]
                  exact hctx
                exact .completes (Bool.eq_false_iff.mpr hcompleted) rfl hcall (isCompleted_setCompleted hctx)
                  (completes_onHandshakeCompleted srtpCreate _ ctx hcontext call)

/-- The channel that a completion makes has the keys of the session. -/
theorem ChannelOk.complete {ssl : Ssl} {call : HandshakeCompleted} (h : ChannelOk P t) (hssl : P ctx ssl)
    (hcontext : t.HasContext ctx) (hcall : handshakeCompleted ssl = .ok (some call)) (hdone : t.isCompleted ctx = true)
    (hnone : t.channel ctx = none) (hrun : Completes srtpCreate ctx call t t') : ChannelOk P t' := by
  obtain ⟨hclient, hserverKey⟩ := handshakeCompleted_keys hcall
  have hbefore : t.isReady ctx = false := by
    by_contra hready
    obtain ⟨channel, hchannel, -⟩ := h.active ctx hcontext (by simpa using hready)
    rw [hnone] at hchannel
    cases hchannel
  refine ⟨fun c hc => ?_, fun c channel hc => ?_, fun c hhas hready => ?_, fun hready => ?_⟩
  · rw [hrun.completed]
    by_cases heq : c = ctx
    · rw [heq]
      exact hdone
    · rw [hrun.channel, Function.update_of_ne heq] at hc
      exact h.completed c hc
  · rw [hrun.isServer]
    by_cases heq : c = ctx
    · subst heq
      rw [hrun.channel, Function.update_self, Option.some_inj] at hc
      refine ⟨ssl, hssl, ?_⟩
      rw [← hc, hclient, hserverKey, receivingKey, sendingKey, sendingKey]
      cases t.isServer <;> exact ⟨rfl, rfl⟩
    · rw [hrun.channel, Function.update_of_ne heq] at hc
      exact h.keys c channel hc
  · rw [DtlsTransport.HasContext, hrun.context] at hhas
    rw [hrun.channel]
    by_cases heq : c = ctx
    · subst heq
      rw [hrun.own, hbefore, Bool.false_or] at hready
      exact ⟨_, Function.update_self .., hready⟩
    · rw [hrun.other c heq hhas] at hready
      rw [Function.update_of_ne heq]
      exact h.active c hhas hready
  · refine (hrun.state hready).resolve_left fun hstate => ?_
    rw [h.ready hstate ctx] at hbefore
    cases hbefore

theorem ChannelOk.channel_eq_none (h : ChannelOk P t) (hfirst : t.isCompleted ctx = false) : t.channel ctx = none := by
  cases hchannel : t.channel ctx with
  | none => rfl
  | some channel =>
      have hcompleted := h.completed ctx (by rw [hchannel]; rfl)
      rw [hfirst] at hcompleted
      cases hcompleted

theorem ChannelOk.handshake {sslerr : SslError} {ssl : Ssl} (h : ChannelOk P t) (hcontext : t.HasContext ctx)
    (hssl : sslerr = .none → P ctx ssl) (hrun : Iterates srtpCreate ctx sslerr ssl t t') : ChannelOk P t' := by
  cases hrun with
  | keeps hkeep => exact h.keep hkeep
  | completes hfirst hsslerr hcall hdone hrun =>
      have hkeep := keepsChannels_setCompleted t ctx
      refine (h.keep hkeep).complete (hssl hsslerr) ?_ hcall hdone ?_ hrun
      · rw [DtlsTransport.HasContext, hkeep.context]
        exact hcontext
      · rw [hkeep.channel]
        exact h.channel_eq_none hfirst

/-- What a handshake leaves alone. -/
theorem Iterates.frame {sslerr : SslError} {ssl : Ssl} (hrun : Iterates srtpCreate ctx sslerr ssl t t') :
    t'.isServer = t.isServer ∧ t'.dtlsRtcp.isSome = t.dtlsRtcp.isSome := by
  cases hrun with
  | keeps hkeep => exact ⟨hkeep.isServer, hkeep.context⟩
  | completes hfirst hsslerr hcall hdone hrun =>
      have hkeep := keepsChannels_setCompleted t ctx
      exact ⟨hrun.isServer.trans hkeep.isServer, hrun.context.trans hkeep.context⟩

/-- A channel that is there stays. -/
theorem ChannelOk.keeps_channel {sslerr : SslError} {ssl : Ssl} (h : ChannelOk P t)
    (hrun : Iterates srtpCreate ctx sslerr ssl t t') {c : Component} {channel : SrtpChannel}
    (hchannel : t.channel c = some channel) : t'.channel c = some channel := by
  cases hrun with
  | keeps hkeep =>
      rw [hkeep.channel]
      exact hchannel
  | completes hfirst hsslerr hcall hdone hrun =>
      have hne : c ≠ ctx := by
        rintro rfl
        rw [h.channel_eq_none hfirst] at hchannel
        cases hchannel
      rw [hrun.channel, Function.update_of_ne hne, (keepsChannels_setCompleted t ctx).channel]
      exact hchannel

/-- Only the completion for a context makes its channel. -/
theorem Iterates.channel_eq {sslerr : SslError} {ssl : Ssl} (hrun : Iterates srtpCreate ctx sslerr ssl t t')
    {c : Component} (hc : c = ctx → sslerr ≠ .none) : t'.channel c = t.channel c := by
  cases hrun with
  | keeps hkeep => rw [hkeep.channel]
  | completes hfirst hsslerr hcall hdone hrun =>
      rw [hrun.channel, Function.update_of_ne fun heq => hc heq hsslerr, (keepsChannels_setCompleted t ctx).channel]

end Channels

/-! ### What a step does -/

namespace MediaTransport

/-- The steps, with what is known of the callbacks in them. -/
inductive Moves (srtpCreate : AString → Bool) (m : MediaTransport) : Event → MediaTransport → Prop
  | live {event : LiveTransport.Event} {live : LiveTransport} (hkeep : KeepsChannels m.live.transport live.transport) :
      Moves srtpCreate m (.live event) { m with live := live }
  | iceState {state : IceState} (hup : m.iceState.toNat < state.toNat) :
      Moves srtpCreate m (.iceState state) { m with iceState := state }
  | handshake {ctx : Component} {sslerr : SslError} {ssl : Ssl} {t : DtlsTransport}
      (hcontext : m.live.transport.HasContext ctx) (hrun : Iterates srtpCreate ctx sslerr ssl m.live.transport t) :
      Moves srtpCreate m (.handshake ctx sslerr ssl) { m with live := { m.live with transport := t } }
  | write {data : List UInt8} (hwriter : m.writer = .idle) : Moves srtpCreate m (.write data) { m with
      writer := .loaded (m.live.transport.srtp.map fun _ => .rtp) data
      written := m.written ++ [data] }
  | testState {srtp : Option Component} {data : List UInt8} (hwriter : m.writer = .loaded srtp data) :
      Moves srtpCreate m .testState { m with writer := choose m.live.transport srtp data }
  | protect {srtp : Option Component} {comp : Component} {data : List UInt8} {ok : Bool}
      (hwriter : m.writer = .chosen srtp comp data) :
      Moves srtpCreate m (.protect ok) { m with writer := m.protectData srtp comp data ok }
  | send {comp : Component} {out : NiceData} (hwriter : m.writer = .prepared comp out) : Moves srtpCreate m .send { m with
      writer := .idle
      sent := if out.length > 10 ∧ m.iceState = .ready then m.sent ++ [(comp, out)] else m.sent }
  | receive {comp : Component} {packet : NiceData} {ok : Bool} : Moves srtpCreate m (.receive comp packet ok) { m with
      delivered := m.delivered ++ (m.live.transport.onNiceData comp packet ok).toList }

section Steps

variable {P : Component → Ssl → Prop} {srtpCreate : AString → Bool} {m m' : MediaTransport} {event : Event}

theorem Step.moves (h : Step srtpCreate m event m') : Moves srtpCreate m event m' := by
  unfold Step tryNext at h
  cases event with
  | live event =>
      dsimp only at h
      split_ifs at h with hevent
      obtain ⟨live, hlive, rfl⟩ := Option.map_eq_some_iff.mp h
      exact .live (keepsChannels_live (Bool.eq_false_iff.mpr hevent) hlive)
  | iceState state =>
      dsimp only at h
      split_ifs at h with hup
      cases h
      exact .iceState hup
  | handshake ctx sslerr ssl =>
      dsimp only at h
      split_ifs at h with hcontext
      split at h <;> cases h
      exact .handshake hcontext (iterates_of_step hcontext ‹_›)
  | write data =>
      dsimp only at h
      split at h <;> cases h
      exact .write ‹_›
  | testState =>
      dsimp only at h
      split at h <;> cases h
      exact .testState ‹_›
  | protect ok =>
      dsimp only at h
      split at h <;> cases h
      exact .protect ‹_›
  | send =>
      dsimp only at h
      split at h <;> cases h
      exact .send ‹_›
  | receive comp packet ok =>
      dsimp only at h
      split_ifs at h
      cases h
      exact .receive

/-- A packet that `write` was called with, for its component, as it is or protected with this end's key of that
component. -/
def Ours (P : Component → Ssl → Prop) (m : MediaTransport) (comp : Component) (out : NiceData) : Prop :=
  ∃ data ∈ m.written, comp = m.live.transport.componentOf data ∧ (out = .plain data
    ∨ ∃ ssl, P comp ssl ∧ out = .srtp (sendingKey m.live.transport.isServer ssl) data)

/-- What every run keeps. -/
structure Inv (P : Component → Ssl → Prop) (m : MediaTransport) : Prop where
  channel : ChannelOk P m.live.transport
  loaded : ∀ srtp data, m.writer = .loaded srtp data → data ∈ m.written ∧ (srtp = none ∨ srtp = some .rtp)
  chosen : ∀ srtp comp data, m.writer = .chosen srtp comp data → data ∈ m.written
    ∧ comp = m.live.transport.componentOf data
    ∧ (srtp = none ∨ srtp = some comp ∧ ∃ channel, m.live.transport.channel comp = some channel ∧ channel.active = true)
  prepared : ∀ comp out, m.writer = .prepared comp out → Ours P m comp out
  sent : ∀ packet ∈ m.sent, Ours P m packet.1 packet.2

theorem inv_create (P : Component → Ssl → Prop) (isServer rtcpMux : Bool) : Inv P (create isServer rtcpMux) where
  channel := by
    refine ⟨fun ctx h => ?_, fun ctx channel h => ?_, fun ctx _ h => ?_, fun h => by cases h⟩ <;> cases ctx <;> cases h
  loaded := by simp [create]
  chosen := by simp [create]
  prepared := by simp [create]
  sent := by simp [create]

theorem componentOf_congr {t t' : DtlsTransport} (h : t'.dtlsRtcp.isSome = t.dtlsRtcp.isSome) :
    t'.componentOf = t.componentOf := by
  funext data
  rw [DtlsTransport.componentOf, DtlsTransport.componentOf, h]

theorem hasContext_componentOf (t : DtlsTransport) (data : List UInt8) : t.HasContext (t.componentOf data) := by
  rw [DtlsTransport.componentOf]
  split_ifs with h
  · exact .inr h.2
  · exact .inl rfl

theorem Ours.mono {m m' : MediaTransport} {comp : Component} {out : NiceData} (h : Ours P m comp out)
    (hwritten : ∀ data ∈ m.written, data ∈ m'.written)
    (hserver : m'.live.transport.isServer = m.live.transport.isServer)
    (hcontext : m'.live.transport.dtlsRtcp.isSome = m.live.transport.dtlsRtcp.isSome) : Ours P m' comp out := by
  obtain ⟨data, hdata, hcomp, hout⟩ := h
  rw [← hserver] at hout
  rw [← componentOf_congr hcontext] at hcomp
  exact ⟨data, hwritten data hdata, hcomp, hout⟩

/-- The channel for RTCP is looked up only now; a transport that is ready has it. -/
theorem ChannelOk.choose_eq {t : DtlsTransport} (h : ChannelOk P t) (hready : t.state = .ready)
    (srtp : Option Component) (data : List UInt8) :
    choose t srtp data = .chosen (if t.componentOf data = .rtcp then some .rtcp else srtp) (t.componentOf data) data := by
  rw [choose, if_pos hready, DtlsTransport.componentOf]
  cases hrtcp : isRtcp data with
  | false => simp
  | true =>
      cases hcontext : t.dtlsRtcp.isSome with
      | false => simp
      | true =>
          obtain ⟨channel, hchannel, -⟩ := h.active_of_ready hready .rtcp (.inr hcontext)
          rw [show t.srtcp = some channel from hchannel]
          simp

/-- What the first look at the agent leads to. -/
theorem Inv.protectData (h : Inv P m) {srtp : Option Component} {comp : Component} {data : List UInt8}
    (hwriter : m.writer = .chosen srtp comp data) (ok : Bool) :
    m.protectData srtp comp data ok = .idle
      ∨ (m.protectData srtp comp data ok = .prepared comp (.plain data) ∧ (srtp = none ∨ m.iceState ≠ .ready))
      ∨ ∃ ssl, P comp ssl ∧ m.protectData srtp comp data ok
          = .prepared comp (.srtp (sendingKey m.live.transport.isServer ssl) data) := by
  obtain ⟨-, -, rfl | ⟨rfl, channel, hchannel, hactive⟩⟩ := h.chosen srtp comp data hwriter
  · exact .inr (.inl ⟨rfl, .inl rfl⟩)
  · obtain ⟨ssl, hssl, hkey, -⟩ := h.channel.keys comp channel hchannel
    have hbind : (some comp).bind m.live.transport.channel = some channel := hchannel
    unfold MediaTransport.protectData
    rw [hbind]
    dsimp only
    by_cases hice : m.iceState = .ready
    · rw [if_pos hice, SrtpChannel.protectPacket, if_neg (by simp [hactive])]
      cases ok with
      | true => exact .inr (.inr ⟨ssl, hssl, by rw [← hkey]; rfl⟩)
      | false => exact .inl rfl
    · rw [if_neg hice]
      exact .inr (.inl ⟨rfl, .inr hice⟩)

theorem Inv.step (h : Inv P m) (hstep : Step srtpCreate m event m')
    (hssl : ∀ ctx ssl, event = .handshake ctx .none ssl → P ctx ssl) : Inv P m' := by
  cases hstep.moves with
  | live hkeep =>
      refine ⟨h.channel.keep hkeep, h.loaded, fun srtp comp data hwriter => ?_,
        fun comp out hwriter => ?_, fun packet hpacket => ?_⟩
      · rw [hkeep.channel, componentOf_congr hkeep.context]
        exact h.chosen srtp comp data hwriter
      · exact (h.prepared comp out hwriter).mono (fun _ => id) hkeep.isServer hkeep.context
      · exact (h.sent packet hpacket).mono (fun _ => id) hkeep.isServer hkeep.context
  | iceState hup => exact ⟨h.channel, h.loaded, h.chosen, h.prepared, h.sent⟩
  | @handshake ctx sslerr ssl t hcontext hrun =>
      obtain ⟨hserver, hsome⟩ := hrun.frame
      refine ⟨h.channel.handshake hcontext (fun hnone => hssl ctx ssl (by rw [hnone])) hrun, h.loaded,
        fun srtp comp data hwriter => ?_, fun comp out hwriter => ?_, fun packet hpacket => ?_⟩
      · obtain ⟨hdata, hcomp, hcases⟩ := h.chosen srtp comp data hwriter
        rw [componentOf_congr hsome]
        refine ⟨hdata, hcomp, hcases.imp_right fun hchosen => hchosen.imp_right ?_⟩
        rintro ⟨channel, hchannel, hactive⟩
        exact ⟨channel, h.channel.keeps_channel hrun hchannel, hactive⟩
      · exact (h.prepared comp out hwriter).mono (fun _ => id) hserver hsome
      · exact (h.sent packet hpacket).mono (fun _ => id) hserver hsome
  | @write data hwriter =>
      refine ⟨h.channel, fun srtp data' hloaded => ?_, by simp, by simp, fun packet hpacket => ?_⟩
      · cases hloaded
        refine ⟨List.mem_append_right _ (List.mem_singleton_self data), ?_⟩
        cases m.live.transport.srtp with
        | none => exact .inl rfl
        | some channel => exact .inr rfl
      · exact (h.sent packet hpacket).mono (fun _ => List.mem_append_left _) rfl rfl
  | @testState srtp data hwriter =>
      obtain ⟨hdata, hcases⟩ := h.loaded srtp data hwriter
      by_cases hready : m.live.transport.state = .ready
      · have hactive := h.channel.active_of_ready hready _ (hasContext_componentOf m.live.transport data)
        rw [ChannelOk.choose_eq h.channel hready]
        refine ⟨h.channel, by simp, fun srtp' comp data' hchosen => ?_, by simp, h.sent⟩
        cases hchosen
        refine ⟨hdata, rfl, ?_⟩
        cases hcomp : m.live.transport.componentOf data with
        | rtcp => exact .inr ⟨rfl, hcomp ▸ hactive⟩
        | rtp => exact hcases.imp_right fun hsome => ⟨hsome, hcomp ▸ hactive⟩
      · have hidle : choose m.live.transport srtp data = .idle := if_neg hready
        rw [hidle]
        exact ⟨h.channel, by simp, by simp, by simp, h.sent⟩
  | @protect srtp comp data ok hwriter =>
      obtain ⟨hdata, hcomp, -⟩ := h.chosen srtp comp data hwriter
      refine ⟨h.channel, fun srtp' data' hloaded => ?_, fun srtp' comp' data' hchosen => ?_, fun comp' out hprepared => ?_,
        h.sent⟩
      · dsimp only at hloaded
        obtain heq | ⟨heq, -⟩ | ⟨ssl, -, heq⟩ := h.protectData hwriter ok <;> rw [heq] at hloaded <;> cases hloaded
      · dsimp only at hchosen
        obtain heq | ⟨heq, -⟩ | ⟨ssl, -, heq⟩ := h.protectData hwriter ok <;> rw [heq] at hchosen <;> cases hchosen
      · dsimp only at hprepared
        obtain heq | ⟨heq, -⟩ | ⟨ssl, hssl, heq⟩ := h.protectData hwriter ok
        · rw [heq] at hprepared
          cases hprepared
        · rw [heq] at hprepared
          cases hprepared
          exact ⟨data, hdata, hcomp, .inl rfl⟩
        · rw [heq] at hprepared
          cases hprepared
          exact ⟨data, hdata, hcomp, .inr ⟨ssl, hssl, rfl⟩⟩
  | @send comp out hwriter =>
      refine ⟨h.channel, by simp, by simp, by simp, fun packet hpacket => ?_⟩
      dsimp only at hpacket
      split_ifs at hpacket
      · rcases List.mem_append.mp hpacket with hpacket | hpacket
        · exact h.sent packet hpacket
        · rw [List.mem_singleton.mp hpacket]
          exact h.prepared comp out hwriter
      · exact h.sent packet hpacket
  | receive => exact ⟨h.channel, h.loaded, h.chosen, h.prepared, h.sent⟩

theorem Moves.frame (h : Moves srtpCreate m event m') : m'.live.transport.isServer = m.live.transport.isServer
    ∧ m'.live.transport.dtlsRtcp.isSome = m.live.transport.dtlsRtcp.isSome := by
  cases h with
  | live hkeep => exact ⟨hkeep.isServer, hkeep.context⟩
  | handshake hcontext hrun => exact hrun.frame
  | _ => exact ⟨rfl, rfl⟩

/-! ### Nothing goes out as it is -/

/-- The handshake for RTP does not complete between the look at the channel and the look at the state where the first has
found none, and the agent does not become ready between the two looks at it. -/
def Unhurried (m : MediaTransport) : Event → Prop
  | .handshake ctx sslerr _ => ctx = .rtp ∧ sslerr = .none → m.writer.blind = false
  | .iceState state => state = .ready → m.writer.bare = false
  | _ => True

/-- What runs without such a coincidence keep. -/
structure Sealed (m : MediaTransport) : Prop where
  loaded : m.writer.blind = true → m.live.transport.channel .rtp = none
  chosen : ∀ comp data, m.writer ≠ .chosen none comp data
  prepared : m.writer.bare = true → m.iceState ≠ .ready
  sent : ∀ packet ∈ m.sent, ∀ data, packet.2 ≠ .plain data

theorem sealed_create (isServer rtcpMux : Bool) : Sealed (create isServer rtcpMux) :=
  ⟨fun _ => rfl, by simp [create], by simp [create, Writer.bare], by simp [create]⟩

theorem Sealed.step (h : Sealed m) (hinv : Inv P m) (hstep : Step srtpCreate m event m') (hguard : Unhurried m event) :
    Sealed m' := by
  cases hstep.moves with
  | live hkeep =>
      refine ⟨fun hblind => ?_, h.chosen, h.prepared, h.sent⟩
      rw [hkeep.channel]
      exact h.loaded hblind
  | @iceState state hup =>
      refine ⟨h.loaded, h.chosen, fun hbare hready => ?_, h.sent⟩
      have hnot := hguard hready
      rw [show m.writer.bare = true from hbare] at hnot
      cases hnot
  | @handshake ctx sslerr ssl t hcontext hrun =>
      refine ⟨fun hblind => ?_, h.chosen, h.prepared, h.sent⟩
      refine (hrun.channel_eq fun hctx hnone => ?_).trans (h.loaded hblind)
      have hnot := hguard ⟨hctx.symm, hnone⟩
      rw [show m.writer.blind = true from hblind] at hnot
      cases hnot
  | @write data hwriter =>
      refine ⟨fun hblind => ?_, by simp, by simp [Writer.bare], h.sent⟩
      change m.live.transport.srtp = none
      cases hsrtp : m.live.transport.srtp with
      | none => rfl
      | some channel =>
          dsimp only at hblind
          rw [hsrtp] at hblind
          cases hblind
  | @testState srtp data hwriter =>
      by_cases hready : m.live.transport.state = .ready
      · rw [ChannelOk.choose_eq hinv.channel hready]
        refine ⟨by simp [Writer.blind], fun comp data' hchosen => ?_, by simp [Writer.bare], h.sent⟩
        obtain ⟨hnone, -, -⟩ := Writer.chosen.inj hchosen
        have hsrtp : srtp = none := by
          split_ifs at hnone
          exact hnone
        subst hsrtp
        -- the channel would not have been there when the pointer was read, and is now
        obtain ⟨channel, hchannel, -⟩ := hinv.channel.active_of_ready hready .rtp (.inl rfl)
        rw [h.loaded (by rw [hwriter]; rfl)] at hchannel
        cases hchannel
      · have hidle : choose m.live.transport srtp data = .idle := if_neg hready
        rw [hidle]
        exact ⟨by simp [Writer.blind], by simp, by simp [Writer.bare], h.sent⟩
  | @protect srtp comp data ok hwriter =>
      obtain heq | ⟨heq, hcases⟩ | ⟨ssl, -, heq⟩ := hinv.protectData hwriter ok
      · rw [heq]
        exact ⟨by simp [Writer.blind], by simp, by simp [Writer.bare], h.sent⟩
      · rw [heq]
        refine ⟨by simp [Writer.blind], by simp, fun _ => ?_, h.sent⟩
        rcases hcases with rfl | hice
        · exact absurd hwriter (h.chosen comp data)
        · exact hice
      · rw [heq]
        exact ⟨by simp [Writer.blind], by simp, by simp [Writer.bare], h.sent⟩
  | @send comp out hwriter =>
      refine ⟨by simp [Writer.blind], by simp, by simp [Writer.bare], fun packet hpacket => ?_⟩
      dsimp only at hpacket
      split_ifs at hpacket with hgoes
      · rcases List.mem_append.mp hpacket with hpacket | hpacket
        · exact h.sent packet hpacket
        · rw [List.mem_singleton.mp hpacket]
          rintro data rfl
          exact h.prepared (by rw [hwriter]; rfl) hgoes.2
      · exact h.sent packet hpacket
  | receive => exact ⟨h.loaded, h.chosen, h.prepared, h.sent⟩

end Steps

/-- What the states of such a run with these events have in common. -/
structure SealedRun (events : List Event) (isServer rtcpMux : Bool) (m : MediaTransport) : Prop where
  inv : Inv (fun ctx ssl => .handshake ctx .none ssl ∈ events) m
  safe : Sealed m
  isServer : m.live.transport.isServer = isServer
  context : m.live.transport.dtlsRtcp.isSome = !rtcpMux

/-- **Media is protected.** In every run in which no call of `write` is overtaken by the end of the handshake or by the
agent, whatever goes out is a packet that `write` was called with; it goes to the second component if and only if it is
RTCP that is not multiplexed, and it is under the sending key of the handshake that has completed for its component. -/
theorem media_protected {srtpCreate : AString → Bool} {isServer rtcpMux : Bool} {events : List Event} {m : MediaTransport}
    (hrun : Run (Guarded Unhurried (Step srtpCreate)) (create isServer rtcpMux) events m) :
    ∀ packet ∈ m.sent, ∃ ssl data, .handshake packet.1 .none ssl ∈ events ∧ data ∈ m.written
      ∧ packet.1 = (if isRtcp data = true ∧ rtcpMux = false then .rtcp else .rtp)
      ∧ packet.2 = .srtp (sendingKey isServer ssl) data := by
  have hstart : SealedRun events isServer rtcpMux (create isServer rtcpMux) := by
    refine ⟨inv_create _ isServer rtcpMux, sealed_create isServer rtcpMux, rfl, ?_⟩
    cases rtcpMux <;> rfl
  have hboth : SealedRun events isServer rtcpMux m := by
    refine hrun.invariant_of_mem hstart ?_
    rintro s event s' hmem ⟨hinv, hsealed, hserver, hcontext⟩ ⟨hguard, hstep⟩
    obtain ⟨hserver', hcontext'⟩ := hstep.moves.frame
    exact ⟨hinv.step hstep fun ctx ssl heq => heq ▸ hmem, hsealed.step hinv hstep hguard, hserver'.trans hserver,
      hcontext'.trans hcontext⟩
  obtain ⟨hinv, hsealed, hserver, hcontext⟩ := hboth
  intro packet hpacket
  obtain ⟨data, hdata, hcomp, hplain | ⟨ssl, hssl, hout⟩⟩ := hinv.sent packet hpacket
  · exact absurd hplain (hsealed.sent packet hpacket data)
  · rw [hserver] at hout
    simp only [DtlsTransport.componentOf, hcontext, Bool.not_eq_true'] at hcomp
    exact ⟨ssl, data, hssl, hdata, hcomp, hout⟩

instance (m : MediaTransport) : ∀ event, Decidable (Unhurried m event)
  | .handshake _ _ _ | .iceState _ => inferInstanceAs (Decidable (_ → _))
  | .live _ | .write _ | .testState | .protect _ | .send | .receive _ _ _ => inferInstanceAs (Decidable True)

/-- A session with different keys for the two directions. -/
def callSsl : Ssl :=
  ⟨some (Vector.replicate 32 7), some (Vector.ofFn fun i => UInt8.ofNat i), some (ascii "SRTP_AES128_CM_SHA1_80")⟩

def callPacket : List UInt8 := [0x80, 100, 0, 1, 0, 0, 0, 0, 0, 0, 0, 9, 5]

/-- A receiver report. -/
def callReport : List UInt8 := [0x80, 201, 0, 1, 0, 0, 0, 9, 0, 0, 0, 0, 0]

/-- The agent becomes ready, the handshake completes, and a packet is written. -/
def callEvents : List Event :=
  [.iceState .ready, .handshake .rtp .none callSsl, .write callPacket, .testState, .protect true, .send]

/-- RTCP has a handshake of its own. -/
def reportEvents : List Event :=
  [.iceState .ready, .handshake .rtp .none callSsl, .handshake .rtcp .none callSsl, .write callReport, .testState,
    .protect true, .send]

theorem media_protected_call : ∃ m : MediaTransport, m.sent = [(.rtcp, .srtp (sendingKey false callSsl) callReport)]
    ∧ ∀ packet ∈ m.sent, ∃ ssl data, .handshake packet.1 .none ssl ∈ reportEvents ∧ data ∈ m.written
      ∧ packet.1 = (if isRtcp data = true ∧ false = false then .rtcp else .rtp)
      ∧ packet.2 = .srtp (sendingKey false ssl) data := by
  have hrun : ∃ m, reportEvents.foldlM (fun m event =>
      if Unhurried m event then m.tryNext (fun _ => true) event else none) (create false false) = some m
      ∧ m.sent = [(.rtcp, .srtp (sendingKey false callSsl) callReport)] := ⟨_, rfl, rfl⟩
  obtain ⟨m, hrun, hsent⟩ := hrun
  exact ⟨m, hsent, media_protected (Run.guarded_of_foldlM hrun)⟩

/-- The handshake completes after the look at the channel, and the packet goes out as it is. -/
theorem write_in_the_clear : ∃ events m, Run (Step fun _ => true) (create false true) events m
    ∧ m.sent = [(.rtp, .plain callPacket)] := by
  have hrun : ∃ m, ([.iceState .ready, .write callPacket, .handshake .rtp .none callSsl, .testState, .protect true, .send] :
      List Event).foldlM (tryNext fun _ => true) (create false true) = some m
      ∧ m.sent = [(.rtp, .plain callPacket)] := ⟨_, rfl, rfl⟩
  obtain ⟨m, hrun, hsent⟩ := hrun
  exact ⟨_, m, Run.of_foldlM hrun, hsent⟩

end MediaTransport

end Licode.Media
