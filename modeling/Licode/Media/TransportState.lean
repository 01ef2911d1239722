import Licode.Media.Dtls
import Licode.Media.NiceConnection

/-!
# End states of a transport

`updateTransportState` only asks whether the state is another one, and four sources call it: the
thread of the ICE agent, the thread that reads packets, the timers of the two `Resender`s, and the
owner who closes the transport. `close` takes the agent's listener away and sets the state without a
word to the transport's own listener. It does not cancel the timers, and a handshake that is being
iterated goes on: both bring a closed transport back to life, and a failed one too.

Each callback is one step. What OpenSSL makes of a packet is told by the callbacks that follow.
-/

namespace Licode.Media

/-- `armed` says that the timer has a wait whose handler has not run. -/
structure Resender where
  maxResends : UInt32
  armed : Bool
  deriving DecidableEq

/-- A `DtlsTransport` with what decides about the callbacks it gets: whether it is the listener of its
`NiceConnection`, whether the client side of a handshake has been started, and the timers. -/
structure LiveTransport where
  transport : DtlsTransport
  niceListener : Bool
  started : Component → Bool
  resender : Component → Resender

namespace LiveTransport

/-- `kMaxResends`. -/
def maxResends : UInt32 := 5

def create (isServer rtcpMux : Bool) : LiveTransport where
  transport := .create isServer rtcpMux
  niceListener := true
  started := fun _ => false
  resender := fun _ => ⟨maxResends, false⟩

/-- `DtlsTransport::updateIceState`, where there is a listener to be called. -/
def updateIceState (l : LiveTransport) (state : IceState) : LiveTransport :=
  if l.niceListener = false then l
  else
    let t := l.transport
    if state = .initial ∧ t.state ≠ .started then
      { l with transport := t.updateTransportState .started }
    else if state = .candidatesReceived ∧ t.state ≠ .gathered then
      { l with transport := t.updateTransportState .gathered }
    else if state = .failed then
      { l with transport := { t with running := false }.updateTransportState .failed }
    else if state = .ready then
      { l with started := fun ctx =>
          l.started ctx || (!t.isServer && (ctx = .rtp || t.dtlsRtcp.isSome)) }
    else l

/-- `Resender::ScheduleResend`, which a packet of the handshake leads to. -/
def scheduleResend (l : LiveTransport) (ctx : Component) : LiveTransport :=
  { l with resender := Function.update l.resender ctx { l.resender ctx with armed := true } }

/-- `Resender::Cancel`. A wait that is over when it is cancelled has its handler run all the same. -/
def cancel (l : LiveTransport) (ctx : Component) (late : Bool) : LiveTransport :=
  { l with
    resender := Function.update l.resender ctx
      { l.resender ctx with armed := (l.resender ctx).armed && late } }

/-- `Resender::Resend`. The counter goes below 0 when the transport is told. -/
def resend (l : LiveTransport) (ctx : Component) : LiveTransport :=
  let r := l.resender ctx
  if r.maxResends > 0 then
    { l with resender := Function.update l.resender ctx ⟨r.maxResends - 1, true⟩ }
  else
    { l with
      resender := Function.update l.resender ctx ⟨r.maxResends - 1, false⟩
      transport := l.transport.onHandshakeFailed }

def close (l : LiveTransport) : LiveTransport :=
  { l with
    transport := { l.transport with running := false, state := .finished }
    niceListener := false }

inductive Event where
  | updateIceState (state : IceState)
  | onDtlsPacket (ctx : Component)
  | cancel (ctx : Component) (late : Bool)
  | onHandshakeCompleted (ctx : Component) (call : HandshakeCompleted)
  | onHandshakeFailed (ctx : Component)
  | resend (ctx : Component)
  | close

/-- There is a context for RTCP where it is not multiplexed, and a handler runs after its wait. -/
def Enabled (l : LiveTransport) : Event → Prop
  | .updateIceState _ | .close => True
  | .onDtlsPacket ctx | .cancel ctx _ | .onHandshakeCompleted ctx _ | .onHandshakeFailed ctx =>
      ctx = .rtp ∨ l.transport.dtlsRtcp.isSome = true
  | .resend ctx => (l.resender ctx).armed = true

variable (srtpCreate : AString → Bool)

def next (l : LiveTransport) : Event → LiveTransport
  | .updateIceState state => l.updateIceState state
  | .onDtlsPacket ctx => l.scheduleResend ctx
  | .cancel ctx late => l.cancel ctx late
  | .onHandshakeCompleted ctx call =>
      { l with transport := l.transport.onHandshakeCompleted srtpCreate ctx call }
  | .onHandshakeFailed _ => { l with transport := l.transport.onHandshakeFailed }
  | .resend ctx => l.resend ctx
  | .close => l.close

instance (l : LiveTransport) : ∀ event, Decidable (Enabled l event)
  | .updateIceState _ | .close => inferInstanceAs (Decidable True)
  | .onDtlsPacket _ | .cancel _ _ | .onHandshakeCompleted _ _ | .onHandshakeFailed _ =>
      inferInstanceAs (Decidable (_ ∨ _))
  | .resend _ => inferInstanceAs (Decidable (_ = _))

def tryNext (l : LiveTransport) (event : Event) : Option LiveTransport :=
  if Enabled l event then some (l.next srtpCreate event) else none

def Step (l : LiveTransport) (event : Event) (l' : LiveTransport) : Prop :=
  l.tryNext srtpCreate event = some l'

/-- `SrtpChannel::setRtpParams` accepts the keys. -/
def keysOk (call : HandshakeCompleted) : Bool :=
  srtpCreate call.clientKey && srtpCreate call.serverKey

/-- Both contexts are ready once this one has completed, with its keys accepted or not. -/
def bothReady (t : DtlsTransport) (ctx : Component) (ok : Bool) : Bool :=
  (t.readyRtp || (ctx = .rtp && ok))
    && (t.readyRtcp || (ctx = .rtp && t.dtlsRtcp.isNone)
      || (ctx = .rtcp && t.dtlsRtcp.isSome && ok))

/-- No handshake comes to its end on a closed transport, unless the other context is still to
complete, and no timer runs out. On a failed transport no handshake makes both contexts ready, and the
agent does not begin again. -/
def EndGuard (l : LiveTransport) : Event → Prop
  | .updateIceState state => l.transport.state = .failed → l.niceListener = true →
      state ≠ .initial ∧ state ≠ .candidatesReceived
  | .onHandshakeCompleted ctx call =>
      (l.transport.state = .finished → keysOk srtpCreate call = true)
        ∧ (l.transport.state = .finished ∨ l.transport.state = .failed →
          bothReady l.transport ctx (keysOk srtpCreate call) = false)
  | .onHandshakeFailed _ => l.transport.state ≠ .finished
  | .resend ctx => l.transport.state = .finished → (l.resender ctx).maxResends > 0
  | .onDtlsPacket _ | .cancel _ _ | .close => True

/-- What a step may do to an end state. -/
def KeepsEnd (l l' : LiveTransport) : Prop :=
  (l.transport.state = .finished →
      l'.transport.state = .finished ∧ l'.transport.updates = l.transport.updates)
    ∧ (l.transport.state = .failed → l'.transport.state = .failed ∨ l'.transport.state = .finished)

/-! ### What the callbacks do to the state -/

section Callbacks

variable {srtpCreate} {l : LiveTransport}

@[simp]
theorem state_updateTransportState (t : DtlsTransport) (state : TransportState) :
    (t.updateTransportState state).state = state := by
  unfold DtlsTransport.updateTransportState
  split_ifs with heq
  · exact heq.symm
  · rfl

@[simp]
theorem readyRtp_updateTransportState (t : DtlsTransport) (state : TransportState) :
    (t.updateTransportState state).readyRtp = t.readyRtp := by
  unfold DtlsTransport.updateTransportState
  split_ifs <;> rfl

@[simp]
theorem readyRtcp_updateTransportState (t : DtlsTransport) (state : TransportState) :
    (t.updateTransportState state).readyRtcp = t.readyRtcp := by
  unfold DtlsTransport.updateTransportState
  split_ifs <;> rfl

@[simp]
theorem dtlsRtcp_updateTransportState (t : DtlsTransport) (state : TransportState) :
    (t.updateTransportState state).dtlsRtcp = t.dtlsRtcp := by
  unfold DtlsTransport.updateTransportState
  split_ifs <;> rfl

/-- Which of the two keys is for sending does not matter for whether they are good. -/
theorem setRtpParams_keys (srtpCreate : AString → Bool) (t : DtlsTransport) (call : HandshakeCompleted) :
    (DtlsTransport.setRtpParams srtpCreate
        (if t.isServer then (call.serverKey, call.clientKey) else (call.clientKey, call.serverKey)).1
        (if t.isServer then (call.serverKey, call.clientKey) else (call.clientKey, call.serverKey)).2).1
      = keysOk srtpCreate call := by
  unfold DtlsTransport.setRtpParams keysOk
  cases t.isServer with
  | false => rfl
  | true => exact Bool.and_comm _ _

/-- The handshake of a context that is there, up to the last question whether both are ready: without
good keys the transport has failed. -/
theorem onHandshakeCompleted_cases (srtpCreate : AString → Bool) (t : DtlsTransport) {ctx : Component}
    (hctx : ctx = .rtp ∨ t.dtlsRtcp.isSome = true) (call : HandshakeCompleted) :
    ∃ t₁ : DtlsTransport, t.onHandshakeCompleted srtpCreate ctx call
        = (if t₁.readyRtp ∧ t₁.readyRtcp then t₁.updateTransportState .ready else t₁)
      ∧ (t₁.readyRtp && t₁.readyRtcp) = bothReady t ctx (keysOk srtpCreate call)
      ∧ t₁.state = (if keysOk srtpCreate call then t.state else .failed)
      ∧ (keysOk srtpCreate call = true → t₁.updates = t.updates) := by
  have hok := setRtpParams_keys srtpCreate t call
  unfold DtlsTransport.onHandshakeCompleted
  dsimp only
  generalize (if t.isServer then (call.serverKey, call.clientKey)
    else (call.clientKey, call.serverKey)) = keys at hok ⊢
  refine ⟨_, rfl, ?_⟩
  cases ctx with
  | rtp =>
      rw [if_pos rfl, if_neg (by simp), hok]
      cases keysOk srtpCreate call <;> cases hrtcp : t.dtlsRtcp <;> simp [bothReady, hrtcp]
  | rtcp =>
      cases hrtcp : t.dtlsRtcp with
      | none =>
          rw [hrtcp] at hctx
          rcases hctx with h | h <;> cases h
      | some completed =>
          simp only [reduceCtorEq, if_false, hrtcp, ne_eq, not_false_eq_true, and_self, if_true, hok]
          cases keysOk srtpCreate call <;> simp [bothReady, hrtcp]

/-- The listener of a closed transport has been taken from the agent. -/
def Inv (l : LiveTransport) : Prop := l.transport.state = .finished → l.niceListener = false

/-- Where the transport is in no end state there is nothing to keep. -/
theorem keepsEnd_of_ne {l' : LiveTransport} (hfinished : l.transport.state ≠ .finished)
    (hfailed : l.transport.state ≠ .failed) : KeepsEnd l l' :=
  ⟨fun h => absurd h hfinished, fun h => absurd h hfailed⟩

theorem keepsEnd_refl (l : LiveTransport) : KeepsEnd l l := ⟨fun h => ⟨h, rfl⟩, .inl⟩

theorem keepsEnd_updateIceState (h : Inv l) (state : IceState) :
    KeepsEnd l (l.updateIceState state) ↔ EndGuard srtpCreate l (.updateIceState state) := by
  cases hlistener : l.niceListener with
  | false =>
      rw [updateIceState, if_pos hlistener]
      exact ⟨fun _ _ htrue => absurd htrue (by simp [hlistener]), fun _ => keepsEnd_refl l⟩
  | true =>
      have hfinished : l.transport.state ≠ .finished := by
        intro hfinished
        rw [h hfinished] at hlistener
        cases hlistener
      by_cases hfailed : l.transport.state = .failed
      · cases state with
        | initial | candidatesReceived =>
            simp [updateIceState, KeepsEnd, EndGuard, hlistener, hfailed]
        | ready | finished | failed =>
            simp [updateIceState, KeepsEnd, EndGuard, hlistener, hfailed]
      · exact ⟨fun _ h => absurd h hfailed, fun _ => keepsEnd_of_ne hfinished hfailed⟩

theorem keepsEnd_onHandshakeCompleted {ctx : Component} {call : HandshakeCompleted}
    (henabled : Enabled l (.onHandshakeCompleted ctx call)) :
    KeepsEnd l (l.next srtpCreate (.onHandshakeCompleted ctx call))
      ↔ EndGuard srtpCreate l (.onHandshakeCompleted ctx call) := by
  obtain ⟨t₁, heq, hready, hstate, hupdates⟩ :=
    onHandshakeCompleted_cases srtpCreate l.transport henabled call
  have hnext : (l.next srtpCreate (.onHandshakeCompleted ctx call)).transport
      = if t₁.readyRtp ∧ t₁.readyRtcp then t₁.updateTransportState .ready else t₁ := heq
  rw [KeepsEnd, EndGuard, hnext, ← hready]
  cases hboth : t₁.readyRtp && t₁.readyRtcp with
  | true =>
      rw [Bool.and_eq_true] at hboth
      rw [if_pos hboth]
      constructor
      · rintro ⟨hfinished, hfailed⟩
        refine ⟨fun h => ?_, fun h => ?_⟩
        · have hbad := (hfinished h).1
          simp at hbad
        · rcases h with h | h
          · have hbad := (hfinished h).1
            simp at hbad
          · have hbad := hfailed h
            simp at hbad
      · rintro ⟨-, hnot⟩
        refine ⟨fun h => ?_, fun h => ?_⟩
        · cases hnot (.inl h)
        · cases hnot (.inr h)
  | false =>
      have hneither : ¬ (t₁.readyRtp = true ∧ t₁.readyRtcp = true) := by
        rw [← Bool.and_eq_true, hboth]
        simp
      rw [if_neg hneither, hstate]
      constructor
      · rintro ⟨hfinished, -⟩
        refine ⟨fun h => ?_, fun _ => rfl⟩
        have hkept := (hfinished h).1
        split_ifs at hkept with hok
        exact hok
      · rintro ⟨hok, -⟩
        refine ⟨fun h => ?_, fun h => .inl ?_⟩
        · rw [if_pos (hok h)]
          exact ⟨h, hupdates (hok h)⟩
        · rw [h, ite_self]

theorem keepsEnd_onHandshakeFailed {l' : LiveTransport}
    (hl' : l'.transport = l.transport.onHandshakeFailed) :
    KeepsEnd l l' ↔ l.transport.state ≠ .finished := by
  have hstate : l'.transport.state = .failed := by
    rw [hl']
    exact state_updateTransportState _ _
  unfold KeepsEnd
  rw [hstate]
  refine ⟨fun h hfinished => ?_, fun h => ⟨fun hfinished => absurd hfinished h, fun _ => .inl rfl⟩⟩
  cases (h.1 hfinished).1

/-- A step meets the condition exactly when it leaves an end state as it should. -/
theorem keepsEnd_iff (h : Inv l) {event : Event} (henabled : Enabled l event) :
    KeepsEnd l (l.next srtpCreate event) ↔ EndGuard srtpCreate l event := by
  cases event with
  | updateIceState state => exact keepsEnd_updateIceState h state
  | onDtlsPacket ctx => exact ⟨fun _ => trivial, fun _ => ⟨fun h => ⟨h, rfl⟩, .inl⟩⟩
  | cancel ctx late => exact ⟨fun _ => trivial, fun _ => ⟨fun h => ⟨h, rfl⟩, .inl⟩⟩
  | onHandshakeCompleted ctx call => exact keepsEnd_onHandshakeCompleted henabled
  | onHandshakeFailed ctx => exact keepsEnd_onHandshakeFailed rfl
  | resend ctx =>
      rw [next, resend]
      split_ifs with hmore
      · exact ⟨fun _ _ => hmore, fun _ => ⟨fun h => ⟨h, rfl⟩, .inl⟩⟩
      · rw [keepsEnd_onHandshakeFailed rfl]
        exact ⟨fun hne hfinished => absurd hfinished hne, fun hguard hfinished => hmore (hguard hfinished)⟩
  | close => exact ⟨fun _ => trivial, fun _ => ⟨fun _ => ⟨rfl, rfl⟩, fun _ => .inr rfl⟩⟩

theorem Inv.step {l' : LiveTransport} {event : Event} (h : Inv l) (hstep : Step srtpCreate l event l') :
    Inv l' := by
  unfold Step tryNext at hstep
  split at hstep <;> cases hstep
  next henabled =>
    have hfailed : ∀ {l' : LiveTransport}, l'.transport = l.transport.onHandshakeFailed → Inv l' := by
      intro l' hl' hfinished
      have hstate : l'.transport.state = .failed := by
        rw [hl']
        exact state_updateTransportState _ _
      rw [hstate] at hfinished
      cases hfinished
    cases event with
    | updateIceState state =>
        rw [next]
        unfold updateIceState
        dsimp only
        split_ifs
        · exact h
        · intro hfinished
          simp at hfinished
        · intro hfinished
          simp at hfinished
        · intro hfinished
          simp at hfinished
        · exact h
        · exact h
    | onDtlsPacket ctx => exact h
    | cancel ctx late => exact h
    | onHandshakeCompleted ctx call =>
        intro hfinished
        obtain ⟨t₁, heq, -, hstate, -⟩ :=
          onHandshakeCompleted_cases srtpCreate l.transport henabled call
        rw [next, heq] at hfinished
        split_ifs at hfinished
        · simp at hfinished
        · rw [hstate] at hfinished
          split_ifs at hfinished
          exact h hfinished
    | onHandshakeFailed ctx => exact hfailed rfl
    | resend ctx =>
        rw [next, resend]
        split_ifs
        · exact h
        · exact hfailed rfl
    | close => exact fun _ => rfl

end Callbacks

theorem KeepsEnd.trans {l l' l'' : LiveTransport} (h : KeepsEnd l l') (h' : KeepsEnd l' l'') :
    KeepsEnd l l'' := by
  refine ⟨?_, ?_⟩
  · intro hfinished
    obtain ⟨hstate, hupdates⟩ := h.1 hfinished
    exact ⟨(h'.1 hstate).1, (h'.1 hstate).2.trans hupdates⟩
  · intro hfailed
    rcases h.2 hfailed with hstate | hstate
    · exact h'.2 hstate
    · exact .inr (h'.1 hstate).1

/-- **End states are final.** From any state that a transport can come to, and through any callbacks
that meet the condition, a closed transport stays closed without a word to its listener, and a failed
one can only be closed. -/
theorem end_states_final (isServer rtcpMux : Bool) (events : List Event) (l : LiveTransport)
    (hrun : Run (Step srtpCreate) (create isServer rtcpMux) events l) (more : List Event)
    (l' : LiveTransport) (hmore : Run (Guarded (EndGuard srtpCreate) (Step srtpCreate)) l more l') :
    KeepsEnd l l' := by
  have hinv : Inv l := by
    refine hrun.invariant ?_ Inv.step
    rintro (hfinished : TransportState.initial = .finished)
    cases hfinished
  have hboth : Inv l' ∧ KeepsEnd l l' := by
    induction hmore with
    | nil => exact ⟨hinv, keepsEnd_refl l⟩
    | snoc _ hlast ih =>
        obtain ⟨hguard, hstep⟩ := hlast
        refine ⟨ih.1.step hstep, ih.2.trans ?_⟩
        unfold Step tryNext at hstep
        split at hstep <;> cases hstep
        next henabled => exact (keepsEnd_iff ih.1 henabled).mpr hguard
  exact hboth.2

/-- A client that has sent the first packet of its handshake, and is closed. -/
def closedEarly : List Event := [.updateIceState .ready, .onDtlsPacket .rtp, .close]

instance (l : LiveTransport) : ∀ event, Decidable (EndGuard srtpCreate l event)
  | .updateIceState _ => inferInstanceAs (Decidable (_ → _ → _ ∧ _))
  | .onHandshakeCompleted _ _ => inferInstanceAs (Decidable ((_ → _) ∧ (_ ∨ _ → _)))
  | .onHandshakeFailed _ => inferInstanceAs (Decidable (_ ≠ _))
  | .resend _ => inferInstanceAs (Decidable (_ → _))
  | .onDtlsPacket _ | .cancel _ _ | .close => inferInstanceAs (Decidable True)

/-- While there are resends left the timers do no harm. -/
theorem end_states_final_resending :
    ∃ l l', Run (Step fun _ => true) (create false true) closedEarly l
      ∧ l.transport.state = .finished
      ∧ Run (Guarded (EndGuard fun _ => true) (Step fun _ => true)) l
          [.resend .rtp, .resend .rtp, .cancel .rtp false] l'
      ∧ KeepsEnd l l' := by
  have hrun : ∃ l, closedEarly.foldlM (tryNext fun _ => true) (create false true) = some l
      ∧ l.transport.state = .finished
      ∧ ∃ l', [Event.resend .rtp, .resend .rtp, .cancel .rtp false].foldlM (fun l event =>
          if EndGuard (fun _ => true) l event then l.tryNext (fun _ => true) event else none) l
            = some l' := ⟨_, rfl, rfl, _, rfl⟩
  obtain ⟨l, hl, hfinished, l', hl'⟩ := hrun
  have hmore := Run.guarded_of_foldlM hl'
  exact ⟨l, l', Run.of_foldlM hl, hfinished, hmore,
    end_states_final _ false true closedEarly l (Run.of_foldlM hl) _ l' hmore⟩

/-- The timer runs out on the closed transport, which tells its listener that it has failed. -/
theorem closed_transport_fails :
    ¬ ∀ (srtpCreate : AString → Bool) (isServer rtcpMux : Bool) (events more : List Event)
      (l l' : LiveTransport), Run (Step srtpCreate) (create isServer rtcpMux) events l →
      Run (Step srtpCreate) l more l' → KeepsEnd l l' := by
  intro hclaim
  have hrun : ∃ l, closedEarly.foldlM (tryNext fun _ => true) (create false true) = some l
      ∧ l.transport.state = .finished
      ∧ ∃ l', (List.replicate 6 (Event.resend .rtp)).foldlM (tryNext fun _ => true) l = some l'
        ∧ l'.transport.state = .failed ∧ l'.transport.updates = [.failed] :=
    ⟨_, rfl, rfl, _, rfl, rfl, rfl⟩
  obtain ⟨l, hl, hfinished, l', hl', hfailed, -⟩ := hrun
  have hkept := hclaim _ false true closedEarly _ l l' (Run.of_foldlM hl) (Run.of_foldlM hl')
  have hstate := (hkept.1 hfinished).1
  rw [hfailed] at hstate
  cases hstate

end LiveTransport

end Licode.Media
