import Licode.Media.WebRtcConnection
import Licode.Media.SendQueue
import Mathlib.Data.List.Chain

/-!
# The global state of a connection

`updateState` computes the state of a connection from the states that its two transports are in when it
is called. A transport sets its own state first and calls it afterwards, from any of its threads, and
so by the time of a call both transports may have gone on, and the calls of one transport need not come
in the order of its states. A call that has been announced and not made is pending.
-/

namespace Licode.Media

/-- A connection with its send queue and its listener. `notified` and `pending` are not in the source:
the events that `updateState` has told the listener, and the calls of it that the transports are going
to make. -/
structure LiveConnection where
  conn : WebRtcConnection
  queue : SendQueue
  hasListener : Bool
  notified : List WebRTCEvent
  pending : MediaType → List TransportState

namespace LiveConnection

/-- `WebRtcConnection::updateState`, with what it does beside the state. -/
def updateState (l : LiveConnection) (state : TransportState) : Checked LiveConnection := do
  let conn ← l.conn.updateState state
  let failing := (l.conn.videoTransport ≠ none ∨ l.conn.audioTransport ≠ none)
    ∧ l.conn.globalState ≠ .connFailed ∧ state = .failed
  return { l with
    conn := conn
    queue := if failing then { l.queue with sending := false } else l.queue
    notified :=
      if conn.globalState ≠ l.conn.globalState ∧ l.hasListener = true then
        l.notified ++ [conn.globalState]
      else l.notified }

inductive Event where
  | setState (media : MediaType) (state : TransportState)
  | updateState (media : MediaType) (state : TransportState)
  | queueData (comp : Int32) (buf : List UInt8) (type : PacketType) (seqNum : UInt16)
  | takeFront

variable (externalPT : PacketType → UInt8 → UInt8)

/-- The two halves of `Transport::updateTransportState` are steps of their own. -/
def next (l : LiveConnection) : Event → Option LiveConnection
  | .setState media state =>
      match l.conn.transport media with
      | none => none
      | some t =>
          if t.state = state then none
          else some { l with
            conn := l.conn.setTransport media { t with state := state }
            pending := Function.update l.pending media (state :: l.pending media) }
  | .updateState media state =>
      if state ∈ l.pending media then
        ({ l with
          pending := Function.update l.pending media ((l.pending media).erase state)
          }.updateState state).toOption
      else none
  | .queueData comp buf type seqNum =>
      some { l with queue := l.queue.queueData externalPT comp buf type seqNum }
  | .takeFront => some { l with queue := l.queue.takeFront }

def Step (l : LiveConnection) (event : Event) (l' : LiveConnection) : Prop :=
  l.next externalPT event = some l'

/-- The media that the remote side takes part in. -/
def Negotiated (l : LiveConnection) : MediaType → Prop
  | .video => l.conn.remoteSdp.hasVideo = true
  | .audio => l.conn.remoteSdp.hasAudio = true
  | .other => False

/-- The transports of all negotiated media are in a state. -/
def AllIn (l : LiveConnection) (state : TransportState) : Prop :=
  ∀ media, l.Negotiated media → ∃ t, l.conn.transport media = some t ∧ t.state = state

/-- No transport fails, and none that is ready goes to another state. -/
def Steady (l : LiveConnection) : Event → Prop
  | .setState media state =>
      state ≠ .failed ∧ ∀ t, l.conn.transport media = some t → t.state ≠ .ready
  | .updateState _ _ | .queueData _ _ _ _ | .takeFront => True

/-- A connection whose media are negotiated, before one of its transports is ready. -/
structure Start (l : LiveConnection) : Prop where
  globalState : l.conn.globalState ≠ .connReady ∧ l.conn.globalState ≠ .connFailed
  localSdp : l.conn.localHasVideo = l.conn.remoteSdp.hasVideo
    ∧ l.conn.localHasAudio = l.conn.remoteSdp.hasAudio
  transports : ∀ media t, l.conn.transport media = some t → t.state ≠ .ready
  pending : ∀ media, .ready ∉ l.pending media ∧ .failed ∉ l.pending media
  notified : l.notified = []

/-! ### What a call does when the media are not bundled -/

section Unbundled

variable {l : LiveConnection}

theorem allIn_iff (l : LiveConnection) (state : TransportState) :
    l.conn.allIn l.conn.remoteSdp.hasVideo l.conn.remoteSdp.hasAudio state = true ↔ l.AllIn state := by
  have hmedia : l.AllIn state ↔
      (l.conn.remoteSdp.hasVideo = true → ∃ t, l.conn.videoTransport = some t ∧ t.state = state)
        ∧ (l.conn.remoteSdp.hasAudio = true → ∃ t, l.conn.audioTransport = some t ∧ t.state = state) := by
    refine ⟨fun h => ⟨h .video, h .audio⟩, fun h media hmedia => ?_⟩
    cases media with
    | video => exact h.1 hmedia
    | audio => exact h.2 hmedia
    | other => cases hmedia
  rw [hmedia, WebRtcConnection.allIn]
  cases l.conn.remoteSdp.hasVideo <;> cases l.conn.remoteSdp.hasAudio <;>
    simp [Option.any_eq_true_iff_get, Option.eq_some_iff_get_eq, and_comm]

/-- Only the global state may change, and only to the state that was reported; it stays on the report
that a transport is ready only where another one is not. -/
theorem updateState_unbundled (c : WebRtcConnection) (hbundle : c.bundle = false)
    (state : TransportState) : ∃ g, c.updateState state = .ok { c with globalState := g }
      ∧ ((g = c.globalState ∧ (state = .ready → c.globalState ≠ .connFailed →
            c.videoTransport ≠ none ∨ c.audioTransport ≠ none →
            c.allIn c.remoteSdp.hasVideo c.remoteSdp.hasAudio .ready = false))
        ∨ (state = .started ∧ g = .connStarted
            ∧ c.allIn c.remoteSdp.hasVideo c.remoteSdp.hasAudio .started = true)
        ∨ (state = .gathered ∧ g = .connGathered
            ∧ c.allIn c.localHasVideo c.localHasAudio .gathered = true)
        ∨ (state = .ready ∧ g = .connReady
            ∧ c.allIn c.remoteSdp.hasVideo c.remoteSdp.hasAudio .ready = true)
        ∨ (state = .failed ∧ g = .connFailed)) := by
  unfold WebRtcConnection.updateState
  by_cases hnone : c.videoTransport = none ∧ c.audioTransport = none
  · rw [if_pos hnone]
    refine ⟨c.globalState, rfl, .inl ⟨rfl, fun _ _ hsome => ?_⟩⟩
    simp [hnone] at hsome
  · rw [if_neg hnone]
    by_cases hfailed : c.globalState = .connFailed
    · rw [if_pos hfailed]
      exact ⟨c.globalState, rfl, .inl ⟨rfl, fun _ h => absurd hfailed h⟩⟩
    · simp only [if_neg hfailed]
      cases state with
      | initial | finished => exact ⟨c.globalState, rfl, .inl ⟨rfl, by simp⟩⟩
      | started =>
          dsimp only
          cases hall : c.allIn c.remoteSdp.hasVideo c.remoteSdp.hasAudio .started with
          | false =>
              rw [if_neg (by simp [hbundle])]
              exact ⟨c.globalState, rfl, .inl ⟨rfl, by simp⟩⟩
          | true => exact ⟨.connStarted, by simp [hbundle], .inr (.inl ⟨rfl, rfl, rfl⟩)⟩
      | gathered =>
          dsimp only
          cases hall : c.allIn c.localHasVideo c.localHasAudio .gathered && !c.trickleEnabled with
          | false =>
              rw [if_neg (by simp [hbundle]), if_neg (by simp)]
              exact ⟨c.globalState, rfl, .inl ⟨rfl, by simp⟩⟩
          | true =>
              refine ⟨.connGathered, by simp [hbundle], .inr (.inr (.inl ⟨rfl, rfl, ?_⟩))⟩
              rw [Bool.and_eq_true] at hall
              exact hall.1
      | ready =>
          dsimp only
          cases hall : c.allIn c.remoteSdp.hasVideo c.remoteSdp.hasAudio .ready with
          | false =>
              rw [if_neg (by simp [hbundle])]
              exact ⟨c.globalState, rfl, .inl ⟨rfl, fun _ _ _ => rfl⟩⟩
          | true =>
              exact ⟨.connReady, by simp [hbundle], .inr (.inr (.inr (.inl ⟨rfl, rfl, rfl⟩)))⟩
      | failed => exact ⟨.connFailed, rfl, .inr (.inr (.inr (.inr ⟨rfl, rfl⟩)))⟩

end Unbundled

/-! ### After a failure -/

section Failure

variable {externalPT} {l l' : LiveConnection} {event : Event}

theorem updateState_of_failed (c : WebRtcConnection) (hfailed : c.globalState = .connFailed)
    (state : TransportState) : c.updateState state = .ok c := by
  unfold WebRtcConnection.updateState
  split_ifs <;> rfl

/-- What a step of a failed connection leaves as it is. -/
def Stays (l l' : LiveConnection) : Prop :=
  l'.conn.globalState = .connFailed ∧ l'.queue.sending = false
    ∧ l'.queue.sendQueue <:+ l.queue.sendQueue ∧ l'.notified = l.notified

theorem stays_step (hfailed : l.conn.globalState = .connFailed) (hsending : l.queue.sending = false)
    (hstep : Step externalPT l event l') : Stays l l' := by
  unfold Step at hstep
  cases event with
  | setState media state =>
      cases ht : l.conn.transport media with
      | none => simp [next, ht] at hstep
      | some t =>
          simp only [next, ht] at hstep
          split_ifs at hstep
          cases hstep
          refine ⟨?_, hsending, List.suffix_refl _, rfl⟩
          cases media <;> exact hfailed
  | updateState media state =>
      simp only [next] at hstep
      split_ifs at hstep
      have hcall := Checked.eq_ok_of_toOption hstep
      rw [updateState, updateState_of_failed _ hfailed] at hcall
      cases hcall
      refine ⟨hfailed, ?_, ?_, ?_⟩ <;> simp [hfailed, hsending]
  | queueData comp buf type seqNum =>
      cases hstep
      rw [SendQueue.queueData_of_not_sending hsending]
      exact ⟨hfailed, hsending, List.suffix_refl _, rfl⟩
  | takeFront =>
      cases hstep
      exact ⟨hfailed, SendQueue.sending_takeFront hsending, SendQueue.sendQueue_takeFront _, rfl⟩

theorem stays_run {events : List Event} (hfailed : l.conn.globalState = .connFailed)
    (hsending : l.queue.sending = false) (hrun : Run (Step externalPT) l events l') : Stays l l' := by
  induction hrun with
  | nil => exact ⟨hfailed, hsending, List.suffix_refl _, rfl⟩
  | snoc _ hlast ih =>
      obtain ⟨hstate, hqueue, hsuffix, hnotified⟩ := stays_step ih.1 ih.2.1 hlast
      exact ⟨hstate, hqueue, hsuffix.trans ih.2.2.1, hnotified.trans ih.2.2.2⟩

end Failure

/-! ### What holds in every run -/

section Told

variable {externalPT} {l l' : LiveConnection} {event : Event}

/-- A connection fails only when a transport has said so. -/
theorem failed_of_updateState {c c' : WebRtcConnection} {state : TransportState}
    (hcall : c.updateState state = .ok c') (hfailed : c'.globalState = .connFailed) :
    c.globalState = .connFailed
      ∨ ((c.videoTransport ≠ none ∨ c.audioTransport ≠ none) ∧ state = .failed) := by
  by_cases hbefore : c.globalState = .connFailed
  · exact .inl hbefore
  have hsame : ∀ {c' : WebRtcConnection}, c'.globalState = c.globalState →
      c'.globalState = .connFailed → False := fun h h' => hbefore (h.symm.trans h')
  right
  unfold WebRtcConnection.updateState at hcall
  by_cases hnone : c.videoTransport = none ∧ c.audioTransport = none
  · rw [if_pos hnone] at hcall
    cases hcall
    exact absurd hfailed hbefore
  · refine ⟨by tauto, ?_⟩
    rw [if_neg hnone] at hcall
    simp only [if_neg hbefore] at hcall
    cases state with
    | failed => rfl
    | initial | finished =>
        cases hcall
        exact absurd hfailed hbefore
    | started | ready =>
        dsimp only at hcall
        split at hcall <;> cases hcall
        · cases hfailed
        · exact absurd hfailed hbefore
    | gathered =>
        dsimp only at hcall
        split at hcall
        · obtain ⟨c₁, hpass, hrest⟩ := exists_of_bind_ok hcall
          cases hrest
          split at hfailed
          · exact (hsame (WebRtcConnection.passRemoteSdp_keeps hpass).2 hfailed).elim
          · cases hfailed
        · split at hcall <;> cases hcall
          · cases hfailed
          · exact absurd hfailed hbefore

/-- A failed connection does not send, and the listener was last told the state that is current. -/
structure Told (l : LiveConnection) : Prop where
  failed : l.conn.globalState = .connFailed → l.queue.sending = false
  silent : l.hasListener = false → l.notified = []
  chain : l.notified.IsChain (· ≠ ·)
  last : ∀ told ∈ l.notified.getLast?, told = l.conn.globalState

theorem Told.updateState {state : TransportState} (h : Told l) (hcall : l.updateState state = .ok l') :
    Told l' := by
  obtain ⟨conn, hconn, hrest⟩ := exists_of_bind_ok hcall
  cases hrest
  have hfailed : conn.globalState = .connFailed → l.queue.sending = false
      ∨ ((l.conn.videoTransport ≠ none ∨ l.conn.audioTransport ≠ none)
        ∧ l.conn.globalState ≠ .connFailed ∧ state = .failed) := by
    intro hfailed
    by_cases hbefore : l.conn.globalState = .connFailed
    · exact .inl (h.failed hbefore)
    · obtain hbad | ⟨hsome, hstate⟩ := failed_of_updateState hconn hfailed
      · exact absurd hbad hbefore
      · exact .inr ⟨hsome, hbefore, hstate⟩
  refine ⟨?_, ?_, ?_, ?_⟩
  · intro hbad
    dsimp only
    split_ifs with hnow
    · rfl
    · exact (hfailed hbad).resolve_right hnow
  · intro (hsilent : l.hasListener = false)
    dsimp only
    rw [if_neg (by simp [hsilent])]
    exact h.silent hsilent
  · dsimp only
    split_ifs with hnew
    · refine List.isChain_append.mpr ⟨h.chain, List.isChain_singleton _, ?_⟩
      intro told htold other hother
      cases hother
      rw [h.last told htold]
      exact fun heq => hnew.1 heq.symm
    · exact h.chain
  · dsimp only
    split_ifs with hnew
    · intro told htold
      rw [List.getLast?_concat] at htold
      cases htold
      rfl
    · intro told htold
      by_cases hlistener : l.hasListener = true
      · rw [h.last told htold]
        by_contra hne
        exact hnew ⟨fun heq => hne heq.symm, hlistener⟩
      · rw [h.silent (by simpa using hlistener)] at htold
        cases htold

theorem Told.step (h : Told l) (hstep : Step externalPT l event l') : Told l' := by
  unfold Step at hstep
  cases event with
  | setState media state =>
      cases ht : l.conn.transport media with
      | none => simp [next, ht] at hstep
      | some t =>
          simp only [next, ht] at hstep
          split_ifs at hstep
          cases hstep
          cases media <;> exact ⟨h.failed, h.silent, h.chain, h.last⟩
  | updateState media state =>
      simp only [next] at hstep
      split_ifs at hstep
      refine Told.updateState ?_ (Checked.eq_ok_of_toOption hstep)
      exact ⟨h.failed, h.silent, h.chain, h.last⟩
  | queueData comp buf type seqNum =>
      cases hstep
      refine ⟨fun hfailed => ?_, h.silent, h.chain, h.last⟩
      rw [SendQueue.queueData_of_not_sending (h.failed hfailed)]
      exact h.failed hfailed
  | takeFront =>
      cases hstep
      exact ⟨fun hfailed => SendQueue.sending_takeFront (h.failed hfailed), h.silent, h.chain, h.last⟩

theorem Start.told (h : Start l) : Told l := by
  refine ⟨fun hfailed => absurd hfailed h.globalState.2, fun _ => h.notified, ?_, ?_⟩
  · rw [h.notified]
    exact List.isChain_nil
  · rw [h.notified]
    nofun

end Told

/-! ### Becoming ready -/

section Ready

variable {externalPT} {l l' : LiveConnection} {event : Event}

/-- The transports of the negotiated media are in one state at a time. -/
theorem AllIn.unique {media : MediaType} {state state' : TransportState} (hmedia : l.Negotiated media)
    (h : l.AllIn state) (h' : l.AllIn state') : state = state' := by
  obtain ⟨t, ht, rfl⟩ := h media hmedia
  obtain ⟨t', ht', rfl⟩ := h' media hmedia
  cases ht.symm.trans ht'
  rfl

/-- What is needed of the connection for it to become ready, and that this is noticed: either it is
ready, or a call is still to come that will find all transports ready. -/
structure Toward (l : LiveConnection) : Prop where
  bundle : l.conn.bundle = false
  media : ∃ media, l.Negotiated media
  localSdp : l.conn.localHasVideo = l.conn.remoteSdp.hasVideo
    ∧ l.conn.localHasAudio = l.conn.remoteSdp.hasAudio
  listener : l.hasListener = true
  sound : l.conn.globalState ≠ .connFailed
  pending : ∀ media, .failed ∉ l.pending media
  count : l.notified.count .connReady = if l.conn.globalState = .connReady then 1 else 0
  ready : l.conn.globalState = .connReady → l.AllIn .ready
  due : l.AllIn .ready → l.conn.globalState = .connReady ∨ ∃ media, .ready ∈ l.pending media

theorem Start.toward (h : Start l) (hbundle : l.conn.bundle = false)
    (hmedia : ∃ media, l.Negotiated media) (hlistener : l.hasListener = true) : Toward l where
  bundle := hbundle
  media := hmedia
  localSdp := h.localSdp
  listener := hlistener
  sound := h.globalState.2
  pending := fun media => (h.pending media).2
  count := by rw [if_neg h.globalState.1, h.notified]; rfl
  ready := fun hready => absurd hready h.globalState.1
  due := by
    intro hall
    obtain ⟨media, hmedia⟩ := hmedia
    obtain ⟨t, ht, hready⟩ := hall media hmedia
    exact absurd hready (h.transports media t ht)

/-- A transport that is not ready yet sets its state. -/
theorem Toward.setState {media : MediaType} {state : TransportState} {t : Transport} (h : Toward l)
    (ht : l.conn.transport media = some t) (hready : t.state ≠ .ready) (hstate : state ≠ .failed) :
    Toward { l with
      conn := l.conn.setTransport media { t with state := state }
      pending := Function.update l.pending media (state :: l.pending media) } := by
  set conn := l.conn.setTransport media { t with state := state } with hconn
  set pending := Function.update l.pending media (state :: l.pending media) with hpending
  have hne := WebRtcConnection.ne_other_of_transport ht
  have hkeeps : conn.bundle = l.conn.bundle ∧ conn.remoteSdp = l.conn.remoteSdp
      ∧ conn.localHasVideo = l.conn.localHasVideo ∧ conn.localHasAudio = l.conn.localHasAudio
      ∧ conn.globalState = l.conn.globalState := by
    rw [hconn]
    cases media <;> exact ⟨rfl, rfl, rfl, rfl, rfl⟩
  obtain ⟨hbundle, hremote, hlocalVideo, hlocalAudio, hglobal⟩ := hkeeps
  have hnegotiated : ∀ asked, Negotiated { l with conn := conn, pending := pending } asked
      ↔ l.Negotiated asked := by
    intro asked
    cases asked <;> simp [Negotiated, hremote]
  have hasked : ∀ asked, conn.transport asked
      = if asked = media then some { t with state := state } else l.conn.transport asked :=
    WebRtcConnection.transport_setTransport hne _
  have hmore : ∀ asked, l.pending asked ⊆ pending asked := by
    intro asked
    rw [hpending]
    by_cases heq : asked = media
    · subst heq
      rw [Function.update_self]
      exact List.subset_cons_self _ _
    · rw [Function.update_of_ne heq]
      exact List.Subset.refl _
  refine ⟨hbundle.trans h.bundle, ?_, ?_, h.listener, ?_, ?_, ?_, ?_, ?_⟩
  · obtain ⟨asked, hmedia⟩ := h.media
    exact ⟨asked, (hnegotiated asked).mpr hmedia⟩
  · rw [hremote, hlocalVideo, hlocalAudio]
    exact h.localSdp
  · rw [hglobal]
    exact h.sound
  · intro asked hbad
    dsimp only at hbad
    rw [hpending] at hbad
    by_cases heq : asked = media
    · subst heq
      rw [Function.update_self, List.mem_cons] at hbad
      exact hbad.elim (fun heq => hstate heq.symm) (h.pending asked)
    · rw [Function.update_of_ne heq] at hbad
      exact h.pending asked hbad
  · rw [hglobal]
    exact h.count
  · -- the transport is not ready, and so its media are none that the connection waits for
    intro hnow asked hmedia
    rw [hglobal] at hnow
    obtain ⟨t', ht', hready'⟩ := h.ready hnow asked ((hnegotiated asked).mp hmedia)
    refine ⟨t', ?_, hready'⟩
    rw [hasked, if_neg, ht']
    rintro rfl
    cases ht.symm.trans ht'
    exact hready hready'
  · intro hall
    rw [hglobal]
    by_cases hmedia : l.Negotiated media
    · obtain ⟨t', ht', hready'⟩ := hall media ((hnegotiated media).mpr hmedia)
      rw [hasked, if_pos rfl] at ht'
      cases ht'
      refine .inr ⟨media, ?_⟩
      dsimp only
      rw [hpending, Function.update_self]
      exact List.mem_cons.mpr (.inl hready'.symm)
    · refine (h.due ?_).imp id fun ⟨asked, hmem⟩ => ⟨asked, hmore asked hmem⟩
      intro asked hasked'
      obtain ⟨t', ht', hready'⟩ := hall asked ((hnegotiated asked).mpr hasked')
      rw [hasked, if_neg] at ht'
      · exact ⟨t', ht', hready'⟩
      · rintro rfl
        exact hmedia hasked'

/-- The state of the connection changes from `l.conn.globalState` to `g`. -/
def notify (l : LiveConnection) (g : WebRTCEvent) (pending : MediaType → List TransportState) :
    LiveConnection :=
  { l with
    conn := { l.conn with globalState := g }
    notified :=
      if g ≠ l.conn.globalState ∧ l.hasListener = true then l.notified ++ [g] else l.notified
    pending := pending }

/-- The connection has come to a state that is not the last one. -/
theorem Toward.notify_of_allIn {g : WebRTCEvent} {state : TransportState}
    {pending : MediaType → List TransportState} (h : Toward l) (hpending : ∀ media, .failed ∉ pending media)
    (hall : l.AllIn state) (hstate : state ≠ .ready) (hready : g ≠ .connReady) (hfailed : g ≠ .connFailed) :
    Toward (l.notify g pending) := by
  obtain ⟨media, hmedia⟩ := h.media
  have hnot : ¬ l.AllIn .ready := fun hall' => hstate (hall.unique hmedia hall')
  have hbefore : l.conn.globalState ≠ .connReady := fun hglobal => hnot (h.ready hglobal)
  refine ⟨h.bundle, h.media, h.localSdp, h.listener, hfailed, hpending, ?_, ?_, ?_⟩
  · have hcount := h.count
    rw [if_neg hbefore] at hcount
    rw [notify, if_neg hready]
    dsimp only
    split_ifs
    · rw [List.count_append, hcount, List.count_singleton, if_neg]
      simpa using hready
    · exact hcount
  · exact fun hbad => absurd hbad hready
  · exact fun hall' => absurd hall' hnot

theorem Toward.notify_ready {pending : MediaType → List TransportState} (h : Toward l)
    (hpending : ∀ media, .failed ∉ pending media) (hall : l.AllIn .ready) :
    Toward (l.notify .connReady pending) := by
  refine ⟨h.bundle, h.media, h.localSdp, h.listener, (by decide : WebRTCEvent.connReady ≠ _), hpending,
    ?_, fun _ => hall, fun _ => .inl rfl⟩
  have hcount := h.count
  rw [notify, if_pos rfl]
  dsimp only
  by_cases hbefore : l.conn.globalState = .connReady
  · rw [if_pos hbefore] at hcount
    rw [if_neg (by simp [hbefore]), hcount]
  · rw [if_neg hbefore] at hcount
    rw [if_pos ⟨fun heq => hbefore heq.symm, h.listener⟩, List.count_append, hcount]
    rfl

/-- A call that was pending is made. -/
theorem Toward.updateState {media : MediaType} {state : TransportState} (h : Toward l)
    (hmem : state ∈ l.pending media)
    (hcall : { l with
      pending := Function.update l.pending media ((l.pending media).erase state) }.updateState state
        = .ok l') : Toward l' := by
  set pending := Function.update l.pending media ((l.pending media).erase state) with hpending
  have hless : ∀ asked, pending asked ⊆ l.pending asked := by
    intro asked
    rw [hpending]
    by_cases heq : asked = media
    · subst heq
      rw [Function.update_self]
      exact List.erase_subset
    · rw [Function.update_of_ne heq]
      exact List.Subset.refl _
  have hsound : ∀ asked, .failed ∉ pending asked := fun asked hbad => h.pending asked (hless asked hbad)
  have hnotFailed : state ≠ .failed := fun heq => h.pending media (heq ▸ hmem)
  obtain ⟨g, hconn, hcases⟩ := updateState_unbundled l.conn h.bundle state
  have hl' : l' = l.notify g pending := by
    rw [LiveConnection.updateState, hconn, Checked.ok_bind] at hcall
    simp only [hnotFailed, and_false, if_false] at hcall
    exact (Except.ok.inj hcall).symm
  rw [hl']
  obtain ⟨rfl, hnot⟩ | ⟨-, rfl, hall⟩ | ⟨-, rfl, hall⟩ | ⟨-, rfl, hall⟩ | ⟨hbad, -⟩ := hcases
  · -- nothing changes; a call that says ready is not the one that is waited for
    have hsame : l.notify l.conn.globalState pending = { l with pending := pending } := by
      simp [notify]
    rw [hsame]
    refine ⟨h.bundle, h.media, h.localSdp, h.listener, h.sound, hsound, h.count, h.ready, ?_⟩
    intro hall
    refine (h.due hall).imp id ?_
    rintro ⟨asked, hready⟩
    by_cases hstate : state = .ready
    · exfalso
      obtain ⟨some_, hsome⟩ := h.media
      obtain ⟨t, ht, -⟩ := hall some_ hsome
      have hexists : l.conn.videoTransport ≠ none ∨ l.conn.audioTransport ≠ none := by
        cases some_ with
        | video => exact .inl (by rw [show l.conn.videoTransport = some t from ht]; nofun)
        | audio => exact .inr (by rw [show l.conn.audioTransport = some t from ht]; nofun)
        | other => cases hsome
      have hno := hnot hstate h.sound hexists
      rw [(allIn_iff l .ready).mpr hall] at hno
      cases hno
    · refine ⟨asked, ?_⟩
      dsimp only
      rw [hpending]
      by_cases heq : asked = media
      · subst heq
        rw [Function.update_self]
        exact (List.mem_erase_of_ne fun heq => hstate heq.symm).mpr hready
      · rwa [Function.update_of_ne heq]
  · exact h.notify_of_allIn hsound ((allIn_iff l _).mp hall) (by decide) (by decide) (by decide)
  · rw [h.localSdp.1, h.localSdp.2] at hall
    exact h.notify_of_allIn hsound ((allIn_iff l _).mp hall) (by decide) (by decide) (by decide)
  · exact h.notify_ready hsound ((allIn_iff l _).mp hall)
  · exact absurd hbad hnotFailed

theorem Toward.step (h : Toward l) (hsteady : Steady l event) (hstep : Step externalPT l event l') :
    Toward l' := by
  unfold Step at hstep
  cases event with
  | setState media state =>
      cases ht : l.conn.transport media with
      | none => simp [next, ht] at hstep
      | some t =>
          simp only [next, ht] at hstep
          split_ifs at hstep
          cases hstep
          exact h.setState ht (hsteady.2 t ht) hsteady.1
  | updateState media state =>
      simp only [next] at hstep
      split_ifs at hstep with hmem
      exact h.updateState hmem (Checked.eq_ok_of_toOption hstep)
  | queueData comp buf type seqNum =>
      cases hstep
      exact { h with }
  | takeFront =>
      cases hstep
      exact { h with }

/-- The step that makes an unbundled connection ready finds all its transports ready. -/
theorem ready_entered (hbundle : l.conn.bundle = false) (hstep : Step externalPT l event l')
    (hbefore : l.conn.globalState ≠ .connReady) (hafter : l'.conn.globalState = .connReady) :
    l'.AllIn .ready := by
  unfold Step at hstep
  cases event with
  | setState media state =>
      cases ht : l.conn.transport media with
      | none => simp [next, ht] at hstep
      | some t =>
          simp only [next, ht] at hstep
          split_ifs at hstep
          cases hstep
          cases media <;> exact absurd hafter hbefore
  | updateState media state =>
      simp only [next] at hstep
      split_ifs at hstep
      obtain ⟨g, hconn, hcases⟩ := updateState_unbundled l.conn hbundle state
      have hcall := Checked.eq_ok_of_toOption hstep
      rw [updateState, hconn, Checked.ok_bind] at hcall
      cases hcall
      obtain ⟨rfl, -⟩ | ⟨-, rfl, -⟩ | ⟨-, rfl, -⟩ | ⟨-, -, hall⟩ | ⟨-, rfl⟩ := hcases
      · exact absurd hafter hbefore
      · cases hafter
      · cases hafter
      · exact (allIn_iff l .ready).mp hall
      · cases hafter
  | queueData comp buf type seqNum =>
      cases hstep
      exact absurd hafter hbefore
  | takeFront =>
      cases hstep
      exact absurd hafter hbefore

end Ready

/-- **The global state.** A failed connection stays as it is but for the packets that the sender still
takes; the listener is not told the same state twice in a row; an unbundled connection becomes ready
when all its transports are; and if they become ready and stay so, it is ready and has said so once
when all calls have been made. -/
theorem global_state (l : LiveConnection) (hstart : Start l) (events : List Event) (l' : LiveConnection)
    (hrun : Run (Step externalPT) l events l') :
    (l'.conn.globalState = .connFailed →
        ∀ more l'', Run (Step externalPT) l' more l'' → Stays l' l'')
      ∧ l'.notified.IsChain (· ≠ ·)
      ∧ (l'.conn.bundle = false → ∀ event l'', Step externalPT l' event l'' →
          l'.conn.globalState ≠ .connReady → l''.conn.globalState = .connReady → l''.AllIn .ready)
      ∧ (l.conn.bundle = false → l.hasListener = true → (∃ media, l.Negotiated media) →
          Run (Guarded Steady (Step externalPT)) l events l' → l'.AllIn .ready →
          (∀ media, l'.pending media = []) →
          l'.conn.globalState = .connReady ∧ l'.notified.count .connReady = 1) := by
  have htold : Told l' := hrun.invariant hstart.told Told.step
  refine ⟨?_, htold.chain, ?_, ?_⟩
  · intro hfailed more l'' hmore
    exact stays_run hfailed (htold.failed hfailed) hmore
  · intro hbundle event l'' hstep hbefore hafter
    exact ready_entered hbundle hstep hbefore hafter
  · intro hbundle hlistener hmedia hsteady hall hnone
    have htoward : Toward l' :=
      hsteady.invariant (hstart.toward hbundle hmedia hlistener) fun h hlast => h.step hlast.1 hlast.2
    obtain hready | ⟨media, hpending⟩ := htoward.due hall
    · have hcount := htoward.count
      rw [if_pos hready] at hcount
      exact ⟨hready, hcount⟩
    · rw [hnone media] at hpending
      cases hpending

theorem createTransports_keeps (c : WebRtcConnection) :
    c.createTransports.globalState = c.globalState
      ∧ c.createTransports.localHasVideo = c.localHasVideo
      ∧ c.createTransports.localHasAudio = c.localHasAudio
      ∧ c.createTransports.remoteSdp = c.remoteSdp
      ∧ ∀ media t, c.createTransports.transport media = some t →
          c.transport media = some t ∨ t.state = .initial := by
  have hnew : ∀ {old : Option Transport} {needed : Bool} {media : MediaType} {t : Transport},
      (if needed then some (old.getD (.create media)) else old) = some t →
      old = some t ∨ t.state = .initial := by
    intro old needed media t h
    cases needed with
    | false => exact .inl h
    | true =>
        cases old with
        | none =>
            cases h
            exact .inr rfl
        | some t' => exact .inl h
  unfold WebRtcConnection.createTransports
  split
  · refine ⟨rfl, rfl, rfl, rfl, ?_⟩
    intro media t ht
    cases media with
    | video => exact hnew ht
    | audio => exact hnew ht
    | other => cases ht
  · exact ⟨rfl, rfl, rfl, rfl, fun _ _ ht => .inl ht⟩

/-- The description of a new connection is negotiated when it has been set. -/
theorem start_setRemoteSdp {shouldTrickle : Bool} {text : SdpText} {conn : WebRtcConnection}
    (hcall : (WebRtcConnection.create shouldTrickle).setRemoteSdp text = .ok conn) (hasListener : Bool) :
    Start ⟨conn, .create, hasListener, [], fun _ => []⟩ := by
  obtain ⟨hglobal, hvideo, haudio, hremote, htransports⟩ :=
    createTransports_keeps ((WebRtcConnection.create shouldTrickle).adoptSdp text)
  have hinitial : ((WebRtcConnection.create shouldTrickle).adoptSdp text).createTransports.globalState
      = .connInitial := hglobal
  unfold WebRtcConnection.setRemoteSdp at hcall
  dsimp only at hcall
  rw [hinitial, if_neg (by decide)] at hcall
  cases hcall
  refine ⟨⟨?_, ?_⟩, ⟨?_, ?_⟩, ?_, fun _ => ⟨nofun, nofun⟩, rfl⟩
  · rw [hinitial]
    decide
  · rw [hinitial]
    decide
  · rw [hvideo, hremote]
    rfl
  · rw [haudio, hremote]
    rfl
  · intro media t ht
    obtain hold | hnew := htransports media t ht
    · cases media <;> cases hold
    · rw [hnew]
      decide

/-- A text with audio and video of their own, as `SdpInfo` reads it. -/
def unbundledText : SdpText where
  savpf := true
  isBundle := false
  isFingerprint := true
  hasVideo := true
  hasAudio := true
  videoSdpMLine := some 1
  iceVideoUsername := some (ascii "v")
  iceAudioUsername := some (ascii "a")
  candidates := []

instance (l : LiveConnection) : ∀ event, Decidable (Steady l event)
  | .setState media state =>
      match h : l.conn.transport media with
      | none => decidable_of_iff (state ≠ .failed) (by simp [Steady, h])
      | some t => decidable_of_iff (state ≠ .failed ∧ t.state ≠ .ready) (by simp [Steady, h])
  | .updateState _ _ | .queueData _ _ _ _ | .takeFront => inferInstanceAs (Decidable True)

/-- The video transport is ready before the call that says it has started is made. -/
theorem global_state_delayed :
    ∃ conn l', (WebRtcConnection.create false).setRemoteSdp unbundledText = .ok conn
      ∧ Run (Step fun _ type => type) ⟨conn, .create, true, [], fun _ => []⟩
          [.setState .video .started, .setState .video .ready, .setState .audio .ready,
            .updateState .audio .ready, .updateState .video .started, .updateState .video .ready] l'
      ∧ l'.conn.globalState = .connReady ∧ l'.notified.count .connReady = 1 := by
  have hrun : ∃ conn, (WebRtcConnection.create false).setRemoteSdp unbundledText = .ok conn
      ∧ conn.bundle = false ∧ conn.remoteSdp.hasVideo = true
      ∧ ∃ l', [Event.setState .video .started, .setState .video .ready, .setState .audio .ready,
            .updateState .audio .ready, .updateState .video .started, .updateState .video .ready].foldlM
          (fun l event => if Steady l event then l.next (fun _ type => type) event else none)
          ⟨conn, .create, true, [], fun _ => []⟩ = some l'
        ∧ l'.conn.allIn l'.conn.remoteSdp.hasVideo l'.conn.remoteSdp.hasAudio .ready = true
        ∧ l'.pending .video = [] ∧ l'.pending .audio = [] ∧ l'.pending .other = [] :=
    ⟨_, rfl, rfl, rfl, _, rfl, rfl, rfl, rfl, rfl⟩
  obtain ⟨conn, hconn, hbundle, hvideo, l', hl', hall, hnone⟩ := hrun
  have hsteady := Run.guarded_of_foldlM hl'
  have hrun' : Run (Step fun _ type => type) ⟨conn, .create, true, [], fun _ => []⟩ _ l' :=
    hsteady.unguarded
  refine ⟨conn, l', hconn, hrun', ?_⟩
  refine (global_state _ _ (start_setRemoteSdp hconn true) _ l' hrun').2.2.2 hbundle rfl ⟨.video, hvideo⟩
    hsteady ((allIn_iff l' .ready).mp hall) ?_
  intro media
  cases media with
  | video => exact hnone.1
  | audio => exact hnone.2.1
  | other => exact hnone.2.2

end LiveConnection

end Licode.Media
