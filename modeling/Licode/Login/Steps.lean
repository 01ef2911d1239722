import Licode.Login.Received

/-!
# The steps of a login

Every step keeps the two ends in agreement, hence every run does, and none goes back to an earlier stage.
-/

namespace Licode

open ByteBuffer Receiver Server Client

section Steps

variable {u : Setup} {s : Connection} {floor ticks : Nat} {waiting : List Packet}

theorem Agrees.mono {floor' : Nat} (h : Agrees u s floor waiting) (hle : floor' ≤ floor) :
    Agrees u s floor' waiting := by
  obtain ⟨answers, up, down, ⟨rank, hfloor, hstage⟩, hflows⟩ := h.stage
  exact ⟨h.server, h.client, h.serverQuiet, h.clientQuiet, answers, up, down, ⟨rank, hle.trans hfloor, hstage⟩, hflows⟩

theorem ServerKeeps.of_server {up : Coding} {l : ServerLink} {p' : ProtocolImpl} {ticks' : Nat}
    (h : ServerKeeps u s floor ticks up l waiting) (hbase : ServerBase u ticks' p')
    (htaken : p'.client.incomingData = l.protocol.client.incomingData)
    (hstage : ∀ {rank answers down}, Stage u l.protocol s.session.served s.client.client rank waiting answers up down →
      Stage u p' s.session.served s.client.client rank waiting answers up down)
    (houtgoing : p'.client.outgoingData = l.protocol.client.outgoingData)
    (hencoded : p'.encoded = l.protocol.encoded) :
    ServerKeeps u s floor ticks' up { l with protocol := p' } waiting := by
  obtain ⟨-, htaken', answers, down, ⟨rank, hfloor, hstage'⟩, hdown⟩ := h
  refine ⟨hbase, htaken.trans htaken', answers, down, ⟨rank, hfloor, hstage hstage'⟩, ?_⟩
  unfold Downstream at hdown ⊢
  rw [houtgoing, hencoded]
  exact hdown

/-- A server that works sends one more packet to its client. -/
theorem Stage.sends {p p' : ProtocolImpl} {served rank : Nat} {c : ConnectionClient} {answers : List Packet}
    {up down : Coding} {q : Packet} (h : Stage u p served c rank waiting answers up down) (hstate : p.state = 3)
    (hq : GamePacket q) (hkept : p.Kept p') :
    down = p.coding ∧ Stage u p' served c rank waiting (answers ++ [q]) up p'.coding := by
  have hworking : ∀ {isEncrypted state clientState queue}, state ≠ 3 →
      ServerAt p served isEncrypted state clientState queue → False := by
    intro isEncrypted state clientState queue hne hp
    exact hne (hp.state.symm.trans hstate)
  have hone : (1 : UInt32) ≠ 3 := by decide
  have htwo : (2 : UInt32) ≠ 3 := by decide
  cases h with
  | idle hp hc | statusRequest hp hc => exact (hworking hone hp).elim
  | statusResponse hp hc | loginStart hp hc | keyRequest hp hc | silent hp hc
  | keyResponse hp hc hencryptor hsecret hnonce | loginAllow hp hc | loginInfo hp hc | authenticating hp hc =>
      exact (hworking htwo hp).elim
  | loginSuccess hp hc hgame =>
      refine ⟨rfl, .loginSuccess (hp.kept hkept) hc ?_⟩
      exact List.forall_mem_append.mpr ⟨hgame, List.forall_mem_singleton.mpr hq⟩
  | signedIn hp hc hid hasked hgame =>
      refine ⟨rfl, .signedIn (hp.kept hkept) hc hid hasked ?_⟩
      exact List.forall_mem_append.mpr ⟨hgame, List.forall_mem_singleton.mpr hq⟩

theorem ServerKeeps.sends {up : Coding} {l : ServerLink} {p' : ProtocolImpl} {q : Packet}
    (h : ServerKeeps u s floor ticks up l waiting) (hstate : l.protocol.state = 3) (hq : GamePacket q)
    (hsent : ProtocolImpl.Sent u.server l.protocol q.frame p') :
    ServerKeeps u s floor ticks up { l with protocol := p' } waiting := by
  obtain ⟨hbase, htaken, answers, down, ⟨rank, hfloor, hstage⟩, hdown⟩ := h
  obtain ⟨rfl, hstage'⟩ := hstage.sends hstate hq hsent.kept
  exact ⟨hbase.sent hsent, hsent.incomingData.trans htaken, _, _, ⟨rank, hfloor, hstage'⟩,
    hsent.flow hbase.hasSentDC hdown⟩

/-- The part of a tick that hands the incoming data to the protocol. -/
theorem processIncoming_agrees (hu : u.Sound) (h : Agrees u s floor waiting) :
    ∃ events l done left up, s.session.link.processIncoming u.server = .ok (events, l) ∧ waiting = done ++ left
      ∧ Delivers events done ∧ (∀ event ∈ events, event.Quiet)
      ∧ ServerKeeps u s floor s.session.link.protocol.client.ticksSinceLastPacket up l left
      ∧ Upstream u l s.client.client (s.serverTrace ++ events) up left := by
  obtain ⟨answers, up, down, ⟨rank, hfloor, hstage⟩, hup, hdown⟩ := h.stage
  set l : ServerLink := { s.session.link with protocol.client.incomingData := [] } with hl
  have hbase : ServerBase u s.session.link.protocol.client.ticksSinceLastPacket l.protocol :=
    { h.server with ready := ⟨h.server.ready.out, h.server.ready.len⟩ }
  have hkeeps : ServerKeeps u s floor s.session.link.protocol.client.ticksSinceLastPacket up l waiting :=
    ⟨hbase, rfl, answers, down, ⟨rank, hfloor, hstage.of_server rfl rfl rfl (Or.inl rfl) rfl⟩, hdown⟩
  cases hincoming : s.session.link.protocol.client.incomingData with
  | nil =>
      rw [Upstream, hincoming] at hup
      refine ⟨[], l, [], waiting, up, ?_, rfl, .nil, List.forall_mem_nil _, hkeeps, ?_⟩
      · rw [ServerLink.processIncoming, hincoming]
        rfl
      · rw [List.append_nil]
        exact hup
  | cons byte incoming =>
      rw [Upstream, hincoming] at hup
      obtain ⟨events, l', done, left, up', hrun, hwaiting, hdelivers, hquiet, hkeeps', hflow⟩ :=
        server_receives hu hkeeps hup
      refine ⟨events, l', done, left, up', ?_, hwaiting, hdelivers, hquiet, hkeeps', ?_⟩
      · rw [ServerLink.processIncoming, hincoming]
        exact hrun
      · rw [Upstream, hkeeps'.taken, decodedLog_append]
        exact hflow

/-- The handle's own part of a tick: what waits to be sent is taken to the client, and a login comes to its end. -/
theorem ServerKeeps.flush {up : Coding} {l : ServerLink} (h : ServerKeeps u s floor ticks up l waiting) :
    (ServerLink.flushOutgoing l.protocol).1 = l.protocol.client.outgoingData
      ∧ ServerKeeps u { s with toClient := s.toClient ++ l.protocol.client.outgoingData } floor ticks up
          { l with protocol := (ServerLink.flushOutgoing l.protocol).2 } waiting := by
  obtain ⟨hbase, htaken, answers, down, ⟨rank, hfloor, hstage⟩, hdown⟩ := h
  refine ⟨?_, { hbase with ready := ⟨hbase.ready.out, hbase.ready.len⟩ }, htaken, answers, down,
    ⟨rank, hfloor, hstage.of_server rfl rfl rfl (Or.inl rfl) rfl⟩, ?_⟩
  · rw [ServerLink.flushOutgoing, hbase.link]
    rfl
  · unfold Downstream at hdown ⊢
    simp only [ServerLink.flushOutgoing, List.append_nil]
    exact hdown

theorem ServerKeeps.works {up : Coding} {l : ServerLink} (h : ServerKeeps u s floor ticks up l waiting) :
    ServerKeeps u s floor ticks up { l with protocol :=
      if l.protocol.client.state = .csAuthenticated then { l.protocol with client.state := .csWorking }
      else l.protocol } waiting := by
  split
  · next hstate =>
      have hbase := h.base
      refine h.of_server { hbase with ready := ⟨hbase.ready.out, hbase.ready.len⟩ } rfl (fun hstage => ?_) rfl rfl
      exact hstage.of_server rfl rfl rfl (Or.inr ⟨Or.inl hstate, Or.inr rfl⟩) rfl
  · exact h

/-- A handle that works has logged its client in. -/
theorem ServerKeeps.state_of_working {up : Coding} {l : ServerLink} (h : ServerKeeps u s floor ticks up l waiting)
    (hworking : l.protocol.client.state = .csWorking) : l.protocol.state = 3 := by
  obtain ⟨-, -, answers, down, ⟨rank, -, hstage⟩, -⟩ := h
  have hnot : ∀ {isEncrypted state clientState queue}, clientState ≠ EState.csWorking →
      ServerAt l.protocol s.session.served isEncrypted state (· = clientState) queue → False := by
    intro isEncrypted state clientState queue hne hp
    exact hne (hp.clientState.symm.trans hworking)
  have hconnected : EState.csConnected ≠ .csWorking := by decide
  cases hstage with
  | idle hp hc | statusRequest hp hc | statusResponse hp hc | loginStart hp hc | keyRequest hp hc | silent hp hc
  | keyResponse hp hc hencryptor hsecret hnonce | loginAllow hp hc | loginInfo hp hc =>
      exact (hnot hconnected hp).elim
  | authenticating hp hc => exact (hnot (by decide) hp).elim
  | loginSuccess hp hc hgame => exact hp.state
  | signedIn hp hc hid hasked hgame => exact hp.state

theorem ServerKeeps.ping {up : Coding} {l : ServerLink} (h : ServerKeeps u s floor ticks up l waiting) (pingDue : Bool) :
    ∃ p', ServerLink.sendPing u.server pingDue l.protocol = .ok p' ∧ p'.decoding = l.protocol.decoding
      ∧ (pingDue = false → p' = l.protocol) ∧ ServerKeeps u s floor ticks up { l with protocol := p' } waiting := by
  unfold ServerLink.sendPing
  split
  · next hping =>
      have hbase := h.base
      set p₁ : ProtocolImpl := { l.protocol with client.pingID := l.protocol.client.pingID + 1 } with hp₁
      have hstate : p₁.state = 3 := h.state_of_working hping.1
      have hkeeps₁ : ServerKeeps u s floor ticks up { l with protocol := p₁ } waiting :=
        h.of_server { hbase with ready := ⟨hbase.ready.out, hbase.ready.len⟩ } rfl
          (fun hstage => hstage.of_server rfl rfl rfl (Or.inl rfl) rfl) rfl rfl
      have hfit : (packetBytes 0x00 (fieldsBytes [.varInt32 (l.protocol.client.pingID + 1).toUInt32])).length
          ≤ 64 * 1024 := by
        have htype := varInt32_length_le 0x00
        have hid := varInt32_length_le (l.protocol.client.pingID + 1).toUInt32
        simp only [packetBytes, fieldsBytes_cons, fieldsBytes_nil, List.length_append, Field.bytes, List.length_nil]
        omega
      obtain ⟨p', hpacket, hsent⟩ := ProtocolImpl.packet_of_fit u.server hkeeps₁.base.ready hfit
      refine ⟨p', ?_, hsent.kept.decoding, fun hnot => absurd (hnot.symm.trans hping.2) Bool.false_ne_true,
        hkeeps₁.sends hstate (.keepAlive _) hsent⟩
      rw [ProtocolImpl.sendKeepAlive, if_neg (not_not_intro hstate)]
      exact hpacket
  · exact ⟨l.protocol, rfl, rfl, fun _ => rfl, h⟩

theorem Server.ProtocolImpl.clientSendDisconnect_ticks {env : Server.Env} {p p' : ProtocolImpl} {reason : Int32}
    (hready : p.Ready) (h : p.clientSendDisconnect env reason = .ok p') :
    p'.client.ticksSinceLastPacket = p.client.ticksSinceLastPacket := by
  have hpacket : ∀ {packetType fields p'}, p.packet env packetType fields = .ok p' →
      p'.client.ticksSinceLastPacket = p.client.ticksSinceLastPacket := by
    intro packetType fields p' hrun
    obtain ⟨-, out, len, rfl⟩ := ProtocolImpl.sent_of_packet hready hrun
    rfl
  unfold ProtocolImpl.clientSendDisconnect at h
  split at h
  · rw [Checked.pure_eq_ok, Except.ok.injEq] at h
    rw [← h]
  · obtain ⟨p₁, hrun, h⟩ := exists_of_bind_ok h
    rw [Checked.pure_eq_ok, Except.ok.injEq] at h
    have hsame : p₁.client.ticksSinceLastPacket = p.client.ticksSinceLastPacket := by
      unfold ProtocolImpl.sendDisconnect at hrun
      split_ifs at hrun
      · exact hpacket hrun
      · exact hpacket hrun
      · cases hrun
        rfl
    rw [← h]
    exact hsame

/-- The end of a tick. -/
theorem ServerKeeps.checkTimeout {up : Coding} {l : ServerLink} (h : ServerKeeps u s floor ticks up l waiting) :
    ∃ p', ServerLink.checkTimeout u.server l.protocol = .ok p' ∧ p'.client.ticksSinceLastPacket = ticks + 1
      ∧ (ticks < 600 → p'.decoding = l.protocol.decoding ∧ p'.client.outgoingData = l.protocol.client.outgoingData
        ∧ ServerKeeps u s floor (ticks + 1) up { l with protocol := p' } waiting) := by
  have hbase := h.base
  set p₁ : ProtocolImpl :=
    { l.protocol with client.ticksSinceLastPacket := l.protocol.client.ticksSinceLastPacket + 1 } with hp₁
  have hready₁ : p₁.Ready := ⟨hbase.ready.out, hbase.ready.len⟩
  have hticks : p₁.client.ticksSinceLastPacket = ticks + 1 := congrArg (· + 1) hbase.ticks
  unfold ServerLink.checkTimeout
  dsimp only
  split
  · next hlate =>
      have hreport := ProtocolImpl.kept_report hready₁ .clientTimeout
      obtain ⟨p', hrun⟩ := ProtocolImpl.clientSendDisconnect_total u.server hreport.ready ErrorCode.clientTimeout
      refine ⟨p', hrun, ?_, fun hintime => ?_⟩
      · rw [ProtocolImpl.clientSendDisconnect_ticks hreport.ready hrun]
        exact hticks
      · rw [hbase.ticks] at hlate
        omega
  · refine ⟨p₁, rfl, hticks, fun _ => ⟨rfl, rfl, ?_⟩⟩
    have hbase₁ : ServerBase u (ticks + 1) p₁ := { hbase with ready := hready₁, ticks := hticks }
    exact h.of_server hbase₁ rfl (fun hstage => hstage.of_server rfl rfl rfl (Or.inl rfl) rfl) rfl rfl

/-- A tick of the server. Without a ping nothing waits to be sent when it ends. -/
theorem serverTick_agrees (hu : u.Sound) (h : Agrees u s floor waiting) (pingDue : Bool) :
    ∃ events sent l, s.session.link.serverTick u.server pingDue = .ok (events, sent, l)
      ∧ l.protocol.client.ticksSinceLastPacket = s.session.link.protocol.client.ticksSinceLastPacket + 1
      ∧ (s.session.link.protocol.client.ticksSinceLastPacket < 600 →
        ∃ done left, waiting = done ++ left ∧ Delivers events done ∧ l.protocol.client.incomingData = []
          ∧ (pingDue = false → l.protocol.client.outgoingData = [])
          ∧ Agrees u { s with
              session.link := l
              toClient := s.toClient ++ sent
              serverTrace := s.serverTrace ++ events } floor left) := by
  obtain ⟨events, l₁, done, left, up, hrun, hwaiting, hdelivers, hquiet, hkeeps₁, hup⟩ := processIncoming_agrees hu h
  obtain ⟨hsent, hkeeps₂⟩ := hkeeps₁.flush
  obtain ⟨p₃, hping, hdecoding₃, hsame₃, hkeeps₃⟩ := hkeeps₂.works.ping pingDue
  obtain ⟨p₄, htimeout, hticks, hkeeps₄⟩ := hkeeps₃.checkTimeout
  refine ⟨events, l₁.protocol.client.outgoingData, { l₁ with protocol := p₄ }, ?_, hticks, fun hintime => ?_⟩
  · unfold ServerLink.serverTick
    rw [hrun, Checked.ok_bind]
    dsimp only at hping htimeout ⊢
    rw [hping, Checked.ok_bind, htimeout, Checked.ok_bind, hsent]
    rfl
  · obtain ⟨hdecoding₄, houtgoing, hbase, htaken, answers, down, hstage, hdown⟩ := hkeeps₄ hintime
    have hdecoding : p₄.decoding = l₁.protocol.decoding := by
      rw [hdecoding₄, hdecoding₃]
      dsimp only
      split <;> rfl
    have hbase' : ServerBase u p₄.client.ticksSinceLastPacket p₄ := { hbase with ticks := rfl }
    refine ⟨done, left, hwaiting, hdelivers, htaken, fun hnot => ?_, hbase', h.client, ?_, h.clientQuiet, answers, up,
      down, hstage, ?_, hdown⟩
    · rw [houtgoing, hsame₃ hnot]
      dsimp only
      split <;> rfl
    · exact List.forall_mem_append.mpr ⟨h.serverQuiet, hquiet⟩
    · unfold Upstream at hup ⊢
      rw [hkeeps₁.taken] at hup
      rw [hdecoding, htaken]
      exact hup

theorem ServerAt.queue_eq {isEncrypted : Bool} {state : UInt32} {clientState : EState → Prop}
    {queue : List (Int32 × AString × AString)}
    {session : Session} (h : ServerAt session.link.protocol session.served isEncrypted state clientState queue) :
    session.queue = queue := by
  obtain ⟨done, hdone, hserved⟩ := h.queue
  rw [Session.queue, hdone, ← hserved, List.drop_left]

/-- The users that wait for the authenticator in a stage. -/
theorem Stage.queue {rank : Nat} {answers : List Packet} {up down : Coding}
    (h : Stage u s.session.link.protocol s.session.served s.client.client rank waiting answers up down) :
    s.session.queue = []
      ∨ (waiting = [] ∧ answers = [] ∧ up = s.client.client.coding ∧ down = s.session.link.protocol.coding
        ∧ ServerAt s.session.link.protocol s.session.served true 2 (· = .csAuthenticating)
          [(u.uniqueID, u.userName, u.userName)]
        ∧ ClientAt s.client.client true true 2 ∧ rank = 9) := by
  cases h with
  | idle hp hc | statusRequest hp hc | statusResponse hp hc | loginStart hp hc | keyRequest hp hc | silent hp hc
  | keyResponse hp hc hencryptor hsecret hnonce | loginAllow hp hc | loginInfo hp hc => exact .inl hp.queue_eq
  | authenticating hp hc => exact .inr ⟨rfl, rfl, rfl, rfl, hp, hc, rfl⟩
  | loginSuccess hp hc hgame | signedIn hp hc hid hasked hgame => exact .inl hp.queue_eq

/-- A round of the authenticator. -/
theorem executeAuthenticator_agrees (h : Agrees u s floor waiting) :
    ∃ session, s.session.executeAuthenticator u.server = .ok session
      ∧ session.queue = []
      ∧ session.link.protocol.client.ticksSinceLastPacket = s.session.link.protocol.client.ticksSinceLastPacket
      ∧ Agrees u { s with session := session } floor waiting := by
  obtain ⟨answers, up, down, ⟨rank, hfloor, hstage⟩, hup, hdown⟩ := h.stage
  rcases hstage.queue with hqueue | ⟨rfl, rfl, rfl, rfl, hp, hc, rfl⟩
  · refine ⟨s.session, ?_, hqueue, rfl, h⟩
    rw [Session.executeAuthenticator, hqueue]
    rfl
  · have hbase := h.server
    obtain ⟨p₁, hrun, hsent⟩ := ProtocolImpl.authenticate_of_authenticating u.server hbase.ready hp.clientState
      u.userName []
    have hframe : frame (packetBytes 0x03 (fieldsBytes [.varInt32 s.session.link.protocol.client.uniqueID.toUInt32]))
        = u.loginSuccess.frame := by
      rw [hbase.uniqueID]
      rfl
    rw [hframe] at hsent
    have hbase₁ : ServerBase u s.session.link.protocol.client.ticksSinceLastPacket
        (s.session.link.protocol.authenticating u.userName []) :=
      { hbase with ready := ⟨hbase.ready.out, hbase.ready.len⟩ }
    have hbase₂ := hbase₁.sent hsent
    have hflow := hsent.flow hbase.hasSentDC hdown
    have hkept := hsent.kept
    set p' : ProtocolImpl := { p₁ with state := 3, client := { p₁.client with state := .csAuthenticated } } with hp'
    have hbase' : ServerBase u p'.client.ticksSinceLastPacket p' :=
      { hbase₂ with ready := ⟨hbase₂.ready.out, hbase₂.ready.len⟩, ticks := rfl }
    have hserver : ServerAt p' (s.session.served + 1) true 3 Authenticated [] := by
      obtain ⟨done, hdone, hserved⟩ := hp.queue
      refine ⟨hkept.isEncrypted.trans hp.isEncrypted, rfl, Or.inl rfl,
        done ++ [(u.uniqueID, u.userName, u.userName)], ?_, ?_⟩
      · rw [List.append_nil, ← hdone]
        exact congrArg (List.filterMap Request.user) hkept.requests
      · rw [List.length_append, hserved]
        rfl
    set session : Session := ⟨{ s.session.link with protocol := p' }, s.session.served + 1⟩ with hsession
    have hqueue : session.queue = [] := ServerAt.queue_eq hserver
    refine ⟨session, ?_, hqueue, hbase₂.ticks, hbase', h.client, h.serverQuiet, h.clientQuiet, _, _, _,
      ⟨_, Nat.le_succ_of_le hfloor, .loginSuccess hserver hc (List.forall_mem_nil _)⟩, ?_, hflow⟩
    · have hauth : Session.authenticateUser u.server s.session.link.protocol u.uniqueID u.userName u.userName
          = .ok p' := by
        rw [Session.authenticateUser, if_neg (not_not_intro hbase.uniqueID), if_pos (by simp [authFromDBPoll,
          ErrorCode.accountAuthOk])]
        exact hrun
      rw [Session.executeAuthenticator, hp.queue_eq]
      dsimp only
      rw [hauth]
      rfl
    · have hdecoding : p'.decoding = s.session.link.protocol.decoding := hkept.decoding
      unfold Upstream at hup ⊢
      rw [hdecoding]
      exact (hsent.incomingData : p₁.client.incomingData = _) ▸ hup

/-- A call of `OnRead`. -/
theorem onRead_agrees (hu : u.Sound) (h : Agrees u s floor waiting) {data rest : List UInt8}
    (hwire : s.toClient = data ++ rest) :
    ∃ events l more, s.client.onRead u.client data = .ok (events, l)
      ∧ Agrees u { s with client := l, toClient := rest, clientTrace := s.clientTrace ++ events } floor (waiting ++ more)
      ∧ (s.client.client.state ≠ 3 → l.client.state = 3 →
        ∃ later, waiting ++ more = Setup.joinRoom s.client.client.channel :: later) := by
  obtain ⟨answers, up, down, hstage, hup, hdown⟩ := h.stage
  have hkeeps : ClientKeeps u s floor waiting down s.client answers :=
    ⟨h.client, rfl, waiting, up, hstage, hup, ⟨[], (List.append_nil waiting).symm⟩, fun hne heq => absurd heq hne⟩
  unfold Downstream at hdown
  rw [hwire, List.append_assoc] at hdown
  obtain ⟨events, l, done, left, down', hrun, hanswers, hdelivers, hquiet, hkeeps', hflow⟩ :=
    client_receives hu hkeeps hdown
  obtain ⟨hbase, hchannel, waiting', up', hstage', hup', ⟨more, rfl⟩, hjoin⟩ := hkeeps'
  refine ⟨events, l, more, hrun, ⟨h.server, hbase, h.serverQuiet, ?_, left, up', down', hstage', hup', ?_⟩, hjoin⟩
  · exact List.forall_mem_append.mpr ⟨h.clientQuiet, hquiet⟩
  · unfold Downstream
    rw [decodedLog_append]
    exact hflow

/-- A client that is not connected has not begun. -/
theorem Stage.of_not_connected {p : ProtocolImpl} {served rank : Nat} {c : ConnectionClient} {answers : List Packet}
    {up down : Coding} (h : Stage u p served c rank waiting answers up down) (hconnect : c.bConnect = false) :
    rank = 0 ∧ waiting = [] ∧ answers = [] ∧ up = c.coding ∧ down = p.coding
      ∧ ServerAt p served false 1 (· = .csConnected) [] ∧ ClientAt c false false 1 := by
  have hconnected : ∀ {isEncrypted state}, ClientAt c true isEncrypted state → False := by
    intro isEncrypted state hc
    exact Bool.false_ne_true (hconnect.symm.trans hc.bConnect)
  cases h with
  | idle hp hc => exact ⟨rfl, rfl, rfl, rfl, rfl, hp, hc⟩
  | statusRequest hp hc | statusResponse hp hc | loginStart hp hc | keyRequest hp hc | silent hp hc
  | keyResponse hp hc hencryptor hsecret hnonce | loginAllow hp hc | loginInfo hp hc | authenticating hp hc
  | loginSuccess hp hc hgame | signedIn hp hc hid hasked hgame => exact (hconnected hc).elim

/-- The connection has been made. -/
theorem onConnect_agrees (h : Agrees u s floor waiting) (hconnect : s.client.client.bConnect = false) :
    ∃ c, s.client.client.onConnect u.client = .ok c ∧ c.state = 1
      ∧ Agrees u { s with client.client := c } (floor + 1) (waiting ++ [Setup.statusRequest]) := by
  obtain ⟨answers, up, down, ⟨rank, hfloor, hstage⟩, hup, hdown⟩ := h.stage
  obtain ⟨rfl, rfl, rfl, rfl, rfl, hp, hc⟩ := hstage.of_not_connected hconnect
  have hbase := h.client
  have hsend : ConnectionClient.CanSend { s.client.client with bConnect := true } :=
    ⟨hbase.canSend.ready, hbase.canSend.keyed⟩
  have hfit : (packetBytes 0x00 (fieldsBytes (ProtocolImpl.statusRequestFields ConnectionClient.defaultServer
      ConnectionClient.defaultPort 2))).length ≤ 16 * 1024 := by decide
  obtain ⟨c', hrun, hsent⟩ := ConnectionClient.packet_of_fit u.client hsend hfit
  have hbase₁ : ClientBase u { s.client.client with bConnect := true } :=
    ⟨hsend, hbase.keyed, hbase.userName, hbase.channel, hbase.quiet⟩
  have hc₁ : ClientAt { s.client.client with bConnect := true } true false 1 := ⟨rfl, hc.isEncrypted, hc.state⟩
  have hc' := hc₁.sent hsent
  have hflow := @ConnectionClient.Sent.flow _ _ _ Setup.statusRequest _ _ _ _ _ _ hsent hup
  have hdecoding : c'.decoding = s.client.client.decoding := by
    rw [ConnectionClient.decoding, ConnectionClient.decoding, hc'.isEncrypted, hc.isEncrypted]
    rfl
  refine ⟨c', hrun, hc'.state, h.server, hbase₁.sent hsent, h.serverQuiet, h.clientQuiet, _, _, _,
    ⟨_, Nat.succ_le_succ hfloor, .statusRequest hp hc'⟩, hflow, ?_⟩
  unfold Downstream at hdown ⊢
  rw [hdecoding]
  exact hdown

/-- `JoinChannel` only notes what it is given. -/
theorem joinChannel_eq (c : ConnectionClient) (server room : AString) :
    ∃ server' connecting', c.joinChannel server room
      = { c with channel := room, server := server', connecting := connecting' } := by
  cases hconnect : c.bConnect with
  | false =>
      refine ⟨server, true, ?_⟩
      simp [ConnectionClient.joinChannel, ConnectionClient.connectToServer, hconnect]
  | true =>
      refine ⟨c.server, c.connecting, ?_⟩
      simp [ConnectionClient.joinChannel, hconnect]

theorem joinChannel_agrees (h : Agrees u s floor waiting) {server room : AString} (hfits : Setup.Fits 0x01 room) :
    Agrees u { s with client.client := s.client.client.joinChannel server room } floor waiting := by
  have hbase := h.client
  obtain ⟨answers, up, down, ⟨rank, hfloor, hstage⟩, hup, hdown⟩ := h.stage
  obtain ⟨server', connecting', hjoin⟩ := joinChannel_eq s.client.client server room
  rw [hjoin]
  refine ⟨h.server, ⟨⟨hbase.canSend.ready, hbase.canSend.keyed⟩, hbase.keyed, hbase.userName, hfits, hbase.quiet⟩,
    h.serverQuiet, h.clientQuiet, answers, up, down, ⟨rank, hfloor, ?_⟩, hup, hdown⟩
  exact hstage.of_client rfl rfl rfl rfl rfl

/-- The network hands over the next bytes to the handle. -/
theorem onReceivedData_agrees (h : Agrees u s floor waiting) {data rest : List UInt8}
    (hsock : s.client.client.sock = data ++ rest) :
    Agrees u { s with
      session.link := s.session.link.onReceivedData data
      client.client.sock := rest } floor waiting := by
  have hserver := h.server
  have hclient := h.client
  obtain ⟨answers, up, down, ⟨rank, hfloor, hstage⟩, hup, hdown⟩ := h.stage
  refine ⟨{ hserver with ready := ⟨hserver.ready.out, hserver.ready.len⟩, ticks := rfl },
    { hclient with canSend := ⟨hclient.canSend.ready, hclient.canSend.keyed⟩ }, h.serverQuiet, h.clientQuiet, answers,
    up, down, ⟨rank, hfloor, ?_⟩, ?_, hdown⟩
  · have hserver' : Stage u (s.session.link.onReceivedData data).protocol s.session.served s.client.client rank
        waiting answers up down := hstage.of_server rfl rfl rfl (Or.inl rfl) rfl
    exact hserver'.of_client rfl rfl rfl rfl rfl
  · unfold Upstream at hup ⊢
    rw [hsock, ← List.append_assoc] at hup
    exact hup

/-- The server's rooms send a packet to their client. -/
theorem sends_agrees (h : Agrees u s floor waiting) (hworking : s.session.link.protocol.state = 3) {q : Packet}
    {p' : ProtocolImpl} (hq : GamePacket q) (hsent : ProtocolImpl.Sent u.server s.session.link.protocol q.frame p') :
    Agrees u { s with session.link.protocol := p' } floor waiting := by
  obtain ⟨answers, up, down, ⟨rank, hfloor, hstage⟩, hup, hdown⟩ := h.stage
  obtain ⟨rfl, hstage'⟩ := hstage.sends hworking hq hsent.kept
  refine ⟨{ h.server.sent hsent with ticks := rfl }, h.client, h.serverQuiet, h.clientQuiet, _, up, _,
    ⟨rank, hfloor, hstage'⟩, ?_,
    hsent.flow h.server.hasSentDC hdown⟩
  unfold Upstream at hup ⊢
  rw [hsent.kept.decoding, hsent.incomingData]
  exact hup

/-- **Step.** The two ends still agree, and what the server has handled was the next on its way. A client that has
signed in has asked for its channel. -/
theorem Connection.Step.agrees (hu : u.Sound) (h : Agrees u s floor waiting) {event : Connection.Event} {s' : Connection}
    (hstep : Connection.Step u s event s') :
    ∃ trace done more left, s'.serverTrace = s.serverTrace ++ trace ∧ Delivers trace done
      ∧ waiting ++ more = done ++ left ∧ Agrees u s' floor left
      ∧ (s.client.client.state ≠ 3 → s'.client.client.state = 3 →
        ∃ later, left = Setup.joinRoom s.client.client.channel :: later) := by
  have hquiet : s.serverTrace = s.serverTrace ++ [] := (List.append_nil _).symm
  cases hstep with
  | @joinChannel server room hfits =>
      refine ⟨[], [], [], waiting, hquiet, .nil, List.append_nil waiting, joinChannel_agrees h hfits,
        fun hne heq => absurd ?_ hne⟩
      obtain ⟨server', connecting', hjoin⟩ := joinChannel_eq s.client.client server room
      dsimp only at heq
      rw [hjoin] at heq
      exact heq
  | @onConnect c hconnecting hone hrun =>
      obtain ⟨c', hrun', hstate, hagrees⟩ := onConnect_agrees h hone
      rw [hrun, Except.ok.injEq] at hrun'
      subst hrun'
      refine ⟨[], [], [Setup.statusRequest], _, hquiet, .nil, rfl, hagrees.mono (Nat.le_succ floor), fun _ heq => ?_⟩
      rw [hstate] at heq
      cases heq
  | onReceivedData _ hsock =>
      exact ⟨[], [], [], waiting, hquiet, .nil, List.append_nil waiting, onReceivedData_agrees h hsock,
        fun hne heq => absurd heq hne⟩
  | @serverTick pingDue events sent l hrun hintime =>
      obtain ⟨events', sent', l', hrun', hticks, hagrees⟩ := serverTick_agrees hu h pingDue
      rw [hrun, Except.ok.injEq, Prod.mk.injEq, Prod.mk.injEq] at hrun'
      obtain ⟨rfl, rfl, rfl⟩ := hrun'
      rw [hticks] at hintime
      obtain ⟨done, left, hwaiting, hdelivers, -, -, hagrees⟩ := hagrees hintime
      refine ⟨events, done, [], left, rfl, hdelivers, ?_, hagrees, fun hne heq => absurd heq hne⟩
      rw [List.append_nil, hwaiting]
  | executeAuthenticator hrun =>
      obtain ⟨session', hrun', -, -, hagrees⟩ := executeAuthenticator_agrees h
      rw [hrun, Except.ok.injEq] at hrun'
      subst hrun'
      exact ⟨[], [], [], waiting, hquiet, .nil, List.append_nil waiting, hagrees, fun hne heq => absurd heq hne⟩
  | onRead _ hwire hrun =>
      obtain ⟨events', l', more, hrun', hagrees, hjoin⟩ := onRead_agrees hu h hwire
      rw [hrun, Except.ok.injEq, Prod.mk.injEq] at hrun'
      obtain ⟨rfl, rfl⟩ := hrun'
      exact ⟨[], [], more, _, hquiet, .nil, rfl, hagrees, hjoin⟩
  | @onJoinChannelResult room result p hworking hfits hrun =>
      have hsent := ProtocolImpl.sent_of_packet h.server.ready hrun
      exact ⟨[], [], [], waiting, hquiet, .nil, List.append_nil waiting,
        sends_agrees h hworking (.roomJoin room result.toUInt32 hfits) hsent, fun hne heq => absurd heq hne⟩
  | @onChannelMsg fromID room msg p hworking hfits hrun =>
      have hsent := ProtocolImpl.sent_of_packet h.server.ready hrun
      exact ⟨[], [], [], waiting, hquiet, .nil, List.append_nil waiting,
        sends_agrees h hworking (.channelMsg fromID.toUInt32 room msg hfits) hsent, fun hne heq => absurd heq hne⟩

/-- **Run.** What holds of the steps holds of the runs. -/
theorem agrees_of_run (hu : u.Sound) (h : Agrees u s floor waiting) {events : List Connection.Event} {s' : Connection}
    (hrun : Run (Connection.Step u) s events s') :
    ∃ trace done more left, s'.serverTrace = s.serverTrace ++ trace ∧ Delivers trace done
      ∧ waiting ++ more = done ++ left ∧ Agrees u s' floor left := by
  induction hrun with
  | nil => exact ⟨[], [], [], waiting, (List.append_nil _).symm, .nil, List.append_nil waiting, h⟩
  | snoc _ hstep ih =>
      obtain ⟨trace, done, more, left, htrace, hdelivers, hwaiting, hagrees⟩ := ih
      obtain ⟨trace', done', more', left', htrace', hdelivers', hleft, hagrees', -⟩ := hstep.agrees hu hagrees
      refine ⟨trace ++ trace', done ++ done', more ++ more', left', ?_, hdelivers.append hdelivers', ?_, hagrees'⟩
      · rw [htrace', htrace, List.append_assoc]
      · rw [← List.append_assoc, hwaiting, List.append_assoc, hleft, List.append_assoc]

theorem agrees_start : Agrees u (Connection.start u) 0 [] where
  server := ⟨ProtocolImpl.ready_create _ _, rfl, rfl, rfl, rfl, rfl, rfl, rfl⟩
  client := ⟨⟨holds_create _ _, fun h => absurd h Bool.false_ne_true⟩, fun h => absurd h Bool.false_ne_true, rfl,
    Setup.fits_nil, List.forall_mem_nil _⟩
  serverQuiet := List.forall_mem_nil _
  clientQuiet := List.forall_mem_nil _
  stage := by
    refine ⟨[], _, _, ⟨0, le_rfl, .idle ⟨rfl, rfl, rfl, [], rfl, rfl⟩ ⟨rfl, rfl, rfl⟩⟩, ?_, ?_⟩
    · exact Flow.idle (holds_create _ _) none
    · exact Flow.idle (holds_create _ _) none

end Steps

end Licode
