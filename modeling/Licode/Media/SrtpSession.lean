import Licode.Media.SrtpTransport

/-!
# Two transports over an open network

A client and a server have the same keys for each of their DTLS sessions, each sends with its own half, and the network
may lose, repeat, delay and turn back what they send, bring it to the other component, and bring in anything
that is not protected with one of the keys. What a listener gets is a packet that `write` was called with at the
other end.
-/

namespace Licode.Media

/-! ### The keys -/

theorem letter_inj : ∀ m < 64, ∀ n < 64, base64.letter m = base64.letter n → m = n := by decide +kernel

/-- The padding is not one of the letters. -/
theorem letter_ne_padding : ∀ n < 64, base64.letter n ≠ 61 := by decide +kernel

theorem base64_inj {xs ys : List UInt8} (h : base64 xs = base64 ys) : xs = ys := by
  have hbyte : ∀ {a b : UInt8}, a.toNat = b.toNat → a = b := UInt8.toNat_inj.mp
  induction xs using base64.induct generalizing ys with
  | case1 => rcases ys with _ | ⟨a', _ | ⟨b', _ | ⟨c', ys⟩⟩⟩ <;> [rfl; cases h; cases h; cases h]
  | case2 a =>
      have ha := a.toNat_lt
      rcases ys with _ | ⟨a', _ | ⟨b', _ | ⟨c', ys⟩⟩⟩ <;> simp only [base64, List.cons.injEq, reduceCtorEq] at h
      · have ha' := a'.toNat_lt
        have hfirst := letter_inj _ (by omega) _ (by omega) h.1
        have hsecond := letter_inj _ (by omega) _ (by omega) h.2.1
        rw [hbyte (show a.toNat = a'.toNat by omega)]
      · exact absurd h.2.2.1.symm (letter_ne_padding _ (by omega))
      · exact absurd h.2.2.1.symm (letter_ne_padding _ (by omega))
  | case3 a b =>
      have ha := a.toNat_lt
      have hb := b.toNat_lt
      rcases ys with _ | ⟨a', _ | ⟨b', _ | ⟨c', ys⟩⟩⟩ <;> simp only [base64, List.cons.injEq, reduceCtorEq] at h
      · exact absurd h.2.2.1 (letter_ne_padding _ (by omega))
      · have ha' := a'.toNat_lt
        have hb' := b'.toNat_lt
        have hfirst := letter_inj _ (by omega) _ (by omega) h.1
        have hsecond := letter_inj _ (by omega) _ (by omega) h.2.1
        have hthird := letter_inj _ (by omega) _ (by omega) h.2.2.1
        rw [hbyte (show a.toNat = a'.toNat by omega), hbyte (show b.toNat = b'.toNat by omega)]
      · exact absurd h.2.2.2.1.symm (letter_ne_padding _ (by omega))
  | case4 a b c rest ih =>
      have ha := a.toNat_lt
      have hb := b.toNat_lt
      have hc := c.toNat_lt
      rcases ys with _ | ⟨a', _ | ⟨b', _ | ⟨c', ys⟩⟩⟩ <;> simp only [base64, List.cons.injEq, reduceCtorEq] at h
      · exact absurd h.2.2.1 (letter_ne_padding _ (by omega))
      · exact absurd h.2.2.2.1 (letter_ne_padding _ (by omega))
      · have ha' := a'.toNat_lt
        have hb' := b'.toNat_lt
        have hc' := c'.toNat_lt
        obtain ⟨h₁, h₂, h₃, h₄, hrest⟩ := h
        have hfirst := letter_inj _ (by omega) _ (by omega) h₁
        have hsecond := letter_inj _ (by omega) _ (by omega) h₂
        have hthird := letter_inj _ (by omega) _ (by omega) h₃
        have hfourth := letter_inj _ (by omega) _ (by omega) h₄
        rw [hbyte (show a.toNat = a'.toNat by omega), hbyte (show b.toNat = b'.toNat by omega),
          hbyte (show c.toNat = c'.toNat by omega), ih hrest]

/-! ### The system -/

structure MediaSession where
  client : MediaTransport
  server : MediaTransport

namespace MediaSession

def create (rtcpMux : Bool) : MediaSession := ⟨.create false rtcpMux, .create true rtcpMux⟩

inductive Event where
  | client (event : MediaTransport.Event)
  | server (event : MediaTransport.Event)

/-- What can be sent without the keys. -/
def Foreign (keys : Component → List UInt8 × List UInt8) (packet : NiceData) : Prop :=
  ∀ ctx key data, packet = .srtp key data → key ≠ base64 (keys ctx).1 ∧ key ≠ base64 (keys ctx).2

/-- What the network may bring. -/
def Carried (s : MediaSession) (keys : Component → List UInt8 × List UInt8) (packet : NiceData) : Prop :=
  packet ∈ s.client.sent.map Prod.snd ∨ packet ∈ s.server.sent.map Prod.snd ∨ Foreign keys packet

/-- Both ends export the keys of the session. -/
def Allowed (s : MediaSession) (keys : Component → List UInt8 × List UInt8) : MediaTransport.Event → Prop
  | .handshake ctx sslerr ssl => sslerr = .none → ssl.getSrtpSessionKeys = keys ctx
  | .receive _ packet _ => s.Carried keys packet
  | _ => True

inductive Step (keys : Component → List UInt8 × List UInt8) (srtpCreate : AString → Bool) (s : MediaSession) :
    Event → MediaSession → Prop
  | client {event : MediaTransport.Event} {client : MediaTransport} (hallowed : s.Allowed keys event)
      (hstep : MediaTransport.Step srtpCreate s.client event client) :
      Step keys srtpCreate s (.client event) { s with client := client }
  | server {event : MediaTransport.Event} {server : MediaTransport} (hallowed : s.Allowed keys event)
      (hstep : MediaTransport.Step srtpCreate s.server event server) :
      Step keys srtpCreate s (.server event) { s with server := server }

end MediaSession

/-! ### Authenticity -/

namespace MediaTransport

/-- The sessions have these keys. -/
def Exports (keys : Component → List UInt8 × List UInt8) (ctx : Component) (ssl : Ssl) : Prop :=
  ssl.getSrtpSessionKeys = keys ctx

variable {keys : Component → List UInt8 × List UInt8} {srtpCreate : AString → Bool} {m m' peer : MediaTransport}
  {event : Event}

/-- What gets through to the listener has been protected with one of the keys of the other end. -/
theorem Inv.onNiceData {P : Component → Ssl → Prop} (h : Inv P m) {comp : Component} {packet out : NiceData} {ok : Bool}
    (hout : m.live.transport.onNiceData comp packet ok = some out) :
    ∃ ctx ssl data, P ctx ssl ∧ packet = .srtp (receivingKey m.live.transport.isServer ssl) data ∧ out = .plain data := by
  unfold DtlsTransport.onNiceData at hout
  have hready : m.live.transport.state = .ready := by
    by_contra hnot
    rw [if_neg hnot] at hout
    cases hout
  have hchosen : ∃ ctx channel, (if m.live.transport.dtlsRtcp.isSome ∧ comp = .rtcp then m.live.transport.srtcp
      else m.live.transport.srtp) = some channel ∧ m.live.transport.channel ctx = some channel ∧ channel.active = true := by
    split_ifs with hrtcp
    · obtain ⟨channel, hchannel, hactive⟩ := h.channel.active_of_ready hready .rtcp (.inr hrtcp.1)
      exact ⟨.rtcp, channel, hchannel, hchannel, hactive⟩
    · obtain ⟨channel, hchannel, hactive⟩ := h.channel.active_of_ready hready .rtp (.inl rfl)
      exact ⟨.rtp, channel, hchannel, hchannel, hactive⟩
  obtain ⟨ctx, channel, hsrtp, hchannel, hactive⟩ := hchosen
  obtain ⟨ssl, hssl, -, hkey⟩ := h.channel.keys ctx channel hchannel
  rw [if_pos hready, hsrtp] at hout
  obtain ⟨hunprotect, -⟩ := Option.filter_eq_some_iff.mp hout
  unfold SrtpChannel.unprotectPacket at hunprotect
  rw [if_neg (by simp [hactive])] at hunprotect
  cases packet with
  | plain data => cases hunprotect
  | srtp key data =>
      dsimp only at hunprotect
      split_ifs at hunprotect with hok
      cases hunprotect
      exact ⟨ctx, ssl, data, hssl, by rw [hok.1, hkey], rfl⟩

/-- The two ends never send with the same key. -/
theorem sendingKey_ne {ctx ctx' : Component} {ssl ssl' : Ssl} (hssl : Exports keys ctx ssl) (hssl' : Exports keys ctx' ssl')
    (hkeys : ∀ ctx ctx', (keys ctx).1 ≠ (keys ctx').2) (isServer : Bool) :
    sendingKey isServer ssl ≠ receivingKey isServer ssl' := by
  have hdiffer : ∀ {ctx ctx' : Component} {ssl ssl' : Ssl}, Exports keys ctx ssl → Exports keys ctx' ssl' →
      base64 ssl.getSrtpSessionKeys.1 ≠ base64 ssl'.getSrtpSessionKeys.2 := by
    intro ctx ctx' ssl ssl' hssl hssl' heq
    refine hkeys ctx ctx' ?_
    rw [← hssl, ← hssl']
    exact base64_inj heq
  rw [receivingKey, sendingKey, sendingKey]
  cases isServer with
  | false => exact hdiffer hssl hssl'
  | true => exact (hdiffer hssl' hssl).symm

theorem delivered_authentic (hm : Inv (Exports keys) m) (hpeer : Inv (Exports keys) peer)
    (hkeys : ∀ ctx ctx', (keys ctx).1 ≠ (keys ctx').2) {comp : Component} {packet out : NiceData} {ok : Bool}
    (hcarried : packet ∈ peer.sent.map Prod.snd ∨ packet ∈ m.sent.map Prod.snd ∨ MediaSession.Foreign keys packet)
    (hout : m.live.transport.onNiceData comp packet ok = some out) : ∃ data ∈ peer.written, out = .plain data := by
  obtain ⟨ctx, ssl, data, hssl, rfl, rfl⟩ := hm.onNiceData hout
  rcases hcarried with hpacket | hpacket | hforeign
  · obtain ⟨sent, hsent, heq⟩ := List.mem_map.mp hpacket
    obtain ⟨data', hdata, -, hplain | ⟨ssl', -, hsrtp⟩⟩ := hpeer.sent sent hsent
    · rw [hplain] at heq
      cases heq
    · rw [hsrtp, NiceData.srtp.injEq] at heq
      exact ⟨data, heq.2 ▸ hdata, rfl⟩
  · -- a packet of its own that comes back has the other key
    obtain ⟨sent, hsent, heq⟩ := List.mem_map.mp hpacket
    obtain ⟨data', -, -, hplain | ⟨ssl', hssl', hsrtp⟩⟩ := hm.sent sent hsent
    · rw [hplain] at heq
      cases heq
    · rw [hsrtp, NiceData.srtp.injEq] at heq
      exact absurd heq.1 (sendingKey_ne hssl' hssl hkeys _)
  · have hnot := hforeign ctx _ _ rfl
    rw [← hssl, receivingKey, sendingKey] at hnot
    cases hserver : m.live.transport.isServer with
    | false =>
        rw [hserver] at hnot
        exact absurd rfl hnot.2
    | true =>
        rw [hserver] at hnot
        exact absurd rfl hnot.1

/-- What a step can deliver, and that it forgets nothing that was written. -/
theorem Moves.delivered (h : Moves srtpCreate m event m') :
    (∀ data ∈ m.written, data ∈ m'.written) ∧ ∀ out ∈ m'.delivered, out ∈ m.delivered
      ∨ ∃ comp packet ok, event = .receive comp packet ok ∧ m.live.transport.onNiceData comp packet ok = some out := by
  cases h with
  | write hwriter => exact ⟨fun data => List.mem_append_left _, fun out => .inl⟩
  | @receive comp packet ok =>
      refine ⟨fun data => id, fun out hout => ?_⟩
      rcases List.mem_append.mp hout with hout | hout
      · exact .inl hout
      · exact .inr ⟨comp, packet, ok, rfl, Option.mem_toList.mp hout⟩
  | _ => exact ⟨fun data => id, fun out => .inl⟩

end MediaTransport

namespace MediaSession

/-- What every run keeps. -/
structure Authentic (keys : Component → List UInt8 × List UInt8) (s : MediaSession) : Prop where
  client : MediaTransport.Inv (MediaTransport.Exports keys) s.client
  server : MediaTransport.Inv (MediaTransport.Exports keys) s.server
  toClient : ∀ out ∈ s.client.delivered, ∃ data ∈ s.server.written, out = .plain data
  toServer : ∀ out ∈ s.server.delivered, ∃ data ∈ s.client.written, out = .plain data

theorem authentic_create (keys : Component → List UInt8 × List UInt8) (rtcpMux : Bool) : Authentic keys (create rtcpMux) :=
  ⟨MediaTransport.inv_create _ _ _, MediaTransport.inv_create _ _ _, by simp [create, MediaTransport.create],
    by simp [create, MediaTransport.create]⟩

theorem Authentic.step {keys : Component → List UInt8 × List UInt8} {srtpCreate : AString → Bool} {s s' : MediaSession}
    {event : Event} (h : Authentic keys s) (hkeys : ∀ ctx ctx', (keys ctx).1 ≠ (keys ctx').2)
    (hstep : Step keys srtpCreate s event s') : Authentic keys s' := by
  cases hstep with
  | @client event client hallowed hstep =>
      obtain ⟨hwritten, hdelivered⟩ := hstep.moves.delivered
      refine ⟨h.client.step hstep fun ctx ssl heq => ?_, h.server, fun out hout => ?_, fun out hout => ?_⟩
      · subst heq
        exact hallowed rfl
      · rcases hdelivered out hout with hold | ⟨comp, packet, ok, rfl, hnew⟩
        · exact h.toClient out hold
        · exact MediaTransport.delivered_authentic h.client h.server hkeys (or_left_comm.mp hallowed) hnew
      · obtain ⟨data, hdata, heq⟩ := h.toServer out hout
        exact ⟨data, hwritten data hdata, heq⟩
  | @server event server hallowed hstep =>
      obtain ⟨hwritten, hdelivered⟩ := hstep.moves.delivered
      refine ⟨h.client, h.server.step hstep fun ctx ssl heq => ?_, fun out hout => ?_, fun out hout => ?_⟩
      · subst heq
        exact hallowed rfl
      · obtain ⟨data, hdata, heq⟩ := h.toClient out hout
        exact ⟨data, hwritten data hdata, heq⟩
      · rcases hdelivered out hout with hold | ⟨comp, packet, ok, rfl, hnew⟩
        · exact h.toServer out hold
        · exact MediaTransport.delivered_authentic h.server h.client hkeys hallowed hnew

/-- **Media is authentic.** Whatever the network does, and however the threads of the two ends interleave, a listener
gets only packets that `write` was called with at the other end. -/
theorem media_authentic {keys : Component → List UInt8 × List UInt8} {srtpCreate : AString → Bool} {rtcpMux : Bool}
    {events : List Event} {s : MediaSession} (hkeys : ∀ ctx ctx', (keys ctx).1 ≠ (keys ctx').2)
    (hrun : Run (Step keys srtpCreate) (create rtcpMux) events s) :
    (∀ out ∈ s.client.delivered, ∃ data ∈ s.server.written, out = .plain data)
      ∧ ∀ out ∈ s.server.delivered, ∃ data ∈ s.client.written, out = .plain data := by
  have hauthentic : Authentic keys s :=
    hrun.invariant (authentic_create keys rtcpMux) fun h hstep => h.step hkeys hstep
  exact ⟨hauthentic.toClient, hauthentic.toServer⟩

/-- A side takes some steps that the network has no part in. -/
theorem run_client {keys : Component → List UInt8 × List UInt8} {srtpCreate : AString → Bool} {client client' : MediaTransport}
    {events : List MediaTransport.Event} (server : MediaTransport)
    (hrun : Run (MediaTransport.Step srtpCreate) client events client')
    (hallowed : ∀ client, ∀ event ∈ events, Allowed ⟨client, server⟩ keys event) :
    Run (Step keys srtpCreate) ⟨client, server⟩ (events.map .client) ⟨client', server⟩ := by
  induction hrun with
  | nil => exact .nil
  | @snoc events client₁ event client₂ _ hstep ih =>
      rw [List.map_append]
      refine (ih fun client event hmem => hallowed client event (List.mem_append_left _ hmem)).snoc ?_
      exact .client (hallowed client₁ event (List.mem_append_right _ (List.mem_singleton_self _))) hstep

/-- A packet from the client to the server. -/
theorem media_authentic_call : ∃ events s,
    Run (Step (fun _ => MediaTransport.callSsl.getSrtpSessionKeys) fun _ => true) (create true) events s
    ∧ s.server.delivered = [.plain MediaTransport.callPacket]
    ∧ (∀ out ∈ s.client.delivered, ∃ data ∈ s.server.written, out = .plain data)
    ∧ ∀ out ∈ s.server.delivered, ∃ data ∈ s.client.written, out = .plain data := by
  have hclient : ∃ m, MediaTransport.callEvents.foldlM (MediaTransport.tryNext fun _ => true) (.create false true) = some m
      ∧ m.sent = [(.rtp, .srtp (sendingKey false MediaTransport.callSsl) MediaTransport.callPacket)] := ⟨_, rfl, rfl⟩
  obtain ⟨client, hclient, hsent⟩ := hclient
  have hfirst : Run (Step (fun _ => MediaTransport.callSsl.getSrtpSessionKeys) fun _ => true) (create true) _ _ :=
    run_client (.create true true) (Run.of_foldlM hclient) (by
      intro client event hmem
      simp only [MediaTransport.callEvents, List.mem_cons, List.not_mem_nil, or_false] at hmem
      rcases hmem with rfl | rfl | rfl | rfl | rfl | rfl <;> first | trivial | exact fun _ => rfl)
  have hserver : ∃ m, MediaTransport.tryNext (fun _ => true) (.create true true)
        (.handshake .rtp .none MediaTransport.callSsl) = some m
      ∧ ∃ m', m.tryNext (fun _ => true) (.receive .rtp
        (.srtp (sendingKey false MediaTransport.callSsl) MediaTransport.callPacket) true) = some m'
      ∧ m'.delivered = [.plain MediaTransport.callPacket] := ⟨_, rfl, _, rfl, rfl⟩
  obtain ⟨server, hcompletes, server', hreceives, hdelivered⟩ := hserver
  have hkeys : Allowed ⟨client, .create true true⟩ (fun _ => MediaTransport.callSsl.getSrtpSessionKeys)
      (.handshake .rtp .none MediaTransport.callSsl) := fun _ => rfl
  have hcarried : Allowed ⟨client, server⟩ (fun _ => MediaTransport.callSsl.getSrtpSessionKeys) (.receive .rtp
      (.srtp (sendingKey false MediaTransport.callSsl) MediaTransport.callPacket) true) :=
    Or.inl (by rw [hsent]; simp)
  have hrun := (hfirst.snoc (.server hkeys hcompletes)).snoc (.server hcarried hreceives)
  exact ⟨_, _, hrun, hdelivered, media_authentic (fun _ _ => by decide) hrun⟩

end MediaSession

end Licode.Media
