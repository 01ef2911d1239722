import Licode.Login.ClientPackets
import Licode.Login.ServerPackets

/-!
# Whole calls of `DataReceived` in the login

What is on its way fits the rings in every stage, so a call reads as many packets as have arrived, also where the mode
changes within it.
-/

namespace Licode

open ByteBuffer Receiver Server Client

/-! ### What fits the rings -/

theorem frame_length_le (bytes : List UInt8) : (frame bytes).length ≤ bytes.length + 5 := by
  have hle := varInt32_length_le (UInt32.ofNat bytes.length)
  rw [frame, List.length_append]
  omega

theorem Setup.frame_length_of_fits {packetType : UInt32} {text : AString} (h : Setup.Fits packetType text) :
    (frame (packetBytes packetType (fieldsBytes [.string text]))).length ≤ 64 * 1024 - 511 := by
  have hle := frame_length_le (packetBytes packetType (fieldsBytes [.string text]))
  unfold Setup.Fits at h
  omega

theorem Setup.keepAlive_frame_length_le (id : UInt32) : (Setup.keepAlive id).frame.length ≤ 20 := by
  have hle := frame_length_le (packetBytes 0x00 (fieldsBytes [.varInt32 id]))
  have htype := varInt32_length_le 0x00
  have hid := varInt32_length_le id
  have hbytes : (packetBytes 0x00 (fieldsBytes [.varInt32 id])).length ≤ 10 := by
    simp only [packetBytes, fieldsBytes_cons, fieldsBytes_nil, List.length_append, Field.bytes, List.length_nil]
    omega
  exact hle.trans (by omega)

theorem Setup.Sound.keyResponse_frame_length_le {u : Setup} (hu : u.Sound)
    {data data' encrypted encrypted' : List UInt8}
    (hsecret : u.encrypt u.server.publicKeyDER data = some encrypted)
    (hnonce : u.encrypt u.server.publicKeyDER data' = some encrypted') :
    (Setup.keyResponse encrypted encrypted').frame.length ≤ 300 := by
  have hle := frame_length_le (packetBytes 0x01 (fieldsBytes (ConnectionClient.keyResponseFields encrypted encrypted')))
  have htype := varInt32_length_le 0x01
  have hsecretLength := (hu.decrypt _ _ hsecret).1
  have hnonceLength := (hu.decrypt _ _ hnonce).1
  rw [ConnectionClient.encryptedLength] at hsecretLength hnonceLength
  have hbytes : (packetBytes 0x01 (fieldsBytes (ConnectionClient.keyResponseFields encrypted encrypted'))).length
      ≤ 265 := by
    simp only [packetBytes, ConnectionClient.keyResponseFields, fieldsBytes_cons, fieldsBytes_nil, List.length_append,
      Field.bytes, bigEndian_length, List.length_nil]
    omega
  exact hle.trans (by omega)

theorem Setup.Sound.statusResponse_frame_length_le {u : Setup} (hu : u.Sound) :
    u.statusResponse.frame.length ≤ 16 * 1024 := by
  have hle := frame_length_le (packetBytes 0x00 (fieldsBytes [.beInt32 2, .bool true, .bool true, .string u.ipString]))
  have htype := varInt32_length_le 0x00
  have hstring := stringBytes_length_le u.ipString
  have hip := hu.ipString
  have hbytes : (packetBytes 0x00 (fieldsBytes [.beInt32 2, .bool true, .bool true, .string u.ipString])).length
      ≤ 16100 := by
    simp only [packetBytes, fieldsBytes_cons, fieldsBytes_nil, List.length_append, Field.bytes, bigEndian_length,
      List.length_singleton, List.length_nil]
    omega
  exact hle.trans (by omega)

theorem Setup.Sound.keyRequest_frame_length_le {u : Setup} (hu : u.Sound) : u.keyRequest.frame.length ≤ 16 * 1024 := by
  have hle := frame_length_le u.keyRequest.bytes
  have htype := varInt32_length_le 0x01
  have hstring := stringBytes_length_le u.server.serverID
  have hkey := hu.publicKey
  have hbytes : u.keyRequest.bytes.length ≤ 16100 := by
    simp only [Setup.keyRequest, Packet.bytes, packetBytes, fieldsBytes_cons, fieldsBytes_nil, List.length_append,
      Field.bytes, bigEndian_length, List.length_nil]
    omega
  exact hle.trans (by omega)

theorem GamePacket.frame_length_le {q : Packet} (h : GamePacket q) : q.frame.length ≤ 16 * 1024 - 511 := by
  cases h with
  | keepAlive id => exact (Setup.keepAlive_frame_length_le id).trans (by decide)
  | roomJoin room ret hfits => exact hfits
  | channelMsg fromID room msg hfits => exact hfits

section Rings

variable {u : Setup} {p p' : ProtocolImpl} {served rank : Nat} {c c' : ConnectionClient} {waiting answers : List Packet}
  {up down : Coding}

theorem stream_singleton (q : Packet) : (Packet.stream [q]).length = q.frame.length := by
  rw [Packet.stream_cons, Packet.stream_nil, List.append_nil]

/-- While the server is in the clear, what is on its way fits its ring, and the client encodes nothing. -/
theorem Stage.server_plain (hu : u.Sound) (h : Stage u p served c rank waiting answers up down)
    (hplain : p.isEncrypted = false) : (Packet.stream waiting).length ≤ 64 * 1024 ∧ up = none := by
  have hencrypted : ∀ {state clientState queue}, ServerAt p served true state clientState queue → False := by
    intro state clientState queue hp
    exact Bool.false_ne_true (hplain.symm.trans hp.isEncrypted)
  cases h with
  | idle hp hc => exact ⟨Nat.zero_le _, hc.coding_of_plain⟩
  | statusRequest hp hc => exact ⟨by decide, hc.coding_of_plain⟩
  | statusResponse hp hc => exact ⟨Nat.zero_le _, hc.coding_of_plain⟩
  | loginStart hp hc => exact ⟨by decide, hc.coding_of_plain⟩
  | keyRequest hp hc => exact ⟨Nat.zero_le _, hc.coding_of_plain⟩
  | silent hp hc hfails => exact ⟨Nat.zero_le _, hc.coding_of_plain⟩
  | keyResponse hp hc hencryptor hsecret hnonce =>
      have hle := hu.keyResponse_frame_length_le hsecret hnonce
      rw [stream_singleton]
      exact ⟨hle.trans (by decide), rfl⟩
  | loginAllow hp hc | loginInfo hp hc | authenticating hp hc | loginSuccess hp hc hgame
  | signedIn hp hc hid hasked hgame => exact (hencrypted hp).elim

/-- What is on its way to an encrypted server fits its ring beside part of a piece. -/
theorem Stage.server_encrypted (hu : u.Sound) (h : Stage u p served c rank waiting answers up down)
    (hencrypted : p.isEncrypted = true) : ∀ q ∈ waiting, q.frame.length ≤ 64 * 1024 - 511 := by
  have hplain : ∀ {state clientState queue}, ServerAt p served false state clientState queue → False := by
    intro state clientState queue hp
    exact Bool.false_ne_true (hp.isEncrypted.symm.trans hencrypted)
  cases h with
  | idle hp hc | statusRequest hp hc | statusResponse hp hc | loginStart hp hc | keyRequest hp hc | silent hp hc
  | keyResponse hp hc hencryptor hsecret hnonce => exact (hplain hp).elim
  | loginAllow hp hc => exact List.forall_mem_nil _
  | loginInfo hp hc => exact List.forall_mem_singleton.mpr (Setup.frame_length_of_fits hu.userName)
  | authenticating hp hc => exact List.forall_mem_nil _
  | loginSuccess hp hc hgame => exact List.forall_mem_nil _
  | @signedIn asked ids game hp hc hid hasked hgame =>
      refine List.forall_mem_append.mpr ⟨List.forall_mem_map.mpr fun room hroom => ?_,
        List.forall_mem_map.mpr fun id _ => (Setup.keepAlive_frame_length_le id).trans (by decide)⟩
      exact Setup.frame_length_of_fits (hasked room (Option.mem_toList.mp hroom))

theorem Stage.client_plain (hu : u.Sound) (h : Stage u p served c rank waiting answers up down)
    (hplain : c.isEncrypted = false) : (Packet.stream answers).length ≤ 16 * 1024 := by
  have hencrypted : ∀ {bConnect state}, ClientAt c bConnect true state → False := by
    intro bConnect state hc
    exact Bool.false_ne_true (hplain.symm.trans hc.isEncrypted)
  cases h with
  | idle hp hc => exact Nat.zero_le _
  | statusRequest hp hc => exact Nat.zero_le _
  | statusResponse hp hc =>
      rw [stream_singleton]
      exact hu.statusResponse_frame_length_le
  | loginStart hp hc => exact Nat.zero_le _
  | keyRequest hp hc =>
      rw [stream_singleton]
      exact hu.keyRequest_frame_length_le
  | silent hp hc hfails => exact Nat.zero_le _
  | keyResponse hp hc hencryptor hsecret hnonce | loginAllow hp hc | loginInfo hp hc | authenticating hp hc
  | loginSuccess hp hc hgame | signedIn hp hc hid hasked hgame => exact (hencrypted hc).elim

theorem Stage.client_encrypted (h : Stage u p served c rank waiting answers up down)
    (hencrypted : c.isEncrypted = true) : ∀ q ∈ answers, q.frame.length ≤ 16 * 1024 - 511 := by
  have hplain : ∀ {bConnect state}, ClientAt c bConnect false state → False := by
    intro bConnect state hc
    exact Bool.false_ne_true (hc.isEncrypted.symm.trans hencrypted)
  cases h with
  | idle hp hc | statusRequest hp hc | statusResponse hp hc | loginStart hp hc | keyRequest hp hc
  | silent hp hc hfails =>
      exact (hplain hc).elim
  | keyResponse hp hc hencryptor hsecret hnonce => exact List.forall_mem_nil _
  | loginAllow hp hc => exact List.forall_mem_singleton.mpr (by decide)
  | loginInfo hp hc => exact List.forall_mem_nil _
  | authenticating hp hc => exact List.forall_mem_nil _
  | loginSuccess hp hc hgame =>
      refine List.forall_mem_cons.mpr ⟨?_, fun q hq => (hgame q hq).frame_length_le⟩
      have hle := frame_length_le (packetBytes 0x03 (fieldsBytes [.varInt32 u.uniqueID.toUInt32]))
      have htype := varInt32_length_le 0x03
      have hid := varInt32_length_le u.uniqueID.toUInt32
      have hbytes : (packetBytes 0x03 (fieldsBytes [.varInt32 u.uniqueID.toUInt32])).length ≤ 10 := by
        simp only [packetBytes, fieldsBytes_cons, fieldsBytes_nil, List.length_append, Field.bytes, List.length_nil]
        omega
      exact hle.trans (by omega)
  | signedIn hp hc hid hasked hgame => exact fun q hq => (hgame q hq).frame_length_le

theorem ServerAt.of_eq {isEncrypted : Bool} {state : UInt32} {clientState : EState → Prop}
    {queue : List (Int32 × AString × AString)} (h : ServerAt p served isEncrypted state clientState queue)
    (hencrypted : p'.isEncrypted = p.isEncrypted) (hstate : p'.state = p.state) (hrequests : p'.requests = p.requests)
    (hclient : clientState p'.client.state) : ServerAt p' served isEncrypted state clientState queue :=
  ⟨hencrypted.trans h.isEncrypted, hstate.trans h.state, hclient, hrequests ▸ h.queue⟩

/-- The stage is told by a few fields of the server. -/
theorem Stage.of_server (h : Stage u p served c rank waiting answers up down)
    (hencrypted : p'.isEncrypted = p.isEncrypted) (hstate : p'.state = p.state) (hrequests : p'.requests = p.requests)
    (hclient : p'.client.state = p.client.state ∨ Authenticated p.client.state ∧ Authenticated p'.client.state)
    (hcoding : p'.coding = p.coding) : Stage u p' served c rank waiting answers up down := by
  have hbefore : ∀ {isEncrypted state clientState queue}, ¬ Authenticated clientState →
      ServerAt p served isEncrypted state (· = clientState) queue →
      ServerAt p' served isEncrypted state (· = clientState) queue := by
    intro isEncrypted state clientState queue hnot hp
    refine hp.of_eq hencrypted hstate hrequests ?_
    rcases hclient with hsame | ⟨hauth, -⟩
    · exact hsame.trans hp.clientState
    · rw [hp.clientState] at hauth
      exact absurd hauth hnot
  have hbehind : ∀ {isEncrypted state queue}, ServerAt p served isEncrypted state Authenticated queue →
      ServerAt p' served isEncrypted state Authenticated queue := by
    intro isEncrypted state queue hp
    refine hp.of_eq hencrypted hstate hrequests ?_
    rcases hclient with hsame | ⟨-, hauth⟩
    · rw [hsame]
      exact hp.clientState
    · exact hauth
  have hconnected : ¬ Authenticated .csConnected := by simp [Authenticated]
  have hwaits : ¬ Authenticated .csAuthenticating := by simp [Authenticated]
  cases h with
  | idle hp hc => exact hcoding ▸ .idle (hbefore hconnected hp) hc
  | statusRequest hp hc => exact hcoding ▸ .statusRequest (hbefore hconnected hp) hc
  | statusResponse hp hc => exact hcoding ▸ .statusResponse (hbefore hconnected hp) hc
  | loginStart hp hc => exact hcoding ▸ .loginStart (hbefore hconnected hp) hc
  | keyRequest hp hc => exact hcoding ▸ .keyRequest (hbefore hconnected hp) hc
  | silent hp hc hfails => exact hcoding ▸ .silent (hbefore hconnected hp) hc hfails
  | keyResponse hp hc hencryptor hsecret hnonce =>
      exact .keyResponse (hbefore hconnected hp) hc hencryptor hsecret hnonce
  | loginAllow hp hc => exact hcoding ▸ .loginAllow (hbefore hconnected hp) hc
  | loginInfo hp hc => exact hcoding ▸ .loginInfo (hbefore hconnected hp) hc
  | authenticating hp hc => exact hcoding ▸ .authenticating (hbefore hwaits hp) hc
  | loginSuccess hp hc hgame => exact hcoding ▸ .loginSuccess (hbehind hp) hc hgame
  | signedIn hp hc hid hasked hgame => exact hcoding ▸ .signedIn (hbehind hp) hc hid hasked hgame

/-- The stage is told by a few fields of the client. -/
theorem Stage.of_client (h : Stage u p served c rank waiting answers up down) (hconnect : c'.bConnect = c.bConnect)
    (hencrypted : c'.isEncrypted = c.isEncrypted) (hstate : c'.state = c.state) (hid' : c'.clientID = c.clientID)
    (hencryptor' : c'.encryptor = c.encryptor) : Stage u p served c' rank waiting answers up down := by
  have hkeep : ∀ {bConnect isEncrypted state}, ClientAt c bConnect isEncrypted state →
      ClientAt c' bConnect isEncrypted state := fun hc =>
    ⟨hconnect.trans hc.bConnect, hencrypted.trans hc.isEncrypted, hstate.trans hc.state⟩
  have hcoding : c'.coding = c.coding := by
    rw [ConnectionClient.coding, ConnectionClient.coding, hencrypted, hencryptor']
  cases h with
  | idle hp hc => exact hcoding ▸ .idle hp (hkeep hc)
  | statusRequest hp hc => exact hcoding ▸ .statusRequest hp (hkeep hc)
  | statusResponse hp hc => exact hcoding ▸ .statusResponse hp (hkeep hc)
  | loginStart hp hc => exact hcoding ▸ .loginStart hp (hkeep hc)
  | keyRequest hp hc => exact hcoding ▸ .keyRequest hp (hkeep hc)
  | silent hp hc hfails => exact hcoding ▸ .silent hp (hkeep hc) hfails
  | keyResponse hp hc hencryptor hsecret hnonce =>
      exact .keyResponse hp (hkeep hc) (hencryptor'.trans hencryptor) hsecret hnonce
  | loginAllow hp hc => exact hcoding ▸ .loginAllow hp (hkeep hc)
  | loginInfo hp hc => exact hcoding ▸ .loginInfo hp (hkeep hc)
  | authenticating hp hc => exact hcoding ▸ .authenticating hp (hkeep hc)
  | loginSuccess hp hc hgame => exact hcoding ▸ .loginSuccess hp (hkeep hc) hgame
  | signedIn hp hc hid hasked hgame => exact hcoding ▸ .signedIn hp (hkeep hc) (hid'.trans hid) hasked hgame

end Rings

/-! ### Whole calls of `DataReceived` -/

theorem Receiver.checkPacketRead_of_nul {σ : Type} (R : Receiver σ) {n : Nat} {bb : ByteBuffer} {items : List UInt8}
    (hbb : Holds bb n items [0]) (packetType : UInt32) (s : σ) : R.checkPacketRead packetType bb s = .ok ([], s) := by
  rw [checkPacketRead, hbb.getReadableSpace, Checked.ok_bind, if_neg (by simp), Checked.pure_eq_ok]

section Calls

variable {u : Setup} {s : Connection} {floor ticks : Nat} {up down : Coding}

theorem Server.ServerLink.handlePacket_of_protocol {env : Server.Env} {l : ServerLink} {bb bb' : ByteBuffer}
    {packetType : UInt32} {p' : ProtocolImpl} (h : l.protocol.handlePacket env bb packetType = .ok (true, bb', p')) :
    (ServerLink.receiver env).handlePacket l bb packetType = .ok (true, bb', { l with protocol := p' }) := by
  change (l.protocol.handlePacket env bb packetType >>= _) = _
  rw [h]
  rfl

theorem Client.ClientLink.handlePacket_of_client {env : Client.Env} {l : ClientLink} {bb bb' : ByteBuffer}
    {packetType : UInt32} {c' : ConnectionClient} (h : l.client.handlePacket env bb packetType = .ok (true, bb', c')) :
    (ClientLink.receiver env).handlePacket l bb packetType = .ok (true, bb', { l with client := c' }) := by
  change (l.client.handlePacket env bb packetType >>= _) = _
  rw [h]
  rfl

/-- A server in the clear, or one that has just been keyed and has handled all that was on its way. -/
def ServerPlain (u : Setup) (s : Connection) (floor ticks : Nat) (up : Coding) (l : ServerLink)
    (waiting : List Packet) : Prop :=
  l.protocol.isEncrypted = false ∧ ServerKeeps u s floor ticks up l waiting
    ∨ waiting = [] ∧ l.protocol.isEncrypted = true ∧ some l.protocol.decryptor = s.client.client.coding
      ∧ ServerKeeps u s floor ticks s.client.client.coding l []

theorem serves_serverPlain (hu : u.Sound) :
    (ServerLink.receiver u.server).Serves ReceiveEvent.Quiet (ServerPlain u s floor ticks up) where
  ring ring h := h.imp (fun h => ⟨h.1, h.2.base, h.2.taken, h.2.stage⟩)
    fun h => ⟨h.1, h.2.1, h.2.2.1, h.2.2.2.base, h.2.2.2.taken, h.2.2.2.stage⟩
  call packetType bb := trivial
  handle := by
    intro l q packets bb h hbb
    obtain ⟨hplain, hkeeps⟩ := h.resolve_right fun h => List.cons_ne_nil _ _ h.1
    obtain ⟨bb', n, items, p', hhandle, hbb', hcases⟩ := serverHandles hu hkeeps rfl hbb
    refine ⟨bb', _, [], _, ServerLink.handlePacket_of_protocol hhandle,
      Receiver.checkPacketRead_of_nul _ hbb' _ _, List.forall_mem_nil _, rfl, ?_⟩
    rcases hcases with ⟨hsame, -, hkeeps'⟩ | ⟨hnil, -, hkeyed, hdecryptor, hkeeps'⟩
    · exact .inl ⟨hsame.trans hplain, hkeeps'⟩
    · exact .inr ⟨hnil, hkeyed, hdecryptor, hkeeps'⟩

/-- An encrypted server. -/
def ServerEncrypted (u : Setup) (s : Connection) (floor ticks : Nat) (up : Coding) (l : ServerLink)
    (waiting : List Packet) : Prop :=
  l.protocol.isEncrypted = true ∧ ServerKeeps u s floor ticks up l waiting

theorem serves_serverEncrypted (hu : u.Sound) (c : AesCfb128) :
    (ServerLink.receiver u.server).Serves ReceiveEvent.Quiet
      fun l waiting => ServerEncrypted u s floor ticks up l waiting
        ∧ (ServerLink.receiver u.server).decryptor l = some c where
  ring ring h := ⟨⟨h.1.1, h.1.2.base, h.1.2.taken, h.1.2.stage⟩, h.2⟩
  call packetType bb := trivial
  handle := by
    rintro l q packets bb ⟨⟨hencrypted, hkeeps⟩, hc⟩ hbb
    obtain ⟨bb', n, items, p', hhandle, hbb', hcases⟩ := serverHandles hu hkeeps rfl hbb
    refine ⟨bb', _, [], _, ServerLink.handlePacket_of_protocol hhandle,
      Receiver.checkPacketRead_of_nul _ hbb' _ _, List.forall_mem_nil _, rfl, ?_⟩
    rcases hcases with ⟨hsame, hdecryptor, hkeeps'⟩ | ⟨-, hplain, -⟩
    · refine ⟨⟨hsame.trans hencrypted, hkeeps'⟩, ?_⟩
      change some p'.decryptor = some c
      rw [hdecryptor]
      exact hc
    · exact (Bool.false_ne_true (hplain.symm.trans hencrypted)).elim

theorem ServerEncrypted.setDecryptor {l : ServerLink} {waiting : List Packet} (c : AesCfb128)
    (h : ServerEncrypted u s floor ticks up l waiting) :
    ServerEncrypted u s floor ticks up ((ServerLink.receiver u.server).setDecryptor c l) waiting := by
  obtain ⟨hencrypted, hbase, htaken, answers, down, ⟨rank, hfloor, hstage⟩, hdown⟩ := h
  refine ⟨hencrypted, { hbase with ready := ⟨hbase.ready.out, hbase.ready.len⟩ }, htaken, answers, down,
    ⟨rank, hfloor, ?_⟩, hdown⟩
  exact hstage.of_server rfl rfl rfl (Or.inl rfl) rfl

/-- **The server receives** the next bytes on their way to it, in the mode of the moment. -/
theorem server_receives (hu : u.Sound) {l : ServerLink} {waiting : List Packet} {data rest : List UInt8}
    {decoded encoded : List (Mode × UInt8)} (hkeeps : ServerKeeps u s floor ticks up l waiting)
    (hflow : Flow u.server.aesCryptEcb (64 * 1024) l.receivedData l.protocol.decoding up waiting (data ++ rest) decoded
      encoded) :
    ∃ events l' done left up', l.dataReceived u.server data = .ok (events, l') ∧ waiting = done ++ left
      ∧ Delivers events done ∧ (∀ event ∈ events, event.Quiet) ∧ ServerKeeps u s floor ticks up' l' left
      ∧ Flow u.server.aesCryptEcb (64 * 1024) l'.receivedData l'.protocol.decoding up' left rest
          (decoded ++ decodedLog events) encoded := by
  obtain ⟨answers, down, ⟨rank, -, hstage⟩, -⟩ := hkeeps.stage
  cases hencrypted : l.protocol.isEncrypted with
  | false =>
      obtain ⟨hfit, rfl⟩ := hstage.server_plain hu hencrypted
      have hdecoding : l.protocol.decoding = none := by
        rw [ProtocolImpl.decoding, hencrypted]
        rfl
      rw [hdecoding] at hflow
      obtain ⟨events, l', done, left, hrun, hwaiting, hdelivers, hquiet, hinv, hflow'⟩ :=
        Receiver.receive_plain (serves_serverPlain hu) hencrypted (Or.inl ⟨hencrypted, hkeeps⟩)
          (by decide) hfit hflow
      rcases hinv with ⟨hplain', hkeeps'⟩ | ⟨rfl, hkeyed, hdecryptor, hkeeps'⟩
      · refine ⟨events, l', done, left, none, hrun, hwaiting, hdelivers, hquiet, hkeeps', ?_⟩
        rw [ProtocolImpl.decoding, hplain']
        exact hflow'
      · refine ⟨events, l', done, [], s.client.client.coding, hrun, hwaiting, hdelivers, hquiet, hkeeps', ?_⟩
        rw [ProtocolImpl.decoding, hkeyed, if_pos rfl, hdecryptor]
        exact hflow'.recode _
  | true =>
      have hdecoding : l.protocol.decoding = some l.protocol.decryptor := by
        rw [ProtocolImpl.decoding, hencrypted]
        rfl
      rw [hdecoding] at hflow
      obtain ⟨events, l', done, left, c', hrun, hwaiting, hdelivers, hquiet, hinv, hc', hflow'⟩ :=
        Receiver.receive_encrypted (serves_serverEncrypted hu) (fun c h => h.setDecryptor c) hencrypted
          ⟨hencrypted, hkeeps⟩ (by decide) (by decide) (hstage.server_encrypted hu hencrypted) rfl hflow
      refine ⟨events, l', done, left, up, hrun, hwaiting, hdelivers, hquiet, hinv.2, ?_⟩
      have hdecoding' : l'.protocol.decoding = some c' := by
        rw [ProtocolImpl.decoding, hinv.1, if_pos rfl]
        exact hc'
      rw [hdecoding']
      exact hflow'

variable {before : List Packet}

/-- A client in the clear, or one that has just been keyed and has handled all that was on its way. -/
def ClientPlain (u : Setup) (s : Connection) (floor : Nat) (before : List Packet) (down : Coding) (l : ClientLink)
    (answers : List Packet) : Prop :=
  l.client.isEncrypted = false ∧ ClientKeeps u s floor before down l answers
    ∨ answers = [] ∧ l.client.isEncrypted = true ∧ l.client.decryptor = some u.cipher
      ∧ ClientKeeps u s floor before (some u.cipher) l []

theorem serves_clientPlain (hu : u.Sound) :
    (ClientLink.receiver u.client).Serves ReceiveEvent.Quiet (ClientPlain u s floor before down) where
  ring ring h := h.imp (fun h => ⟨h.1, h.2.base, h.2.channel, h.2.stage⟩)
    fun h => ⟨h.1, h.2.1, h.2.2.1, h.2.2.2.base, h.2.2.2.channel, h.2.2.2.stage⟩
  call packetType bb := trivial
  handle := by
    intro l q packets bb h hbb
    obtain ⟨hplain, hkeeps⟩ := h.resolve_right fun h => List.cons_ne_nil _ _ h.1
    obtain ⟨bb', n, items, c', hhandle, hbb', hcases⟩ := clientHandles hu hkeeps rfl hbb
    refine ⟨bb', _, [], _, ClientLink.handlePacket_of_client hhandle,
      Receiver.checkPacketRead_of_nul _ hbb' _ _, List.forall_mem_nil _, rfl, ?_⟩
    rcases hcases with ⟨hsame, -, hkeeps'⟩ | ⟨hnil, -, hkeyed, hdecryptor, hkeeps'⟩
    · exact .inl ⟨hsame.trans hplain, hkeeps'⟩
    · exact .inr ⟨hnil, hkeyed, hdecryptor, hkeeps'⟩

/-- An encrypted client. -/
def ClientEncrypted (u : Setup) (s : Connection) (floor : Nat) (before : List Packet) (down : Coding) (l : ClientLink)
    (answers : List Packet) : Prop :=
  l.client.isEncrypted = true ∧ ClientKeeps u s floor before down l answers

theorem serves_clientEncrypted (hu : u.Sound) (c : AesCfb128) :
    (ClientLink.receiver u.client).Serves ReceiveEvent.Quiet
      fun l answers => ClientEncrypted u s floor before down l answers
        ∧ (ClientLink.receiver u.client).decryptor l = some c where
  ring ring h := ⟨⟨h.1.1, h.1.2.base, h.1.2.channel, h.1.2.stage⟩, h.2⟩
  call packetType bb := trivial
  handle := by
    rintro l q packets bb ⟨⟨hencrypted, hkeeps⟩, hc⟩ hbb
    obtain ⟨bb', n, items, c', hhandle, hbb', hcases⟩ := clientHandles hu hkeeps rfl hbb
    refine ⟨bb', _, [], _, ClientLink.handlePacket_of_client hhandle,
      Receiver.checkPacketRead_of_nul _ hbb' _ _, List.forall_mem_nil _, rfl, ?_⟩
    rcases hcases with ⟨hsame, hdecryptor, hkeeps'⟩ | ⟨-, hplain, -⟩
    · exact ⟨⟨hsame.trans hencrypted, hkeeps'⟩, (hdecryptor hencrypted).trans hc⟩
    · exact (Bool.false_ne_true (hplain.symm.trans hencrypted)).elim

theorem ClientEncrypted.setDecryptor {l : ClientLink} {answers : List Packet} (c : AesCfb128)
    (h : ClientEncrypted u s floor before down l answers) :
    ClientEncrypted u s floor before down ((ClientLink.receiver u.client).setDecryptor c l) answers := by
  obtain ⟨hencrypted, hbase, hchannel, waiting, up, ⟨rank, hfloor, hstage⟩, hup, hbefore, hjoin⟩ := h
  refine ⟨hencrypted, ⟨⟨hbase.canSend.ready, hbase.canSend.keyed⟩, fun _ => Option.some_ne_none c, hbase.userName,
    hbase.channel, hbase.quiet⟩, hchannel, waiting, up, ⟨rank, hfloor, ?_⟩, hup, hbefore, hjoin⟩
  exact hstage.of_client rfl rfl rfl rfl rfl

/-- **The client receives** the next bytes on their way to it, in the mode of the moment. -/
theorem client_receives (hu : u.Sound) {l : ClientLink} {answers : List Packet} {data rest : List UInt8}
    {decoded encoded : List (Mode × UInt8)} (hkeeps : ClientKeeps u s floor before down l answers)
    (hflow : Flow u.server.aesCryptEcb (16 * 1024) l.receivedData l.client.decoding down answers (data ++ rest) decoded
      encoded) :
    ∃ events l' done left down', l.onRead u.client data = .ok (events, l') ∧ answers = done ++ left
      ∧ Delivers events done ∧ (∀ event ∈ events, event.Quiet) ∧ ClientKeeps u s floor before down' l' left
      ∧ Flow u.server.aesCryptEcb (16 * 1024) l'.receivedData l'.client.decoding down' left rest
          (decoded ++ decodedLog events) encoded := by
  obtain ⟨waiting, up, ⟨rank, -, hstage⟩, -⟩ := hkeeps.stage
  cases hencrypted : l.client.isEncrypted with
  | false =>
      have hfit := hstage.client_plain hu hencrypted
      have hdecoding : l.client.decoding = none := by
        rw [ConnectionClient.decoding, hencrypted]
        rfl
      rw [hdecoding] at hflow
      obtain ⟨events, l', done, left, hrun, hanswers, hdelivers, hquiet, hinv, hflow'⟩ :=
        Receiver.receive_plain (serves_clientPlain hu) hencrypted (Or.inl ⟨hencrypted, hkeeps⟩)
          (by decide) hfit hflow
      rcases hinv with ⟨hplain', hkeeps'⟩ | ⟨rfl, hkeyed, hdecryptor, hkeeps'⟩
      · refine ⟨events, l', done, left, down, hrun, hanswers, hdelivers, hquiet, hkeeps', ?_⟩
        rw [ConnectionClient.decoding, hplain']
        exact hflow'
      · refine ⟨events, l', done, [], some u.cipher, hrun, hanswers, hdelivers, hquiet, hkeeps', ?_⟩
        rw [ConnectionClient.decoding, hkeyed, if_pos rfl, hdecryptor]
        exact hflow'.recode _
  | true =>
      obtain ⟨c, hc⟩ := Option.ne_none_iff_exists'.mp (hkeeps.base.keyed hencrypted)
      have hdecoding : l.client.decoding = some c := by
        rw [ConnectionClient.decoding, hencrypted, if_pos rfl, hc]
      rw [hdecoding] at hflow
      obtain ⟨events, l', done, left, c', hrun, hanswers, hdelivers, hquiet, hinv, hc', hflow'⟩ :=
        Receiver.receive_encrypted (serves_clientEncrypted hu) (fun c h => h.setDecryptor c) hencrypted
          ⟨hencrypted, hkeeps⟩ (by decide) (by decide) (hstage.client_encrypted hencrypted) hc hflow
      refine ⟨events, l', done, left, down, hrun, hanswers, hdelivers, hquiet, hinv.2, ?_⟩
      have hdecoding' : l'.client.decoding = some c' := by
        rw [ConnectionClient.decoding, hinv.1, if_pos rfl]
        exact hc'
      rw [hdecoding']
      exact hflow'

end Calls

end Licode
