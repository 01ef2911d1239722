import Licode.Login.Handshake

/-!
# The server's side of the login

Each packet that can be on its way to the server is read to its end by the handler of the stage, and the answer goes
behind what waits for the client.
-/

namespace Licode

open ByteBuffer Receiver Server Client

section Server

variable {u : Setup} {p p' : ProtocolImpl} {served floor ticks : Nat}

theorem ServerBase.sent {bytes : List UInt8} (h : ServerBase u ticks p)
    (hsent : ProtocolImpl.Sent u.server p bytes p') : ServerBase u ticks p' := by
  obtain ⟨hready, out, len, rfl⟩ := hsent
  exact { h with ready := hready }

theorem ServerAt.kept {isEncrypted : Bool} {state : UInt32} {clientState : EState → Prop}
    {queue : List (Int32 × AString × AString)} (h : ServerAt p served isEncrypted state clientState queue)
    (hkept : p.Kept p') : ServerAt p' served isEncrypted state clientState queue where
  isEncrypted := hkept.isEncrypted.trans h.isEncrypted
  state := hkept.state.trans h.state
  clientState := hkept.clientState ▸ h.clientState
  queue := hkept.requests ▸ h.queue

theorem ServerAt.coding_of_plain {state : UInt32} {clientState : EState → Prop}
    {queue : List (Int32 × AString × AString)} (h : ServerAt p served false state clientState queue) :
    p.coding = none := by
  rw [ProtocolImpl.coding, h.isEncrypted]
  rfl

/-- What a call of `DataReceived` on the server keeps, with the client as it is in `s`. -/
structure ServerKeeps (u : Setup) (s : Connection) (floor ticks : Nat) (up : Coding) (l : ServerLink)
    (waiting : List Packet) : Prop where
  base : ServerBase u ticks l.protocol
  taken : l.protocol.client.incomingData = []
  stage : ∃ answers down, StageFrom u floor l.protocol s.session.served s.client.client waiting answers up down
    ∧ Downstream u l.protocol s.client s.toClient s.clientTrace down answers

/-- A packet is read to its end. The key packet, which is the only one on its way, puts the server into the mode of
the client. -/
def ServerHandles (u : Setup) (s : Connection) (floor ticks : Nat) (up : Coding) (l : ServerLink) (q : Packet)
    (packets : List Packet) (bb : ByteBuffer) : Prop :=
  ∃ bb' n items p', l.protocol.handlePacket u.server bb q.packetType = .ok (true, bb', p')
    ∧ Holds bb' n items [0]
    ∧ (p'.isEncrypted = l.protocol.isEncrypted ∧ p'.decryptor = l.protocol.decryptor
        ∧ ServerKeeps u s floor ticks up { l with protocol := p' } packets
      ∨ packets = [] ∧ l.protocol.isEncrypted = false ∧ p'.isEncrypted = true
        ∧ some p'.decryptor = s.client.client.coding
        ∧ ServerKeeps u s floor ticks s.client.client.coding { l with protocol := p' } [])

variable {s : Connection} {l : ServerLink} {up down : Coding} {answers packets : List Packet} {bb : ByteBuffer}

theorem serverHandles_statusRequest (hu : u.Sound) (hfloor : floor ≤ 1) (hbase : ServerBase u ticks l.protocol)
    (htaken : l.protocol.client.incomingData = [])
    (hp : ServerAt l.protocol s.session.served false 1 (· = .csConnected) [])
    (hc : ClientAt s.client.client true false 1)
    (hdown : Downstream u l.protocol s.client s.toClient s.clientTrace l.protocol.coding [])
    (hbb : Setup.statusRequest.Buffered bb) :
    ServerHandles u s floor ticks s.client.client.coding l Setup.statusRequest [] bb := by
  have hip : l.protocol.client.ipString.length ≤ 60000 := by
    have hle := hu.ipString
    rw [hbase.ipString]
    omega
  obtain ⟨bb', p', hhandle, hbb', hsent⟩ := ProtocolImpl.handlePacket_statusRequest u.server hbase.ready hp.state
    (show ConnectionClient.defaultServer.length < 2 ^ 32 by decide)
    (show ¬ ((2 : Int32) < 1 ∨ (2 : Int32) > 2) by decide) hip hbb
  have hframe : frame (packetBytes 0x00 (fieldsBytes (l.protocol.statusResponseFields 2)))
      = u.statusResponse.frame := by
    rw [ProtocolImpl.statusResponseFields, hbase.ipString]
    rfl
  rw [hframe] at hsent
  have hbase₁ : ServerBase u ticks { l.protocol with state := (2 : Int32).toUInt32 } :=
    { hbase with ready := ⟨hbase.ready.out, hbase.ready.len⟩ }
  have hp₁ : ServerAt { l.protocol with state := (2 : Int32).toUInt32 } s.session.served false 2
      (· = .csConnected) [] := ⟨hp.isEncrypted, rfl, hp.clientState, hp.queue⟩
  have hkept := hsent.kept
  refine ⟨bb', _, _, p', hhandle, hbb', .inl ⟨hkept.isEncrypted, hkept.decryptor, ?_⟩⟩
  exact ⟨hbase₁.sent hsent, hsent.incomingData.trans htaken, _, _,
    ⟨_, Nat.le_succ_of_le hfloor, .statusResponse (hp₁.kept hkept) hc⟩, hsent.flow hbase.hasSentDC hdown⟩

theorem serverHandles_loginStart (hu : u.Sound) (hfloor : floor ≤ 3) (hbase : ServerBase u ticks l.protocol)
    (htaken : l.protocol.client.incomingData = [])
    (hp : ServerAt l.protocol s.session.served false 2 (· = .csConnected) [])
    (hc : ClientAt s.client.client true false 2)
    (hdown : Downstream u l.protocol s.client s.toClient s.clientTrace l.protocol.coding [])
    (hbb : Setup.loginStart.Buffered bb) :
    ServerHandles u s floor ticks s.client.client.coding l Setup.loginStart [] bb := by
  have hkey : u.server.serverID.length + u.server.publicKeyDER.length ≤ 60000 := by
    have hle := hu.publicKey
    omega
  obtain ⟨p', hhandle, hsent⟩ := @ProtocolImpl.handlePacket_loginStart u.server l.protocol bb hbase.ready hp.state hkey
  have hframe : frame (packetBytes 0x01 (fieldsBytes (l.protocol.loginStartFields u.server))) = u.keyRequest.frame := by
    rw [ProtocolImpl.loginStartFields, ProtocolImpl.nonce, hbase.address]
    rfl
  rw [hframe] at hsent
  have hkept := hsent.kept
  refine ⟨bb, _, _, p', hhandle, hbb, .inl ⟨hkept.isEncrypted, hkept.decryptor, ?_⟩⟩
  exact ⟨hbase.sent hsent, hsent.incomingData.trans htaken, _, _,
    ⟨_, Nat.le_succ_of_le hfloor, .keyRequest (hp.kept hkept) hc⟩, hsent.flow hbase.hasSentDC hdown⟩

theorem serverHandles_keyResponse (hu : u.Sound) {encryptedSecret encryptedNonce : List UInt8}
    (hfloor : floor ≤ 6) (hbase : ServerBase u ticks l.protocol) (htaken : l.protocol.client.incomingData = [])
    (hp : ServerAt l.protocol s.session.served false 2 (· = .csConnected) [])
    (hc : ClientAt s.client.client true true 2)
    (hencryptor : s.client.client.encryptor = some u.cipher)
    (hsecret : u.encrypt u.server.publicKeyDER (ConnectionClient.sharedSecret u.client) = some encryptedSecret)
    (hnonce : u.encrypt u.server.publicKeyDER (ByteImage.littleEndian 4 u.nonce.toNat) = some encryptedNonce)
    (hdown : Downstream u l.protocol s.client s.toClient s.clientTrace (some u.cipher) [])
    (hbb : (Setup.keyResponse encryptedSecret encryptedNonce).Buffered bb) :
    ServerHandles u s floor ticks none l (Setup.keyResponse encryptedSecret encryptedNonce) [] bb := by
  obtain ⟨hsecretLength, hkey⟩ := hu.decrypt _ _ hsecret
  obtain ⟨hnonceLength, hnonce'⟩ := hu.decrypt _ _ hnonce
  have hsame : u.nonce = l.protocol.nonce := by rw [ProtocolImpl.nonce, hbase.address]; rfl
  rw [hsame] at hnonce'
  have hfields : ConnectionClient.keyResponseFields encryptedSecret encryptedNonce
      = ProtocolImpl.encryptionResponseFields encryptedSecret encryptedNonce := by
    rw [ConnectionClient.keyResponseFields, ProtocolImpl.encryptionResponseFields, hsecretLength, hnonceLength]
  have hlength : (ConnectionClient.sharedSecret u.client).length = 16 := by
    simp [ConnectionClient.sharedSecret]
  have hshort : ConnectionClient.encryptedLength ≤ 512 := by decide
  have hpayload : (Setup.keyResponse encryptedSecret encryptedNonce).payload
      = fieldsBytes (ProtocolImpl.encryptionResponseFields encryptedSecret encryptedNonce) :=
    congrArg fieldsBytes hfields
  rw [Packet.Buffered, hpayload] at hbb
  obtain ⟨bb', p', hhandle, hbb', hsent⟩ := ProtocolImpl.handlePacket_loginEncryptionResponse hbase.ready hp.state
    (hsecretLength.trans_le hshort) (hnonceLength.trans_le hshort) hnonce' hkey hlength hbb
  set key := toBlock (ConnectionClient.sharedSecret u.client) with hkeyEq
  have hbase₁ : ServerBase u ticks (l.protocol.startEncryption key) :=
    { hbase with ready := ⟨hbase.ready.out, hbase.ready.len⟩ }
  have hp₁ : ServerAt (l.protocol.startEncryption key) s.session.served true 2 (· = .csConnected) [] :=
    ⟨rfl, hp.state, hp.clientState, hp.queue⟩
  have hkept := hsent.kept
  have hcoding : s.client.client.coding = some u.cipher := by
    rw [ConnectionClient.coding, hc.isEncrypted, hencryptor]
    rfl
  refine ⟨bb', _, _, p', hhandle, hbb', .inr ⟨rfl, hp.isEncrypted, hkept.isEncrypted, ?_, ?_⟩⟩
  · rw [hkept.decryptor, hcoding]
    rfl
  · exact ⟨hbase₁.sent hsent, hsent.incomingData.trans htaken, _, _,
      ⟨_, Nat.le_succ_of_le hfloor, .loginAllow (hp₁.kept hkept) hc⟩,
      @ProtocolImpl.Sent.flow _ _ _ Setup.loginAllow _ _ _ _ _ _ hsent hbase.hasSentDC hdown⟩

theorem serverHandles_loginInfo (hu : u.Sound) (hfloor : floor ≤ 8) (hbase : ServerBase u ticks l.protocol)
    (htaken : l.protocol.client.incomingData = [])
    (hp : ServerAt l.protocol s.session.served true 2 (· = .csConnected) [])
    (hc : ClientAt s.client.client true true 2)
    (hdown : Downstream u l.protocol s.client s.toClient s.clientTrace l.protocol.coding [])
    (hbb : u.loginInfo.Buffered bb) :
    ServerHandles u s floor ticks s.client.client.coding l u.loginInfo [] bb := by
  have hlength : u.userName.length < 2 ^ 32 := Setup.length_lt_of_fits hu.userName
  obtain ⟨bb', hhandle, hbb'⟩ := ProtocolImpl.handlePacket_loginInfo u.server hp.state hlength hbb
  refine ⟨bb', _, _, _, hhandle, hbb', .inl ⟨rfl, rfl, ?_⟩⟩
  obtain ⟨done, hdone, hserved⟩ := hp.queue
  have hp₁ : ServerAt (l.protocol.handleLogin u.userName u.userName) s.session.served true 2 (· = .csAuthenticating)
      [(u.uniqueID, u.userName, u.userName)] := by
    refine ⟨hp.isEncrypted, hp.state, rfl, done, ?_, hserved⟩
    change (l.protocol.requests ++ [_]).filterMap Request.user = _
    rw [List.filterMap_append, hdone, List.append_nil, hbase.uniqueID]
    rfl
  have hbase₁ : ServerBase u ticks (l.protocol.handleLogin u.userName u.userName) :=
    { hbase with ready := ⟨hbase.ready.out, hbase.ready.len⟩ }
  exact ⟨hbase₁, htaken, _, _, ⟨_, Nat.le_succ_of_le hfloor, .authenticating hp₁ hc⟩, hdown⟩

theorem serverHandles_joinRoom {room : AString} {ids : List UInt32} (hfloor : floor ≤ 11)
    (hbase : ServerBase u ticks l.protocol)
    (htaken : l.protocol.client.incomingData = []) (hp : ServerAt l.protocol s.session.served true 3 Authenticated [])
    (hc : ClientAt s.client.client true true 3) (hid : s.client.client.clientID = u.uniqueID.toUInt32)
    (hroom : Setup.Fits 0x01 room) (hgame : ∀ q ∈ answers, GamePacket q)
    (hdown : Downstream u l.protocol s.client s.toClient s.clientTrace l.protocol.coding answers)
    (hbb : (Setup.joinRoom room).Buffered bb) :
    ServerHandles u s floor ticks s.client.client.coding l (Setup.joinRoom room) (ids.map Setup.keepAlive) bb := by
  obtain ⟨bb', hhandle, hbb'⟩ :=
    ProtocolImpl.handlePacket_joinRoom u.server hp.state (Setup.length_lt_of_fits hroom) hbb
  refine ⟨bb', _, _, _, hhandle, hbb', .inl ⟨rfl, rfl, ?_⟩⟩
  have hp₁ : ServerAt (l.protocol.request (.doUserJoinChannel l.protocol.client.uniqueID room)) s.session.served true 3
      Authenticated [] := by
    obtain ⟨done, hdone, hserved⟩ := hp.queue
    refine ⟨hp.isEncrypted, hp.state, hp.clientState, done, ?_, hserved⟩
    change (l.protocol.requests ++ [_]).filterMap Request.user = _
    rw [List.filterMap_append, hdone]
    simp [Request.user]
  have hbase₁ : ServerBase u ticks (l.protocol.request (.doUserJoinChannel l.protocol.client.uniqueID room)) :=
    { hbase with ready := ⟨hbase.ready.out, hbase.ready.len⟩ }
  exact ⟨hbase₁, htaken, _, _, ⟨_, hfloor, .joined hp₁ hc hid hgame⟩, hdown⟩

theorem serverHandles_keepAlive {id : UInt32} {ids : List UInt32} (hfloor : floor ≤ 11)
    (hbase : ServerBase u ticks l.protocol)
    (htaken : l.protocol.client.incomingData = []) (hp : ServerAt l.protocol s.session.served true 3 Authenticated [])
    (hc : ClientAt s.client.client true true 3) (hid : s.client.client.clientID = u.uniqueID.toUInt32)
    (hgame : ∀ q ∈ answers, GamePacket q)
    (hdown : Downstream u l.protocol s.client s.toClient s.clientTrace l.protocol.coding answers)
    (hbb : (Setup.keepAlive id).Buffered bb) :
    ServerHandles u s floor ticks s.client.client.coding l (Setup.keepAlive id) (ids.map Setup.keepAlive) bb := by
  obtain ⟨bb', hhandle, hbb'⟩ := ProtocolImpl.handlePacket_keepAlive u.server hp.state id hbb
  exact ⟨bb', _, _, _, hhandle, hbb', .inl ⟨rfl, rfl, hbase, htaken, _, _, ⟨_, hfloor, .joined hp hc hid hgame⟩, hdown⟩⟩

/-- The server handles the next packet in each stage that has one on its way. -/
theorem serverHandles (hu : u.Sound) {q : Packet} {waiting : List Packet} (h : ServerKeeps u s floor ticks up l waiting)
    (hwaiting : waiting = q :: packets) (hbb : q.Buffered bb) : ServerHandles u s floor ticks up l q packets bb := by
  obtain ⟨hbase, htaken, answers, down, ⟨rank, hfloor, hstage⟩, hdown⟩ := h
  cases hstage with
  | idle => cases hwaiting
  | statusRequest hp hc =>
      cases hwaiting
      exact serverHandles_statusRequest hu hfloor hbase htaken hp hc hdown hbb
  | statusResponse => cases hwaiting
  | loginStart hp hc =>
      cases hwaiting
      exact serverHandles_loginStart hu hfloor hbase htaken hp hc hdown hbb
  | keyRequest | silent => cases hwaiting
  | keyResponse hp hc hencryptor hsecret hnonce =>
      cases hwaiting
      exact serverHandles_keyResponse hu hfloor hbase htaken hp hc hencryptor hsecret hnonce hdown hbb
  | loginAllow => cases hwaiting
  | loginInfo hp hc =>
      cases hwaiting
      exact serverHandles_loginInfo hu hfloor hbase htaken hp hc hdown hbb
  | authenticating | loginSuccess => cases hwaiting
  | @signedIn asked ids _ hp hc hid hasked hgame =>
      cases asked with
      | some room =>
          cases hwaiting
          exact serverHandles_joinRoom hfloor hbase htaken hp hc hid (hasked room rfl) hgame hdown hbb
      | none =>
          cases ids with
          | nil => cases hwaiting
          | cons id ids =>
              cases hwaiting
              exact serverHandles_keepAlive hfloor hbase htaken hp hc hid hgame hdown hbb

end Server

end Licode
