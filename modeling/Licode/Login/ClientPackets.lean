import Licode.Login.Handshake

/-!
# The client's side of the login

Each packet that can be on its way to the client is read to its end by the handler of the stage, and the answer goes
behind what waits for the server.
-/

namespace Licode

open ByteBuffer Receiver Server Client

namespace Client.ConnectionClient

theorem Sent.canSend {env : Env} {c c' : ConnectionClient} {bytes : List UInt8} (h : Sent env c bytes c')
    (hsend : CanSend c) : CanSend c' := by
  obtain ⟨hready, out, rfl⟩ := h
  refine ⟨hready, fun hencrypted => ?_⟩
  have hencrypted' : c.isEncrypted = true := hencrypted
  obtain ⟨e, he⟩ := Option.ne_none_iff_exists'.mp (hsend.keyed hencrypted')
  simp [sentData, ConnectionClient.coding, hencrypted', he, Coding.encode]

end Client.ConnectionClient

section Client

variable {u : Setup} {c c' : ConnectionClient} {floor : Nat}

theorem ClientBase.sent {bytes : List UInt8} (h : ClientBase u c)
    (hsent : ConnectionClient.Sent u.client c bytes c') : ClientBase u c' := by
  have hsend := hsent.canSend h.canSend
  obtain ⟨-, out, rfl⟩ := hsent
  exact ⟨hsend, h.keyed, h.userName, h.channel, h.quiet⟩

theorem ClientAt.sent {env : Client.Env} {bytes : List UInt8} {bConnect isEncrypted : Bool} {state : UInt32}
    (h : ClientAt c bConnect isEncrypted state) (hsent : ConnectionClient.Sent env c bytes c') :
    ClientAt c' bConnect isEncrypted state := by
  obtain ⟨-, out, rfl⟩ := hsent
  exact ⟨h.bConnect, h.isEncrypted, h.state⟩

theorem ClientAt.coding_of_plain {bConnect : Bool} {state : UInt32} (h : ClientAt c bConnect false state) :
    c.coding = none := by
  rw [ConnectionClient.coding, h.isEncrypted]
  rfl

theorem ClientBase.callback {call : Callback} (h : ClientBase u c) (hquiet : call.Quiet) :
    ClientBase u (c.callback call) := by
  refine ⟨⟨h.canSend.ready, h.canSend.keyed⟩, h.keyed, h.userName, h.channel, ?_⟩
  exact List.forall_mem_append.mpr ⟨h.quiet, List.forall_mem_singleton.mpr hquiet⟩

/-- What a call of `DataReceived` on the client keeps, with the server as it is in `s` and `before` on the way to it.
A client that signs in asks for its channel next. -/
structure ClientKeeps (u : Setup) (s : Connection) (floor : Nat) (before : List Packet) (down : Coding)
    (l : ClientLink) (answers : List Packet) : Prop where
  base : ClientBase u l.client
  channel : l.client.channel = s.client.client.channel
  stage : ∃ waiting up,
    StageFrom u floor s.session.link.protocol s.session.served l.client waiting answers up down
    ∧ Upstream u s.session.link l.client s.serverTrace up waiting
    ∧ (∃ more, waiting = before ++ more)
    ∧ (s.client.client.state ≠ 3 → l.client.state = 3 →
        ∃ rest, waiting = Setup.joinRoom s.client.client.channel :: rest)

/-- A packet is read to its end. The request for the key, which is the only one on its way, puts the client into the
other mode. -/
def ClientHandles (u : Setup) (s : Connection) (floor : Nat) (before : List Packet) (down : Coding) (l : ClientLink)
    (q : Packet) (packets : List Packet) (bb : ByteBuffer) : Prop :=
  ∃ bb' n items c', l.client.handlePacket u.client bb q.packetType = .ok (true, bb', c')
    ∧ Holds bb' n items [0]
    ∧ (c'.isEncrypted = l.client.isEncrypted ∧ (l.client.isEncrypted = true → c'.decryptor = l.client.decryptor)
        ∧ ClientKeeps u s floor before down { l with client := c' } packets
      ∨ packets = [] ∧ l.client.isEncrypted = false ∧ c'.isEncrypted = true ∧ c'.decryptor = some u.cipher
        ∧ ClientKeeps u s floor before (some u.cipher) { l with client := c' } [])

variable {s : Connection} {l : ClientLink} {up : Coding} {before waiting packets : List Packet} {bb : ByteBuffer}

theorem clientHandles_statusResponse (hu : u.Sound) (hfloor : floor ≤ 2) (hbase : ClientBase u l.client)
    (hchannel : l.client.channel = s.client.client.channel)
    (hp : ServerAt s.session.link.protocol s.session.served false 2 (· = .csConnected) [])
    (hc : ClientAt l.client true false 1)
    (hup : Upstream u s.session.link l.client s.serverTrace l.client.coding []) (hbefore : ∃ more, [] = before ++ more)
    (hbb : u.statusResponse.Buffered bb) :
    ClientHandles u s floor before s.session.link.protocol.coding l u.statusResponse [] bb := by
  have hip : u.ipString.length < 2 ^ 32 := by
    have hle := hu.ipString
    omega
  obtain ⟨bb', c', hhandle, hbb', hsent⟩ := @ConnectionClient.handlePacket_statusResponse u.client l.client _ bb _ _
    hbase.canSend hc.state u.ipString hip true true hbb
  have hbase₁ : ClientBase u { l.client with state := 2 } :=
    { hbase with canSend := ⟨hbase.canSend.ready, hbase.canSend.keyed⟩ }
  have hc₁ : ClientAt { l.client with state := 2 } true false 2 := ⟨hc.bConnect, hc.isEncrypted, rfl⟩
  have hc' := hc₁.sent hsent
  have hflow := @ConnectionClient.Sent.flow _ _ _ Setup.loginStart _ _ _ _ _ _ hsent hup
  obtain ⟨more, hmore⟩ := hbefore
  obtain ⟨rfl, rfl⟩ := List.append_eq_nil_iff.mp hmore.symm
  refine ⟨bb', _, _, c', hhandle, hbb', .inl ⟨hc'.isEncrypted.trans hc.isEncrypted.symm, ?_, ?_⟩⟩
  · rw [hc.isEncrypted]
    exact fun h => absurd h Bool.false_ne_true
  · refine ⟨hbase₁.sent hsent, ?_, _, _, ⟨_, Nat.le_succ_of_le hfloor, .loginStart hp hc'⟩, hflow, ⟨_, rfl⟩, ?_⟩
    · obtain ⟨-, out, rfl⟩ := hsent
      exact hchannel
    · intro _ hthree
      rw [hc'.state] at hthree
      cases hthree

/-- A client that is not signed in has not asked for its channel. -/
theorem ClientAt.not_signedIn {bConnect isEncrypted : Bool} {P : Prop} (h : ClientAt c bConnect isEncrypted 2) :
    c.state = 3 → P := by
  intro hthree
  rw [h.state] at hthree
  cases hthree

theorem clientHandles_keyRequest (hu : u.Sound) (hfloor : floor ≤ 4) (hbase : ClientBase u l.client)
    (hchannel : l.client.channel = s.client.client.channel)
    (hp : ServerAt s.session.link.protocol s.session.served false 2 (· = .csConnected) [])
    (hc : ClientAt l.client true false 2)
    (hup : Upstream u s.session.link l.client s.serverTrace l.client.coding []) (hbefore : ∃ more, [] = before ++ more)
    (hbb : u.keyRequest.Buffered bb) :
    ClientHandles u s floor before s.session.link.protocol.coding l u.keyRequest [] bb := by
  have hle := hu.publicKey
  have hlength : ∀ data out, u.client.encrypt u.server.publicKeyDER data = some out →
      out.length = ConnectionClient.encryptedLength := fun data out hout => (hu.decrypt data out hout).1
  obtain ⟨c', hrun, hcases⟩ := ConnectionClient.sendEncryptionKeyResponse_cases hbase.canSend.ready hlength u.nonce
  obtain ⟨bb', hhandle, hbb'⟩ := @ConnectionClient.handlePacket_keyRequest u.client l.client _ bb _ _ hc.state
    u.server.serverID u.server.publicKeyDER (by omega) (by omega) u.nonce hbb c' hrun
  obtain ⟨more, hmore⟩ := hbefore
  obtain ⟨rfl, rfl⟩ := List.append_eq_nil_iff.mp hmore.symm
  refine ⟨bb', _, _, c', hhandle, hbb', ?_⟩
  have hplain : l.client.isEncrypted = true → c'.decryptor = l.client.decryptor := by
    rw [hc.isEncrypted]
    exact fun h => absurd h Bool.false_ne_true
  have hnone := hc.coding_of_plain
  rcases hcases with ⟨hfails, rfl⟩ | ⟨hfails, rfl⟩ | ⟨encryptedSecret, encryptedNonce, c₁, hsecret, hnonce, hsent, rfl⟩
  · exact .inl ⟨rfl, hplain, hbase, hchannel, _, _, ⟨_, Nat.le_succ_of_le hfloor, .silent hp hc (.inl hfails)⟩, hup,
      ⟨[], rfl⟩, fun _ => hc.not_signedIn⟩
  · have hc' : ClientAt (l.client.keyed u.client) true false 2 := ⟨hc.bConnect, hc.isEncrypted, hc.state⟩
    have hbase' : ClientBase u (l.client.keyed u.client) :=
      ⟨⟨hbase.canSend.ready, fun _ => Option.some_ne_none _⟩, fun _ => Option.some_ne_none _, hbase.userName,
        hbase.channel, hbase.quiet⟩
    have hup' : Upstream u s.session.link (l.client.keyed u.client) s.serverTrace (l.client.keyed u.client).coding
        [] := by
      rw [hc'.coding_of_plain, ← hnone]
      exact hup
    exact .inl ⟨rfl, hplain, hbase', hchannel, _, _, ⟨_, Nat.le_succ_of_le hfloor, .silent hp hc' (.inr hfails)⟩, hup',
      ⟨[], rfl⟩, fun _ => hc'.not_signedIn⟩
  · have hkeyed : ClientAt (l.client.keyed u.client) true false 2 := ⟨hc.bConnect, hc.isEncrypted, hc.state⟩
    have hup' : Upstream u s.session.link (l.client.keyed u.client) s.serverTrace (l.client.keyed u.client).coding
        [] := by
      rw [hkeyed.coding_of_plain, ← hnone]
      exact hup
    have hc₁ := hkeyed.sent hsent
    have hflow := @ConnectionClient.Sent.flow _ _ _ (Setup.keyResponse encryptedSecret encryptedNonce) _ _ _ _ _ _
      hsent hup'
    rw [hc₁.coding_of_plain] at hflow
    have hencryptor : c₁.encryptor = some u.cipher := by
      obtain ⟨-, out, rfl⟩ := hsent
      simp only [ConnectionClient.sentData, hkeyed.isEncrypted, Bool.false_eq_true, if_false]
      rfl
    have hdecryptor : c₁.decryptor = some u.cipher := by
      obtain ⟨-, out, rfl⟩ := hsent
      rfl
    have hc' : ClientAt { c₁ with isEncrypted := true } true true 2 := ⟨hc₁.bConnect, rfl, hc₁.state⟩
    have hbase' : ClientBase u { c₁ with isEncrypted := true } := by
      have hready := hsent.1
      refine ⟨⟨hready, fun _ => ?_⟩, fun _ => ?_, ?_, ?_, ?_⟩
      · rw [hencryptor]
        exact Option.some_ne_none _
      · rw [hdecryptor]
        exact Option.some_ne_none _
      all_goals
        obtain ⟨-, out, rfl⟩ := hsent
        first
        | exact hbase.userName
        | exact hbase.channel
        | exact hbase.quiet
    have hchannel' : c₁.channel = s.client.client.channel := by
      obtain ⟨-, out, rfl⟩ := hsent
      exact hchannel
    exact .inr ⟨rfl, hc.isEncrypted, rfl, hdecryptor, hbase', hchannel', _, _,
      ⟨_, hfloor.trans (by decide), .keyResponse hp hc' hencryptor hsecret hnonce⟩, hflow, ⟨_, rfl⟩,
      fun _ => hc'.not_signedIn⟩

theorem clientHandles_loginAllow (hu : u.Sound) (hfloor : floor ≤ 7) (hbase : ClientBase u l.client)
    (hchannel : l.client.channel = s.client.client.channel)
    (hp : ServerAt s.session.link.protocol s.session.served true 2 (· = .csConnected) [])
    (hc : ClientAt l.client true true 2)
    (hup : Upstream u s.session.link l.client s.serverTrace l.client.coding []) (hbefore : ∃ more, [] = before ++ more)
    (hbb : Setup.loginAllow.Buffered bb) :
    ClientHandles u s floor before s.session.link.protocol.coding l Setup.loginAllow [] bb := by
  have hfit : (packetBytes 0x02 (fieldsBytes [.string l.client.userName])).length ≤ 16 * 1024 := by
    rw [hbase.userName]
    exact hu.userName
  obtain ⟨c', hhandle, hsent⟩ :=
    @ConnectionClient.handlePacket_loginAllow u.client l.client bb hbase.canSend hc.state hfit
  obtain ⟨more, hmore⟩ := hbefore
  obtain ⟨rfl, rfl⟩ := List.append_eq_nil_iff.mp hmore.symm
  rw [hbase.userName] at hsent
  have hc' := hc.sent hsent
  have hflow := @ConnectionClient.Sent.flow _ _ _ u.loginInfo _ _ _ _ _ _ hsent hup
  have hkept : c'.decryptor = l.client.decryptor ∧ c'.channel = l.client.channel := by
    obtain ⟨-, out, rfl⟩ := hsent
    exact ⟨rfl, rfl⟩
  refine ⟨bb, _, _, c', hhandle, hbb, .inl ⟨hc'.isEncrypted.trans hc.isEncrypted.symm, fun _ => hkept.1, ?_⟩⟩
  exact ⟨hbase.sent hsent, hkept.2.trans hchannel, _, _,
    ⟨_, Nat.le_succ_of_le hfloor, .loginInfo hp hc'⟩, hflow, ⟨_, rfl⟩, fun _ => hc'.not_signedIn⟩

theorem clientHandles_loginSuccess (hfloor : floor ≤ 10) (hbase : ClientBase u l.client)
    (hchannel : l.client.channel = s.client.client.channel)
    (hp : ServerAt s.session.link.protocol s.session.served true 3 Authenticated [])
    (hc : ClientAt l.client true true 2) (hgame : ∀ q ∈ packets, GamePacket q)
    (hup : Upstream u s.session.link l.client s.serverTrace l.client.coding []) (hbefore : ∃ more, [] = before ++ more)
    (hbb : u.loginSuccess.Buffered bb) :
    ClientHandles u s floor before s.session.link.protocol.coding l u.loginSuccess packets bb := by
  obtain ⟨bb', c', hhandle, hbb', hsent⟩ := @ConnectionClient.handlePacket_loginSuccess u.client l.client _ bb _ _
    hbase.canSend hc.state u.uniqueID.toUInt32 hbase.channel hbb
  obtain ⟨more, hmore⟩ := hbefore
  obtain ⟨rfl, rfl⟩ := List.append_eq_nil_iff.mp hmore.symm
  have hbase₁ : ClientBase u (l.client.signedIn u.uniqueID.toUInt32) := by
    have hsigned : ClientBase u { l.client with clientID := u.uniqueID.toUInt32, state := 3 } :=
      { hbase with canSend := ⟨hbase.canSend.ready, hbase.canSend.keyed⟩ }
    exact hsigned.callback trivial
  have hc₁ : ClientAt (l.client.signedIn u.uniqueID.toUInt32) true true 3 := ⟨hc.bConnect, hc.isEncrypted, rfl⟩
  have hc' := hc₁.sent hsent
  have hflow := @ConnectionClient.Sent.flow _ _ _ (Setup.joinRoom l.client.channel) _ _ _ _ _ _ hsent hup
  have hkept : c'.decryptor = l.client.decryptor ∧ c'.channel = l.client.channel
      ∧ c'.clientID = u.uniqueID.toUInt32 := by
    obtain ⟨-, out, rfl⟩ := hsent
    exact ⟨rfl, rfl, rfl⟩
  have hroom : ∀ room ∈ some l.client.channel, Setup.Fits 0x01 room := by
    intro room hmem
    cases hmem
    exact hbase.channel
  refine ⟨bb', _, _, c', hhandle, hbb', .inl ⟨hc'.isEncrypted.trans hc.isEncrypted.symm, fun _ => hkept.1, ?_⟩⟩
  refine ⟨hbase₁.sent hsent, hkept.2.1.trans hchannel, _, _,
    ⟨_, Nat.le_succ_of_le hfloor, @Stage.signedIn _ _ _ _ _ [] _ hp hc' hkept.2.2 hroom hgame⟩, hflow, ⟨_, rfl⟩,
    fun _ _ => ⟨[], ?_⟩⟩
  rw [← hchannel]
  rfl

/-- A signed-in client stays so, whatever its observer is told. -/
theorem clientKeeps_callback {call : Callback} {asked : Option AString} {ids : List UInt32}
    (hfloor : floor ≤ 11) (hbase : ClientBase u l.client) (hchannel : l.client.channel = s.client.client.channel)
    (hp : ServerAt s.session.link.protocol s.session.served true 3 Authenticated [])
    (hc : ClientAt l.client true true 3) (hid : l.client.clientID = u.uniqueID.toUInt32)
    (hasked : ∀ room ∈ asked, Setup.Fits 0x01 room) (hgame : ∀ q ∈ packets, GamePacket q)
    (hup : Upstream u s.session.link l.client s.serverTrace l.client.coding
      (asked.toList.map Setup.joinRoom ++ ids.map Setup.keepAlive))
    (hbefore : ∃ more, asked.toList.map Setup.joinRoom ++ ids.map Setup.keepAlive = before ++ more)
    (hjoin : s.client.client.state ≠ 3 → l.client.state = 3 →
      ∃ rest, asked.toList.map Setup.joinRoom ++ ids.map Setup.keepAlive
        = Setup.joinRoom s.client.client.channel :: rest) (hquiet : call.Quiet) :
    ClientKeeps u s floor before s.session.link.protocol.coding { l with client := l.client.callback call }
      packets := by
  have hc' : ClientAt (l.client.callback call) true true 3 := ⟨hc.bConnect, hc.isEncrypted, hc.state⟩
  exact ⟨hbase.callback hquiet, hchannel, _, _, ⟨_, hfloor, .signedIn hp hc' hid hasked hgame⟩, hup, hbefore, hjoin⟩

theorem length_lt_of_clientFrame {bytes : List UInt8} {text : AString}
    (hfits : (frame bytes).length ≤ Connection.clientFrame) (htext : text.length ≤ bytes.length) :
    text.length < 2 ^ 32 := by
  rw [frame, List.length_append, Connection.clientFrame] at hfits
  omega

theorem clientHandles_game {q : Packet} {asked : Option AString} {ids : List UInt32}
    (hfloor : floor ≤ 11) (hbase : ClientBase u l.client) (hchannel : l.client.channel = s.client.client.channel)
    (hp : ServerAt s.session.link.protocol s.session.served true 3 Authenticated [])
    (hc : ClientAt l.client true true 3) (hid : l.client.clientID = u.uniqueID.toUInt32)
    (hasked : ∀ room ∈ asked, Setup.Fits 0x01 room) (hq : GamePacket q) (hgame : ∀ q ∈ packets, GamePacket q)
    (hup : Upstream u s.session.link l.client s.serverTrace l.client.coding
      (asked.toList.map Setup.joinRoom ++ ids.map Setup.keepAlive))
    (hbefore : ∃ more, asked.toList.map Setup.joinRoom ++ ids.map Setup.keepAlive = before ++ more)
    (hjoin : s.client.client.state ≠ 3 → l.client.state = 3 →
      ∃ rest, asked.toList.map Setup.joinRoom ++ ids.map Setup.keepAlive
        = Setup.joinRoom s.client.client.channel :: rest)
    (hbb : q.Buffered bb) :
    ClientHandles u s floor before s.session.link.protocol.coding l q packets bb := by
  cases hq with
  | keepAlive id =>
      obtain ⟨bb', c', hhandle, hbb', hsent⟩ := @ConnectionClient.handlePacket_keepAlive u.client l.client _ bb _ _
        hbase.canSend hc.state id hbb
      have hc' := hc.sent hsent
      have hflow := @ConnectionClient.Sent.flow _ _ _ (Setup.keepAlive id) _ _ _ _ _ _ hsent hup
      have hwaiting : asked.toList.map Setup.joinRoom ++ ids.map Setup.keepAlive ++ [Setup.keepAlive id]
          = asked.toList.map Setup.joinRoom ++ (ids ++ [id]).map Setup.keepAlive := by
        rw [List.map_append, List.append_assoc]
        rfl
      have hkept : c'.decryptor = l.client.decryptor ∧ c'.channel = l.client.channel
          ∧ c'.clientID = l.client.clientID := by
        obtain ⟨-, out, rfl⟩ := hsent
        exact ⟨rfl, rfl, rfl⟩
      rw [hwaiting] at hflow
      refine ⟨bb', _, _, c', hhandle, hbb', .inl ⟨hc'.isEncrypted.trans hc.isEncrypted.symm, fun _ => hkept.1, ?_⟩⟩
      refine ⟨hbase.sent hsent, hkept.2.1.trans hchannel, _, _,
        ⟨_, hfloor, .signedIn hp hc' (hkept.2.2.trans hid) hasked hgame⟩, hflow, ?_, fun hbefore _ => ?_⟩
      · obtain ⟨more, hmore⟩ := hbefore
        exact ⟨more ++ [Setup.keepAlive id], by rw [← hwaiting, hmore, List.append_assoc]⟩
      · obtain ⟨rest, hrest⟩ := hjoin hbefore hc.state
        exact ⟨rest ++ [Setup.keepAlive id], by rw [← hwaiting, hrest, List.cons_append]⟩
  | roomJoin room ret hfits =>
      have hroom : room.length < 2 ^ 32 := by
        apply length_lt_of_clientFrame hfits
        simp only [packetBytes, fieldsBytes_cons, fieldsBytes_nil, List.length_append, Field.bytes, stringBytes]
        omega
      obtain ⟨bb', hhandle, hbb'⟩ := @ConnectionClient.handlePacket_roomJoin u.client l.client _ bb _ _ hc.state room
        hroom ret hbb
      refine ⟨bb', _, _, _, hhandle, hbb', .inl ⟨?_, fun _ => ?_, ?_⟩⟩
      · split <;> rfl
      · split <;> rfl
      · split
        · exact clientKeeps_callback hfloor hbase hchannel hp hc hid hasked hgame hup hbefore hjoin trivial
        · exact ⟨hbase, hchannel, _, _, ⟨_, hfloor, .signedIn hp hc hid hasked hgame⟩, hup, hbefore, hjoin⟩
  | channelMsg fromID room msg hfits =>
      have hlengths : room.length < 2 ^ 32 ∧ msg.length < 2 ^ 32 := by
        refine ⟨length_lt_of_clientFrame hfits ?_, length_lt_of_clientFrame hfits ?_⟩
        all_goals
          simp only [packetBytes, fieldsBytes_cons, fieldsBytes_nil, List.length_append, Field.bytes, stringBytes]
          omega
      obtain ⟨bb', hhandle, hbb'⟩ := @ConnectionClient.handlePacket_channelMsg u.client l.client _ bb _ _ hc.state
        fromID room msg hlengths.1 hlengths.2 hbb
      exact ⟨bb', _, _, _, hhandle, hbb', .inl ⟨rfl, fun _ => rfl,
        clientKeeps_callback hfloor hbase hchannel hp hc hid hasked hgame hup hbefore hjoin trivial⟩⟩

/-- The client handles the next packet in each stage that has one on its way. -/
theorem clientHandles (hu : u.Sound) {q : Packet} {down : Coding} {answers : List Packet}
    (h : ClientKeeps u s floor before down l answers) (hanswers : answers = q :: packets) (hbb : q.Buffered bb) :
    ClientHandles u s floor before down l q packets bb := by
  obtain ⟨hbase, hchannel, waiting, up, ⟨rank, hfloor, hstage⟩, hup, hbefore, hjoin⟩ := h
  cases hstage with
  | idle | statusRequest => cases hanswers
  | statusResponse hp hc =>
      cases hanswers
      exact clientHandles_statusResponse hu hfloor hbase hchannel hp hc hup hbefore hbb
  | loginStart => cases hanswers
  | keyRequest hp hc =>
      cases hanswers
      exact clientHandles_keyRequest hu hfloor hbase hchannel hp hc hup hbefore hbb
  | silent | keyResponse => cases hanswers
  | loginAllow hp hc =>
      cases hanswers
      exact clientHandles_loginAllow hu hfloor hbase hchannel hp hc hup hbefore hbb
  | loginInfo | authenticating => cases hanswers
  | loginSuccess hp hc hgame =>
      cases hanswers
      exact clientHandles_loginSuccess hfloor hbase hchannel hp hc hgame hup hbefore hbb
  | signedIn hp hc hid hasked hgame =>
      cases hanswers
      rw [List.forall_mem_cons] at hgame
      exact clientHandles_game hfloor hbase hchannel hp hc hid hasked hgame.1 hgame.2 hup hbefore hjoin hbb

end Client

end Licode
