import Licode.Client.ClientSpec
import Licode.Lib.Run
import Licode.Server.LoginSession

/-!
# The login handshake

A client, its handle on the server and the connection between them, from the call of `JoinChannel` on. The client
reads, the handle receives and ticks, the authenticator runs and the server's rooms answer in any order, and the bytes
of both directions are cut anywhere. A stage says which packets are on their way.
-/

namespace Licode

open ByteBuffer Receiver Server Client

/-- What the two ends of a connection are given: the server's environment and the handle's own data, and what the
client takes from elsewhere. -/
structure Setup where
  server : Server.Env
  rand : Nat → Nat
  encrypt : AString → List UInt8 → Option (List UInt8)
  ipString : AString
  uniqueID : Int32
  address : UInt64
  userName : AString

namespace Setup

/-- Both ends have the same block cipher. -/
def client (u : Setup) : Client.Env := ⟨u.server.aesCryptEcb, u.rand, u.encrypt⟩

/-- The text fits the client's out buffer as the only field of a packet. -/
def Fits (packetType : UInt32) (text : AString) : Prop :=
  (packetBytes packetType (fieldsBytes [.string text])).length ≤ 16 * 1024

theorem length_lt_of_fits {packetType : UInt32} {text : AString} (h : Fits packetType text) : text.length < 2 ^ 32 := by
  have hle : text.length ≤ (packetBytes packetType (fieldsBytes [.string text])).length := by
    simp only [packetBytes, fieldsBytes_cons, fieldsBytes_nil, List.length_append, Field.bytes, stringBytes]
    omega
  unfold Fits at h
  omega

theorem fits_nil : Fits 0x01 [] := by
  unfold Fits
  decide

/-- `Decrypt` inverts `Encrypt`, and what is sent fits the buffers. -/
structure Sound (u : Setup) : Prop where
  decrypt : ∀ data encrypted, u.encrypt u.server.publicKeyDER data = some encrypted →
    encrypted.length = ConnectionClient.encryptedLength ∧ u.server.decrypt encrypted maxEncLen = some data
  publicKey : u.server.serverID.length + u.server.publicKeyDER.length ≤ 16000
  ipString : u.ipString.length ≤ 16000
  userName : Fits 0x02 u.userName

end Setup

/-- A client and its handle. What the client has sent waits in `sock`, what the handle has sent in `toClient`; the
traces are what the two ends have done with what they have received. -/
structure Connection where
  session : Session
  client : ClientLink
  toClient : List UInt8
  serverTrace : List ReceiveEvent
  clientTrace : List ReceiveEvent

namespace Connection

def start (u : Setup) : Connection where
  session := Session.create u.ipString u.uniqueID u.address
  client := ClientLink.create u.userName
  toClient := []
  serverTrace := []
  clientTrace := []

inductive Event where
  | joinChannel (server room : AString)
  | onConnect
  | onReceivedData (data : List UInt8)
  | serverTick (pingDue : Bool)
  | executeAuthenticator
  | onRead (data : List UInt8)
  | onJoinChannelResult (room : AString) (result : Int32)
  | onChannelMsg (fromID : Int32) (room msg : AString)

/-- The longest frame that the client's ring takes whatever part of another one it holds. -/
def clientFrame : Nat := 16 * 1024 - 511

/-- One step. The connection is made once, what arrives is not empty, and a tick that runs into the timeout would end
the connection. -/
inductive Step (u : Setup) : Connection → Event → Connection → Prop
  | joinChannel {s : Connection} {server room : AString} (hfits : Setup.Fits 0x01 room) :
      Step u s (.joinChannel server room) { s with client.client := s.client.client.joinChannel server room }
  | onConnect {s : Connection} {c : ConnectionClient} (hconnecting : s.client.client.connecting = true)
      (hone : s.client.client.bConnect = false) (h : s.client.client.onConnect u.client = .ok c) :
      Step u s .onConnect { s with client.client := c }
  | onReceivedData {s : Connection} {data rest : List UInt8} (hdata : data ≠ [])
      (hsock : s.client.client.sock = data ++ rest) :
      Step u s (.onReceivedData data) { s with
        session.link := s.session.link.onReceivedData data
        client.client.sock := rest }
  | serverTick {s : Connection} {pingDue : Bool} {events : List ReceiveEvent} {sent : List UInt8} {l : ServerLink}
      (h : s.session.link.serverTick u.server pingDue = .ok (events, sent, l))
      (hintime : l.protocol.client.ticksSinceLastPacket ≤ 600) :
      Step u s (.serverTick pingDue) { s with
        session.link := l
        toClient := s.toClient ++ sent
        serverTrace := s.serverTrace ++ events }
  | executeAuthenticator {s : Connection} {session : Session}
      (h : s.session.executeAuthenticator u.server = .ok session) :
      Step u s .executeAuthenticator { s with session := session }
  | onRead {s : Connection} {data rest : List UInt8} {events : List ReceiveEvent} {l : ClientLink}
      (hdata : data ≠ []) (hwire : s.toClient = data ++ rest)
      (h : s.client.onRead u.client data = .ok (events, l)) :
      Step u s (.onRead data) { s with
        client := l
        toClient := rest
        clientTrace := s.clientTrace ++ events }
  | onJoinChannelResult {s : Connection} {room : AString} {result : Int32} {p : ProtocolImpl}
      (hworking : s.session.link.protocol.state = 3)
      (hfits : (frame (packetBytes 0x01 (fieldsBytes [.string room, .varInt32 result.toUInt32]))).length
        ≤ clientFrame)
      (h : s.session.link.protocol.onJoinChannelResult u.server room result = .ok p) :
      Step u s (.onJoinChannelResult room result) { s with session.link.protocol := p }
  | onChannelMsg {s : Connection} {fromID : Int32} {room msg : AString} {p : ProtocolImpl}
      (hworking : s.session.link.protocol.state = 3)
      (hfits : (frame (packetBytes 0x02
        (fieldsBytes [.varInt32 fromID.toUInt32, .string room, .string msg]))).length ≤ clientFrame)
      (h : s.session.link.protocol.onChannelMsg u.server fromID room msg = .ok p) :
      Step u s (.onChannelMsg fromID room msg) { s with session.link.protocol := p }

end Connection

/-! ### Codings and packets -/

namespace Server.ProtocolImpl

/-- The coding of the next byte that is sent. -/
def coding (p : ProtocolImpl) : Coding := if p.isEncrypted then some p.encryptor else none

/-- The coding in which the next byte is decoded. -/
def decoding (p : ProtocolImpl) : Coding := if p.isEncrypted then some p.decryptor else none

theorem wire_fst (env : Env) (p : ProtocolImpl) (data : List UInt8) :
    (p.wire env data).1 = (p.coding.encode env.aesCryptEcb data).1 := by
  unfold wire coding
  split <;> rfl

theorem mode_eq (p : ProtocolImpl) : p.mode = p.coding.mode := by
  unfold mode coding
  split <;> rfl

theorem coding_sentData (env : Env) (p : ProtocolImpl) (data : List UInt8) :
    (p.sentData env data).coding = (p.coding.encode env.aesCryptEcb data).2 := by
  have hmode : (p.sentData env data).isEncrypted = p.isEncrypted := rfl
  rw [coding, hmode]
  cases hencrypted : p.isEncrypted with
  | false => simp [coding, hencrypted, Coding.encode]
  | true => simp [sentData, wire, coding, hencrypted, Coding.encode]

theorem Sent.coding {env : Env} {p p' : ProtocolImpl} {bytes : List UInt8} (h : Sent env p bytes p') :
    p'.coding = (p.coding.encode env.aesCryptEcb bytes).2 := by
  obtain ⟨-, out, len, rfl⟩ := h
  exact p.coding_sentData env bytes

theorem Kept.decoding {p p' : ProtocolImpl} (h : Kept p p') : p'.decoding = p.decoding := by
  rw [ProtocolImpl.decoding, ProtocolImpl.decoding, h.isEncrypted, h.decryptor]

theorem Sent.incomingData {env : Env} {p p' : ProtocolImpl} {bytes : List UInt8} (h : Sent env p bytes p') :
    p'.client.incomingData = p.client.incomingData := by
  obtain ⟨-, out, len, rfl⟩ := h
  rfl

/-- The bytes of a packet go behind those that wait to be sent. -/
theorem Sent.flow {env : Env} {p p' : ProtocolImpl} {q : Packet} {n : Nat} {ring : ByteBuffer} {coding : Coding}
    {packets : List Packet} {wire : List UInt8} {decoded : List (Mode × UInt8)} (h : Sent env p q.frame p')
    (hlink : p.client.hasSentDC = false)
    (hflow : Flow env.aesCryptEcb n ring coding p.coding packets (wire ++ p.client.outgoingData) decoded
      p.encoded) :
    Flow env.aesCryptEcb n ring coding p'.coding (packets ++ [q]) (wire ++ p'.client.outgoingData) decoded
      p'.encoded := by
  have hnext := hflow.send q
  rw [← h.coding] at hnext
  obtain ⟨-, out, len, rfl⟩ := h
  simp only [sentData, hlink, Bool.false_eq_true, if_false, wire_fst, mode_eq, ← List.append_assoc]
  exact hnext

end Server.ProtocolImpl

namespace Client.ConnectionClient

/-- The coding in which the next byte is decoded. -/
def decoding (c : ConnectionClient) : Coding := if c.isEncrypted then c.decryptor else none

theorem Sent.coding {env : Env} {c c' : ConnectionClient} {bytes : List UInt8} (h : Sent env c bytes c') :
    c'.coding = (c.coding.encode env.aesCryptEcb bytes).2 := by
  obtain ⟨-, out, rfl⟩ := h
  exact c.coding_sentData env bytes

theorem Sent.flow {env : Env} {c c' : ConnectionClient} {q : Packet} {n : Nat} {ring : ByteBuffer} {coding : Coding}
    {packets : List Packet} {wire : List UInt8} {decoded : List (Mode × UInt8)} (h : Sent env c q.frame c')
    (hflow : Flow env.aesCryptEcb n ring coding c.coding packets (wire ++ c.sock) decoded c.encoded) :
    Flow env.aesCryptEcb n ring coding c'.coding (packets ++ [q]) (wire ++ c'.sock) decoded c'.encoded := by
  have hnext := hflow.send q
  rw [← h.coding] at hnext
  obtain ⟨-, out, rfl⟩ := h
  simp only [sentData, ← List.append_assoc]
  exact hnext

end Client.ConnectionClient

/-! ### The packets of a login -/

namespace Setup

def nonce (u : Setup) : UInt32 := u.address.toUInt32

/-- The key of the server does not take the secret, or not the nonce. -/
def EncryptFails (u : Setup) : Prop :=
  u.encrypt u.server.publicKeyDER (ConnectionClient.sharedSecret u.client) = none
    ∨ u.encrypt u.server.publicKeyDER (ByteImage.littleEndian 4 u.nonce.toNat) = none

def statusRequest : Packet :=
  ⟨0x00, fieldsBytes (ProtocolImpl.statusRequestFields ConnectionClient.defaultServer
    ConnectionClient.defaultPort 2)⟩

def statusResponse (u : Setup) : Packet :=
  ⟨0x00, fieldsBytes [.beInt32 2, .bool true, .bool true, .string u.ipString]⟩

def loginStart : Packet := ⟨0x00, fieldsBytes []⟩

def keyRequest (u : Setup) : Packet :=
  ⟨0x01, fieldsBytes [.string u.server.serverID, .beInt16 (UInt16.ofNat u.server.publicKeyDER.length).toInt16,
    .buf u.server.publicKeyDER, .beInt16 4, .beInt32 u.nonce.toInt32]⟩

def keyResponse (encryptedSecret encryptedNonce : List UInt8) : Packet :=
  ⟨0x01, fieldsBytes (ConnectionClient.keyResponseFields encryptedSecret encryptedNonce)⟩

def loginAllow : Packet := ⟨0x02, fieldsBytes []⟩

def loginInfo (u : Setup) : Packet := ⟨0x02, fieldsBytes [.string u.userName]⟩

def loginSuccess (u : Setup) : Packet := ⟨0x03, fieldsBytes [.varInt32 u.uniqueID.toUInt32]⟩

def joinRoom (room : AString) : Packet := ⟨0x01, fieldsBytes [.string room]⟩

def keepAlive (id : UInt32) : Packet := ⟨0x00, fieldsBytes [.varInt32 id]⟩

/-- The cipher of both ends. -/
def cipher (u : Setup) : AesCfb128 :=
  AesCfb128.init (toBlock (ConnectionClient.sharedSecret u.client)) (toBlock (ConnectionClient.sharedSecret u.client))

end Setup

/-- The packets to a client that is signed in. -/
inductive GamePacket : Packet → Prop
  | keepAlive (id : UInt32) : GamePacket (Setup.keepAlive id)
  | roomJoin (room : AString) (ret : UInt32)
      (hfits : (frame (packetBytes 0x01 (fieldsBytes [.string room, .varInt32 ret]))).length
        ≤ Connection.clientFrame) :
      GamePacket ⟨0x01, fieldsBytes [.string room, .varInt32 ret]⟩
  | channelMsg (fromID : UInt32) (room msg : AString)
      (hfits : (frame (packetBytes 0x02 (fieldsBytes [.varInt32 fromID, .string room, .string msg]))).length
        ≤ Connection.clientFrame) :
      GamePacket ⟨0x02, fieldsBytes [.varInt32 fromID, .string room, .string msg]⟩

/-! ### Stages -/

/-- Where the server is in the handshake, with the users that wait for the authenticator. -/
structure ServerAt (p : ProtocolImpl) (served : Nat) (isEncrypted : Bool) (state : UInt32)
    (clientState : EState → Prop) (queue : List (Int32 × AString × AString)) : Prop where
  isEncrypted : p.isEncrypted = isEncrypted
  state : p.state = state
  clientState : clientState p.client.state
  queue : ∃ done, p.requests.filterMap Request.user = done ++ queue ∧ done.length = served

structure ClientAt (c : ConnectionClient) (bConnect isEncrypted : Bool) (state : UInt32) : Prop where
  bConnect : c.bConnect = bConnect
  isEncrypted : c.isEncrypted = isEncrypted
  state : c.state = state

/-- The handle's state behind the login. -/
def Authenticated (state : EState) : Prop := state = .csAuthenticated ∨ state = .csWorking

/-- The stages of the handshake, each with its rank, the packets on their way to the server and to the client, and the
codings behind them. `keyResponse` is the one in which the two ends are in different modes. -/
inductive Stage (u : Setup) (p : ProtocolImpl) (served : Nat) (c : ConnectionClient) :
    Nat → List Packet → List Packet → Coding → Coding → Prop
  | idle (hp : ServerAt p served false 1 (· = .csConnected) []) (hc : ClientAt c false false 1) :
      Stage u p served c 0 [] [] c.coding p.coding
  | statusRequest (hp : ServerAt p served false 1 (· = .csConnected) []) (hc : ClientAt c true false 1) :
      Stage u p served c 1 [Setup.statusRequest] [] c.coding p.coding
  | statusResponse (hp : ServerAt p served false 2 (· = .csConnected) []) (hc : ClientAt c true false 1) :
      Stage u p served c 2 [] [u.statusResponse] c.coding p.coding
  | loginStart (hp : ServerAt p served false 2 (· = .csConnected) []) (hc : ClientAt c true false 2) :
      Stage u p served c 3 [Setup.loginStart] [] c.coding p.coding
  | keyRequest (hp : ServerAt p served false 2 (· = .csConnected) []) (hc : ClientAt c true false 2) :
      Stage u p served c 4 [] [u.keyRequest] c.coding p.coding
  | silent (hp : ServerAt p served false 2 (· = .csConnected) []) (hc : ClientAt c true false 2)
      (hfails : u.EncryptFails) :
      Stage u p served c 5 [] [] c.coding p.coding
  | keyResponse {encryptedSecret encryptedNonce : List UInt8}
      (hp : ServerAt p served false 2 (· = .csConnected) []) (hc : ClientAt c true true 2)
      (hencryptor : c.encryptor = some u.cipher)
      (hsecret : u.encrypt u.server.publicKeyDER (ConnectionClient.sharedSecret u.client) = some encryptedSecret)
      (hnonce : u.encrypt u.server.publicKeyDER (ByteImage.littleEndian 4 u.nonce.toNat) = some encryptedNonce) :
      Stage u p served c 6 [Setup.keyResponse encryptedSecret encryptedNonce] [] none (some u.cipher)
  | loginAllow (hp : ServerAt p served true 2 (· = .csConnected) []) (hc : ClientAt c true true 2) :
      Stage u p served c 7 [] [Setup.loginAllow] c.coding p.coding
  | loginInfo (hp : ServerAt p served true 2 (· = .csConnected) []) (hc : ClientAt c true true 2) :
      Stage u p served c 8 [u.loginInfo] [] c.coding p.coding
  | authenticating
      (hp : ServerAt p served true 2 (· = .csAuthenticating) [(u.uniqueID, u.userName, u.userName)])
      (hc : ClientAt c true true 2) :
      Stage u p served c 9 [] [] c.coding p.coding
  | loginSuccess {game : List Packet} (hp : ServerAt p served true 3 Authenticated []) (hc : ClientAt c true true 2)
      (hgame : ∀ q ∈ game, GamePacket q) :
      Stage u p served c 10 [] (u.loginSuccess :: game) c.coding p.coding
  | signedIn {asked : Option AString} {ids : List UInt32} {game : List Packet}
      (hp : ServerAt p served true 3 Authenticated []) (hc : ClientAt c true true 3)
      (hid : c.clientID = u.uniqueID.toUInt32) (hasked : ∀ room ∈ asked, Setup.Fits 0x01 room)
      (hgame : ∀ q ∈ game, GamePacket q) :
      Stage u p served c 11 (asked.toList.map Setup.joinRoom ++ ids.map Setup.keepAlive) game c.coding p.coding

theorem Stage.joined {u : Setup} {p : ProtocolImpl} {served : Nat} {c : ConnectionClient} {ids : List UInt32}
    {game : List Packet} (hp : ServerAt p served true 3 Authenticated []) (hc : ClientAt c true true 3)
    (hid : c.clientID = u.uniqueID.toUInt32) (hgame : ∀ q ∈ game, GamePacket q) :
    Stage u p served c 11 (ids.map Setup.keepAlive) game c.coding p.coding :=
  @Stage.signedIn u p served c none ids game hp hc hid (fun room h => absurd h (Option.not_mem_none room)) hgame

/-- The calls of a client's observer that report a bad server. -/
def Client.Callback.Quiet : Client.Callback → Prop
  | .packetBufferFull => False
  | .packetError _ => False
  | .packetUnknown _ => False
  | _ => True

/-- What does not change in the handshake on the server, whose last packet came `ticks` ago. -/
structure ServerBase (u : Setup) (ticks : Nat) (p : ProtocolImpl) : Prop where
  ready : p.Ready
  hasSentDC : p.client.hasSentDC = false
  link : p.client.link = true
  reports : p.reports = []
  ipString : p.client.ipString = u.ipString
  uniqueID : p.client.uniqueID = u.uniqueID
  address : p.address = u.address
  ticks : p.client.ticksSinceLastPacket = ticks

structure ClientBase (u : Setup) (c : ConnectionClient) : Prop where
  canSend : c.CanSend
  keyed : c.isEncrypted = true → c.decryptor ≠ none
  userName : c.userName = u.userName
  channel : Setup.Fits 0x01 c.channel
  quiet : ∀ call ∈ c.callbacks, call.Quiet

/-- The packets on their way to the server. -/
def Upstream (u : Setup) (l : ServerLink) (c : ConnectionClient) (trace : List ReceiveEvent) (after : Coding)
    (packets : List Packet) : Prop :=
  Flow u.server.aesCryptEcb (64 * 1024) l.receivedData l.protocol.decoding after packets
    (l.protocol.client.incomingData ++ c.sock) (decodedLog trace) c.encoded

/-- The packets on their way to the client. -/
def Downstream (u : Setup) (p : ProtocolImpl) (l : ClientLink) (wire : List UInt8) (trace : List ReceiveEvent)
    (after : Coding) (packets : List Packet) : Prop :=
  Flow u.server.aesCryptEcb (16 * 1024) l.receivedData l.client.decoding after packets
    (wire ++ p.client.outgoingData) (decodedLog trace) p.encoded

/-- The handshake has come to a stage of the rank `floor` at least, with its packets on their way. -/
def StageFrom (u : Setup) (floor : Nat) (p : ProtocolImpl) (served : Nat) (c : ConnectionClient)
    (waiting answers : List Packet) (up down : Coding) : Prop :=
  ∃ rank, floor ≤ rank ∧ Stage u p served c rank waiting answers up down

/-- The two ends agree, with `waiting` on its way to the server. -/
structure Agrees (u : Setup) (s : Connection) (floor : Nat) (waiting : List Packet) : Prop where
  server : ServerBase u s.session.link.protocol.client.ticksSinceLastPacket s.session.link.protocol
  client : ClientBase u s.client.client
  serverQuiet : ∀ event ∈ s.serverTrace, event.Quiet
  clientQuiet : ∀ event ∈ s.clientTrace, event.Quiet
  stage : ∃ answers up down,
    StageFrom u floor s.session.link.protocol s.session.served s.client.client waiting answers up down
      ∧ Upstream u s.session.link s.client.client s.serverTrace up waiting
      ∧ Downstream u s.session.link.protocol s.client s.toClient s.clientTrace down answers

end Licode
