import Licode.Framing

/-!
# The server's end of a link

A `cClientHandle` and the `cProtocol_impl` it owns, as one state: the handle's members are the field
`client`. What the two hand to other components (the authenticator, the channel manager) is the list
`requests`, and what they report about the peer is the list `reports`. Assertions of these classes
do nothing, as in a release build; a failing `VERIFY` stops the run.

The receive ring is not part of `ProtocolImpl`. No packet handler touches it, and `ServerLink` puts
it beside the rest.
-/

namespace Licode

open ByteBuffer ByteImage

namespace ErrorCode

def accountAuthOk : Int32 := 1
def packetError : Int32 := -4
def packetUnknown : Int32 := -5
def serverBusy : Int32 := -6
def clientTimeout : Int32 := -8
def badApp : Int32 := -11
def invalidEncKeyLength : Int32 := -12
def invalidEncNonceLength : Int32 := -13
def hackedClient : Int32 := -14

end ErrorCode

namespace Server

/-- `cClientHandle::eState`. -/
inductive EState where
  | csConnected
  | csAuthenticating
  | csAuthenticated
  | csWorking
  | csDestroying
  | csDestroyed
  deriving DecidableEq, Repr

/-- `cClientHandle`. Times are left out: whether a ping is due is an input of `serverTick`. -/
structure ClientHandle where
  ipString : AString
  username : AString
  uuid : AString
  incomingData : List UInt8
  outgoingData : List UInt8
  hasSentDC : Bool
  ticksSinceLastPacket : Nat
  pingID : Int32
  state : EState
  uniqueID : Int32
  /-- `m_Link` is not null. -/
  link : Bool

def ClientHandle.create (ipString : AString) (uniqueID : Int32) : ClientHandle where
  ipString := ipString
  username := []
  uuid := []
  incomingData := []
  outgoingData := []
  hasSentDC := false
  ticksSinceLastPacket := 0
  pingID := 1
  state := .csConnected
  uniqueID := uniqueID
  link := true

/-- Calls to the authenticator and to the channel manager. -/
inductive Request where
  | authenticate (clientID : Int32) (username password : AString)
  | doUserJoinChannel (clientID : Int32) (channel : AString)
  | doUserLeftChannel (clientID : Int32) (channel : AString)
  | onMsgFromPeer (channel : AString) (clientID : Int32) (targetID : UInt32) (msg : AString)
  deriving DecidableEq

/-- Calls of `cClientHandle` that report a bad peer. -/
inductive Report where
  | kick (reason : Int32)
  | packetBufferFull
  | packetUnknown (packetType : UInt32)
  | packetError (packetType : UInt32)
  | unknownState (state : UInt32)
  | clientTimeout
  deriving DecidableEq

/-- `cProtocol_impl` without its receive ring. `encoded` is not in the source: it is the log of
the bytes given to `SendData`, with the mode each was encoded in. -/
structure ProtocolImpl where
  client : ClientHandle
  outPacketBuffer : ByteBuffer
  outPacketLenBuffer : ByteBuffer
  state : UInt32
  isEncrypted : Bool
  decryptor : AesCfb128
  encryptor : AesCfb128
  /-- `this`. -/
  address : UInt64
  requests : List Request
  reports : List Report
  encoded : List (Mode × UInt8)

/-- What the handlers take from elsewhere: the AES block function, the server's keys and its name.
`rsaPkcs1Decrypt` is the library call with the private key, `none` where it fails. -/
structure Env where
  aesCryptEcb : Block → Block → Block
  serverID : AString
  publicKeyDER : AString
  rsaLen : Nat
  rsaPkcs1Decrypt : List UInt8 → Option (List UInt8)

def ProtocolImpl.create (client : ClientHandle) (address : UInt64) : ProtocolImpl where
  client := client
  outPacketBuffer := ByteBuffer.create (64 * 1024)
  outPacketLenBuffer := ByteBuffer.create 20
  state := 1
  isEncrypted := false
  decryptor := AesCfb128.unkeyed
  encryptor := AesCfb128.unkeyed
  address := address
  requests := []
  reports := []
  encoded := []

/-- `MAX_ENC_LEN`. -/
def maxEncLen : Nat := 512

/-- `cRsaPrivateKey::Decrypt`, with `none` for `-1`. -/
def Env.decrypt (env : Env) (encryptedData : List UInt8) (decryptedMaxLength : Nat) :
    Option (List UInt8) :=
  if encryptedData.length < env.rsaLen then none
  else if decryptedMaxLength < env.rsaLen then none
  else env.rsaPkcs1Decrypt (encryptedData.take env.rsaLen)

/-- `static_cast<size_t>` of a signed length. -/
def sizeOfInt16 (v : Int16) : Nat := v.toInt64.toUInt64.toNat

namespace ProtocolImpl

/-! ### Sending -/

/-- `cClientHandle::SendData`. -/
def clientSendData (p : ProtocolImpl) (data : List UInt8) : ProtocolImpl :=
  if p.client.hasSentDC then p
  else { p with client := { p.client with outgoingData := p.client.outgoingData ++ data } }

/-- One round of the loop of `SendData`. -/
def encryptChunk (env : Env) (p : ProtocolImpl) (chunk : List UInt8) : Checked ProtocolImpl :=
  let (encrypted, encryptor) := AesCfb128.encryptData env.aesCryptEcb p.encryptor chunk
  .ok ({ p with
    encryptor := encryptor
    encoded := p.encoded ++ (Mode.encrypted p.encryptor.processed).tag chunk }.clientSendData
      encrypted)

def sendData (env : Env) (p : ProtocolImpl) (data : List UInt8) : Checked ProtocolImpl :=
  if p.isEncrypted then
    forChunks 8192 (encryptChunk env) data.length p data
  else
    .ok ({ p with encoded := p.encoded ++ Mode.plain.tag data }.clientSendData data)

def sendPacket (env : Env) (p : ProtocolImpl) : Checked ProtocolImpl := do
  let packetLen := UInt32.ofNat (← p.outPacketBuffer.getUsedSpace)
  let (_, lenBuffer) ← p.outPacketLenBuffer.writeVarInt32 packetLen
  let (lenToSend, lenBuffer) ← lenBuffer.readAll []
  let lenBuffer ← lenBuffer.commitRead
  let (dataToSend, outBuffer) ← p.outPacketBuffer.readAll []
  let p ← { p with outPacketBuffer := outBuffer, outPacketLenBuffer := lenBuffer }.sendData env
    (lenToSend ++ dataToSend)
  return { p with outPacketBuffer := ← p.outPacketBuffer.commitRead }

/-- A `cPacketizer` from its construction to its destruction. -/
def packet (env : Env) (p : ProtocolImpl) (packetType : UInt32) (fields : List Field) :
    Checked ProtocolImpl := do
  let outBuffer ← packetize p.outPacketBuffer packetType fields
  { p with outPacketBuffer := outBuffer }.sendPacket env

def sendDisconnect (env : Env) (p : ProtocolImpl) (reason : Int32) : Checked ProtocolImpl :=
  if p.state = 2 then
    p.packet env 0x00 [.beInt32 reason]
  else if p.state = 3 then
    p.packet env 0x40 [.beUInt32 reason.toUInt32]
  else
    .ok p

def sendKeepAlive (env : Env) (p : ProtocolImpl) (pingID : UInt32) : Checked ProtocolImpl :=
  if p.state ≠ 3 then .ok p else p.packet env 0x00 [.varInt32 pingID]

def sendLoginSuccess (env : Env) (p : ProtocolImpl) : Checked ProtocolImpl := do
  let p ← p.packet env 0x03 [.varInt32 p.client.uniqueID.toUInt32]
  return { p with state := 3 }

/-- `onJoinChannelResult` and `onLeaveChannelResult` differ in the packet type only. -/
def onChannelResult (packetType : UInt32) (env : Env) (p : ProtocolImpl) (channel : AString)
    (result : Int32) : Checked ProtocolImpl :=
  p.packet env packetType [.string channel, .varInt32 result.toUInt32]

def onJoinChannelResult := onChannelResult 0x01

def onLeaveChannelResult := onChannelResult 0x09

def onChannelMsg (env : Env) (p : ProtocolImpl) (fromID : Int32) (channel msg : AString) :
    Checked ProtocolImpl :=
  p.packet env 0x02 [.varInt32 fromID.toUInt32, .string channel, .string msg]

/-! ### The client handle -/

def report (p : ProtocolImpl) (r : Report) : ProtocolImpl := { p with reports := p.reports ++ [r] }

def request (p : ProtocolImpl) (r : Request) : ProtocolImpl :=
  { p with requests := p.requests ++ [r] }

/-- `cClientHandle::SendDisconnect`. -/
def clientSendDisconnect (env : Env) (p : ProtocolImpl) (reason : Int32) :
    Checked ProtocolImpl := do
  if p.client.hasSentDC then
    return p
  else
    let p ← p.sendDisconnect env reason
    return { p with client := { p.client with hasSentDC := true } }

def kick (env : Env) (p : ProtocolImpl) (reason : Int32) : Checked ProtocolImpl :=
  (p.report (.kick reason)).clientSendDisconnect env reason

def packetBufferFull (env : Env) (p : ProtocolImpl) : Checked ProtocolImpl :=
  (p.report .packetBufferFull).clientSendDisconnect env ErrorCode.serverBusy

def packetUnknown (env : Env) (p : ProtocolImpl) (packetType : UInt32) : Checked ProtocolImpl :=
  (p.report (.packetUnknown packetType)).clientSendDisconnect env ErrorCode.packetUnknown

def packetError (env : Env) (p : ProtocolImpl) (packetType : UInt32) : Checked ProtocolImpl :=
  (p.report (.packetError packetType)).clientSendDisconnect env ErrorCode.packetError

def handleLogin (p : ProtocolImpl) (username password : AString) : ProtocolImpl :=
  { p with client := { p.client with state := .csAuthenticating } }.request
    (.authenticate p.client.uniqueID username password)

/-- `cClientHandle::Authenticate`. -/
def authenticate (env : Env) (p : ProtocolImpl) (name password : AString) :
    Checked ProtocolImpl := do
  if p.client.state ≠ .csAuthenticating then
    return p
  else
    let uuid := if p.client.uuid.isEmpty then password else p.client.uuid
    let p ← { p with client := { p.client with username := name, uuid := uuid } }.sendLoginSuccess env
    return { p with client := { p.client with state := .csAuthenticated } }

/-! ### Packet handlers -/

def handlePacketStatusRequest (env : Env) (p : ProtocolImpl) (bb : ByteBuffer) :
    Checked (ByteBuffer × ProtocolImpl) :=
  handleRead bb.readVarUTF8String p fun appName bb =>
  handleRead bb.readVarUTF8String p fun _server bb =>
  handleRead bb.readBEInt32 p fun _port bb =>
  handleRead bb.readBEInt32 p fun state bb => do
    if appName ≠ ascii "mcu" ∨ state < 1 ∨ state > 2 then
      return (bb, ← p.kick env ErrorCode.badApp)
    else
      let p := { p with state := state.toUInt32 }
      return (bb, ← p.packet env 0x00
        [.beInt32 p.state.toInt32, .bool true, .bool true, .string p.client.ipString])

def handlePacketStatusPing (env : Env) (p : ProtocolImpl) (bb : ByteBuffer) :
    Checked (ByteBuffer × ProtocolImpl) :=
  handleRead bb.readBEInt64 p fun timestamp bb => do
    return (bb, ← p.packet env 0x01 [.beInt64 timestamp])

/-- The low half of `this` serves as the nonce. -/
def nonce (p : ProtocolImpl) : UInt32 := p.address.toUInt32

def handlePacketLoginStart (env : Env) (p : ProtocolImpl) (bb : ByteBuffer) :
    Checked (ByteBuffer × ProtocolImpl) := do
  return (bb, ← p.packet env 0x01
    [.string env.serverID, .beInt16 (UInt16.ofNat env.publicKeyDER.length).toInt16,
      .buf env.publicKeyDER, .beInt16 4, .beInt32 p.nonce.toInt32])

def startEncryption (p : ProtocolImpl) (key : Block) : ProtocolImpl :=
  { p with
    encryptor := AesCfb128.init key key
    decryptor := AesCfb128.init key key
    isEncrypted := true }

/-- The second half of the handler, after both ciphertexts have been read. -/
def checkEncryptionResponse (env : Env) (p : ProtocolImpl) (encKey encNonce : AString) :
    Checked ProtocolImpl :=
  match env.decrypt encNonce maxEncLen with
  | none => p.kick env ErrorCode.hackedClient
  | some decryptedNonce =>
      if decryptedNonce.length ≠ 4 then p.kick env ErrorCode.hackedClient
      else if UInt32.ofNat (value decryptedNonce) ≠ p.nonce then p.kick env ErrorCode.hackedClient
      else
        match env.decrypt encKey maxEncLen with
        | none => p.kick env ErrorCode.hackedClient
        | some decryptedKey =>
            if decryptedKey.length ≠ 16 then p.kick env ErrorCode.hackedClient
            else (p.startEncryption (toBlock decryptedKey)).packet env 0x02 []

def handlePacketLoginEncryptionResponse (env : Env) (p : ProtocolImpl) (bb : ByteBuffer) :
    Checked (ByteBuffer × ProtocolImpl) :=
  handleRead bb.readBEInt16 p fun encKeyLength bb => do
    if encKeyLength > 512 then
      return (bb, ← p.kick env ErrorCode.invalidEncKeyLength)
    else
      handleRead (bb.readString (sizeOfInt16 encKeyLength)) p fun encKey bb =>
      handleRead bb.readBEInt16 p fun encNonceLength bb => do
        if encNonceLength > 512 then
          return (bb, ← p.kick env ErrorCode.invalidEncNonceLength)
        else
          handleRead (bb.readString (sizeOfInt16 encNonceLength)) p fun encNonce bb => do
            return (bb, ← p.checkEncryptionResponse env encKey encNonce)

def handlePacketLoginInfo (p : ProtocolImpl) (bb : ByteBuffer) :
    Checked (ByteBuffer × ProtocolImpl) :=
  handleRead bb.readVarUTF8String p fun username bb => return (bb, p.handleLogin username username)

/-- `HandleKeepAlive` only takes the time since the last ping. -/
def handlePacketKeepAlive (p : ProtocolImpl) (bb : ByteBuffer) :
    Checked (ByteBuffer × ProtocolImpl) :=
  handleRead bb.readVarInt32 p fun _keepAliveID bb => return (bb, p)

def handlePacketJoinRoom (p : ProtocolImpl) (bb : ByteBuffer) :
    Checked (ByteBuffer × ProtocolImpl) :=
  handleRead bb.readVarUTF8String p fun channelName bb =>
    return (bb, p.request (.doUserJoinChannel p.client.uniqueID channelName))

def handlePacketLeftRoom (p : ProtocolImpl) (bb : ByteBuffer) :
    Checked (ByteBuffer × ProtocolImpl) :=
  handleRead bb.readVarUTF8String p fun channelName bb =>
    return (bb, p.request (.doUserLeftChannel p.client.uniqueID channelName))

def handlePacketMsgRoom (p : ProtocolImpl) (bb : ByteBuffer) :
    Checked (ByteBuffer × ProtocolImpl) :=
  handleRead bb.readVarUTF8String p fun channelName bb =>
  handleRead bb.readVarInt32 p fun targetID bb =>
  handleRead bb.readVarUTF8String p fun msg bb =>
    return (bb, p.request (.onMsgFromPeer channelName p.client.uniqueID targetID msg))

/-- The handler of a packet type in a protocol state, where there is one. -/
def handlerOf (env : Env) (state packetType : UInt32) :
    Option (ProtocolImpl → ByteBuffer → Checked (ByteBuffer × ProtocolImpl)) :=
  if state = 1 then
    if packetType = 0x00 then some (handlePacketStatusRequest env)
    else if packetType = 0x01 then some (handlePacketStatusPing env)
    else none
  else if state = 2 then
    if packetType = 0x00 then some (handlePacketLoginStart env)
    else if packetType = 0x01 then some (handlePacketLoginEncryptionResponse env)
    else if packetType = 0x02 then some handlePacketLoginInfo
    else none
  else if state = 3 then
    if packetType = 0x00 then some handlePacketKeepAlive
    else if packetType = 0x01 then some handlePacketJoinRoom
    else if packetType = 0x02 then some handlePacketMsgRoom
    else if packetType = 0x09 then some handlePacketLeftRoom
    else none
  else none

def handlePacket (env : Env) (p : ProtocolImpl) (bb : ByteBuffer) (packetType : UInt32) :
    Checked (Bool × ByteBuffer × ProtocolImpl) := do
  match handlerOf env p.state packetType with
  | some handler => return (true, ← handler p bb)
  | none =>
      if p.state = 1 ∨ p.state = 2 ∨ p.state = 3 then
        return (false, bb, ← p.packetUnknown env packetType)
      else if p.state = 255 then
        return (false, bb, p)
      else
        return (false, bb, { p.report (.unknownState p.state) with state := 255 })

end ProtocolImpl

/-- A `cProtocol_impl` with its receive ring. -/
structure ServerLink where
  receivedData : ByteBuffer
  protocol : ProtocolImpl

namespace ServerLink

def create (client : ClientHandle) (address : UInt64) : ServerLink where
  receivedData := ByteBuffer.create (64 * 1024)
  protocol := ProtocolImpl.create client address

def receiver (env : Env) : Receiver ServerLink where
  aesCryptEcb := env.aesCryptEcb
  receivedData l := l.receivedData
  setReceivedData ring l := { l with receivedData := ring }
  isEncrypted l := l.protocol.isEncrypted
  decryptor l := some l.protocol.decryptor
  setDecryptor c l := { l with protocol := { l.protocol with decryptor := c } }
  handlePacket l bb packetType := do
    let (handled, bb, p) ← l.protocol.handlePacket env bb packetType
    return (handled, bb, { l with protocol := p })
  packetBufferFull l := do
    return { l with protocol := ← l.protocol.packetBufferFull env }
  packetError packetType l := do
    return { l with protocol := ← l.protocol.packetError env packetType }
  receivedData_setReceivedData _ _ := rfl
  receivedData_setDecryptor _ _ := rfl
  decryptor_setReceivedData _ _ := rfl
  decryptor_setDecryptor _ _ := rfl

def dataReceived (env : Env) : ServerLink → List UInt8 → Checked (List ReceiveEvent × ServerLink) :=
  (receiver env).dataReceived

/-- `cClientHandle::OnReceivedData`. -/
def onReceivedData (l : ServerLink) (data : List UInt8) : ServerLink :=
  { l with protocol.client := { l.protocol.client with
      ticksSinceLastPacket := 0
      incomingData := l.protocol.client.incomingData ++ data } }

/-- The part of `ServerTick` that hands the incoming data to the protocol. -/
def processIncoming (env : Env) (l : ServerLink) : Checked (List ReceiveEvent × ServerLink) :=
  let incomingData := l.protocol.client.incomingData
  let l := { l with protocol.client.incomingData := [] }
  if incomingData.isEmpty then .ok ([], l) else l.dataReceived env incomingData

/-- The part of `ServerTick` that takes the outgoing data to the link. -/
def flushOutgoing (p : ProtocolImpl) : List UInt8 × ProtocolImpl :=
  (if p.client.link then p.client.outgoingData else [],
    { p with client.outgoingData := [] })

/-- The part of `ServerTick` that pings; `pingDue` is the comparison of the clocks. -/
def sendPing (env : Env) (pingDue : Bool) (p : ProtocolImpl) : Checked ProtocolImpl :=
  if p.client.state = .csWorking ∧ pingDue then
    { p with client.pingID := p.client.pingID + 1 }.sendKeepAlive env
      (p.client.pingID + 1).toUInt32
  else
    .ok p

/-- The part of `ServerTick` that counts the ticks without data. -/
def checkTimeout (env : Env) (p : ProtocolImpl) : Checked ProtocolImpl :=
  let p := { p with client.ticksSinceLastPacket := p.client.ticksSinceLastPacket + 1 }
  if p.client.ticksSinceLastPacket > 600 then
    (p.report .clientTimeout).clientSendDisconnect env ErrorCode.clientTimeout
  else
    .ok p

/-- `cClientHandle::ServerTick`: the trace of the incoming data and the bytes given to the link. -/
def serverTick (env : Env) (pingDue : Bool) (l : ServerLink) :
    Checked (List ReceiveEvent × List UInt8 × ServerLink) := do
  let (events, l) ← l.processIncoming env
  let (sent, p) := flushOutgoing l.protocol
  let p := if p.client.state = .csAuthenticated then { p with client.state := .csWorking } else p
  let p ← sendPing env pingDue p
  let p ← checkTimeout env p
  return (events, sent, { l with protocol := p })

end ServerLink

end Server

end Licode
