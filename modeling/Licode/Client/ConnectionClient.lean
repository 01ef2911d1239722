import Licode.Framing

/-!
# The client's end of a link

`ConnectionClient` from the call of `JoinChannel` on. What it reports to its observer is the list
`callbacks`, and the bytes it has given to `::send` wait in `sock` until they arrive. As on the
server, the receive ring stands beside the rest, assertions do nothing, and a failing `VERIFY` stops
the run.
-/

namespace Licode.Client

open ByteBuffer ByteImage

/-- The calls of `ConnectionClientObserver`; the text of a notification is told by its error code. -/
inductive Callback where
  | packetBufferFull
  | packetError (packetType : UInt32)
  | packetUnknown (packetType : UInt32)
  | onSignedIn
  | onLoginError
  | postNotification (code : Int32)
  | onJoinedChannel (room : AString)
  | onLeaveChannel (room : AString)
  | onMessageFromChannel (room : AString) (fromID : UInt32) (msg : AString)
  deriving DecidableEq

/-- `ConnectionClient` without its receive ring. `connecting` says that `ConnectToServer` has been
called, and `encoded` is the log of the bytes given to `SendData`, with the mode each was encoded
in. -/
structure ConnectionClient where
  server : AString
  outPacketBuffer : ByteBuffer
  state : UInt32
  isEncrypted : Bool
  bConnect : Bool
  clientID : UInt32
  decryptor : Option AesCfb128
  encryptor : Option AesCfb128
  userName : AString
  channel : AString
  connecting : Bool
  sock : List UInt8
  callbacks : List Callback
  encoded : List (Mode × UInt8)

/-- What the handlers take from elsewhere: the AES block function, the results of `rand`, and
`cCryptoKey::Encrypt` under a public key, which fills an array or fails. -/
structure Env where
  aesCryptEcb : Block → Block → Block
  rand : Nat → Nat
  encrypt : AString → List UInt8 → Option (List UInt8)

def ConnectionClient.create (userName : AString) : ConnectionClient where
  server := []
  outPacketBuffer := ByteBuffer.create (16 * 1024)
  state := 1
  isEncrypted := false
  bConnect := false
  clientID := 0
  decryptor := none
  encryptor := none
  userName := userName
  channel := []
  connecting := false
  sock := []
  callbacks := []
  encoded := []

namespace ConnectionClient

def callback (c : ConnectionClient) (call : Callback) : ConnectionClient :=
  { c with callbacks := c.callbacks ++ [call] }

/-! ### Sending -/

/-- One round of the loop of `SendData`. -/
def encryptChunk (env : Env) (c : ConnectionClient) (chunk : List UInt8) :
    Checked ConnectionClient :=
  match c.encryptor with
  | none => .error .nullPointer
  | some encryptor =>
      let (encrypted, encryptor') := AesCfb128.encryptData env.aesCryptEcb encryptor chunk
      .ok { c with
        encryptor := some encryptor'
        sock := c.sock ++ encrypted
        encoded := c.encoded ++ (Mode.encrypted encryptor.processed).tag chunk }

def sendData (env : Env) (c : ConnectionClient) (data : List UInt8) : Checked ConnectionClient :=
  if c.isEncrypted then
    forChunks 8192 (encryptChunk env) data.length c data
  else
    .ok { c with sock := c.sock ++ data, encoded := c.encoded ++ Mode.plain.tag data }

/-- A `cPacketizer` of the client, which sends the length and the packet one after the other. -/
def packet (env : Env) (c : ConnectionClient) (packetType : UInt32) (fields : List Field) :
    Checked ConnectionClient := do
  let outBuffer ← packetize c.outPacketBuffer packetType fields
  let packetLen := UInt32.ofNat (← outBuffer.getUsedSpace)
  let (_, lenBuffer) ← (ByteBuffer.create 20).writeVarInt32 packetLen
  let (dataToSend, lenBuffer) ← lenBuffer.readAll []
  let c ← { c with outPacketBuffer := outBuffer }.sendData env dataToSend
  let _ ← lenBuffer.commitRead
  let (dataToSend, outBuffer) ← outBuffer.readAll dataToSend
  let c ← c.sendData env dataToSend
  return { c with outPacketBuffer := ← outBuffer.commitRead }

/-! ### The application and the socket -/

/-- `ConnectToServer` opens the socket; `OnConnect` tells that it has worked. -/
def connectToServer (c : ConnectionClient) : ConnectionClient := { c with connecting := true }

def joinChannel (c : ConnectionClient) (server room : AString) : ConnectionClient :=
  let c := { c with channel := room }
  if ¬ c.bConnect then { c with server := server }.connectToServer else c

/-- `SERVER` and `PORT`. -/
def defaultServer : AString := ascii "127.0.0.1"

def defaultPort : Int32 := 6666

def onConnect (env : Env) (c : ConnectionClient) : Checked ConnectionClient :=
  { c with bConnect := true }.packet env 0x00
    [.string (ascii "mcu"), .string defaultServer, .beInt32 defaultPort, .beInt32 2]

def sendToChannel (env : Env) (c : ConnectionClient) (room : AString) (clientID : UInt32)
    (msg : AString) : Checked ConnectionClient :=
  c.packet env 0x02 [.string room, .varInt32 clientID, .string msg]

def leaveChannel (env : Env) (c : ConnectionClient) (room : AString) : Checked ConnectionClient :=
  c.packet env 0x09 [.string room]

/-! ### Packet handlers -/

def handlePacketStatusRequest (env : Env) (c : ConnectionClient) (bb : ByteBuffer) :
    Checked (ByteBuffer × ConnectionClient) :=
  handleRead bb.readBEInt32 c fun state bb =>
  handleRead bb.readBool c fun _zip bb =>
  handleRead bb.readBool c fun _encrypt bb =>
  handleRead bb.readVarUTF8String c fun _strIP bb => do
    if state > 3 ∨ state < 1 then
      return (bb, c)
    else
      return (bb, ← { c with state := state.toUInt32 }.packet env 0x00 [])

def handleErrorCode (c : ConnectionClient) (code : Int32) : ConnectionClient :=
  (c.callback .onLoginError).callback (.postNotification code)

/-- `HandlePacketLoginDisconnect` and `HandlePacketErrorCode` are the same. -/
def handlePacketReason (c : ConnectionClient) (bb : ByteBuffer) :
    Checked (ByteBuffer × ConnectionClient) :=
  handleRead bb.readBEInt32 c fun reason bb => return (bb, c.handleErrorCode reason)

def handlePacketLoginDisconnect := handlePacketReason

def handlePacketErrorCode := handlePacketReason

/-- The sixteen random bytes. -/
def sharedSecret (env : Env) : List UInt8 :=
  (List.range 16).map fun i => UInt8.ofNat (env.rand i % 255)

/-- The length of the arrays `EncryptedSecret` and `EncryptedNonce`. -/
def encryptedLength : Nat := 128

def sendEncryptionKeyResponse (env : Env) (c : ConnectionClient) (publicKey : AString)
    (nonce : UInt32) : Checked ConnectionClient :=
  match env.encrypt publicKey (sharedSecret env) with
  | none => .ok c
  | some encryptedSecret =>
      let key := toBlock (sharedSecret env)
      let c := { c with
        encryptor := some (AesCfb128.init key key)
        decryptor := some (AesCfb128.init key key) }
      match env.encrypt publicKey (littleEndian 4 nonce.toNat) with
      | none => .ok c
      | some encryptedNonce => do
          let c ← c.packet env 0x01
            [.beUInt16 (UInt16.ofNat encryptedLength), .buf encryptedSecret,
              .beUInt16 (UInt16.ofNat encryptedLength), .buf encryptedNonce]
          return { c with isEncrypted := true }

def handlePacketLoginEncryptionKeyRequest (env : Env) (c : ConnectionClient) (bb : ByteBuffer) :
    Checked (ByteBuffer × ConnectionClient) :=
  handleRead bb.readVarUTF8String c fun _serverID bb =>
  handleRead bb.readBEInt16 c fun keyLen bb => do
    -- `new char[keyLen]`
    if keyLen < 0 then
      .error .outOfBounds
    else
      let (image, bb) ← bb.readBuf keyLen.toInt.toNat
      let publicKey := image.getD (List.replicate keyLen.toInt.toNat 0)
      handleRead bb.readBEInt16 c fun nonceLen bb =>
      handleRead bb.readBEInt32 c fun nonce bb => do
        if nonceLen ≠ 4 then
          return (bb, c)
        else
          return (bb, ← c.sendEncryptionKeyResponse env publicKey nonce.toUInt32)

def handlePacketLoginAllow (env : Env) (c : ConnectionClient) (bb : ByteBuffer) :
    Checked (ByteBuffer × ConnectionClient) := do
  return (bb, ← c.packet env 0x02 [.string c.userName])

def handlePacketLoginSuccess (env : Env) (c : ConnectionClient) (bb : ByteBuffer) :
    Checked (ByteBuffer × ConnectionClient) :=
  handleRead bb.readVarInt32 c fun clientID bb => do
    let c := { c with clientID := clientID, state := 3 }.callback .onSignedIn
    return (bb, ← c.packet env 0x01 [.string c.channel])

def handlePacketKeepAlive (env : Env) (c : ConnectionClient) (bb : ByteBuffer) :
    Checked (ByteBuffer × ConnectionClient) :=
  handleRead bb.readVarInt32 c fun keepAliveID bb => do
    return (bb, ← c.packet env 0x00 [.varInt32 keepAliveID])

def handlePacketRoomJoin (c : ConnectionClient) (bb : ByteBuffer) :
    Checked (ByteBuffer × ConnectionClient) :=
  handleRead bb.readVarUTF8String c fun channel bb =>
  handleRead bb.readVarInt32 c fun ret bb =>
    return (bb, if ret ≠ 0 then c.callback (.onJoinedChannel channel) else c)

def handlePacketChannelMsg (c : ConnectionClient) (bb : ByteBuffer) :
    Checked (ByteBuffer × ConnectionClient) :=
  handleRead bb.readVarInt32 c fun fromID bb =>
  handleRead bb.readVarUTF8String c fun channel bb =>
  handleRead bb.readVarUTF8String c fun msg bb =>
    return (bb, c.callback (.onMessageFromChannel channel fromID msg))

def handlePacketRoomLeft (c : ConnectionClient) (bb : ByteBuffer) :
    Checked (ByteBuffer × ConnectionClient) :=
  handleRead bb.readVarUTF8String c fun channel bb =>
  handleRead bb.readVarInt32 c fun ret bb =>
    let c := if ret ≠ 0 then c.callback (.onLeaveChannel channel) else c
    return (bb, { c with channel := [] })

/-- The handler of a packet type in a protocol state, where there is one. -/
def handlerOf (env : Env) (state packetType : UInt32) :
    Option (ConnectionClient → ByteBuffer → Checked (ByteBuffer × ConnectionClient)) :=
  if state = 1 then
    if packetType = 0x00 then some (handlePacketStatusRequest env)
    else none
  else if state = 2 then
    if packetType = 0x00 then some handlePacketLoginDisconnect
    else if packetType = 0x01 then some (handlePacketLoginEncryptionKeyRequest env)
    else if packetType = 0x02 then some (handlePacketLoginAllow env)
    else if packetType = 0x03 then some (handlePacketLoginSuccess env)
    else none
  else if state = 3 then
    if packetType = 0x00 then some (handlePacketKeepAlive env)
    else if packetType = 0x01 then some handlePacketRoomJoin
    else if packetType = 0x02 then some handlePacketChannelMsg
    else if packetType = 0x09 then some handlePacketRoomLeft
    else if packetType = 0x40 then some handlePacketErrorCode
    else none
  else none

def handlePacket (env : Env) (c : ConnectionClient) (bb : ByteBuffer) (packetType : UInt32) :
    Checked (Bool × ByteBuffer × ConnectionClient) := do
  match handlerOf env c.state packetType with
  | some handler => return (true, ← handler c bb)
  | none =>
      if c.state = 1 ∨ c.state = 2 ∨ c.state = 3 then
        return (false, bb, c.callback (.packetUnknown packetType))
      else
        return (false, bb, { c with state := 255 })

end ConnectionClient

/-- A `ConnectionClient` with its receive ring. -/
structure ClientLink where
  receivedData : ByteBuffer
  client : ConnectionClient

namespace ClientLink

def create (userName : AString) : ClientLink where
  receivedData := ByteBuffer.create (16 * 1024)
  client := ConnectionClient.create userName

def receiver (env : Env) : Receiver ClientLink where
  aesCryptEcb := env.aesCryptEcb
  receivedData l := l.receivedData
  setReceivedData ring l := { l with receivedData := ring }
  isEncrypted l := l.client.isEncrypted
  decryptor l := l.client.decryptor
  setDecryptor c l := { l with client := { l.client with decryptor := some c } }
  handlePacket l bb packetType := do
    let (handled, bb, c) ← l.client.handlePacket env bb packetType
    return (handled, bb, { l with client := c })
  packetBufferFull l := .ok { l with client := l.client.callback .packetBufferFull }
  packetError packetType l := .ok { l with client := l.client.callback (.packetError packetType) }
  receivedData_setReceivedData _ _ := rfl
  receivedData_setDecryptor _ _ := rfl
  decryptor_setReceivedData _ _ := rfl
  decryptor_setDecryptor _ _ := rfl

/-- `OnRead` with the bytes that `recv` has put into its buffer. -/
def onRead (env : Env) : ClientLink → List UInt8 → Checked (List ReceiveEvent × ClientLink) :=
  (receiver env).dataReceived

end ClientLink

end Licode.Client
