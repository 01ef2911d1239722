import Licode.Server.ProtocolSpec

/-!
# The login packets on the server

What the handlers do with a packet that has exactly the fields they read: the packet is consumed to
its last byte, and the state changes as the handshake wants it.
-/

namespace Licode.Server

open ByteBuffer ByteImage

namespace ProtocolImpl

variable {env : Env} {p : ProtocolImpl} {n : Nat} {bb : ByteBuffer} {items rest : List UInt8}

theorem handlePacket_of_handler {packetType : UInt32}
    {handler : ProtocolImpl → ByteBuffer → Checked (ByteBuffer × ProtocolImpl)} {bb' : ByteBuffer}
    {p' : ProtocolImpl} (htable : handlerOf env p.state packetType = some handler)
    (h : handler p bb = .ok (bb', p')) :
    p.handlePacket env bb packetType = .ok (true, bb', p') := by
  simp only [handlePacket, htable, h, Checked.ok_bind, Checked.pure_eq_ok]

/-- The fields of the first packet of a client. -/
def statusRequestFields (server : AString) (port next : Int32) : List Field :=
  [.string (ascii "mcu"), .string server, .beInt32 port, .beInt32 next]

/-- The fields of the answer. -/
def statusResponseFields (p : ProtocolImpl) (next : Int32) : List Field :=
  [.beInt32 next, .bool true, .bool true, .string p.client.ipString]

theorem handlePacket_statusRequest (env : Env) (hready : Ready p) (hstate : p.state = 1) {server : AString}
    (hserver : server.length < 2 ^ 32) {port next : Int32} (hnext : ¬ (next < 1 ∨ next > 2))
    (hip : p.client.ipString.length ≤ 60000)
    (hbb : Holds bb n items (fieldsBytes (statusRequestFields server port next) ++ rest)) :
    ∃ bb' p', p.handlePacket env bb 0x00 = .ok (true, bb', p') ∧ Holds bb' n items rest
      ∧ Sent env { p with state := next.toUInt32 }
          (frame (packetBytes 0x00 (fieldsBytes (p.statusResponseFields next)))) p' := by
  simp only [statusRequestFields, fieldsBytes_cons, fieldsBytes_nil, List.append_nil,
    List.append_assoc, Field.bytes] at hbb
  obtain ⟨bb₁, hname, hbb₁⟩ := decodes_readVarUTF8String (by decide) hbb
  obtain ⟨bb₂, hserver, hbb₂⟩ := decodes_readVarUTF8String hserver hbb₁
  obtain ⟨bb₃, hport, hbb₃⟩ := decodes_readBEInt32 port hbb₂
  obtain ⟨bb₄, hread, hbb₄⟩ := decodes_readBEInt32 next hbb₃
  have hfit : (packetBytes 0x00 (fieldsBytes (p.statusResponseFields next))).length
      ≤ 64 * 1024 := by
    have hle := varInt32_length_le 0x00
    have hstring := stringBytes_length_le p.client.ipString
    simp only [packetBytes, statusResponseFields, fieldsBytes_cons, fieldsBytes_nil,
      List.length_append, Field.bytes, bigEndian_length, List.length_singleton, List.length_nil]
    omega
  have hready' : Ready { p with state := next.toUInt32 } := ⟨hready.out, hready.len⟩
  obtain ⟨p', hpacket, hsent⟩ := packet_of_fit env hready' hfit
  refine ⟨bb₄, p', handlePacket_of_handler (by rw [hstate]; rfl) ?_, hbb₄, hsent⟩
  rw [handlePacketStatusRequest, handleRead_some hname, handleRead_some hserver,
    handleRead_some hport, handleRead_some hread, if_neg (by simpa using hnext)]
  simp only [Int32.toInt32_toUInt32]
  change ((packet env _ _ (p.statusResponseFields next)) >>= _) = _
  rw [hpacket]
  rfl

/-- The fields of the request for the client's key. -/
def loginStartFields (env : Env) (p : ProtocolImpl) : List Field :=
  [.string env.serverID, .beInt16 (UInt16.ofNat env.publicKeyDER.length).toInt16,
    .buf env.publicKeyDER, .beInt16 4, .beInt32 p.nonce.toInt32]

theorem handlePacket_loginStart (hready : Ready p) (hstate : p.state = 2)
    (hkey : env.serverID.length + env.publicKeyDER.length ≤ 60000) :
    ∃ p', p.handlePacket env bb 0x00 = .ok (true, bb, p')
      ∧ Sent env p (frame (packetBytes 0x01 (fieldsBytes (p.loginStartFields env)))) p' := by
  have hfit : (packetBytes 0x01 (fieldsBytes (p.loginStartFields env))).length ≤ 64 * 1024 := by
    have hle := varInt32_length_le 0x01
    have hstring := stringBytes_length_le env.serverID
    simp only [packetBytes, loginStartFields, fieldsBytes_cons, fieldsBytes_nil,
      List.length_append, Field.bytes, bigEndian_length, List.length_nil]
    omega
  obtain ⟨p', hpacket, hsent⟩ := packet_of_fit env hready hfit
  refine ⟨p', handlePacket_of_handler (by rw [hstate]; rfl) ?_, hsent⟩
  change (packet env p 0x01 (p.loginStartFields env) >>= _) = _
  rw [hpacket]
  rfl

/-- The fields of the client's key under the server's public key. -/
def encryptionResponseFields (encKey encNonce : AString) : List Field :=
  [.beUInt16 (UInt16.ofNat encKey.length), .buf encKey, .beUInt16 (UInt16.ofNat encNonce.length),
    .buf encNonce]

/-- A length of at most 512 bytes survives the signed field it is read from. -/
theorem readBEInt16_length {count : Nat} (hcount : count ≤ 512)
    (hbb : Holds bb n items (bigEndian 2 (UInt16.ofNat count).toNat ++ rest)) :
    ∃ v bb', bb.readBEInt16 = .ok (some v, bb') ∧ Holds bb' n items rest
      ∧ ¬ v > 512 ∧ sizeOfInt16 v = count := by
  have hv : (UInt16.ofNat count).toInt16.toUInt16 = UInt16.ofNat count := rfl
  rw [← hv] at hbb
  obtain ⟨bb', hread, hbb'⟩ := decodes_readBEInt16 (UInt16.ofNat count).toInt16 hbb
  have hbounds : ∀ i : Fin 513, ¬ (UInt16.ofNat i.val).toInt16 > 512
      ∧ sizeOfInt16 (UInt16.ofNat i.val).toInt16 = i.val := by
    decide +kernel
  exact ⟨_, bb', hread, hbb', hbounds ⟨count, by omega⟩⟩

theorem handlePacket_loginEncryptionResponse (hready : Ready p) (hstate : p.state = 2)
    {encKey encNonce key : AString} (hkeyLength : encKey.length ≤ 512)
    (hnonceLength : encNonce.length ≤ 512)
    (hnonce : env.decrypt encNonce maxEncLen = some (littleEndian 4 p.nonce.toNat))
    (hkey : env.decrypt encKey maxEncLen = some key) (hlength : key.length = 16)
    (hbb : Holds bb n items (fieldsBytes (encryptionResponseFields encKey encNonce) ++ rest)) :
    ∃ bb' p', p.handlePacket env bb 0x01 = .ok (true, bb', p') ∧ Holds bb' n items rest
      ∧ Sent env (p.startEncryption (toBlock key)) (frame (packetBytes 0x02 [])) p' := by
  simp only [encryptionResponseFields, fieldsBytes_cons, fieldsBytes_nil, List.append_nil,
    List.append_assoc, Field.bytes] at hbb
  obtain ⟨v₁, bb₁, hread₁, hbb₁, hle₁, hsize₁⟩ := readBEInt16_length hkeyLength hbb
  obtain ⟨bb₂, hread₂, hbb₂⟩ := hbb₁.readBuf (show encKey.length ≤ _ by simp)
  rw [List.take_left] at hread₂
  rw [List.drop_left] at hbb₂
  obtain ⟨v₃, bb₃, hread₃, hbb₃, hle₃, hsize₃⟩ := readBEInt16_length hnonceLength hbb₂
  obtain ⟨bb₄, hread₄, hbb₄⟩ := hbb₃.readBuf (show encNonce.length ≤ _ by simp)
  rw [List.take_left] at hread₄
  rw [List.drop_left] at hbb₄
  have hready' : Ready (p.startEncryption (toBlock key)) := ⟨hready.out, hready.len⟩
  obtain ⟨p', hpacket, hsent⟩ :=
    packet_of_fit env hready' (show (packetBytes 0x02 (fieldsBytes [])).length ≤ _ by decide)
  have hvalue : UInt32.ofNat (value (littleEndian 4 p.nonce.toNat)) = p.nonce := by
    rw [value_littleEndian p.nonce.toNat_lt, UInt32.ofNat_toNat]
  have hcheck : p.checkEncryptionResponse env encKey encNonce = .ok p' := by
    simp only [checkEncryptionResponse, hnonce, littleEndian_length, ne_eq, not_true_eq_false,
      if_false, hvalue, hkey, hlength]
    exact hpacket
  refine ⟨bb₄, p', handlePacket_of_handler (by rw [hstate]; rfl) ?_, hbb₄, hsent⟩
  rw [handlePacketLoginEncryptionResponse, handleRead_some hread₁, if_neg hle₁, hsize₁,
    readString_eq_readBuf, handleRead_some hread₂, handleRead_some hread₃, if_neg hle₃, hsize₃,
    readString_eq_readBuf, handleRead_some hread₄, hcheck]
  rfl

theorem handlePacket_loginInfo (env : Env) (hstate : p.state = 2) {username : AString}
    (hlength : username.length < 2 ^ 32)
    (hbb : Holds bb n items (fieldsBytes [.string username] ++ rest)) :
    ∃ bb', p.handlePacket env bb 0x02 = .ok (true, bb', p.handleLogin username username)
      ∧ Holds bb' n items rest := by
  simp only [fieldsBytes_cons, fieldsBytes_nil, List.append_nil, Field.bytes] at hbb
  obtain ⟨bb', hread, hbb'⟩ := decodes_readVarUTF8String hlength hbb
  refine ⟨bb', handlePacket_of_handler (by rw [hstate]; rfl) ?_, hbb'⟩
  rw [handlePacketLoginInfo, handleRead_some hread]
  rfl

theorem handlePacket_keepAlive (env : Env) (hstate : p.state = 3) (id : UInt32)
    (hbb : Holds bb n items (fieldsBytes [.varInt32 id] ++ rest)) :
    ∃ bb', p.handlePacket env bb 0x00 = .ok (true, bb', p) ∧ Holds bb' n items rest := by
  simp only [fieldsBytes_cons, fieldsBytes_nil, List.append_nil, Field.bytes] at hbb
  obtain ⟨bb', hread, hbb'⟩ := decodes_readVarInt32 id hbb
  refine ⟨bb', handlePacket_of_handler (by rw [hstate]; rfl) ?_, hbb'⟩
  rw [handlePacketKeepAlive, handleRead_some hread]
  rfl

theorem handlePacket_joinRoom (env : Env) (hstate : p.state = 3) {channel : AString}
    (hlength : channel.length < 2 ^ 32)
    (hbb : Holds bb n items (fieldsBytes [.string channel] ++ rest)) :
    ∃ bb', p.handlePacket env bb 0x01
        = .ok (true, bb', p.request (.doUserJoinChannel p.client.uniqueID channel))
      ∧ Holds bb' n items rest := by
  simp only [fieldsBytes_cons, fieldsBytes_nil, List.append_nil, Field.bytes] at hbb
  obtain ⟨bb', hread, hbb'⟩ := decodes_readVarUTF8String hlength hbb
  refine ⟨bb', handlePacket_of_handler (by rw [hstate]; rfl) ?_, hbb'⟩
  rw [handlePacketJoinRoom, handleRead_some hread]
  rfl

/-- The state in which `Authenticate` sends its packet. -/
def authenticating (p : ProtocolImpl) (name password : AString) : ProtocolImpl :=
  { p with client := { p.client with
      username := name
      uuid := if p.client.uuid.isEmpty then password else p.client.uuid } }

theorem authenticate_of_authenticating (env : Env) (hready : Ready p)
    (hstate : p.client.state = .csAuthenticating) (name password : AString) :
    ∃ p₁, p.authenticate env name password
        = .ok { p₁ with state := 3, client := { p₁.client with state := .csAuthenticated } }
      ∧ Sent env (p.authenticating name password)
          (frame (packetBytes 0x03 (fieldsBytes [.varInt32 p.client.uniqueID.toUInt32]))) p₁ := by
  have hfit : (packetBytes 0x03 (fieldsBytes [.varInt32 p.client.uniqueID.toUInt32])).length
      ≤ 64 * 1024 := by
    have hle := varInt32_length_le 0x03
    have hid := varInt32_length_le p.client.uniqueID.toUInt32
    simp only [packetBytes, fieldsBytes_cons, fieldsBytes_nil, List.length_append, Field.bytes,
      List.length_nil]
    omega
  have hready' : Ready (p.authenticating name password) := ⟨hready.out, hready.len⟩
  obtain ⟨p₁, hpacket, hsent⟩ := packet_of_fit env hready' hfit
  have hlogin : (p.authenticating name password).sendLoginSuccess env
      = .ok { p₁ with state := 3 } := by
    rw [sendLoginSuccess]
    change (packet env (p.authenticating name password) 0x03
      [.varInt32 p.client.uniqueID.toUInt32] >>= _) = _
    rw [hpacket]
    rfl
  refine ⟨p₁, ?_, hsent⟩
  rw [authenticate, if_neg (not_not.mpr hstate)]
  change ((p.authenticating name password).sendLoginSuccess env >>= _) = _
  rw [hlogin]
  rfl

end ProtocolImpl

end Licode.Server
