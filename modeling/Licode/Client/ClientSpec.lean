import Licode.Client.ConnectionClient
import Licode.Flow

/-!
# What the client's functions do to their state

The counterpart of the server's specification: what a packet that is sent changes, and what the
handlers do with a packet that has exactly the fields they read.
-/

namespace Licode.Client

open ByteBuffer ByteImage

namespace ConnectionClient

/-- No packet is being composed. -/
def Ready (c : ConnectionClient) : Prop := Holds c.outPacketBuffer (16 * 1024) [] []

/-- The coding of the next byte that is sent. -/
def coding (c : ConnectionClient) : Coding := if c.isEncrypted then c.encryptor else none

/-- The state after `SendData`. -/
def sentData (env : Env) (c : ConnectionClient) (data : List UInt8) : ConnectionClient :=
  { c with
    encryptor := if c.isEncrypted then (c.coding.encode env.aesCryptEcb data).2 else c.encryptor
    sock := c.sock ++ (c.coding.encode env.aesCryptEcb data).1
    encoded := c.encoded ++ c.coding.mode.tag data }

theorem coding_sentData (env : Env) (c : ConnectionClient) (data : List UInt8) :
    (c.sentData env data).coding = (c.coding.encode env.aesCryptEcb data).2 := by
  have hmode : (c.sentData env data).isEncrypted = c.isEncrypted := rfl
  rw [coding, hmode]
  cases hencrypted : c.isEncrypted with
  | false => simp [coding, hencrypted, Coding.encode]
  | true => simp [sentData, hencrypted]

theorem sentData_nil (env : Env) (c : ConnectionClient) : c.sentData env [] = c := by
  have hencryptor : (if c.isEncrypted then c.coding else c.encryptor) = c.encryptor := by
    unfold coding
    split <;> rfl
  simp only [sentData, Coding.encode_nil, Mode.tag, List.append_nil, hencryptor]

theorem sentData_sentData (env : Env) (c : ConnectionClient) (left right : List UInt8) :
    (c.sentData env left).sentData env right = c.sentData env (left ++ right) := by
  have hcoding := c.coding_sentData env left
  have hencode := c.coding.encode_append env.aesCryptEcb left right
  have hmode := c.coding.mode_encode env.aesCryptEcb left
  rw [sentData, hcoding]
  simp only [sentData, hencode, hmode, Mode.tag_append, List.append_assoc]
  split <;> rfl

theorem encryptChunk_eq (env : Env) {c : ConnectionClient} (hencrypted : c.isEncrypted = true)
    (hkeyed : c.encryptor ≠ none) (chunk : List UInt8) :
    c.encryptChunk env chunk = .ok (c.sentData env chunk) := by
  cases hencryptor : c.encryptor with
  | none => exact absurd hencryptor hkeyed
  | some e =>
      simp only [encryptChunk, hencryptor, sentData, coding, hencrypted, if_true, Coding.encode,
        Coding.mode]

theorem sendData_eq (env : Env) {c : ConnectionClient}
    (hkeyed : c.isEncrypted = true → c.encryptor ≠ none) (data : List UInt8) :
    c.sendData env data = .ok (c.sentData env data) := by
  cases hencrypted : c.isEncrypted with
  | false => simp [sendData, hencrypted, sentData, coding, Coding.encode, Coding.mode]
  | true =>
      rw [sendData, if_pos hencrypted]
      have hstep : ∀ c' chunk rest, chunk ≠ [] → chunk.length ≤ 8192 →
          (∃ done, data = done ++ (chunk ++ rest) ∧ c' = c.sentData env done) →
          ∃ c'', encryptChunk env c' chunk = .ok c''
            ∧ ∃ done, data = done ++ rest ∧ c'' = c.sentData env done := by
        rintro c' chunk rest - - ⟨done, hdata, rfl⟩
        have hkeyed' : (c.sentData env done).encryptor ≠ none := by
          obtain ⟨e, he⟩ := Option.ne_none_iff_exists'.mp (hkeyed hencrypted)
          simp [sentData, coding, hencrypted, he, Coding.encode]
        refine ⟨c.sentData env (done ++ chunk), ?_, done ++ chunk, ?_, rfl⟩
        · rw [encryptChunk_eq env (show (c.sentData env done).isEncrypted = true from hencrypted)
            hkeyed', sentData_sentData]
        · rw [hdata, List.append_assoc]
      obtain ⟨c', hrun, done, hdata, rfl⟩ := forChunks_induct (Nat.zero_lt_succ 8191)
        (fun c' rest => ∃ done, data = done ++ rest ∧ c' = c.sentData env done) hstep le_rfl
        ⟨[], rfl, (sentData_nil env c).symm⟩
      rw [List.append_nil] at hdata
      rw [hrun, hdata]

/-- The state after a packet: `bytes` are sent, and the out buffer is empty again. -/
def Sent (env : Env) (c : ConnectionClient) (bytes : List UInt8) (c' : ConnectionClient) : Prop :=
  Ready c' ∧ ∃ out, c' = { c.sentData env bytes with outPacketBuffer := out }

/-- A client with a cipher to encrypt with, if it has to. -/
structure CanSend (c : ConnectionClient) : Prop where
  ready : Ready c
  keyed : c.isEncrypted = true → c.encryptor ≠ none

theorem packet_of_fit (env : Env) {c : ConnectionClient} (h : CanSend c) {packetType : UInt32}
    {fields : List Field}
    (hfit : (packetBytes packetType (fieldsBytes fields)).length ≤ 16 * 1024) :
    ∃ c', c.packet env packetType fields = .ok c'
      ∧ Sent env c (frame (packetBytes packetType (fieldsBytes fields))) c' := by
  set body := packetBytes packetType (fieldsBytes fields) with hbody
  obtain ⟨out, hpacketize, hout⟩ := packetize_of_fit h.ready hfit
  obtain ⟨written, all, emptied, hwrite, hread, hcommit, -⟩ :=
    readAll_length_of_fit (holds_create 20 fun _ => 0) body
  set lenBytes := varInt32 (UInt32.ofNat body.length) with hlenBytes
  obtain ⟨out₁, hreadBody, hout₁⟩ := hout.readAll lenBytes
  obtain ⟨out₂, hdone, hout₂⟩ := hout₁.commitRead
  have hfirst := sendData_eq env (show ({ c with outPacketBuffer := out }.isEncrypted = true
    → { c with outPacketBuffer := out }.encryptor ≠ none) from h.keyed) lenBytes
  have hkeyed : ({ c with outPacketBuffer := out }.sentData env lenBytes).isEncrypted = true
      → ({ c with outPacketBuffer := out }.sentData env lenBytes).encryptor ≠ none := by
    intro hencrypted
    have hencrypted' : c.isEncrypted = true := hencrypted
    obtain ⟨e, he⟩ := Option.ne_none_iff_exists'.mp (h.keyed hencrypted')
    simp [sentData, coding, hencrypted', he, Coding.encode]
  have hsecond := sendData_eq env hkeyed body
  refine ⟨{ c.sentData env (frame body) with outPacketBuffer := out₂ }, ?_, hout₂, out₂, rfl⟩
  simp only [packet, hpacketize, Checked.ok_bind, hout.getUsedSpace, ← hbody, hwrite, hread, hfirst,
    hcommit, hreadBody, hsecond, hdone, Checked.pure_eq_ok, frame, sentData_sentData]
  rfl

/-! ### Packets with the fields that are read -/

section Handlers

variable {env : Env} {c : ConnectionClient} {n : Nat} {bb : ByteBuffer} {items rest : List UInt8}

theorem handlePacket_of_handler {packetType : UInt32}
    {handler : ConnectionClient → ByteBuffer → Checked (ByteBuffer × ConnectionClient)}
    {bb' : ByteBuffer} {c' : ConnectionClient}
    (htable : handlerOf env c.state packetType = some handler) (h : handler c bb = .ok (bb', c')) :
    c.handlePacket env bb packetType = .ok (true, bb', c') := by
  simp only [handlePacket, htable, h, Checked.ok_bind, Checked.pure_eq_ok]

theorem handlePacket_statusResponse (hsend : CanSend c) (hstate : c.state = 1) {ip : AString}
    (hip : ip.length < 2 ^ 32) {zip encrypt : Bool}
    (hbb : Holds bb n items
      (fieldsBytes [.beInt32 2, .bool zip, .bool encrypt, .string ip] ++ rest)) :
    ∃ bb' c', c.handlePacket env bb 0x00 = .ok (true, bb', c') ∧ Holds bb' n items rest
      ∧ Sent env { c with state := 2 } (frame (packetBytes 0x00 [])) c' := by
  simp only [fieldsBytes_cons, fieldsBytes_nil, List.append_nil, List.append_assoc,
    Field.bytes] at hbb
  obtain ⟨bb₁, hread₁, hbb₁⟩ := decodes_readBEInt32 2 hbb
  obtain ⟨bb₂, hread₂, hbb₂⟩ := decodes_readBool zip hbb₁
  obtain ⟨bb₃, hread₃, hbb₃⟩ := decodes_readBool encrypt hbb₂
  obtain ⟨bb₄, hread₄, hbb₄⟩ := decodes_readVarUTF8String hip hbb₃
  have hsend' : CanSend { c with state := 2 } := ⟨hsend.ready, hsend.keyed⟩
  obtain ⟨c', hpacket, hsent⟩ := packet_of_fit env hsend'
    (show (packetBytes 0x00 (fieldsBytes [])).length ≤ _ by decide)
  refine ⟨bb₄, c', handlePacket_of_handler (by rw [hstate]; rfl) ?_, hbb₄, hsent⟩
  rw [handlePacketStatusRequest, handleRead_some hread₁, handleRead_some hread₂,
    handleRead_some hread₃, handleRead_some hread₄, if_neg (by decide)]
  change (packet env { c with state := 2 } 0x00 [] >>= _) = _
  rw [hpacket]
  rfl

/-- The fields of the key packet, as the client writes them. -/
def keyResponseFields (encryptedSecret encryptedNonce : List UInt8) : List Field :=
  [.beUInt16 (UInt16.ofNat encryptedLength), .buf encryptedSecret,
    .beUInt16 (UInt16.ofNat encryptedLength), .buf encryptedNonce]

/-- The client with the ciphers of its secret. -/
def keyed (env : Env) (c : ConnectionClient) : ConnectionClient :=
  { c with
    encryptor := some (AesCfb128.init (toBlock (sharedSecret env)) (toBlock (sharedSecret env)))
    decryptor := some (AesCfb128.init (toBlock (sharedSecret env)) (toBlock (sharedSecret env))) }

/-- The client answers in the clear and then switches its cipher on. -/
theorem sendEncryptionKeyResponse_of_some (hready : Ready c) {publicKey : AString} {nonce : UInt32}
    {encryptedSecret encryptedNonce : List UInt8}
    (hsecret : env.encrypt publicKey (sharedSecret env) = some encryptedSecret)
    (hnonce : env.encrypt publicKey (littleEndian 4 nonce.toNat) = some encryptedNonce)
    (hsecretLength : encryptedSecret.length = encryptedLength)
    (hnonceLength : encryptedNonce.length = encryptedLength) :
    ∃ c₁, c.sendEncryptionKeyResponse env publicKey nonce = .ok { c₁ with isEncrypted := true }
      ∧ Sent env (c.keyed env) (frame (packetBytes 0x01
          (fieldsBytes (keyResponseFields encryptedSecret encryptedNonce)))) c₁ := by
  have hsend : CanSend (c.keyed env) := ⟨hready, fun _ => by simp [keyed]⟩
  have hfit : (packetBytes 0x01
      (fieldsBytes (keyResponseFields encryptedSecret encryptedNonce))).length ≤ 16 * 1024 := by
    have hle := varInt32_length_le 0x01
    simp only [packetBytes, keyResponseFields, fieldsBytes_cons, fieldsBytes_nil,
      List.length_append, Field.bytes, bigEndian_length, List.length_nil]
    rw [encryptedLength] at hsecretLength hnonceLength
    omega
  obtain ⟨c₁, hpacket, hsent⟩ := packet_of_fit env hsend hfit
  refine ⟨c₁, ?_, hsent⟩
  rw [sendEncryptionKeyResponse, hsecret]
  dsimp only
  rw [hnonce]
  change (packet env (c.keyed env) 0x01
    (keyResponseFields encryptedSecret encryptedNonce) >>= _) = _
  rw [hpacket]
  rfl

/-- Where a library call fails the client stays silent. -/
theorem sendEncryptionKeyResponse_cases (hready : Ready c)
    {publicKey : AString}
    (hlength : ∀ data out, env.encrypt publicKey data = some out → out.length = encryptedLength)
    (nonce : UInt32) :
    ∃ c', c.sendEncryptionKeyResponse env publicKey nonce = .ok c'
      ∧ (env.encrypt publicKey (sharedSecret env) = none ∧ c' = c
        ∨ env.encrypt publicKey (littleEndian 4 nonce.toNat) = none ∧ c' = c.keyed env
        ∨ ∃ encryptedSecret encryptedNonce c₁,
            env.encrypt publicKey (sharedSecret env) = some encryptedSecret
            ∧ env.encrypt publicKey (littleEndian 4 nonce.toNat) = some encryptedNonce
            ∧ Sent env (c.keyed env) (frame (packetBytes 0x01
                (fieldsBytes (keyResponseFields encryptedSecret encryptedNonce)))) c₁
            ∧ c' = { c₁ with isEncrypted := true }) := by
  cases hsecret : env.encrypt publicKey (sharedSecret env) with
  | none => exact ⟨c, by rw [sendEncryptionKeyResponse, hsecret], .inl ⟨rfl, rfl⟩⟩
  | some encryptedSecret =>
      cases hnonce : env.encrypt publicKey (littleEndian 4 nonce.toNat) with
      | none =>
          refine ⟨c.keyed env, ?_, .inr (.inl ⟨rfl, rfl⟩)⟩
          rw [sendEncryptionKeyResponse, hsecret]
          dsimp only
          rw [hnonce]
          rfl
      | some encryptedNonce =>
          obtain ⟨c₁, hrun, hsent⟩ := sendEncryptionKeyResponse_of_some hready hsecret hnonce
            (hlength _ _ hsecret) (hlength _ _ hnonce)
          exact ⟨_, hrun, .inr (.inr ⟨encryptedSecret, encryptedNonce, c₁, rfl, rfl, hsent, rfl⟩)⟩

theorem handlePacket_keyRequest (hstate : c.state = 2) {serverID publicKey : AString}
    (hserverID : serverID.length < 2 ^ 32) (hkey : publicKey.length < 2 ^ 15) {nonce : UInt32}
    (hbb : Holds bb n items (fieldsBytes
      [.string serverID, .beInt16 (UInt16.ofNat publicKey.length).toInt16, .buf publicKey,
        .beInt16 4, .beInt32 nonce.toInt32] ++ rest))
    {c' : ConnectionClient} (hsend : c.sendEncryptionKeyResponse env publicKey nonce = .ok c') :
    ∃ bb', c.handlePacket env bb 0x01 = .ok (true, bb', c') ∧ Holds bb' n items rest := by
  simp only [fieldsBytes_cons, fieldsBytes_nil, List.append_nil, List.append_assoc,
    Field.bytes] at hbb
  obtain ⟨bb₁, hread₁, hbb₁⟩ := decodes_readVarUTF8String hserverID hbb
  obtain ⟨bb₂, hread₂, hbb₂⟩ := decodes_readBEInt16 _ hbb₁
  obtain ⟨bb₃, hread₃, hbb₃⟩ := hbb₂.readBuf (show publicKey.length ≤ _ by simp)
  rw [List.take_left] at hread₃
  rw [List.drop_left] at hbb₃
  obtain ⟨bb₄, hread₄, hbb₄⟩ := decodes_readBEInt16 4 hbb₃
  obtain ⟨bb₅, hread₅, hbb₅⟩ := decodes_readBEInt32 nonce.toInt32 hbb₄
  have hint : (UInt16.ofNat publicKey.length).toInt16.toInt = publicKey.length := by
    have hlt : (UInt16.ofNat publicKey.length).toNat = publicKey.length := by
      rw [UInt16.toNat_ofNat', Nat.mod_eq_of_lt (by omega)]
    change (UInt16.ofNat publicKey.length).toBitVec.toInt = _
    rw [BitVec.toInt_eq_toNat_of_lt (by rw [UInt16.toNat_toBitVec, hlt]; omega),
      UInt16.toNat_toBitVec, hlt]
  have hnat : (UInt16.ofNat publicKey.length).toInt16.toInt.toNat = publicKey.length := by
    rw [hint, Int.toNat_natCast]
  have hsign : ¬ (UInt16.ofNat publicKey.length).toInt16 < 0 := by
    rw [Int16.not_lt, Int16.le_iff_toInt_le, hint]
    exact Int.natCast_nonneg _
  refine ⟨bb₅, handlePacket_of_handler (by rw [hstate]; rfl) ?_, hbb₅⟩
  rw [handlePacketLoginEncryptionKeyRequest, handleRead_some hread₁, handleRead_some hread₂,
    if_neg hsign, hnat, hread₃]
  simp only [Checked.ok_bind, handleRead_some hread₄, handleRead_some hread₅, Option.getD_some]
  rw [if_neg (by decide)]
  change (c.sendEncryptionKeyResponse env publicKey nonce >>= _) = _
  rw [hsend]
  rfl

theorem handlePacket_loginAllow (hsend : CanSend c) (hstate : c.state = 2)
    (hfit : (packetBytes 0x02 (fieldsBytes [.string c.userName])).length ≤ 16 * 1024) :
    ∃ c', c.handlePacket env bb 0x02 = .ok (true, bb, c')
      ∧ Sent env c (frame (packetBytes 0x02 (fieldsBytes [.string c.userName]))) c' := by
  obtain ⟨c', hpacket, hsent⟩ := packet_of_fit env hsend hfit
  refine ⟨c', handlePacket_of_handler (by rw [hstate]; rfl) ?_, hsent⟩
  rw [handlePacketLoginAllow, hpacket]
  rfl

/-- The client that has been let in under `id`. -/
def signedIn (c : ConnectionClient) (id : UInt32) : ConnectionClient :=
  { c with clientID := id, state := 3 }.callback .onSignedIn

theorem handlePacket_loginSuccess (hsend : CanSend c) (hstate : c.state = 2) (id : UInt32)
    (hfit : (packetBytes 0x01 (fieldsBytes [.string c.channel])).length ≤ 16 * 1024)
    (hbb : Holds bb n items (fieldsBytes [.varInt32 id] ++ rest)) :
    ∃ bb' c', c.handlePacket env bb 0x03 = .ok (true, bb', c') ∧ Holds bb' n items rest
      ∧ Sent env (c.signedIn id)
          (frame (packetBytes 0x01 (fieldsBytes [.string c.channel]))) c' := by
  simp only [fieldsBytes_cons, fieldsBytes_nil, List.append_nil, Field.bytes] at hbb
  obtain ⟨bb', hread, hbb'⟩ := decodes_readVarInt32 id hbb
  have hsend' : CanSend (c.signedIn id) := ⟨hsend.ready, hsend.keyed⟩
  obtain ⟨c', hpacket, hsent⟩ := packet_of_fit env hsend' hfit
  refine ⟨bb', c', handlePacket_of_handler (by rw [hstate]; rfl) ?_, hbb', hsent⟩
  rw [handlePacketLoginSuccess, handleRead_some hread]
  change (packet env (c.signedIn id) 0x01 [.string c.channel] >>= _) = _
  rw [hpacket]
  rfl

theorem handlePacket_keepAlive (hsend : CanSend c) (hstate : c.state = 3) (id : UInt32)
    (hbb : Holds bb n items (fieldsBytes [.varInt32 id] ++ rest)) :
    ∃ bb' c', c.handlePacket env bb 0x00 = .ok (true, bb', c') ∧ Holds bb' n items rest
      ∧ Sent env c (frame (packetBytes 0x00 (fieldsBytes [.varInt32 id]))) c' := by
  have hfit : (packetBytes 0x00 (fieldsBytes [.varInt32 id])).length ≤ 16 * 1024 := by
    have hle := varInt32_length_le 0x00
    have hid := varInt32_length_le id
    simp only [packetBytes, fieldsBytes_cons, fieldsBytes_nil, List.length_append, Field.bytes,
      List.length_nil]
    omega
  simp only [fieldsBytes_cons, fieldsBytes_nil, List.append_nil, Field.bytes] at hbb
  obtain ⟨bb', hread, hbb'⟩ := decodes_readVarInt32 id hbb
  obtain ⟨c', hpacket, hsent⟩ := packet_of_fit env hsend hfit
  refine ⟨bb', c', handlePacket_of_handler (by rw [hstate]; rfl) ?_, hbb', hsent⟩
  rw [handlePacketKeepAlive, handleRead_some hread, hpacket]
  rfl

theorem handlePacket_roomJoin (hstate : c.state = 3) {channel : AString}
    (hchannel : channel.length < 2 ^ 32) (ret : UInt32)
    (hbb : Holds bb n items (fieldsBytes [.string channel, .varInt32 ret] ++ rest)) :
    ∃ bb', c.handlePacket env bb 0x01
        = .ok (true, bb', if ret ≠ 0 then c.callback (.onJoinedChannel channel) else c)
      ∧ Holds bb' n items rest := by
  simp only [fieldsBytes_cons, fieldsBytes_nil, List.append_nil, List.append_assoc,
    Field.bytes] at hbb
  obtain ⟨bb₁, hread₁, hbb₁⟩ := decodes_readVarUTF8String hchannel hbb
  obtain ⟨bb₂, hread₂, hbb₂⟩ := decodes_readVarInt32 ret hbb₁
  refine ⟨bb₂, handlePacket_of_handler (by rw [hstate]; rfl) ?_, hbb₂⟩
  rw [handlePacketRoomJoin, handleRead_some hread₁, handleRead_some hread₂]
  rfl

theorem handlePacket_channelMsg (hstate : c.state = 3) (fromID : UInt32) {channel msg : AString}
    (hchannel : channel.length < 2 ^ 32) (hmsg : msg.length < 2 ^ 32)
    (hbb : Holds bb n items
      (fieldsBytes [.varInt32 fromID, .string channel, .string msg] ++ rest)) :
    ∃ bb', c.handlePacket env bb 0x02
        = .ok (true, bb', c.callback (.onMessageFromChannel channel fromID msg))
      ∧ Holds bb' n items rest := by
  simp only [fieldsBytes_cons, fieldsBytes_nil, List.append_nil, List.append_assoc,
    Field.bytes] at hbb
  obtain ⟨bb₁, hread₁, hbb₁⟩ := decodes_readVarInt32 fromID hbb
  obtain ⟨bb₂, hread₂, hbb₂⟩ := decodes_readVarUTF8String hchannel hbb₁
  obtain ⟨bb₃, hread₃, hbb₃⟩ := decodes_readVarUTF8String hmsg hbb₂
  refine ⟨bb₃, handlePacket_of_handler (by rw [hstate]; rfl) ?_, hbb₃⟩
  rw [handlePacketChannelMsg, handleRead_some hread₁, handleRead_some hread₂,
    handleRead_some hread₃]
  rfl

end Handlers

end ConnectionClient

end Licode.Client
