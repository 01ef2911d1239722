import Licode.Server.ProtocolImpl

/-!
# What the server's functions do to their state

Everything a handler does to the link goes through one packet at a time, so `Sent` says what a
packet changes (the out buffers are empty again, the bytes are queued in the mode of the moment) and
all other fields are seen to stay. `Handler` collects what every packet handler keeps, whatever the
packet holds; it is proved once for each of the nine and then for `handlePacket`.
-/

namespace Licode.Server

open ByteBuffer

namespace ProtocolImpl

/-- No packet is being composed. -/
structure Ready (p : ProtocolImpl) : Prop where
  out : Holds p.outPacketBuffer (64 * 1024) [] []
  len : Holds p.outPacketLenBuffer 20 [] []

theorem ready_create (client : ClientHandle) (address : UInt64) :
    Ready (ProtocolImpl.create client address) :=
  ⟨holds_create _ _, holds_create _ _⟩

/-- The mode of the next byte. -/
def mode (p : ProtocolImpl) : Mode :=
  if p.isEncrypted then .encrypted p.encryptor.processed else .plain

/-- The bytes on the link for some data, and the encryptor behind them. -/
def wire (env : Env) (p : ProtocolImpl) (data : List UInt8) : List UInt8 × AesCfb128 :=
  if p.isEncrypted then AesCfb128.encryptData env.aesCryptEcb p.encryptor data
  else (data, p.encryptor)

/-- The state after `SendData`. -/
def sentData (env : Env) (p : ProtocolImpl) (data : List UInt8) : ProtocolImpl :=
  { p with
    encryptor := (p.wire env data).2
    encoded := p.encoded ++ p.mode.tag data
    client := { p.client with
      outgoingData :=
        if p.client.hasSentDC then p.client.outgoingData
        else p.client.outgoingData ++ (p.wire env data).1 } }

theorem encryptChunk_eq (env : Env) {p : ProtocolImpl} (hencrypted : p.isEncrypted = true)
    (chunk : List UInt8) : p.encryptChunk env chunk = .ok (p.sentData env chunk) := by
  simp only [encryptChunk, clientSendData, sentData, wire, mode, hencrypted, if_true]
  split <;> rfl

theorem sentData_nil (env : Env) (p : ProtocolImpl) : p.sentData env [] = p := by
  have hwire : p.wire env [] = ([], p.encryptor) := by
    unfold wire
    split <;> rfl
  simp only [sentData, hwire, Mode.tag, List.append_nil, ite_self]

theorem sentData_sentData (env : Env) {p : ProtocolImpl} (hencrypted : p.isEncrypted = true)
    (left right : List UInt8) :
    (p.sentData env left).sentData env right = p.sentData env (left ++ right) := by
  simp only [sentData, wire, mode, hencrypted, if_true, AesCfb128.encryptData_append,
    AesCfb128.encryptData_processed, Mode.tag_append, Mode.after, List.append_assoc]
  split
  · rfl
  · rw [List.append_assoc]

/-- The pieces of 8192 bytes make one keystream. -/
theorem sendData_eq (env : Env) (p : ProtocolImpl) (data : List UInt8) :
    p.sendData env data = .ok (p.sentData env data) := by
  cases hencrypted : p.isEncrypted with
  | false =>
      simp only [sendData, hencrypted, Bool.false_eq_true, if_false, clientSendData, sentData, wire,
        mode]
      split <;> rfl
  | true =>
      rw [sendData, if_pos hencrypted]
      have hstep : ∀ p' chunk rest, chunk ≠ [] → chunk.length ≤ 8192 →
          (∃ done, data = done ++ (chunk ++ rest) ∧ p' = p.sentData env done) →
          ∃ p'', encryptChunk env p' chunk = .ok p''
            ∧ ∃ done, data = done ++ rest ∧ p'' = p.sentData env done := by
        rintro p' chunk rest - - ⟨done, hdata, rfl⟩
        refine ⟨p.sentData env (done ++ chunk), ?_, done ++ chunk, ?_, rfl⟩
        · rw [encryptChunk_eq env (show (p.sentData env done).isEncrypted = true from hencrypted),
            sentData_sentData env hencrypted]
        · rw [hdata, List.append_assoc]
      obtain ⟨p', hrun, done, hdata, rfl⟩ := forChunks_induct (Nat.zero_lt_succ 8191)
        (fun p' rest => ∃ done, data = done ++ rest ∧ p' = p.sentData env done) hstep le_rfl
        ⟨[], rfl, (sentData_nil env p).symm⟩
      rw [List.append_nil] at hdata
      rw [hrun, hdata]

/-- The state after a packet: `bytes` are queued, and the out buffers are empty again. -/
def Sent (env : Env) (p : ProtocolImpl) (bytes : List UInt8) (p' : ProtocolImpl) : Prop :=
  Ready p' ∧ ∃ out len,
    p' = { p.sentData env bytes with outPacketBuffer := out, outPacketLenBuffer := len }

theorem sendPacket_of_holds (env : Env) (p : ProtocolImpl) {body : List UInt8}
    (hout : Holds p.outPacketBuffer (64 * 1024) body body)
    (hlen : Holds p.outPacketLenBuffer 20 [] []) :
    ∃ p', p.sendPacket env = .ok p' ∧ Sent env p (frame body) p' := by
  obtain ⟨written, all, emptied, hwrite, hread, hcommit, hlen'⟩ := readAll_length_of_fit hlen body
  obtain ⟨out₁, hbody, hout₁⟩ := hout.readAll []
  obtain ⟨out₂, hdone, hout₂⟩ := hout₁.commitRead
  refine ⟨{ p.sentData env (frame body) with
    outPacketBuffer := out₂, outPacketLenBuffer := emptied }, ?_, ⟨hout₂, hlen'⟩, out₂, emptied, rfl⟩
  simp only [sendPacket, hout.getUsedSpace, Checked.ok_bind, hwrite, hread, hcommit, hbody,
    sendData_eq]
  change (out₁.commitRead >>= _) = _
  rw [hdone]
  rfl

section Packet

variable {env : Env} {p p' : ProtocolImpl} {packetType : UInt32} {fields : List Field}

theorem packet_of_fit (env : Env) (hready : Ready p)
    (hfit : (packetBytes packetType (fieldsBytes fields)).length ≤ 64 * 1024) :
    ∃ p', p.packet env packetType fields = .ok p'
      ∧ Sent env p (frame (packetBytes packetType (fieldsBytes fields))) p' := by
  obtain ⟨out, hpacketize, hout⟩ := packetize_of_fit hready.out hfit
  obtain ⟨p', hsend, hready', out', len', rfl⟩ :=
    sendPacket_of_holds env { p with outPacketBuffer := out } hout hready.len
  exact ⟨_, by rw [packet, hpacketize]; exact hsend, hready', out', len', rfl⟩

/-- A packet that got through the `VERIFY`s is on its way. -/
theorem sent_of_packet (hready : Ready p) (h : p.packet env packetType fields = .ok p') :
    Sent env p (frame (packetBytes packetType (fieldsBytes fields))) p' := by
  have hfit : (packetBytes packetType (fieldsBytes fields)).length ≤ 64 * 1024 := by
    obtain ⟨out, hpacketize, -⟩ := exists_of_bind_ok h
    exact fit_of_packetize hready.out (by decide) hpacketize
  obtain ⟨p₁, hp₁, hsent⟩ := packet_of_fit env hready hfit
  rw [h, Except.ok.injEq] at hp₁
  exact hp₁ ▸ hsent

end Packet

/-- What every packet that is sent leaves alone. -/
structure Kept (p p' : ProtocolImpl) : Prop where
  ready : Ready p'
  state : p'.state = p.state
  isEncrypted : p'.isEncrypted = p.isEncrypted
  decryptor : p'.decryptor = p.decryptor
  address : p'.address = p.address
  requests : p'.requests = p.requests
  clientState : p'.client.state = p.client.state
  uniqueID : p'.client.uniqueID = p.client.uniqueID

section Kept

variable {env : Env} {p p' p'' : ProtocolImpl}

theorem Kept.refl (hready : Ready p) : Kept p p := ⟨hready, rfl, rfl, rfl, rfl, rfl, rfl, rfl⟩

theorem Kept.trans (h : Kept p p') (h' : Kept p' p'') : Kept p p'' :=
  ⟨h'.ready, h'.state.trans h.state, h'.isEncrypted.trans h.isEncrypted,
    h'.decryptor.trans h.decryptor, h'.address.trans h.address, h'.requests.trans h.requests,
    h'.clientState.trans h.clientState, h'.uniqueID.trans h.uniqueID⟩

theorem Sent.kept {bytes : List UInt8} (h : Sent env p bytes p') : Kept p p' := by
  obtain ⟨hready, out, len, rfl⟩ := h
  exact ⟨hready, rfl, rfl, rfl, rfl, rfl, rfl, rfl⟩

theorem kept_of_packet {packetType : UInt32} {fields : List Field} (hready : Ready p)
    (h : p.packet env packetType fields = .ok p') : Kept p p' :=
  (sent_of_packet hready h).kept

theorem kept_report (hready : Ready p) (r : Report) : Kept p (p.report r) :=
  ⟨⟨hready.out, hready.len⟩, rfl, rfl, rfl, rfl, rfl, rfl, rfl⟩

theorem kept_of_sendDisconnect {reason : Int32} (hready : Ready p)
    (h : p.sendDisconnect env reason = .ok p') : Kept p p' := by
  unfold sendDisconnect at h
  split_ifs at h with hlogin hwork
  · exact kept_of_packet hready h
  · exact kept_of_packet hready h
  · rw [Except.ok.injEq] at h
    exact h ▸ Kept.refl hready

theorem kept_of_clientSendDisconnect {reason : Int32} (hready : Ready p)
    (h : p.clientSendDisconnect env reason = .ok p') : Kept p p' := by
  unfold clientSendDisconnect at h
  split_ifs at h with hsent
  · rw [Checked.pure_eq_ok, Except.ok.injEq] at h
    exact h ▸ Kept.refl hready
  · obtain ⟨p₁, hdisconnect, h⟩ := exists_of_bind_ok h
    have hkept := kept_of_sendDisconnect hready hdisconnect
    rw [Checked.pure_eq_ok, Except.ok.injEq] at h
    subst h
    exact hkept.trans ⟨⟨hkept.ready.out, hkept.ready.len⟩, rfl, rfl, rfl, rfl, rfl, rfl, rfl⟩

/-- The four calls that report a bad peer and say goodbye to it. -/
theorem kept_of_report_disconnect {r : Report} {reason : Int32} (hready : Ready p)
    (h : (p.report r).clientSendDisconnect env reason = .ok p') : Kept p p' :=
  (kept_report hready r).trans (kept_of_clientSendDisconnect (kept_report hready r).ready h)

theorem kept_of_kick {reason : Int32} (hready : Ready p) (h : p.kick env reason = .ok p') :
    Kept p p' :=
  kept_of_report_disconnect hready h

end Kept

/-! ### What a packet can do -/

/-- The next state of a packet handler, by what the handler achieved. -/
inductive Effect (p : ProtocolImpl) (bb : ByteBuffer) (packetType : UInt32) : ProtocolImpl → Prop
  | kept {p'} (h : Kept p p') : Effect p bb packetType p'
  | status {p'} (state : UInt32) (hstate : p.state = 1) (hnext : state = 1 ∨ state = 2)
      (h : Kept { p with state := state } p') : Effect p bb packetType p'
  | encryption {p'} (key : Block) (hstate : p.state = 2) (h : Kept (p.startEncryption key) p') :
      Effect p bb packetType p'
  | login (username : AString) (bb' : ByteBuffer) (hstate : p.state = 2) (htype : packetType = 0x02)
      (hread : bb.readVarUTF8String = .ok (some username, bb')) :
      Effect p bb packetType (p.handleLogin username username)
  | room (r : Request) (hstate : p.state = 3) : Effect p bb packetType (p.request r)
  | ignore (h₁ : p.state ≠ 1) (h₂ : p.state ≠ 2) (h₃ : p.state ≠ 3) :
      Effect p bb packetType { p.report (.unknownState p.state) with state := 255 }

/-- The handler moves the cursor of its buffer and has one of the effects. -/
def Performs (handler : ProtocolImpl → ByteBuffer → Checked (ByteBuffer × ProtocolImpl))
    (state packetType : UInt32) : Prop :=
  ∀ {n : Nat} {p p' : ProtocolImpl} {bb bb' : ByteBuffer} {items rest : List UInt8},
    Ready p → p.state = state → Holds bb n items rest → handler p bb = .ok (bb', p') →
    (∃ rest', Holds bb' n items rest') ∧ Effect p bb packetType p'

theorem read_cases {α σ : Type} {read : ByteBuffer → Checked (Option α × ByteBuffer)}
    (hkeeps : Keeps read) {n : Nat} {bb bb' : ByteBuffer} {items rest : List UInt8} {s s' : σ}
    {next : α → ByteBuffer → Checked (ByteBuffer × σ)} (hbb : Holds bb n items rest)
    (h : handleRead (read bb) s next = .ok (bb', s')) :
    ((∃ rest', Holds bb' n items rest') ∧ s' = s)
      ∨ ∃ v bb₁ rest₁, read bb = .ok (some v, bb₁) ∧ Holds bb₁ n items rest₁
          ∧ next v bb₁ = .ok (bb', s') := by
  rcases handleRead_cases h with ⟨hread, rfl⟩ | ⟨v, bb₁, hread, hnext⟩
  · exact .inl ⟨hkeeps hbb hread, rfl⟩
  · obtain ⟨rest₁, hbb₁⟩ := hkeeps hbb hread
    exact .inr ⟨v, bb₁, rest₁, hread, hbb₁, hnext⟩

/-- The end of a handler: it returns its buffer and the state of its last call. -/
theorem last_call {p' : ProtocolImpl} {bb bb' : ByteBuffer} {last : Checked ProtocolImpl}
    (h : (do return (bb, ← last)) = (.ok (bb', p') : Checked (ByteBuffer × ProtocolImpl))) :
    bb' = bb ∧ last = .ok p' := by
  obtain ⟨p₁, hlast, h⟩ := exists_of_bind_ok h
  simp only [Checked.pure_eq_ok, Except.ok.injEq, Prod.mk.injEq] at h
  obtain ⟨rfl, rfl⟩ := h
  exact ⟨rfl, hlast⟩

theorem status_state {state : Int32} (h : ¬ (state < 1 ∨ state > 2)) :
    state.toUInt32 = 1 ∨ state.toUInt32 = 2 := by
  rw [not_or, gt_iff_lt, Int32.not_lt, Int32.not_lt, Int32.le_iff_toInt_le,
    Int32.le_iff_toInt_le] at h
  obtain ⟨hlow, hhigh⟩ := h
  have hone : (1 : Int32).toInt = 1 := rfl
  have htwo : (2 : Int32).toInt = 2 := rfl
  have hcases : state.toInt = (1 : Int32).toInt ∨ state.toInt = (2 : Int32).toInt := by omega
  rcases hcases with heq | heq
  · rw [Int32.toInt_inj.mp heq]
    exact .inl rfl
  · rw [Int32.toInt_inj.mp heq]
    exact .inr rfl

section Performs

variable {env : Env}

theorem performs_statusRequest : Performs (handlePacketStatusRequest env) 1 0x00 := by
  intro n p p' bb bb' items rest hready hstate hbb h
  unfold handlePacketStatusRequest at h
  rcases read_cases keeps_readVarUTF8String hbb h with ⟨hend, rfl⟩ | ⟨appName, bb₁, _, -, hbb₁, h⟩
  · exact ⟨hend, .kept (.refl hready)⟩
  rcases read_cases keeps_readVarUTF8String hbb₁ h with ⟨hend, rfl⟩ | ⟨_, bb₂, _, -, hbb₂, h⟩
  · exact ⟨hend, .kept (.refl hready)⟩
  rcases read_cases (keeps_readScalar 4 _) hbb₂ h with ⟨hend, rfl⟩ | ⟨_, bb₃, _, -, hbb₃, h⟩
  · exact ⟨hend, .kept (.refl hready)⟩
  rcases read_cases (keeps_readScalar 4 _) hbb₃ h with ⟨hend, rfl⟩ | ⟨next, bb₄, _, -, hbb₄, h⟩
  · exact ⟨hend, .kept (.refl hready)⟩
  split_ifs at h with hbad
  · obtain ⟨rfl, hkick⟩ := last_call h
    exact ⟨⟨_, hbb₄⟩, .kept (kept_of_kick hready hkick)⟩
  · obtain ⟨rfl, hpacket⟩ := last_call h
    have hnext := status_state (not_or.mp hbad).2
    exact ⟨⟨_, hbb₄⟩, .status next.toUInt32 hstate hnext
      (kept_of_packet ⟨hready.out, hready.len⟩ hpacket)⟩

theorem performs_statusPing : Performs (handlePacketStatusPing env) 1 0x01 := by
  intro n p p' bb bb' items rest hready hstate hbb h
  unfold handlePacketStatusPing at h
  rcases read_cases (keeps_readScalar 8 _) hbb h with ⟨hend, rfl⟩ | ⟨_, bb₁, _, -, hbb₁, h⟩
  · exact ⟨hend, .kept (.refl hready)⟩
  obtain ⟨rfl, hpacket⟩ := last_call h
  exact ⟨⟨_, hbb₁⟩, .kept (kept_of_packet hready hpacket)⟩

theorem performs_loginStart : Performs (handlePacketLoginStart env) 2 0x00 := by
  intro n p p' bb bb' items rest hready hstate hbb h
  obtain ⟨rfl, hpacket⟩ := last_call h
  exact ⟨⟨_, hbb⟩, .kept (kept_of_packet hready hpacket)⟩

theorem effect_of_checkEncryptionResponse {p p' : ProtocolImpl} {bb : ByteBuffer}
    {packetType : UInt32} {encKey encNonce : AString} (hready : Ready p) (hstate : p.state = 2)
    (h : p.checkEncryptionResponse env encKey encNonce = .ok p') :
    Effect p bb packetType p' := by
  unfold checkEncryptionResponse at h
  split at h
  · exact .kept (kept_of_kick hready h)
  split_ifs at h
  · exact .kept (kept_of_kick hready h)
  · exact .kept (kept_of_kick hready h)
  split at h
  · exact .kept (kept_of_kick hready h)
  split_ifs at h
  · exact .kept (kept_of_kick hready h)
  · exact .encryption _ hstate (kept_of_packet ⟨hready.out, hready.len⟩ h)

theorem performs_loginEncryptionResponse :
    Performs (handlePacketLoginEncryptionResponse env) 2 0x01 := by
  intro n p p' bb bb' items rest hready hstate hbb h
  unfold handlePacketLoginEncryptionResponse at h
  rcases read_cases (keeps_readScalar 2 _) hbb h with ⟨hend, rfl⟩ | ⟨keyLength, bb₁, _, -, hbb₁, h⟩
  · exact ⟨hend, .kept (.refl hready)⟩
  split_ifs at h
  · obtain ⟨rfl, hkick⟩ := last_call h
    exact ⟨⟨_, hbb₁⟩, .kept (kept_of_kick hready hkick)⟩
  rcases read_cases (keeps_readString _) hbb₁ h with ⟨hend, rfl⟩ | ⟨encKey, bb₂, _, -, hbb₂, h⟩
  · exact ⟨hend, .kept (.refl hready)⟩
  rcases read_cases (keeps_readScalar 2 _) hbb₂ h with ⟨hend, rfl⟩ | ⟨nonceLength, bb₃, _, -, hbb₃, h⟩
  · exact ⟨hend, .kept (.refl hready)⟩
  split_ifs at h
  · obtain ⟨rfl, hkick⟩ := last_call h
    exact ⟨⟨_, hbb₃⟩, .kept (kept_of_kick hready hkick)⟩
  rcases read_cases (keeps_readString _) hbb₃ h with ⟨hend, rfl⟩ | ⟨encNonce, bb₄, _, -, hbb₄, h⟩
  · exact ⟨hend, .kept (.refl hready)⟩
  obtain ⟨rfl, hcheck⟩ := last_call h
  exact ⟨⟨_, hbb₄⟩, effect_of_checkEncryptionResponse hready hstate hcheck⟩

theorem performs_loginInfo : Performs handlePacketLoginInfo 2 0x02 := by
  intro n p p' bb bb' items rest hready hstate hbb h
  unfold handlePacketLoginInfo at h
  rcases read_cases keeps_readVarUTF8String hbb h with ⟨hend, rfl⟩ | ⟨username, bb₁, _, hread, hbb₁, h⟩
  · exact ⟨hend, .kept (.refl hready)⟩
  simp only [Checked.pure_eq_ok, Except.ok.injEq, Prod.mk.injEq] at h
  obtain ⟨rfl, rfl⟩ := h
  exact ⟨⟨_, hbb₁⟩, .login username bb₁ hstate rfl hread⟩

theorem performs_keepAlive : Performs handlePacketKeepAlive 3 0x00 := by
  intro n p p' bb bb' items rest hready hstate hbb h
  unfold handlePacketKeepAlive at h
  rcases read_cases keeps_readVarInt32 hbb h with ⟨hend, rfl⟩ | ⟨_, bb₁, _, -, hbb₁, h⟩
  · exact ⟨hend, .kept (.refl hready)⟩
  simp only [Checked.pure_eq_ok, Except.ok.injEq, Prod.mk.injEq] at h
  obtain ⟨rfl, rfl⟩ := h
  exact ⟨⟨_, hbb₁⟩, .kept (.refl hready)⟩

theorem performs_joinRoom : Performs handlePacketJoinRoom 3 0x01 := by
  intro n p p' bb bb' items rest hready hstate hbb h
  unfold handlePacketJoinRoom at h
  rcases read_cases keeps_readVarUTF8String hbb h with ⟨hend, rfl⟩ | ⟨_, bb₁, _, -, hbb₁, h⟩
  · exact ⟨hend, .kept (.refl hready)⟩
  simp only [Checked.pure_eq_ok, Except.ok.injEq, Prod.mk.injEq] at h
  obtain ⟨rfl, rfl⟩ := h
  exact ⟨⟨_, hbb₁⟩, .room _ hstate⟩

theorem performs_leftRoom : Performs handlePacketLeftRoom 3 0x09 := by
  intro n p p' bb bb' items rest hready hstate hbb h
  unfold handlePacketLeftRoom at h
  rcases read_cases keeps_readVarUTF8String hbb h with ⟨hend, rfl⟩ | ⟨_, bb₁, _, -, hbb₁, h⟩
  · exact ⟨hend, .kept (.refl hready)⟩
  simp only [Checked.pure_eq_ok, Except.ok.injEq, Prod.mk.injEq] at h
  obtain ⟨rfl, rfl⟩ := h
  exact ⟨⟨_, hbb₁⟩, .room _ hstate⟩

theorem performs_msgRoom : Performs handlePacketMsgRoom 3 0x02 := by
  intro n p p' bb bb' items rest hready hstate hbb h
  unfold handlePacketMsgRoom at h
  rcases read_cases keeps_readVarUTF8String hbb h with ⟨hend, rfl⟩ | ⟨_, bb₁, _, -, hbb₁, h⟩
  · exact ⟨hend, .kept (.refl hready)⟩
  rcases read_cases keeps_readVarInt32 hbb₁ h with ⟨hend, rfl⟩ | ⟨_, bb₂, _, -, hbb₂, h⟩
  · exact ⟨hend, .kept (.refl hready)⟩
  rcases read_cases keeps_readVarUTF8String hbb₂ h with ⟨hend, rfl⟩ | ⟨_, bb₃, _, -, hbb₃, h⟩
  · exact ⟨hend, .kept (.refl hready)⟩
  simp only [Checked.pure_eq_ok, Except.ok.injEq, Prod.mk.injEq] at h
  obtain ⟨rfl, rfl⟩ := h
  exact ⟨⟨_, hbb₃⟩, .room _ hstate⟩

/-- Every entry of the packet table. -/
theorem performs_handlerOf {state packetType : UInt32}
    {handler : ProtocolImpl → ByteBuffer → Checked (ByteBuffer × ProtocolImpl)}
    (h : handlerOf env state packetType = some handler) : Performs handler state packetType := by
  unfold handlerOf at h
  split_ifs at h with hstate htype htype hstate htype htype htype hstate htype htype htype htype <;>
    subst hstate <;> subst htype <;> rw [Option.some.injEq] at h <;> subst h
  · exact performs_statusRequest
  · exact performs_statusPing
  · exact performs_loginStart
  · exact performs_loginEncryptionResponse
  · exact performs_loginInfo
  · exact performs_keepAlive
  · exact performs_joinRoom
  · exact performs_msgRoom
  · exact performs_leftRoom

/-- **Packet effects.** Whatever a client sends, a call of `HandlePacket` that returns has moved
the cursor of the packet's buffer and had one of the effects. -/
theorem handlePacket_cases {n : Nat} {p p' : ProtocolImpl} {bb bb' : ByteBuffer}
    {items rest : List UInt8} {packetType : UInt32} {handled : Bool} (hready : Ready p)
    (hbb : Holds bb n items rest)
    (h : p.handlePacket env bb packetType = .ok (handled, bb', p')) :
    (∃ rest', Holds bb' n items rest') ∧ Effect p bb packetType p' := by
  unfold handlePacket at h
  cases hhandler : handlerOf env p.state packetType with
  | some handler =>
      rw [hhandler] at h
      obtain ⟨⟨bb₁, p₁⟩, hcall, h⟩ := exists_of_bind_ok h
      simp only [Checked.pure_eq_ok, Except.ok.injEq, Prod.mk.injEq] at h
      obtain ⟨-, rfl, rfl⟩ := h
      exact performs_handlerOf hhandler hready rfl hbb hcall
  | none =>
      rw [hhandler] at h
      split_ifs at h with hknown hsilent
      · obtain ⟨p₁, hunknown, h⟩ := exists_of_bind_ok h
        simp only [Checked.pure_eq_ok, Except.ok.injEq, Prod.mk.injEq] at h
        obtain ⟨-, rfl, rfl⟩ := h
        exact ⟨⟨_, hbb⟩, .kept (kept_of_report_disconnect hready hunknown)⟩
      · simp only [Checked.pure_eq_ok, Except.ok.injEq, Prod.mk.injEq] at h
        obtain ⟨-, rfl, rfl⟩ := h
        exact ⟨⟨_, hbb⟩, .kept (.refl hready)⟩
      · simp only [Checked.pure_eq_ok, Except.ok.injEq, Prod.mk.injEq] at h
        obtain ⟨-, rfl, rfl⟩ := h
        rw [not_or, not_or] at hknown
        exact ⟨⟨_, hbb⟩, .ignore hknown.1 hknown.2.1 hknown.2.2⟩

theorem Effect.ready {p p' : ProtocolImpl} {bb : ByteBuffer} {packetType : UInt32}
    (h : Effect p bb packetType p') (hready : Ready p) : Ready p' := by
  cases h with
  | kept h => exact h.ready
  | status state hstate hnext h => exact h.ready
  | encryption key hstate h => exact h.ready
  | login username bb' hstate htype hread => exact ⟨hready.out, hready.len⟩
  | room r hstate => exact ⟨hready.out, hready.len⟩
  | ignore h₁ h₂ h₃ => exact ⟨hready.out, hready.len⟩

/-- Encryption is never switched off. -/
theorem Effect.isEncrypted {p p' : ProtocolImpl} {bb : ByteBuffer} {packetType : UInt32}
    (h : Effect p bb packetType p') (hencrypted : p.isEncrypted = true) : p'.isEncrypted = true := by
  cases h with
  | kept h => rw [h.isEncrypted, hencrypted]
  | status state hstate hnext h => exact h.isEncrypted.trans hencrypted
  | encryption key hstate h => exact h.isEncrypted
  | login username bb' hstate htype hread => exact hencrypted
  | room r hstate => exact hencrypted
  | ignore h₁ h₂ h₃ => exact hencrypted

/-- Saying goodbye always works: its packets are short. -/
theorem clientSendDisconnect_total (env : Env) {p : ProtocolImpl} (hready : Ready p) (reason : Int32) :
    ∃ p', p.clientSendDisconnect env reason = .ok p' := by
  have hdisconnect : ∃ p₁, p.sendDisconnect env reason = .ok p₁ := by
    have hfit : ∀ packetType field, (Field.bytes field).length = 4 →
        (packetBytes packetType (fieldsBytes [field])).length ≤ 64 * 1024 := by
      intro packetType field hfield
      have hle := varInt32_length_le packetType
      rw [packetBytes, fieldsBytes_cons, fieldsBytes_nil, List.append_nil, List.length_append, hfield]
      omega
    unfold sendDisconnect
    split_ifs with hlogin hwork
    · obtain ⟨p₁, hpacket, -⟩ := packet_of_fit env hready
        (hfit 0x00 (.beInt32 reason) (bigEndian_length 4 _))
      exact ⟨p₁, hpacket⟩
    · obtain ⟨p₁, hpacket, -⟩ :=
        packet_of_fit env hready (hfit 0x40 (.beUInt32 reason.toUInt32) (bigEndian_length 4 _))
      exact ⟨p₁, hpacket⟩
    · exact ⟨p, rfl⟩
  unfold clientSendDisconnect
  split_ifs with hsent
  · exact ⟨p, rfl⟩
  · obtain ⟨p₁, hdisconnect⟩ := hdisconnect
    rw [hdisconnect]
    exact ⟨_, rfl⟩

end Performs

end ProtocolImpl

end Licode.Server
