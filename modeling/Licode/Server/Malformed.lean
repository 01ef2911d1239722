import Licode.Server.Segmentation

/-!
# Packets of the wrong size

A handler reads its fields from the payload and the NUL behind it, acts, and only then is the size
of the packet checked. `Fields` are the readers on lists of bytes, so that both readings of a packet
can be told: the payload alone (`WellFormed`), and the payload with its NUL (`Acts`).
-/

namespace Licode

open ByteBuffer ByteImage

/-- A reader on the bytes ahead of the cursor. -/
abbrev Fields := StateT (List UInt8) Option

namespace Fields

variable {α β : Type} {bytes rest : List UInt8}

def varInt (width : Nat) : Fields Nat := fun bytes =>
  match decodeVarInt width bytes 0 0 with
  | .ok (some v, rest) => some (v, rest)
  | _ => none

def buf (count : Nat) : Fields (List UInt8) := fun bytes =>
  if count ≤ bytes.length then some (bytes.take count, bytes.drop count) else none

def scalar (width : Nat) (convert : Nat → α) : Fields α := do
  return convert (value (← buf width))

def varInt32 : Fields UInt32 := do
  return UInt32.ofNat (← varInt 32)

def varUTF8String : Fields AString := do
  buf (UInt64.ofNat (← varInt 64)).toUInt32.toNat

def beInt16 : Fields Int16 := scalar 2 fun v => (ntohs (UInt16.ofNat v)).toInt16

def beInt32 : Fields Int32 := scalar 4 fun v => (ntohl (UInt32.ofNat v)).toInt32

def beInt64 : Fields Int64 := scalar 8 fun v => (ntohll (UInt64.ofNat v)).toInt64

theorem bind_of_some {first : Fields α} {v : α} (h : first bytes = some (v, rest))
    (next : α → Fields β) : (first >>= next) bytes = next v rest := by
  change (first bytes).bind _ = _
  rw [h]
  rfl

theorem bind_of_none {first : Fields α} (h : first bytes = none) (next : α → Fields β) :
    (first >>= next) bytes = none := by
  change (first bytes).bind _ = _
  rw [h]
  rfl

theorem buf_of_le {count : Nat} (h : count ≤ bytes.length) :
    buf count bytes = some (bytes.take count, bytes.drop count) :=
  if_pos h

theorem buf_of_lt {count : Nat} (h : bytes.length < count) : buf count bytes = none :=
  if_neg (Nat.not_le_of_lt h)

end Fields

/-- A reader of the ring that returns has done what the reader on lists does. -/
def Follows {α : Type} (read : ByteBuffer → Checked (Option α × ByteBuffer)) (field : Fields α) :
    Prop :=
  ∀ {n : Nat} {b b' : ByteBuffer} {items rest : List UInt8} {v : Option α},
    Holds b n items rest → read b = .ok (v, b') →
    (v = none ∧ field rest = none)
      ∨ ∃ x rest', v = some x ∧ field rest = some (x, rest') ∧ Holds b' n items rest'

theorem follows_readBuf (count : Nat) : Follows (fun b => b.readBuf count) (Fields.buf count) := by
  intro n b b' items rest v h hread
  beta_reduce at hread
  by_cases hcount : count ≤ rest.length
  · obtain ⟨b₁, hread₁, h₁⟩ := h.readBuf hcount
    rw [hread₁] at hread
    cases hread
    exact .inr ⟨_, _, rfl, Fields.buf_of_le hcount, h₁⟩
  · rw [h.readBuf_of_short (by omega)] at hread
    cases hread
    exact .inl ⟨rfl, Fields.buf_of_lt (by omega)⟩

theorem follows_readString (count : Nat) :
    Follows (fun b => b.readString count) (Fields.buf count) := by
  simp only [readString_eq_readBuf]
  exact follows_readBuf count

theorem follows_readScalar {α : Type} (width : Nat) (convert : Nat → α) :
    Follows (fun b => b.readScalar width convert) (Fields.scalar width convert) := by
  intro n b b' items rest v h hread
  beta_reduce at hread
  by_cases hwidth : width ≤ rest.length
  · obtain ⟨b₁, hread₁, h₁⟩ := h.readBuf hwidth
    simp only [readScalar, h.checkValid, Checked.ok_bind, h.canReadBytes, hwidth, decide_true,
      not_true_eq_false, if_false, hread₁] at hread
    cases hread
    refine .inr ⟨_, _, rfl, ?_, h₁⟩
    rw [Fields.scalar, Fields.bind_of_some (Fields.buf_of_le hwidth)]
    rfl
  · rw [readScalar_of_short h (by omega)] at hread
    cases hread
    exact .inl ⟨rfl, Fields.bind_of_none (Fields.buf_of_lt (by omega)) _⟩

theorem follows_readBEInt16 : Follows readBEInt16 Fields.beInt16 := follows_readScalar 2 _

theorem follows_readBEInt32 : Follows readBEInt32 Fields.beInt32 := follows_readScalar 4 _

theorem Fields.varInt_eq {width : Nat} {bytes rest : List UInt8} {w : Option Nat}
    (h : decodeVarInt width bytes 0 0 = .ok (w, rest)) :
    Fields.varInt width bytes = w.map fun v => (v, rest) := by
  rw [Fields.varInt, h]
  cases w with
  | none => rfl
  | some v => rfl

theorem follows_readVarInt32 : Follows readVarInt32 Fields.varInt32 := by
  intro n b b' items rest v h hread
  rw [readVarInt32, h.checkValid, Checked.ok_bind, h.getReadableSpace, Checked.ok_bind] at hread
  obtain ⟨herror, hok⟩ := readVarIntLoop_eq 32 0 0 h (Nat.lt_succ_self _)
  cases hdecode : decodeVarInt 32 rest 0 0 with
  | error e =>
      rw [herror e hdecode] at hread
      cases hread
  | ok result =>
      obtain ⟨w, rest'⟩ := result
      obtain ⟨b₁, hloop, h₁⟩ := hok w rest' hdecode
      rw [hloop] at hread
      cases hread
      have hfield := Fields.varInt_eq hdecode
      cases w with
      | none => exact .inl ⟨rfl, Fields.bind_of_none hfield _⟩
      | some w => exact .inr ⟨_, rest', rfl, Fields.bind_of_some hfield _, h₁⟩

theorem follows_readVarUTF8String : Follows readVarUTF8String Fields.varUTF8String := by
  intro n b b' items rest v h hread
  rw [readVarUTF8String, h.checkValid, Checked.ok_bind] at hread
  obtain ⟨⟨size, b₁⟩, hsize, hread⟩ := exists_of_bind_ok hread
  obtain ⟨w, rest₁, hdecode, rfl, h₁⟩ := decodeVarInt_of_readVarInt h hsize
  have hfield := Fields.varInt_eq hdecode
  cases w with
  | none =>
      cases hread
      exact .inl ⟨rfl, Fields.bind_of_none hfield _⟩
  | some w =>
      rw [Fields.varUTF8String, Fields.bind_of_some hfield]
      exact follows_readString _ h₁ hread

namespace Server

/-- The event queue of the channel manager gets this request. -/
def Request.isEvent : Request → Bool
  | .authenticate _ _ _ => false
  | .doUserJoinChannel _ _ => true
  | .doUserLeftChannel _ _ => true
  | .onMsgFromPeer _ _ _ _ => true

namespace ProtocolImpl

open Fields

/-! ### The fields of the packets, as the handlers read them -/

def statusRequest : Fields (AString × Int32) := do
  let appName ← varUTF8String
  let _server ← varUTF8String
  let _port ← beInt32
  let state ← beInt32
  return (appName, state)

def encryptionResponse : Fields (AString × AString) := do
  let encKeyLength ← beInt16
  if encKeyLength > 512 then
    failure
  else
    let encKey ← buf (sizeOfInt16 encKeyLength)
    let encNonceLength ← beInt16
    if encNonceLength > 512 then
      failure
    else
      let encNonce ← buf (sizeOfInt16 encNonceLength)
      return (encKey, encNonce)

def msgRoom : Fields (AString × UInt32 × AString) := do
  let channelName ← varUTF8String
  let targetID ← varInt32
  let msg ← varUTF8String
  return (channelName, targetID, msg)

/-- The fields of a packet type that has a handler. -/
def fieldsOf (state packetType : UInt32) : Fields Unit :=
  if state = 1 then
    if packetType = 0x00 then discard statusRequest else discard beInt64
  else if state = 2 then
    if packetType = 0x00 then return ()
    else if packetType = 0x01 then discard encryptionResponse
    else discard varUTF8String
  else
    if packetType = 0x00 then discard varInt32
    else if packetType = 0x02 then discard msgRoom
    else discard varUTF8String

/-- The payload is the fields and nothing else. -/
def WellFormed (state packetType : UInt32) (payload : List UInt8) : Prop :=
  fieldsOf state packetType payload = some ((), [])

/-- Both ciphertexts open, the one to the nonce and the other to a key. -/
def Opens (env : Env) (p : ProtocolImpl) (encKey encNonce : AString) : Prop :=
  ∃ nonce key, env.decrypt encNonce maxEncLen = some nonce ∧ nonce.length = 4
    ∧ UInt32.ofNat (value nonce) = p.nonce
    ∧ env.decrypt encKey maxEncLen = some key ∧ key.length = 16

/-- The bytes begin with all of the fields, and these meet a condition. -/
def Found {α : Type} (fields : Fields α) (condition : α → Prop) (bytes : List UInt8) : Prop :=
  ∃ v rest, fields bytes = some (v, rest) ∧ condition v

/-- The handler finds all its fields in the bytes, and they ask for something new. -/
inductive Acts (env : Env) (p : ProtocolImpl) (packetType : UInt32) (bytes : List UInt8) : Prop
  | status (hstate : p.state = 1) (htype : packetType = 0x00)
      (hfound : Found statusRequest (fun fields => fields = (ascii "mcu", 2)) bytes)
  | encryption (hstate : p.state = 2) (htype : packetType = 0x01)
      (hfound : Found encryptionResponse
        (fun fields => p.isEncrypted = false ∧ Opens env p fields.1 fields.2) bytes)
  | login (hstate : p.state = 2) (htype : packetType = 0x02)
      (hfound : Found varUTF8String (fun _ => p.client.state ≠ .csAuthenticating) bytes)
  | room (hstate : p.state = 3) (htype : packetType = 0x01 ∨ packetType = 0x09)
      (hfound : Found varUTF8String (fun _ => True) bytes)
  | message (hstate : p.state = 3) (htype : packetType = 0x02)
      (hfound : Found msgRoom (fun _ => True) bytes)

/-- What a malformed packet may not change. -/
structure Untouched (p p' : ProtocolImpl) : Prop where
  state : p'.state = p.state
  isEncrypted : p'.isEncrypted = p.isEncrypted
  clientState : p'.client.state = p.client.state
  events : p'.requests.filter Request.isEvent = p.requests.filter Request.isEvent

theorem Kept.untouched {p p' : ProtocolImpl} (h : Kept p p') : Untouched p p' :=
  ⟨h.state, h.isEncrypted, h.clientState, by rw [h.requests]⟩

/-- What is sent or reported afterwards makes no difference. -/
theorem Kept.untouched_congr {p p₁ p' : ProtocolImpl} (h : Kept p₁ p') :
    Untouched p p' ↔ Untouched p p₁ := by
  constructor
  · intro hsame
    exact ⟨h.state ▸ hsame.state, h.isEncrypted ▸ hsame.isEncrypted,
      h.clientState ▸ hsame.clientState, h.requests ▸ hsame.events⟩
  · intro hsame
    exact ⟨h.state.trans hsame.state, h.isEncrypted.trans hsame.isEncrypted,
      h.clientState.trans hsame.clientState, by rw [h.requests]; exact hsame.events⟩

/-! ### What each handler makes of the bytes -/

/-- The handler acts on exactly the bytes on which it should, the size of the packet aside. -/
def Obeys (env : Env) (handler : ProtocolImpl → ByteBuffer → Checked (ByteBuffer × ProtocolImpl))
    (state packetType : UInt32) : Prop :=
  ∀ {n : Nat} {p p' : ProtocolImpl} {bb bb' : ByteBuffer} {items rest : List UInt8},
    Ready p → p.state = state → Holds bb n items rest → handler p bb = .ok (bb', p') →
    (Untouched p p' ↔ ¬ Acts env p packetType rest)

/-- One read of a handler. -/
theorem untouched_read {α β : Type} {read : ByteBuffer → Checked (Option α × ByteBuffer)}
    {field : Fields α} (hfollows : Follows read field) {n : Nat} {p p' : ProtocolImpl}
    {bb bb' : ByteBuffer} {items rest : List UInt8} {more : α → Fields β} {condition : β → Prop}
    {next : α → ByteBuffer → Checked (ByteBuffer × ProtocolImpl)} (hbb : Holds bb n items rest)
    (h : handleRead (read bb) p next = .ok (bb', p'))
    (hnext : ∀ v bb₁ rest₁, Holds bb₁ n items rest₁ → next v bb₁ = .ok (bb', p') →
      (Untouched p p' ↔ ¬ Found (more v) condition rest₁)) :
    Untouched p p' ↔ ¬ Found (field >>= more) condition rest := by
  rcases handleRead_cases h with ⟨hread, rfl⟩ | ⟨v, bb₁, hread, hcall⟩
  · obtain ⟨-, hnone⟩ | ⟨x, _, hsome, -, -⟩ := hfollows hbb hread
    · rw [Found, bind_of_none hnone]
      exact iff_of_true ⟨rfl, rfl, rfl, rfl⟩ nofun
    · cases hsome
  · obtain ⟨hnone, -⟩ | ⟨x, rest₁, hsome, hfield, hbb₁⟩ := hfollows hbb hread
    · cases hnone
    · cases hsome
      rw [Found, bind_of_some hfield]
      exact hnext _ _ _ hbb₁ hcall

theorem found_pure_iff {α : Type} {v : α} {condition : α → Prop} {bytes : List UInt8} :
    Found (pure v) condition bytes ↔ condition v := by
  constructor
  · rintro ⟨x, rest, hfields, hcondition⟩
    cases hfields
    exact hcondition
  · intro hcondition
    exact ⟨v, bytes, rfl, hcondition⟩

/-- An event in the queue is a change. -/
theorem not_untouched_request {p : ProtocolImpl} {r : Request} (hevent : r.isEvent = true) :
    ¬ Untouched p (p.request r) := by
  intro h
  have hlength := congrArg List.length h.events
  rw [request, List.filter_append, List.length_append, List.filter_cons_of_pos hevent] at hlength
  simp at hlength

section Acts

variable {env : Env} {p : ProtocolImpl} {packetType : UInt32} {bytes : List UInt8}

theorem acts_status_iff (hstate : p.state = 1) :
    Acts env p packetType bytes ↔ packetType = 0x00
      ∧ Found statusRequest (fun fields => fields = (ascii "mcu", 2)) bytes := by
  constructor
  · rintro (⟨-, htype, hfound⟩ | ⟨hother, -, -⟩ | ⟨hother, -, -⟩ | ⟨hother, -, -⟩ | ⟨hother, -, -⟩)
    · exact ⟨htype, hfound⟩
    all_goals
      rw [hstate] at hother
      exact absurd hother (by decide)
  · rintro ⟨htype, hfound⟩
    exact .status hstate htype hfound

theorem acts_login_iff (hstate : p.state = 2) :
    Acts env p packetType bytes
      ↔ (packetType = 0x01 ∧ Found encryptionResponse
          (fun fields => p.isEncrypted = false ∧ Opens env p fields.1 fields.2) bytes)
        ∨ (packetType = 0x02
          ∧ Found varUTF8String (fun _ => p.client.state ≠ .csAuthenticating) bytes) := by
  constructor
  · rintro (⟨hother, -, -⟩ | ⟨-, htype, hfound⟩ | ⟨-, htype, hfound⟩ | ⟨hother, -, -⟩
      | ⟨hother, -, -⟩)
    · rw [hstate] at hother
      exact absurd hother (by decide)
    · exact .inl ⟨htype, hfound⟩
    · exact .inr ⟨htype, hfound⟩
    all_goals
      rw [hstate] at hother
      exact absurd hother (by decide)
  · rintro (⟨htype, hfound⟩ | ⟨htype, hfound⟩)
    · exact .encryption hstate htype hfound
    · exact .login hstate htype hfound

theorem acts_work_iff (hstate : p.state = 3) :
    Acts env p packetType bytes
      ↔ ((packetType = 0x01 ∨ packetType = 0x09) ∧ Found varUTF8String (fun _ => True) bytes)
        ∨ (packetType = 0x02 ∧ Found msgRoom (fun _ => True) bytes) := by
  constructor
  · rintro (⟨hother, -, -⟩ | ⟨hother, -, -⟩ | ⟨hother, -, -⟩ | ⟨-, htype, hfound⟩
      | ⟨-, htype, hfound⟩)
    iterate 3
      rw [hstate] at hother
      exact absurd hother (by decide)
    · exact .inl ⟨htype, hfound⟩
    · exact .inr ⟨htype, hfound⟩
  · rintro (⟨htype, hfound⟩ | ⟨htype, hfound⟩)
    · exact .room hstate htype hfound
    · exact .message hstate htype hfound

end Acts

section Obeys

variable {env : Env}

/-- Of the two states that may be asked for, only the second is another one. -/
theorem status_kept_iff {state : Int32} (h : ¬ (state < 1 ∨ state > 2)) :
    state.toUInt32 = 1 ↔ ¬ state = 2 := by
  rcases status_state h with hone | htwo
  · refine iff_of_true hone ?_
    rintro rfl
    exact absurd hone (by decide)
  · refine iff_of_false (by rw [htwo]; decide) (not_not_intro ?_)
    have hback := congrArg UInt32.toInt32 htwo
    rwa [Int32.toInt32_toUInt32] at hback

theorem obeys_statusRequest : Obeys env (handlePacketStatusRequest env) 1 0x00 := by
  intro n p p' bb bb' items rest hready hstate hbb h
  rw [acts_status_iff hstate]
  simp only [true_and]
  refine untouched_read follows_readVarUTF8String hbb h fun appName bb₁ rest₁ hbb₁ h => ?_
  refine untouched_read follows_readVarUTF8String hbb₁ h fun _ bb₂ rest₂ hbb₂ h => ?_
  refine untouched_read follows_readBEInt32 hbb₂ h fun _ bb₃ rest₃ hbb₃ h => ?_
  refine untouched_read follows_readBEInt32 hbb₃ h fun next bb₄ rest₄ _ h => ?_
  rw [found_pure_iff, Prod.mk.injEq]
  split_ifs at h with hbad
  · obtain ⟨-, hkick⟩ := last_call h
    refine iff_of_true (kept_of_kick hready hkick).untouched ?_
    rintro ⟨rfl, rfl⟩
    exact absurd hbad (by decide)
  · obtain ⟨-, hpacket⟩ := last_call h
    have hkept : Kept { p with state := next.toUInt32 } p' :=
      kept_of_packet ⟨hready.out, hready.len⟩ hpacket
    rw [hkept.untouched_congr]
    obtain ⟨happ, hrange⟩ := not_or.mp hbad
    have hlogin : next.toUInt32 = p.state ↔ ¬ next = 2 := by
      rw [hstate]
      exact status_kept_iff hrange
    constructor
    · rintro hsame ⟨-, htwo⟩
      exact hlogin.mp hsame.state htwo
    · intro hnot
      exact ⟨hlogin.mpr fun htwo => hnot ⟨not_not.mp happ, htwo⟩, rfl, rfl, rfl⟩

theorem obeys_statusPing : Obeys env (handlePacketStatusPing env) 1 0x01 := by
  intro n p p' bb bb' items rest hready hstate hbb h
  rw [acts_status_iff hstate]
  refine iff_of_true ?_ (by simp)
  rcases handleRead_cases h with ⟨-, rfl⟩ | ⟨timestamp, bb₁, -, h⟩
  · exact (Kept.refl hready).untouched
  · obtain ⟨-, hpacket⟩ := last_call h
    exact (kept_of_packet hready hpacket).untouched

theorem obeys_loginStart : Obeys env (handlePacketLoginStart env) 2 0x00 := by
  intro n p p' bb bb' items rest hready hstate hbb h
  rw [acts_login_iff hstate]
  obtain ⟨-, hpacket⟩ := last_call h
  exact iff_of_true (kept_of_packet hready hpacket).untouched (by simp)

theorem untouched_checkEncryptionResponse {p p' : ProtocolImpl} {encKey encNonce : AString}
    (hready : Ready p) (h : p.checkEncryptionResponse env encKey encNonce = .ok p') :
    Untouched p p' ↔ ¬ (p.isEncrypted = false ∧ Opens env p encKey encNonce) := by
  have hkicked : ∀ {reason : Int32}, ¬ Opens env p encKey encNonce →
      p.kick env reason = .ok p' →
      (Untouched p p' ↔ ¬ (p.isEncrypted = false ∧ Opens env p encKey encNonce)) :=
    fun hnot hkick => iff_of_true (kept_of_kick hready hkick).untouched fun hboth => hnot hboth.2
  unfold checkEncryptionResponse at h
  cases hnonce : env.decrypt encNonce maxEncLen with
  | none =>
      rw [hnonce] at h
      exact hkicked (by simp [Opens, hnonce]) h
  | some nonce =>
      simp only [hnonce] at h
      split_ifs at h with hfour hvalue
      · refine hkicked ?_ h
        rintro ⟨_, _, hsame, hlength, -⟩
        cases hnonce.symm.trans hsame
        exact hfour hlength
      · refine hkicked ?_ h
        rintro ⟨_, _, hsame, -, hnumber, -⟩
        cases hnonce.symm.trans hsame
        exact hvalue hnumber
      · cases hkey : env.decrypt encKey maxEncLen with
        | none =>
            rw [hkey] at h
            exact hkicked (by simp [Opens, hkey]) h
        | some key =>
            simp only [hkey] at h
            split_ifs at h with hsixteen
            · refine hkicked ?_ h
              rintro ⟨_, _, -, -, -, hsame, hlength⟩
              cases hkey.symm.trans hsame
              exact hsixteen hlength
            · have hkept : Kept (p.startEncryption (toBlock key)) p' :=
                kept_of_packet ⟨hready.out, hready.len⟩ h
              have hopens : Opens env p encKey encNonce :=
                ⟨nonce, key, hnonce, not_not.mp hfour, not_not.mp hvalue, hkey, not_not.mp hsixteen⟩
              rw [hkept.untouched_congr]
              constructor
              · rintro hsame ⟨hplain, -⟩
                cases hplain.symm.trans hsame.isEncrypted.symm
              · intro hnot
                refine ⟨rfl, ?_, rfl, rfl⟩
                cases hencrypted : p.isEncrypted with
                | false => exact absurd ⟨hencrypted, hopens⟩ hnot
                | true => rfl

theorem obeys_loginEncryptionResponse :
    Obeys env (handlePacketLoginEncryptionResponse env) 2 0x01 := by
  intro n p p' bb bb' items rest hready hstate hbb h
  rw [acts_login_iff hstate]
  simp only [true_and, show (0x01 : UInt32) ≠ 0x02 by decide, false_and, or_false]
  refine untouched_read follows_readBEInt16 hbb h fun encKeyLength bb₁ rest₁ hbb₁ h => ?_
  split_ifs at h with hlong
  · obtain ⟨-, hkick⟩ := last_call h
    rw [if_pos hlong]
    exact iff_of_true (kept_of_kick hready hkick).untouched nofun
  rw [if_neg hlong]
  refine untouched_read (follows_readString _) hbb₁ h fun encKey bb₂ rest₂ hbb₂ h => ?_
  refine untouched_read follows_readBEInt16 hbb₂ h fun encNonceLength bb₃ rest₃ hbb₃ h => ?_
  split_ifs at h with hlong
  · obtain ⟨-, hkick⟩ := last_call h
    rw [if_pos hlong]
    exact iff_of_true (kept_of_kick hready hkick).untouched nofun
  rw [if_neg hlong]
  refine untouched_read (follows_readString _) hbb₃ h fun encNonce bb₄ rest₄ _ h => ?_
  obtain ⟨-, hcheck⟩ := last_call h
  rw [found_pure_iff]
  exact untouched_checkEncryptionResponse hready hcheck

theorem obeys_loginInfo : Obeys env handlePacketLoginInfo 2 0x02 := by
  intro n p p' bb bb' items rest hready hstate hbb h
  rw [acts_login_iff hstate]
  simp only [true_and, show (0x02 : UInt32) ≠ 0x01 by decide, false_and, false_or]
  rw [← bind_pure varUTF8String]
  refine untouched_read follows_readVarUTF8String hbb h fun username bb₁ rest₁ _ h => ?_
  cases h
  rw [found_pure_iff, not_not]
  constructor
  · intro hsame
    exact hsame.clientState.symm
  · intro hsame
    refine ⟨rfl, rfl, hsame.symm, ?_⟩
    rw [handleLogin, request, List.filter_append]
    exact List.append_nil _

theorem obeys_keepAlive : Obeys env handlePacketKeepAlive 3 0x00 := by
  intro n p p' bb bb' items rest hready hstate hbb h
  rw [acts_work_iff hstate]
  refine iff_of_true ?_ (by simp)
  rcases handleRead_cases h with ⟨-, rfl⟩ | ⟨keepAliveID, bb₁, -, h⟩
  · exact (Kept.refl hready).untouched
  · cases h
    exact (Kept.refl hready).untouched

/-- The handlers of the room's packets are one, up to the request. -/
theorem untouched_room {n : Nat} {p p' : ProtocolImpl} {bb bb' : ByteBuffer}
    {items rest : List UInt8} {requestOf : AString → Request}
    (hevent : ∀ channelName, (requestOf channelName).isEvent = true) (hbb : Holds bb n items rest)
    (h : handleRead bb.readVarUTF8String p (fun channelName bb =>
      return (bb, p.request (requestOf channelName))) = .ok (bb', p')) :
    Untouched p p' ↔ ¬ Found varUTF8String (fun _ => True) rest := by
  rw [← bind_pure varUTF8String]
  refine untouched_read follows_readVarUTF8String hbb h fun channelName bb₁ rest₁ _ h => ?_
  cases h
  rw [found_pure_iff]
  exact iff_of_false (not_untouched_request (hevent channelName)) (not_not_intro trivial)

theorem obeys_joinRoom : Obeys env handlePacketJoinRoom 3 0x01 := by
  intro n p p' bb bb' items rest hready hstate hbb h
  rw [acts_work_iff hstate]
  simp only [true_or, true_and, show (0x01 : UInt32) ≠ 0x02 by decide, false_and, or_false]
  exact untouched_room (fun _ => rfl) hbb h

theorem obeys_leftRoom : Obeys env handlePacketLeftRoom 3 0x09 := by
  intro n p p' bb bb' items rest hready hstate hbb h
  rw [acts_work_iff hstate]
  simp only [or_true, true_and, show (0x09 : UInt32) ≠ 0x02 by decide, false_and, or_false]
  exact untouched_room (fun _ => rfl) hbb h

theorem obeys_msgRoom : Obeys env handlePacketMsgRoom 3 0x02 := by
  intro n p p' bb bb' items rest hready hstate hbb h
  rw [acts_work_iff hstate]
  simp only [show (0x02 : UInt32) ≠ 0x01 by decide, show (0x02 : UInt32) ≠ 0x09 by decide, or_self,
    false_and, false_or, true_and]
  refine untouched_read follows_readVarUTF8String hbb h fun channelName bb₁ rest₁ hbb₁ h => ?_
  refine untouched_read follows_readVarInt32 hbb₁ h fun targetID bb₂ rest₂ hbb₂ h => ?_
  refine untouched_read follows_readVarUTF8String hbb₂ h fun msg bb₃ rest₃ _ h => ?_
  cases h
  rw [found_pure_iff]
  exact iff_of_false (not_untouched_request rfl) (not_not_intro trivial)

/-- Every entry of the packet table. -/
theorem obeys_handlerOf {state packetType : UInt32}
    {handler : ProtocolImpl → ByteBuffer → Checked (ByteBuffer × ProtocolImpl)}
    (h : handlerOf env state packetType = some handler) : Obeys env handler state packetType := by
  unfold handlerOf at h
  split_ifs at h with hstate htype htype hstate htype htype htype hstate htype htype htype htype <;>
    subst hstate <;> subst htype <;> rw [Option.some.injEq] at h <;> subst h
  · exact obeys_statusRequest
  · exact obeys_statusPing
  · exact obeys_loginStart
  · exact obeys_loginEncryptionResponse
  · exact obeys_loginInfo
  · exact obeys_keepAlive
  · exact obeys_joinRoom
  · exact obeys_msgRoom
  · exact obeys_leftRoom

end Obeys

end ProtocolImpl

namespace ServerLink

open ProtocolImpl

/-- The buffer that a handler gets holds the payload and one NUL. -/
theorem holds_payload {packetType : UInt32} {payload : List UInt8} {bb bb₁ bb₂ : ByteBuffer}
    {found : Option UInt32} {written : Bool}
    (hfill : fill (ByteBuffer.create ((packetBytes packetType payload).length + 1))
      (packetBytes packetType payload) = .ok bb)
    (htype : bb.readVarInt = .ok (found, bb₁)) (hwrite : bb₁.write [0] = .ok (written, bb₂)) :
    found = some packetType
      ∧ ∃ n items, Holds bb₂ n items (payload ++ [0]) := by
  have hholds := fill_holds hfill
  obtain ⟨bb', hread, hbb'⟩ := decodes_readVarInt packetType hholds
  cases htype.symm.trans hread
  obtain ⟨bb'', hnul, hbb''⟩ := hbb'.write (show _ + [(0 : UInt8)].length ≤ _ from le_rfl)
  cases hwrite.symm.trans hnul
  exact ⟨rfl, _, _, hbb''⟩

/-- The handler of a packet is called with the payload and the NUL, and what it leaves may be reported. -/
theorem called_of_takePacket {env : Env} {p p' : ProtocolImpl} {packetType : UInt32} {payload : List UInt8}
    {goOn : Bool} {events : List ReceiveEvent} {handler : ProtocolImpl → ByteBuffer → Checked (ByteBuffer × ProtocolImpl)}
    (hhandler : handlerOf env p.state packetType = some handler)
    (htake : takePacket env p (packetBytes packetType payload) = .ok (goOn, events, p')) :
    ∃ n items bb bb' p₁, Holds bb n items (payload ++ [0]) ∧ handler p bb = .ok (bb', p₁)
      ∧ (p₁.packetError env packetType = .ok p' ∨ p' = p₁) := by
  obtain ⟨bb, hfill, htake⟩ := exists_of_bind_ok htake
  obtain ⟨⟨found, bb₁⟩, htype, htake⟩ := exists_of_bind_ok htake
  cases found with
  | none =>
      obtain ⟨bb', hread, -⟩ := decodes_readVarInt packetType (fill_holds hfill)
      cases htype.symm.trans hread
  | some found =>
      obtain ⟨⟨written, bb₂⟩, hwrite, htake⟩ := exists_of_bind_ok htake
      obtain ⟨⟨handled, bb₃, p₁⟩, hcall, htake⟩ := exists_of_bind_ok htake
      obtain ⟨hfound, n, items, hbb₂⟩ := holds_payload hfill htype hwrite
      cases hfound
      rw [ProtocolImpl.handlePacket, hhandler] at hcall
      obtain ⟨⟨bb₄, p₂⟩, hcall, hsame⟩ := exists_of_bind_ok hcall
      cases hsame
      refine ⟨n, items, bb₂, bb₃, p₁, hbb₂, hcall, ?_⟩
      obtain ⟨space, -, htake⟩ := exists_of_bind_ok htake
      split at htake
      · obtain ⟨p₃, herror, htake⟩ := exists_of_bind_ok htake
        cases htake
        exact .inl herror
      · cases htake
        exact .inr rfl

/-- A packet with a handler changes something exactly where its handler acts on the payload and the
NUL behind it; the size of the packet plays no part. -/
theorem untouched_iff_not_acts {env : Env} {p p' : ProtocolImpl} {packetType : UInt32}
    {payload : List UInt8} {goOn : Bool} {events : List ReceiveEvent} (hready : p.Ready)
    (hhandled : (handlerOf env p.state packetType).isSome)
    (htake : takePacket env p (packetBytes packetType payload) = .ok (goOn, events, p')) :
    Untouched p p' ↔ ¬ Acts env p packetType (payload ++ [0]) := by
  obtain ⟨handler, hhandler⟩ := Option.isSome_iff_exists.mp hhandled
  obtain ⟨n, items, bb, bb', p₁, hbb, hcall, hleft⟩ := called_of_takePacket hhandler htake
  have hobeys := obeys_handlerOf hhandler hready rfl hbb hcall
  obtain ⟨-, heffect⟩ := performs_handlerOf hhandler hready rfl hbb hcall
  obtain herror | rfl := hleft
  · rw [(kept_of_report_disconnect (heffect.ready hready) herror).untouched_congr]
    exact hobeys
  · exact hobeys

end ServerLink

end Server

end Licode
