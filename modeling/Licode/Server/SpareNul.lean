import Licode.Server.Malformed

/-!
# The NUL behind a packet

`AddReceivedData` writes one NUL behind the payload of a packet, so that reading too much can be told. It can be
read like any other byte. `accepts` is what a handler reads and checks, without what it does then: whether the
request is accepted, and how far the cursor has come.
-/

namespace Licode.Server

open ByteBuffer ByteImage

namespace ProtocolImpl

open Fields

/-- The checks of `HandlePacketLoginEncryptionResponse` on what it has read. -/
def opensKey (env : Env) (p : ProtocolImpl) (encKey encNonce : AString) : Bool :=
  match env.decrypt encNonce maxEncLen with
  | none => false
  | some decryptedNonce =>
      if decryptedNonce.length ≠ 4 then false
      else if UInt32.ofNat (value decryptedNonce) ≠ p.nonce then false
      else
        match env.decrypt encKey maxEncLen with
        | none => false
        | some decryptedKey => if decryptedKey.length ≠ 16 then false else true

/-- What the handler of a packet type reads and checks. -/
def accepts (env : Env) (p : ProtocolImpl) (packetType : UInt32) (bb : ByteBuffer) : Checked (ByteBuffer × Bool) :=
  if p.state = 1 then
    if packetType = 0x00 then
      handleRead bb.readVarUTF8String false fun appName bb =>
      handleRead bb.readVarUTF8String false fun _server bb =>
      handleRead bb.readBEInt32 false fun _port bb =>
      handleRead bb.readBEInt32 false fun state bb =>
        return (bb, ! decide (appName ≠ ascii "mcu" ∨ state < 1 ∨ state > 2))
    else handleRead bb.readBEInt64 false fun _timestamp bb => return (bb, true)
  else if p.state = 2 then
    if packetType = 0x00 then return (bb, true)
    else if packetType = 0x01 then
      handleRead bb.readBEInt16 false fun encKeyLength bb =>
        if encKeyLength > 512 then return (bb, false)
        else
          handleRead (bb.readString (sizeOfInt16 encKeyLength)) false fun encKey bb =>
          handleRead bb.readBEInt16 false fun encNonceLength bb =>
            if encNonceLength > 512 then return (bb, false)
            else
              handleRead (bb.readString (sizeOfInt16 encNonceLength)) false fun encNonce bb =>
                return (bb, p.opensKey env encKey encNonce)
    else handleRead bb.readVarUTF8String false fun _username bb => return (bb, true)
  else
    if packetType = 0x00 then handleRead bb.readVarInt32 false fun _keepAliveID bb => return (bb, true)
    else if packetType = 0x02 then
      handleRead bb.readVarUTF8String false fun _channelName bb =>
      handleRead bb.readVarInt32 false fun _targetID bb =>
      handleRead bb.readVarUTF8String false fun _msg bb => return (bb, true)
    else handleRead bb.readVarUTF8String false fun _channelName bb => return (bb, true)

/-- The handler leaves the cursor where the checks leave it, and does nothing for what is not accepted. -/
def Tracks (p : ProtocolImpl) (handled : Checked (ByteBuffer × ProtocolImpl)) (checked : Checked (ByteBuffer × Bool)) :
    Prop :=
  ∀ bb' p', handled = .ok (bb', p') → ∃ accepted, checked = .ok (bb', accepted) ∧ (accepted = false → Kept p p')

section Tracks

variable {env : Env} {p : ProtocolImpl}

theorem tracks_read {α : Type} {read : Checked (Option α × ByteBuffer)} (hready : Ready p)
    {next : α → ByteBuffer → Checked (ByteBuffer × ProtocolImpl)} {check : α → ByteBuffer → Checked (ByteBuffer × Bool)}
    (hnext : ∀ v bb, Tracks p (next v bb) (check v bb)) :
    Tracks p (handleRead read p next) (handleRead read false check) := by
  intro bb' p' h
  rcases handleRead_cases h with ⟨hread, rfl⟩ | ⟨v, bb₁, hread, hcall⟩
  · refine ⟨false, ?_, fun _ => .refl hready⟩
    rw [handleRead, hread]
    rfl
  · rw [handleRead_some hread]
    exact hnext v bb₁ bb' p' hcall

theorem tracks_return {p₁ : ProtocolImpl} (bb : ByteBuffer) : Tracks p (.ok (bb, p₁)) (.ok (bb, true)) := by
  intro bb' p' h
  cases h
  exact ⟨true, rfl, nofun⟩

/-- The last call of a handler whose request is accepted. -/
theorem tracks_last {last : Checked ProtocolImpl} (bb : ByteBuffer) :
    Tracks p (do return (bb, ← last)) (.ok (bb, true)) := by
  intro bb' p' h
  obtain ⟨rfl, -⟩ := last_call h
  exact ⟨true, rfl, nofun⟩

theorem tracks_kick {reason : Int32} (hready : Ready p) (bb : ByteBuffer) :
    Tracks p (do return (bb, ← p.kick env reason)) (.ok (bb, false)) := by
  intro bb' p' h
  obtain ⟨rfl, hkick⟩ := last_call h
  exact ⟨false, rfl, fun _ => kept_of_kick hready hkick⟩

theorem tracks_checkEncryptionResponse (hready : Ready p) (bb : ByteBuffer) (encKey encNonce : AString) :
    Tracks p (do return (bb, ← p.checkEncryptionResponse env encKey encNonce))
      (.ok (bb, p.opensKey env encKey encNonce)) := by
  rw [checkEncryptionResponse, opensKey]
  cases env.decrypt encNonce maxEncLen with
  | none => exact tracks_kick hready bb
  | some nonce =>
      dsimp only
      split_ifs
      · exact tracks_kick hready bb
      · exact tracks_kick hready bb
      · cases env.decrypt encKey maxEncLen with
        | none => exact tracks_kick hready bb
        | some key =>
            dsimp only
            split_ifs
            · exact tracks_kick hready bb
            · exact tracks_last bb

/-- Every entry of the packet table. -/
theorem tracks_handlerOf {packetType : UInt32}
    {handler : ProtocolImpl → ByteBuffer → Checked (ByteBuffer × ProtocolImpl)} (hready : Ready p)
    (h : handlerOf env p.state packetType = some handler) (bb : ByteBuffer) :
    Tracks p (handler p bb) (p.accepts env packetType bb) := by
  unfold handlerOf at h
  unfold accepts
  split_ifs at h with hstate htype htype hstate htype htype htype hstate htype htype htype htype <;>
    rw [Option.some.injEq] at h <;> subst h <;> subst htype <;> simp only [hstate]
  · refine tracks_read hready fun appName bb => tracks_read hready fun _ bb => tracks_read hready fun _ bb =>
      tracks_read hready fun state bb => ?_
    split_ifs with hbad
    · simp only [hbad, decide_true, Bool.not_true]
      exact tracks_kick hready bb
    · simp only [hbad, decide_false, Bool.not_false]
      exact tracks_last bb
  · exact tracks_read hready fun _ bb => tracks_last bb
  · exact tracks_last bb
  · refine tracks_read hready fun encKeyLength bb => ?_
    split_ifs
    · exact tracks_kick hready bb
    refine tracks_read hready fun encKey bb => tracks_read hready fun encNonceLength bb => ?_
    split_ifs
    · exact tracks_kick hready bb
    exact tracks_read hready fun encNonce bb => tracks_checkEncryptionResponse hready bb encKey encNonce
  · exact tracks_read hready fun _ bb => tracks_return bb
  · exact tracks_read hready fun _ bb => tracks_return bb
  · exact tracks_read hready fun _ bb => tracks_return bb
  · refine tracks_read hready fun _ bb => tracks_read hready fun _ bb => tracks_read hready fun _ bb => ?_
    exact tracks_return bb
  · exact tracks_read hready fun _ bb => tracks_return bb

end Tracks

/-! ### The bytes that are taken -/

/-- The bytes are all fields and no more, and these meet a condition. -/
def TakesAll {α : Type} (fields : Fields α) (condition : α → Prop) (bytes : List UInt8) : Prop :=
  ∃ v, fields bytes = some (v, []) ∧ condition v

/-- The bytes are the fields of a request that is accepted. -/
def Accepted (env : Env) (p : ProtocolImpl) (packetType : UInt32) : List UInt8 → Prop :=
  if p.state = 1 then
    if packetType = 0x00 then
      TakesAll statusRequest fun fields => ¬ (fields.1 ≠ ascii "mcu" ∨ fields.2 < 1 ∨ fields.2 > 2)
    else TakesAll beInt64 fun _ => True
  else if p.state = 2 then
    if packetType = 0x00 then TakesAll (pure ()) fun _ => True
    else if packetType = 0x01 then TakesAll encryptionResponse fun fields => Opens env p fields.1 fields.2
    else TakesAll varUTF8String fun _ => True
  else
    if packetType = 0x00 then TakesAll varInt32 fun _ => True
    else if packetType = 0x02 then TakesAll msgRoom fun _ => True
    else TakesAll varUTF8String fun _ => True

/-- What is checked is accepted with nothing left just where the bytes are taken as a whole. -/
def Accounts (checked : Checked (ByteBuffer × Bool)) (n : Nat) (items : List UInt8) (taken : Prop) : Prop :=
  ∀ bb' accepted, checked = .ok (bb', accepted) →
    ∃ rest', Holds bb' n items rest' ∧ (accepted = true ∧ rest' = [] ↔ taken)

section Accounts

variable {env : Env} {p : ProtocolImpl} {n : Nat} {bb : ByteBuffer} {items rest : List UInt8}

theorem accounts_read {α β : Type} {read : ByteBuffer → Checked (Option α × ByteBuffer)} {field : Fields α}
    (hfollows : Follows read field) (hkeeps : Keeps read) {more : α → Fields β} {condition : β → Prop}
    {check : α → ByteBuffer → Checked (ByteBuffer × Bool)} (hbb : Holds bb n items rest)
    (hcheck : ∀ v bb₁ rest₁, Holds bb₁ n items rest₁ →
      Accounts (check v bb₁) n items (TakesAll (more v) condition rest₁)) :
    Accounts (handleRead (read bb) false check) n items (TakesAll (field >>= more) condition rest) := by
  intro bb' accepted h
  rcases handleRead_cases h with ⟨hread, rfl⟩ | ⟨v, bb₁, hread, hcall⟩
  · obtain ⟨rest', hbb'⟩ := hkeeps hbb hread
    refine ⟨rest', hbb', iff_of_false nofun ?_⟩
    obtain ⟨-, hnone⟩ | ⟨x, _, hsome, -, -⟩ := hfollows hbb hread
    · rw [TakesAll, bind_of_none hnone]
      exact nofun
    · cases hsome
  · obtain ⟨hnone, -⟩ | ⟨x, rest₁, hsome, hfield, hbb₁⟩ := hfollows hbb hread
    · cases hnone
    · cases hsome
      rw [TakesAll, bind_of_some hfield]
      exact hcheck _ _ _ hbb₁ bb' accepted hcall

theorem accounts_last {α : Type} {v : α} {condition : α → Prop} {accepted : Bool} (hbb : Holds bb n items rest)
    (haccepted : accepted = true ↔ condition v) :
    Accounts (.ok (bb, accepted)) n items (TakesAll (pure v) condition rest) := by
  intro bb' accepted' h
  cases h
  refine ⟨rest, hbb, ?_⟩
  rw [haccepted]
  constructor
  · rintro ⟨hcondition, rfl⟩
    exact ⟨v, rfl, hcondition⟩
  · rintro ⟨_, hfields, hcondition⟩
    cases hfields
    exact ⟨hcondition, rfl⟩

theorem accounts_refused {α : Type} {condition : α → Prop} (hbb : Holds bb n items rest) :
    Accounts (.ok (bb, false)) n items (TakesAll failure condition rest) := by
  intro bb' accepted h
  cases h
  exact ⟨rest, hbb, iff_of_false nofun nofun⟩

/-- A packet of one field. -/
theorem accounts_field {α : Type} {read : ByteBuffer → Checked (Option α × ByteBuffer)} {field : Fields α}
    (hfollows : Follows read field) (hkeeps : Keeps read) (hbb : Holds bb n items rest) :
    Accounts (handleRead (read bb) false fun _ bb => .ok (bb, true)) n items (TakesAll field (fun _ => True) rest) := by
  rw [← bind_pure field]
  exact accounts_read hfollows hkeeps hbb fun _ _ _ hbb₁ => accounts_last hbb₁ (iff_of_true rfl trivial)

theorem opensKey_iff (encKey encNonce : AString) :
    p.opensKey env encKey encNonce = true ↔ Opens env p encKey encNonce := by
  rw [opensKey, Opens]
  cases env.decrypt encNonce maxEncLen with
  | none => simp
  | some nonce =>
      cases env.decrypt encKey maxEncLen with
      | none => simp
      | some key => simp

theorem accounts_accepts (packetType : UInt32) (hbb : Holds bb n items rest) :
    Accounts (p.accepts env packetType bb) n items (Accepted env p packetType rest) := by
  unfold accepts Accepted
  split_ifs
  · refine accounts_read follows_readVarUTF8String keeps_readVarUTF8String hbb fun appName bb₁ rest₁ hbb₁ => ?_
    refine accounts_read follows_readVarUTF8String keeps_readVarUTF8String hbb₁ fun _ bb₂ rest₂ hbb₂ => ?_
    refine accounts_read follows_readBEInt32 (keeps_readScalar 4 _) hbb₂ fun _ bb₃ rest₃ hbb₃ => ?_
    refine accounts_read follows_readBEInt32 (keeps_readScalar 4 _) hbb₃ fun state bb₄ rest₄ hbb₄ => ?_
    exact accounts_last hbb₄ (by simp)
  · exact accounts_field (follows_readScalar 8 _) (keeps_readScalar 8 _) hbb
  · exact accounts_last hbb (iff_of_true rfl trivial)
  · refine accounts_read follows_readBEInt16 (keeps_readScalar 2 _) hbb fun encKeyLength bb₁ rest₁ hbb₁ => ?_
    split_ifs
    · exact accounts_refused hbb₁
    refine accounts_read (follows_readString _) (keeps_readString _) hbb₁ fun encKey bb₂ rest₂ hbb₂ => ?_
    refine accounts_read follows_readBEInt16 (keeps_readScalar 2 _) hbb₂ fun encNonceLength bb₃ rest₃ hbb₃ => ?_
    split_ifs
    · exact accounts_refused hbb₃
    refine accounts_read (follows_readString _) (keeps_readString _) hbb₃ fun encNonce bb₄ rest₄ hbb₄ => ?_
    exact accounts_last hbb₄ (opensKey_iff encKey encNonce)
  · exact accounts_field follows_readVarUTF8String keeps_readVarUTF8String hbb
  · exact accounts_field follows_readVarInt32 keeps_readVarInt32 hbb
  · refine accounts_read follows_readVarUTF8String keeps_readVarUTF8String hbb fun channelName bb₁ rest₁ hbb₁ => ?_
    refine accounts_read follows_readVarInt32 keeps_readVarInt32 hbb₁ fun targetID bb₂ rest₂ hbb₂ => ?_
    refine accounts_read follows_readVarUTF8String keeps_readVarUTF8String hbb₂ fun msg bb₃ rest₃ hbb₃ => ?_
    exact accounts_last hbb₃ (iff_of_true rfl trivial)
  · exact accounts_field follows_readVarUTF8String keeps_readVarUTF8String hbb

end Accounts

end ProtocolImpl

namespace ServerLink

open ProtocolImpl

/-- The handler accepts the packet as a request, and reads the NUL behind the payload for it. -/
def NulTaken (env : Env) (p : ProtocolImpl) (packetType : UInt32) (payload : List UInt8) : Prop :=
  ∃ n items bb bb', Holds bb n items (payload ++ [0]) ∧ p.accepts env packetType bb = .ok (bb', true)
    ∧ bb'.getReadableSpace = .ok 0

/-- A handler that returns has read what the checks read. -/
theorem nulTaken_iff {env : Env} {p p' : ProtocolImpl} {packetType : UInt32} {payload : List UInt8} {goOn : Bool}
    {events : List ReceiveEvent} (hready : p.Ready) (hhandled : (handlerOf env p.state packetType).isSome)
    (htake : takePacket env p (packetBytes packetType payload) = .ok (goOn, events, p')) :
    NulTaken env p packetType payload ↔ Accepted env p packetType (payload ++ [0]) := by
  constructor
  · rintro ⟨n, items, bb, bb', hbb, haccepts, hspace⟩
    obtain ⟨rest', hbb', htaken⟩ := accounts_accepts packetType hbb bb' true haccepts
    rw [hbb'.getReadableSpace, Except.ok.injEq, List.length_eq_zero_iff] at hspace
    exact htaken.mp ⟨rfl, hspace⟩
  · intro haccepted
    obtain ⟨handler, hhandler⟩ := Option.isSome_iff_exists.mp hhandled
    obtain ⟨n, items, bb, bb', p₁, hbb, hcall, -⟩ := called_of_takePacket hhandler htake
    obtain ⟨accepted, haccepts, -⟩ := tracks_handlerOf hready hhandler bb bb' p₁ hcall
    obtain ⟨rest', hbb', htaken⟩ := accounts_accepts packetType hbb bb' accepted haccepts
    obtain ⟨rfl, rfl⟩ := htaken.mpr haccepted
    exact ⟨n, items, bb, bb', hbb, haccepts, hbb'.getReadableSpace⟩

/-- **Malformed packets.** A packet that is not exactly its fields leaves the protocol state, the encryption, the
login and the queue of the channel manager alone, and its NUL is no part of a request that is accepted, if and only
if its handler does not find all of its fields, in a form that it accepts as something new, in the payload and the
NUL behind it, and these are not exactly the fields of a request that it accepts at all. -/
theorem malformed_harmless_iff (env : Env) (p p' : ProtocolImpl) (packetType : UInt32)
    (payload : List UInt8) (goOn : Bool) (events : List ReceiveEvent) (hready : p.Ready)
    (hhandled : (handlerOf env p.state packetType).isSome)
    (htake : takePacket env p (packetBytes packetType payload) = .ok (goOn, events, p')) :
    (¬ WellFormed p.state packetType payload → Untouched p p' ∧ ¬ NulTaken env p packetType payload)
      ↔ WellFormed p.state packetType payload
        ∨ ¬ Acts env p packetType (payload ++ [0]) ∧ ¬ Accepted env p packetType (payload ++ [0]) := by
  rw [untouched_iff_not_acts hready hhandled htake, nulTaken_iff hready hhandled htake]
  exact Classical.or_iff_not_imp_left.symm

/-- A channel name of five bytes of which none has come is not taken for a request. -/
theorem malformed_harmless_iff_truncated :
    ¬ WellFormed workingLink.protocol.state 0x01 [5]
      ∧ ∃ goOn events p', takePacket closedEnv workingLink.protocol (packetBytes 0x01 [5])
          = .ok (goOn, events, p')
        ∧ Untouched workingLink.protocol p' ∧ ¬ NulTaken closedEnv workingLink.protocol 0x01 [5] := by
  have hbad : ¬ WellFormed workingLink.protocol.state 0x01 [5] := by
    intro h
    cases h
  have hidle : ¬ Acts closedEnv workingLink.protocol 0x01 ([5] ++ [0]) := by
    rw [acts_work_iff rfl]
    rintro (⟨-, _, _, hfields, -⟩ | ⟨hother, -⟩)
    · cases hfields
    · exact absurd hother (by decide)
  have hrefused : ¬ Accepted closedEnv workingLink.protocol 0x01 ([5] ++ [0]) := by
    rintro ⟨_, hfields, -⟩
    cases hfields
  refine ⟨hbad, _, _, _, rfl, ?_⟩
  exact (malformed_harmless_iff closedEnv workingLink.protocol _ 0x01 [5] _ _
    ⟨holds_create _ _, holds_create _ _⟩ rfl rfl).mpr (.inr ⟨hidle, hrefused⟩) hbad

/-- A `JoinRoom` packet without a payload joins the channel whose name is empty: the NUL is read as
the length of the name. -/
theorem nul_joins_channel :
    ¬ WellFormed workingLink.protocol.state 0x01 []
      ∧ ∃ goOn events p', takePacket closedEnv workingLink.protocol (packetBytes 0x01 [])
          = .ok (goOn, events, p')
        ∧ p'.requests = [.doUserJoinChannel 1 []] ∧ ¬ Untouched workingLink.protocol p' := by
  have hbad : ¬ WellFormed workingLink.protocol.state 0x01 [] := by
    intro h
    cases h
  have hjoin : takePacket closedEnv workingLink.protocol (packetBytes 0x01 []) = (do
      let p' ← (workingLink.protocol.request (.doUserJoinChannel 1 [])).packetError closedEnv 0x01
      return (true, [.handlePacket 0x01 ⟨[1, 0, 0], 3, 0, 2, 1⟩, .packetError 0x01], p')) := by
    have hfill : fill (ByteBuffer.create 2) [1] = .ok ⟨[1, 0, 0], 3, 0, 1, 0⟩ := rfl
    have htype : ByteBuffer.readVarInt ⟨[1, 0, 0], 3, 0, 1, 0⟩
        = .ok (some 0x01, ⟨[1, 0, 0], 3, 0, 1, 1⟩) := rfl
    have hwrite : ByteBuffer.write ⟨[1, 0, 0], 3, 0, 1, 1⟩ [0]
        = .ok (true, ⟨[1, 0, 0], 3, 0, 2, 1⟩) := rfl
    have hhandle : workingLink.protocol.handlePacket closedEnv ⟨[1, 0, 0], 3, 0, 2, 1⟩ 0x01
        = .ok (true, ⟨[1, 0, 0], 3, 0, 2, 2⟩,
          workingLink.protocol.request (.doUserJoinChannel 1 [])) := rfl
    have hspace : ByteBuffer.getReadableSpace ⟨[1, 0, 0], 3, 0, 2, 2⟩ = .ok 0 := rfl
    have hbytes : packetBytes 0x01 [] = [1] := rfl
    unfold takePacket
    rw [hbytes, List.length_singleton, hfill, Checked.ok_bind, htype, Checked.ok_bind]
    dsimp only
    rw [hwrite, Checked.ok_bind]
    dsimp only
    rw [hhandle, Checked.ok_bind]
    dsimp only
    rw [if_neg (not_not_intro rfl), hspace, Checked.ok_bind]
    exact if_pos Nat.zero_ne_one
  have hready : (workingLink.protocol.request (.doUserJoinChannel 1 [])).Ready :=
    ⟨holds_create _ _, holds_create _ _⟩
  obtain ⟨p', herror⟩ := clientSendDisconnect_total closedEnv
    (kept_report hready (.packetError 0x01)).ready ErrorCode.packetError
  have hkept := kept_of_report_disconnect hready herror
  rw [ProtocolImpl.packetError, herror] at hjoin
  refine ⟨hbad, _, _, p', hjoin, ?_, ?_⟩
  · rw [hkept.requests]
    rfl
  · rw [hkept.untouched_congr]
    exact not_untouched_request rfl

end ServerLink

end Licode.Server
