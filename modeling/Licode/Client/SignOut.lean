import Licode.Client.ClientSpec
import Licode.Lib.Outcome
import Licode.Lib.Run
import Licode.Rounds

/-!
# Signing out in the middle of a stream

`Conductor` is the observer of the client: where the client reports a login error or a channel that
has been left, it calls `SignOut` before the handler returns. So the ring, the decryptor and the
state that the loops of `DataReceived` and `AddReceivedData` work on are taken from under them. The
packet loop finds an empty ring and ends; the decrypting loop does not look, and goes on with a
decryptor that is no longer there.
-/

namespace Licode.Client

open ByteBuffer ByteImage

/-- What a call of `DataReceived` has done so far. -/
inductive Note where
  | handlePacket
  | signOut
  deriving DecidableEq

/-- The client with its observer. -/
structure Conductor where
  link : ClientLink
  log : List Note

namespace Conductor

def create (userName : AString) : Conductor := ⟨ClientLink.create userName, []⟩

def callback (a : Conductor) (call : Callback) : Conductor :=
  { a with link.client := a.link.client.callback call }

/-- `ConnectionClient::SignOut`. -/
def signOut (a : Conductor) : Conductor where
  link :=
    { receivedData := a.link.receivedData.clearAll
      client := { a.link.client with
        connecting := false
        sock := []
        clientID := 0
        channel := []
        outPacketBuffer := a.link.client.outPacketBuffer.clearAll
        encryptor := none
        decryptor := none
        state := 1
        isEncrypted := false
        bConnect := false } }
  log := a.log ++ [.signOut]

/-! ### The observer -/

def onLoginError (a : Conductor) : Conductor := (a.callback .onLoginError).signOut

def onLeaveChannel (a : Conductor) (room : AString) : Conductor :=
  (a.callback (.onLeaveChannel room)).signOut

/-! ### The handlers that report to it -/

def handleErrorCode (a : Conductor) (code : Int32) : Conductor :=
  a.onLoginError.callback (.postNotification code)

/-- `HandlePacketLoginDisconnect` and `HandlePacketErrorCode` are the same. -/
def handlePacketReason (a : Conductor) (bb : ByteBuffer) : Checked (ByteBuffer × Conductor) :=
  handleRead bb.readBEInt32 a fun reason bb => return (bb, a.handleErrorCode reason)

def handlePacketLoginDisconnect := handlePacketReason

def handlePacketErrorCode := handlePacketReason

def handlePacketRoomLeft (a : Conductor) (bb : ByteBuffer) : Checked (ByteBuffer × Conductor) :=
  handleRead bb.readVarUTF8String a fun channel bb =>
  handleRead bb.readVarInt32 a fun ret bb =>
    let a := if ret ≠ 0 then a.onLeaveChannel channel else a
    return (bb, { a with link.client.channel := [] })

def signingHandlerOf (state packetType : UInt32) :
    Option (Conductor → ByteBuffer → Checked (ByteBuffer × Conductor)) :=
  if state = 2 ∧ packetType = 0x00 then some handlePacketLoginDisconnect
  else if state = 3 ∧ packetType = 0x09 then some handlePacketRoomLeft
  else if state = 3 ∧ packetType = 0x40 then some handlePacketErrorCode
  else none

def noted (a : Conductor) : Conductor := { a with log := a.log ++ [.handlePacket] }

/-- `HandlePacket`; the handlers that cannot sign out are those of the client alone. -/
def handlePacket (env : Env) (a : Conductor) (bb : ByteBuffer) (packetType : UInt32) :
    Checked (Bool × ByteBuffer × Conductor) :=
  match signingHandlerOf a.link.client.state packetType with
  | some handler => do return (true, ← handler a.noted bb)
  | none => do
      let (handled, bb, c) ← a.link.client.handlePacket env bb packetType
      return (handled, bb, { a.noted with link.client := c })

def receiver (env : Env) : Receiver Conductor where
  aesCryptEcb := env.aesCryptEcb
  receivedData a := a.link.receivedData
  setReceivedData ring a := { a with link.receivedData := ring }
  isEncrypted a := a.link.client.isEncrypted
  decryptor a := a.link.client.decryptor
  setDecryptor c a := { a with link.client.decryptor := some c }
  handlePacket := handlePacket env
  packetBufferFull a := .ok (a.callback .packetBufferFull)
  packetError packetType a := .ok (a.callback (.packetError packetType))
  receivedData_setReceivedData _ _ := rfl
  receivedData_setDecryptor _ _ := rfl
  decryptor_setReceivedData _ _ := rfl
  decryptor_setDecryptor _ _ := rfl

/-- A call of `DataReceived` that begins its log anew. -/
def dataReceived (env : Env) (a : Conductor) (data : List UInt8) :
    Checked (List ReceiveEvent × Conductor) :=
  (receiver env).dataReceived { a with log := [] } data

/-! ### What the application and the socket do -/

inductive Action where
  | joinChannel (server room : AString)
  | onConnect
  | onRead (data : List UInt8)
  | sendToChannel (room : AString) (clientID : UInt32) (msg : AString)
  | leaveChannel (room : AString)
  | signOut
  | onClose

def next (env : Env) (a : Conductor) : Action → Checked Conductor
  | .joinChannel server room =>
      return { a with link.client := a.link.client.joinChannel server room }
  | .onConnect => do return { a with link.client := ← a.link.client.onConnect env }
  | .onRead data => do return (← a.dataReceived env data).2
  | .sendToChannel room clientID msg => do
      return { a with link.client := ← a.link.client.sendToChannel env room clientID msg }
  | .leaveChannel room => do
      return { a with link.client := ← a.link.client.leaveChannel env room }
  | .signOut => return a.signOut
  | .onClose => return { a with link.client.bConnect := false }

def Step (env : Env) (a : Conductor) (action : Action) (a' : Conductor) : Prop :=
  a.next env action = .ok a'

/-! ### One packet -/

/-- A client as it is constructed, apart from its name and its ring. -/
structure Reset (c : ConnectionClient) : Prop where
  state : c.state = 1
  isEncrypted : c.isEncrypted = false
  decryptor : c.decryptor = none
  encryptor : c.encryptor = none
  clientID : c.clientID = 0
  channel : c.channel = []
  bConnect : c.bConnect = false
  outPacketBuffer : c.outPacketBuffer.writePos = c.outPacketBuffer.dataStart

/-- The freshly constructed state. -/
structure Fresh (l : ClientLink) : Prop where
  client : Reset l.client
  receivedData : Holds l.receivedData (16 * 1024) [] []

/-- Handling a packet adds its note, and perhaps one that the client has signed out. -/
def Continues (a a' : Conductor) : Prop :=
  a'.log = a.log ++ [.handlePacket] ∧ a'.link.receivedData = a.link.receivedData

structure SignedOut (a a' : Conductor) : Prop where
  log : a'.log = a.log ++ [.handlePacket, .signOut]
  client : Reset a'.link.client
  receivedData : a'.link.receivedData = a.link.receivedData.clearAll

section Packet

variable {env : Env} {a a' : Conductor} {bb bb' : ByteBuffer}

theorem reset_signOut (a : Conductor) : Reset a.signOut.link.client :=
  ⟨rfl, rfl, rfl, rfl, rfl, rfl, rfl, rfl⟩

theorem Reset.callback {c : ConnectionClient} (h : Reset c) (call : Callback) :
    Reset (c.callback call) :=
  ⟨h.state, h.isEncrypted, h.decryptor, h.encryptor, h.clientID, h.channel, h.bConnect,
    h.outPacketBuffer⟩

theorem handlePacketReason_cases (h : a.noted.handlePacketReason bb = .ok (bb', a')) :
    Continues a a' ∨ SignedOut a a' := by
  rcases handleRead_cases h with ⟨-, rfl⟩ | ⟨reason, bb₁, -, h⟩
  · exact .inl ⟨rfl, rfl⟩
  · cases h
    refine .inr ⟨?_, (reset_signOut _).callback _, rfl⟩
    exact List.append_assoc a.log [.handlePacket] [.signOut]

theorem handlePacketRoomLeft_cases (h : a.noted.handlePacketRoomLeft bb = .ok (bb', a')) :
    Continues a a' ∨ SignedOut a a' := by
  rcases handleRead_cases h with ⟨-, rfl⟩ | ⟨channel, bb₁, -, h⟩
  · exact .inl ⟨rfl, rfl⟩
  · rcases handleRead_cases h with ⟨-, rfl⟩ | ⟨ret, bb₂, -, h⟩
    · exact .inl ⟨rfl, rfl⟩
    · by_cases hret : ret ≠ 0
      · simp only [if_pos hret] at h
        cases h
        refine .inr ⟨?_, ⟨rfl, rfl, rfl, rfl, rfl, rfl, rfl, rfl⟩, rfl⟩
        exact List.append_assoc a.log [.handlePacket] [.signOut]
      · simp only [if_neg hret] at h
        cases h
        exact .inl ⟨rfl, rfl⟩

/-- The handlers only move the cursor of their packet. -/
theorem holds_of_handler {n : Nat} {items rest : List UInt8} {state packetType : UInt32}
    {handler : Conductor → ByteBuffer → Checked (ByteBuffer × Conductor)}
    (hhandler : signingHandlerOf state packetType = some handler) (hbb : Holds bb n items rest)
    (h : handler a bb = .ok (bb', a')) : ∃ rest', Holds bb' n items rest' := by
  have hreason : handlePacketReason a bb = .ok (bb', a') → ∃ rest', Holds bb' n items rest' := by
    intro h
    rcases handleRead_cases h with ⟨hread, -⟩ | ⟨reason, bb₁, hread, h⟩
    · exact keeps_readScalar 4 _ hbb hread
    · cases h
      exact keeps_readScalar 4 _ hbb hread
  unfold signingHandlerOf at hhandler
  split_ifs at hhandler
  · cases hhandler
    exact hreason h
  · cases hhandler
    rcases handleRead_cases h with ⟨hread, -⟩ | ⟨channel, bb₁, hread, h⟩
    · exact keeps_readVarUTF8String hbb hread
    · obtain ⟨rest₁, hbb₁⟩ := keeps_readVarUTF8String hbb hread
      rcases handleRead_cases h with ⟨hread, -⟩ | ⟨ret, bb₂, hread, h⟩
      · exact keeps_readVarInt32 hbb₁ hread
      · cases h
        exact keeps_readVarInt32 hbb₁ hread
  · cases hhandler
    exact hreason h

/-- What a call of `HandlePacket` can do. -/
theorem handlePacket_cases {packetType : UInt32} {handled : Bool}
    (h : a.handlePacket env bb packetType = .ok (handled, bb', a')) :
    Continues a a' ∨ (handled = true ∧ SignedOut a a'
      ∧ ∀ {n items rest}, Holds bb n items rest → ∃ rest', Holds bb' n items rest') := by
  unfold handlePacket at h
  cases hhandler : signingHandlerOf a.link.client.state packetType with
  | none =>
      rw [hhandler] at h
      obtain ⟨⟨handled₁, bb₁, c⟩, -, h⟩ := exists_of_bind_ok h
      cases h
      exact .inl ⟨rfl, rfl⟩
  | some handler =>
      rw [hhandler] at h
      obtain ⟨⟨bb₁, a₁⟩, hcall, h⟩ := exists_of_bind_ok h
      cases h
      have hcases : Continues a a' ∨ SignedOut a a' := by
        have htable := hhandler
        unfold signingHandlerOf at htable
        split_ifs at htable
        · cases htable
          exact handlePacketReason_cases hcall
        · cases htable
          exact handlePacketRoomLeft_cases hcall
        · cases htable
          exact handlePacketReason_cases hcall
      rcases hcases with hgoes | hsigned
      · exact .inl hgoes
      · exact .inr ⟨rfl, hsigned, fun hbb => holds_of_handler hhandler hbb hcall⟩

end Packet

/-! ### The loops -/

/-- The packet loop comes from this state to a packet whose handler signs out. -/
inductive SignsOut (env : Env) : Conductor → Prop
  | now {a a₀ a₁ : Conductor} {packetType : UInt32} {bb bb' : ByteBuffer} {handled : Bool}
      (hnext : (receiver env).nextPacket a = .ok (a₀, some (packetType, bb)))
      (hcall : a₀.handlePacket env bb packetType = .ok (handled, bb', a₁))
      (hlog : a₁.log = a₀.log ++ [.handlePacket, .signOut]) : SignsOut env a
  | later {a a₀ a₁ a₂ : Conductor} {packetType : UInt32} {bb bb' : ByteBuffer}
      {errors : List ReceiveEvent}
      (hnext : (receiver env).nextPacket a = .ok (a₀, some (packetType, bb)))
      (hcall : a₀.handlePacket env bb packetType = .ok (true, bb', a₁))
      (hlog : a₁.log = a₀.log ++ [.handlePacket])
      (hcheck : (receiver env).checkPacketRead packetType bb' a₁ = .ok (errors, a₂))
      (hlater : SignsOut env a₂) : SignsOut env a

/-- The same, with a piece of the data that has just come. -/
def SignsOutIn (env : Env) (encrypted : Bool) (a : Conductor) (piece : List UInt8) : Prop :=
  ∃ mode bytes a₁ ring, (receiver env).decode encrypted a piece = .ok (mode, bytes, a₁)
    ∧ a₁.link.receivedData.write bytes = .ok (true, ring)
    ∧ SignsOut env { a₁ with link.receivedData := ring }

/-- Packets were handled and the last of them signed out, after which the client is as new. -/
def Over (a a' : Conductor) : Prop :=
  (∃ count, a'.log = a.log ++ (List.replicate count .handlePacket ++ [.signOut])) ∧ Fresh a'.link

/-- The ring is in order between two calls. -/
def Sane (a : Conductor) : Prop := ∃ bytes, Holds a.link.receivedData (16 * 1024) bytes bytes

section Loops

variable {env : Env} {a a' : Conductor}

theorem checkPacketRead_same {packetType : UInt32} {bb : ByteBuffer} {errors : List ReceiveEvent}
    (h : (receiver env).checkPacketRead packetType bb a = .ok (errors, a')) :
    a'.log = a.log ∧ a'.link.receivedData = a.link.receivedData
      ∧ (Reset a.link.client → Reset a'.link.client) := by
  obtain ⟨space, -, h⟩ := exists_of_bind_ok h
  split at h
  · cases h
    exact ⟨rfl, rfl, fun hreset => hreset.callback _⟩
  · cases h
    exact ⟨rfl, rfl, id⟩

/-- A packet that can still be read is checked without a fault. -/
theorem checkPacketRead_total (env : Env) (a : Conductor) (packetType : UInt32) {bb : ByteBuffer}
    {n : Nat} {items rest : List UInt8} (hbb : Holds bb n items rest) :
    ∃ errors a', (receiver env).checkPacketRead packetType bb a = .ok (errors, a') := by
  rw [Receiver.checkPacketRead, hbb.getReadableSpace, Checked.ok_bind]
  split
  · exact ⟨_, _, rfl⟩
  · exact ⟨_, _, rfl⟩

theorem handleAllPackets_fresh (env : Env) (fuel : Nat) (h : Fresh a.link) :
    ∃ a', (receiver env).handleAllPackets (fuel + 1) a = .ok ([], a') ∧ a'.log = a.log
      ∧ Fresh a'.link := by
  obtain ⟨ring, hring, hend⟩ :=
    Receiver.handleAllPackets_nil (R := receiver env) fuel h.receivedData
  exact ⟨_, hend, rfl, h.client, hring⟩

/-- The rest of a packet loop whose handler has signed out. -/
theorem handleNext_signedOut {a₀ a₁ : Conductor} {packetType : UInt32} {bb bb' : ByteBuffer}
    {handled : Bool} {bytes items rest : List UInt8} {n : Nat} (fuel : Nat)
    (hring : Holds a₀.link.receivedData (16 * 1024) bytes bytes) (hbb : Holds bb n items rest)
    (hcall : a₀.handlePacket env bb packetType = .ok (handled, bb', a₁))
    (hlog : a₁.log = a₀.log ++ [.handlePacket, .signOut]) :
    ∃ events a', (receiver env).handleNext (fuel + 1) (a₀, some (packetType, bb)) = .ok (events, a')
      ∧ a'.log = a₁.log ∧ Fresh a'.link := by
  rcases handlePacket_cases hcall with hgoes | ⟨rfl, hsigned, hkeeps⟩
  · have hshort := congrArg List.length (hgoes.1.symm.trans hlog)
    simp at hshort
  · obtain ⟨rest', hbb'⟩ := hkeeps hbb
    obtain ⟨errors, a₂, hcheck⟩ := checkPacketRead_total env a₁ packetType hbb'
    obtain ⟨hlog₂, hring₂, hreset₂⟩ := checkPacketRead_same hcheck
    have hfresh : Fresh a₂.link := by
      refine ⟨hreset₂ hsigned.client, ?_⟩
      rw [hring₂, hsigned.receivedData]
      exact hring.clearAll
    obtain ⟨a₃, hend, hlog₃, hfresh₃⟩ := handleAllPackets_fresh env fuel hfresh
    refine ⟨.handlePacket packetType bb :: errors ++ [], a₃, ?_, hlog₃.trans hlog₂, hfresh₃⟩
    exact Receiver.handleNext_handled hcall hcheck hend

theorem handleAllPackets_signsOut (h : SignsOut env a) {bytes : List UInt8} {fuel : Nat}
    (hring : Holds a.link.receivedData (16 * 1024) bytes bytes) (hfuel : bytes.length < fuel) :
    ∃ events a', (receiver env).handleAllPackets fuel a = .ok (events, a') ∧ Over a a' := by
  induction h generalizing bytes fuel with
  | now hnext hcall hlog =>
      obtain ⟨ring, rest, rfl, hring₀, hfound⟩ :=
        (receiver env).nextPacket_ring (by decide) hring hnext
      obtain ⟨hlt, m, items, left, hbb⟩ := hfound _ _ rfl
      obtain ⟨fuel, rfl⟩ : ∃ k, fuel = k + 1 + 1 := ⟨fuel - 2, by omega⟩
      obtain ⟨events, a', hrun, hlog', hfresh⟩ :=
        handleNext_signedOut fuel hring₀ hbb hcall hlog
      refine ⟨events, a', ?_, ⟨1, ?_⟩, hfresh⟩
      · rw [Receiver.handleAllPackets_succ, hnext]
        exact hrun
      · rw [hlog', hlog]
        rfl
  | @later a a₀ a₁ a₂ packetType bb bb' errors hnext hcall hlog hcheck _ ih =>
      obtain ⟨ring, rest, rfl, hring₀, hfound⟩ :=
        (receiver env).nextPacket_ring (by decide) hring hnext
      obtain ⟨hlt, -⟩ := hfound _ _ rfl
      obtain ⟨fuel, rfl⟩ : ∃ k, fuel = k + 1 := ⟨fuel - 1, by omega⟩
      have hring₁ : a₁.link.receivedData = ring := by
        rcases handlePacket_cases hcall with hgoes | ⟨-, hsigned, -⟩
        · exact hgoes.2
        · have hlong := congrArg List.length (hsigned.log.symm.trans hlog)
          simp at hlong
      obtain ⟨hlog₂, hring₂, -⟩ := checkPacketRead_same hcheck
      obtain ⟨events, a', hrun, ⟨count, hlog'⟩, hfresh⟩ :=
        ih (hring₂.trans hring₁ ▸ hring₀) (show rest.length < fuel by omega)
      refine ⟨.handlePacket packetType bb :: errors ++ events, a', ?_, ⟨count + 1, ?_⟩, hfresh⟩
      · rw [Receiver.handleAllPackets_succ, hnext]
        exact Receiver.handleNext_handled hcall hcheck hrun
      · rw [hlog', hlog₂, hlog, List.append_assoc]
        rfl

theorem sane_handleAllPackets {fuel : Nat} {events : List ReceiveEvent} (hsane : Sane a)
    (h : (receiver env).handleAllPackets fuel a = .ok (events, a')) : Sane a' := by
  induction fuel generalizing a events with
  | zero => cases h
  | succ fuel ih =>
      rw [Receiver.handleAllPackets_succ] at h
      obtain ⟨⟨a₀, found⟩, hnext, h⟩ := exists_of_bind_ok h
      obtain ⟨bytes, hring⟩ := hsane
      obtain ⟨ring, rest, rfl, hring₀, -⟩ :=
        (receiver env).nextPacket_ring (by decide) hring hnext
      cases found with
      | none =>
          cases h
          exact ⟨rest, hring₀⟩
      | some packet =>
          obtain ⟨packetType, bb⟩ := packet
          obtain ⟨⟨handled, bb', a₁⟩, hcall, h⟩ := exists_of_bind_ok h
          have hsane₁ : Sane a₁ := by
            rcases handlePacket_cases hcall with hgoes | ⟨-, hsigned, -⟩
            · exact ⟨rest, hgoes.2 ▸ hring₀⟩
            · exact ⟨[], hsigned.receivedData ▸ hring₀.clearAll⟩
          cases handled with
          | false =>
              cases h
              exact hsane₁
          | true =>
              obtain ⟨⟨errors, a₂⟩, hcheck, h⟩ := exists_of_bind_ok h
              obtain ⟨⟨more, a₃⟩, hrun, h⟩ := exists_of_bind_ok h
              cases h
              obtain ⟨-, hring₂, -⟩ := checkPacketRead_same hcheck
              obtain ⟨left, hleft⟩ := hsane₁
              exact ih ⟨left, hring₂ ▸ hleft⟩ hrun

theorem sane_addReceivedData {data : List UInt8} {events : List ReceiveEvent} (hsane : Sane a)
    (h : (receiver env).addReceivedData a data = .ok (events, a')) : Sane a' := by
  obtain ⟨bytes, hring⟩ := hsane
  have hring : Holds ((receiver env).receivedData a) (16 * 1024) bytes bytes := hring
  rw [Receiver.addReceivedData] at h
  by_cases hfits : bytes.length + data.length ≤ 16 * 1024
  · obtain ⟨ring, hwrite, hring'⟩ := hring.write hfits
    rw [hwrite, Checked.ok_bind] at h
    simp only [not_true_eq_false, if_false, hring'.getUsedSpace, Checked.ok_bind] at h
    exact sane_handleAllPackets ⟨_, hring'⟩ h
  · rw [hring.write_of_full (by omega), Checked.ok_bind] at h
    cases h
    exact ⟨bytes, hring⟩

/-- Decoding a piece moves the decryptor. -/
theorem decode_same {encrypted : Bool} {piece bytes : List UInt8} {mode : Mode}
    (h : (receiver env).decode encrypted a piece = .ok (mode, bytes, a')) :
    a'.log = a.log ∧ a'.link.receivedData = a.link.receivedData := by
  unfold Receiver.decode at h
  split at h
  · rw [Receiver.decrypt] at h
    cases hdecryptor : (receiver env).decryptor a with
    | none =>
        rw [hdecryptor] at h
        cases h
    | some c =>
        rw [hdecryptor] at h
        cases h
        exact ⟨rfl, rfl⟩
  · cases h
    exact ⟨rfl, rfl⟩

theorem sane_pieces {encrypted : Bool} {pieces : List (List UInt8)}
    {trace trace' : List ReceiveEvent × Conductor} (hsane : Sane trace.2)
    (h : pieces.foldlM ((receiver env).receivePiece encrypted) trace = .ok trace') :
    Sane trace'.2 := by
  have hall : Ends (fun _ => True) (fun t : List ReceiveEvent × Conductor => Sane t.2)
      (pieces.foldlM ((receiver env).receivePiece encrypted) trace) := by
    refine .foldlM hsane fun t piece _ ht => .of_forall (fun _ _ => trivial) fun t' h => ?_
    obtain ⟨⟨mode, bytes, a₁⟩, hdecode, h⟩ := exists_of_bind_ok h
    obtain ⟨⟨events, a₂⟩, hadd, h⟩ := exists_of_bind_ok h
    cases h
    obtain ⟨left, hleft⟩ := ht
    exact sane_addReceivedData ⟨left, (decode_same hdecode).2 ▸ hleft⟩ hadd
  exact hall.value h

/-- The piece in which the client signs out is taken to its end. -/
theorem receivePiece_signsOut {encrypted : Bool} {piece : List UInt8}
    {trace : List ReceiveEvent × Conductor} (hsane : Sane trace.2)
    (h : SignsOutIn env encrypted trace.2 piece) :
    ∃ trace', (receiver env).receivePiece encrypted trace piece = .ok trace'
      ∧ Over trace.2 trace'.2 := by
  obtain ⟨mode, bytes, a₁, ring, hdecode, hwrite, hsigns⟩ := h
  obtain ⟨hlog₁, hring₁⟩ := decode_same hdecode
  obtain ⟨waiting, hwaiting⟩ := hsane
  have hwaiting₁ : Holds a₁.link.receivedData (16 * 1024) waiting waiting := hring₁ ▸ hwaiting
  by_cases hfits : waiting.length + bytes.length ≤ 16 * 1024
  · obtain ⟨ring', hwrite', hring'⟩ := hwaiting₁.write hfits
    rw [hwrite] at hwrite'
    cases hwrite'
    obtain ⟨events, a', hrun, ⟨count, hlog'⟩, hfresh⟩ :=
      handleAllPackets_signsOut hsigns hring' (Nat.lt_succ_self _)
    refine ⟨(trace.1 ++ .decoded mode bytes :: events, a'), ?_, ⟨count, hlog₁ ▸ hlog'⟩, hfresh⟩
    have hadd : (receiver env).addReceivedData a₁ bytes = .ok (events, a') := by
      rw [Receiver.addReceivedData]
      change (a₁.link.receivedData.write bytes >>= _) = _
      rw [hwrite, Checked.ok_bind]
      simp only [not_true_eq_false, if_false, hring'.getUsedSpace, Checked.ok_bind]
      exact hrun
    rw [Receiver.receivePiece, hdecode, Checked.ok_bind]
    simp only [hadd, Checked.ok_bind, Checked.pure_eq_ok]
  · rw [hwaiting₁.write_of_full (by omega)] at hwrite
    cases hwrite

/-- The decryptor is gone when the next piece comes. -/
theorem receivePiece_reset {piece : List UInt8} {trace : List ReceiveEvent × Conductor}
    (h : Reset trace.2.link.client) :
    (receiver env).receivePiece true trace piece = .error .nullPointer := by
  have hdecryptor : (receiver env).decryptor trace.2 = none := h.decryptor
  rw [Receiver.receivePiece, Receiver.decode, if_pos rfl, Receiver.decrypt, hdecryptor]
  rfl

end Loops

/-! ### Calls -/

/-- Nothing comes after the packet that signs out, and the client is as new. -/
def Clean (env : Env) (a : Conductor) (data : List UInt8) : Prop :=
  ∃ events a', a.dataReceived env data = .ok (events, a')
    ∧ (∃ count, a'.log = List.replicate count .handlePacket ++ [.signOut]) ∧ Fresh a'.link

theorem sane_of_run {env : Env} {userName : AString} {actions : List Action} {a : Conductor}
    (hrun : Run (Step env) (create userName) actions a) : Sane a := by
  refine hrun.invariant ⟨[], holds_create _ _⟩ ?_
  rintro a action a' ⟨waiting, hwaiting⟩ hstep
  cases action with
  | joinChannel server room =>
      cases hstep
      exact ⟨waiting, hwaiting⟩
  | onConnect =>
      obtain ⟨c, -, hstep⟩ := exists_of_bind_ok hstep
      cases hstep
      exact ⟨waiting, hwaiting⟩
  | onRead data =>
      obtain ⟨⟨events, a₁⟩, hcall, hstep⟩ := exists_of_bind_ok hstep
      cases hstep
      rw [dataReceived, Receiver.dataReceived_eq_foldlM] at hcall
      have hsane : Sane { a with log := [] } := ⟨waiting, hwaiting⟩
      exact sane_pieces hsane hcall
  | sendToChannel room clientID msg =>
      obtain ⟨c, -, hstep⟩ := exists_of_bind_ok hstep
      cases hstep
      exact ⟨waiting, hwaiting⟩
  | leaveChannel room =>
      obtain ⟨c, -, hstep⟩ := exists_of_bind_ok hstep
      cases hstep
      exact ⟨waiting, hwaiting⟩
  | signOut =>
      cases hstep
      exact ⟨[], hwaiting.clearAll⟩
  | onClose =>
      cases hstep
      exact ⟨waiting, hwaiting⟩

section Calls

variable {env : Env} {a : Conductor} {data piece : List UInt8} {before after : List (List UInt8)}
  {trace : List ReceiveEvent × Conductor}

theorem dataReceived_of_last (hsane : Sane a)
    (hpieces : (receiver env).pieces a data = before ++ [piece])
    (hbefore : before.foldlM ((receiver env).receivePiece a.link.client.isEncrypted)
      ([], { a with log := [] }) = .ok trace)
    (hquiet : .signOut ∉ trace.2.log)
    (hsigns : SignsOutIn env a.link.client.isEncrypted trace.2 piece) : Clean env a data := by
  have hsane₁ : Sane trace.2 := sane_pieces hsane hbefore
  obtain ⟨⟨events, a'⟩, hlast, ⟨count, hlog⟩, hfresh⟩ := receivePiece_signsOut hsane₁ hsigns
  refine ⟨events, a', ?_, ⟨trace.2.log.length + count, ?_⟩, hfresh⟩
  · rw [dataReceived, Receiver.dataReceived_eq_foldlM]
    change ((receiver env).pieces a data).foldlM
      ((receiver env).receivePiece a.link.client.isEncrypted) _ = _
    rw [hpieces, List.foldlM_append, hbefore, Checked.ok_bind, List.foldlM_cons, hlast]
    rfl
  · have hpackets : trace.2.log = List.replicate trace.2.log.length .handlePacket := by
      refine List.eq_replicate_of_mem fun note hnote => ?_
      cases note with
      | handlePacket => rfl
      | signOut => exact absurd hnote hquiet
    rw [hlog, List.replicate_add, List.append_assoc, ← hpackets]

/-- With another piece to come the loop uses the decryptor that `SignOut` has released. -/
theorem dataReceived_of_more (hsane : Sane a)
    (hpieces : (receiver env).pieces a data = before ++ piece :: after) (hmore : after ≠ [])
    (hbefore : before.foldlM ((receiver env).receivePiece a.link.client.isEncrypted)
      ([], { a with log := [] }) = .ok trace)
    (hsigns : SignsOutIn env a.link.client.isEncrypted trace.2 piece) :
    a.dataReceived env data = .error .nullPointer := by
  have hsane₁ : Sane trace.2 := sane_pieces hsane hbefore
  obtain ⟨trace', hlast, -, hfresh⟩ := receivePiece_signsOut hsane₁ hsigns
  obtain ⟨piece', after, rfl⟩ := List.exists_cons_of_ne_nil hmore
  have hencrypted : a.link.client.isEncrypted = true := by
    by_contra hplain
    have hone : (receiver env).pieces a data = [data] := if_neg hplain
    have hlength := congrArg List.length (hone.symm.trans hpieces)
    simp at hlength
    omega
  rw [dataReceived, Receiver.dataReceived_eq_foldlM]
  change ((receiver env).pieces a data).foldlM
    ((receiver env).receivePiece a.link.client.isEncrypted) _ = _
  rw [hpieces, List.foldlM_append, hbefore, Checked.ok_bind, List.foldlM_cons, hlast,
    Checked.ok_bind, List.foldlM_cons, hencrypted, receivePiece_reset hfresh.client]
  rfl

end Calls

/-- **Signing out in a call.** A call in which the client signs out is clean exactly if the piece
with the packet is the last one of the call: a call on the plain link has one piece only, a call on
the encrypted link one for every 512 bytes. -/
theorem signOut_clean_iff (env : Env) (userName : AString) (actions : List Action) (a : Conductor)
    (data piece : List UInt8) (before after : List (List UInt8))
    (trace : List ReceiveEvent × Conductor)
    (hrun : Run (Step env) (create userName) actions a)
    (hpieces : (receiver env).pieces a data = before ++ piece :: after)
    (hbefore : before.foldlM ((receiver env).receivePiece a.link.client.isEncrypted)
      ([], { a with log := [] }) = .ok trace)
    (hquiet : .signOut ∉ trace.2.log)
    (hsigns : SignsOutIn env a.link.client.isEncrypted trace.2 piece) :
    Clean env a data ↔ after = [] := by
  have hsane := sane_of_run hrun
  constructor
  · rintro ⟨events, a', hcall, -⟩
    by_contra hmore
    rw [dataReceived_of_more hsane hpieces hmore hbefore hsigns] at hcall
    cases hcall
  · rintro rfl
    exact dataReceived_of_last hsane hpieces hbefore hquiet hsigns

/-! ### A client that is turned away -/

section TurnedAway

variable {env : Env} {a : Conductor}

/-- A whole packet on the plain link whose handler does not sign out. -/
theorem step_packet {q : Packet} {P : ConnectionClient → Prop}
    (hplain : a.link.client.isEncrypted = false)
    (hring : Holds a.link.receivedData (16 * 1024) [] []) (hfit : q.frame.length ≤ 16 * 1024)
    (hstays : signingHandlerOf a.link.client.state q.packetType = none)
    (hhandle : ∀ bb, q.Buffered bb → ∃ bb' c',
      a.link.client.handlePacket env bb q.packetType = .ok (true, bb', c')
        ∧ Holds bb' (q.bytes.length + 1) (q.bytes ++ [0]) [0] ∧ P c') :
    ∃ a', Step env a (.onRead q.frame) a' ∧ P a'.link.client
      ∧ Holds a'.link.receivedData (16 * 1024) [] [] := by
  obtain ⟨events, a', hrun, hP, hring'⟩ := Receiver.addReceivedData_handled (R := receiver env)
    (s := { a with log := [] }) (P := fun a => P a.link.client) hring (by decide) hfit (by
      intro ring₀ ring bb hbb
      obtain ⟨bb', c', hcall, hbb', hc'⟩ := hhandle bb hbb
      refine ⟨bb', ⟨⟨ring, c'⟩, [.handlePacket]⟩, ?_, hbb'.getReadableSpace, rfl, hc'⟩
      change (match signingHandlerOf a.link.client.state q.packetType with
        | some handler => _
        | none => a.link.client.handlePacket env bb q.packetType >>= _) = _
      rw [hstays, hcall]
      rfl)
    fun _ _ h => h
  refine ⟨a', ?_, hP, hring'⟩
  have hcall : a.dataReceived env q.frame = .ok (.decoded .plain q.frame :: events, a') := by
    rw [dataReceived, Receiver.dataReceived]
    change (if a.link.client.isEncrypted = true then _ else _) = _
    rw [hplain, if_neg Bool.false_ne_true, hrun]
    rfl
  change (a.dataReceived env q.frame >>= _) = _
  rw [hcall]
  rfl

/-- What a server sends to a client that asks for its status. -/
def statusPacket : Packet :=
  ⟨0x00, fieldsBytes [.beInt32 2, .bool false, .bool true, .string (ascii "10.0.0.7")]⟩

def keyPacket : Packet :=
  ⟨0x01, fieldsBytes [.string (ascii "-"), .beInt16 (UInt16.ofNat [0x30, 0x00].length).toInt16,
    .buf [0x30, 0x00], .beInt16 4, .beInt32 (77 : UInt32).toInt32]⟩

def disconnectPacket : Packet := ⟨0x00, fieldsBytes [.beInt32 1]⟩

/-- The cipher of a client's secret. -/
def secretCipher (env : Env) : AesCfb128 :=
  AesCfb128.init (toBlock (ConnectionClient.sharedSecret env))
    (toBlock (ConnectionClient.sharedSecret env))

/-- A client that has switched to its secret and waits to be let in. -/
structure Switched (env : Env) (c : ConnectionClient) : Prop where
  state : c.state = 2
  isEncrypted : c.isEncrypted = true
  decryptor : c.decryptor = some (secretCipher env)

theorem step_status (hsend : a.link.client.CanSend) (hplain : a.link.client.isEncrypted = false)
    (hstate : a.link.client.state = 1) (hring : Holds a.link.receivedData (16 * 1024) [] []) :
    ∃ a', Step env a (.onRead statusPacket.frame) a'
      ∧ (a'.link.client.Ready ∧ a'.link.client.state = 2 ∧ a'.link.client.isEncrypted = false)
      ∧ Holds a'.link.receivedData (16 * 1024) [] [] := by
  refine step_packet (q := statusPacket)
    (P := fun c => c.Ready ∧ c.state = 2 ∧ c.isEncrypted = false) hplain hring (by decide)
    (by rw [hstate]; rfl) fun bb hbb => ?_
  obtain ⟨bb', c', hcall, hbb', hready, out, rfl⟩ :=
    ConnectionClient.handlePacket_statusResponse hsend hstate (by decide) hbb
  exact ⟨bb', _, hcall, hbb', hready, rfl, hplain⟩

theorem step_key (hanswers : ∀ data, ∃ out, env.encrypt [0x30, 0x00] data = some out ∧ out.length = 128)
    (hready : a.link.client.Ready) (hplain : a.link.client.isEncrypted = false)
    (hstate : a.link.client.state = 2) (hring : Holds a.link.receivedData (16 * 1024) [] []) :
    ∃ a', Step env a (.onRead keyPacket.frame) a' ∧ Switched env a'.link.client
      ∧ Holds a'.link.receivedData (16 * 1024) [] [] := by
  refine step_packet (q := keyPacket) hplain hring (by decide) (by rw [hstate]; rfl) fun bb hbb => ?_
  obtain ⟨encryptedSecret, hsecret, hsecretLength⟩ := hanswers (ConnectionClient.sharedSecret env)
  obtain ⟨encryptedNonce, hnonce, hnonceLength⟩ := hanswers (littleEndian 4 (77 : UInt32).toNat)
  obtain ⟨c₁, hkey, -, out, rfl⟩ := ConnectionClient.sendEncryptionKeyResponse_of_some hready hsecret
    hnonce hsecretLength hnonceLength
  have hbytes : Holds bb (keyPacket.bytes.length + 1) (keyPacket.bytes ++ [0]) (fieldsBytes
      [.string (ascii "-"), .beInt16 (UInt16.ofNat [0x30, 0x00].length).toInt16,
        .buf [0x30, 0x00], .beInt16 4, .beInt32 (77 : UInt32).toInt32] ++ [0]) := hbb
  obtain ⟨bb', hcall, hbb'⟩ := ConnectionClient.handlePacket_keyRequest hstate
    (show (ascii "-").length < 2 ^ 32 by decide)
    (show ([0x30, 0x00] : AString).length < 2 ^ 15 by decide) hbytes hkey
  exact ⟨bb', _, hcall, hbb', hstate, rfl, rfl⟩

/-- What happens until a client has switched to its secret. -/
def switchActions : List Action :=
  [.joinChannel (ascii "10.0.0.1") (ascii "lobby"), .onConnect, .onRead statusPacket.frame,
    .onRead keyPacket.frame]

/-- The client after the first of these. -/
def joined (userName : AString) : Conductor :=
  ⟨⟨ByteBuffer.create (16 * 1024),
    (ConnectionClient.create userName).joinChannel (ascii "10.0.0.1") (ascii "lobby")⟩, []⟩

theorem run_switched
    (hanswers : ∀ data, ∃ out, env.encrypt [0x30, 0x00] data = some out ∧ out.length = 128)
    (userName : AString) :
    ∃ a, Run (Step env) (create userName) switchActions a ∧ Switched env a.link.client
      ∧ Holds a.link.receivedData (16 * 1024) [] [] := by
  have hjoin : Step env (create userName) (.joinChannel (ascii "10.0.0.1") (ascii "lobby"))
      (joined userName) := rfl
  have hsend : ({ (joined userName).link.client with bConnect := true } :
      ConnectionClient).CanSend := ⟨holds_create _ _, nofun⟩
  obtain ⟨c₂, hpacket, hready₂, out, hc₂⟩ := ConnectionClient.packet_of_fit env hsend
    (show (packetBytes 0x00 (fieldsBytes [.string (ascii "mcu"),
      .string ConnectionClient.defaultServer, .beInt32 ConnectionClient.defaultPort,
      .beInt32 2])).length ≤ 16 * 1024 by decide)
  have hplain₂ : c₂.isEncrypted = false := by
    rw [hc₂]
    rfl
  have hconnect : Step env (joined userName) .onConnect
      ⟨⟨ByteBuffer.create (16 * 1024), c₂⟩, []⟩ := by
    change ((joined userName).link.client.onConnect env >>= _) = _
    rw [ConnectionClient.onConnect, hpacket]
    rfl
  obtain ⟨a₃, hstatus, ⟨hready₃, hstate₃, hplain₃⟩, hring₃⟩ :=
    step_status (a := ⟨⟨ByteBuffer.create (16 * 1024), c₂⟩, []⟩)
      ⟨hready₂, fun hencrypted => by simp [hplain₂] at hencrypted⟩ hplain₂ (by rw [hc₂]; rfl)
      (holds_create _ _)
  obtain ⟨a₄, hkey, hswitched, hring₄⟩ := step_key hanswers hready₃ hplain₃ hstate₃ hring₃
  exact ⟨a₄, (((Run.nil.snoc hjoin).snoc hconnect).snoc hstatus).snoc hkey, hswitched, hring₄⟩

/-- The bytes of a server that turns the client away. -/
def turnedAway (env : Env) (more : List UInt8) : List UInt8 :=
  (AesCfb128.encryptData env.aesCryptEcb (secretCipher env) (disconnectPacket.frame ++ more)).1

theorem handlePacket_disconnect (env : Env) (hstate : a.link.client.state = 2) {bb : ByteBuffer}
    (hbb : disconnectPacket.Buffered bb) :
    ∃ bb' a', a.handlePacket env bb 0x00 = .ok (true, bb', a')
      ∧ a'.log = a.log ++ [.handlePacket, .signOut] := by
  obtain ⟨bb', hread, -⟩ := decodes_readBEInt32 1 hbb
  refine ⟨bb', a.noted.handleErrorCode 1, ?_, List.append_assoc a.log [.handlePacket] [.signOut]⟩
  rw [handlePacket, hstate]
  change (handlePacketReason a.noted bb >>= _) = _
  rw [handlePacketReason, handleRead_some hread]
  rfl

theorem signsOutIn_turnedAway (hswitched : Switched env a.link.client)
    (hring : Holds a.link.receivedData (16 * 1024) [] []) {more : List UInt8}
    (hmore : more.length ≤ 512) : SignsOutIn env true a (turnedAway env more) := by
  obtain ⟨cipher, hcipher⟩ : ∃ cipher, cipher = (AesCfb128.encryptData env.aesCryptEcb
      (secretCipher env) (disconnectPacket.frame ++ more)).2 := ⟨_, rfl⟩
  have hdecode : (receiver env).decode true a (turnedAway env more)
      = .ok (.encrypted (secretCipher env).processed, disconnectPacket.frame ++ more,
        (receiver env).setDecryptor cipher a) := by
    have hdecryptor : (receiver env).decryptor a = some (secretCipher env) := hswitched.decryptor
    rw [Receiver.decode, if_pos rfl, Receiver.decrypt, hdecryptor, hcipher, turnedAway]
    change Except.ok (_, (AesCfb128.decryptData env.aesCryptEcb (secretCipher env) _).1,
      (receiver env).setDecryptor (AesCfb128.decryptData env.aesCryptEcb _ _).2 a) = _
    rw [AesCfb128.decryptData_encryptData]
  have hlength : disconnectPacket.frame.length = 6 := by decide
  obtain ⟨ring, hwrite, hring'⟩ := hring.write (show ([] : List UInt8).length
    + (disconnectPacket.frame ++ more).length ≤ 16 * 1024 by
      rw [List.length_append, hlength, List.length_nil]
      omega)
  rw [List.nil_append] at hring'
  refine ⟨_, _, _, ring, hdecode, hwrite, ?_⟩
  obtain ⟨ring₁, bb, hring₁, hbb, hnext⟩ := Receiver.nextPacket_frame (R := receiver env)
    (s := ⟨⟨ring, { a.link.client with decryptor := some cipher }⟩, a.log⟩) hring' (by decide)
  obtain ⟨bb', a', hcall, hlog⟩ := handlePacket_disconnect env
    (a := ⟨⟨ring₁, { a.link.client with decryptor := some cipher }⟩, a.log⟩) hswitched.state hbb
  exact .now hnext hcall hlog

theorem turnedAway_length (env : Env) (more : List UInt8) :
    (turnedAway env more).length = more.length + 6 := by
  have hlength : disconnectPacket.frame.length = 6 := by decide
  rw [turnedAway, AesCfb128.length_encryptData, List.length_append, hlength, Nat.add_comm]

theorem turnedAway_take (env : Env) (more : List UInt8) :
    (turnedAway env more).take 512 = turnedAway env (more.take 506) := by
  have hlength : disconnectPacket.frame.length = 6 := by decide
  rw [turnedAway, AesCfb128.encryptData_take, List.take_append, hlength,
    List.take_of_length_le (by rw [hlength]; decide), turnedAway]

theorem pieces_turnedAway (env : Env) (hencrypted : a.link.client.isEncrypted = true) (more : List UInt8) :
    (receiver env).pieces a (turnedAway env more) = turnedAway env (more.take 506)
      :: Receiver.chunksOf 512 (more.length + 5) ((turnedAway env more).drop 512) := by
  have hlength := turnedAway_length env more
  have hne : turnedAway env more ≠ [] := List.ne_nil_of_length_pos (by omega)
  have hpieces : (receiver env).pieces a (turnedAway env more)
      = Receiver.chunksOf 512 (turnedAway env more).length (turnedAway env more) :=
    if_pos hencrypted
  rw [hpieces, hlength, Receiver.chunksOf_of_ne_nil _ hne, turnedAway_take]

end TurnedAway

/-- A client whose blocks are not changed and whose key is padded. -/
def paddingEnv : Env where
  aesCryptEcb := fun _ block => block
  rand := fun i => i
  encrypt := fun _ data => some ((data ++ List.replicate 128 0).take 128)

theorem paddingEnv_answers (data : List UInt8) :
    ∃ out, paddingEnv.encrypt [0x30, 0x00] data = some out ∧ out.length = 128 := by
  refine ⟨_, rfl, ?_⟩
  rw [List.length_take, List.length_append, List.length_replicate]
  omega

/-- A client that is turned away with 600 more bytes in the same call. -/
theorem signOut_uses_decryptor :
    ∃ a piece after, Run (Step paddingEnv) (create (ascii "eve")) switchActions a
      ∧ (receiver paddingEnv).pieces a (turnedAway paddingEnv (List.replicate 600 0))
        = piece :: after
      ∧ SignsOutIn paddingEnv a.link.client.isEncrypted { a with log := [] } piece
      ∧ ¬ Clean paddingEnv a (turnedAway paddingEnv (List.replicate 600 0)) := by
  obtain ⟨a, hrun, hswitched, hring⟩ := run_switched paddingEnv_answers (ascii "eve")
  have hpieces := pieces_turnedAway paddingEnv hswitched.isEncrypted (List.replicate 600 0)
  have hsigns : SignsOutIn paddingEnv a.link.client.isEncrypted { a with log := [] }
      (turnedAway paddingEnv ((List.replicate 600 0).take 506)) := by
    rw [hswitched.isEncrypted]
    refine signsOutIn_turnedAway (a := { a with log := [] }) hswitched hring ?_
    rw [List.length_take]
    omega
  refine ⟨a, _, _, hrun, hpieces, hsigns, ?_⟩
  rintro ⟨events, a', hcall, -⟩
  have hmore : Receiver.chunksOf 512 ((List.replicate 600 (0 : UInt8)).length + 5)
      ((turnedAway paddingEnv (List.replicate 600 0)).drop 512) ≠ [] := by
    rw [Receiver.chunksOf_of_ne_nil]
    · exact List.cons_ne_nil _ _
    · refine List.ne_nil_of_length_pos ?_
      rw [List.length_drop, turnedAway_length, List.length_replicate]
      decide
  have herror := dataReceived_of_more (sane_of_run hrun) (hpieces.trans (List.nil_append _).symm)
    hmore rfl hsigns
  cases herror.symm.trans hcall

/-- A client that is turned away and hears no more. -/
theorem signOut_clean_iff_turnedAway :
    ∃ a, Run (Step paddingEnv) (create (ascii "eve")) switchActions a
      ∧ Clean paddingEnv a (turnedAway paddingEnv []) := by
  obtain ⟨a, hrun, hswitched, hring⟩ := run_switched paddingEnv_answers (ascii "eve")
  have hsigns : SignsOutIn paddingEnv a.link.client.isEncrypted { a with log := [] }
      (turnedAway paddingEnv []) := by
    rw [hswitched.isEncrypted]
    exact signsOutIn_turnedAway (a := { a with log := [] }) hswitched hring (Nat.zero_le 512)
  have hpieces : (receiver paddingEnv).pieces a (turnedAway paddingEnv [])
      = [] ++ turnedAway paddingEnv [] :: [] := by
    rw [pieces_turnedAway paddingEnv hswitched.isEncrypted]
    rfl
  refine ⟨a, hrun, ?_⟩
  exact (signOut_clean_iff paddingEnv (ascii "eve") switchActions a _ _ _ _ _ hrun hpieces rfl
    List.not_mem_nil hsigns).mpr rfl

end Conductor

end Licode.Client
