import Licode.Channel.Subscribers
import Licode.Server.Clients
import Licode.Server.LoginSession
import Licode.Server.Verify

/-!
# Packets that do not fit

What one client sends comes back to others inside larger packets: the name of a channel, in each of
the notices about its members. A notice that does not fit into the out buffer fails a `VERIFY`, which
ends the process. The invariant bounds every name by the frame in which it came, so that results can
always be told, and for the members of a room by the length of the notices about them.
-/

namespace Licode

open ByteBuffer Channel

namespace Server

namespace World

/-! ### Sizes -/

/-- The name of a channel leaves room for the notices about a client: the packet type, the client's
id, the length of the name, and a text of one byte of length and 32 characters around the id. -/
def LeavesRoom (channel : AString) (clientID : Int32) : Prop :=
  channel.length + (varInt32 clientID.toUInt32).length + (printInt clientID).length + 37 ≤ 64 * 1024

/-- The same for a message of a media connection, whose length may take three bytes. -/
def LeavesRoomFor (channel : AString) (fromID : Int32) (text : AString) : Prop :=
  channel.length + (varInt32 fromID.toUInt32).length + text.length + 7 ≤ 64 * 1024

/-- The client with this result can be told its result. -/
def ResultFits (channel : AString) : Prop := (stringBytes channel).length + 2 ≤ 64 * 1024

/-- The packet of a call fits into the out buffer of a client. -/
def OutputFits (styledWriter : AString → AString → AString) : Channel.Output → Prop
  | .onChannelMsg channel fromID _ body =>
      (packetBytes 0x02 (fieldsBytes [.varInt32 fromID.toUInt32, .string channel,
        .string (body.text styledWriter)])).length ≤ 64 * 1024
  | .onJoinChannelResult _ channel _ | .onLeaveChannelResult _ channel _ => ResultFits channel

theorem stringBytes_length_of_lt {s : AString} (groups : Nat) (h : s.length < 128 ^ (groups + 1)) :
    (stringBytes s).length ≤ s.length + groups + 1 := by
  have hlength : (varInt32 (UInt32.ofNat s.length)).length ≤ groups + 1 := by
    refine Base128.encode_length_le_of_lt ?_
    rw [UInt32.toNat_ofNat']
    exact (Nat.mod_le _ _).trans_lt h
  rw [stringBytes, List.length_append]
  omega

theorem ascii_length (s : String) : (ascii s).length = s.length := by
  rw [ascii, List.length_map, String.length_toList]

theorem printInt_length_le (id : Int32) : (printInt id).length ≤ 11 := by
  have hlow := id.le_toInt
  have hhigh := id.toInt_lt
  rw [printInt, ascii_length]
  cases hid : id.toInt with
  | ofNat n =>
      rw [hid, Int.ofNat_eq_natCast] at hhigh
      have hdigits : n.repr.length ≤ 10 := (Nat.length_repr_le_iff (by decide)).mpr (by omega)
      change n.repr.length ≤ 11
      omega
  | negSucc n =>
      have hdigits : (n + 1).repr.length ≤ 10 :=
        (Nat.length_repr_le_iff (by decide)).mpr (by omega)
      change ("-" ++ (n + 1).repr).length ≤ 11
      rw [String.length_append]
      change 1 + _ ≤ 11
      omega

theorem channelMsg_length {channel text : AString} {fromID : Int32} :
    (packetBytes 0x02 (fieldsBytes [.varInt32 fromID.toUInt32, .string channel,
      .string text])).length
      = 1 + (varInt32 fromID.toUInt32).length + (stringBytes channel).length
        + (stringBytes text).length := by
  rw [packetBytes, fieldsBytes_cons, fieldsBytes_cons, fieldsBytes_cons, fieldsBytes_nil,
    List.append_nil, List.length_append, List.length_append, List.length_append]
  change 1 + ((varInt32 _).length + ((stringBytes _).length + (stringBytes _).length)) = _
  omega

/-- A notice about a client. -/
theorem outputFits_notice {styledWriter : AString → AString → AString} {channel : AString}
    {clientID : Int32} (h : LeavesRoom channel clientID) {body : Body}
    (hbody : body = .online clientID ∨ body = .offline clientID ∨ body = .publisher clientID)
    (targetID : Int32) : OutputFits styledWriter (.onChannelMsg channel clientID targetID body) := by
  have hid := printInt_length_le clientID
  have htext : (body.text styledWriter).length ≤ (printInt clientID).length + 32 := by
    rcases hbody with rfl | rfl | rfl <;>
      simp only [Body.text, List.length_append]
    · change 28 + _ + 1 ≤ _
      omega
    · change 29 + _ + 1 ≤ _
      omega
    · change 31 + _ + 1 ≤ _
      omega
  have hstring := stringBytes_length_of_lt (s := body.text styledWriter) 0 (by omega)
  unfold LeavesRoom at h
  have hname := stringBytes_length_of_lt (s := channel) 2 (by omega)
  rw [OutputFits, channelMsg_length]
  omega

/-- Every client is between two calls. -/
def AllSane (clients : List ServerLink) : Prop := ∀ l ∈ clients, l.Sane

section Clients

variable {env : Env} {styledWriter : AString → AString → AString} {clients : List ServerLink}

end Clients

/-! ### The rooms -/

/-- An entry of a room: the notices about its client fit, and its peer is the client's own. -/
def EntryFits (channel : AString) (clientID : Int32) (entry : Option Peer) : Prop :=
  LeavesRoom channel clientID ∧ ∀ peer, entry = some peer → peer.id = clientID

structure RoomFits (channel : AString) (room : Room) : Prop where
  channelName : room.channelName = channel
  result : ResultFits channel
  entries : ∀ clientID entry, room.clients[clientID]? = some entry →
    EntryFits channel clientID entry

section Rooms

variable {styledWriter : AString → AString → AString} {channel : AString} {room : Room}

theorem RoomFits.replace (h : RoomFits channel room) {clientID : Int32} {entry : Option Peer}
    (hentry : EntryFits channel clientID entry) :
    RoomFits channel { room with clients := room.clients.insert clientID entry } := by
  refine ⟨h.channelName, h.result, ?_⟩
  intro other entry' hother
  dsimp only at hother
  rw [Std.ExtTreeMap.getElem?_insert] at hother
  split at hother
  · next heq =>
    obtain rfl := Std.LawfulEqCmp.compare_eq_iff_eq.mp heq
    cases hother
    exact hentry
  · exact h.entries other entry' hother

/-- Notices between members. -/
theorem RoomFits.notice (h : RoomFits channel room) {clientID : Int32} {body : Body}
    (hroom : LeavesRoom channel clientID)
    (hbody : body = .online clientID ∨ body = .offline clientID ∨ body = .publisher clientID)
    (targetID : Int32) :
    OutputFits styledWriter (room.sendMsgToPeer targetID clientID body) := by
  rw [Room.sendMsgToPeer, h.channelName]
  exact outputFits_notice hroom hbody targetID

/-- The message that an event passes on leaves room. -/
def MessageFits (styledWriter : AString → AString → AString) (channel : AString) (peerID : Int32)
    (message : AString) : WebRTCEvent → Prop
  | .connSdp | .connGathered =>
      LeavesRoomFor channel peerID (styledWriter message (ascii "answer"))
        ∧ LeavesRoomFor channel peerID (styledWriter message (ascii "offer"))
  | .connCandidate => LeavesRoomFor channel peerID message
  | .connInitial | .connStarted | .connReady | .connFinished | .connFailed => True

end Rooms

/-! ### The manager -/

/-- Every room is in order, and every event that names a channel can be answered. -/
structure ManagerFits (m : Manager) : Prop where
  rooms : ∀ channel room, m.rooms[channel]? = some room → RoomFits channel room
  queue : ∀ event ∈ m.queue, event.type ≠ .media → ResultFits event.channel

section Managers

variable {styledWriter : AString → AString → AString} {m : Manager}

theorem ManagerFits.putRoom (h : ManagerFits m) {channel : AString} {room : Room}
    (hroom : RoomFits channel room) : ManagerFits (m.putRoom channel room) := by
  refine ⟨?_, h.queue⟩
  intro other room' hother
  unfold Manager.putRoom at hother
  rw [Std.ExtTreeMap.getElem?_insert] at hother
  split at hother
  · next heq =>
    obtain rfl := Std.LawfulEqCmp.compare_eq_iff_eq.mp heq
    cases hother
    exact hroom
  · exact h.rooms other room' hother

theorem ManagerFits.doReleaseRoom (h : ManagerFits m) (channel : AString) :
    ManagerFits (m.doReleaseRoom channel) := by
  refine ⟨?_, h.queue⟩
  intro other room hother
  unfold Manager.doReleaseRoom at hother
  rw [Std.ExtTreeMap.getElem?_erase] at hother
  split at hother
  · cases hother
  · exact h.rooms other room hother

theorem ManagerFits.doGetRoomSet (h : ManagerFits m) {channel : AString}
    (hresult : ResultFits channel) : RoomFits channel (m.doGetRoomSet channel) := by
  unfold Manager.doGetRoomSet
  cases hroom : m.rooms[channel]? with
  | none =>
      refine ⟨rfl, hresult, ?_⟩
      intro clientID entry hentry
      simp [Room.create] at hentry
  | some room => exact h.rooms channel room hroom

theorem ManagerFits.addEvent (h : ManagerFits m) {event : MediaEvent}
    (hevent : event.type ≠ .media → ResultFits event.channel) : ManagerFits (m.addEvent event) := by
  refine ⟨h.rooms, ?_⟩
  intro other hother
  rcases List.mem_append.mp hother with hother | hother
  · exact h.queue other hother
  · rw [List.mem_singleton] at hother
    exact hother ▸ hevent

end Managers

/-! ### Runs -/

/-- The condition on a step. A client joins only channels whose name leaves room for the notices
about it, a message to a peer is one on which the JSON reader does not throw, and what a media
connection reports leaves room in its channel. -/
def Fits (styledWriter : AString → AString → AString) (parse : AString → Parsed) (w : World) :
    Action → Prop
  | .execute => ∀ event ∈ w.manager.queue.head?,
      (event.type = .join → LeavesRoom event.channel event.clientID)
        ∧ (event.type = .media → w.manager.HasPeer event.channel event.targetID →
          ¬ Throws parse event.msg)
  | .notifyClient channel clientID newEvent message
  | .notifySubscriber channel clientID _ newEvent message =>
      MessageFits styledWriter channel clientID message newEvent
  | _ => True

structure Inv (w : World) : Prop where
  clients : AllSane w.clients
  manager : ManagerFits w.manager
  outputs : w.manager.outputs = []

theorem inv_create : Inv create := by
  refine ⟨List.forall_mem_nil _, ⟨?_, List.forall_mem_nil _⟩, rfl⟩
  intro channel room hroom
  simp [create, Manager.create] at hroom

section Steps

variable {env : Env} {styledWriter : AString → AString → AString}
  {parse : AString → Parsed} {w : World}

end Steps

/-- A client that works in the clear, between two calls. -/
structure Stage (p : ProtocolImpl) (ticks : Nat) (state : UInt32) (clientState : EState)
    (requests : List Request) : Prop where
  ready : p.Ready
  plain : p.isEncrypted = false
  incoming : p.client.incomingData = []
  uniqueID : p.client.uniqueID = 1
  ipString : p.client.ipString.length ≤ 60000
  ticks : p.client.ticksSinceLastPacket = ticks
  state : p.state = state
  clientState : p.client.state = clientState
  requests : p.requests = requests

section Stages

variable {env : Env} {p p' : ProtocolImpl} {ticks : Nat} {state : UInt32} {clientState : EState}
  {requests : List Request}

theorem Stage.sent (h : Stage p ticks state clientState requests) {bytes : List UInt8}
    (hsent : p.Sent env bytes p') : Stage p' ticks state clientState requests := by
  obtain ⟨hready, out, len, rfl⟩ := hsent
  exact ⟨hready, h.plain, h.incoming, h.uniqueID, h.ipString, h.ticks, h.state, h.clientState,
    h.requests⟩

def joinPacket (channel : AString) : Packet := ⟨0x01, fieldsBytes [.string channel]⟩

end Stages

section LongName

variable {env : Env} {styledWriter : AString → AString → AString}
  {parse : AString → Parsed} {l : ServerLink} {m : Manager} {ticks : Nat} {state : UInt32}
  {clientState : EState} {requests : List Request}

/-- What a client does that joins a channel twice. -/
def joinActions (channel : AString) : List Action :=
  [.onReceivedData 0 (joinPacket channel).frame, .serverTick 0 false] ++ [.execute]
    ++ [.onReceivedData 0 (joinPacket channel).frame, .serverTick 0 false]

end LongName

end World

end Server

end Licode
