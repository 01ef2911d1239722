import Licode.Channel.Room

/-!
# The manager of the rooms

Requests of the clients are queued as events; a thread of its own takes them from the queue one by
one and deals with them. A room is made by the first event that names its channel and released after
a `LEAVE` that leaves it empty.

Each event on a channel is an event of the roster of its members (`Performs`), and leaves the other
channels alone. The results about whole runs rest on nothing else of this file.
-/

namespace Licode.Channel

inductive EventType where
  | none
  | join
  | leave
  | media
  deriving DecidableEq, Repr

/-- `cMediaEvent`. -/
structure MediaEvent where
  clientID : Int32
  channel : AString
  type : EventType
  msg : AString
  targetID : Int32
  deriving DecidableEq, Repr

structure Manager where
  rooms : StdMap AString Room
  queue : List MediaEvent
  outputs : List Output

namespace Manager

def create : Manager := ⟨∅, [], []⟩

/-- `cMediaEvent event(clientID, channel); event.SetType(type);`. -/
def mediaEvent (type : EventType) (clientID : Int32) (channel : AString) : MediaEvent :=
  ⟨clientID, channel, type, [], 0⟩

def addEvent (m : Manager) (event : MediaEvent) : Manager := { m with queue := m.queue ++ [event] }

def doUserJoinChannel (m : Manager) (clientID : Int32) (channel : AString) : Manager :=
  m.addEvent (mediaEvent .join clientID channel)

def doUserLeftChannel (m : Manager) (clientID : Int32) (channel : AString) : Manager :=
  m.addEvent (mediaEvent .leave clientID channel)

/-- `cManager::doUserOffline` asks every room there is to let the client go. -/
def doUserOffline (m : Manager) (clientID : Int32) : Manager :=
  m.rooms.toList.foldl (fun m channel =>
    m.addEvent (mediaEvent .leave clientID channel.2.channelName)) m

def onMsgFromPeer (m : Manager) (channel : AString) (fromID targetID : Int32) (msg : AString) :
    Manager :=
  m.addEvent { mediaEvent .media fromID channel with msg := msg, targetID := targetID }

def doGetRoom (m : Manager) (name : AString) : Option Room := m.rooms[name]?

/-- The room is stored back by `putRoom`. -/
def doGetRoomSet (m : Manager) (name : AString) : Room := (m.rooms[name]?).getD (Room.create name)

def putRoom (m : Manager) (name : AString) (room : Room) : Manager :=
  { m with rooms := m.rooms.insert name room }

def doReleaseRoom (m : Manager) (name : AString) : Manager := { m with rooms := m.rooms.erase name }

def output (m : Manager) (outputs : List Output) : Manager :=
  { m with outputs := m.outputs ++ outputs }

/-- The end of a `LEAVE`: a room without entries is released. -/
def releaseIfEmpty (m : Manager) (channel : AString) (room : Room) : Manager :=
  if room.getSize = 0 then m.doReleaseRoom channel else m

/-- `cManager::dealEvent`, over the JSON reader of the peers. -/
def dealEvent (parse : AString → Parsed) (m : Manager) (event : MediaEvent) :
    Checked Manager := do
  match event.type with
  | .join =>
      let room := m.doGetRoomSet event.channel
      let (ret, room, outputs) := room.onPeerJoined event.clientID
      return ((m.putRoom event.channel room).output outputs).output
        [.onJoinChannelResult event.clientID event.channel ret]
  | .leave =>
      let room := m.doGetRoomSet event.channel
      let (ret, room, outputs) ← room.onPeerLeaved event.clientID
      let m := ((m.putRoom event.channel room).output outputs).output
        [.onLeaveChannelResult event.clientID event.channel ret]
      return m.releaseIfEmpty event.channel room
  | .media =>
      match m.doGetRoom event.channel with
      | none => return m
      | some room =>
          let room ← room.onMsgFromPeer parse event.clientID event.targetID event.msg
          return m.putRoom event.channel room
  | .none => return m

/-- One round of `cManager::Execute`. -/
def execute (parse : AString → Parsed) (m : Manager) : Option (Checked Manager) :=
  match m.queue with
  | [] => none
  | event :: queue => some (({ m with queue := queue } : Manager).dealEvent parse event)

/-- An event of the publishing connection of a member of a channel. -/
def notifyClient (m : Manager) (channel : AString) (clientID : Int32) (newEvent : WebRTCEvent) :
    Option Manager := do
  let room ← m.rooms[channel]?
  let (room, outputs) ← room.notifyClient clientID newEvent []
  return (m.putRoom channel room).output outputs

/-- Who is in a channel, and who of them is ready. -/
def status (m : Manager) (channel : AString) : Roster.Status Int32 :=
  (m.doGetRoomSet channel).status

/-- The rooms are in order, each under its own name. -/
def Sound (m : Manager) : Prop :=
  ∀ (name : AString) (room : Room), m.rooms[name]? = some room →
    room.channelName = name ∧ room.Sound

theorem sound_create : create.Sound := by
  intro name room hroom
  simp [create] at hroom

theorem status_create (channel : AString) (clientID : Int32) : create.status channel clientID = none := by
  simp [create, status, doGetRoomSet, Room.create, Room.status]

theorem status_of_room {m : Manager} {channel : AString} {room : Room}
    (hroom : m.rooms[channel]? = some room) : m.status channel = room.status := by
  rw [status, doGetRoomSet, hroom]
  rfl

theorem Sound.doGetRoomSet {m : Manager} (hsound : m.Sound) (name : AString) :
    (m.doGetRoomSet name).channelName = name ∧ (m.doGetRoomSet name).Sound := by
  unfold Manager.doGetRoomSet
  cases hroom : m.rooms[name]? with
  | none => exact ⟨rfl, Room.sound_create name⟩
  | some room => exact hsound name room hroom

/-- What is done to a channel, as an event of the roster of its members. -/
structure Performs (m : Manager) (channel : AString) (event : Roster.Event Int32) (m' : Manager) :
    Prop where
  sound : m'.Sound
  queue : m'.queue = m.queue
  outputs : ∃ new, m'.outputs = m.outputs ++ new
    ∧ Roster.Effect (m.status channel) event (m'.status channel) (letters channel new)
    ∧ ∀ other, other ≠ channel → letters other new = []
  frame : ∀ other, other ≠ channel → m'.status other = m.status other

theorem Sound.putRoom {m : Manager} (hsound : m.Sound) {name : AString} {room : Room}
    (hname : room.channelName = name) (hroom : room.Sound) : (m.putRoom name room).Sound := by
  intro other room' hother
  unfold Manager.putRoom at hother
  rw [Std.ExtTreeMap.getElem?_insert] at hother
  split at hother
  · next heq =>
    obtain rfl := Std.LawfulEqCmp.compare_eq_iff_eq.mp heq
    cases hother
    exact ⟨hname, hroom⟩
  · exact hsound other room' hother

theorem status_putRoom (m : Manager) (name : AString) (room : Room) :
    (m.putRoom name room).status = Function.update m.status name room.status := by
  funext other
  unfold status doGetRoomSet putRoom
  dsimp only
  rw [Std.ExtTreeMap.getElem?_insert]
  by_cases heq : other = name
  · subst heq
    simp
  · have hne : ¬ compare name other = .eq := by
      rw [Std.LawfulEqCmp.compare_eq_iff_eq]
      exact Ne.symm heq
    rw [if_neg hne, Function.update_of_ne heq]

theorem Sound.output {m : Manager} (hsound : m.Sound) (outputs : List Output) :
    (m.output outputs).Sound :=
  hsound

@[simp]
theorem status_output (m : Manager) (outputs : List Output) : (m.output outputs).status = m.status :=
  rfl

theorem Sound.doReleaseRoom {m : Manager} (hsound : m.Sound) (name : AString) :
    (m.doReleaseRoom name).Sound := by
  intro other room hother
  unfold Manager.doReleaseRoom at hother
  rw [Std.ExtTreeMap.getElem?_erase] at hother
  split at hother
  · cases hother
  · exact hsound other room hother

/-- Releasing an empty room changes nobody's standing. -/
theorem status_doReleaseRoom (m : Manager) (name : AString)
    (hempty : m.status name = fun _ => none) : (m.doReleaseRoom name).status = m.status := by
  funext other
  by_cases heq : other = name
  · subst heq
    rw [hempty]
    funext clientID
    simp [status, doGetRoomSet, doReleaseRoom, Room.create, Room.status]
  · unfold status doGetRoomSet doReleaseRoom
    dsimp only
    have hne : ¬ compare name other = .eq := by
      rw [Std.LawfulEqCmp.compare_eq_iff_eq]
      exact Ne.symm heq
    rw [Std.ExtTreeMap.getElem?_erase, if_neg hne]

/-- A room that has performed an event is put back. -/
theorem performs_putRoom {m : Manager} (hsound : m.Sound) {channel : AString}
    {event : Roster.Event Int32} {room' : Room} {outputs : List Output}
    (hroom : (m.doGetRoomSet channel).Performs event room' outputs) (results : List Output)
    (hresults : ∀ name, letters name results = []) :
    m.Performs channel event (((m.putRoom channel room').output outputs).output results) := by
  obtain ⟨hname, -⟩ := hsound.doGetRoomSet channel
  obtain ⟨hsound', hname', heffect, helse⟩ := hroom
  refine ⟨((hsound.putRoom (hname'.trans hname) hsound').output _).output _, rfl,
    ⟨outputs ++ results, List.append_assoc _ _ _, ?_, ?_⟩, ?_⟩
  · rw [letters_append, hresults, List.append_nil, status_output, status_output, status_putRoom,
      Function.update_self]
    rw [hname] at heffect
    exact heffect
  · intro other hne
    rw [letters_append, hresults, List.append_nil]
    exact helse other (hname.symm ▸ hne)
  · intro other hne
    rw [status_output, status_output, status_putRoom, Function.update_of_ne hne]

theorem performs_join (parse : AString → Parsed) {m : Manager} (hsound : m.Sound)
    (clientID : Int32) (channel : AString) :
    ∃ m', m.dealEvent parse (mediaEvent .join clientID channel) = .ok m'
      ∧ m.Performs channel (.join clientID) m' := by
  obtain ⟨room', outputs, hcall, hroom⟩ :=
    Room.performs_onPeerJoined (hsound.doGetRoomSet channel).2 clientID
  refine ⟨_, ?_, performs_putRoom hsound hroom
    [.onJoinChannelResult clientID channel true] fun _ => rfl⟩
  simp only [dealEvent, mediaEvent, hcall]
  rfl

/-- Nothing else changes when an empty room is released. -/
theorem Performs.releaseIfEmpty {m m' : Manager} {channel : AString} {event : Roster.Event Int32}
    (hperforms : m.Performs channel event m') (room : Room)
    (hroom : m'.status channel = room.status) :
    m.Performs channel event (m'.releaseIfEmpty channel room) := by
  unfold Manager.releaseIfEmpty
  split
  · next hsize =>
    have hempty : m'.status channel = fun _ => none := by
      have hclients : room.clients = ∅ := Std.ExtTreeMap.eq_empty_iff_size_eq_zero.mpr hsize
      rw [hroom]
      funext clientID
      rw [Room.status, hclients]
      rfl
    obtain ⟨hsound, hqueue, houtputs, hframe⟩ := hperforms
    have hsame := status_doReleaseRoom m' channel hempty
    refine ⟨hsound.doReleaseRoom channel, hqueue, ?_, ?_⟩
    · rw [hsame]
      exact houtputs
    · rw [hsame]
      exact hframe
  · exact hperforms

theorem performs_leave (parse : AString → Parsed) {m : Manager} (hsound : m.Sound)
    (clientID : Int32) (channel : AString) :
    ∃ m', m.dealEvent parse (mediaEvent .leave clientID channel) = .ok m'
      ∧ m.Performs channel (.leave clientID) m' := by
  obtain ⟨room', outputs, hcall, hroom⟩ :=
    Room.performs_onPeerLeaved (hsound.doGetRoomSet channel).2 clientID
  have hperforms := performs_putRoom hsound hroom
    [.onLeaveChannelResult clientID channel true] fun _ => rfl
  refine ⟨_, ?_, hperforms.releaseIfEmpty room' ?_⟩
  · simp only [dealEvent, mediaEvent, hcall]
    rfl
  · rw [status_output, status_output, status_putRoom, Function.update_self]

theorem performs_ready {m : Manager} (hsound : m.Sound) {channel : AString} {clientID : Int32}
    (hmember : m.status channel clientID ≠ none) :
    ∃ m', m.notifyClient channel clientID .connReady = some m'
      ∧ m.Performs channel (.ready clientID) m' := by
  obtain ⟨room', outputs, hcall, hroom⟩ :=
    Room.performs_notifyReady (hsound.doGetRoomSet channel).2 hmember
  refine ⟨_, ?_, performs_putRoom hsound hroom [] fun _ => rfl⟩
  cases hfind : m.rooms[channel]? with
  | none =>
      rw [status, doGetRoomSet, hfind] at hmember
      simp [Room.create, Room.status] at hmember
  | some room =>
      rw [doGetRoomSet, hfind] at hcall
      have hcall : room.notifyClient clientID .connReady [] = some (room', outputs) := hcall
      simp [notifyClient, hfind, hcall, output]

end Manager

end Licode.Channel
