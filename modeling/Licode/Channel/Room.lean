import Licode.Channel.Peer
import Licode.Lib.Roster

/-!
# A room and the notices among its members

The room keeps one `cPeer` for each member, under the client's id. A null pointer in the map is an
entry without a peer: `m_Clients[id]` makes one where there was no entry. Each function returns what
it hands to the server, in order.
-/

namespace Licode.Channel

/-- The calls of `cServer` that a room and the manager make. -/
inductive Output where
  | onChannelMsg (channel : AString) (fromID targetID : Int32) (body : Body)
  | onJoinChannelResult (clientID : Int32) (channel : AString) (ret : Bool)
  | onLeaveChannelResult (clientID : Int32) (channel : AString) (ret : Bool)
  deriving DecidableEq, Repr

/-- The notice about a member that a call passes on in a channel. -/
def Output.letter (channel : AString) : Output → Option (Roster.Letter Int32)
  | .onChannelMsg name _ targetID body =>
      if name = channel then
        match body with
        | .online clientID => some ⟨targetID, .online clientID⟩
        | .offline clientID => some ⟨targetID, .offline clientID⟩
        | .publisher clientID => some ⟨targetID, .publisher clientID⟩
        | _ => none
      else none
  | _ => none

def letters (channel : AString) (outputs : List Output) : List (Roster.Letter Int32) :=
  outputs.filterMap (Output.letter channel)

@[simp]
theorem letters_nil (channel : AString) : letters channel [] = [] := rfl

@[simp]
theorem letters_append (channel : AString) (outputs more : List Output) :
    letters channel (outputs ++ more) = letters channel outputs ++ letters channel more :=
  List.filterMap_append

structure Room where
  channelName : AString
  clients : StdMap Int32 (Option Peer)

namespace Room

def create (name : AString) : Room := ⟨name, ∅⟩

def getSize (room : Room) : Nat := room.clients.size

/-- `m_Callback->SendMsgToPeer(targetID, fromID, m_ChannelName, msg)`. -/
def sendMsgToPeer (room : Room) (targetID fromID : Int32) (body : Body) : Output :=
  .onChannelMsg room.channelName fromID targetID body

/-- The loop of `onPeerJoined`. -/
def announceOnline (room : Room) (clientID : Int32) : List Output :=
  room.clients.keys.flatMap fun client =>
    [room.sendMsgToPeer client clientID (.online clientID),
      room.sendMsgToPeer clientID client (.online client)]

/-- `m_Clients.insert` keeps the entry that is there. -/
def insertClient (room : Room) (clientID : Int32) (newHandle : Peer) : Room :=
  { room with clients := room.clients.insertIfNew clientID (some newHandle) }

/-- `cRoom::onPeerJoined`. -/
def onPeerJoined (room : Room) (clientID : Int32) : Bool × Room × List Output :=
  let (ok, newHandle) := (Peer.create clientID).doJoin
  if !ok then (false, room, [])
  else (true, room.insertClient clientID newHandle, room.announceOnline clientID)

def eraseClient (room : Room) (clientID : Int32) : Room :=
  { room with clients := room.clients.erase clientID }

/-- The entry of a leaving client, taken out of the map. -/
def takeClient (room : Room) (clientID : Int32) : Option Peer × Room :=
  match room.clients[clientID]? with
  | none => (none, room)
  | some newHandle => (newHandle, room.eraseClient clientID)

/-- The loop of `onPeerLeaved` over the entries that remain. -/
def announceOffline (clientID : Int32) :
    List (Int32 × Option Peer) → Peer → Room → Checked (Peer × Room × List Output)
  | [], newHandle, room => .ok (newHandle, room, [])
  | (_, none) :: _, _, _ => .error .nullPointer
  | (client, some peer) :: rest, newHandle, room => do
      let room := { room with
        clients := room.clients.insert client (some (peer.onUnSubscribed clientID)) }
      let (newHandle, room', outputs) ←
        announceOffline clientID rest (newHandle.onUnSubscribed client) room
      return (newHandle, room', room.sendMsgToPeer client clientID (.offline clientID) :: outputs)

/-- `cRoom::onPeerLeaved`. -/
def onPeerLeaved (room : Room) (clientID : Int32) : Checked (Bool × Room × List Output) := do
  match room.takeClient clientID with
  | (none, room) => return (true, room, [])
  | (some newHandle, room) =>
      let (_, room, outputs) ←
        announceOffline clientID room.clients.toList newHandle.doLeave room
      return (true, room, outputs)

/-- `cRoom::onMsgFromPeer`. -/
def onMsgFromPeer (parse : AString → Parsed) (room : Room) (fromID targetID : Int32)
    (msg : AString) : Checked Room := do
  match room.clients[targetID]? with
  | none => return room
  | some none => .error .nullPointer
  | some (some peer) =>
      let peer ← peer.onMsgFromPeer parse fromID msg
      return { room with clients := room.clients.insert targetID (some peer) }

/-- The loop of `BroadcastJoinChannel`. -/
def announcePublisher (room : Room) (clientID : Int32) : List Output :=
  room.clients.keys.flatMap fun client =>
    if client ≠ clientID then
      [room.sendMsgToPeer client clientID (.publisher clientID),
        room.sendMsgToPeer clientID client (.publisher client)]
    else []

/-- `cRoom::BroadcastJoinChannel`. -/
def broadcastJoinChannel (room : Room) (clientID : Int32) : Room × List Output :=
  match room.clients[clientID]? with
  | none => ({ room with clients := room.clients.insert clientID none }, [])
  | some none => (room, [])
  | some (some _) => (room, room.announcePublisher clientID)

/-- What the room does for a peer that reacts to an event. -/
def react (room : Room) (peerID : Int32) : Reaction → Room × List Output
  | .onJoinedChannel => room.broadcastJoinChannel peerID
  | .sendMsgToPeer target body => (room, [room.sendMsgToPeer target peerID body])
  | .nothing | .onSubscribedSuccess _ | .deleteListener => (room, [])

/-- An event of the publishing connection of a member. -/
def notifyClient (room : Room) (clientID : Int32) (newEvent : WebRTCEvent) (message : AString) :
    Option (Room × List Output) :=
  match room.clients[clientID]? with
  | none | some none => none
  | some (some peer) =>
      let (peer', reaction) := peer.notifyEvent newEvent message
      some (react { room with clients := room.clients.insert clientID (some peer') } peer.id reaction)

/-- `none` for a client that is not a member, else whether its peer is ready. -/
def status (room : Room) (clientID : Int32) : Option Bool :=
  room.clients[clientID]?.map fun entry => (entry.map Peer.ready).getD false

/-- Every entry has a peer, and it is the client's own. -/
def Sound (room : Room) : Prop :=
  ∀ clientID entry, room.clients[clientID]? = some entry →
    ∃ peer : Peer, entry = some peer ∧ peer.Sound clientID

theorem sound_create (name : AString) : (create name).Sound := by
  intro clientID entry hentry
  simp [create] at hentry

theorem status_ne_none {room : Room} {clientID : Int32} :
    room.status clientID ≠ none ↔ clientID ∈ room.clients := by
  rw [status, ne_eq, Option.map_eq_none_iff, Std.ExtTreeMap.mem_iff_isSome_getElem?,
    Option.isSome_iff_ne_none]

theorem Sound.peer {room : Room} (hsound : room.Sound) {clientID : Int32} {ready : Bool}
    (hstatus : room.status clientID = some ready) :
    ∃ peer : Peer, room.clients[clientID]? = some (some peer) ∧ peer.Sound clientID
      ∧ peer.ready = ready := by
  obtain ⟨entry, hentry, hready⟩ := Option.map_eq_some_iff.mp hstatus
  obtain ⟨peer, rfl, hpeer⟩ := hsound clientID entry hentry
  exact ⟨peer, hentry, hpeer, hready⟩

/-- Another peer for the same client, as ready as before. -/
theorem Sound.replace {room : Room} (hsound : room.Sound) {clientID : Int32} {peer : Peer}
    (hpeer : peer.Sound clientID) :
    ({ room with clients := room.clients.insert clientID (some peer) } : Room).Sound := by
  intro other entry hentry
  rw [Std.ExtTreeMap.getElem?_insert] at hentry
  split at hentry
  · next heq =>
    obtain rfl := Std.LawfulEqCmp.compare_eq_iff_eq.mp heq
    cases hentry
    exact ⟨peer, rfl, hpeer⟩
  · exact hsound other entry hentry

theorem status_replace (room : Room) (clientID : Int32) (peer : Peer) :
    ({ room with clients := room.clients.insert clientID (some peer) } : Room).status
      = Function.update room.status clientID (some peer.ready) := by
  funext other
  unfold status
  dsimp only
  rw [Std.ExtTreeMap.getElem?_insert]
  by_cases heq : other = clientID
  · subst heq
    simp
  · have hne : ¬ compare clientID other = .eq := by
      rw [Std.LawfulEqCmp.compare_eq_iff_eq]
      exact Ne.symm heq
    rw [if_neg hne, Function.update_of_ne heq]

theorem enumerates_keys (room : Room) : Roster.Enumerates room.clients.keys room.status := by
  constructor
  · refine List.Pairwise.imp ?_ room.clients.distinct_keys
    intro a b hne heq
    exact hne (Std.LawfulEqCmp.compare_eq_iff_eq.mpr heq)
  · intro clientID
    rw [status_ne_none, Std.ExtTreeMap.mem_keys]

/-- What a function of the room does, as an event of the roster of its members. -/
structure Performs (room : Room) (event : Roster.Event Int32) (room' : Room)
    (outputs : List Output) : Prop where
  sound : room'.Sound
  channelName : room'.channelName = room.channelName
  effect : Roster.Effect room.status event room'.status (letters room.channelName outputs)
  elsewhere : ∀ channel, channel ≠ room.channelName → letters channel outputs = []

theorem letters_announceOnline (room : Room) (clientID : Int32) (channel : AString) :
    letters channel (room.announceOnline clientID)
      = if room.channelName = channel then room.clients.keys.flatMap fun client =>
          [⟨client, .online clientID⟩, ⟨clientID, .online client⟩]
        else [] := by
  unfold letters announceOnline
  rw [List.filterMap_flatMap]
  by_cases heq : room.channelName = channel <;> simp [sendMsgToPeer, Output.letter, heq]

theorem letters_announcePublisher (room : Room) (clientID : Int32) (channel : AString) :
    letters channel (room.announcePublisher clientID)
      = if room.channelName = channel then room.clients.keys.flatMap fun client =>
          if client ≠ clientID then
            [⟨client, .publisher clientID⟩, ⟨clientID, .publisher client⟩] else []
        else [] := by
  unfold letters announcePublisher
  rw [List.filterMap_flatMap]
  by_cases heq : room.channelName = channel
  · rw [if_pos heq]
    refine List.flatMap_congr fun client _ => ?_
    by_cases hclient : client = clientID <;>
      simp [sendMsgToPeer, Output.letter, heq, hclient]
  · rw [if_neg heq, List.flatMap_eq_nil_iff]
    intro client _
    by_cases hclient : client = clientID <;>
      simp [sendMsgToPeer, Output.letter, heq, hclient]

theorem insertClient_clients (room : Room) (clientID other : Int32) (newHandle : Peer) :
    (room.insertClient clientID newHandle).clients[other]?
      = if other = clientID ∧ room.clients[clientID]? = none then some (some newHandle)
        else room.clients[other]? := by
  have hcondition : (compare clientID other = .eq ∧ clientID ∉ room.clients)
      ↔ (other = clientID ∧ room.clients[clientID]? = none) := by
    rw [Std.LawfulEqCmp.compare_eq_iff_eq, Std.ExtTreeMap.mem_iff_isSome_getElem?,
      Bool.not_eq_true, Option.isSome_eq_false_iff, Option.isNone_iff_eq_none,
      eq_comm]
  unfold insertClient
  dsimp only
  rw [Std.ExtTreeMap.getElem?_insertIfNew]
  exact if_congr hcondition rfl rfl

theorem Sound.insertClient {room : Room} (hsound : room.Sound) {clientID : Int32} {newHandle : Peer}
    (hhandle : newHandle.Sound clientID) : (room.insertClient clientID newHandle).Sound := by
  intro other entry hentry
  rw [insertClient_clients] at hentry
  split at hentry
  · next hnew =>
    cases hentry
    exact ⟨newHandle, rfl, hnew.1 ▸ hhandle⟩
  · exact hsound other entry hentry

theorem status_insertClient (room : Room) (clientID : Int32) (newHandle : Peer) :
    (room.insertClient clientID newHandle).status
      = Function.update room.status clientID
        (some ((room.status clientID).getD newHandle.ready)) := by
  funext other
  unfold status
  rw [insertClient_clients]
  by_cases heq : other = clientID
  · subst heq
    cases hentry : room.clients[other]? with
    | none => simp
    | some entry => simp
  · simp [heq]

theorem performs_onPeerJoined {room : Room} (hsound : room.Sound) (clientID : Int32) :
    ∃ room' outputs, room.onPeerJoined clientID = (true, room', outputs)
      ∧ room.Performs (.join clientID) room' outputs := by
  refine ⟨_, _, rfl, hsound.insertClient (Peer.sound_doJoin clientID), rfl, ?_, ?_⟩
  · rw [letters_announceOnline, if_pos rfl, status_insertClient]
    exact .join clientID room.enumerates_keys
  · intro channel hne
    rw [letters_announceOnline, if_neg (Ne.symm hne)]

/-- The loop over the remaining entries changes nobody's standing. -/
theorem announceOffline_spec (clientID : Int32) (newHandle : Peer)
    {entries : List (Int32 × Option Peer)} {room : Room} (hsound : room.Sound)
    (hentries : ∀ client entry, (client, entry) ∈ entries →
      ∃ peer : Peer, entry = some peer ∧ peer.Sound client ∧ room.status client = some peer.ready) :
    ∃ newHandle' room', announceOffline clientID entries newHandle room
        = .ok (newHandle', room', entries.map fun client =>
            room.sendMsgToPeer client.1 clientID (.offline clientID))
      ∧ room'.Sound ∧ room'.channelName = room.channelName ∧ room'.status = room.status := by
  induction entries generalizing room newHandle with
  | nil => exact ⟨newHandle, room, rfl, hsound, rfl, rfl⟩
  | cons head rest ih =>
      obtain ⟨client, entry⟩ := head
      obtain ⟨peer, rfl, hpeer, hstatus⟩ := hentries client entry (List.mem_cons_self ..)
      have hsame := room.status_replace client (peer.onUnSubscribed clientID)
      rw [show (peer.onUnSubscribed clientID).ready = peer.ready from rfl, ← hstatus,
        Function.update_eq_self] at hsame
      obtain ⟨newHandle', room', hloop, hsound', hname, hstatus'⟩ :=
        ih (newHandle.onUnSubscribed client) (hsound.replace (hpeer.onUnSubscribed clientID))
          (fun other entry hmem => by
            rw [hsame]
            exact hentries other entry (List.mem_cons_of_mem _ hmem))
      refine ⟨newHandle', room', ?_, hsound', hname, hstatus'.trans hsame⟩
      rw [announceOffline, hloop]
      rfl

theorem announceOffline_toList {room : Room} (hsound : room.Sound) (clientID : Int32)
    (newHandle : Peer) :
    ∃ newHandle' room', announceOffline clientID room.clients.toList newHandle room
        = .ok (newHandle', room', room.clients.keys.map fun client =>
            room.sendMsgToPeer client clientID (.offline clientID))
      ∧ room'.Sound ∧ room'.channelName = room.channelName ∧ room'.status = room.status := by
  rw [← Std.ExtTreeMap.map_fst_toList_eq_keys, List.map_map]
  refine announceOffline_spec clientID newHandle hsound fun client entry hmem => ?_
  rw [Std.ExtTreeMap.mem_toList_iff_getElem?_eq_some] at hmem
  obtain ⟨peer, rfl, hpeer⟩ := hsound client entry hmem
  refine ⟨peer, rfl, hpeer, ?_⟩
  rw [status, hmem]
  rfl

theorem status_eraseClient (room : Room) (clientID : Int32) :
    (room.eraseClient clientID).status = Function.update room.status clientID none := by
  funext other
  unfold status eraseClient
  dsimp only
  rw [Std.ExtTreeMap.getElem?_erase]
  by_cases heq : other = clientID
  · subst heq
    simp
  · have hne : ¬ compare clientID other = .eq := by
      rw [Std.LawfulEqCmp.compare_eq_iff_eq]
      exact Ne.symm heq
    rw [if_neg hne, Function.update_of_ne heq]

theorem Sound.eraseClient {room : Room} (hsound : room.Sound) (clientID : Int32) :
    (room.eraseClient clientID).Sound := by
  intro other entry hentry
  unfold Room.eraseClient at hentry
  rw [Std.ExtTreeMap.getElem?_erase] at hentry
  split at hentry
  · cases hentry
  · exact hsound other entry hentry

theorem performs_onPeerLeaved {room : Room} (hsound : room.Sound) (clientID : Int32) :
    ∃ room' outputs, room.onPeerLeaved clientID = .ok (true, room', outputs)
      ∧ room.Performs (.leave clientID) room' outputs := by
  cases hstatus : room.status clientID with
  | none =>
      have hentry : room.clients[clientID]? = none := Option.map_eq_none_iff.mp hstatus
      refine ⟨room, [], ?_, hsound, rfl, .leaveAgain clientID hstatus, fun _ _ => rfl⟩
      rw [onPeerLeaved, takeClient, hentry]
      rfl
  | some ready =>
      obtain ⟨peer, hentry, -, -⟩ := hsound.peer hstatus
      obtain ⟨_, room', hloop, hsound', hname, hstatus'⟩ :=
        announceOffline_toList (hsound.eraseClient clientID) clientID peer.doLeave
      have hcall : room.onPeerLeaved clientID = .ok (true, room',
          (room.eraseClient clientID).clients.keys.map fun client =>
            room.sendMsgToPeer client clientID (.offline clientID)) := by
        rw [onPeerLeaved, takeClient, hentry]
        dsimp only
        rw [hloop]
        rfl
      have hletters : ∀ channel, letters channel
          ((room.eraseClient clientID).clients.keys.map fun client =>
            room.sendMsgToPeer client clientID (.offline clientID))
          = if room.channelName = channel then (room.eraseClient clientID).clients.keys.map
              fun client => ⟨client, .offline clientID⟩ else [] := by
        intro channel
        unfold letters
        rw [List.filterMap_map]
        by_cases heq : room.channelName = channel <;>
          simp [Function.comp_def, sendMsgToPeer, Output.letter, heq]
      refine ⟨room', _, hcall, hsound', hname, ?_, ?_⟩
      · rw [hletters, if_pos rfl, hstatus', status_eraseClient]
        refine .leave clientID (by simp [hstatus]) ?_
        rw [← status_eraseClient]
        exact enumerates_keys _
      · intro channel hne
        rw [hletters, if_neg (Ne.symm hne)]

/-- The publishing connection of a member becomes ready. -/
theorem performs_notifyReady {room : Room} (hsound : room.Sound) {clientID : Int32}
    (hmember : room.status clientID ≠ none) :
    ∃ room' outputs, room.notifyClient clientID .connReady [] = some (room', outputs)
      ∧ room.Performs (.ready clientID) room' outputs := by
  obtain ⟨ready, hstatus⟩ := Option.ne_none_iff_exists'.mp hmember
  obtain ⟨peer, hentry, hpeer, hready⟩ := hsound.peer hstatus
  cases ready with
  | true =>
      have hsame := room.status_replace clientID peer
      rw [hready, ← hstatus, Function.update_eq_self] at hsame
      refine ⟨_, [], ?_, hsound.replace hpeer, rfl, ?_, fun _ _ => rfl⟩
      · rw [notifyClient, hentry]
        dsimp only
        rw [hpeer.notifyReady_again hready]
        rfl
      · rw [hsame]
        exact .readyAgain clientID hstatus
  | false =>
      obtain ⟨peer', hnotify, hpeer', hready'⟩ := hpeer.notifyReady hready
      have hstatus' := room.status_replace clientID peer'
      rw [hready'] at hstatus'
      have hmembers : Roster.Enumerates (room.clients.insert clientID (some peer')).keys room.status := by
        obtain ⟨hnodup, hmem⟩ := enumerates_keys
          { room with clients := room.clients.insert clientID (some peer') }
        refine ⟨hnodup, fun other => (hmem other).trans ?_⟩
        rw [hstatus']
        by_cases heq : other = clientID
        · simp [heq, hstatus]
        · rw [Function.update_of_ne heq]
      refine ⟨_, announcePublisher { room with
        clients := room.clients.insert clientID (some peer') } clientID, ?_, hsound.replace hpeer',
        rfl, ?_, ?_⟩
      · rw [notifyClient, hentry]
        dsimp only
        rw [hnotify, hpeer.id, react, broadcastJoinChannel]
        dsimp only
        rw [Std.ExtTreeMap.getElem?_insert_self]
      · rw [hstatus', letters_announcePublisher, if_pos rfl]
        exact .ready clientID hstatus hmembers
      · intro channel hne
        rw [letters_announcePublisher, if_neg (Ne.symm hne)]

/-- A message to a member changes nobody's standing. -/
theorem onMsgFromPeer_spec {parse : AString → Parsed} {room room' : Room}
    (hsound : room.Sound) {fromID targetID : Int32} {msg : AString}
    (hcall : room.onMsgFromPeer parse fromID targetID msg = .ok room') :
    room'.Sound ∧ room'.channelName = room.channelName ∧ room'.status = room.status := by
  unfold onMsgFromPeer at hcall
  split at hcall
  · cases hcall
    exact ⟨hsound, rfl, rfl⟩
  · cases hcall
  · next peer hentry =>
    obtain ⟨peer', hpeer', hcall⟩ := exists_of_bind_ok hcall
    cases hcall
    obtain ⟨_, heq, hpeer⟩ := hsound targetID _ hentry
    cases heq
    obtain ⟨hsame, hready⟩ := hpeer.onMsgFromPeer hpeer'
    refine ⟨hsound.replace hsame, rfl, ?_⟩
    have hstatus : room.status targetID = some peer.ready := by
      rw [status, hentry]
      rfl
    rw [status_replace, hready, ← hstatus, Function.update_eq_self]

end Room

end Licode.Channel
