import Licode.Channel.Announcements

/-!
# Ready events in the middle of an event

The connections of the peers report from threads of their own, so a ready event may come while the
manager's thread is in the middle of a `JOIN` or a `LEAVE`. There it has a peer in hand that is not in
the room's map: one that is not inserted yet, or one that has been erased and is still telling the
others. `BroadcastJoinChannel` looks its peer up with `m_Clients[id]`, which makes an entry without a
peer where there is none, and nothing ever removes it. As long as a ready event comes only from a peer
whose id has an entry in its room, the maps stay in order.
-/

namespace Licode.Channel

/-- Where the manager's thread is in `dealEvent`, with the peer it holds. -/
inductive DealPoint where
  | idle
  | joinCreated (clientID : Int32) (channel : AString) (newHandle : Peer)
  | joinAnnounced (clientID : Int32) (channel : AString) (newHandle : Peer)
  | leaveErased (clientID : Int32) (channel : AString) (newHandle : Option Peer)
  | leaveAnnounced (clientID : Int32) (channel : AString) (newHandle : Option Peer)

/-- The channel and the peer in hand. -/
def DealPoint.handle : DealPoint → Option (AString × Peer)
  | .idle => none
  | .joinCreated _ channel newHandle | .joinAnnounced _ channel newHandle => some (channel, newHandle)
  | .leaveErased _ channel newHandle | .leaveAnnounced _ channel newHandle =>
      newHandle.map (channel, ·)

/-- The channel of the current event. -/
def DealPoint.channel : DealPoint → Option AString
  | .idle => none
  | .joinCreated _ channel _ | .joinAnnounced _ channel _ => some channel
  | .leaveErased _ channel _ | .leaveAnnounced _ channel _ => some channel

def DealPoint.setHandle (newHandle : Peer) : DealPoint → DealPoint
  | .idle => .idle
  | .joinCreated clientID channel _ => .joinCreated clientID channel newHandle
  | .joinAnnounced clientID channel _ => .joinAnnounced clientID channel newHandle
  | .leaveErased clientID channel _ => .leaveErased clientID channel (some newHandle)
  | .leaveAnnounced clientID channel _ => .leaveAnnounced clientID channel (some newHandle)

structure Threads where
  manager : Manager
  point : DealPoint

namespace Threads

def create : Threads := ⟨.create, .idle⟩

/-- The parts of a `JOIN` and of a `LEAVE` in their order, a `MEDIA` event, and the ready events of a
member and of the peer in hand. -/
inductive Action where
  | joinCreate (clientID : Int32) (channel : AString)
  | joinAnnounce
  | joinInsert (clientID : Int32) (channel : AString)
  | leaveErase (clientID : Int32) (channel : AString)
  | leaveAnnounce
  | leaveRelease (clientID : Int32) (channel : AString)
  | media (event : MediaEvent)
  | connReady (channel : AString) (clientID : Int32)
  | connReadyInHand

def next (parse : AString → Parsed) (t : Threads) : Action → Option Threads
  | .joinCreate clientID channel =>
      match t.point with
      | .idle =>
          let m := t.manager.putRoom channel (t.manager.doGetRoomSet channel)
          let (ok, newHandle) := (Peer.create clientID).doJoin
          if !ok then some ⟨m.output [.onJoinChannelResult clientID channel false], .idle⟩
          else some ⟨m, .joinCreated clientID channel newHandle⟩
      | _ => none
  | .joinAnnounce =>
      match t.point with
      | .joinCreated clientID channel newHandle =>
          some ⟨t.manager.output ((t.manager.doGetRoomSet channel).announceOnline clientID),
            .joinAnnounced clientID channel newHandle⟩
      | _ => none
  | .joinInsert clientID channel =>
      match t.point with
      | .joinAnnounced clientID' channel' newHandle =>
          if clientID = clientID' ∧ channel = channel' then
            some ⟨(t.manager.putRoom channel
              ((t.manager.doGetRoomSet channel).insertClient clientID newHandle)).output
                [.onJoinChannelResult clientID channel true], .idle⟩
          else none
      | _ => none
  | .leaveErase clientID channel =>
      match t.point with
      | .idle =>
          let (newHandle, room) := (t.manager.doGetRoomSet channel).takeClient clientID
          some ⟨t.manager.putRoom channel room, .leaveErased clientID channel newHandle⟩
      | _ => none
  | .leaveAnnounce =>
      match t.point with
      | .leaveErased clientID channel none => some ⟨t.manager, .leaveAnnounced clientID channel none⟩
      | .leaveErased clientID channel (some newHandle) => do
          let room := t.manager.doGetRoomSet channel
          let (newHandle, room, outputs) ←
            (Room.announceOffline clientID room.clients.toList newHandle.doLeave room).toOption
          some ⟨(t.manager.putRoom channel room).output outputs,
            .leaveAnnounced clientID channel (some newHandle)⟩
      | _ => none
  | .leaveRelease clientID channel =>
      match t.point with
      | .leaveAnnounced clientID' channel' _ =>
          if clientID = clientID' ∧ channel = channel' then
            some ⟨(t.manager.output [.onLeaveChannelResult clientID channel true]).releaseIfEmpty
              channel (t.manager.doGetRoomSet channel), .idle⟩
          else none
      | _ => none
  | .media event =>
      match t.point, event.type with
      | .idle, .media => (t.manager.dealEvent parse event).toOption.map (⟨·, .idle⟩)
      | _, _ => none
  | .connReady channel clientID =>
      (t.manager.notifyClient channel clientID .connReady).map (⟨·, t.point⟩)
  | .connReadyInHand =>
      t.point.handle.map fun (channel, newHandle) =>
        let (newHandle', reaction) := newHandle.notifyEvent .connReady []
        let (room, outputs) := (t.manager.doGetRoomSet channel).react newHandle.id reaction
        ⟨(t.manager.putRoom channel room).output outputs, t.point.setHandle newHandle'⟩

def Step (parse : AString → Parsed) (t : Threads) (action : Action) (t' : Threads) : Prop :=
  t.next parse action = some t'

theorem doGetRoomSet_putRoom (m : Manager) (channel : AString) (room : Room) :
    (m.putRoom channel room).doGetRoomSet channel = room := by
  simp [Manager.putRoom, Manager.doGetRoomSet]

theorem putRoom_putRoom (m : Manager) (channel : AString) (room room' : Room) :
    (m.putRoom channel room).putRoom channel room' = m.putRoom channel room' := by
  unfold Manager.putRoom
  dsimp only
  congr 1
  refine Std.ExtTreeMap.ext_getElem? fun other => ?_
  rw [Std.ExtTreeMap.getElem?_insert, Std.ExtTreeMap.getElem?_insert,
    Std.ExtTreeMap.getElem?_insert]
  split <;> rfl

/-- The parts of a `JOIN`, one after the other, are `dealEvent`. -/
theorem next_join (parse : AString → Parsed) (m : Manager) (clientID : Int32)
    (channel : AString) :
    [.joinCreate clientID channel, .joinAnnounce, .joinInsert clientID channel].foldlM (next parse)
        ⟨m, .idle⟩
      = (m.dealEvent parse (Manager.mediaEvent .join clientID channel)).toOption.map (⟨·, .idle⟩) := by
  have hroom := doGetRoomSet_putRoom m channel (m.doGetRoomSet channel)
  have hcreate : next parse ⟨m, .idle⟩ (.joinCreate clientID channel)
      = some ⟨m.putRoom channel (m.doGetRoomSet channel),
        .joinCreated clientID channel (Peer.create clientID).doJoin.2⟩ := rfl
  have hannounce : next parse ⟨m.putRoom channel (m.doGetRoomSet channel),
        .joinCreated clientID channel (Peer.create clientID).doJoin.2⟩ .joinAnnounce
      = some ⟨(m.putRoom channel (m.doGetRoomSet channel)).output
          ((m.doGetRoomSet channel).announceOnline clientID),
        .joinAnnounced clientID channel (Peer.create clientID).doJoin.2⟩ := by
    simp only [next, hroom]
  have hinsert : next parse ⟨(m.putRoom channel (m.doGetRoomSet channel)).output
          ((m.doGetRoomSet channel).announceOnline clientID),
        .joinAnnounced clientID channel (Peer.create clientID).doJoin.2⟩
        (.joinInsert clientID channel)
      = some ⟨(((m.putRoom channel (m.doGetRoomSet channel)).putRoom channel
          ((m.doGetRoomSet channel).insertClient clientID (Peer.create clientID).doJoin.2)).output
            ((m.doGetRoomSet channel).announceOnline clientID)).output
            [.onJoinChannelResult clientID channel true], .idle⟩ := by
    simp only [next, and_self, if_true]
    rw [show ((m.putRoom channel (m.doGetRoomSet channel)).output _).doGetRoomSet channel
      = m.doGetRoomSet channel from hroom]
    rfl
  rw [List.foldlM_cons, hcreate, Option.bind_eq_bind, Option.bind_some, List.foldlM_cons, hannounce,
    Option.bind_eq_bind, Option.bind_some, List.foldlM_cons, hinsert, Option.bind_eq_bind,
    Option.bind_some, List.foldlM_nil, putRoom_putRoom]
  rfl

/-- The parts of a `LEAVE`, one after the other, are `dealEvent`. -/
theorem next_leave (parse : AString → Parsed) (m : Manager) (clientID : Int32)
    (channel : AString) :
    [.leaveErase clientID channel, .leaveAnnounce, .leaveRelease clientID channel].foldlM
        (next parse) ⟨m, .idle⟩
      = (m.dealEvent parse (Manager.mediaEvent .leave clientID channel)).toOption.map
        (⟨·, .idle⟩) := by
  obtain ⟨⟨newHandle, room⟩, htake⟩ : ∃ taken, (m.doGetRoomSet channel).takeClient clientID = taken :=
    ⟨_, rfl⟩
  have herase : next parse ⟨m, .idle⟩ (.leaveErase clientID channel)
      = some ⟨m.putRoom channel room, .leaveErased clientID channel newHandle⟩ := by
    simp only [next, htake]
  have hroom := doGetRoomSet_putRoom m channel room
  rw [List.foldlM_cons, herase, Option.bind_eq_bind, Option.bind_some, List.foldlM_cons]
  simp only [Manager.dealEvent, Manager.mediaEvent, Room.onPeerLeaved, htake]
  cases newHandle with
  | none =>
      simp only [next, Option.bind_eq_bind, Option.bind_some, List.foldlM_cons, List.foldlM_nil,
        and_self, if_true, hroom, Checked.pure_eq_ok, Checked.ok_bind]
      rw [show (m.putRoom channel room).output [] = m.putRoom channel room by
        simp [Manager.output]]
      rfl
  | some newHandle =>
      simp only [next, hroom]
      cases hloop : Room.announceOffline clientID room.clients.toList newHandle.doLeave room with
      | error fault => simp [Except.toOption]
      | ok result =>
          obtain ⟨newHandle', room', outputs⟩ := result
          have hroom' := doGetRoomSet_putRoom (m.putRoom channel room) channel room'
          simp only [Except.toOption, Option.bind_eq_bind, Option.bind_some, List.foldlM_cons,
            List.foldlM_nil, next, and_self, if_true]
          rw [show (((m.putRoom channel room).putRoom channel room').output outputs).doGetRoomSet
            channel = room' from hroom', putRoom_putRoom]
          rfl

/-- A ready event of the peer in hand comes only while its id has an entry in its room. -/
def HasEntry (t : Threads) : Action → Prop
  | .connReadyInHand => ∀ channel newHandle, t.point.handle = some (channel, newHandle) →
      t.manager.IsMember channel newHandle.id
  | _ => True

/-- The rooms are in order, the room of the current event is there, and a newcomer's peer could be
inserted. -/
structure Inv (t : Threads) : Prop where
  sound : t.manager.Sound
  room : ∀ channel, t.point.channel = some channel → channel ∈ t.manager.rooms
  newcomer : ∀ clientID channel newHandle, t.point = .joinCreated clientID channel newHandle
    ∨ t.point = .joinAnnounced clientID channel newHandle → newHandle.Sound clientID

/-- The manager after a part of an event that brings nobody in and releases no room. -/
structure Settles (m m' : Manager) : Prop where
  sound : m'.Sound
  members : ∀ channel clientID, m'.IsMember channel clientID → m.IsMember channel clientID
  rooms : ∀ channel, channel ∈ m.rooms → channel ∈ m'.rooms

theorem Settles.output {m m' : Manager} (hsettles : Settles m m') (outputs : List Output) :
    Settles m (m'.output outputs) :=
  ⟨hsettles.sound, hsettles.members, hsettles.rooms⟩

theorem mem_putRoom {m : Manager} {channel other : AString} {room : Room} :
    other ∈ (m.putRoom channel room).rooms ↔ other = channel ∨ other ∈ m.rooms := by
  unfold Manager.putRoom
  dsimp only
  rw [Std.ExtTreeMap.mem_insert, Std.LawfulEqCmp.compare_eq_iff_eq, eq_comm]

theorem isMember_putRoom {m : Manager} {channel other : AString} {room : Room} {clientID : Int32} :
    (m.putRoom channel room).IsMember other clientID
      ↔ if other = channel then room.status clientID ≠ none else m.IsMember other clientID := by
  rw [Manager.isMember_iff, Manager.isMember_iff, Manager.status_putRoom]
  by_cases heq : other = channel
  · subst heq
    simp
  · simp [heq]

theorem settles_putRoom {m : Manager} (hsound : m.Sound) {channel : AString} {room : Room}
    (hname : room.channelName = channel) (hroom : room.Sound)
    (hmembers : ∀ clientID, room.status clientID ≠ none →
      (m.doGetRoomSet channel).status clientID ≠ none) :
    Settles m (m.putRoom channel room) := by
  refine ⟨hsound.putRoom hname hroom, fun other clientID hmember => ?_, fun other hmem => ?_⟩
  · rw [isMember_putRoom] at hmember
    split at hmember
    · next heq =>
      subst heq
      exact Manager.isMember_iff.mpr (hmembers clientID hmember)
    · exact hmember
  · exact mem_putRoom.mpr (.inr hmem)

/-- The peer in hand makes nothing of the map where its id has an entry. -/
theorem react_of_member {room : Room} (hsound : room.Sound) {peerID : Int32}
    (hmember : room.status peerID ≠ none) (reaction : Reaction) :
    (room.react peerID reaction).1 = room := by
  cases reaction with
  | onJoinedChannel =>
      obtain ⟨ready, hstatus⟩ := Option.ne_none_iff_exists'.mp hmember
      obtain ⟨peer, hentry, -, -⟩ := hsound.peer hstatus
      rw [Room.react, Room.broadcastJoinChannel, hentry]
  | nothing | sendMsgToPeer | onSubscribedSuccess | deleteListener => rfl

theorem takeClient_spec {room : Room} (hsound : room.Sound) (clientID : Int32) :
    (room.takeClient clientID).2.Sound
      ∧ (room.takeClient clientID).2.channelName = room.channelName
      ∧ (room.takeClient clientID).2.status = Function.update room.status clientID none := by
  unfold Room.takeClient
  split
  · next hentry =>
    refine ⟨hsound, rfl, ?_⟩
    rw [show none = room.status clientID by rw [Room.status, hentry]; rfl, Function.update_eq_self]
  · exact ⟨hsound.eraseClient clientID, rfl, room.status_eraseClient clientID⟩

/-- Only an insertion brings a client in, and an erasure takes it out. -/
def Moves (t : Threads) (action : Action) (t' : Threads) : Prop :=
  ∀ channel clientID, t'.manager.IsMember channel clientID →
    action = .joinInsert clientID channel
      ∨ t.manager.IsMember channel clientID ∧ action ≠ .leaveErase clientID channel

theorem Settles.moves {t t' : Threads} (hsettles : Settles t.manager t'.manager) {action : Action}
    (haction : ∀ clientID channel, action ≠ .leaveErase clientID channel) : Moves t action t' :=
  fun channel clientID hmember =>
    .inr ⟨hsettles.members channel clientID hmember, haction clientID channel⟩

section Parts

variable {parse : AString → Parsed} {t t' : Threads}

theorem Inv.joinCreate {clientID : Int32} {channel : AString} (hinv : t.Inv)
    (hstep : Step parse t (.joinCreate clientID channel) t') :
    t'.Inv ∧ Moves t (.joinCreate clientID channel) t' := by
  simp only [Step, next] at hstep
  split at hstep
  · cases hstep
    obtain ⟨hname, hsame⟩ := hinv.sound.doGetRoomSet channel
    have hsettles := settles_putRoom hinv.sound hname hsame fun _ h => h
    refine ⟨⟨hsettles.sound, ?_, ?_⟩, hsettles.moves (by simp)⟩
    · rintro other heq
      cases heq
      exact mem_putRoom.mpr (.inl rfl)
    · rintro other name newHandle (heq | heq) <;> cases heq
      exact Peer.sound_doJoin clientID
  · cases hstep

theorem Inv.joinAnnounce (hinv : t.Inv) (hstep : Step parse t .joinAnnounce t') :
    t'.Inv ∧ Moves t .joinAnnounce t' := by
  simp only [Step, next] at hstep
  split at hstep
  · next clientID channel newHandle hpoint =>
    cases hstep
    refine ⟨⟨hinv.sound, ?_, ?_⟩, fun _ _ hmember => .inr ⟨hmember, by simp⟩⟩
    · rintro other heq
      exact hinv.room other (by rw [hpoint]; exact heq)
    · rintro other name newHandle' (heq | heq) <;> cases heq
      exact hinv.newcomer clientID channel newHandle (.inl hpoint)
  · cases hstep

theorem Inv.joinInsert {clientID : Int32} {channel : AString} (hinv : t.Inv)
    (hstep : Step parse t (.joinInsert clientID channel) t') :
    t'.Inv ∧ Moves t (.joinInsert clientID channel) t' := by
  simp only [Step, next] at hstep
  split at hstep
  · next clientID' channel' newHandle hpoint =>
    split at hstep
    · next heq =>
      obtain ⟨rfl, rfl⟩ := heq
      cases hstep
      obtain ⟨hname, hsame⟩ := hinv.sound.doGetRoomSet channel
      have hhandle := hinv.newcomer clientID channel newHandle (.inr hpoint)
      refine ⟨⟨hinv.sound.putRoom hname (hsame.insertClient hhandle), by simp [DealPoint.channel],
        by simp⟩, ?_⟩
      intro name other hmember
      have hmember := isMember_putRoom.mp hmember
      split at hmember
      · next heq =>
        subst heq
        by_cases hother : other = clientID
        · exact .inl (by rw [hother])
        · rw [Room.status_insertClient, Function.update_of_ne hother] at hmember
          exact .inr ⟨Manager.isMember_iff.mpr hmember, by simp⟩
      · exact .inr ⟨hmember, by simp⟩
    · cases hstep
  · cases hstep

theorem Inv.leaveErase {clientID : Int32} {channel : AString} (hinv : t.Inv)
    (hstep : Step parse t (.leaveErase clientID channel) t') :
    t'.Inv ∧ Moves t (.leaveErase clientID channel) t' := by
  simp only [Step, next] at hstep
  split at hstep
  · cases hstep
    obtain ⟨hname, hsame⟩ := hinv.sound.doGetRoomSet channel
    obtain ⟨hsound', hname', hstatus⟩ := takeClient_spec hsame clientID
    refine ⟨⟨hinv.sound.putRoom (hname'.trans hname) hsound', ?_, by simp⟩, ?_⟩
    · rintro other heq
      cases heq
      exact mem_putRoom.mpr (.inl rfl)
    · intro name other hmember
      have hmember := isMember_putRoom.mp hmember
      split at hmember
      · next heq =>
        subst heq
        rw [hstatus] at hmember
        by_cases hother : other = clientID
        · simp [hother] at hmember
        · rw [Function.update_of_ne hother] at hmember
          exact .inr ⟨Manager.isMember_iff.mpr hmember, by simp [Ne.symm hother]⟩
      · next heq => exact .inr ⟨hmember, by simp [Ne.symm heq]⟩
  · cases hstep

theorem Inv.leaveAnnounce (hinv : t.Inv) (hstep : Step parse t .leaveAnnounce t') :
    t'.Inv ∧ Moves t .leaveAnnounce t' := by
  simp only [Step, next] at hstep
  split at hstep
  · next clientID channel hpoint =>
    cases hstep
    exact ⟨⟨hinv.sound, fun other heq => hinv.room other (by rw [hpoint]; exact heq), by simp⟩,
      fun _ _ hmember => .inr ⟨hmember, by simp⟩⟩
  · next clientID channel newHandle hpoint =>
    obtain ⟨hname, hsame⟩ := hinv.sound.doGetRoomSet channel
    obtain ⟨newHandle', room', hloop, hsound', hname', hstatus⟩ :=
      Room.announceOffline_toList hsame clientID newHandle.doLeave
    rw [hloop] at hstep
    cases hstep
    have hsettles := settles_putRoom hinv.sound (hname'.trans hname) hsound' fun other hmember => by
      rwa [hstatus] at hmember
    refine ⟨⟨hsettles.sound, fun other heq => ?_, by simp⟩, (hsettles.output _).moves (by simp)⟩
    exact hsettles.rooms other (hinv.room other (by rw [hpoint]; exact heq))
  · cases hstep

/-- The end of a `LEAVE`, and what becomes of the room. -/
theorem Inv.leaveRelease {clientID : Int32} {channel : AString} (hinv : t.Inv)
    (hstep : Step parse t (.leaveRelease clientID channel) t') :
    t'.Inv ∧ Moves t (.leaveRelease clientID channel) t'
      ∧ (channel ∈ t'.manager.rooms ↔ ∃ member, t'.manager.IsMember channel member) := by
  simp only [Step, next] at hstep
  split at hstep
  · next clientID' channel' newHandle hpoint =>
    split at hstep
    · next heq =>
      obtain ⟨rfl, rfl⟩ := heq
      cases hstep
      have hmem : channel ∈ t.manager.rooms := hinv.room channel (by rw [hpoint]; rfl)
      obtain ⟨room, hroom⟩ := Option.isSome_iff_exists.mp (Std.ExtTreeMap.mem_iff_isSome_getElem?.mp hmem)
      have hget : t.manager.doGetRoomSet channel = room := by
        rw [Manager.doGetRoomSet, hroom]
        rfl
      rw [hget]
      unfold Manager.releaseIfEmpty
      split
      · next hsize =>
        have hclients : room.clients = ∅ := Std.ExtTreeMap.eq_empty_iff_size_eq_zero.mpr hsize
        have hempty : t.manager.status channel = fun _ => none := by
          rw [Manager.status_of_room hroom]
          funext other
          rw [Room.status, hclients]
          rfl
        have hstatus := Manager.status_doReleaseRoom
          (t.manager.output [.onLeaveChannelResult clientID channel true]) channel hempty
        refine ⟨⟨(hinv.sound.output _).doReleaseRoom channel, by simp [DealPoint.channel], by simp⟩,
          fun name other hmember => .inr ⟨?_, by simp⟩, fun hgone => ?_, fun hsome => ?_⟩
        · rw [Manager.isMember_iff, hstatus] at hmember
          exact Manager.isMember_iff.mpr hmember
        · simp [Manager.doReleaseRoom] at hgone
        · obtain ⟨other, hmember⟩ := hsome
          rw [Manager.isMember_iff, hstatus, Manager.status_output, hempty] at hmember
          exact absurd rfl hmember
      · next hsize =>
        refine ⟨⟨hinv.sound, by simp [DealPoint.channel], by simp⟩,
          fun _ _ hmember => .inr ⟨hmember, by simp⟩, fun _ => ?_, fun _ => hmem⟩
        have hne : room.clients.keys ≠ [] := by
          rw [ne_eq, Std.ExtTreeMap.keys_eq_nil_iff]
          rintro hclients
          exact hsize (Std.ExtTreeMap.eq_empty_iff_size_eq_zero.mp hclients)
        obtain ⟨other, hother⟩ := List.exists_mem_of_ne_nil _ hne
        exact ⟨other, room, hroom, Std.ExtTreeMap.mem_keys.mp hother⟩
    · cases hstep
  · cases hstep

theorem Inv.media {event : MediaEvent} (hinv : t.Inv) (hstep : Step parse t (.media event) t') :
    t'.Inv ∧ Moves t (.media event) t' := by
  simp only [Step, next] at hstep
  split at hstep
  · next hpoint htype =>
    obtain ⟨m', hdeal, rfl⟩ := Option.map_eq_some_iff.mp hstep
    have hsettles : Settles t.manager m' := by
      simp only [Manager.dealEvent, htype] at hdeal
      cases hroom : t.manager.doGetRoom event.channel with
      | none =>
          rw [hroom] at hdeal
          cases hdeal
          exact ⟨hinv.sound, fun _ _ h => h, fun _ h => h⟩
      | some room =>
          rw [hroom] at hdeal
          have hget : t.manager.doGetRoomSet event.channel = room := by
            rw [Manager.doGetRoomSet, show t.manager.rooms[event.channel]? = some room from hroom]
            rfl
          obtain ⟨hname, hsame⟩ := hinv.sound event.channel room hroom
          cases hcall : room.onMsgFromPeer parse event.clientID event.targetID event.msg with
          | error fault => simp [hcall, Except.toOption] at hdeal
          | ok room' =>
              obtain ⟨hsound', hname', hstatus⟩ := Room.onMsgFromPeer_spec hsame hcall
              dsimp only at hdeal
              rw [hcall] at hdeal
              cases hdeal
              refine settles_putRoom hinv.sound (hname'.trans hname) hsound' fun other hmember => ?_
              rwa [hget, ← hstatus]
    exact ⟨⟨hsettles.sound, by simp [DealPoint.channel], by simp⟩, hsettles.moves (by simp)⟩
  · cases hstep

theorem Inv.connReady {channel : AString} {clientID : Int32} (hinv : t.Inv)
    (hstep : Step parse t (.connReady channel clientID) t') :
    t'.Inv ∧ Moves t (.connReady channel clientID) t' := by
  simp only [Step, next] at hstep
  obtain ⟨m', hcall, rfl⟩ := Option.map_eq_some_iff.mp hstep
  have hready : Manager.Step parse t.manager (channel, .ready clientID) m' := hcall
  have hperforms := hready.performs hinv.sound
  have hsettles : Settles t.manager m' := by
    refine ⟨hperforms.sound, fun name other hmember => ?_, fun name hmem => ?_⟩
    · rw [Manager.isMember_iff] at hmember ⊢
      by_cases hname : name = channel
      · subst hname
        rw [hperforms.status_eq] at hmember
        by_cases hother : other = clientID
        · subst hother
          simpa [Roster.after] using hmember
        · simpa [Roster.after, hother] using hmember
      · rwa [hperforms.frame name hname] at hmember
    · simp only [Manager.notifyClient, Option.bind_eq_bind, Option.bind_eq_some_iff] at hcall
      obtain ⟨room, -, ⟨room', outputs⟩, -, hm'⟩ := hcall
      cases hm'
      exact mem_putRoom.mpr (.inr hmem)
  refine ⟨⟨hsettles.sound, fun name heq => ?_, hinv.newcomer⟩, hsettles.moves (by simp)⟩
  exact hsettles.rooms name (hinv.room name heq)

theorem Inv.connReadyInHand (hinv : t.Inv) (hguard : t.HasEntry .connReadyInHand)
    (hstep : Step parse t .connReadyInHand t') : t'.Inv ∧ Moves t .connReadyInHand t' := by
  simp only [Step, next] at hstep
  obtain ⟨⟨channel, newHandle⟩, hhandle, rfl⟩ := Option.map_eq_some_iff.mp hstep
  have hmember := Manager.isMember_iff.mp (hguard channel newHandle hhandle)
  obtain ⟨hname, hsame⟩ := hinv.sound.doGetRoomSet channel
  dsimp only
  rw [react_of_member hsame hmember]
  have hsettles := settles_putRoom hinv.sound hname hsame fun _ h => h
  refine ⟨⟨hsettles.sound, fun name heq => ?_, ?_⟩, (hsettles.output _).moves (by simp)⟩
  · refine hsettles.rooms name (hinv.room name ?_)
    cases hpoint : t.point <;> rw [hpoint] at heq <;> exact heq
  · -- a newcomer's peer stays one that could be inserted
    intro clientID name newHandle' hpoint'
    cases hpoint : t.point with
    | idle => simp [hpoint, DealPoint.setHandle] at hpoint'
    | joinCreated clientID₀ channel₀ newHandle₀ =>
        rw [hpoint] at hhandle
        cases hhandle
        simp only [hpoint, DealPoint.setHandle, DealPoint.joinCreated.injEq, reduceCtorEq,
          or_false] at hpoint'
        obtain ⟨rfl, -, rfl⟩ := hpoint'
        exact (hinv.newcomer _ _ _ (.inl hpoint)).notifyReady_fst
    | joinAnnounced clientID₀ channel₀ newHandle₀ =>
        rw [hpoint] at hhandle
        cases hhandle
        simp only [hpoint, DealPoint.setHandle, DealPoint.joinAnnounced.injEq, reduceCtorEq,
          false_or] at hpoint'
        obtain ⟨rfl, -, rfl⟩ := hpoint'
        exact (hinv.newcomer _ _ _ (.inr hpoint)).notifyReady_fst
    | leaveErased => simp [hpoint, DealPoint.setHandle] at hpoint'
    | leaveAnnounced => simp [hpoint, DealPoint.setHandle] at hpoint'

theorem Inv.step {action : Action} (hinv : t.Inv)
    (hstep : Guarded HasEntry (Step parse) t action t') : t'.Inv ∧ Moves t action t' := by
  obtain ⟨hguard, hstep⟩ := hstep
  cases action with
  | joinCreate clientID channel => exact hinv.joinCreate hstep
  | joinAnnounce => exact hinv.joinAnnounce hstep
  | joinInsert clientID channel => exact hinv.joinInsert hstep
  | leaveErase clientID channel => exact hinv.leaveErase hstep
  | leaveAnnounce => exact hinv.leaveAnnounce hstep
  | leaveRelease clientID channel =>
      obtain ⟨hinv', hmoves, -⟩ := hinv.leaveRelease hstep
      exact ⟨hinv', hmoves⟩
  | media event => exact hinv.media hstep
  | connReady channel clientID => exact hinv.connReady hstep
  | connReadyInHand => exact hinv.connReadyInHand hguard hstep

end Parts

theorem inv_create : create.Inv :=
  ⟨Manager.sound_create, by simp [create, DealPoint.channel], by simp [create]⟩

/-- The client was inserted into the channel and has not been erased since. -/
def JoinedSince (actions : List Action) (channel : AString) (clientID : Int32) : Prop :=
  ∃ earlier later, actions = earlier ++ .joinInsert clientID channel :: later
    ∧ .leaveErase clientID channel ∉ later

theorem joinedSince_of_run {parse : AString → Parsed} {actions : List Action} {t : Threads}
    (hrun : Run (Guarded HasEntry (Step parse)) create actions t) :
    t.Inv ∧ ∀ channel clientID, t.manager.IsMember channel clientID →
      JoinedSince actions channel clientID := by
  induction hrun with
  | nil =>
      refine ⟨inv_create, fun channel clientID hmember => ?_⟩
      rw [Manager.isMember_iff, create, Manager.status_create] at hmember
      exact absurd rfl hmember
  | snoc hrun hstep ih =>
      rename_i actions s action s'
      obtain ⟨hinv, hjoined⟩ := ih
      obtain ⟨hinv', hmoves⟩ := hinv.step hstep
      refine ⟨hinv', fun channel clientID hmember => ?_⟩
      obtain rfl | ⟨hbefore, hstays⟩ := hmoves channel clientID hmember
      · exact ⟨actions, [], rfl, List.not_mem_nil⟩
      · obtain ⟨earlier, later, rfl, hnot⟩ := hjoined channel clientID hbefore
        refine ⟨earlier, later ++ [action], by simp, ?_⟩
        rw [List.mem_append, List.mem_singleton, not_or]
        exact ⟨hnot, Ne.symm hstays⟩

/-- Every entry is the peer of a client that has joined and not left, and a `LEAVE` keeps the room
exactly when somebody is in it. -/
theorem room_maps_wellFormed {parse : AString → Parsed} {actions : List Action}
    {t : Threads} (hrun : Run (Guarded HasEntry (Step parse)) create actions t) :
    (∀ (channel : AString) (room : Room) (clientID : Int32) (entry : Option Peer),
        t.manager.rooms[channel]? = some room → room.clients[clientID]? = some entry →
        (∃ peer : Peer, entry = some peer ∧ peer.id = clientID)
          ∧ JoinedSince actions channel clientID)
      ∧ ∀ clientID channel t', Guarded HasEntry (Step parse) t (.leaveRelease clientID channel) t' →
        (channel ∈ t'.manager.rooms ↔ ∃ member, t'.manager.IsMember channel member) := by
  obtain ⟨hinv, hjoined⟩ := joinedSince_of_run hrun
  constructor
  · intro channel room clientID entry hroom hentry
    obtain ⟨-, hsound⟩ := hinv.sound channel room hroom
    obtain ⟨peer, rfl, hpeer⟩ := hsound clientID entry hentry
    refine ⟨⟨peer, rfl, hpeer.id⟩, hjoined channel clientID ⟨room, hroom, ?_⟩⟩
    rw [Std.ExtTreeMap.mem_iff_isSome_getElem?, hentry]
    rfl
  · intro clientID channel t' hstep
    exact (hinv.leaveRelease hstep.2).2.2

/-- A `JOIN` of one client. -/
def joinActions (clientID : Int32) (channel : AString) : List Action :=
  [.joinCreate clientID channel, .joinAnnounce, .joinInsert clientID channel]

theorem room_maps_wellFormed_joined :
    ∃ (t : Threads) (room : Room) (entry : Option Peer),
      Run (Guarded HasEntry (Step fun _ => .failed)) create (joinActions 1 (ascii "r")) t
        ∧ t.manager.rooms[ascii "r"]? = some room ∧ room.clients[(1 : Int32)]? = some entry
        ∧ (∃ peer : Peer, entry = some peer ∧ peer.id = 1)
        ∧ JoinedSince (joinActions 1 (ascii "r")) (ascii "r") 1 := by
  have hcalc : ((joinActions 1 (ascii "r")).foldlM (next fun _ => .failed) create).map
      (fun t => t.manager.status (ascii "r") 1) = some (some false) := by decide
  obtain ⟨t, hrun, hstatus⟩ := Option.map_eq_some_iff.mp hcalc
  have hrun : Run (Guarded HasEntry (Step fun _ => .failed)) create (joinActions 1 (ascii "r")) t := by
    refine Run.guarded (Run.of_foldlM hrun) fun s action hmem => ?_
    simp only [joinActions, List.mem_cons, List.not_mem_nil, or_false] at hmem
    obtain rfl | rfl | rfl := hmem <;> trivial
  obtain ⟨room, hroom, hmem⟩ := Manager.isMember_iff.mpr (by rw [hstatus]; exact Option.some_ne_none _)
  obtain ⟨entry, hentry⟩ := Option.isSome_iff_exists.mp (Std.ExtTreeMap.mem_iff_isSome_getElem?.mp hmem)
  exact ⟨t, room, entry, hrun, hroom, hentry,
    (room_maps_wellFormed hrun).1 (ascii "r") room 1 entry hroom hentry⟩

/-- The publishing connection of a leaving client reports that it is ready after the client's entry
has been erased. -/
theorem room_map_null_entry :
    ¬ ∀ (parse : AString → Parsed) (actions : List Action) (t : Threads),
      Run (Step parse) create actions t →
      (∀ (channel : AString) (room : Room) (clientID : Int32) (entry : Option Peer),
          t.manager.rooms[channel]? = some room → room.clients[clientID]? = some entry →
          (∃ peer : Peer, entry = some peer ∧ peer.id = clientID)
            ∧ JoinedSince actions channel clientID)
        ∧ ∀ clientID channel t', Step parse t (.leaveRelease clientID channel) t' →
          (channel ∈ t'.manager.rooms ↔ ∃ member, t'.manager.IsMember channel member) := by
  intro hclaim
  have hcalc : ((joinActions 1 (ascii "r") ++
      [Action.leaveErase 1 (ascii "r"), .connReadyInHand]).foldlM (next fun _ => .failed) create).map
      (fun t => (t.manager.rooms[ascii "r"]?).map fun room =>
        room.clients[(1 : Int32)]?.map Option.isNone) = some (some (some true)) := by decide
  obtain ⟨t, hrun, hentry⟩ := Option.map_eq_some_iff.mp hcalc
  obtain ⟨room, hroom, hentry⟩ := Option.map_eq_some_iff.mp hentry
  obtain ⟨entry, hentry, hnone⟩ := Option.map_eq_some_iff.mp hentry
  obtain ⟨hentries, -⟩ := hclaim (fun _ => .failed) _ t (Run.of_foldlM hrun)
  obtain ⟨⟨peer, rfl, -⟩, -⟩ := hentries (ascii "r") room 1 entry hroom hentry
  cases hnone

end Threads

end Licode.Channel
