import Licode.Channel.RoomMap

/-!
# Who acts on the media of a room

A `MEDIA` event names a target, and its message reaches the target's peer whoever sent it. The peer
looks its connections up by the sender: a sender that is neither the peer's own client nor one of its
subscribers is not heard. A `subscribe` message is taken without a look at the sender, and the
subscriber it makes is the client that the text names. Where both have a peer in the room, the keys of
the `subscribers` maps are members, because a `LEAVE` unsubscribes the client from everybody. The text
is read before anything else, so a JSON value that throws ends the process for any sender.
-/

namespace Licode.Channel

/-- The client that a message asks to subscribe. -/
def subscription (parse : AString → Parsed) (msg : AString) : Option Int32 :=
  match Peer.readMessage parse msg with
  | .ok (.subscribe clientID) => some clientID
  | _ => none

/-- The JSON reader or its value throws on the text. -/
def Throws (parse : AString → Parsed) (msg : AString) : Prop :=
  Peer.readMessage parse msg = .error .exception

namespace Peer

theorem apply_of_stranger {p : Peer} {target : Int32} (hstranger : p.getConnectionById target = none)
    (update : RemoteUpdate) : p.apply target update = p := by
  rw [apply, hstranger]

/-- Whoever has no connection with the peer can only subscribe, and throw. -/
theorem onMsgFromPeer_of_stranger {parse : AString → Parsed} {p : Peer} {target : Int32}
    {msg : AString} (hstranger : p.getConnectionById target = none) (hmsg : msg ≠ [])
    (hsubscription : subscription parse msg = none) (hthrows : ¬ Throws parse msg) :
    p.onMsgFromPeer parse target msg = .ok p := by
  rw [onMsgFromPeer]
  cases hread : readMessage parse msg with
  | error e =>
      obtain rfl := (ends_readMessage parse hmsg).failure hread
      exact absurd hread hthrows
  | ok request =>
      rw [Checked.ok_bind]
      cases request with
      | nothing => rfl
      | subscribe clientID =>
          rw [subscription, hread] at hsubscription
          cases hsubscription
      | update update => exact congrArg Except.ok (apply_of_stranger hstranger update)

theorem apply_subscribers (p : Peer) (target : Int32) (update : RemoteUpdate) :
    (p.apply target update).id = p.id ∧ (p.apply target update).subscribers = p.subscribers := by
  unfold apply
  split <;> exact ⟨rfl, rfl⟩

theorem onSubscribed_subscribers {p p' : Peer} {target : Int32}
    (hcall : p.onSubscribed target = .ok p') :
    p'.id = p.id ∧ ∀ key ∈ p'.subscribers, key ∈ p.subscribers ∨ key = target := by
  by_cases hpublisher : p.publisher = none
  · simp [onSubscribed, allocate, hpublisher] at hcall
  · simp only [onSubscribed, allocate, hpublisher, if_false] at hcall
    cases hcall
    refine ⟨rfl, fun key hkey => ?_⟩
    rw [Std.ExtTreeMap.mem_insert, Std.LawfulEqCmp.compare_eq_iff_eq] at hkey
    exact hkey.symm.imp_right Eq.symm

/-- A message makes at most one subscriber, the one that it names. -/
theorem onMsgFromPeer_subscribers {parse : AString → Parsed} {p p' : Peer} {target : Int32}
    {msg : AString} (hcall : p.onMsgFromPeer parse target msg = .ok p') :
    p'.id = p.id ∧ ∀ key ∈ p'.subscribers, key ∈ p.subscribers ∨ subscription parse msg = some key := by
  obtain ⟨request, hread, hperform⟩ := exists_of_bind_ok hcall
  cases request with
  | nothing =>
      cases hperform
      exact ⟨rfl, fun _ hkey => .inl hkey⟩
  | subscribe clientID =>
      obtain ⟨hid, hkeys⟩ := onSubscribed_subscribers hperform
      refine ⟨hid, fun key hkey => (hkeys key hkey).imp_right fun heq => ?_⟩
      rw [subscription, hread, heq]
  | update update =>
      cases hperform
      obtain ⟨hid, hsubscribers⟩ := p.apply_subscribers target update
      rw [hsubscribers]
      exact ⟨hid, fun _ hkey => .inl hkey⟩

theorem notifyEvent_subscribers (p : Peer) (newEvent : WebRTCEvent) (message : AString) :
    (p.notifyEvent newEvent message).1.id = p.id
      ∧ (p.notifyEvent newEvent message).1.subscribers = p.subscribers := by
  unfold notifyEvent
  split
  · exact ⟨rfl, rfl⟩
  · split <;> exact ⟨rfl, rfl⟩

end Peer

namespace Room

/-- A member in the full sense: the entry has a peer. -/
def HasPeer (room : Room) (clientID : Int32) : Prop :=
  ∃ peer, room.clients[clientID]? = some (some peer)

/-- Each peer is its client's own, and its subscribers are members, or clients that are leaving. -/
def Confined (leaving : Int32 → Prop) (room : Room) : Prop :=
  ∀ (clientID : Int32) (peer : Peer), room.clients[clientID]? = some (some peer) →
    peer.id = clientID ∧ ∀ key ∈ peer.subscribers, room.HasPeer key ∨ leaving key

theorem confined_create (leaving : Int32 → Prop) (name : AString) :
    (create name).Confined leaving := by
  intro clientID peer hentry
  simp [create] at hentry

/-- A room whose peers have become no more, with no more subscribers, and none of which has gone. -/
theorem Confined.of_peers {leaving : Int32 → Prop} {room room' : Room} (h : room.Confined leaving)
    (hpeers : ∀ (clientID : Int32) (peer' : Peer), room'.clients[clientID]? = some (some peer') →
      peer'.id = clientID ∧ ∀ key ∈ peer'.subscribers, room'.HasPeer key ∨
        ∃ peer, room.clients[clientID]? = some (some peer) ∧ key ∈ peer.subscribers)
    (hstay : ∀ clientID, room.HasPeer clientID → room'.HasPeer clientID) : room'.Confined leaving := by
  intro clientID peer' hentry
  obtain ⟨hid, hkeys⟩ := hpeers clientID peer' hentry
  refine ⟨hid, fun key hkey => ?_⟩
  obtain hnew | ⟨peer, hpeer, hold⟩ := hkeys key hkey
  · exact .inl hnew
  · exact ((h clientID peer hpeer).2 key hold).imp (hstay key) id

theorem getElem?_insert_entry (room : Room) (clientID other : Int32) (entry : Option Peer) :
    (room.clients.insert clientID entry)[other]?
      = if other = clientID then some entry else room.clients[other]? := by
  rw [Std.ExtTreeMap.getElem?_insert]
  exact if_congr (Std.LawfulEqCmp.compare_eq_iff_eq.trans eq_comm) rfl rfl

/-- A newcomer has no subscribers yet. -/
theorem Confined.insertClient {leaving : Int32 → Prop} {room : Room} (h : room.Confined leaving)
    {clientID : Int32} {newHandle : Peer} (hid : newHandle.id = clientID)
    (hnew : newHandle.subscribers = ∅) : (room.insertClient clientID newHandle).Confined leaving := by
  refine h.of_peers (fun other peer' hentry => ?_) fun other ⟨peer, hpeer⟩ => ⟨peer, ?_⟩
  · rw [insertClient_clients] at hentry
    split at hentry
    · next hother =>
      cases hentry
      rw [hnew]
      exact ⟨hid.trans hother.1.symm, fun key hkey => absurd hkey Std.ExtTreeMap.not_mem_empty⟩
    · refine ⟨(h other peer' hentry).1, fun key hkey => .inr ⟨peer', hentry, hkey⟩⟩
  · rw [insertClient_clients, if_neg, hpeer]
    rintro ⟨rfl, hnone⟩
    rw [hpeer] at hnone
    cases hnone

/-- A member's peer is replaced by one with the same connections. -/
theorem Confined.replace {leaving : Int32 → Prop} {room : Room} (h : room.Confined leaving)
    {clientID : Int32} {peer peer' : Peer} (hentry : room.clients[clientID]? = some (some peer))
    (hid : peer'.id = peer.id)
    (hkeys : ∀ key ∈ peer'.subscribers, key ∈ peer.subscribers ∨ room.HasPeer key) :
    ({ room with clients := room.clients.insert clientID (some peer') } : Room).Confined leaving
      ∧ ∀ other, room.HasPeer other →
        ({ room with clients := room.clients.insert clientID (some peer') } : Room).HasPeer other := by
  have hstay : ∀ other, room.HasPeer other →
      ({ room with clients := room.clients.insert clientID (some peer') } : Room).HasPeer other := by
    rintro other ⟨old, hold⟩
    by_cases heq : other = clientID
    · exact ⟨peer', by simp [heq]⟩
    · exact ⟨old, by simp [getElem?_insert_entry, heq, hold]⟩
  refine ⟨h.of_peers (fun other new hnew => ?_) hstay, hstay⟩
  rw [getElem?_insert_entry] at hnew
  split at hnew
  · next heq =>
    cases hnew
    subst heq
    refine ⟨hid.trans (h other peer hentry).1, fun key hkey => ?_⟩
    exact (hkeys key hkey).symm.imp (hstay key) fun hold => ⟨peer, hentry, hold⟩
  · exact ⟨(h other new hnew).1, fun key hkey => .inr ⟨new, hnew, hkey⟩⟩

theorem Confined.mono {leaving leaving' : Int32 → Prop} {room : Room} (h : room.Confined leaving)
    (hle : ∀ clientID, leaving clientID → leaving' clientID) : room.Confined leaving' := by
  intro clientID peer hentry
  obtain ⟨hid, hkeys⟩ := h clientID peer hentry
  exact ⟨hid, fun key hkey => (hkeys key hkey).imp_right (hle key)⟩

/-- The client whose peer was taken out is the only one that is missing. -/
theorem Confined.takeClient {room : Room} (h : room.Confined fun _ => False) (clientID : Int32) :
    (room.takeClient clientID).2.Confined fun other =>
      (room.takeClient clientID).1 ≠ none ∧ other = clientID := by
  cases hentry : room.clients[clientID]? with
  | none =>
      rw [Room.takeClient, hentry]
      exact h.mono fun _ hfalse => hfalse.elim
  | some entry =>
      rw [Room.takeClient, hentry]
      intro other peer hother
      simp only [eraseClient, Std.ExtTreeMap.getElem?_erase,
        Std.LawfulEqCmp.compare_eq_iff_eq] at hother
      split at hother
      · cases hother
      obtain ⟨hid, hkeys⟩ := h other peer hother
      refine ⟨hid, fun key hkey => ?_⟩
      obtain ⟨keyPeer, hkeyPeer⟩ := (hkeys key hkey).resolve_right fun hfalse => hfalse
      by_cases heq : key = clientID
      · subst heq
        rw [hentry] at hkeyPeer
        cases hkeyPeer
        exact .inr ⟨Option.some_ne_none _, rfl⟩
      · refine .inl ⟨keyPeer, ?_⟩
        simp only [eraseClient, Std.ExtTreeMap.getElem?_erase, Std.LawfulEqCmp.compare_eq_iff_eq]
        rw [if_neg (Ne.symm heq), hkeyPeer]

/-- Every entry of the list loses the subscriber. -/
theorem announceOffline_clients {clientID : Int32} {entries : List (Int32 × Option Peer)}
    {newHandle newHandle' : Peer} {room room' : Room} {outputs : List Output}
    (hnodup : (entries.map Prod.fst).Nodup)
    (hentries : ∀ entry ∈ entries, room.clients[entry.1]? = some entry.2)
    (hcall : announceOffline clientID entries newHandle room = .ok (newHandle', room', outputs)) :
    room'.channelName = room.channelName ∧ ∀ other : Int32, room'.clients[other]?
      = if other ∈ entries.map Prod.fst then
          room.clients[other]?.map (Option.map (·.onUnSubscribed clientID))
        else room.clients[other]? := by
  induction entries generalizing newHandle room outputs with
  | nil =>
      cases hcall
      exact ⟨rfl, fun other => by simp⟩
  | cons head rest ih =>
      obtain ⟨client, entry⟩ := head
      have hhead : room.clients[client]? = some entry := hentries _ List.mem_cons_self
      rw [List.map_cons, List.nodup_cons] at hnodup
      cases entry with
      | none => cases hcall
      | some peer =>
          rw [announceOffline] at hcall
          obtain ⟨⟨handle₁, room₁, outputs₁⟩, hrest, hcall⟩ := exists_of_bind_ok hcall
          cases hcall
          have hother : ∀ other : Int32, (room.clients.insert client
              (some (peer.onUnSubscribed clientID)))[other]? = if other = client
                then some (some (peer.onUnSubscribed clientID)) else room.clients[other]? :=
            fun other => room.getElem?_insert_entry client other _
          obtain ⟨hname, hclients⟩ := ih hnodup.2 (fun entry hmem => by
            have hne : entry.1 ≠ client := fun heq =>
              hnodup.1 (List.mem_map.mpr ⟨entry, hmem, heq⟩)
            rw [hother, if_neg hne]
            exact hentries entry (List.mem_cons_of_mem _ hmem)) hrest
          refine ⟨hname, fun other => ?_⟩
          rw [hclients, hother, List.map_cons]
          by_cases heq : other = client
          · subst heq
            rw [if_neg hnodup.1, if_pos rfl, if_pos List.mem_cons_self, hhead]
            rfl
          · simp only [List.mem_cons, heq, false_or, if_false]

theorem announceOffline_toList_clients {clientID : Int32} {newHandle newHandle' : Peer}
    {room room' : Room} {outputs : List Output}
    (hcall : announceOffline clientID room.clients.toList newHandle room
      = .ok (newHandle', room', outputs)) (other : Int32) :
    room'.clients[other]? = room.clients[other]?.map (Option.map (·.onUnSubscribed clientID)) := by
  have hkeys : room.clients.toList.map Prod.fst = room.clients.keys :=
    Std.ExtTreeMap.map_fst_toList_eq_keys
  obtain ⟨-, hclients⟩ := announceOffline_clients (by rw [hkeys]; exact room.enumerates_keys.1)
    (fun entry hmem => Std.ExtTreeMap.mem_toList_iff_getElem?_eq_some.mp hmem) hcall
  rw [hclients, hkeys]
  by_cases hmem : other ∈ room.clients
  · rw [if_pos (Std.ExtTreeMap.mem_keys.mpr hmem)]
  · rw [if_neg (mt Std.ExtTreeMap.mem_keys.mp hmem), Std.ExtTreeMap.getElem?_eq_none hmem]
    rfl

/-- After the announcement nobody is subscribed to the client that has left. -/
theorem Confined.announceOffline {clientID : Int32} {newHandle newHandle' : Peer}
    {room room' : Room} {outputs : List Output} (h : room.Confined (· = clientID))
    (hcall : Room.announceOffline clientID room.clients.toList newHandle room
      = .ok (newHandle', room', outputs)) : room'.Confined fun _ => False := by
  intro other peer' hentry
  rw [announceOffline_toList_clients hcall, Option.map_eq_some_iff] at hentry
  obtain ⟨entry, hentry, hpeer'⟩ := hentry
  obtain ⟨peer, rfl, rfl⟩ := Option.map_eq_some_iff.mp hpeer'
  obtain ⟨hid, hkeys⟩ := h other peer hentry
  refine ⟨hid, fun key hkey => .inl ?_⟩
  have hkey : key ∈ peer.subscribers.erase clientID := hkey
  rw [Std.ExtTreeMap.mem_erase, ne_eq, Std.LawfulEqCmp.compare_eq_iff_eq] at hkey
  obtain ⟨hne, hmem⟩ := hkey
  obtain ⟨keyPeer, hkeyPeer⟩ := (hkeys key hmem).resolve_right (Ne.symm hne)
  refine ⟨keyPeer.onUnSubscribed clientID, ?_⟩
  rw [announceOffline_toList_clients hcall, hkeyPeer]
  rfl

/-- An entry without a peer may come up; the peers stay. -/
theorem Confined.react {leaving : Int32 → Prop} {room : Room} (h : room.Confined leaving)
    (peerID : Int32) (reaction : Reaction) : (room.react peerID reaction).1.Confined leaving := by
  cases reaction with
  | nothing | sendMsgToPeer | onSubscribedSuccess | deleteListener => exact h
  | onJoinedChannel =>
      rw [Room.react, broadcastJoinChannel]
      split
      · next hnone =>
        refine h.of_peers (fun other peer hentry => ?_) fun other hother => ?_
        · rw [getElem?_insert_entry] at hentry
          split at hentry
          · cases hentry
          · exact ⟨(h other peer hentry).1, fun key hkey => .inr ⟨peer, hentry, hkey⟩⟩
        · obtain ⟨peer, hpeer⟩ := hother
          refine ⟨peer, ?_⟩
          rw [getElem?_insert_entry, if_neg, hpeer]
          rintro rfl
          rw [hnone] at hpeer
          cases hpeer
      · exact h
      · exact h

theorem Confined.notifyClient {leaving : Int32 → Prop} {room room' : Room}
    (h : room.Confined leaving) {clientID : Int32} {newEvent : WebRTCEvent} {message : AString}
    {outputs : List Output}
    (hcall : room.notifyClient clientID newEvent message = some (room', outputs)) :
    room'.Confined leaving := by
  unfold Room.notifyClient at hcall
  split at hcall
  · cases hcall
  · cases hcall
  · next peer hentry =>
    obtain ⟨hid, hsubscribers⟩ := peer.notifyEvent_subscribers newEvent message
    have hreplaced := (h.replace hentry hid (fun key hkey => .inl (hsubscribers ▸ hkey))).1
    have hreact := hreplaced.react peer.id (peer.notifyEvent newEvent message).2
    have hroom' : (Room.react _ peer.id (peer.notifyEvent newEvent message).2).1 = room' :=
      congrArg Prod.fst (Option.some.inj hcall)
    exact hroom' ▸ hreact

theorem Confined.onMsgFromPeer {leaving : Int32 → Prop} {parse : AString → Parsed}
    {room room' : Room} (h : room.Confined leaving) {fromID targetID : Int32} {msg : AString}
    (hsubscription : ∀ clientID, subscription parse msg = some clientID → room.HasPeer targetID →
      room.HasPeer clientID)
    (hcall : room.onMsgFromPeer parse fromID targetID msg = .ok room') : room'.Confined leaving := by
  unfold Room.onMsgFromPeer at hcall
  split at hcall
  · cases hcall
    exact h
  · cases hcall
  · next peer hentry =>
    obtain ⟨peer', hpeer', hcall⟩ := exists_of_bind_ok hcall
    cases hcall
    obtain ⟨hid, hkeys⟩ := Peer.onMsgFromPeer_subscribers hpeer'
    refine (h.replace hentry hid fun key hkey => (hkeys key hkey).imp_right ?_).1
    exact fun hnew => hsubscription key hnew ⟨peer, hentry⟩

/-- Nobody outside the room is heard, except when it subscribes. An empty message fails the assertion
of the target's peer. -/
theorem Confined.onMsgFromPeer_of_stranger {parse : AString → Parsed} {room : Room}
    (h : room.Confined fun _ => False) {fromID targetID : Int32} {msg : AString}
    (hstranger : ¬ room.HasPeer fromID)
    (hheard : subscription parse msg = none ∧ ¬ Throws parse msg ∨ ¬ room.HasPeer targetID) :
    room.onMsgFromPeer parse fromID targetID msg = .ok room
      ∨ (msg = [] ∧ room.onMsgFromPeer parse fromID targetID msg = .error .assertion)
      ∨ (room.clients[targetID]? = some none
        ∧ room.onMsgFromPeer parse fromID targetID msg = .error .nullPointer) := by
  unfold Room.onMsgFromPeer
  split
  · exact .inl rfl
  · next hnull => exact .inr (.inr ⟨hnull, rfl⟩)
  · next peer hentry =>
    by_cases hmsg : msg = []
    · subst hmsg
      exact .inr (.inl ⟨rfl, rfl⟩)
    obtain ⟨hid, hkeys⟩ := h targetID peer hentry
    have hconnection : peer.getConnectionById fromID = none := by
      have hne : fromID ≠ peer.id := by
        rintro rfl
        exact hstranger ⟨peer, hid ▸ hentry⟩
      rw [Peer.getConnectionById, if_neg hne]
      refine Std.ExtTreeMap.getElem?_eq_none fun hkey => ?_
      exact hstranger ((hkeys fromID hkey).resolve_right fun hfalse => hfalse)
    obtain ⟨hnone, hthrows⟩ := hheard.resolve_right fun hno => hno ⟨peer, hentry⟩
    have hsame : room.clients.insert targetID (some peer) = room.clients := by
      refine Std.ExtTreeMap.ext_getElem? fun other => ?_
      rw [getElem?_insert_entry]
      split
      · next heq => rw [heq, hentry]
      · rfl
    left
    rw [Peer.onMsgFromPeer_of_stranger hconnection hmsg hnone hthrows, Checked.ok_bind, hsame]
    rfl

end Room

namespace Manager

def HasPeer (m : Manager) (channel : AString) (clientID : Int32) : Prop :=
  ∃ room, m.rooms[channel]? = some room ∧ room.HasPeer clientID

instance (m : Manager) (channel : AString) (clientID : Int32) :
    Decidable (m.HasPeer channel clientID) :=
  decidable_of_iff ((m.rooms[channel]?.bind (·.clients[clientID]?)).bind id ≠ none) <| by
    unfold HasPeer Room.HasPeer
    cases m.rooms[channel]? with
    | none => simp
    | some room =>
        cases hentry : room.clients[clientID]? with
        | none => simp [hentry]
        | some entry => simp [hentry, Option.ne_none_iff_exists']

def Confined (leaving : AString → Int32 → Prop) (m : Manager) : Prop :=
  ∀ (name : AString) (room : Room), m.rooms[name]? = some room → room.Confined (leaving name)

theorem confined_create (leaving : AString → Int32 → Prop) : create.Confined leaving := by
  intro name room hroom
  simp [create] at hroom

theorem Confined.doGetRoomSet {leaving : AString → Int32 → Prop} {m : Manager}
    (h : m.Confined leaving) (name : AString) : (m.doGetRoomSet name).Confined (leaving name) := by
  unfold Manager.doGetRoomSet
  cases hroom : m.rooms[name]? with
  | none => exact Room.confined_create _ name
  | some room => exact h name room hroom

theorem getElem?_putRoom (m : Manager) (name other : AString) (room : Room) :
    (m.putRoom name room).rooms[other]? = if other = name then some room else m.rooms[other]? := by
  unfold putRoom
  dsimp only
  rw [Std.ExtTreeMap.getElem?_insert]
  exact if_congr (Std.LawfulEqCmp.compare_eq_iff_eq.trans eq_comm) rfl rfl

theorem putRoom_of_room {m : Manager} {name : AString} {room : Room}
    (hroom : m.rooms[name]? = some room) : m.putRoom name room = m := by
  have hsame : (m.putRoom name room).rooms = m.rooms := by
    refine Std.ExtTreeMap.ext_getElem? fun other => ?_
    rw [getElem?_putRoom]
    split
    · next heq => rw [heq, hroom]
    · rfl
  exact congrArg (fun rooms => ({ m with rooms := rooms } : Manager)) hsame

theorem Confined.putRoom {leaving leaving' : AString → Int32 → Prop} {m : Manager}
    (h : m.Confined leaving) {name : AString} {room : Room} (hroom : room.Confined (leaving' name))
    (hothers : ∀ other, other ≠ name → ∀ clientID, leaving other clientID → leaving' other clientID) :
    (m.putRoom name room).Confined leaving' := by
  intro other room' hother
  rw [getElem?_putRoom] at hother
  split at hother
  · next heq =>
    cases hother
    exact heq ▸ hroom
  · next hne => exact (h other room' hother).mono (hothers other hne)

theorem Confined.releaseIfEmpty {leaving : AString → Int32 → Prop} {m : Manager}
    (h : m.Confined leaving) (channel : AString) (room : Room) :
    (m.releaseIfEmpty channel room).Confined leaving := by
  unfold Manager.releaseIfEmpty
  split
  · intro name room' hname
    unfold doReleaseRoom at hname
    rw [Std.ExtTreeMap.getElem?_erase] at hname
    split at hname
    · cases hname
    · exact h name room' hname
  · exact h

theorem Confined.notifyClient {leaving : AString → Int32 → Prop} {m m' : Manager}
    (h : m.Confined leaving) {channel : AString} {clientID : Int32} {newEvent : WebRTCEvent}
    (hcall : m.notifyClient channel clientID newEvent = some m') : m'.Confined leaving := by
  obtain ⟨room, hroom, hcall⟩ := Option.bind_eq_some_iff.mp hcall
  obtain ⟨⟨room', outputs⟩, hnotify, hcall⟩ := Option.bind_eq_some_iff.mp hcall
  cases hcall
  exact h.putRoom ((h channel room hroom).notifyClient hnotify) fun _ _ _ hleaving => hleaving

end Manager

/-- The client that has been erased from its room and not yet from the other peers. -/
def DealPoint.leaving : DealPoint → AString → Int32 → Prop
  | .leaveErased clientID channel newHandle =>
      fun name other => name = channel ∧ newHandle ≠ none ∧ other = clientID
  | _ => fun _ _ => False

namespace Threads

/-- A `subscribe` message to a member comes from a member and names a member, and a text to a member
on which the JSON reader throws comes from a member. -/
def SubscribeGuard (parse : AString → Parsed) (t : Threads) : Action → Prop
  | .media event => t.manager.HasPeer event.channel event.targetID →
      (∀ clientID, subscription parse event.msg = some clientID →
        t.manager.HasPeer event.channel event.clientID ∧ t.manager.HasPeer event.channel clientID)
      ∧ (Throws parse event.msg → t.manager.HasPeer event.channel event.clientID)
  | _ => True

structure Confined (t : Threads) : Prop where
  rooms : t.manager.Confined t.point.leaving
  newcomer : ∀ clientID channel newHandle, t.point = .joinCreated clientID channel newHandle
    ∨ t.point = .joinAnnounced clientID channel newHandle →
      newHandle.id = clientID ∧ newHandle.subscribers = ∅

theorem confined_create : create.Confined where
  rooms := Manager.confined_create _
  newcomer := by
    rintro clientID channel newHandle (heq | heq) <;> cases heq

section Parts

variable {parse : AString → Parsed} {t t' : Threads}

theorem Confined.joinCreate (h : t.Confined) {clientID : Int32} {channel : AString}
    (hstep : Step parse t (.joinCreate clientID channel) t') : t'.Confined := by
  simp only [Step, next] at hstep
  split at hstep
  · next hpoint =>
    have hrooms := h.rooms
    rw [hpoint] at hrooms
    cases hstep
    refine ⟨hrooms.putRoom (hrooms.doGetRoomSet channel) fun _ _ _ hfalse => hfalse, ?_⟩
    rintro other name newHandle (heq | heq) <;> cases heq
    exact ⟨rfl, rfl⟩
  · cases hstep

theorem Confined.joinAnnounce (h : t.Confined) (hstep : Step parse t .joinAnnounce t') :
    t'.Confined := by
  simp only [Step, next] at hstep
  split at hstep
  · next clientID channel newHandle hpoint =>
    have hrooms := h.rooms
    rw [hpoint] at hrooms
    cases hstep
    refine ⟨hrooms, ?_⟩
    rintro other name newHandle' (heq | heq) <;> cases heq
    exact h.newcomer clientID channel newHandle (.inl hpoint)
  · cases hstep

theorem Confined.joinInsert (h : t.Confined) {clientID : Int32} {channel : AString}
    (hstep : Step parse t (.joinInsert clientID channel) t') : t'.Confined := by
  simp only [Step, next] at hstep
  split at hstep
  · next clientID' channel' newHandle hpoint =>
    have hrooms := h.rooms
    rw [hpoint] at hrooms
    obtain ⟨hid, hnew⟩ := h.newcomer clientID' channel' newHandle (.inr hpoint)
    split at hstep
    · next hsame =>
      cases hstep
      refine ⟨hrooms.putRoom ((hrooms.doGetRoomSet channel).insertClient (hid.trans hsame.1.symm) hnew)
        fun _ _ _ hfalse => hfalse, ?_⟩
      rintro other name newHandle' (heq | heq) <;> cases heq
    · cases hstep
  · cases hstep

theorem Confined.leaveErase (h : t.Confined) {clientID : Int32} {channel : AString}
    (hstep : Step parse t (.leaveErase clientID channel) t') : t'.Confined := by
  simp only [Step, next] at hstep
  split at hstep
  · next hpoint =>
    have hrooms := h.rooms
    rw [hpoint] at hrooms
    cases hstep
    refine ⟨hrooms.putRoom (((hrooms.doGetRoomSet channel).takeClient clientID).mono ?_)
      fun _ _ _ hfalse => hfalse.elim, ?_⟩
    · exact fun other hleaving => ⟨rfl, hleaving⟩
    · rintro other name newHandle' (heq | heq) <;> cases heq
  · cases hstep

theorem Confined.leaveAnnounce (h : t.Confined) (hstep : Step parse t .leaveAnnounce t') :
    t'.Confined := by
  simp only [Step, next] at hstep
  split at hstep
  · next clientID channel hpoint =>
    have hrooms := h.rooms
    rw [hpoint] at hrooms
    cases hstep
    refine ⟨fun name room hroom => (hrooms name room hroom).mono fun other hleaving => ?_, ?_⟩
    · exact hleaving.2.1 rfl
    · rintro other name newHandle' (heq | heq) <;> cases heq
  · next clientID channel newHandle hpoint =>
    have hrooms := h.rooms
    rw [hpoint] at hrooms
    obtain ⟨⟨handle₁, room₁, outputs₁⟩, hcall, hstep⟩ := Option.bind_eq_some_iff.mp hstep
    cases hstep
    have hloop : Room.announceOffline clientID (t.manager.doGetRoomSet channel).clients.toList
        newHandle.doLeave (t.manager.doGetRoomSet channel) = .ok (handle₁, room₁, outputs₁) := by
      generalize Room.announceOffline clientID _ _ _ = result at hcall ⊢
      cases result with
      | error fault => cases hcall
      | ok result => exact congrArg Except.ok (Option.some.inj hcall)
    have hroom := (hrooms.doGetRoomSet channel).mono fun other hleaving => hleaving.2.2
    refine ⟨hrooms.putRoom (hroom.announceOffline hloop) fun other hne _ hleaving => ?_, ?_⟩
    · exact hne hleaving.1
    · rintro other name newHandle' (heq | heq) <;> cases heq
  · cases hstep

theorem Confined.leaveRelease (h : t.Confined) {clientID : Int32} {channel : AString}
    (hstep : Step parse t (.leaveRelease clientID channel) t') : t'.Confined := by
  simp only [Step, next] at hstep
  split at hstep
  · next clientID' channel' newHandle hpoint =>
    have hrooms := h.rooms
    rw [hpoint] at hrooms
    split at hstep
    · cases hstep
      refine ⟨Manager.Confined.releaseIfEmpty (m := t.manager.output _) hrooms _ _, ?_⟩
      rintro other name newHandle' (heq | heq) <;> cases heq
    · cases hstep
  · cases hstep

theorem Confined.media (h : t.Confined) {event : MediaEvent}
    (hguard : SubscribeGuard parse t (.media event))
    (hstep : Step parse t (.media event) t') : t'.Confined := by
  simp only [Step, next] at hstep
  split at hstep
  · next hpoint htype =>
    have hrooms := h.rooms
    rw [hpoint] at hrooms
    obtain ⟨m', hcall, rfl⟩ := Option.map_eq_some_iff.mp hstep
    refine ⟨?_, by rintro other name newHandle' (heq | heq) <;> cases heq⟩
    simp only [Manager.dealEvent, htype, Manager.doGetRoom] at hcall
    cases hroom : t.manager.rooms[event.channel]? with
    | none =>
        rw [hroom] at hcall
        cases hcall
        exact hrooms
    | some room =>
        rw [hroom] at hcall
        dsimp only at hcall
        cases hmsg : room.onMsgFromPeer parse event.clientID event.targetID event.msg with
        | error fault =>
            rw [hmsg] at hcall
            cases hcall
        | ok room' =>
            rw [hmsg] at hcall
            cases hcall
            refine hrooms.putRoom ((hrooms event.channel room hroom).onMsgFromPeer ?_ hmsg)
              fun _ _ _ hfalse => hfalse
            intro clientID hsubscription htarget
            obtain ⟨-, room₁, hroom₁, hpeer⟩ :=
              (hguard ⟨room, hroom, htarget⟩).1 clientID hsubscription
            rw [hroom] at hroom₁
            cases hroom₁
            exact hpeer
  · cases hstep

theorem Confined.connReady (h : t.Confined) {channel : AString} {clientID : Int32}
    (hstep : Step parse t (.connReady channel clientID) t') : t'.Confined := by
  simp only [Step, next] at hstep
  obtain ⟨m', hcall, rfl⟩ := Option.map_eq_some_iff.mp hstep
  exact ⟨h.rooms.notifyClient hcall, h.newcomer⟩

theorem leaving_setHandle {point : DealPoint} {channel : AString} {newHandle : Peer}
    (hhandle : point.handle = some (channel, newHandle)) (newHandle' : Peer) :
    (point.setHandle newHandle').leaving = point.leaving := by
  cases point with
  | leaveErased clientID name handle =>
      cases handle with
      | none => cases hhandle
      | some handle => simp [DealPoint.setHandle, DealPoint.leaving]
  | idle | joinCreated | joinAnnounced | leaveAnnounced => rfl

theorem Confined.connReadyInHand (h : t.Confined) (hstep : Step parse t .connReadyInHand t') :
    t'.Confined := by
  simp only [Step, next] at hstep
  obtain ⟨⟨channel, newHandle⟩, hhandle, rfl⟩ := Option.map_eq_some_iff.mp hstep
  constructor
  · dsimp only
    rw [leaving_setHandle hhandle]
    exact h.rooms.putRoom ((h.rooms.doGetRoomSet channel).react _ _) fun _ _ _ hleaving => hleaving
  · obtain ⟨hid, hsubscribers⟩ := newHandle.notifyEvent_subscribers .connReady []
    intro clientID name handle hpoint
    have hsame : handle = (newHandle.notifyEvent .connReady []).1
        ∧ newHandle.id = clientID ∧ newHandle.subscribers = ∅ := by
      have hnewcomer := h.newcomer clientID name newHandle
      cases ht : t.point with
      | idle | leaveErased | leaveAnnounced =>
          rw [ht] at hpoint
          rcases hpoint with heq | heq <;> cases heq
      | joinCreated | joinAnnounced =>
          rw [ht] at hpoint hhandle hnewcomer
          cases hhandle
          rcases hpoint with heq | heq <;> cases heq
          exact ⟨rfl, hnewcomer (by simp)⟩
    obtain ⟨rfl, hnew, hnone⟩ := hsame
    exact ⟨hid.trans hnew, hsubscribers.trans hnone⟩

theorem Confined.step (h : t.Confined) {action : Action}
    (hstep : Guarded (SubscribeGuard parse) (Step parse) t action t') : t'.Confined := by
  obtain ⟨hguard, hstep⟩ := hstep
  cases action with
  | joinCreate => exact h.joinCreate hstep
  | joinAnnounce => exact h.joinAnnounce hstep
  | joinInsert => exact h.joinInsert hstep
  | leaveErase => exact h.leaveErase hstep
  | leaveAnnounce => exact h.leaveAnnounce hstep
  | leaveRelease => exact h.leaveRelease hstep
  | media => exact h.media hguard hstep
  | connReady => exact h.connReady hstep
  | connReadyInHand => exact h.connReadyInHand hstep

end Parts

/-- What a `MEDIA` event of a client without a peer in the room does: nothing, or it fails as the
same event of a member would. -/
def Ineffective (parse : AString → Parsed) (m : Manager) (event : MediaEvent) : Prop :=
  m.dealEvent parse event = .ok m
    ∨ (event.msg = [] ∧ m.dealEvent parse event = .error .assertion)
    ∨ (∃ room, m.rooms[event.channel]? = some room ∧ room.clients[event.targetID]? = some none
      ∧ m.dealEvent parse event = .error .nullPointer)

theorem ineffective_of_stranger {parse : AString → Parsed} {m : Manager}
    (h : m.Confined fun _ _ => False) {event : MediaEvent} (htype : event.type = .media)
    (hstranger : ¬ m.HasPeer event.channel event.clientID)
    (hheard : subscription parse event.msg = none ∧ ¬ Throws parse event.msg
      ∨ ¬ m.HasPeer event.channel event.targetID) : Ineffective parse m event := by
  cases hroom : m.rooms[event.channel]? with
  | none =>
      left
      rw [Manager.dealEvent, htype]
      dsimp only
      rw [Manager.doGetRoom, hroom]
      rfl
  | some room =>
      have hdeal : m.dealEvent parse event = do
          let room ← room.onMsgFromPeer parse event.clientID event.targetID event.msg
          return m.putRoom event.channel room := by
        rw [Manager.dealEvent, htype]
        dsimp only
        rw [Manager.doGetRoom, hroom]
      obtain hok | ⟨hmsg, herror⟩ | ⟨hnull, herror⟩ :=
        (h event.channel room hroom).onMsgFromPeer_of_stranger
          (fun hpeer => hstranger ⟨room, hroom, hpeer⟩)
          (hheard.imp_right fun hno hpeer => hno ⟨room, hroom, hpeer⟩)
      · rw [hok, Checked.ok_bind, Manager.putRoom_of_room hroom] at hdeal
        exact .inl hdeal
      · rw [herror] at hdeal
        exact .inr (.inl ⟨hmsg, hdeal⟩)
      · rw [herror] at hdeal
        exact .inr (.inr ⟨room, hroom, hnull, hdeal⟩)

/-- Between two events, the subscribers of every member are members, and a `MEDIA` event of anybody
else changes nothing, in every run in which the `subscribe` messages to members come from members and
name members, and the texts on which the JSON reader throws come from members. -/
theorem only_members_act {parse : AString → Parsed} {actions : List Action} {t : Threads}
    (hrun : Run (Guarded (SubscribeGuard parse) (Step parse)) create actions t)
    (hidle : t.point = .idle) :
    (∀ (channel : AString) (room : Room) (clientID key : Int32) (peer : Peer),
        t.manager.rooms[channel]? = some room → room.clients[clientID]? = some (some peer) →
        key ∈ peer.subscribers → room.HasPeer key)
      ∧ ∀ event, event.type = .media → ¬ t.manager.HasPeer event.channel event.clientID →
        SubscribeGuard parse t (.media event) → Ineffective parse t.manager event := by
  have hconfined : t.Confined := hrun.invariant confined_create fun h hstep => h.step hstep
  have hrooms := hconfined.rooms
  rw [hidle] at hrooms
  constructor
  · intro channel room clientID key peer hroom hentry hkey
    exact ((hrooms channel room hroom clientID peer hentry).2 key hkey).resolve_right
      fun hfalse => hfalse
  · intro event htype hstranger hguard
    refine ineffective_of_stranger hrooms htype hstranger ?_
    by_cases htarget : t.manager.HasPeer event.channel event.targetID
    · obtain ⟨hsubscribe, hthrows⟩ := hguard htarget
      refine .inl ⟨?_, fun h => hstranger (hthrows h)⟩
      refine Option.eq_none_iff_forall_ne_some.mpr fun clientID hsubscription => hstranger ?_
      exact (hsubscribe clientID hsubscription).1
    · exact .inr htarget

theorem idle_of_channel {point : DealPoint} (h : point.channel = none) : point = .idle := by
  cases point <;> cases h
  rfl

/-- A reader that knows the text with which client 2 subscribes. -/
def readSubscribe (msg : AString) : Parsed :=
  if msg = ascii "\x7b\"type\":\"subscribe\",\"clientID\":2\x7d" then
    .root (.object [(ascii "type", .string (ascii "subscribe")), (ascii "clientID", .int 2)])
  else .failed

/-- Client 2 asks the peer of client 1 to let it subscribe. -/
def subscribeEvent : MediaEvent where
  clientID := 2
  channel := ascii "r"
  type := .media
  msg := ascii "\x7b\"type\":\"subscribe\",\"clientID\":2\x7d"
  targetID := 1

/-- Whether client 2 is among the subscribers of client 1. -/
def isSubscribed (t : Threads) : Option Bool := do
  let room ← t.manager.rooms[ascii "r"]?
  let entry ← room.clients[(1 : Int32)]?
  return (← entry).subscribers.contains 2

theorem isSubscribed_eq_true {t : Threads} (h : isSubscribed t = some true) :
    ∃ (room : Room) (peer : Peer), t.manager.rooms[ascii "r"]? = some room
      ∧ room.clients[(1 : Int32)]? = some (some peer) ∧ (2 : Int32) ∈ peer.subscribers := by
  obtain ⟨room, hroom, h⟩ := Option.bind_eq_some_iff.mp h
  obtain ⟨entry, hentry, h⟩ := Option.bind_eq_some_iff.mp h
  obtain ⟨peer, rfl, h⟩ := Option.bind_eq_some_iff.mp h
  exact ⟨room, peer, hroom, hentry, Std.ExtTreeMap.mem_iff_contains.mpr (Option.some.inj h)⟩

theorem only_members_act_subscribed :
    ∃ (t : Threads) (room : Room) (peer : Peer),
      Run (Guarded (SubscribeGuard readSubscribe) (Step readSubscribe)) create
          (joinActions 1 (ascii "r") ++ joinActions 2 (ascii "r") ++ [.media subscribeEvent]) t
        ∧ t.manager.rooms[ascii "r"]? = some room ∧ room.clients[(1 : Int32)]? = some (some peer)
        ∧ (2 : Int32) ∈ peer.subscribers ∧ room.HasPeer 2 := by
  have hjoined : ((joinActions 1 (ascii "r") ++ joinActions 2 (ascii "r")).foldlM
      (next readSubscribe) create).map (fun t => (decide (t.manager.HasPeer (ascii "r") 2),
        (t.next readSubscribe (.media subscribeEvent)).map fun t' =>
          (t'.point.channel, isSubscribed t'))) = some (true, some (none, some true)) := by decide
  obtain ⟨t₁, hrun, hpeers⟩ := Option.map_eq_some_iff.mp hjoined
  obtain ⟨hpeer, hmedia⟩ := Prod.mk.inj hpeers
  obtain ⟨t, hstep, hend⟩ := Option.map_eq_some_iff.mp hmedia
  obtain ⟨hpoint, hsubscribed⟩ := Prod.mk.inj hend
  have hrun : Run (Guarded (SubscribeGuard readSubscribe) (Step readSubscribe)) create
      (joinActions 1 (ascii "r") ++ joinActions 2 (ascii "r")) t₁ := by
    refine Run.guarded (Run.of_foldlM hrun) fun s action hmem => ?_
    simp only [joinActions, List.mem_append, List.mem_cons, List.not_mem_nil, or_false] at hmem
    obtain (rfl | rfl | rfl) | rfl | rfl | rfl := hmem <;> trivial
  have hguard : SubscribeGuard readSubscribe t₁ (.media subscribeEvent) := by
    refine fun _ => ⟨fun clientID hsubscription => ?_, fun _ => of_decide_eq_true hpeer⟩
    have htwo : subscription readSubscribe subscribeEvent.msg = some 2 := by decide
    rw [htwo] at hsubscription
    cases hsubscription
    exact ⟨of_decide_eq_true hpeer, of_decide_eq_true hpeer⟩
  have hidle : t.point = .idle := idle_of_channel hpoint
  obtain ⟨room, peer, hroom, hentry, hmem⟩ := isSubscribed_eq_true hsubscribed
  have hrun := hrun.snoc ⟨hguard, hstep⟩
  exact ⟨t, room, peer, hrun, hroom, hentry, hmem,
    (only_members_act hrun hidle).1 (ascii "r") room 1 2 peer hroom hentry hmem⟩

/-- Client 2 has not joined, and subscribes. -/
theorem stranger_subscribed :
    ¬ ∀ (parse : AString → Parsed) (actions : List Action) (t : Threads),
      Run (Step parse) create actions t → t.point = .idle →
      (∀ (channel : AString) (room : Room) (clientID key : Int32) (peer : Peer),
          t.manager.rooms[channel]? = some room → room.clients[clientID]? = some (some peer) →
          key ∈ peer.subscribers → room.HasPeer key)
        ∧ ∀ event, event.type = .media → ¬ t.manager.HasPeer event.channel event.clientID →
          Ineffective parse t.manager event := by
  intro hclaim
  have hcalc : ((joinActions 1 (ascii "r") ++ [Action.media subscribeEvent]).foldlM
      (next readSubscribe) create).map (fun t => (decide (t.manager.HasPeer (ascii "r") 2), t.point.channel,
        isSubscribed t)) = some (false, none, some true) := by decide
  obtain ⟨t, hrun, hend⟩ := Option.map_eq_some_iff.mp hcalc
  obtain ⟨hpeer, hend⟩ := Prod.mk.inj hend
  obtain ⟨hpoint, hsubscribed⟩ := Prod.mk.inj hend
  have hidle : t.point = .idle := idle_of_channel hpoint
  obtain ⟨room, peer, hroom, hentry, hmem⟩ := isSubscribed_eq_true hsubscribed
  obtain ⟨hmembers, -⟩ := hclaim readSubscribe _ t (Run.of_foldlM hrun) hidle
  exact of_decide_eq_false hpeer
    ⟨room, hroom, hmembers (ascii "r") room 1 2 peer hroom hentry hmem⟩

end Threads

end Licode.Channel
