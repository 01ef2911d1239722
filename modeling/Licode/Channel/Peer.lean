import Licode.Channel.JsonValue
import Licode.Server.ProtocolImpl

/-!
# A participant of a room and its connections

A `cPeer` owns the connection on which its client publishes and, through its muxer, one connection
for each client that watches it. Connections and event listeners are named by the order in which the
peer allocated them, so that two maps that should agree on an object can be compared.

`std::map` is the ordered map of the standard library.
-/

namespace Licode.Channel

abbrev StdMap (κ ν : Type) [Ord κ] := Std.ExtTreeMap κ ν compare

inductive WebRTCEvent where
  | connInitial
  | connStarted
  | connGathered
  | connReady
  | connFinished
  | connCandidate
  | connSdp
  | connFailed
  deriving DecidableEq, Repr

/-- What a peer or its room writes to a client. -/
inductive Body where
  | online (clientID : Int32)
  | offline (clientID : Int32)
  | publisher (clientID : Int32)
  | answer (sdp : AString)
  | offer (sdp : AString)
  | candidate (message : AString)
  deriving DecidableEq, Repr

/-- `Printf("%d", id)`. -/
def printInt (id : Int32) : AString := ascii (toString id.toInt)

/-- `state` is not initialised by the constructor; the first event is always the `CONN_INITIAL` of
`init`, which does nothing else, so that no value the field may have had makes a difference. -/
structure EventListener where
  object : Nat
  id : Int32
  state : Option WebRTCEvent
  deriving DecidableEq, Repr

structure Connection where
  object : Nat
  listener : Nat
  deriving DecidableEq, Repr

inductive RemoteUpdate where
  | setRemoteSdp (sdp : AString)
  | addRemoteCandidate (sdpMid : AString) (sdpMLineIndex : Int32) (sdp : AString)
  deriving DecidableEq, Repr

structure Peer where
  id : Int32
  ready : Bool
  publisher : Option Connection
  eventListener : Option EventListener
  subscribers : StdMap Int32 Connection
  eventListeners : StdMap Int32 EventListener
  /-- The connections that the muxer owns, by the decimal text of the id. -/
  muxer : StdMap AString Connection
  allocated : Nat
  /-- The listeners that have been deleted. -/
  deleted : List Nat
  /-- What was applied to which connection. -/
  remote : List (Connection × RemoteUpdate)

/-- What the text of a message asks of a peer. -/
inductive PeerRequest where
  | nothing
  | subscribe (clientID : Int32)
  | update (update : RemoteUpdate)
  deriving DecidableEq, Repr

/-- What an event makes the peer do. -/
inductive Reaction where
  | nothing
  | sendMsgToPeer (target : Int32) (body : Body)
  | onJoinedChannel
  | onSubscribedSuccess (target : Int32)
  | deleteListener
  deriving DecidableEq, Repr

/-- `cPeer::WebRtcEventListener::notifyEvent`. -/
def EventListener.notifyEvent (listener : EventListener) (peerId : Int32) (newEvent : WebRTCEvent)
    (message : AString) : EventListener × Reaction :=
  if listener.state = some newEvent then (listener, .nothing)
  else
    ({ listener with state := some newEvent },
      match newEvent with
      | .connSdp | .connGathered =>
          .sendMsgToPeer listener.id
            (if peerId = listener.id then .answer message else .offer message)
      | .connReady =>
          if peerId = listener.id then .onJoinedChannel else .onSubscribedSuccess listener.id
      | .connFinished => .deleteListener
      | .connCandidate => .sendMsgToPeer listener.id (.candidate message)
      | .connInitial | .connStarted | .connFailed => .nothing)

namespace Peer

def create (id : Int32) : Peer where
  id := id
  ready := false
  publisher := none
  eventListener := none
  subscribers := ∅
  eventListeners := ∅
  muxer := ∅
  allocated := 0
  deleted := []
  remote := []

/-- `new WebRtcEventListener` and `new WebRtcConnection`, which gets the listener. -/
def allocate (p : Peer) (id : Int32) : EventListener × Connection × Peer :=
  (⟨p.allocated, id, none⟩, ⟨p.allocated + 1, p.allocated⟩, { p with allocated := p.allocated + 2 })

/-- `WebRtcConnection::init` reports the initial state and returns true. -/
def connectionInit (p : Peer) (listener : EventListener) : Bool × EventListener :=
  (true, (listener.notifyEvent p.id .connInitial []).1)

/-- `cPeer::doJoin`. -/
def doJoin (p : Peer) : Bool × Peer :=
  let (listener, publisher, p) := p.allocate p.id
  let (ok, listener) := p.connectionInit listener
  (ok, { p with publisher := some publisher, eventListener := some listener })

def doLeave (p : Peer) : Peer := { p with ready := false }

/-- `cPeer::onSubscribed`. The offer created at the end reports the state that `init` has already
reported, so the listener passes nothing on. -/
def onSubscribed (p : Peer) (target : Int32) : Checked Peer := do
  let (listener, newConn, p) := p.allocate target
  -- `publisher->localSdp_`
  if p.publisher = none then .error .nullPointer
  let (_, listener) := p.connectionInit listener
  return { p with
    subscribers := p.subscribers.insert target newConn
    eventListeners := p.eventListeners.insert target listener
    muxer := p.muxer.insert (printInt target) newConn }

/-- `cPeer::onUnSubscribed`. -/
def onUnSubscribed (p : Peer) (target : Int32) : Peer :=
  { p with
    muxer := p.muxer.erase (printInt target)
    subscribers := p.subscribers.erase target
    deleted := p.deleted ++ (p.eventListeners[target]?.map (·.object)).toList
    eventListeners := p.eventListeners.erase target }

/-- An event of the publishing connection. The broadcast of `onJoinedChannel` is the room's part. -/
def notifyEvent (p : Peer) (newEvent : WebRTCEvent) (message : AString) : Peer × Reaction :=
  match p.eventListener with
  | none => (p, .nothing)
  | some listener =>
      match listener.notifyEvent p.id newEvent message with
      | (listener, .onJoinedChannel) =>
          ({ p with eventListener := some listener, ready := true }, .onJoinedChannel)
      | (listener, .deleteListener) =>
          ({ p with eventListener := none, deleted := p.deleted ++ [listener.object] },
            .deleteListener)
      | (listener, reaction) => ({ p with eventListener := some listener }, reaction)

def getConnectionById (p : Peer) (target : Int32) : Option Connection :=
  if target = p.id then p.publisher else p.subscribers[target]?

def apply (p : Peer) (target : Int32) (update : RemoteUpdate) : Peer :=
  match p.getConnectionById target with
  | none => p
  | some conn => { p with remote := p.remote ++ [(conn, update)] }

/-- `cPeer::onMsgFromPeer` as far as it reads the text, over the JSON reader. -/
def readMessage (parse : AString → Parsed) (msg : AString) : Checked PeerRequest := do
  assert (msg ≠ [])
  if msg = ascii "BYE" then return .nothing
  match parse msg with
  | .thrown => .error .exception
  | .failed => return .nothing
  | .root jmessage =>
      let type ← (← jmessage.get (ascii "type")).asString
      if type = ascii "subscribe" then
        return .subscribe (← (← jmessage.get (ascii "clientID")).asInt)
      else if type = ascii "offer" ∨ type = ascii "answer" then
        let sdp ← (← jmessage.get (ascii "sdp")).asString
        if sdp = [] then return .nothing
        return .update (.setRemoteSdp sdp)
      else
        let sdpMid ← (← jmessage.get (ascii "sdpMid")).asString
        let sdpMLineIndex ← (← jmessage.get (ascii "sdpMLineIndex")).asInt
        let sdp ← (← jmessage.get (ascii "candidate")).asString
        if sdpMid = [] ∨ sdp = [] then return .nothing
        return .update (.addRemoteCandidate sdpMid sdpMLineIndex sdp)

example : readMessage (fun _ => .root (.int 5)) (ascii "5") = .error .exception := by decide

/-- The rest of `cPeer::onMsgFromPeer`. -/
def perform (p : Peer) (target : Int32) : PeerRequest → Checked Peer
  | .nothing => return p
  | .subscribe clientID => p.onSubscribed clientID
  | .update update => return p.apply target update

def onMsgFromPeer (parse : AString → Parsed) (p : Peer) (target : Int32) (msg : AString) :
    Checked Peer := do
  p.perform target (← readMessage parse msg)

/-- What the members of a room keep: the peer listens to its publishing connection and is ready when
the connection was last heard to be. -/
structure Sound (p : Peer) (key : Int32) : Prop where
  id : p.id = key
  publisher : p.publisher ≠ none
  listening : ∃ listener, p.eventListener = some listener ∧ listener.id = key
    ∧ (listener.state = some .connReady ↔ p.ready = true)

/-- Behind the assertion, reading fails by throwing only. -/
theorem ends_readMessage (parse : AString → Parsed) {msg : AString} (hmsg : msg ≠ []) :
    Ends (· = Fault.exception) (fun _ => True) (readMessage parse msg) := by
  rw [readMessage, assert_of hmsg, Checked.ok_bind]
  split
  · trivial
  split
  · rfl
  · trivial
  · next jmessage _ =>
    refine (jmessage.ends_get _).bind fun type _ => type.ends_asString.bind fun type _ => ?_
    split
    · refine (jmessage.ends_get _).bind fun clientID _ => clientID.ends_asInt.bind fun _ _ => ?_
      trivial
    split
    · refine (jmessage.ends_get _).bind fun sdp _ => sdp.ends_asString.bind fun sdp _ => ?_
      split <;> trivial
    · refine (jmessage.ends_get _).bind fun sdpMid _ => sdpMid.ends_asString.bind fun sdpMid _ => ?_
      refine (jmessage.ends_get _).bind fun index _ => index.ends_asInt.bind fun index _ => ?_
      refine (jmessage.ends_get _).bind fun sdp _ => sdp.ends_asString.bind fun sdp _ => ?_
      split <;> trivial

theorem sound_doJoin (id : Int32) : (create id).doJoin.2.Sound id where
  id := rfl
  publisher := by
    intro hnone
    cases hnone
  listening := ⟨⟨0, id, some .connInitial⟩, rfl, rfl, by simp [create, doJoin, allocate]⟩

theorem Sound.onUnSubscribed {p : Peer} {key : Int32} (hsound : p.Sound key) (target : Int32) :
    (p.onUnSubscribed target).Sound key :=
  ⟨hsound.id, hsound.publisher, hsound.listening⟩

theorem Sound.apply {p : Peer} {key : Int32} (hsound : p.Sound key) (target : Int32)
    (update : RemoteUpdate) : (p.apply target update).Sound key := by
  unfold Peer.apply
  split
  · exact hsound
  · exact ⟨hsound.id, hsound.publisher, hsound.listening⟩

theorem ready_apply (p : Peer) (target : Int32) (update : RemoteUpdate) :
    (p.apply target update).ready = p.ready := by
  unfold Peer.apply
  split <;> rfl

/-- A message changes connections, never the peer's identity or readiness. -/
theorem Sound.onMsgFromPeer {parse : AString → Parsed} {p p' : Peer} {key target : Int32}
    {msg : AString} (hsound : p.Sound key) (hcall : p.onMsgFromPeer parse target msg = .ok p') :
    p'.Sound key ∧ p'.ready = p.ready := by
  obtain ⟨request, -, hperform⟩ := exists_of_bind_ok hcall
  cases request with
  | nothing =>
      cases hperform
      exact ⟨hsound, rfl⟩
  | subscribe clientID =>
      simp only [perform, onSubscribed, allocate, hsound.publisher, if_false] at hperform
      cases hperform
      exact ⟨⟨hsound.id, hsound.publisher, hsound.listening⟩, rfl⟩
  | update update =>
      cases hperform
      exact ⟨hsound.apply _ _, ready_apply _ _ _⟩

/-- A peer that is not ready hears that its connection is. -/
theorem Sound.notifyReady {p : Peer} {key : Int32} (hsound : p.Sound key) (hready : p.ready = false) :
    ∃ p', p.notifyEvent .connReady [] = (p', .onJoinedChannel) ∧ p'.Sound key ∧ p'.ready = true := by
  obtain ⟨listener, hlistener, hid, hstate⟩ := hsound.listening
  have hnew : listener.state ≠ some .connReady := by
    rw [ne_eq, hstate, hready]
    exact Bool.false_ne_true
  refine ⟨{ p with eventListener := some { listener with state := some .connReady }, ready := true },
    ?_, ⟨hsound.id, hsound.publisher, _, rfl, hid, by simp⟩, rfl⟩
  simp [notifyEvent, hlistener, EventListener.notifyEvent, hnew, hsound.id, hid]

theorem Sound.notifyReady_again {p : Peer} {key : Int32} (hsound : p.Sound key)
    (hready : p.ready = true) : p.notifyEvent .connReady [] = (p, .nothing) := by
  obtain ⟨listener, hlistener, -, hstate⟩ := hsound.listening
  have hsame : listener.state = some .connReady := hstate.mpr hready
  unfold notifyEvent EventListener.notifyEvent
  rw [hlistener]
  dsimp only
  rw [if_pos hsame]
  dsimp only
  rw [← hlistener]

theorem Sound.notifyReady_fst {p : Peer} {key : Int32} (hsound : p.Sound key) :
    (p.notifyEvent .connReady []).1.Sound key := by
  cases hready : p.ready with
  | true =>
      rw [hsound.notifyReady_again hready]
      exact hsound
  | false =>
      obtain ⟨p', hnotify, hsound', -⟩ := hsound.notifyReady hready
      rw [hnotify]
      exact hsound'

end Peer

end Licode.Channel
