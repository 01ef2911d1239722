import Licode.Channel.Manager
import Licode.Server.ProtocolImpl

/-!
# The server, its clients and the channel manager

All clients of a `cServer` together with the channel manager, with any order of accepted
connections, received bytes, ticks, answers of the authenticator, rounds of the manager, events of
the media connections and closed links. Each call is one step.

The results of the rooms and the notices among their members are composed for the clients as packets,
with the names of the channels as the clients have sent them.
-/

namespace Licode

open ByteBuffer

namespace Channel

/-- The text of a message. `styledWriter` stands for `Json::StyledWriter` on an object with the
members `sdp` and `type`. -/
def Body.text (styledWriter : AString → AString → AString) : Body → AString
  | .online clientID =>
      ascii "\x7b\"type\":\"online\",\"clientID\":" ++ printInt clientID ++ ascii "\x7d"
  | .offline clientID =>
      ascii "\x7b\"type\":\"offline\",\"clientID\":" ++ printInt clientID ++ ascii "\x7d"
  | .publisher clientID =>
      ascii "\x7b\"type\":\"publisher\",\"clientID\":" ++ printInt clientID ++ ascii "\x7d"
  | .answer sdp => styledWriter sdp (ascii "answer")
  | .offer sdp => styledWriter sdp (ascii "offer")
  | .candidate message => message

/-- An event of the connection on which a client watches a member. -/
def Room.notifySubscriber (room : Room) (clientID target : Int32) (newEvent : WebRTCEvent)
    (message : AString) : Option (Room × List Output) :=
  match room.clients[clientID]? with
  | none | some none => none
  | some (some peer) =>
      match peer.eventListeners[target]? with
      | none => none
      | some listener =>
          let (listener, reaction) := listener.notifyEvent peer.id newEvent message
          let peer := { peer with
            eventListeners := peer.eventListeners.insert target listener
            deleted :=
              if reaction = .deleteListener then peer.deleted ++ [listener.object]
              else peer.deleted }
          some (react { room with clients := room.clients.insert clientID (some peer) } peer.id
            reaction)

/-- A connection of a room reports an event. -/
def Manager.notify (m : Manager) (channel : AString)
    (report : Room → Option (Room × List Output)) : Option Manager := do
  let room ← m.rooms[channel]?
  let (room, outputs) ← report room
  return (m.putRoom channel room).output outputs

end Channel

open Channel

namespace Server

/-- `cServer` with the channel manager. -/
structure World where
  clients : List ServerLink
  manager : Manager

namespace World

def create : World := ⟨[], .create⟩

/-- The loops of `cServer` that call every client with an id. -/
def forClients (clientID : Int32) (call : ProtocolImpl → Checked ProtocolImpl) :
    List ServerLink → Checked (List ServerLink)
  | [] => return []
  | l :: rest =>
      if l.protocol.client.uniqueID = clientID then do
        let p ← call l.protocol
        return { l with protocol := p } :: (← forClients clientID call rest)
      else
        return l :: (← forClients clientID call rest)

/-- The loop of `AuthenticateUser` returns at the first client with the id. -/
def forFirstClient (clientID : Int32) (call : ProtocolImpl → Checked ProtocolImpl) :
    List ServerLink → Checked (List ServerLink)
  | [] => return []
  | l :: rest =>
      if l.protocol.client.uniqueID = clientID then
        return { l with protocol := ← call l.protocol } :: rest
      else
        return l :: (← forFirstClient clientID call rest)

/-- `static_cast<int>` of the result of a room. -/
def resultOf (ret : Bool) : Int32 := if ret then 1 else 0

/-- `onChannelMsg`, `onJoinChannelResult` and `onLeaveChannelResult` of `cServer`. -/
def deliver (env : Env) (styledWriter : AString → AString → AString) (clients : List ServerLink) :
    Channel.Output → Checked (List ServerLink)
  | .onChannelMsg channel fromID targetID body =>
      forClients targetID (fun p => p.onChannelMsg env fromID channel (body.text styledWriter)) clients
  | .onJoinChannelResult clientID channel ret =>
      forClients clientID (fun p => p.onJoinChannelResult env channel (resultOf ret)) clients
  | .onLeaveChannelResult clientID channel ret =>
      forClients clientID (fun p => p.onLeaveChannelResult env channel (resultOf ret)) clients

/-- What the manager has handed to the server reaches the clients. -/
def deliverAll (env : Env) (styledWriter : AString → AString → AString) (clients : List ServerLink)
    (m : Manager) : Checked World := do
  let clients ← m.outputs.foldlM (deliver env styledWriter) clients
  return ⟨clients, { m with outputs := [] }⟩

/-- A request of a client. What the authenticator is asked it answers in a step of its own. -/
def dispatch (m : Manager) : Request → Manager
  | .authenticate _ _ _ => m
  | .doUserJoinChannel clientID channel => m.doUserJoinChannel clientID channel
  | .doUserLeftChannel clientID channel => m.doUserLeftChannel clientID channel
  | .onMsgFromPeer channel clientID targetID msg =>
      m.onMsgFromPeer channel clientID targetID.toInt32 msg

/-- Clients are named by their place in `m_Clients`. -/
inductive Action where
  | onConnectionAccepted (ipString : AString) (uniqueID : Int32) (address : UInt64)
      (haddress : ipString.length ≤ 45)
  | onReceivedData (i : Nat) (data : List UInt8)
  | serverTick (i : Nat) (pingDue : Bool)
  | authenticateUser (clientID : Int32) (name password : AString)
  | kickUser (clientID reason : Int32)
  | execute
  | notifyClient (channel : AString) (clientID : Int32) (newEvent : WebRTCEvent) (message : AString)
  | notifySubscriber (channel : AString) (clientID target : Int32) (newEvent : WebRTCEvent)
      (message : AString)
  | removeClient (i : Nat)

section Next

variable (env : Env) (styledWriter : AString → AString → AString)
  (parse : AString → Parsed)

def next (w : World) : Action → Checked World
  | .onConnectionAccepted ipString uniqueID address _ =>
      return { w with
        clients := w.clients ++ [ServerLink.create (ClientHandle.create ipString uniqueID) address] }
  | .onReceivedData i data =>
      return { w with clients := w.clients.modify i fun l => l.onReceivedData data }
  | .serverTick i pingDue =>
      match w.clients[i]? with
      | none => return w
      | some l => do
          let (_, _, l) ← { l with protocol.requests := [] }.serverTick env pingDue
          return ⟨w.clients.set i l, l.protocol.requests.foldl dispatch w.manager⟩
  | .authenticateUser clientID name password => do
      return { w with
        clients := ← forFirstClient clientID (fun p => p.authenticate env name password) w.clients }
  | .kickUser clientID reason => do
      return { w with clients := ← forClients clientID (fun p => p.kick env reason) w.clients }
  | .execute =>
      match w.manager.execute parse with
      | none => return w
      | some result => do deliverAll env styledWriter w.clients (← result)
  | .notifyClient channel clientID newEvent message =>
      match w.manager.notify channel fun room => room.notifyClient clientID newEvent message with
      | none => return w
      | some m => deliverAll env styledWriter w.clients m
  | .notifySubscriber channel clientID target newEvent message =>
      match w.manager.notify channel fun room =>
          room.notifySubscriber clientID target newEvent message with
      | none => return w
      | some m => deliverAll env styledWriter w.clients m
  | .removeClient i =>
      match w.clients[i]? with
      | none => return w
      | some l => return ⟨w.clients.eraseIdx i, w.manager.doUserOffline l.protocol.client.uniqueID⟩

def Step (w : World) (action : Action) (w' : World) : Prop :=
  w.next env styledWriter parse action = .ok w'

end Next

end World

end Server

end Licode
