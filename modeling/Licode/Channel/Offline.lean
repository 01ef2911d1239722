import Licode.Channel.Announcements

/-!
# Clients that have gone offline

`doUserOffline` queues a `LEAVE` for every room there is at the moment. A `JOIN` that is still in the
queue may be for a channel that has no room yet; it is dealt with afterwards, and the client is in
the room for good. Nothing else can go wrong: what the queue will have made of a client's membership
of a channel (`willBeMember`) does not change when an event is dealt with.
-/

namespace Licode.Channel.Manager

/-- A call of another thread, or one round of the manager's own. -/
inductive Call where
  | doUserJoinChannel (clientID : Int32) (channel : AString)
  | doUserLeftChannel (clientID : Int32) (channel : AString)
  | doUserOffline (clientID : Int32)
  | dealEvent
  deriving DecidableEq

def call (parse : AString → Parsed) (m : Manager) : Call → Option Manager
  | .doUserJoinChannel clientID channel => some (m.doUserJoinChannel clientID channel)
  | .doUserLeftChannel clientID channel => some (m.doUserLeftChannel clientID channel)
  | .doUserOffline clientID => some (m.doUserOffline clientID)
  | .dealEvent => (m.execute parse).bind Except.toOption

def CallStep (parse : AString → Parsed) (m : Manager) (label : Call) (m' : Manager) : Prop :=
  m.call parse label = some m'

/-- Whether a client is in a channel once these events are dealt with. -/
def membershipAfter (clientID : Int32) (channel : AString) (isMember : Bool)
    (queue : List MediaEvent) : Bool :=
  queue.foldl (fun isMember event =>
    if event.clientID = clientID ∧ event.channel = channel then
      match event.type with
      | .join => true
      | .leave => false
      | .media | .none => isMember
    else isMember) isMember

/-- The last request of the client for the channel in the queue is a `JOIN`. -/
def joinPending (m : Manager) (clientID : Int32) (channel : AString) : Bool :=
  membershipAfter clientID channel false m.queue

def willBeMember (m : Manager) (clientID : Int32) (channel : AString) : Bool :=
  membershipAfter clientID channel (m.status channel clientID).isSome m.queue

/-- The rooms are in order and the queue holds requests to join and to leave. -/
structure Serving (m : Manager) : Prop where
  sound : m.Sound
  requests : ∀ event ∈ m.queue, ∃ clientID channel,
    event = mediaEvent .join clientID channel ∨ event = mediaEvent .leave clientID channel

structure StaysOut (clientID : Int32) (channel : AString) (m : Manager) : Prop where
  serving : m.Serving
  out : m.willBeMember clientID channel = false

theorem membershipAfter_append (clientID : Int32) (channel : AString) (isMember : Bool)
    (queue more : List MediaEvent) :
    membershipAfter clientID channel isMember (queue ++ more)
      = membershipAfter clientID channel (membershipAfter clientID channel isMember queue) more := by
  unfold membershipAfter
  exact List.foldl_append

/-- Leaving requests of one client. -/
theorem membershipAfter_leaves (clientID other : Int32) (channel : AString) (isMember : Bool)
    (channels : List AString) :
    membershipAfter clientID channel isMember (channels.map (mediaEvent .leave other))
      = if other = clientID ∧ channel ∈ channels then false else isMember := by
  induction channels generalizing isMember with
  | nil => simp [membershipAfter]
  | cons name channels ih =>
      have hcons : membershipAfter clientID channel isMember
          ((name :: channels).map (mediaEvent .leave other))
          = membershipAfter clientID channel
            (if other = clientID ∧ name = channel then false else isMember)
            (channels.map (mediaEvent .leave other)) := rfl
      rw [hcons, ih]
      by_cases hother : other = clientID
      · by_cases hname : name = channel
        · simp [hother, hname]
        · simp [hother, hname, Ne.symm hname]
      · simp [hother]

theorem membershipAfter_join (clientID other : Int32) (channel name : AString) (isMember : Bool) :
    membershipAfter clientID channel isMember [mediaEvent .join other name]
      = if other = clientID ∧ name = channel then true else isMember := rfl

theorem foldl_addEvent (m : Manager) (events : List MediaEvent) :
    events.foldl addEvent m = { m with queue := m.queue ++ events } := by
  induction events generalizing m with
  | nil => simp
  | cons event events ih => rw [List.foldl_cons, ih, addEvent, List.append_assoc, List.singleton_append]

theorem doUserOffline_eq {m : Manager} (hsound : m.Sound) (clientID : Int32) :
    m.doUserOffline clientID
      = { m with queue := m.queue ++ m.rooms.keys.map (mediaEvent .leave clientID) } := by
  have hnames : m.rooms.toList.map (fun channel => channel.2.channelName) = m.rooms.keys := by
    rw [← Std.ExtTreeMap.map_fst_toList_eq_keys]
    refine List.map_congr_left fun channel hmem => ?_
    exact (hsound channel.1 channel.2 (Std.ExtTreeMap.mem_toList_iff_getElem?_eq_some.mp hmem)).1
  rw [← hnames, List.map_map, ← foldl_addEvent, List.foldl_map]
  rfl

/-- A client is a member only of channels that have a room. -/
theorem status_eq_none {m : Manager} {channel : AString} (hroom : channel ∉ m.rooms)
    (clientID : Int32) : m.status channel clientID = none := by
  by_contra hmember
  obtain ⟨room, hfind, -⟩ := isMember_iff.mpr hmember
  rw [Std.ExtTreeMap.mem_iff_isSome_getElem?, hfind] at hroom
  exact hroom rfl

/-- Where the client will be after it has gone offline. -/
theorem willBeMember_doUserOffline {m : Manager} (hsound : m.Sound) (clientID : Int32)
    (channel : AString) :
    (m.doUserOffline clientID).willBeMember clientID channel
      = if channel ∈ m.rooms then false else m.joinPending clientID channel := by
  rw [doUserOffline_eq hsound, willBeMember, membershipAfter_append, membershipAfter_leaves]
  by_cases hroom : channel ∈ m.rooms
  · simp [hroom]
  · have hnone : m.status channel clientID = none := status_eq_none hroom clientID
    simp only [Std.ExtTreeMap.mem_keys, hroom, and_false, if_false]
    rw [joinPending, ← Option.isSome_none (α := Bool), ← hnone]
    rfl

/-- Dealing with an event carries out what was to be expected of it. -/
theorem willBeMember_execute {parse : AString → Parsed} {m m' : Manager}
    (hserving : m.Serving) (hcall : (m.execute parse).bind Except.toOption = some m') :
    m'.Serving ∧ m'.queue = m.queue.tail ∧ ∀ clientID channel,
      m'.willBeMember clientID channel = m.willBeMember clientID channel := by
  obtain ⟨hsound, hrequests⟩ := hserving
  cases hqueue : m.queue with
  | nil => simp [execute, hqueue] at hcall
  | cons event queue =>
      rw [execute, hqueue, Option.bind_some] at hcall
      have hsound₁ : ({ m with queue := queue } : Manager).Sound := hsound
      obtain ⟨clientID, channel, hevent⟩ := hrequests event (by rw [hqueue]; exact List.mem_cons_self)
      have hrest : ∀ event ∈ queue, ∃ clientID channel, event = mediaEvent .join clientID channel
          ∨ event = mediaEvent .leave clientID channel :=
        fun event hmem => hrequests event (by rw [hqueue]; exact List.mem_cons_of_mem _ hmem)
      have hperforms : ∃ act : Roster.Event Int32,
          Performs { m with queue := queue } channel act m'
          ∧ ∀ other name, membershipAfter other name (m.status name other).isSome [event]
            = if name = channel then (Roster.after (m.status channel) act other).isSome
              else (m.status name other).isSome := by
        obtain rfl | rfl := hevent
        · obtain ⟨m₁, hdeal, hperforms⟩ := performs_join parse hsound₁ clientID channel
          rw [hdeal] at hcall
          cases hcall
          refine ⟨_, hperforms, fun other name => ?_⟩
          by_cases hname : name = channel
          · by_cases hother : other = clientID
            · simp [membershipAfter, mediaEvent, Roster.after, hname, hother]
            · simp [membershipAfter, mediaEvent, Roster.after, hname, hother, Ne.symm hother]
          · simp [membershipAfter, hname, mediaEvent, Ne.symm hname]
        · obtain ⟨m₁, hdeal, hperforms⟩ := performs_leave parse hsound₁ clientID channel
          rw [hdeal] at hcall
          cases hcall
          refine ⟨_, hperforms, fun other name => ?_⟩
          by_cases hname : name = channel
          · by_cases hother : other = clientID
            · simp [membershipAfter, mediaEvent, Roster.after, hname, hother]
            · simp [membershipAfter, mediaEvent, Roster.after, hname, hother, Ne.symm hother]
          · simp [membershipAfter, hname, mediaEvent, Ne.symm hname]
      obtain ⟨act, hperforms, hmembership⟩ := hperforms
      refine ⟨⟨hperforms.sound, ?_⟩, hperforms.queue, fun other name => ?_⟩
      · rw [hperforms.queue]
        exact hrest
      · rw [willBeMember, hperforms.queue, willBeMember, hqueue, ← List.singleton_append,
          membershipAfter_append, hmembership]
        by_cases hname : name = channel
        · subst hname
          rw [if_pos rfl, hperforms.status_eq]
          rfl
        · rw [if_neg hname, hperforms.frame name hname]
          rfl

theorem Serving.exists_execute (parse : AString → Parsed) {m : Manager}
    (hserving : m.Serving) (hqueue : m.queue ≠ []) :
    ∃ m', (m.execute parse).bind Except.toOption = some m' := by
  obtain ⟨event, queue, heq⟩ := List.exists_cons_of_ne_nil hqueue
  rw [execute, heq, Option.bind_some]
  have hsound : ({ m with queue := queue } : Manager).Sound := hserving.sound
  obtain ⟨clientID, channel, rfl | rfl⟩ := hserving.requests event (by rw [heq]; exact List.mem_cons_self)
  · obtain ⟨m', hdeal, -⟩ := performs_join parse hsound clientID channel
    exact ⟨m', by rw [hdeal]; rfl⟩
  · obtain ⟨m', hdeal, -⟩ := performs_leave parse hsound clientID channel
    exact ⟨m', by rw [hdeal]; rfl⟩

theorem Serving.call {parse : AString → Parsed} {m m' : Manager} {label : Call}
    (hserving : m.Serving) (hstep : CallStep parse m label m') : m'.Serving := by
  obtain ⟨hsound, hrequests⟩ := hserving
  cases label with
  | doUserJoinChannel clientID channel =>
      cases hstep
      refine ⟨hsound, fun event hmem => ?_⟩
      obtain hmem | hlast := List.mem_append.mp hmem
      · exact hrequests event hmem
      · exact ⟨clientID, channel, .inl (List.mem_singleton.mp hlast)⟩
  | doUserLeftChannel clientID channel =>
      cases hstep
      refine ⟨hsound, fun event hmem => ?_⟩
      obtain hmem | hlast := List.mem_append.mp hmem
      · exact hrequests event hmem
      · exact ⟨clientID, channel, .inr (List.mem_singleton.mp hlast)⟩
  | doUserOffline clientID =>
      cases hstep
      rw [doUserOffline_eq hsound]
      refine ⟨hsound, fun event hmem => ?_⟩
      obtain hmem | hlast := List.mem_append.mp hmem
      · exact hrequests event hmem
      · obtain ⟨channel, -, rfl⟩ := List.mem_map.mp hlast
        exact ⟨clientID, channel, .inr rfl⟩
  | dealEvent => exact (willBeMember_execute ⟨hsound, hrequests⟩ hstep).1

/-- No call but a request to join brings a client into a channel. -/
theorem willBeMember_call {parse : AString → Parsed} {m m' : Manager} {label : Call}
    (hserving : m.Serving) (hstep : CallStep parse m label m') {clientID : Int32}
    {channel : AString} (hlabel : label ≠ .doUserJoinChannel clientID channel)
    (hout : m.willBeMember clientID channel = false) : m'.willBeMember clientID channel = false := by
  cases label with
  | doUserJoinChannel other name =>
      cases hstep
      have hnot : ¬ (other = clientID ∧ name = channel) := by
        rintro ⟨rfl, rfl⟩
        exact hlabel rfl
      rw [doUserJoinChannel, addEvent, willBeMember, membershipAfter_append, membershipAfter_join,
        if_neg hnot]
      exact hout
  | doUserLeftChannel other name =>
      cases hstep
      rw [doUserLeftChannel, addEvent, willBeMember, membershipAfter_append,
        show [mediaEvent .leave other name] = [name].map (mediaEvent .leave other) from rfl,
        membershipAfter_leaves]
      split
      · rfl
      · exact hout
  | doUserOffline other =>
      cases hstep
      rw [doUserOffline_eq hserving.sound, willBeMember, membershipAfter_append,
        membershipAfter_leaves]
      split
      · rfl
      · exact hout
  | dealEvent => rw [(willBeMember_execute hserving hstep).2.2, hout]

/-- The manager's thread can always work off the queue. -/
theorem Serving.drain (parse : AString → Parsed) {m : Manager} (hserving : m.Serving) :
    ∃ m', Run (CallStep parse) m (List.replicate m.queue.length .dealEvent) m' ∧ m'.queue = []
      ∧ ∀ clientID channel, m'.willBeMember clientID channel = m.willBeMember clientID channel := by
  induction hlength : m.queue.length generalizing m with
  | zero => exact ⟨m, .nil, List.eq_nil_of_length_eq_zero hlength, fun _ _ => rfl⟩
  | succ length ih =>
      obtain ⟨m₁, hcall⟩ := hserving.exists_execute parse (by
        rintro hempty
        rw [hempty] at hlength
        cases hlength)
      obtain ⟨hserving₁, hqueue, hsame⟩ := willBeMember_execute hserving hcall
      obtain ⟨m', hrun, hempty, hsame'⟩ := ih hserving₁ (by rw [hqueue, List.length_tail, hlength]; rfl)
      refine ⟨m', ?_, hempty, fun clientID channel => (hsame' _ _).trans (hsame _ _)⟩
      exact (Run.nil.snoc hcall : Run (CallStep parse) m [.dealEvent] m₁).trans hrun

theorem isMember_of_drained {m : Manager} (hempty : m.queue = []) (clientID : Int32)
    (channel : AString) : m.IsMember channel clientID ↔ m.willBeMember clientID channel = true := by
  rw [isMember_iff, willBeMember, hempty, membershipAfter, List.foldl_nil, Option.isSome_iff_ne_none]

/-- A client that has gone offline and does not ask to join again is in no room when the queue is
empty, exactly when no room was missing for a join it had asked for. -/
theorem no_ghost_members {parse : AString → Parsed} {before : List Call} {m : Manager}
    (hbefore : Run (CallStep parse) create before m) (clientID : Int32) :
    (∀ later m', Run (CallStep parse) (m.doUserOffline clientID) later m' →
        (∀ channel, .doUserJoinChannel clientID channel ∉ later) → m'.queue = [] →
        ∀ channel, ¬ m'.IsMember channel clientID)
      ↔ ∀ channel, channel ∉ m.rooms → m.joinPending clientID channel = false := by
  have hserving : m.Serving :=
    hbefore.invariant ⟨sound_create, by simp [create]⟩ fun hserving hstep => hserving.call hstep
  have hstep : CallStep parse m (.doUserOffline clientID) (m.doUserOffline clientID) := rfl
  have hoffline : (m.doUserOffline clientID).Serving := hserving.call hstep
  constructor
  · intro hclaim channel hroom
    obtain ⟨m', hrun, hempty, hsame⟩ := hoffline.drain parse
    have hout := hclaim _ m' hrun (by simp [List.mem_replicate]) hempty channel
    rw [isMember_of_drained hempty, hsame, willBeMember_doUserOffline hserving.sound, if_neg hroom,
      Bool.not_eq_true] at hout
    exact hout
  · intro hcondition later m' hrun hnojoin hempty channel
    rw [isMember_of_drained hempty, Bool.not_eq_true]
    have hstart : (m.doUserOffline clientID).willBeMember clientID channel = false := by
      rw [willBeMember_doUserOffline hserving.sound]
      split
      · rfl
      · next hroom => exact hcondition channel hroom
    have hend : StaysOut clientID channel m' := by
      refine hrun.invariant_of_mem ⟨hoffline, hstart⟩ fun hmem hinv hstep => ?_
      refine ⟨hinv.serving.call hstep, willBeMember_call hinv.serving hstep ?_ hinv.out⟩
      rintro rfl
      exact hnojoin channel hmem
    exact hend.out

/-- A client whose join has been dealt with goes offline. -/
theorem no_ghost_members_joined :
    ∃ m, Run (CallStep fun _ => .failed) create [.doUserJoinChannel 1 (ascii "r"), .dealEvent] m
      ∧ ∀ later m', Run (CallStep fun _ => .failed) (m.doUserOffline 1) later m' →
        (∀ channel, .doUserJoinChannel 1 channel ∉ later) → m'.queue = [] →
        ∀ channel, ¬ m'.IsMember channel 1 := by
  have hcalc : ([Call.doUserJoinChannel 1 (ascii "r"), .dealEvent].foldlM
      (call fun _ => .failed) create).map queue = some [] := by decide
  obtain ⟨m, hrun, hempty⟩ := Option.map_eq_some_iff.mp hcalc
  have hrun := Run.of_foldlM hrun
  refine ⟨m, hrun, (no_ghost_members hrun 1).mpr fun channel _ => ?_⟩
  rw [joinPending, hempty]
  rfl

/-- A client goes offline before its join is dealt with. -/
theorem ghost_member :
    ¬ ∀ (parse : AString → Parsed) (before : List Call) (m : Manager) (clientID : Int32),
      Run (CallStep parse) create before m →
      ∀ later m', Run (CallStep parse) (m.doUserOffline clientID) later m' →
        (∀ channel, .doUserJoinChannel clientID channel ∉ later) → m'.queue = [] →
        ∀ channel, ¬ m'.IsMember channel clientID := by
  intro hclaim
  have hcalc : ([Call.dealEvent].foldlM (call fun _ => .failed)
      ((create.doUserJoinChannel 1 (ascii "r")).doUserOffline 1)).map
      (fun m => (m.queue, (m.status (ascii "r") 1).isSome)) = some ([], true) := by decide
  obtain ⟨m', hrun, hresult⟩ := Option.map_eq_some_iff.mp hcalc
  obtain ⟨hempty, hsome⟩ := Prod.mk.inj hresult
  have hbefore : Run (CallStep fun _ => .failed) create [.doUserJoinChannel 1 (ascii "r")]
      (create.doUserJoinChannel 1 (ascii "r")) := Run.nil.snoc rfl
  have hout := hclaim (fun _ => .failed) _ _ 1 hbefore _ m' (Run.of_foldlM hrun) (by simp) hempty (ascii "r")
  rw [isMember_iff, ← Option.isSome_iff_ne_none] at hout
  exact hout hsome

end Licode.Channel.Manager
