import Licode.Lib.Mutex
import Licode.Lib.Run
import Mathlib.Logic.Function.Basic

/-!
# The queue of a worker thread

`cManager` and `cAuthenticator` take their work from a queue under the lock `m_CS`, and sleep on the
`cEvent` `m_QueueNonempty` while it is empty. Any thread may add to the queue or stop the worker.
Each acquisition and release of `m_CS` and of the event's mutex, each test, and each access to the
queue and the flags is a step of its own, and the steps of all threads come in any order.

The worker cannot sleep through an event because the flag of the `cEvent` is set under `m_CS`: the
thread that has found the worker's queue empty and put an event into it still holds the lock when
it sets the flag, so all that ever stands between a filled queue and a set flag is that one thread.
-/

namespace Licode.Server.EventQueue

/-- The owner of a lock. -/
inductive Party (T : Type) where
  | worker
  | caller (t : T)
  deriving DecidableEq

/-- Where the worker is in `Execute`: what it does next. -/
inductive WorkerPc (ε : Type) where
  | stopped
  | lock
  | testTerminate
  | testSize
  | unlock
  -- `m_QueueNonempty.Wait()`
  | waitLock
  | waitTest
  | waitBlock
  | blocked
  | woken
  | waitClear
  | waitUnlock
  | relock
  | checkTerminate
  | front
  | release (event : ε)
  | deal (event : ε)
  | leave
  deriving DecidableEq

/-- Where another thread is in `addEvent` or `Stop`. `Set` is part of both, under `m_CS` in the
first one only. -/
inductive CallerPc (ε : Type) where
  | idle
  | lock (event : ε)
  | push (event : ε)
  | terminate
  | setLock (adding : Bool)
  | setFlag (adding : Bool)
  | setUnlock (adding : Bool)
  | notify (adding : Bool)
  | unlock
  deriving DecidableEq

/-- `pushed` and `dealt` are not in the source: they are what has been put into the queue and what
`dealEvent` has been called with. -/
structure State (T ε : Type) where
  shouldTerminate : Bool
  queue : List ε
  cs : Option (Party T)
  shouldContinue : Bool
  mutex : Option (Party T)
  worker : WorkerPc ε
  caller : T → CallerPc ε
  pushed : List ε
  dealt : List ε

inductive Action (T ε : Type) where
  | start
  | worker
  | spuriousWakeup
  | addEvent (t : T) (event : ε)
  | stop (t : T)
  | caller (t : T)

section Step

variable {T ε : Type} [DecidableEq T]

/-- Nothing has been started. -/
def State.create : State T ε where
  shouldTerminate := false
  queue := []
  cs := none
  shouldContinue := false
  mutex := none
  worker := .stopped
  caller := fun _ => .idle
  pushed := []
  dealt := []

/-- The next step of the worker, where it can go on. -/
def workerStep (s : State T ε) : Option (State T ε) :=
  match s.worker with
  | .stopped => none
  | .lock => if s.cs = none then some { s with cs := some .worker, worker := .testTerminate } else none
  | .testTerminate =>
      some { s with worker := if s.shouldTerminate then .checkTerminate else .testSize }
  | .testSize => some { s with worker := if s.queue.length = 0 then .unlock else .checkTerminate }
  | .unlock => some { s with cs := none, worker := .waitLock }
  | .waitLock =>
      if s.mutex = none then some { s with mutex := some .worker, worker := .waitTest } else none
  | .waitTest => some { s with worker := if s.shouldContinue then .waitClear else .waitBlock }
  | .waitBlock => some { s with mutex := none, worker := .blocked }
  | .blocked => none
  | .woken =>
      if s.mutex = none then some { s with mutex := some .worker, worker := .waitTest } else none
  | .waitClear => some { s with shouldContinue := false, worker := .waitUnlock }
  | .waitUnlock => some { s with mutex := none, worker := .relock }
  | .relock =>
      if s.cs = none then some { s with cs := some .worker, worker := .testTerminate } else none
  | .checkTerminate => some { s with worker := if s.shouldTerminate then .leave else .front }
  | .front =>
      match s.queue with
      | [] => none
      | event :: rest => some { s with queue := rest, worker := .release event }
  | .release event => some { s with cs := none, worker := .deal event }
  | .deal event => some { s with dealt := s.dealt ++ [event], worker := .lock }
  | .leave => some { s with cs := none, worker := .stopped }

/-- `notify_one` on a worker at `pc`. -/
def WorkerPc.notified : WorkerPc ε → WorkerPc ε
  | .blocked => .woken
  | pc => pc

def State.goTo (s : State T ε) (t : T) (pc : CallerPc ε) : State T ε :=
  { s with caller := Function.update s.caller t pc }

@[simp]
theorem State.goTo_self (s : State T ε) (t : T) (pc : CallerPc ε) : (s.goTo t pc).caller t = pc := by
  simp [State.goTo]

theorem State.goTo_of_ne (s : State T ε) {t u : T} (h : u ≠ t) (pc : CallerPc ε) :
    (s.goTo t pc).caller u = s.caller u := by
  simp [State.goTo, h]

/-- The next step of another thread. -/
def callerStep (s : State T ε) (t : T) : Option (State T ε) :=
  match s.caller t with
  | .idle => none
  | .lock event =>
      if s.cs = none then some ({ s with cs := some (.caller t) }.goTo t (.push event)) else none
  | .push event =>
      some ({ s with queue := s.queue ++ [event], pushed := s.pushed ++ [event] }.goTo t
        (.setLock true))
  | .terminate => some ({ s with shouldTerminate := true }.goTo t (.setLock false))
  | .setLock adding =>
      if s.mutex = none then some ({ s with mutex := some (.caller t) }.goTo t (.setFlag adding))
      else none
  | .setFlag adding => some ({ s with shouldContinue := true }.goTo t (.setUnlock adding))
  | .setUnlock adding => some ({ s with mutex := none }.goTo t (.notify adding))
  | .notify adding =>
      some ({ s with worker := s.worker.notified }.goTo t (if adding then .unlock else .idle))
  | .unlock => some ({ s with cs := none }.goTo t .idle)

def next (s : State T ε) : Action T ε → Option (State T ε)
  | .start =>
      match s.worker with
      | .stopped => some { s with shouldTerminate := false, worker := .lock }
      | _ => none
  | .worker => workerStep s
  | .spuriousWakeup =>
      match s.worker with
      | .blocked => some { s with worker := .woken }
      | _ => none
  | .addEvent t event =>
      match s.caller t with
      | .idle => some (s.goTo t (.lock event))
      | _ => none
  | .stop t =>
      match s.caller t with
      | .idle => some (s.goTo t .terminate)
      | _ => none
  | .caller t => callerStep s t

/-- One step of one thread. -/
def Step (s : State T ε) (action : Action T ε) (s' : State T ε) : Prop := next s action = some s'

end Step

section Invariant

variable {T ε : Type}

/-- The worker holds `m_CS`. -/
def WorkerPc.inQueue : WorkerPc ε → Bool
  | .testTerminate | .testSize | .unlock | .checkTerminate | .front | .release _ | .leave => true
  | _ => false

/-- The worker holds the mutex of the event. -/
def WorkerPc.inEvent : WorkerPc ε → Bool
  | .waitTest | .waitBlock | .waitClear | .waitUnlock => true
  | _ => false

/-- The worker has found its queue empty and has not been told otherwise. -/
def WorkerPc.waits : WorkerPc ε → Bool
  | .unlock | .waitLock | .waitTest | .waitBlock | .blocked | .woken => true
  | _ => false

/-- The event that has left the queue and has not been dealt with. -/
def WorkerPc.inHand : WorkerPc ε → List ε
  | .release event | .deal event => [event]
  | _ => []

/-- The thread holds `m_CS`. -/
def CallerPc.inQueue : CallerPc ε → Bool
  | .push _ | .unlock => true
  | .setLock adding | .setFlag adding | .setUnlock adding | .notify adding => adding
  | _ => false

/-- The thread holds the mutex of the event. -/
def CallerPc.inEvent : CallerPc ε → Bool
  | .setFlag _ | .setUnlock _ => true
  | _ => false

/-- The thread is in `addEvent`, between `push_back` and the flag of the event. -/
def CallerPc.announcing : CallerPc ε → Bool
  | .setLock adding | .setFlag adding => adding
  | _ => false

/-- The thread has set the flag and has yet to notify. -/
def CallerPc.notifying : CallerPc ε → Bool
  | .setUnlock _ | .notify _ => true
  | _ => false

/-- The threads that hold `m_CS`. -/
def State.inQueue (s : State T ε) : Party T → Bool
  | .worker => s.worker.inQueue
  | .caller t => (s.caller t).inQueue

/-- The threads that hold the mutex of the event. -/
def State.inEvent (s : State T ε) : Party T → Bool
  | .worker => s.worker.inEvent
  | .caller t => (s.caller t).inEvent

/-- The invariant of the queue, its locks and its threads. -/
structure Inv (s : State T ε) : Prop where
  cs : Guards s.inQueue s.cs
  mutex : Guards s.inEvent s.mutex
  history : s.pushed = s.dealt ++ (s.worker.inHand ++ s.queue)
  filled : s.worker = .checkTerminate → s.shouldTerminate = true ∨ s.queue ≠ []
  front : s.worker = .front → s.queue ≠ []
  told : s.worker.waits = true →
    s.queue = [] ∨ s.shouldContinue = true ∨ ∃ t, (s.caller t).announcing = true
  unset : s.worker = .waitBlock → s.shouldContinue = false
  woken : s.worker = .blocked → s.shouldContinue = true → ∃ t, (s.caller t).notifying = true

theorem inv_create : Inv (State.create : State T ε) where
  cs := by
    rintro (_ | t) h <;> cases h
  mutex := by
    rintro (_ | t) h <;> cases h
  history := rfl
  filled h := by cases h
  front h := by cases h
  told h := by cases h
  unset h := by cases h
  woken h := by cases h

/-! ### The locks -/

theorem workerStep_caller {s s' : State T ε} (hstep : workerStep s = some s') :
    s'.caller = s.caller := by
  unfold workerStep at hstep
  split at hstep <;> (try split at hstep) <;> cases hstep <;> rfl

theorem workerStep_cs {s s' : State T ε} (hstep : workerStep s = some s') :
    (s'.worker.inQueue = s.worker.inQueue ∧ s'.cs = s.cs) ∨ (s.cs = none ∧ s'.cs = some .worker)
      ∨ (s.worker.inQueue = true ∧ s'.worker.inQueue = false) := by
  unfold workerStep at hstep
  split at hstep <;> (try split at hstep) <;> cases hstep <;>
    grind [WorkerPc.inQueue]

theorem workerStep_mutex {s s' : State T ε} (hstep : workerStep s = some s') :
    (s'.worker.inEvent = s.worker.inEvent ∧ s'.mutex = s.mutex)
      ∨ (s.mutex = none ∧ s'.mutex = some .worker)
      ∨ (s.worker.inEvent = true ∧ s'.worker.inEvent = false) := by
  unfold workerStep at hstep
  split at hstep <;> (try split at hstep) <;> cases hstep <;>
    grind [WorkerPc.inEvent]

/-- The locks after a step of the worker. -/
theorem Inv.guards_worker {s : State T ε} (s' : State T ε) (h : Inv s)
    (hcaller : s'.caller = s.caller)
    (hcs : (s'.worker.inQueue = s.worker.inQueue ∧ s'.cs = s.cs)
      ∨ (s.cs = none ∧ s'.cs = some .worker)
      ∨ (s.worker.inQueue = true ∧ s'.worker.inQueue = false))
    (hmutex : (s'.worker.inEvent = s.worker.inEvent ∧ s'.mutex = s.mutex)
      ∨ (s.mutex = none ∧ s'.mutex = some .worker)
      ∨ (s.worker.inEvent = true ∧ s'.worker.inEvent = false)) :
    Guards s'.inQueue s'.cs ∧ Guards s'.inEvent s'.mutex := by
  refine ⟨h.cs.move .worker ?_ hcs, h.mutex.move .worker ?_ hmutex⟩
  · rintro (_ | t) hne
    · exact absurd rfl hne
    · rw [State.inQueue, State.inQueue, hcaller]
  · rintro (_ | t) hne
    · exact absurd rfl hne
    · rw [State.inEvent, State.inEvent, hcaller]

/-- The part of the invariant about the queue. -/
theorem Inv.workerStep_queue {s s' : State T ε} (h : Inv s) (hstep : workerStep s = some s') :
    s'.pushed = s'.dealt ++ (s'.worker.inHand ++ s'.queue)
      ∧ (s'.worker = .checkTerminate → s'.shouldTerminate = true ∨ s'.queue ≠ [])
      ∧ (s'.worker = .front → s'.queue ≠ []) := by
  obtain ⟨-, -, hhistory, hfilled, hfront, -, -, -⟩ := h
  unfold EventQueue.workerStep at hstep
  split at hstep <;> (try split at hstep) <;> cases hstep <;>
    grind [WorkerPc.inHand]

/-- The part of the invariant about the event. -/
theorem Inv.workerStep_event {s s' : State T ε} (h : Inv s) (hstep : workerStep s = some s') :
    (s'.worker.waits = true →
        s'.queue = [] ∨ s'.shouldContinue = true ∨ ∃ t, (s'.caller t).announcing = true)
      ∧ (s'.worker = .waitBlock → s'.shouldContinue = false)
      ∧ (s'.worker = .blocked → s'.shouldContinue = true →
        ∃ t, (s'.caller t).notifying = true) := by
  obtain ⟨-, -, -, -, -, htold, hunset, hwoken⟩ := h
  unfold EventQueue.workerStep at hstep
  split at hstep <;> (try split at hstep) <;> cases hstep <;>
    grind [WorkerPc.waits]

theorem Inv.workerStep {s s' : State T ε} (h : Inv s) (hstep : workerStep s = some s') : Inv s' := by
  obtain ⟨hcs, hmutex⟩ :=
    h.guards_worker s' (workerStep_caller hstep) (workerStep_cs hstep) (workerStep_mutex hstep)
  obtain ⟨hhistory, hfilled, hfront⟩ := h.workerStep_queue hstep
  obtain ⟨htold, hunset, hwoken⟩ := h.workerStep_event hstep
  exact ⟨hcs, hmutex, hhistory, hfilled, hfront, htold, hunset, hwoken⟩

theorem Inv.start {s : State T ε} (h : Inv s) (hstopped : s.worker = .stopped) :
    Inv { s with shouldTerminate := false, worker := .lock } := by
  have hhistory := h.history
  rw [hstopped] at hhistory
  obtain ⟨hcs, hmutex⟩ := h.guards_worker { s with shouldTerminate := false, worker := .lock }
    rfl (.inl ⟨by rw [hstopped]; rfl, rfl⟩) (.inl ⟨by rw [hstopped]; rfl, rfl⟩)
  refine ⟨hcs, hmutex, hhistory, ?_, ?_, ?_, ?_, ?_⟩
  all_goals
    intro hpc
    cases hpc

theorem Inv.spuriousWakeup {s : State T ε} (h : Inv s) (hblocked : s.worker = .blocked) :
    Inv { s with worker := .woken } := by
  have hhistory := h.history
  have htold := h.told
  rw [hblocked] at hhistory htold
  obtain ⟨hcs, hmutex⟩ := h.guards_worker { s with worker := .woken }
    rfl (.inl ⟨by rw [hblocked]; rfl, rfl⟩) (.inl ⟨by rw [hblocked]; rfl, rfl⟩)
  refine ⟨hcs, hmutex, hhistory, ?_, ?_, fun _ => htold rfl, ?_, ?_⟩
  all_goals
    intro hpc
    cases hpc

/-- What `notify_one` leaves alone. -/
theorem worker_of_notified {s s' : State T ε}
    (h : s'.worker = s.worker ∨ s'.worker = s.worker.notified) :
    s'.worker.inQueue = s.worker.inQueue ∧ s'.worker.inEvent = s.worker.inEvent
      ∧ s'.worker.inHand = s.worker.inHand ∧ s'.worker.waits = s.worker.waits
      ∧ (s'.worker = s.worker ∨ s'.worker = .woken) := by
  rcases h with h | h
  · rw [h]
    exact ⟨rfl, rfl, rfl, rfl, .inl rfl⟩
  · rw [h]
    cases s.worker <;> simp [WorkerPc.notified, WorkerPc.inQueue, WorkerPc.inEvent,
      WorkerPc.inHand, WorkerPc.waits]

/-- The locks after a step of `t`. -/
theorem Inv.guards_caller {s s' : State T ε} {t : T} (h : Inv s)
    (hothers : ∀ u, u ≠ t → s'.caller u = s.caller u)
    (hinQueue : s'.worker.inQueue = s.worker.inQueue)
    (hinEvent : s'.worker.inEvent = s.worker.inEvent)
    (hcs : ((s'.caller t).inQueue = (s.caller t).inQueue ∧ s'.cs = s.cs)
      ∨ (s.cs = none ∧ s'.cs = some (.caller t))
      ∨ ((s.caller t).inQueue = true ∧ (s'.caller t).inQueue = false))
    (hmutex : ((s'.caller t).inEvent = (s.caller t).inEvent ∧ s'.mutex = s.mutex)
      ∨ (s.mutex = none ∧ s'.mutex = some (.caller t))
      ∨ ((s.caller t).inEvent = true ∧ (s'.caller t).inEvent = false)) :
    Guards s'.inQueue s'.cs ∧ Guards s'.inEvent s'.mutex := by
  refine ⟨h.cs.move (.caller t) ?_ hcs, h.mutex.move (.caller t) ?_ hmutex⟩
  · rintro (_ | u) hne
    · exact hinQueue
    · rw [State.inQueue, State.inQueue, hothers u (by rintro rfl; exact hne rfl)]
  · rintro (_ | u) hne
    · exact hinEvent
    · rw [State.inEvent, State.inEvent, hothers u (by rintro rfl; exact hne rfl)]

variable [DecidableEq T]

/-- A step of `t` moves no other thread, but for waking the worker up. -/
theorem callerStep_others {s s' : State T ε} {t : T} (hstep : callerStep s t = some s') :
    (∀ u, u ≠ t → s'.caller u = s.caller u)
      ∧ (s'.worker = s.worker ∨ s'.worker = s.worker.notified) := by
  unfold callerStep at hstep
  split at hstep <;> (try split at hstep) <;> cases hstep <;>
    refine ⟨fun u hu => Function.update_of_ne hu _ _, ?_⟩ <;>
    first | exact .inl rfl | exact .inr rfl

theorem callerStep_cs {s s' : State T ε} {t : T} (hstep : callerStep s t = some s') :
    ((s'.caller t).inQueue = (s.caller t).inQueue ∧ s'.cs = s.cs)
      ∨ (s.cs = none ∧ s'.cs = some (.caller t))
      ∨ ((s.caller t).inQueue = true ∧ (s'.caller t).inQueue = false) := by
  unfold callerStep at hstep
  split at hstep <;> (try split at hstep) <;> cases hstep <;>
    simp_all [State.goTo, CallerPc.inQueue]

theorem callerStep_mutex {s s' : State T ε} {t : T} (hstep : callerStep s t = some s') :
    ((s'.caller t).inEvent = (s.caller t).inEvent ∧ s'.mutex = s.mutex)
      ∨ (s.mutex = none ∧ s'.mutex = some (.caller t))
      ∨ ((s.caller t).inEvent = true ∧ (s'.caller t).inEvent = false) := by
  unfold callerStep at hstep
  split at hstep <;> (try split at hstep) <;> cases hstep <;>
    simp_all [State.goTo, CallerPc.inEvent]

/-- What a step of another thread can do to the data. -/
theorem callerStep_data {s s' : State T ε} {t : T} (hstep : callerStep s t = some s') :
    s'.dealt = s.dealt ∧ (s.shouldTerminate = true → s'.shouldTerminate = true)
      ∧ ((s'.queue = s.queue ∧ s'.pushed = s.pushed)
        ∨ ∃ event, s'.queue = s.queue ++ [event] ∧ s'.pushed = s.pushed ++ [event]
            ∧ (s'.caller t).announcing = true)
      ∧ (s'.shouldContinue = s.shouldContinue
        ∨ (s'.shouldContinue = true ∧ (s.caller t).inEvent = true
            ∧ (s'.caller t).notifying = true)) := by
  unfold callerStep at hstep
  split at hstep <;> (try split at hstep) <;> cases hstep <;>
    simp_all [State.goTo, CallerPc.announcing, CallerPc.notifying, CallerPc.inEvent]

/-- A thread goes on announcing its event until it has set the flag. -/
theorem callerStep_announcing {s s' : State T ε} {t : T} (hstep : callerStep s t = some s')
    (h : ∃ u, (s.caller u).announcing = true) :
    s'.shouldContinue = true ∨ ∃ u, (s'.caller u).announcing = true := by
  obtain ⟨u, hu⟩ := h
  by_cases hut : u = t
  · subst hut
    cases hpc : s.caller u with
    | setLock adding =>
        rw [hpc] at hu
        simp only [callerStep, hpc] at hstep
        split at hstep <;> cases hstep
        exact .inr ⟨u, by rw [State.goTo_self]; exact hu⟩
    | setFlag adding =>
        simp only [callerStep, hpc] at hstep
        cases hstep
        exact .inl rfl
    | idle | lock | push | terminate | setUnlock | notify | unlock =>
        rw [hpc] at hu
        cases hu
  · exact .inr ⟨u, by rw [(callerStep_others hstep).1 u hut, hu]⟩

/-- A thread that is to notify does so when the worker is no longer asleep. -/
theorem callerStep_notifying {s s' : State T ε} {t : T} (hstep : callerStep s t = some s')
    (h : ∃ u, (s.caller u).notifying = true) :
    s'.worker ≠ .blocked ∨ ∃ u, (s'.caller u).notifying = true := by
  obtain ⟨u, hu⟩ := h
  by_cases hut : u = t
  · subst hut
    cases hpc : s.caller u with
    | setUnlock adding =>
        simp only [callerStep, hpc] at hstep
        cases hstep
        exact .inr ⟨u, by rw [State.goTo_self]; rfl⟩
    | notify adding =>
        simp only [callerStep, hpc] at hstep
        cases hstep
        refine .inl ?_
        change s.worker.notified ≠ .blocked
        cases s.worker <;> simp [WorkerPc.notified]
    | idle | lock | push | terminate | setLock | setFlag | unlock =>
        rw [hpc] at hu
        cases hu
  · exact .inr ⟨u, by rw [(callerStep_others hstep).1 u hut, hu]⟩

theorem Inv.callerStep {s s' : State T ε} {t : T} (h : Inv s) (hstep : callerStep s t = some s') :
    Inv s' := by
  obtain ⟨hothers, hworker⟩ := callerStep_others hstep
  obtain ⟨hinQueue, hinEvent, hinHand, hwaits, hsame⟩ := worker_of_notified hworker
  obtain ⟨hdealt, hterminate, hqueue, hflag⟩ := callerStep_data hstep
  have hworkerAt : ∀ pc, pc ≠ .woken → s'.worker = pc → s.worker = pc := by
    rintro pc hne rfl
    rcases hsame with hsame | hsame
    · exact hsame.symm
    · exact absurd hsame hne
  have hfilled : s.queue ≠ [] → s'.queue ≠ [] := by
    rcases hqueue with ⟨hq, -⟩ | ⟨event, hq, -⟩
    · rw [hq]
      exact id
    · rw [hq]
      intro _ hnil
      cases (List.append_eq_nil_iff.mp hnil).2
  obtain ⟨hcs, hmutex⟩ :=
    h.guards_caller hothers hinQueue hinEvent (callerStep_cs hstep) (callerStep_mutex hstep)
  refine ⟨hcs, hmutex, ?_, ?_, ?_, ?_, ?_, ?_⟩
  · rw [hdealt, hinHand]
    rcases hqueue with ⟨hq, hp⟩ | ⟨event, hq, hp, -⟩
    · rw [hq, hp, h.history]
    · rw [hq, hp, h.history]
      simp only [List.append_assoc]
  · intro hpc
    rcases h.filled (hworkerAt _ (by simp) hpc) with hterm | hne
    · exact .inl (hterminate hterm)
    · exact .inr (hfilled hne)
  · intro hpc
    exact hfilled (h.front (hworkerAt _ (by simp) hpc))
  · intro hpc
    rw [hwaits] at hpc
    rcases hqueue with ⟨hq, -⟩ | ⟨event, -, -, hannounce⟩
    · rcases h.told hpc with hnil | hset | hannounce
      · exact .inl (hq.trans hnil)
      · rcases hflag with hflag | ⟨hflag, -⟩
        · exact .inr (.inl (hflag.trans hset))
        · exact .inr (.inl hflag)
      · exact .inr (callerStep_announcing hstep hannounce)
    · exact .inr (.inr ⟨t, hannounce⟩)
  · intro hpc
    have hpc' := hworkerAt _ (by simp) hpc
    rcases hflag with hflag | ⟨-, hin, -⟩
    · exact hflag.trans (h.unset hpc')
    · -- the flag is set under the mutex, which the worker holds
      have hworkerIn : s.inEvent .worker = true := by
        rw [State.inEvent, hpc']
        rfl
      cases h.mutex.unique hworkerIn (j := .caller t) hin
  · intro hpc hset
    have hpc' := hworkerAt _ (by simp) hpc
    rcases hflag with hflag | ⟨-, -, hnotify⟩
    · rcases callerStep_notifying hstep (h.woken hpc' (hflag.symm.trans hset)) with hawake | hnotify
      · exact absurd hpc hawake
      · exact hnotify
    · exact ⟨t, hnotify⟩

/-- A thread that begins a call has done nothing yet. -/
theorem Inv.call {s : State T ε} (h : Inv s) {t : T} (hidle : s.caller t = .idle) {pc : CallerPc ε}
    (hqueue : pc.inQueue = false) (hevent : pc.inEvent = false) : Inv (s.goTo t pc) := by
  have hothers : ∀ u, (s.caller u).announcing = true ∨ (s.caller u).notifying = true →
      (s.goTo t pc).caller u = s.caller u := by
    intro u hu
    refine s.goTo_of_ne ?_ pc
    rintro rfl
    rw [hidle] at hu
    rcases hu with hu | hu <;> cases hu
  obtain ⟨hcs, hmutex⟩ := h.guards_caller (t := t) (fun u hu => s.goTo_of_ne hu pc) rfl rfl
    (.inl ⟨by rw [s.goTo_self, hqueue, hidle]; rfl, rfl⟩)
    (.inl ⟨by rw [s.goTo_self, hevent, hidle]; rfl, rfl⟩)
  refine ⟨hcs, hmutex, h.history, h.filled, h.front, ?_, h.unset, ?_⟩
  · intro hpc
    rcases h.told hpc with hnil | hset | ⟨u, hu⟩
    · exact .inl hnil
    · exact .inr (.inl hset)
    · exact .inr (.inr ⟨u, by rw [hothers u (.inl hu), hu]⟩)
  · intro hpc hset
    obtain ⟨u, hu⟩ := h.woken hpc hset
    exact ⟨u, by rw [hothers u (.inr hu), hu]⟩

theorem Inv.step {s s' : State T ε} {action : Action T ε} (h : Inv s) (hstep : Step s action s') :
    Inv s' := by
  unfold Step at hstep
  cases action with
  | worker => exact h.workerStep hstep
  | caller t => exact h.callerStep hstep
  | start =>
      rw [next] at hstep
      split at hstep <;> cases hstep
      exact h.start ‹_›
  | spuriousWakeup =>
      rw [next] at hstep
      split at hstep <;> cases hstep
      exact h.spuriousWakeup ‹_›
  | addEvent t event =>
      rw [next] at hstep
      split at hstep <;> cases hstep
      exact h.call ‹_› rfl rfl
  | stop t =>
      rw [next] at hstep
      split at hstep <;> cases hstep
      exact h.call ‹_› rfl rfl

end Invariant

/-- **No lost wake-up.** However the threads interleave: when the worker sleeps in `Wait`, its queue
is empty, or the flag is set and a thread is still to notify, or the thread that holds `m_CS` has
just pushed an event and is on its way to the flag; the events are dealt with in the order in which
they were pushed; and the worker never takes an event from an empty queue. -/
theorem no_lost_wakeup {T ε : Type} [DecidableEq T] (actions : List (Action T ε)) (s : State T ε)
    (hrun : Run Step State.create actions s) :
    (s.worker = .blocked →
        s.queue = [] ∨ (s.shouldContinue = true ∧ ∃ t, (s.caller t).notifying = true)
          ∨ ∃ t, (s.caller t).announcing = true ∧ s.cs = some (.caller t))
      ∧ s.dealt <+: s.pushed
      ∧ (s.worker = .front → s.queue ≠ []) := by
  have hinv : Inv s := hrun.invariant inv_create Inv.step
  refine ⟨?_, ?_, hinv.front⟩
  · intro hblocked
    rcases hinv.told (by rw [hblocked]; rfl) with hnil | hset | ⟨t, ht⟩
    · exact .inl hnil
    · exact .inr (.inl ⟨hset, hinv.woken hblocked hset⟩)
    · refine .inr (.inr ⟨t, ht, hinv.cs (.caller t) ?_⟩)
      rw [State.inQueue]
      cases hpc : s.caller t <;> rw [hpc] at ht <;> first | exact ht | cases ht
  · rw [hinv.history]
    exact List.prefix_append _ _

/-- A worker that has gone to sleep and a thread that has just pushed its first event. -/
def announced : List (Action Unit Unit) :=
  [.start, .worker, .worker, .worker, .worker, .worker, .worker, .worker, .addEvent () (),
    .caller (), .caller ()]

theorem no_lost_wakeup_announced :
    ∃ s : State Unit Unit, Run Step State.create announced s
      ∧ (s.worker = .blocked →
          s.queue = [] ∨ (s.shouldContinue = true ∧ ∃ t, (s.caller t).notifying = true)
            ∨ ∃ t, (s.caller t).announcing = true ∧ s.cs = some (.caller t))
      ∧ s.dealt <+: s.pushed
      ∧ (s.worker = .front → s.queue ≠ []) := by
  have hrun : ∃ s, announced.foldlM next (State.create : State Unit Unit) = some s := ⟨_, rfl⟩
  obtain ⟨s, hs⟩ := hrun
  exact ⟨s, Run.of_foldlM hs, no_lost_wakeup announced s (Run.of_foldlM hs)⟩

/-- Between the push and the flag the queue is filled, the flag is not set and the worker sleeps. -/
theorem blocked_unannounced :
    ¬ ∀ (actions : List (Action Unit Unit)) (s : State Unit Unit),
      Run Step State.create actions s → s.worker = .blocked →
        s.queue = [] ∨ s.shouldContinue = true := by
  intro hclaim
  have hrun : ∃ s, announced.foldlM next (State.create : State Unit Unit) = some s
      ∧ s.worker = .blocked ∧ s.queue = [()] ∧ s.shouldContinue = false :=
    ⟨_, rfl, rfl, rfl, rfl⟩
  obtain ⟨s, hs, hblocked, hqueue, hflag⟩ := hrun
  rcases hclaim announced s (Run.of_foldlM hs) hblocked with hnil | hset
  · rw [hqueue] at hnil
    cases hnil
  · rw [hflag] at hset
    cases hset

end Licode.Server.EventQueue
