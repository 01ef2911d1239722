import Licode.Lib.Run
import Mathlib.Logic.Function.Basic

/-!
# The send thread of a connection

`WebRtcConnection::sendLoop` waits on `cond_` under `receiveVideoMutex_` while `sendQueue_` is
empty. `queueData` fills the queue and notifies under the same mutex. `updateState` and the
destructor clear `sending_` and notify without it, and so a notification can come when the loop has
already looked at `sending_` and is not yet waiting: it is lost, and the thread waits for ever. The
last chance is the notification of the destructor.

Each test, each access to the shared members, each acquisition and release of the mutex and each
notification is a step of its own. `cond_.wait` releases the mutex and blocks in one step, and there
are no spurious wake-ups. Of a packet only its component matters here.
-/

namespace Licode.Media.SendLoop

/-- What the send thread does next. -/
inductive SenderPc where
  | testSending
  | lock
  | testEmpty
  | wait
  | blocked
  | woken
  | testSendingAgain
  | front
  | clearSending
  | pop
  | unlock
  | write
  | unlockReturn
  | returned
  deriving DecidableEq

/-- What another thread does next in `queueData` or in `updateState(TRANSPORT_FAILED)`. -/
inductive CallerPc where
  | idle
  | lock (comp : Int)
  | testSending (comp : Int)
  | clearSending
  | enqueue (comp : Int)
  | notify
  | unlock
  | fail
  | failNotify
  deriving DecidableEq

/-- What the destructor does next. -/
inductive DestructorPc where
  | notCalled
  | clearSending
  | notify
  | join
  deriving DecidableEq

inductive Party (T : Type) where
  | sender
  | caller (t : T)
  deriving DecidableEq

structure State (T : Type) where
  sending : Bool
  sendQueue : List Int
  receiveVideoMutex : Option (Party T)
  sender : SenderPc
  caller : T → CallerPc
  destructor : DestructorPc

inductive Action (T : Type) where
  | sender
  | queueData (t : T) (comp : Int)
  | transportFailed (t : T)
  | caller (t : T)
  | destroy
  | destructor

/-- The state after `init`. -/
def State.create {T : Type} : State T where
  sending := true
  sendQueue := []
  receiveVideoMutex := none
  sender := .testSending
  caller := fun _ => .idle
  destructor := .notCalled

/-- `cond_.notify_one()` for a send thread at `pc`. -/
def SenderPc.notified : SenderPc → SenderPc
  | .blocked => .woken
  | pc => pc

section Step

variable {T : Type} [DecidableEq T]

def senderStep (s : State T) : Option (State T) :=
  match s.sender with
  | .testSending => some { s with sender := if s.sending then .lock else .returned }
  | .lock =>
      if s.receiveVideoMutex = none then
        some { s with receiveVideoMutex := some .sender, sender := .testEmpty }
      else none
  | .testEmpty => some { s with sender := if s.sendQueue.length = 0 then .wait else .front }
  | .wait => some { s with receiveVideoMutex := none, sender := .blocked }
  | .blocked => none
  | .woken =>
      if s.receiveVideoMutex = none then
        some { s with receiveVideoMutex := some .sender, sender := .testSendingAgain }
      else none
  | .testSendingAgain => some { s with sender := if s.sending then .testEmpty else .unlockReturn }
  | .front =>
      match s.sendQueue with
      | [] => none
      | comp :: _ => some { s with sender := if comp = -1 then .clearSending else .pop }
  | .clearSending => some { s with sending := false, sendQueue := s.sendQueue.tail, sender := .unlockReturn }
  | .pop => some { s with sendQueue := s.sendQueue.tail, sender := .unlock }
  | .unlock => some { s with receiveVideoMutex := none, sender := .write }
  | .write => some { s with sender := .testSending }
  | .unlockReturn => some { s with receiveVideoMutex := none, sender := .returned }
  | .returned => none

def State.goTo (s : State T) (t : T) (pc : CallerPc) : State T :=
  { s with caller := Function.update s.caller t pc }

def callerStep (s : State T) (t : T) : Option (State T) :=
  match s.caller t with
  | .idle => none
  | .lock comp =>
      if s.receiveVideoMutex = none then
        some ({ s with receiveVideoMutex := some (.caller t) }.goTo t (.testSending comp))
      else none
  | .testSending comp =>
      some (s.goTo t
        (if ¬ s.sending then .unlock else if comp = -1 then .clearSending else .enqueue comp))
  | .clearSending => some ({ s with sending := false }.goTo t (.enqueue (-1)))
  | .enqueue comp =>
      -- the packet that ends the loop takes the place of all others
      if comp = -1 then some ({ s with sendQueue := [-1] }.goTo t .notify)
      else if s.sendQueue.length < 1000 then
        some ({ s with sendQueue := s.sendQueue ++ [comp] }.goTo t .notify)
      else some (s.goTo t .notify)
  | .notify => some ({ s with sender := s.sender.notified }.goTo t .unlock)
  | .unlock => some ({ s with receiveVideoMutex := none }.goTo t .idle)
  | .fail => some ({ s with sending := false }.goTo t .failNotify)
  | .failNotify => some ({ s with sender := s.sender.notified }.goTo t .idle)

def destructorStep (s : State T) : Option (State T) :=
  match s.destructor with
  | .notCalled => none
  | .clearSending => some { s with sending := false, destructor := .notify }
  | .notify => some { s with sender := s.sender.notified, destructor := .join }
  | .join => none

def next (s : State T) : Action T → Option (State T)
  | .sender => senderStep s
  | .queueData t comp => if s.caller t = .idle then some (s.goTo t (.lock comp)) else none
  | .transportFailed t => if s.caller t = .idle then some (s.goTo t .fail) else none
  | .caller t => callerStep s t
  | .destroy => if s.destructor = .notCalled then some { s with destructor := .clearSending } else none
  | .destructor => destructorStep s

/-- One step of one thread. -/
def Step (s : State T) (action : Action T) (s' : State T) : Prop := next s action = some s'

end Step

section Shutdown

variable {T : Type}

/-- A notification of this thread is still to come. -/
def CallerPc.notifies : CallerPc → Bool
  | .clearSending | .enqueue _ | .notify | .fail | .failNotify => true
  | _ => false

/-- The send thread waits for ever, and with it the `join` of the destructor. -/
def Stuck (s : State T) : Prop :=
  s.destructor = .join ∧ s.sender = .blocked ∧ s.sending = false
    ∧ ∀ t, (s.caller t).notifies = false

/-- The send thread has seen `sending_` set and goes on to wait for a packet. -/
def Waiting (s : State T) : Prop :=
  ((s.sender = .lock ∨ s.sender = .testEmpty) ∧ s.sendQueue = []) ∨ s.sender = .wait

instance (s : State T) : Decidable (Waiting s) := inferInstanceAs (Decidable (_ ∨ _))

/-- The destructor does not notify while the send thread is on its way into `cond_.wait`. -/
def NotifyGuard (s : State T) : Action T → Prop
  | .destructor => s.destructor = .notify → ¬ Waiting s
  | _ => True

instance (s : State T) : ∀ action : Action T, Decidable (NotifyGuard s action)
  | .destructor => inferInstanceAs (Decidable (_ → _))
  | .sender | .queueData _ _ | .transportFailed _ | .caller _ | .destroy => .isTrue trivial

/-- The send thread finds a packet or finds `sending_` cleared before it can wait again. -/
def Leaving (s : State T) : Prop := ¬ Waiting s ∧ s.sender ≠ .blocked

/-- Once the destructor has begun, `sending_` stays cleared, and once it has notified, the send
thread is on its way out. -/
structure Inv (s : State T) : Prop where
  cleared : s.destructor = .notify ∨ s.destructor = .join → s.sending = false
  leaving : s.destructor = .join → Leaving s

theorem inv_create : Inv (State.create : State T) := by
  constructor <;> intro h <;> simp [State.create] at h

theorem Leaving.senderStep {s s' : State T} (h : Leaving s) (hsending : s.sending = false)
    (hstep : senderStep s = some s') : Leaving s' := by
  unfold Leaving Waiting at *
  unfold SendLoop.senderStep at hstep
  split at hstep <;> (try split at hstep) <;> cases hstep <;> grind

theorem senderStep_rest {s s' : State T} (hstep : senderStep s = some s') :
    s'.destructor = s.destructor ∧ (s.sending = false → s'.sending = false) := by
  unfold senderStep at hstep
  split at hstep <;> (try split at hstep) <;> cases hstep <;> simp

/-- What the other threads can do to the send thread. -/
structure Disturbs (s s' : State T) : Prop where
  sender : s'.sender = s.sender ∨ s'.sender = s.sender.notified
  sending : s.sending = false → s'.sending = false
  sendQueue : s'.sendQueue = [] → s.sendQueue = []

theorem Leaving.disturbs {s s' : State T} (h : ¬ Waiting s) (hblocked : s'.sender ≠ .blocked)
    (hdisturbs : Disturbs s s') : Leaving s' := by
  obtain ⟨hsender, -, hqueue⟩ := hdisturbs
  unfold Leaving Waiting at *
  rcases hsender with hsender | hsender
  · rw [hsender] at hblocked ⊢
    refine ⟨?_, hblocked⟩
    rintro (⟨hpc, hnil⟩ | hpc)
    · exact h (.inl ⟨hpc, hqueue hnil⟩)
    · exact h (.inr hpc)
  · rw [hsender] at hblocked ⊢
    refine ⟨?_, hblocked⟩
    cases hpc : s.sender <;> simp_all [SenderPc.notified]

theorem notified_ne_blocked (pc : SenderPc) : pc.notified ≠ .blocked := by
  cases pc <;> simp [SenderPc.notified]

theorem Disturbs.ne_blocked {s s' : State T} (h : Disturbs s s') (hpc : s.sender ≠ .blocked) :
    s'.sender ≠ .blocked := by
  rcases h.sender with hsender | hsender
  · rw [hsender]
    exact hpc
  · rw [hsender]
    exact notified_ne_blocked _

theorem Inv.destructorStep {s s' : State T} (h : Inv s)
    (hguard : s.destructor = .notify → ¬ Waiting s) (hstep : destructorStep s = some s') :
    Inv s' := by
  unfold SendLoop.destructorStep at hstep
  split at hstep <;> cases hstep
  · exact ⟨fun _ => rfl, fun hpc => by cases hpc⟩
  · next hpc =>
      have hsending := h.cleared (.inl hpc)
      have hdisturbs : Disturbs s { s with sender := s.sender.notified, destructor := .join } :=
        ⟨.inr rfl, id, id⟩
      exact ⟨fun _ => hsending,
        fun _ => .disturbs (hguard hpc) (notified_ne_blocked _) hdisturbs⟩

/-- A step of another thread, or the beginning of a call, keeps the invariant. -/
theorem Inv.disturbs {s s' : State T} (h : Inv s) (hdisturbs : Disturbs s s')
    (hdestructor : s'.destructor = s.destructor) : Inv s' := by
  refine ⟨?_, ?_⟩
  · rw [hdestructor]
    exact fun hpc => hdisturbs.sending (h.cleared hpc)
  · rw [hdestructor]
    intro hpc
    obtain ⟨hwaiting, hblocked⟩ := h.leaving hpc
    exact .disturbs hwaiting (hdisturbs.ne_blocked hblocked) hdisturbs

variable [DecidableEq T]

theorem callerStep_disturbs {s s' : State T} {t : T} (hstep : callerStep s t = some s') :
    Disturbs s s' ∧ s'.destructor = s.destructor := by
  unfold callerStep at hstep
  split at hstep
  case h_5 comp hpc =>
      split_ifs at hstep <;> cases hstep <;>
        exact ⟨⟨.inl rfl, id, by simp [State.goTo]⟩, rfl⟩
  all_goals
    (try split at hstep) <;> cases hstep <;>
      refine ⟨⟨?_, by simp [State.goTo], by simp [State.goTo]⟩, rfl⟩ <;>
      first | exact .inl rfl | exact .inr rfl

theorem Inv.step {s s' : State T} {action : Action T} (h : Inv s)
    (hstep : Guarded NotifyGuard Step s action s') : Inv s' := by
  obtain ⟨hguard, hstep⟩ := hstep
  unfold Step at hstep
  cases action with
  | sender =>
      obtain ⟨hdestructor, hsending⟩ := senderStep_rest hstep
      refine ⟨?_, ?_⟩
      · rw [hdestructor]
        exact fun hpc => hsending (h.cleared hpc)
      · rw [hdestructor]
        exact fun hpc => (h.leaving hpc).senderStep (h.cleared (.inr hpc)) hstep
  | queueData t comp =>
      rw [next] at hstep
      split at hstep <;> cases hstep
      exact h.disturbs ⟨.inl rfl, id, id⟩ rfl
  | transportFailed t =>
      rw [next] at hstep
      split at hstep <;> cases hstep
      exact h.disturbs ⟨.inl rfl, id, id⟩ rfl
  | caller t =>
      obtain ⟨hdisturbs, hdestructor⟩ := callerStep_disturbs hstep
      exact h.disturbs hdisturbs hdestructor
  | destroy =>
      rw [next] at hstep
      split at hstep <;> cases hstep
      refine ⟨?_, ?_⟩
      · rintro (hpc | hpc) <;> cases hpc
      · intro hpc
        cases hpc
  | destructor => exact h.destructorStep hguard hstep

end Shutdown

/-- **Shutdown is noticed.** In every run in which the destructor does not notify while the send
thread is on its way into `cond_.wait`, the thread is never stuck there. -/
theorem shutdown_noticed {T : Type} [DecidableEq T] (actions : List (Action T)) (s : State T)
    (hrun : Run (Guarded NotifyGuard Step) State.create actions s) : ¬ Stuck s := by
  have hinv : Inv s := hrun.invariant inv_create Inv.step
  rintro ⟨hdestructor, hblocked, -⟩
  exact (hinv.leaving hdestructor).2 hblocked

/-- The send thread sleeps when the destructor is called. -/
def asleep : List (Action Unit) :=
  [.sender, .sender, .sender, .sender, .destroy, .destructor, .destructor]

theorem shutdown_noticed_asleep :
    ∃ s : State Unit, Run (Guarded NotifyGuard Step) State.create asleep s
      ∧ s.destructor = .join ∧ ¬ Stuck s := by
  have hrun : ∃ s, asleep.foldlM (fun s action => if NotifyGuard s action then next s action else none)
      (State.create : State Unit) = some s ∧ s.destructor = .join := ⟨_, rfl, rfl⟩
  obtain ⟨s, hs, hjoin⟩ := hrun
  have hrun := Run.guarded_of_foldlM hs
  exact ⟨s, hrun, hjoin, shutdown_noticed asleep s hrun⟩

/-- The destructor clears `sending_` and notifies while the send thread is between its test and the
mutex. -/
def overtaken : List (Action Unit) :=
  [.sender, .destroy, .destructor, .destructor, .sender, .sender, .sender]

theorem shutdown_missed :
    ¬ ∀ (actions : List (Action Unit)) (s : State Unit), Run Step State.create actions s →
      ¬ Stuck s := by
  intro hclaim
  have hrun : ∃ s, overtaken.foldlM next (State.create : State Unit) = some s
      ∧ s.destructor = .join ∧ s.sender = .blocked ∧ s.sending = false
      ∧ ∀ t, (s.caller t).notifies = false :=
    ⟨_, rfl, rfl, rfl, rfl, fun _ => rfl⟩
  obtain ⟨s, hs, hstuck⟩ := hrun
  exact hclaim overtaken s (Run.of_foldlM hs) hstuck

end Licode.Media.SendLoop
