import Licode.Lib.Run
import Mathlib.Logic.Function.Basic

/-!
# The life of an ICE connection

`NiceConnection::close` is guarded by the ICE state: a connection that is `NICE_FINISHED` has been
closed. But `updateIceState` only ever goes up, and `NICE_FAILED` lies above `NICE_FINISHED`. A
connection whose components have all failed is not marked as finished by `close`, and the next call
takes it down a second time: it joins a thread that has been joined.

`close` holds `closeMutex_` all along. The callbacks of the ICE agent do not take it, and run until
the thread of the main loop has been joined; so the teardown is two steps, before and after the
join, and callbacks may come between the two.
-/

namespace Licode.Media

inductive IceState where
  | initial
  | candidatesReceived
  | ready
  | finished
  | failed
  deriving DecidableEq

def IceState.toNat : IceState → Nat
  | .initial => 0
  | .candidatesReceived => 1
  | .ready => 2
  | .finished => 3
  | .failed => 4

/-- A `NiceConnection` and the two members of the `DtlsTransport` that owns it which decide who
closes it. `teardowns` and `joinedTwice` are not in the source: they count the teardowns and record
a `join` of a thread that is not joinable. -/
structure NiceConnection where
  iceComponents : Nat
  iceState : IceState
  compStateList : Nat → IceState
  receivedLastCandidate : Bool
  /-- `agent_`, and with it `loop_` and `context_`, is not null. -/
  agent : Bool
  threadJoinable : Bool
  /-- `closeMutex_` is held by a call of `close` that waits for the thread. -/
  closing : Bool
  /-- The transport's `state_` is `TRANSPORT_FINISHED`. -/
  transportFinished : Bool
  transportDestroyed : Bool
  destroyed : Bool
  teardowns : Nat
  joinedTwice : Bool

namespace NiceConnection

def create (iceComponents : Nat) : NiceConnection where
  iceComponents := iceComponents
  iceState := .initial
  compStateList := fun _ => .initial
  receivedLastCandidate := false
  agent := false
  threadJoinable := false
  closing := false
  transportFinished := false
  transportDestroyed := false
  destroyed := false
  teardowns := 0
  joinedTwice := false

def updateIceState (c : NiceConnection) (state : IceState) : NiceConnection :=
  if state.toNat ≤ c.iceState.toNat then c else { c with iceState := state }

/-- All components have the state. -/
def allComponents (c : NiceConnection) (state : IceState) : Bool :=
  (List.range c.iceComponents).all fun i => c.compStateList (i + 1) = state

def updateComponentState (c : NiceConnection) (compId : Nat) (state : IceState) : NiceConnection :=
  let c := { c with compStateList := Function.update c.compStateList compId state }
  if state = .ready then
    if c.allComponents .ready then c.updateIceState state else c
  else if state = .failed then
    if ¬ c.receivedLastCandidate then c
    else if c.allComponents .failed then c.updateIceState state
    else c
  else c.updateIceState state

def gatheringDone (c : NiceConnection) : NiceConnection := c.updateIceState .candidatesReceived

/-- `start`, which returns at once on a connection that has left its first state. -/
def start (c : NiceConnection) : NiceConnection :=
  if c.iceState ≠ .initial then c else { c with agent := true, threadJoinable := true }

/-- `close` up to the join. -/
def close (c : NiceConnection) : NiceConnection :=
  if c.iceState = .finished then c
  else { c.updateIceState .finished with closing := true, teardowns := c.teardowns + 1 }

/-- The rest of `close`. -/
def joinThread (c : NiceConnection) : NiceConnection :=
  { c with
    joinedTwice := c.joinedTwice || !c.threadJoinable
    threadJoinable := false
    agent := false
    closing := false }

/-- `setRemoteCandidates`, as far as it can close the connection. -/
def setRemoteCandidates (c : NiceConnection) : NiceConnection := if c.agent then c else c.close

inductive Event where
  | start
  | updateComponentState (compId : Nat) (state : IceState)
  | setReceivedLastCandidate (hasReceived : Bool)
  | gatheringDone
  | setRemoteCandidates
  | closeTransport
  | destroyTransport
  | destroy
  | joinThread

/-- When the code can come to the call: the agent calls back from its thread, calls on the transport
end with its destructor (which closes a transport that is not finished), and the connection is
destroyed after the transport. A call that wants `closeMutex_` waits for its owner. -/
def Enabled (c : NiceConnection) : Event → Prop
  | .start => c.closing = false ∧ c.agent = false ∧ c.transportDestroyed = false
  | .updateComponentState _ state =>
      c.threadJoinable = true ∧ (state = .ready ∨ state = .failed)
  | .gatheringDone => c.threadJoinable = true
  | .setReceivedLastCandidate _ => c.transportDestroyed = false
  | .setRemoteCandidates | .closeTransport => c.closing = false ∧ c.transportDestroyed = false
  | .destroyTransport =>
      c.closing = false ∧ c.transportFinished = true ∧ c.transportDestroyed = false
  | .destroy => c.closing = false ∧ c.transportDestroyed = true ∧ c.destroyed = false
  | .joinThread => c.closing = true

def next (c : NiceConnection) : Event → NiceConnection
  | .start => c.start
  | .updateComponentState compId state => c.updateComponentState compId state
  | .setReceivedLastCandidate hasReceived => { c with receivedLastCandidate := hasReceived }
  | .gatheringDone => c.gatheringDone
  | .setRemoteCandidates => c.setRemoteCandidates
  | .closeTransport => { c.close with transportFinished := true }
  | .destroyTransport => { c with transportDestroyed := true }
  | .destroy => { c.close with destroyed := true }
  | .joinThread => c.joinThread

instance (c : NiceConnection) : ∀ event, Decidable (Enabled c event)
  | .start | .updateComponentState _ _ | .setRemoteCandidates | .closeTransport | .destroyTransport
  | .destroy => inferInstanceAs (Decidable (_ ∧ _))
  | .gatheringDone | .setReceivedLastCandidate _ | .joinThread => inferInstanceAs (Decidable (_ = _))

def tryNext (c : NiceConnection) (event : Event) : Option NiceConnection :=
  if Enabled c event then some (c.next event) else none

def Step (c : NiceConnection) (event : Event) (c' : NiceConnection) : Prop :=
  c.tryNext event = some c'

theorem enabled_of_step {c c' : NiceConnection} {event : Event} (h : Step c event c') :
    Enabled c event ∧ c' = c.next event := by
  unfold Step tryNext at h
  split at h <;> cases h
  exact ⟨‹_›, rfl⟩

/-- The calls that reach `close`. -/
def Event.closes (c : NiceConnection) : Event → Bool
  | .setRemoteCandidates => !c.agent
  | .closeTransport | .destroy => true
  | _ => false

/-- `close` is not called before `start`, and not again on a connection that has failed. -/
def CloseGuard (c : NiceConnection) (event : Event) : Prop :=
  event.closes c = true → c.iceState = .initial ∨ c.iceState = .failed → c.agent = true

/-- A connection is torn down once: while it has its agent it has not been, and without it only a
finished or failed one has. -/
structure Inv (c : NiceConnection) : Prop where
  thread : c.threadJoinable = c.agent
  joined : c.joinedTwice = false
  closing : c.closing = true →
    c.agent = true ∧ c.teardowns = 1 ∧ (c.iceState = .finished ∨ c.iceState = .failed)
  open_ : c.closing = false → c.agent = true → c.teardowns = 0 ∧ c.iceState ≠ .finished
  closed : c.closing = false → c.agent = false →
    (c.teardowns = 0 ∧ c.iceState = .initial)
      ∨ (c.teardowns = 1 ∧ (c.iceState = .finished ∨ c.iceState = .failed))

theorem inv_create (iceComponents : Nat) : Inv (create iceComponents) where
  thread := rfl
  joined := rfl
  closing h := by cases h
  open_ _ h := by cases h
  closed _ _ := .inl ⟨rfl, rfl⟩

/-- The ICE state of a connection with an agent may go up to any state but `NICE_FINISHED`. -/
theorem Inv.updateIceState {c : NiceConnection} (h : Inv c) (hagent : c.agent = true)
    {state : IceState} (hstate : state ≠ .finished) : Inv (c.updateIceState state) := by
  unfold NiceConnection.updateIceState
  split_ifs with hle
  · exact h
  refine ⟨h.thread, h.joined, ?_, ?_, ?_⟩
  · intro hclosing
    obtain ⟨-, hcount, hice⟩ := h.closing hclosing
    refine ⟨hagent, hcount, ?_⟩
    -- above `NICE_FINISHED` there is only `NICE_FAILED`
    rcases hice with hice | hice <;> rw [hice] at hle <;> cases state <;>
      simp_all [IceState.toNat]
  · intro hclosing _
    exact ⟨(h.open_ hclosing hagent).1, hstate⟩
  · intro _ hnone
    rw [hagent] at hnone
    cases hnone

theorem Inv.updateComponentState {c : NiceConnection} (h : Inv c) (hagent : c.agent = true)
    {state : IceState} (hstate : state = .ready ∨ state = .failed) (compId : Nat) :
    Inv (c.updateComponentState compId state) := by
  have hne : state ≠ .finished := by
    rcases hstate with rfl | rfl <;> simp
  have hlist : Inv { c with compStateList := Function.update c.compStateList compId state } :=
    ⟨h.thread, h.joined, h.closing, h.open_, h.closed⟩
  unfold NiceConnection.updateComponentState
  dsimp only
  split_ifs
  all_goals
    first | exact hlist | exact hlist.updateIceState hagent hne

/-- A call of `close` that meets the condition finds a finished connection, or one that has its
agent. -/
theorem Inv.close {c : NiceConnection} (h : Inv c) (hclosing : c.closing = false)
    (hguard : c.iceState = .initial ∨ c.iceState = .failed → c.agent = true) : Inv c.close := by
  unfold NiceConnection.close
  split_ifs with hfinished
  · exact h
  have hagent : c.agent = true := by
    cases hagent : c.agent with
    | true => rfl
    | false =>
        rcases h.closed hclosing hagent with ⟨-, hice⟩ | ⟨-, hice | hice⟩
        · rw [hguard (.inl hice)] at hagent
          cases hagent
        · exact absurd hice hfinished
        · rw [hguard (.inr hice)] at hagent
          cases hagent
  obtain ⟨hcount, -⟩ := h.open_ hclosing hagent
  unfold NiceConnection.updateIceState
  split_ifs with hle
  · refine ⟨h.thread, h.joined, fun _ => ⟨hagent, by rw [hcount], .inr ?_⟩, by simp, by simp⟩
    cases hice : c.iceState <;> simp_all [IceState.toNat]
  · exact ⟨h.thread, h.joined, fun _ => ⟨hagent, by rw [hcount], .inl rfl⟩, by simp, by simp⟩

theorem Inv.joinThread {c : NiceConnection} (h : Inv c) (hclosing : c.closing = true) :
    Inv c.joinThread := by
  obtain ⟨hagent, hcount, hice⟩ := h.closing hclosing
  refine ⟨rfl, ?_, ?_, ?_, ?_⟩
  · change (c.joinedTwice || !c.threadJoinable) = false
    rw [h.joined, h.thread, hagent]
    rfl
  · intro hfalse
    cases hfalse
  · intro _ hfalse
    cases hfalse
  · intro _ _
    exact .inr ⟨hcount, hice⟩

theorem Inv.start {c : NiceConnection} (h : Inv c) (hclosing : c.closing = false)
    (hagent : c.agent = false) : Inv c.start := by
  unfold NiceConnection.start
  split_ifs with hstate
  · exact h
  · rw [not_not] at hstate
    have hcount : c.teardowns = 0 := by
      rcases h.closed hclosing hagent with ⟨hcount, -⟩ | ⟨-, hice | hice⟩
      · exact hcount
      · rw [hstate] at hice
        cases hice
      · rw [hstate] at hice
        cases hice
    refine ⟨rfl, h.joined, ?_, ?_, ?_⟩
    · intro htrue
      rw [show c.closing = true from htrue] at hclosing
      cases hclosing
    · intro _ _
      refine ⟨hcount, ?_⟩
      change c.iceState ≠ .finished
      rw [hstate]
      simp
    · intro _ hfalse
      cases hfalse

theorem Inv.step {c c' : NiceConnection} {event : Event} (h : Inv c)
    (hstep : Guarded CloseGuard Step c event c') : Inv c' := by
  obtain ⟨hguard, hstep⟩ := hstep
  obtain ⟨henabled, rfl⟩ := enabled_of_step hstep
  cases event with
  | start => exact h.start henabled.1 henabled.2.1
  | updateComponentState compId state =>
      exact h.updateComponentState (h.thread ▸ henabled.1) henabled.2 compId
  | setReceivedLastCandidate hasReceived =>
      exact ⟨h.thread, h.joined, h.closing, h.open_, h.closed⟩
  | gatheringDone => exact h.updateIceState (h.thread ▸ henabled) (by simp)
  | setRemoteCandidates =>
      rw [next, setRemoteCandidates]
      split_ifs with hagent
      · exact h
      · exact h.close henabled.1 (hguard (by simpa [Event.closes] using hagent))
  | closeTransport =>
      have hclose := h.close henabled.1 (hguard rfl)
      exact ⟨hclose.thread, hclose.joined, hclose.closing, hclose.open_, hclose.closed⟩
  | destroyTransport => exact ⟨h.thread, h.joined, h.closing, h.open_, h.closed⟩
  | destroy =>
      have hclose := h.close henabled.1 (hguard rfl)
      exact ⟨hclose.thread, hclose.joined, hclose.closing, hclose.open_, hclose.closed⟩
  | joinThread => exact h.joinThread henabled

/-- **One teardown.** In every run in which `close` is not called before `start` and not again on a
connection that has failed, the connection is torn down at most once and no thread is joined that is
not joinable. -/
theorem teardown_once (iceComponents : Nat) (events : List Event) (c : NiceConnection)
    (hrun : Run (Guarded CloseGuard Step) (create iceComponents) events c) :
    c.teardowns ≤ 1 ∧ c.joinedTwice = false := by
  have hinv : Inv c := hrun.invariant (inv_create iceComponents) Inv.step
  refine ⟨?_, hinv.joined⟩
  cases hclosing : c.closing with
  | true => exact Nat.le_of_eq (hinv.closing hclosing).2.1
  | false =>
      cases hagent : c.agent with
      | true => rw [(hinv.open_ hclosing hagent).1]; exact Nat.zero_le 1
      | false =>
          rcases hinv.closed hclosing hagent with ⟨hcount, -⟩ | ⟨hcount, -⟩
          · rw [hcount]
            exact Nat.zero_le 1
          · exact Nat.le_of_eq hcount

/-- A call that ends well: a connection that never failed. -/
def closedOnce : List Event :=
  [.start, .gatheringDone, .updateComponentState 1 .ready, .closeTransport, .joinThread,
    .destroyTransport, .destroy]

instance (c : NiceConnection) (event : Event) : Decidable (CloseGuard c event) :=
  inferInstanceAs (Decidable (_ → _))

theorem teardown_once_ready :
    ∃ c, Run (Guarded CloseGuard Step) (create 1) closedOnce c
      ∧ c.destroyed = true ∧ c.teardowns ≤ 1 ∧ c.joinedTwice = false := by
  have hrun : ∃ c, closedOnce.foldlM
      (fun c event => if CloseGuard c event then c.tryNext event else none) (create 1) = some c
        ∧ c.destroyed = true := ⟨_, rfl, rfl⟩
  obtain ⟨c, hc, hdestroyed⟩ := hrun
  have hrun := Run.guarded_of_foldlM hc
  exact ⟨c, hrun, hdestroyed, teardown_once 1 closedOnce c hrun⟩

/-- The only component fails after the last candidate, and the transport is closed and destroyed. -/
def closedTwice : List Event :=
  [.start, .setReceivedLastCandidate true, .updateComponentState 1 .failed, .closeTransport,
    .joinThread, .destroyTransport, .destroy, .joinThread]

theorem teardown_twice :
    ¬ ∀ (events : List Event) (c : NiceConnection), Run Step (create 1) events c →
      c.teardowns ≤ 1 ∧ c.joinedTwice = false := by
  intro hclaim
  have hrun : ∃ c, closedTwice.foldlM tryNext (create 1) = some c ∧ c.teardowns = 2 :=
    ⟨_, rfl, rfl⟩
  obtain ⟨c, hc, htwo⟩ := hrun
  have hone := (hclaim closedTwice c (Run.of_foldlM hc)).1
  rw [htwo] at hone
  exact absurd hone (by decide)

end NiceConnection

end Licode.Media
