import Licode.Lib.LockOrder
import Licode.Lib.Run

/-!
# The locks of the signalling threads

`m_CSClients`, `m_CSChannels` and the lock `m_CS` of the event queue, and the threads that take
them. A thread is told by its place in the code: the locks it holds there, and the one it asks for
next. Loops may turn any number of times, so the control flow is the list of the places that may
come next.

The manager holds `m_CSChannels` while it deals with an event and asks for `m_CSClients` to send the
answers. The tick thread destroys handles after it has let `m_CSClients` go, because their
destructors ask for `m_CSChannels`. `cServer::Shutdown` destroys them with `m_CSClients` in its
hands, and then the two orders meet.
-/

namespace Licode.Server.Locks

inductive Lock where
  | clients
  | channels
  | events
  deriving DecidableEq

/-- `cServer::TickClients` and what it calls: `addEvent` from the packet handlers, and `doUserOffline`
from the destructors of the removed handles. -/
inductive TickPc where
  | idle
  | lockClients
  | clients
  | lockEvents
  | events
  | remove
  | lockChannels
  | channels
  | lockEventsOffline
  | eventsOffline
  | ended
  deriving DecidableEq

/-- `cManager::Execute` and `dealEvent`. -/
inductive ManagerPc where
  | lockEvents
  | events
  | waitEvents
  | deal
  | lockChannels
  | channels
  | lockClients
  | clients
  | ended
  deriving DecidableEq

/-- `AuthenticateUser` and `KickUser` of the authenticator, and `SendMsgToPeer` of a media thread. -/
inductive CallerPc where
  | idle
  | lockClients
  | clients
  deriving DecidableEq

/-- The main thread: `cServer::Shutdown`, which waits for the tick thread and then destroys the
handles. -/
inductive MainPc where
  | running
  | waitRestart
  | lockClients
  | clients
  | lockChannels
  | channels
  | lockEvents
  | events
  | done
  deriving DecidableEq

def TickPc.holds : TickPc → Lock → Bool
  | .clients, .clients | .lockEvents, .clients | .events, .clients => true
  | .events, .events => true
  | .channels, .channels | .lockEventsOffline, .channels | .eventsOffline, .channels => true
  | .eventsOffline, .events => true
  | _, _ => false

def TickPc.wants : TickPc → Option Lock
  | .lockClients => some .clients
  | .lockEvents | .lockEventsOffline => some .events
  | .lockChannels => some .channels
  | _ => none

def TickPc.next : TickPc → List TickPc
  | .idle => [.lockClients, .ended]
  | .lockClients => [.clients]
  | .clients => [.lockEvents, .remove]
  | .lockEvents => [.events]
  | .events => [.clients]
  | .remove => [.lockChannels, .idle]
  | .lockChannels => [.channels]
  | .channels => [.lockEventsOffline, .remove]
  | .lockEventsOffline => [.eventsOffline]
  | .eventsOffline => [.channels]
  | .ended => []

def ManagerPc.holds : ManagerPc → Lock → Bool
  | .events, .events => true
  | .channels, .channels | .lockClients, .channels | .clients, .channels => true
  | .clients, .clients => true
  | _, _ => false

def ManagerPc.wants : ManagerPc → Option Lock
  | .lockEvents => some .events
  | .lockChannels => some .channels
  | .lockClients => some .clients
  | _ => none

def ManagerPc.next : ManagerPc → List ManagerPc
  | .lockEvents => [.events]
  | .events => [.waitEvents, .deal, .ended]
  | .waitEvents => [.lockEvents]
  | .deal => [.lockChannels, .lockEvents]
  | .lockChannels => [.channels]
  | .channels => [.lockClients, .lockEvents]
  | .lockClients => [.clients]
  | .clients => [.channels]
  | .ended => []

def CallerPc.holds : CallerPc → Lock → Bool
  | .clients, .clients => true
  | _, _ => false

def CallerPc.wants : CallerPc → Option Lock
  | .lockClients => some .clients
  | _ => none

def CallerPc.next : CallerPc → List CallerPc
  | .idle => [.lockClients]
  | .lockClients => [.clients]
  | .clients => [.idle]

def MainPc.holds : MainPc → Lock → Bool
  | .clients, .clients | .lockChannels, .clients | .channels, .clients | .lockEvents, .clients
  | .events, .clients => true
  | .channels, .channels | .lockEvents, .channels | .events, .channels => true
  | .events, .events => true
  | _, _ => false

def MainPc.wants : MainPc → Option Lock
  | .lockClients => some .clients
  | .lockChannels => some .channels
  | .lockEvents => some .events
  | _ => none

def MainPc.next : MainPc → List MainPc
  | .running => [.waitRestart]
  | .waitRestart => [.lockClients]
  | .lockClients => [.clients]
  | .clients => [.lockChannels, .done]
  | .lockChannels => [.channels]
  | .channels => [.lockEvents, .clients]
  | .lockEvents => [.events]
  | .events => [.channels]
  | .done => []

/-- The threads; there is one media thread for each `t`. -/
inductive Thread (T : Type) where
  | tick
  | manager
  | authenticator
  | media (t : T)
  | main

structure State (T : Type) where
  tick : TickPc
  manager : ManagerPc
  authenticator : CallerPc
  media : T → CallerPc
  main : MainPc

def State.create {T : Type} : State T where
  tick := .idle
  manager := .lockEvents
  authenticator := .idle
  media := fun _ => .idle
  main := .running

def State.holds {T : Type} (s : State T) : Thread T → Lock → Prop
  | .tick, lock => s.tick.holds lock
  | .manager, lock => s.manager.holds lock
  | .authenticator, lock => s.authenticator.holds lock
  | .media t, lock => (s.media t).holds lock
  | .main, lock => s.main.holds lock

def State.wants {T : Type} (s : State T) : Thread T → Option Lock
  | .tick => s.tick.wants
  | .manager => s.manager.wants
  | .authenticator => s.authenticator.wants
  | .media t => (s.media t).wants
  | .main => s.main.wants

/-- A thread and the place it goes to. -/
inductive Action (T : Type) where
  | tick (pc : TickPc)
  | manager (pc : ManagerPc)
  | authenticator (pc : CallerPc)
  | media (t : T) (pc : CallerPc)
  | main (pc : MainPc)

/-- A thread that asks for a lock goes on when no thread holds it. -/
def State.Free {T : Type} (s : State T) (wanted : Option Lock) : Prop :=
  ∀ lock, wanted = some lock → ∀ thread, ¬ s.holds thread lock

section Step

variable {T : Type} [DecidableEq T]

/-- `Shutdown` and the tick thread wait for each other through `m_bRestarting` and
`m_RestartEvent`. -/
inductive Step : State T → Action T → State T → Prop
  | tick {s : State T} {pc : TickPc} (hnext : pc ∈ s.tick.next) (hfree : s.Free s.tick.wants)
      (hended : pc = .ended → s.main = .waitRestart) : Step s (.tick pc) { s with tick := pc }
  | manager {s : State T} {pc : ManagerPc} (hnext : pc ∈ s.manager.next)
      (hfree : s.Free s.manager.wants) : Step s (.manager pc) { s with manager := pc }
  | authenticator {s : State T} {pc : CallerPc} (hnext : pc ∈ s.authenticator.next)
      (hfree : s.Free s.authenticator.wants) : Step s (.authenticator pc) { s with authenticator := pc }
  | media {s : State T} {t : T} {pc : CallerPc} (hnext : pc ∈ (s.media t).next)
      (hfree : s.Free (s.media t).wants) :
      Step s (.media t pc) { s with media := fun u => if u = t then pc else s.media u }
  | main {s : State T} {pc : MainPc} (hnext : pc ∈ s.main.next) (hfree : s.Free s.main.wants)
      (hrestart : s.main = .waitRestart → s.tick = .ended) : Step s (.main pc) { s with main := pc }

/-- The manager does not begin to deal with an event while `Shutdown` destroys handles, and
`Shutdown` does not begin while the manager deals with an event. -/
def ShutdownGuard (s : State T) : Action T → Prop
  | .manager .channels => s.main.holds .clients = false
  | .main .clients => s.manager.holds .channels = false
  | _ => True

/-- `Shutdown` and the manager are not at work at the same time. -/
def Apart (s : State T) : Prop :=
  ¬ (s.main.holds .clients = true ∧ s.manager.holds .channels = true)

end Step

theorem State.free_none {T : Type} (s : State T) : s.Free none := by
  rintro lock ⟨⟩

theorem State.free_some {T : Type} {s : State T} {lock : Lock} (htick : s.tick.holds lock = false)
    (hmanager : s.manager.holds lock = false) (hauthenticator : s.authenticator.holds lock = false)
    (hmedia : ∀ t, (s.media t).holds lock = false) (hmain : s.main.holds lock = false) :
    s.Free (some lock) := by
  rintro _ ⟨⟩ thread hholds
  cases thread with
  | tick => exact Bool.false_ne_true (htick.symm.trans hholds)
  | manager => exact Bool.false_ne_true (hmanager.symm.trans hholds)
  | authenticator => exact Bool.false_ne_true (hauthenticator.symm.trans hholds)
  | media t => exact Bool.false_ne_true ((hmedia t).symm.trans hholds)
  | main => exact Bool.false_ne_true (hmain.symm.trans hholds)

/-! ### One thread on its own -/

theorem ManagerPc.holds_channels {pc pc' : ManagerPc} (hnext : pc' ∈ pc.next)
    (h : pc'.holds .channels = true) : pc' = .channels ∨ pc.holds .channels = true := by
  cases pc <;> simp [ManagerPc.next] at hnext <;> rcases hnext with rfl | rfl | rfl <;>
    simp_all [ManagerPc.holds]

theorem MainPc.holds_clients {pc pc' : MainPc} (hnext : pc' ∈ pc.next)
    (h : pc'.holds .clients = true) : pc' = .clients ∨ pc.holds .clients = true := by
  cases pc <;> simp [MainPc.next] at hnext <;> rcases hnext with rfl | rfl <;>
    simp_all [MainPc.holds]

theorem TickPc.order {pc : TickPc} {lock held : Lock} (hwants : pc.wants = some lock)
    (hholds : pc.holds held = true) : lock = .events ∧ held ≠ .events := by
  cases pc <;> cases hwants <;> cases held <;> simp_all [TickPc.holds]

theorem ManagerPc.order {pc : ManagerPc} {lock held : Lock} (hwants : pc.wants = some lock)
    (hholds : pc.holds held = true) : lock = .clients ∧ held = .channels := by
  cases pc <;> cases hwants <;> cases held <;> simp_all [ManagerPc.holds]

theorem CallerPc.order {pc : CallerPc} {lock held : Lock} (hwants : pc.wants = some lock) :
    pc.holds held = false := by
  cases pc <;> cases hwants
  cases held <;> rfl

theorem MainPc.order {pc : MainPc} {lock held : Lock} (hwants : pc.wants = some lock)
    (hholds : pc.holds held = true) :
    pc.holds .clients = true
      ∧ ((lock = .channels ∧ held = .clients) ∨ (lock = .events ∧ held ≠ .events)) := by
  cases pc <;> cases hwants <;> cases held <;> simp_all [MainPc.holds]

section Order

variable {T : Type}

theorem apart_create : Apart (State.create : State T) := by
  rintro ⟨hmain, -⟩
  cases hmain

/-- The order of the locks: `Shutdown` takes `m_CSClients` first, everybody else `m_CSChannels`. -/
def rank (s : State T) : Lock → Nat
  | .clients => if s.main.holds .clients then 0 else 1
  | .channels => if s.main.holds .clients then 1 else 0
  | .events => 2

theorem rank_lt_events (s : State T) {lock : Lock} (h : lock ≠ .events) :
    rank s lock < rank s .events := by
  cases lock with
  | clients =>
      simp only [rank]
      split <;> simp
  | channels =>
      simp only [rank]
      split <;> simp
  | events => exact absurd rfl h

theorem Apart.not_deadlock {s : State T} (h : Apart s) : ¬ Deadlock s.holds s.wants := by
  refine not_deadlock_of_rank (rank s) ?_
  intro thread lock held hwants hholds
  cases thread with
  | tick =>
      obtain ⟨rfl, hne⟩ := TickPc.order hwants hholds
      exact rank_lt_events s hne
  | manager =>
      obtain ⟨rfl, rfl⟩ := ManagerPc.order hwants hholds
      have hmain : ¬ s.main.holds .clients = true := fun hmain => h ⟨hmain, hholds⟩
      simp [rank, hmain]
  | authenticator =>
      have hnone : s.authenticator.holds held = true := hholds
      rw [CallerPc.order hwants] at hnone
      cases hnone
  | media t =>
      have hnone : (s.media t).holds held = true := hholds
      rw [CallerPc.order hwants] at hnone
      cases hnone
  | main =>
      obtain ⟨hmain, ⟨rfl, rfl⟩ | ⟨rfl, hne⟩⟩ := MainPc.order hwants hholds
      · simp [rank, hmain]
      · exact rank_lt_events s hne

variable [DecidableEq T]

theorem Apart.step {s s' : State T} {action : Action T} (h : Apart s)
    (hstep : Guarded ShutdownGuard Step s action s') : Apart s' := by
  obtain ⟨hguard, hstep⟩ := hstep
  cases hstep with
  | tick => exact h
  | authenticator => exact h
  | media => exact h
  | manager hnext =>
      rintro ⟨hmain, hmanager⟩
      rcases ManagerPc.holds_channels hnext hmanager with rfl | hheld
      · rw [show s.main.holds .clients = false from hguard] at hmain
        cases hmain
      · exact h ⟨hmain, hheld⟩
  | main hnext =>
      rintro ⟨hmain, hmanager⟩
      rcases MainPc.holds_clients hnext hmain with rfl | hheld
      · rw [show s.manager.holds .channels = false from hguard] at hmanager
        cases hmanager
      · exact h ⟨hheld, hmanager⟩

end Order

/-- **No deadlock.** In every run in which `Shutdown` does not destroy handles while the manager
deals with an event, no threads wait for each other in a circle. -/
theorem no_deadlock {T : Type} [DecidableEq T] (actions : List (Action T)) (s : State T)
    (hrun : Run (Guarded ShutdownGuard Step) State.create actions s) :
    ¬ Deadlock s.holds s.wants := by
  have hapart : Apart s := hrun.invariant apart_create Apart.step
  exact hapart.not_deadlock

theorem no_deadlock_dealing :
    ¬ Deadlock { (State.create : State Unit) with manager := .lockClients, main := .waitRestart }.holds
      { (State.create : State Unit) with manager := .lockClients, main := .waitRestart }.wants := by
  refine no_deadlock
    [.manager .events, .manager .deal, .manager .lockChannels, .manager .channels,
      .manager .lockClients, .main .waitRestart] _ ?_
  refine .cons ⟨trivial, .manager (by decide) (State.free_some rfl rfl rfl (fun _ => rfl) rfl)⟩ ?_
  refine .cons ⟨trivial, .manager (by decide) (State.free_none _)⟩ ?_
  refine .cons ⟨trivial, .manager (by decide) (State.free_none _)⟩ ?_
  refine .cons ⟨rfl, .manager (by decide) (State.free_some rfl rfl rfl (fun _ => rfl) rfl)⟩ ?_
  refine .cons ⟨trivial, .manager (by decide) (State.free_none _)⟩ ?_
  exact .cons ⟨trivial, .main (by decide) (State.free_none _) nofun⟩ .nil

/-- The manager deals with an event and asks for `m_CSClients`; `Shutdown` holds them and asks for
`m_CSChannels`. -/
theorem shutdown_deadlock :
    ∃ s : State Unit, Run Step State.create
      [.manager .events, .manager .deal, .manager .lockChannels, .manager .channels,
        .manager .lockClients, .main .waitRestart, .tick .ended, .main .lockClients,
        .main .clients, .main .lockChannels] s ∧ Deadlock s.holds s.wants := by
  refine ⟨{ State.create with manager := .lockClients, main := .lockChannels, tick := .ended }, ?_, ?_⟩
  · refine .cons (.manager (by decide) (State.free_some rfl rfl rfl (fun _ => rfl) rfl)) ?_
    refine .cons (.manager (by decide) (State.free_none _)) ?_
    refine .cons (.manager (by decide) (State.free_none _)) ?_
    refine .cons (.manager (by decide) (State.free_some rfl rfl rfl (fun _ => rfl) rfl)) ?_
    refine .cons (.manager (by decide) (State.free_none _)) ?_
    refine .cons (.main (by decide) (State.free_none _) nofun) ?_
    refine .cons (.tick (by decide) (State.free_none _) fun _ => rfl) ?_
    refine .cons (.main (by decide) (State.free_none _) fun _ => rfl) ?_
    refine .cons (.main (by decide) (State.free_some rfl rfl rfl (fun _ => rfl) rfl) nofun) ?_
    exact .cons (.main (by decide) (State.free_none _) nofun) .nil
  · refine ⟨.manager, .tail (.single (b := .main) ?_) ?_⟩
    · exact ⟨nofun, .clients, rfl, rfl⟩
    · exact ⟨nofun, .channels, rfl, rfl⟩

end Licode.Server.Locks
