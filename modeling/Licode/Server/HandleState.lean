import Licode.Lib.Run
import Licode.Server.LoginHandlers

/-!
# Three threads and the state of a client handle

`m_State` of a `cClientHandle` is written by the network thread (`Destroy`), by the tick thread
(`HandleLogin` and `ServerTick`) and by the authenticator thread (`Authenticate`). Here every read
and every write of it is a step of its own. `TickClients` and `AuthenticateUser` hold `m_CSClients`
for the whole of their calls, so neither starts inside the other; `Destroy` holds a lock that nobody
else takes.

A destroyed handle comes back to life when one of the two checks (`csAuthenticated` in the tick
thread, `csAuthenticating` in the authenticator) is made before `Destroy` ends and its write comes
after, or when `HandleLogin`, which checks nothing, runs on a destroyed handle. Nothing else can
happen to it.
-/

namespace Licode.Server

def EState.toNat : EState → Nat
  | .csConnected => 0
  | .csAuthenticating => 1
  | .csAuthenticated => 2
  | .csWorking => 3
  | .csDestroying => 4
  | .csDestroyed => 5

/-- Where the network thread is in `Destroy`. -/
inductive NetworkPoint where
  | outside
  | beforeRead
  | beforeDestroying
  | beforeDestroyed
  deriving DecidableEq

/-- Where the tick thread is in `TickClients` and `ServerTick`. -/
inductive TickPoint where
  | outside
  | processingData
  | beforeWorking
  | beforePing
  deriving DecidableEq

/-- Where the authenticator thread is in `Authenticate`. -/
inductive AuthPoint where
  | outside
  | beforeAuthenticated
  deriving DecidableEq

structure Handle where
  state : EState
  network : NetworkPoint
  tick : TickPoint
  auth : AuthPoint
  /-- `TickClients` has taken the handle out of `m_Clients`. -/
  removed : Bool
  deriving DecidableEq

namespace Handle

def create : Handle := ⟨.csConnected, .outside, .outside, .outside, false⟩

inductive Action where
  | onReceivedData
  | enterDestroy
  | destroyRead
  | destroyWriteDestroying
  | destroyWriteDestroyed
  | tickReadDestroyed
  | handleLoginWrite
  | tickReadAuthenticated
  | tickWriteWorking
  | tickReadWorking
  | authenticateRead
  | authenticateWrite
  deriving DecidableEq

/-- The next state, where the thread of the action is at the right point. -/
def next (h : Handle) : Action → Option Handle
  | .onReceivedData => if h.network = .outside then some h else none
  | .enterDestroy =>
      if h.network = .outside then some { h with network := .beforeRead } else none
  | .destroyRead =>
      if h.network = .beforeRead then
        some { h with network :=
          if h.state.toNat ≥ EState.csDestroying.toNat then .outside else .beforeDestroying }
      else none
  | .destroyWriteDestroying =>
      if h.network = .beforeDestroying then
        some { h with state := .csDestroying, network := .beforeDestroyed }
      else none
  | .destroyWriteDestroyed =>
      if h.network = .beforeDestroyed then
        some { h with state := .csDestroyed, network := .outside }
      else none
  | .tickReadDestroyed =>
      if h.tick = .outside ∧ h.auth = .outside ∧ h.removed = false then
        some (if h.state = .csDestroyed then { h with removed := true }
          else { h with tick := .processingData })
      else none
  | .handleLoginWrite =>
      if h.tick = .processingData then some { h with state := .csAuthenticating } else none
  | .tickReadAuthenticated =>
      if h.tick = .processingData then
        some { h with tick :=
          if h.state = .csAuthenticated then .beforeWorking else .beforePing }
      else none
  | .tickWriteWorking =>
      if h.tick = .beforeWorking then some { h with state := .csWorking, tick := .beforePing }
      else none
  | .tickReadWorking => if h.tick = .beforePing then some { h with tick := .outside } else none
  | .authenticateRead =>
      if h.tick = .outside ∧ h.auth = .outside ∧ h.removed = false then
        some { h with auth :=
          if h.state = .csAuthenticating then .beforeAuthenticated else .outside }
      else none
  | .authenticateWrite =>
      if h.auth = .beforeAuthenticated then
        some { h with state := .csAuthenticated, auth := .outside }
      else none

def Step (h : Handle) (action : Action) (h' : Handle) : Prop := h.next action = some h'

/-- The steps in the order of one undisturbed call of `Authenticate` do what the call does. -/
theorem authenticate_undisturbed {env : Env} {p p' : ProtocolImpl} {name password : AString}
    (hready : p.Ready) (hcall : p.authenticate env name password = .ok p') {h : Handle}
    (hstate : h.state = p.client.state) (htick : h.tick = .outside) (hauth : h.auth = .outside)
    (hremoved : h.removed = false) :
    ∃ h', (Step h .authenticateRead h' ∨ ∃ h₁, Step h .authenticateRead h₁
        ∧ Step h₁ .authenticateWrite h') ∧ h'.auth = .outside ∧ h'.state = p'.client.state := by
  by_cases hlogin : p.client.state = .csAuthenticating
  · obtain ⟨p₁, hrun, -⟩ := ProtocolImpl.authenticate_of_authenticating env hready hlogin name password
    rw [hrun, Except.ok.injEq] at hcall
    subst hcall
    refine ⟨{ h with state := .csAuthenticated }, .inr ⟨{ h with auth := .beforeAuthenticated },
      ?_, ?_⟩, hauth, rfl⟩
    · simp [Step, next, htick, hauth, hremoved, hstate, hlogin]
    · simp [Step, next, hauth]
  · rw [ProtocolImpl.authenticate, if_pos hlogin] at hcall
    cases hcall
    refine ⟨{ h with auth := .outside }, .inl ?_, rfl, hstate⟩
    simp [Step, next, htick, hauth, hremoved, hstate, hlogin]

/-- `Destroy` does not end between the check and the write of another thread, and a destroyed
handle is given no login. -/
def Undisturbed (h : Handle) : Action → Prop
  | .destroyWriteDestroyed => h.tick ≠ .beforeWorking ∧ h.auth ≠ .beforeAuthenticated
  | .handleLoginWrite => h.state ≠ .csDestroyed
  | _ => True

/-- Nobody is about to write to a destroyed handle, and only destroyed handles are removed. -/
structure Inv (h : Handle) : Prop where
  network : h.network = .beforeDestroying → h.state ≠ .csDestroyed
  tick : h.tick = .beforeWorking → h.state ≠ .csDestroyed
  auth : h.auth = .beforeAuthenticated → h.state ≠ .csDestroyed
  removed : h.removed = true → h.state = .csDestroyed ∧ h.tick = .outside

theorem inv_create : Inv create := by
  constructor <;> simp [create]

theorem Inv.step {h h' : Handle} {action : Action} (hinv : Inv h)
    (hstep : Guarded Undisturbed Step h action h') : Inv h' := by
  obtain ⟨hguard, hstep⟩ := hstep
  obtain ⟨hnetwork, htick, hauth, hremoved⟩ := hinv
  cases action <;>
    simp only [Step, next, Option.ite_none_right_eq_some, Option.some.injEq] at hstep <;>
    obtain ⟨hpoint, rfl⟩ := hstep
  case onReceivedData => exact ⟨hnetwork, htick, hauth, hremoved⟩
  case enterDestroy => exact ⟨by simp, htick, hauth, hremoved⟩
  case destroyRead =>
    refine ⟨?_, htick, hauth, hremoved⟩
    rintro hbefore (hdestroyed : h.state = .csDestroyed)
    simp [hdestroyed, EState.toNat] at hbefore
  case destroyWriteDestroying => exact ⟨by simp, by simp, by simp, by simp_all⟩
  case destroyWriteDestroyed =>
    -- the condition on the other threads is what makes their points harmless
    exact ⟨by simp, fun hwrite => absurd hwrite hguard.1, fun hwrite => absurd hwrite hguard.2,
      fun hgone => ⟨rfl, (hremoved hgone).2⟩⟩
  case tickReadDestroyed =>
    split
    · next hdestroyed => exact ⟨hnetwork, htick, hauth, fun _ => ⟨hdestroyed, hpoint.1⟩⟩
    · exact ⟨hnetwork, by simp, hauth, by simp [hpoint]⟩
  case handleLoginWrite => exact ⟨by simp, by simp, by simp, by simp_all⟩
  case tickReadAuthenticated =>
    refine ⟨hnetwork, ?_, hauth, by simp_all⟩
    rintro hbefore (hdestroyed : h.state = .csDestroyed)
    simp [hdestroyed] at hbefore
  case tickWriteWorking => exact ⟨by simp, by simp, by simp, by simp_all⟩
  case tickReadWorking => exact ⟨hnetwork, by simp, hauth, by simp_all⟩
  case authenticateRead =>
    refine ⟨hnetwork, htick, ?_, hremoved⟩
    rintro hbefore (hdestroyed : h.state = .csDestroyed)
    simp [hdestroyed] at hbefore
  case authenticateWrite => exact ⟨by simp, by simp, by simp, by simp_all⟩

/-- In a destroyed handle no step writes anything else, and a pass of `TickClients` removes it. -/
theorem Inv.destroyed {h h' : Handle} {action : Action} (hinv : Inv h)
    (hstep : Guarded Undisturbed Step h action h') (hdestroyed : h.state = .csDestroyed) :
    h'.state = .csDestroyed ∧ (h.removed = true → h'.removed = true)
      ∧ (action = .tickReadDestroyed → h'.removed = true) := by
  obtain ⟨hguard, hstep⟩ := hstep
  cases action <;>
    simp only [Step, next, Option.ite_none_right_eq_some, Option.some.injEq] at hstep <;>
    obtain ⟨hpoint, rfl⟩ := hstep
  case destroyWriteDestroying => exact absurd hdestroyed (hinv.network hpoint)
  case handleLoginWrite => exact absurd hdestroyed hguard
  case tickWriteWorking => exact absurd hdestroyed (hinv.tick hpoint)
  case authenticateWrite => exact absurd hdestroyed (hinv.auth hpoint)
  all_goals simp [hdestroyed]

/-- **Destroyed for good.** In every undisturbed run a destroyed handle stays destroyed, the next
pass of `TickClients` removes it, and what has been removed satisfies the assertion of the
destructor. -/
theorem destroyed_for_good (actions : List Action) (h : Handle)
    (hrun : Run (Guarded Undisturbed Step) create actions h) :
    (h.removed = true → h.state = .csDestroyed)
      ∧ ∀ later h', Run (Guarded Undisturbed Step) h later h' → h.state = .csDestroyed →
        h'.state = .csDestroyed ∧ (.tickReadDestroyed ∈ later → h'.removed = true) := by
  have hinv : Inv h := hrun.invariant inv_create Inv.step
  refine ⟨fun hgone => (hinv.removed hgone).1, ?_⟩
  intro later h' hlater hdestroyed
  suffices hgoal : Inv h' ∧ h'.state = .csDestroyed
      ∧ (.tickReadDestroyed ∈ later → h'.removed = true) from hgoal.2
  induction hlater with
  | nil => exact ⟨hinv, hdestroyed, by simp⟩
  | snoc _ hstep ih =>
      obtain ⟨hinv₁, hdestroyed₁, hremoved₁⟩ := ih
      obtain ⟨hdestroyed₂, hkept, hpass⟩ := hinv₁.destroyed hstep hdestroyed₁
      refine ⟨hinv₁.step hstep, hdestroyed₂, ?_⟩
      intro hmem
      rcases List.mem_append.mp hmem with hmem | hmem
      · exact hkept (hremoved₁ hmem)
      · exact hpass (List.mem_singleton.mp hmem).symm

/-- The state behind a list of actions, where each of them is possible in its turn. -/
def runActions (h : Handle) (actions : List Action) : Option Handle := actions.foldlM next h

theorem run_of_runActions {h h' : Handle} {actions : List Action}
    (hrun : h.runActions actions = some h') : Run Step h actions h' :=
  Run.of_foldlM hrun

/-- A whole call of `Destroy`. -/
def destroyActions : List Action :=
  [.enterDestroy, .destroyRead, .destroyWriteDestroying, .destroyWriteDestroyed]

/-- The tick thread has begun to process data when the client disconnects; the data it is
processing contains a login. -/
theorem destroyed_revived :
    ¬ ∀ actions h later h', Run Step create actions h → Run Step h later h' →
      h.state = .csDestroyed → h'.state = .csDestroyed := by
  intro hclaim
  have hfirst : create.runActions (.tickReadDestroyed :: destroyActions)
      = some ⟨.csDestroyed, .outside, .processingData, .outside, false⟩ := by decide
  have hlast : runActions ⟨.csDestroyed, .outside, .processingData, .outside, false⟩
      [.handleLoginWrite] = some ⟨.csAuthenticating, .outside, .processingData, .outside, false⟩ := by
    decide
  have hstays := hclaim _ _ _ _ (run_of_runActions hfirst) (run_of_runActions hlast) rfl
  cases hstays

/-- `Destroy` between the two accesses of the authenticator. -/
example : (create.runActions ([.tickReadDestroyed, .handleLoginWrite, .tickReadAuthenticated,
    .tickReadWorking, .authenticateRead] ++ destroyActions ++ [.authenticateWrite])).map state
    = some .csAuthenticated := by decide

/-- A handle destroyed while no other thread looks at it. -/
theorem destroyed_for_good_undisturbed :
    ∃ h, Run (Guarded Undisturbed Step) create
        [.enterDestroy, .destroyRead, .destroyWriteDestroying, .destroyWriteDestroyed] h
      ∧ (h.removed = true → h.state = .csDestroyed)
      ∧ ∀ later h', Run (Guarded Undisturbed Step) h later h' → h.state = .csDestroyed →
        h'.state = .csDestroyed ∧ (.tickReadDestroyed ∈ later → h'.removed = true) := by
  have henter : Run (Guarded Undisturbed Step) create [.enterDestroy]
      ⟨.csConnected, .beforeRead, .outside, .outside, false⟩ :=
    Run.nil.snoc ⟨trivial, rfl⟩
  have hread : Run (Guarded Undisturbed Step) create [.enterDestroy, .destroyRead]
      ⟨.csConnected, .beforeDestroying, .outside, .outside, false⟩ :=
    henter.snoc ⟨trivial, rfl⟩
  have hdestroying : Run (Guarded Undisturbed Step) create
      [.enterDestroy, .destroyRead, .destroyWriteDestroying]
      ⟨.csDestroying, .beforeDestroyed, .outside, .outside, false⟩ :=
    hread.snoc ⟨trivial, rfl⟩
  have hrun : Run (Guarded Undisturbed Step) create
      [.enterDestroy, .destroyRead, .destroyWriteDestroying, .destroyWriteDestroyed]
      ⟨.csDestroyed, .outside, .outside, .outside, false⟩ :=
    hdestroying.snoc ⟨⟨by decide, by decide⟩, rfl⟩
  exact ⟨_, hrun, destroyed_for_good _ _ hrun⟩

end Handle

end Licode.Server
