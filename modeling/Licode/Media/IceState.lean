import Licode.Media.NiceConnection
import Mathlib.Order.Nat

/-!
# What an ICE connection tells its listener

The components of a connection report on their own, and may go back and forth between ready and
failed. `comp_state_list_` has the last report of each, and the state of the connection goes up when
all of them agree. `Observed` is a connection with its listener and with the calls of both sides.
-/

namespace Licode.Media

/-- `notified` is the log of the calls of the listener's `updateIceState`, `reports` that of
`updateComponentState`. -/
structure Observed where
  conn : NiceConnection
  listener : Bool
  notified : List IceState
  reports : List (Nat × IceState)

namespace Observed

def create (iceComponents : Nat) : Observed where
  conn := .create iceComponents
  listener := true
  notified := []
  reports := []

def updateIceState (o : Observed) (state : IceState) : Observed :=
  if state.toNat ≤ o.conn.iceState.toNat then o
  else if state = .finished ∨ o.listener = false then
    { o with conn := { o.conn with iceState := state } }
  else
    { o with conn := { o.conn with iceState := state }, notified := o.notified ++ [state] }

/-- `comp_state_list_[compId] = state`. -/
def record (o : Observed) (compId : Nat) (state : IceState) : Observed :=
  { o with
    conn := { o.conn with compStateList := Function.update o.conn.compStateList compId state }
    reports := o.reports ++ [(compId, state)] }

def updateComponentState (o : Observed) (compId : Nat) (state : IceState) : Observed :=
  let o := o.record compId state
  if state = .ready then
    if o.conn.allComponents .ready then o.updateIceState state else o
  else if state = .failed then
    if ¬ o.conn.receivedLastCandidate then o
    else if o.conn.allComponents .failed then o.updateIceState state
    else o
  else o.updateIceState state

def close (o : Observed) : Observed :=
  if o.conn.iceState = .finished then o else { o with conn := o.conn.close, listener := false }

/-- The callbacks of the agent, `setReceivedLastCandidate` and `close`. -/
inductive Call where
  | cbNewSelectedPair (compId : Nat)
  | cbComponentFailed (compId : Nat)
  | gatheringDone
  | setReceivedLastCandidate (hasReceived : Bool)
  | close
  deriving DecidableEq

def next (o : Observed) : Call → Observed
  | .cbNewSelectedPair compId => o.updateComponentState compId .ready
  | .cbComponentFailed compId => o.updateComponentState compId .failed
  | .gatheringDone => o.updateIceState .candidatesReceived
  | .setReceivedLastCandidate hasReceived =>
      { o with conn := { o.conn with receivedLastCandidate := hasReceived } }
  | .close => o.close

def run (iceComponents : Nat) (calls : List Call) : Observed := calls.foldl next (create iceComponents)

theorem run_snoc (iceComponents : Nat) (calls : List Call) (call : Call) :
    run iceComponents (calls ++ [call]) = (run iceComponents calls).next call := by
  rw [run, List.foldl_append]
  rfl

/-! ### The connection behind it -/

theorem conn_updateIceState (o : Observed) (state : IceState) :
    (o.updateIceState state).conn = o.conn.updateIceState state := by
  unfold updateIceState NiceConnection.updateIceState
  split_ifs <;> rfl

theorem conn_updateComponentState (o : Observed) (compId : Nat) (state : IceState) :
    (o.updateComponentState compId state).conn = o.conn.updateComponentState compId state := by
  rw [NiceConnection.updateComponentState, updateComponentState]
  change _ = if state = .ready then
      if (o.record compId state).conn.allComponents .ready then
        (o.record compId state).conn.updateIceState state
      else (o.record compId state).conn
    else if state = .failed then
      if ¬ (o.record compId state).conn.receivedLastCandidate then (o.record compId state).conn
      else if (o.record compId state).conn.allComponents .failed then
        (o.record compId state).conn.updateIceState state
      else (o.record compId state).conn
    else (o.record compId state).conn.updateIceState state
  split_ifs
  all_goals
    first | rfl | exact conn_updateIceState _ _

/-- A report is written down, and the state of the connection goes up when all components agree. -/
theorem updateComponentState_cases (o : Observed) (compId : Nat) (state : IceState) :
    o.updateComponentState compId state = o.record compId state
      ∨ o.updateComponentState compId state = (o.record compId state).updateIceState state
        ∧ (state = .ready → (o.record compId state).conn.allComponents .ready = true)
        ∧ (state = .failed → (o.record compId state).conn.allComponents .failed = true
          ∧ o.conn.receivedLastCandidate = true) := by
  unfold updateComponentState
  dsimp only
  split_ifs with hready hall hfailed hlast hall
  · exact .inr ⟨rfl, fun _ => hall, by simp [hready]⟩
  · exact .inl rfl
  · exact .inr ⟨rfl, by simp [hfailed], fun _ => ⟨hall, hlast⟩⟩
  · exact .inl rfl
  · exact .inl rfl
  · exact .inr ⟨rfl, fun h => absurd h hready, fun h => absurd h hfailed⟩

/-! ### The state goes up -/

/-- The listener hears of a rising state, and never that it is finished. -/
structure Heard (o : Observed) : Prop where
  rising : o.notified.Pairwise (·.toNat < ·.toNat)
  reached : ∀ state ∈ o.notified, state.toNat ≤ o.conn.iceState.toNat
  finished : .finished ∉ o.notified

theorem Heard.updateIceState {o : Observed} (h : Heard o) (state : IceState) :
    Heard (o.updateIceState state)
      ∧ o.conn.iceState.toNat ≤ (o.updateIceState state).conn.iceState.toNat := by
  unfold Observed.updateIceState
  split_ifs with hle hsilent
  · exact ⟨h, le_rfl⟩
  all_goals
    have hlt : o.conn.iceState.toNat < state.toNat := Nat.lt_of_not_le hle
    have hreached : ∀ heard ∈ o.notified, heard.toNat < state.toNat :=
      fun heard hmem => lt_of_le_of_lt (h.reached heard hmem) hlt
  · exact ⟨⟨h.rising, fun heard hmem => (hreached heard hmem).le, h.finished⟩, hlt.le⟩
  · refine ⟨⟨?_, ?_, ?_⟩, hlt.le⟩
    · refine List.pairwise_append.mpr ⟨h.rising, List.pairwise_singleton _ _, ?_⟩
      intro heard hmem last hlast
      rw [List.mem_singleton.mp hlast]
      exact hreached heard hmem
    · intro heard hmem
      rcases List.mem_append.mp hmem with hmem | hmem
      · exact (hreached heard hmem).le
      · rw [List.mem_singleton.mp hmem]
    · intro hmem
      rcases List.mem_append.mp hmem with hmem | hmem
      · exact h.finished hmem
      · exact hsilent (.inl (List.mem_singleton.mp hmem).symm)

theorem Heard.updateComponentState {o : Observed} (h : Heard o) (compId : Nat) (state : IceState) :
    Heard (o.updateComponentState compId state)
      ∧ o.conn.iceState.toNat ≤ (o.updateComponentState compId state).conn.iceState.toNat := by
  have hrecord : Heard (o.record compId state) := ⟨h.rising, h.reached, h.finished⟩
  rcases o.updateComponentState_cases compId state with heq | ⟨heq, -, -⟩
  · rw [heq]
    exact ⟨hrecord, le_rfl⟩
  · rw [heq]
    exact hrecord.updateIceState state

theorem Heard.close {o : Observed} (h : Heard o) :
    Heard o.close ∧ o.conn.iceState.toNat ≤ o.close.conn.iceState.toNat := by
  unfold Observed.close
  split_ifs with hfinished
  · exact ⟨h, le_rfl⟩
  have hup : o.conn.iceState.toNat ≤ o.conn.close.iceState.toNat := by
    unfold NiceConnection.close NiceConnection.updateIceState
    rw [if_neg hfinished]
    split_ifs with hle
    · exact le_rfl
    · exact (Nat.lt_of_not_le hle).le
  exact ⟨⟨h.rising, fun heard hmem => (h.reached heard hmem).trans hup, h.finished⟩, hup⟩

theorem Heard.next {o : Observed} (h : Heard o) (call : Call) :
    Heard (o.next call) ∧ o.conn.iceState.toNat ≤ (o.next call).conn.iceState.toNat := by
  cases call with
  | cbNewSelectedPair compId => exact h.updateComponentState compId .ready
  | cbComponentFailed compId => exact h.updateComponentState compId .failed
  | gatheringDone => exact h.updateIceState .candidatesReceived
  | setReceivedLastCandidate hasReceived => exact ⟨⟨h.rising, h.reached, h.finished⟩, le_rfl⟩
  | close => exact h.close

theorem heard_run (iceComponents : Nat) (calls : List Call) : Heard (run iceComponents calls) := by
  induction calls using List.reverseRecOn with
  | nil => exact ⟨.nil, by simp [run, create], by simp [run, create]⟩
  | append_singleton calls call ih =>
      rw [run_snoc]
      exact (ih.next call).1

theorem toNat_run_le (iceComponents : Nat) (calls more : List Call) :
    (run iceComponents calls).conn.iceState.toNat
      ≤ (run iceComponents (calls ++ more)).conn.iceState.toNat := by
  induction more using List.reverseRecOn with
  | nil => rw [List.append_nil]
  | append_singleton more call ih =>
      rw [← List.append_assoc, run_snoc]
      exact ih.trans ((heard_run iceComponents (calls ++ more)).next call).2

/-! ### The reports behind a state -/

/-- The last state that a component has reported. -/
def lastReport (o : Observed) (compId : Nat) : Option IceState :=
  ((o.reports.filter (·.1 = compId)).getLast?).map Prod.snd

/-- The map has what was reported last, and the first state where nothing was. -/
def Recorded (o : Observed) : Prop :=
  ∀ compId, o.conn.compStateList compId = (o.lastReport compId).getD .initial

theorem Recorded.updateIceState {o : Observed} (h : Recorded o) (state : IceState) :
    Recorded (o.updateIceState state) := by
  unfold Observed.updateIceState
  split_ifs <;> exact h

theorem Recorded.record {o : Observed} (h : Recorded o) (compId : Nat) (state : IceState) :
    Recorded (o.record compId state) := by
  intro other
  change Function.update o.conn.compStateList compId state other = _
  by_cases heq : compId = other
  · subst heq
    rw [Function.update_self]
    simp [lastReport, Observed.record, List.filter_append]
  · rw [Function.update_of_ne (Ne.symm heq), h other]
    simp [lastReport, Observed.record, List.filter_append, heq]

theorem Recorded.next {o : Observed} (h : Recorded o) (call : Call) : Recorded (o.next call) := by
  have hreport : ∀ compId state, Recorded (o.updateComponentState compId state) := by
    intro compId state
    rcases o.updateComponentState_cases compId state with heq | ⟨heq, -, -⟩
    · exact heq ▸ h.record compId state
    · exact heq ▸ (h.record compId state).updateIceState state
  cases call with
  | cbNewSelectedPair compId => exact hreport compId .ready
  | cbComponentFailed compId => exact hreport compId .failed
  | gatheringDone => exact h.updateIceState .candidatesReceived
  | setReceivedLastCandidate hasReceived => exact h
  | close =>
      change Recorded o.close
      unfold Observed.close NiceConnection.close NiceConnection.updateIceState
      split_ifs <;> exact h

theorem recorded_run (iceComponents : Nat) (calls : List Call) :
    Recorded (run iceComponents calls) := by
  induction calls using List.reverseRecOn with
  | nil => exact fun _ => rfl
  | append_singleton calls call ih =>
      rw [run_snoc]
      exact ih.next call

/-- The last report of every component is `state`. -/
def AllReport (o : Observed) (iceComponents : Nat) (state : IceState) : Prop :=
  ∀ compId, 1 ≤ compId → compId ≤ iceComponents → o.lastReport compId = some state

theorem Recorded.allReport {o : Observed} (h : Recorded o) {state : IceState}
    (hstate : state ≠ .initial) (hall : o.conn.allComponents state = true) :
    o.AllReport o.conn.iceComponents state := by
  intro compId hlow hhigh
  have hentry : o.conn.compStateList compId = state := by
    have hmem := List.all_eq_true.mp hall (compId - 1) (List.mem_range.mpr (by omega))
    rw [Nat.sub_add_cancel hlow] at hmem
    exact of_decide_eq_true hmem
  rw [h compId] at hentry
  cases hreport : o.lastReport compId with
  | none =>
      rw [hreport] at hentry
      exact absurd hentry.symm hstate
  | some last =>
      rw [hreport] at hentry
      rw [← hentry]
      rfl

/-! ### Entering a state -/

/-- Only a report of its own kind makes the connection ready or failed. -/
theorem entered_cases {o : Observed} {call : Call} {state : IceState}
    (hstate : state = .ready ∨ state = .failed) (hbefore : o.conn.iceState ≠ state)
    (hafter : (o.next call).conn.iceState = state) :
    ∃ compId, o.next call = o.updateComponentState compId state := by
  have hreport : ∀ compId reported,
      (o.updateComponentState compId reported).conn.iceState = state → reported = state := by
    intro compId reported hnow
    rcases o.updateComponentState_cases compId reported with heq | ⟨heq, -, -⟩
    · rw [heq] at hnow
      exact absurd hnow hbefore
    · rw [heq] at hnow
      unfold updateIceState at hnow
      split_ifs at hnow
      · exact absurd hnow hbefore
      · exact hnow
      · exact hnow
  cases call with
  | cbNewSelectedPair compId => exact ⟨compId, by rw [← hreport compId .ready hafter]; rfl⟩
  | cbComponentFailed compId => exact ⟨compId, by rw [← hreport compId .failed hafter]; rfl⟩
  | gatheringDone =>
      change (o.updateIceState .candidatesReceived).conn.iceState = state at hafter
      unfold updateIceState at hafter
      split_ifs at hafter
      · exact absurd hafter hbefore
      all_goals
        subst hafter
        rcases hstate with h | h <;> cases h
  | setReceivedLastCandidate hasReceived => exact absurd hafter hbefore
  | close =>
      change o.close.conn.iceState = state at hafter
      unfold Observed.close NiceConnection.close NiceConnection.updateIceState at hafter
      split_ifs at hafter
      · exact absurd hafter hbefore
      · exact absurd hafter hbefore
      · subst hafter
        rcases hstate with h | h <;> cases h

/-- What only `setReceivedLastCandidate` changes, and what nothing does. -/
theorem next_frame (o : Observed) (call : Call) :
    (o.next call).conn.iceComponents = o.conn.iceComponents
      ∧ ((∀ hasReceived, call ≠ .setReceivedLastCandidate hasReceived) →
        (o.next call).conn.receivedLastCandidate = o.conn.receivedLastCandidate) := by
  have hice : ∀ (o : Observed) state,
      (o.updateIceState state).conn.iceComponents = o.conn.iceComponents
        ∧ (o.updateIceState state).conn.receivedLastCandidate = o.conn.receivedLastCandidate := by
    intro o state
    unfold updateIceState
    split_ifs <;> exact ⟨rfl, rfl⟩
  have hreport : ∀ compId state,
      (o.updateComponentState compId state).conn.iceComponents = o.conn.iceComponents
        ∧ (o.updateComponentState compId state).conn.receivedLastCandidate
          = o.conn.receivedLastCandidate := by
    intro compId state
    rcases o.updateComponentState_cases compId state with heq | ⟨heq, -, -⟩
    · rw [heq]
      exact ⟨rfl, rfl⟩
    · rw [heq]
      exact hice _ state
  cases call with
  | cbNewSelectedPair compId => exact ⟨(hreport compId .ready).1, fun _ => (hreport compId .ready).2⟩
  | cbComponentFailed compId =>
      exact ⟨(hreport compId .failed).1, fun _ => (hreport compId .failed).2⟩
  | gatheringDone =>
      exact ⟨(hice o .candidatesReceived).1, fun _ => (hice o .candidatesReceived).2⟩
  | setReceivedLastCandidate hasReceived => exact ⟨rfl, fun h => absurd rfl (h hasReceived)⟩
  | close =>
      change o.close.conn.iceComponents = _ ∧ (_ → o.close.conn.receivedLastCandidate = _)
      unfold Observed.close NiceConnection.close NiceConnection.updateIceState
      split_ifs <;> exact ⟨rfl, fun _ => rfl⟩

theorem iceComponents_run (iceComponents : Nat) (calls : List Call) :
    (run iceComponents calls).conn.iceComponents = iceComponents := by
  induction calls using List.reverseRecOn with
  | nil => rfl
  | append_singleton calls call ih =>
      rw [run_snoc, (next_frame _ call).1, ih]

theorem lastCandidate_of_received (iceComponents : Nat) (calls : List Call)
    (h : (run iceComponents calls).conn.receivedLastCandidate = true) :
    .setReceivedLastCandidate true ∈ calls := by
  induction calls using List.reverseRecOn with
  | nil => cases h
  | append_singleton calls call ih =>
      rw [run_snoc] at h
      by_cases hcall : ∀ hasReceived, call ≠ .setReceivedLastCandidate hasReceived
      · rw [(next_frame _ call).2 hcall] at h
        exact List.mem_append_left _ (ih h)
      · rw [not_forall] at hcall
        obtain ⟨hasReceived, hcall⟩ := hcall
        rw [not_not] at hcall
        subst hcall
        obtain rfl : hasReceived = true := h
        exact List.mem_append_right _ (List.mem_singleton.mpr rfl)

/-- All components agree when a state is entered, and the last candidate is there when that is
`NICE_FAILED`. -/
theorem entered_report {o : Observed} {call : Call} {state : IceState}
    (hstate : state = .ready ∨ state = .failed) (hbefore : o.conn.iceState ≠ state)
    (hafter : (o.next call).conn.iceState = state) :
    (o.next call).conn.allComponents state = true
      ∧ (state = .failed → o.conn.receivedLastCandidate = true
        ∧ (o.next call).conn.receivedLastCandidate = true) := by
  obtain ⟨compId, hnext⟩ := entered_cases hstate hbefore hafter
  rw [hnext] at hafter ⊢
  rcases o.updateComponentState_cases compId state with heq | ⟨heq, hready, hfailed⟩
  · rw [heq] at hafter
    exact absurd hafter hbefore
  have hkeep : ((o.record compId state).updateIceState state).conn.allComponents state
      = (o.record compId state).conn.allComponents state
        ∧ ((o.record compId state).updateIceState state).conn.receivedLastCandidate
          = o.conn.receivedLastCandidate := by
    unfold updateIceState
    split_ifs <;> exact ⟨rfl, rfl⟩
  rw [heq, hkeep.1, hkeep.2]
  rcases hstate with rfl | rfl
  · exact ⟨hready rfl, fun h => by cases h⟩
  · exact ⟨(hfailed rfl).1, fun _ => ⟨(hfailed rfl).2, (hfailed rfl).2⟩⟩

/-- **The ICE state.** Whatever the order of the calls, the state only goes up, the listener hears of
each state once at most and never of `NICE_FINISHED`, and the connection becomes ready, or failed,
when that is the last that every component has reported, and failed only after the last remote
candidate. -/
theorem iceState_of_calls (iceComponents : Nat) (calls : List Call) :
    (∀ more, (run iceComponents calls).conn.iceState.toNat
        ≤ (run iceComponents (calls ++ more)).conn.iceState.toNat)
      ∧ (run iceComponents calls).notified.Nodup
      ∧ .finished ∉ (run iceComponents calls).notified
      ∧ (∀ call, (run iceComponents calls).conn.iceState ≠ .ready →
        (run iceComponents (calls ++ [call])).conn.iceState = .ready →
        (run iceComponents (calls ++ [call])).AllReport iceComponents .ready)
      ∧ ∀ call, (run iceComponents calls).conn.iceState ≠ .failed →
        (run iceComponents (calls ++ [call])).conn.iceState = .failed →
        (run iceComponents (calls ++ [call])).AllReport iceComponents .failed
          ∧ (run iceComponents (calls ++ [call])).conn.receivedLastCandidate = true
          ∧ .setReceivedLastCandidate true ∈ calls := by
  have hheard := heard_run iceComponents calls
  refine ⟨toNat_run_le iceComponents calls, ?_, hheard.finished, ?_, ?_⟩
  · exact hheard.rising.imp fun hlt heq => Nat.ne_of_lt hlt (congrArg IceState.toNat heq)
  all_goals
    intro call hbefore hafter
    have hrecorded := recorded_run iceComponents (calls ++ [call])
    have hcomponents := iceComponents_run iceComponents (calls ++ [call])
    rw [run_snoc] at hafter hrecorded hcomponents ⊢
  · have hall := hrecorded.allReport (by simp) (entered_report (.inl rfl) hbefore hafter).1
    rwa [hcomponents] at hall
  · obtain ⟨hentered, hlast⟩ := entered_report (.inr rfl) hbefore hafter
    have hall := hrecorded.allReport (by simp) hentered
    rw [hcomponents] at hall
    refine ⟨hall, (hlast rfl).2, ?_⟩
    exact lastCandidate_of_received iceComponents calls (hlast rfl).1

/-- Two components that fail, recover and fail again. -/
example : (run 2 [.setReceivedLastCandidate true, .cbComponentFailed 1, .cbNewSelectedPair 1,
    .cbNewSelectedPair 2, .cbComponentFailed 1, .cbComponentFailed 2, .close]).notified
    = [.ready, .failed] := by decide

end Observed

end Licode.Media
