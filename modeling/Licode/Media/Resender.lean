import Licode.Lib.Run
import Mathlib.Data.List.Basic

/-!
# The resender of a flight

`Resender` writes a flight of the handshake and writes it again each time its timer expires. The counter
of the times is tested and decremented in one, so that it goes round below zero. It is never set anew, but
neither is the `io_service` of the timer: once its `run` has returned, it calls no handler any more.

The handshake holds `handshakeMutex_` around `ScheduleResend`, so that one call of it is made at a time.
What `io_service::run` does when the service has been stopped is documented outside the repository; it is
the parameter `dispatches`.
-/

namespace Licode.Media.DtlsTransport

/-- What has become of an `async_wait` whose handler has not been called. -/
inductive Wait where
  | waiting
  | expired
  | aborted
  deriving DecidableEq, Repr

/-- `thread_`. -/
inductive ResendThread where
  | none
  | running
  | finished
  deriving DecidableEq, Repr

/-- What the transport hears of a resender. -/
inductive ResendOut where
  | flight (data : List UInt8)
  | resend (data : List UInt8)
  | handshakeFailed
  deriving DecidableEq, Repr

def ResendOut.isResend : ResendOut → Bool
  | .resend _ => true
  | _ => false

/-- A resender with its service: the waits whose handlers it owes and whether it has stopped. `joining` is
true while a call of `ScheduleResend` waits for the thread. -/
structure Resender where
  maxResends : UInt32
  data : List UInt8
  waits : List Wait
  stopped : Bool
  thread : ResendThread
  joining : Bool
  out : List ResendOut
  deriving DecidableEq, Repr

def kMaxResends : UInt32 := 5

namespace Resender

def create (maxResends : UInt32) : Resender where
  maxResends := maxResends
  data := []
  waits := []
  stopped := false
  thread := .none
  joining := false
  out := []

/-- The timer stops waiting, with the error code that the handler is to get. -/
def endWaits (r : Resender) (ec : Wait) : Resender :=
  { r with waits := r.waits.map fun wait => if wait = .waiting then ec else wait }

def cancel (r : Resender) : Resender := r.endWaits .aborted

def expire (r : Resender) : Resender := r.endWaits .expired

/-- `timer.expires_from_now` cancels a wait that there is. -/
def asyncWait (r : Resender) : Resender :=
  { r.cancel with waits := r.cancel.waits ++ [.waiting] }

/-- `Resender::ScheduleResend` as far as `thread_->join`. -/
def scheduleResend (r : Resender) (data : List UInt8) : Resender :=
  { r.cancel with data := data, out := r.out ++ [.flight data], joining := true }

/-- The rest of it. A new thread calls `run`, which dispatches handlers or returns at once. -/
def startThread (dispatches : Bool → Bool) (r : Resender) : Resender :=
  { r.asyncWait with
    thread := if dispatches r.stopped then .running else .finished
    joining := false }

/-- `Resender::Resend`. The transport is never null: `ScheduleResend` has used it. -/
def resend (r : Resender) (ec : Wait) : Resender :=
  if ec = .aborted then r
  else if 0 < r.maxResends then
    asyncWait { r with maxResends := r.maxResends - 1, out := r.out ++ [.resend r.data] }
  else { r with maxResends := r.maxResends - 1, out := r.out ++ [.handshakeFailed] }

/-- What happens to a resender. The thread of `run` calls a handler in `dispatch`, and it ends in
`returned`, when no handler is owed. -/
inductive Event where
  | scheduleResend (data : List UInt8)
  | joined
  | cancel
  | expire
  | dispatch (wait : Wait)
  | returned
  deriving DecidableEq, Repr

def next (dispatches : Bool → Bool) (r : Resender) : Event → Option Resender
  | .scheduleResend data => if r.joining then none else some (r.scheduleResend data)
  | .joined => if r.joining ∧ r.thread ≠ .running then some (r.startThread dispatches) else none
  | .cancel => some r.cancel
  | .expire => some r.expire
  | .dispatch wait =>
      if r.thread = .running ∧ wait ∈ r.waits ∧ wait ≠ .waiting then
        some (resend { r with waits := r.waits.erase wait } wait)
      else none
  | .returned =>
      if r.thread = .running ∧ r.waits = [] then some { r with stopped := true, thread := .finished }
      else none

def Step (dispatches : Bool → Bool) (r : Resender) (event : Event) (r' : Resender) : Prop :=
  r.next dispatches event = some r'

/-- The number of packets that the timer has written. -/
def resends (r : Resender) : Nat := r.out.countP ResendOut.isResend

/-- No packet of the timer comes behind a failure. -/
def SilentAfterFailure (out : List ResendOut) : Prop :=
  out.Pairwise fun earlier later => earlier = .handshakeFailed → later.isResend = false

/-! ### Steps that leave the counter alone -/

/-- A step that ends waits and writes flights at most. -/
structure Quiet (r r' : Resender) : Prop where
  maxResends : r'.maxResends = r.maxResends
  stopped : r'.stopped = r.stopped
  thread : r'.thread = r.thread
  waits : r'.waits.length = r.waits.length
  out : ∃ flights : List (List UInt8), r'.out = r.out ++ flights.map .flight

theorem quiet_endWaits (r : Resender) (ec : Wait) : Quiet r (r.endWaits ec) where
  maxResends := rfl
  stopped := rfl
  thread := rfl
  waits := List.length_map _
  out := ⟨[], (List.append_nil _).symm⟩

theorem quiet_scheduleResend (r : Resender) (data : List UInt8) : Quiet r (r.scheduleResend data) where
  maxResends := rfl
  stopped := rfl
  thread := rfl
  waits := List.length_map _
  out := ⟨[data], rfl⟩

namespace Quiet

variable {r r' : Resender}

theorem waits_eq_nil (h : Quiet r r') (hwaits : r.waits = []) : r'.waits = [] := by
  apply List.eq_nil_of_length_eq_zero
  calc r'.waits.length = r.waits.length := h.waits
    _ = 0 := by rw [hwaits, List.length_nil]

theorem resends_eq (h : Quiet r r') : r'.resends = r.resends := by
  obtain ⟨flights, hout⟩ := h.out
  have hnone : (flights.map ResendOut.flight).countP ResendOut.isResend = 0 := by
    apply List.countP_eq_zero.mpr
    rintro _ hmem
    obtain ⟨data, -, rfl⟩ := List.mem_map.mp hmem
    exact Bool.false_ne_true
  rw [resends, hout, List.countP_append, hnone, Nat.add_zero, resends]

theorem failed_iff (h : Quiet r r') : .handshakeFailed ∈ r'.out ↔ .handshakeFailed ∈ r.out := by
  obtain ⟨flights, hout⟩ := h.out
  rw [hout, List.mem_append]
  refine or_iff_left ?_
  rintro hmem
  obtain ⟨data, -, hdata⟩ := List.mem_map.mp hmem
  cases hdata

theorem silent (h : Quiet r r') (hsilent : SilentAfterFailure r.out) : SilentAfterFailure r'.out := by
  obtain ⟨flights, hout⟩ := h.out
  rw [hout]
  apply List.pairwise_append.mpr
  refine ⟨hsilent, ?_, ?_⟩
  · apply List.pairwise_of_forall_mem_list
    rintro _ - _ hmem -
    obtain ⟨data, -, rfl⟩ := List.mem_map.mp hmem
    rfl
  · rintro _ - _ hmem -
    obtain ⟨data, -, rfl⟩ := List.mem_map.mp hmem
    rfl

end Quiet

theorem silent_of_not_failed {out : List ResendOut} (h : .handshakeFailed ∉ out) : SilentAfterFailure out := by
  apply List.pairwise_of_forall_mem_list
  rintro earlier hmem later - rfl
  exact absurd hmem h

/-! ### Runs -/

section Run

variable {dispatches : Bool → Bool} {maxResends : UInt32} {r r' : Resender}

/-- How far a resender has come. As long as it counts, a thread that runs is owed at most one handler; when it
has reported the failure, the thread has nothing left to wait for; and a service that has stopped calls no
handler. -/
inductive Phase (dispatches : Bool → Bool) (maxResends : UInt32) (r : Resender) : Prop
  | counting (hstopped : r.stopped = false) (hfailed : .handshakeFailed ∉ r.out)
      (hcount : r.resends + r.maxResends.toNat = maxResends.toNat) (hnone : r.thread = .none → r.waits = [])
      (hrunning : r.thread = .running → r.waits.length ≤ 1)
      (hfinished : r.thread = .finished → dispatches false = false)
  | failed (hstopped : r.stopped = false) (hthread : r.thread = .running) (hwaits : r.waits = [])
      (hbound : r.resends ≤ maxResends.toNat) (hsilent : SilentAfterFailure r.out)
  | stopped (hstopped : r.stopped = true) (hthread : r.thread ≠ .running)
      (hbound : r.resends ≤ maxResends.toNat) (hsilent : SilentAfterFailure r.out)

theorem phase_create (dispatches : Bool → Bool) (maxResends : UInt32) :
    Phase dispatches maxResends (create maxResends) := by
  refine .counting rfl List.not_mem_nil ?_ (fun _ => rfl) (fun _ => Nat.zero_le 1) ?_
  · exact Nat.zero_add _
  · rintro ⟨⟩

theorem Phase.bound (h : Phase dispatches maxResends r) : r.resends ≤ maxResends.toNat := by
  cases h with
  | counting _ _ hcount => exact hcount ▸ Nat.le_add_right _ _
  | failed _ _ _ hbound => exact hbound
  | stopped _ _ hbound => exact hbound

theorem Phase.silent (h : Phase dispatches maxResends r) : SilentAfterFailure r.out := by
  cases h with
  | counting _ hfailed => exact silent_of_not_failed hfailed
  | failed _ _ _ _ hsilent => exact hsilent
  | stopped _ _ _ hsilent => exact hsilent

theorem Phase.quiet (h : Phase dispatches maxResends r) (hquiet : Quiet r r') :
    Phase dispatches maxResends r' := by
  cases h with
  | counting hstopped hfailed hcount hnone hrunning hfinished =>
      rw [← hquiet.stopped] at hstopped
      rw [← hquiet.failed_iff] at hfailed
      rw [← hquiet.resends_eq, ← hquiet.maxResends] at hcount
      rw [← hquiet.thread] at hnone hrunning hfinished
      rw [← hquiet.waits] at hrunning
      exact .counting hstopped hfailed hcount (fun hthread => hquiet.waits_eq_nil (hnone hthread)) hrunning hfinished
  | failed hstopped hthread hwaits hbound hsilent =>
      rw [← hquiet.stopped] at hstopped
      rw [← hquiet.thread] at hthread
      rw [← hquiet.resends_eq] at hbound
      exact .failed hstopped hthread (hquiet.waits_eq_nil hwaits) hbound (hquiet.silent hsilent)
  | stopped hstopped hthread hbound hsilent =>
      rw [← hquiet.stopped] at hstopped
      rw [← hquiet.thread] at hthread
      rw [← hquiet.resends_eq] at hbound
      exact .stopped hstopped hthread hbound (hquiet.silent hsilent)

/-- A new thread is of use before the service has stopped only. -/
theorem Phase.startThread (hdispatches : dispatches true = false) (h : Phase dispatches maxResends r)
    (hthread : r.thread ≠ .running) : Phase dispatches maxResends (r.startThread dispatches) := by
  cases h with
  | counting hstopped hfailed hcount hnone _ hfinished =>
      have hnew : (r.startThread dispatches).thread = if dispatches false then .running else .finished := by
        rw [← hstopped]
        rfl
      cases hcase : dispatches false with
      | false =>
          rw [hcase, if_neg Bool.false_ne_true] at hnew
          refine .counting hstopped hfailed hcount ?_ ?_ fun _ => hcase
          · rw [hnew]
            rintro ⟨⟩
          · rw [hnew]
            rintro ⟨⟩
      | true =>
          rw [hcase, if_pos rfl] at hnew
          have hidle : r.thread = .none := by
            cases hwas : r.thread with
            | none => rfl
            | running => exact absurd hwas hthread
            | finished => exact absurd ((hfinished hwas).symm.trans hcase) Bool.false_ne_true
          have hwaits : (r.startThread dispatches).waits = [.waiting] := by
            simp [Resender.startThread, asyncWait, cancel, endWaits, hnone hidle]
          refine .counting hstopped hfailed hcount ?_ (fun _ => hwaits ▸ Nat.le_refl 1) ?_
          · rw [hnew]
            rintro ⟨⟩
          · rw [hnew]
            rintro ⟨⟩
  | failed _ hrunning => exact absurd hrunning hthread
  | stopped hstopped _ hbound hsilent =>
      refine .stopped hstopped ?_ hbound hsilent
      simp only [Resender.startThread, hstopped, hdispatches]
      rintro ⟨⟩

/-- The handler that is called is the only one, and the service has not stopped. -/
theorem Phase.alone {wait : Wait} (h : Phase dispatches maxResends r) (hthread : r.thread = .running)
    (hmem : wait ∈ r.waits) : r.stopped = false ∧ r.waits.erase wait = [] := by
  cases h with
  | counting hstopped _ _ _ hrunning _ =>
      refine ⟨hstopped, ?_⟩
      have hone : r.waits.length = 1 := Nat.le_antisymm (hrunning hthread) (List.length_pos_of_mem hmem)
      apply List.eq_nil_of_length_eq_zero
      rw [List.length_erase_of_mem hmem, hone]
  | failed _ _ hwaits => exact absurd hmem (hwaits ▸ List.not_mem_nil)
  | stopped _ hnot => exact absurd hthread hnot

theorem Phase.dispatch {wait : Wait} (h : Phase dispatches maxResends r) (hthread : r.thread = .running)
    (hmem : wait ∈ r.waits) :
    Phase dispatches maxResends (Resender.resend { r with waits := r.waits.erase wait } wait) := by
  rw [(h.alone hthread hmem).2]
  cases h with
  | counting hstopped hfailed hcount _ _ _ =>
      have hnot : r.thread = .finished → dispatches false = false := by
        rw [hthread]
        rintro ⟨⟩
      by_cases habort : wait = .aborted
      · rw [Resender.resend, if_pos habort]
        exact .counting hstopped hfailed hcount (fun _ => rfl) (fun _ => Nat.zero_le 1) hnot
      rw [Resender.resend, if_neg habort]
      by_cases hleft : 0 < r.maxResends
      · have hone_le : 1 ≤ r.maxResends.toNat := UInt32.lt_iff_toNat_lt.mp hleft
        have hcounter : (r.maxResends - 1).toNat = r.maxResends.toNat - 1 :=
          UInt32.toNat_sub_of_le _ _ (UInt32.le_iff_toNat_le.mpr hone_le)
        rw [if_pos hleft]
        refine .counting hstopped ?_ ?_ ?_ (fun _ => Nat.le_refl 1) hnot
        · intro hmem
          rcases List.mem_append.mp hmem with hmem | hmem
          · exact hfailed hmem
          · cases List.mem_singleton.mp hmem
        · calc (r.out ++ [ResendOut.resend r.data]).countP ResendOut.isResend + (r.maxResends - 1).toNat
              = r.resends + (1 + (r.maxResends.toNat - 1)) := by
                rw [List.countP_append, hcounter, Nat.add_assoc]
                rfl
            _ = r.resends + r.maxResends.toNat := by
                rw [Nat.add_sub_cancel' hone_le]
            _ = maxResends.toNat := hcount
        · change r.thread = .none → _
          rw [hthread]
          rintro ⟨⟩
      · rw [if_neg hleft]
        refine .failed hstopped hthread rfl ?_ ?_
        · calc (r.out ++ [ResendOut.handshakeFailed]).countP ResendOut.isResend
              = r.resends := by
                rw [List.countP_append]
                rfl
            _ ≤ maxResends.toNat := hcount ▸ Nat.le_add_right _ _
        · apply List.pairwise_append.mpr
          refine ⟨silent_of_not_failed hfailed, List.pairwise_singleton _ _, ?_⟩
          rintro earlier - later hlater -
          rw [List.mem_singleton.mp hlater]
          rfl
  | failed _ _ hwaits => exact absurd hmem (hwaits ▸ List.not_mem_nil)
  | stopped _ hnot => exact absurd hthread hnot

theorem Phase.returned (h : Phase dispatches maxResends r) :
    Phase dispatches maxResends { r with stopped := true, thread := .finished } := by
  refine .stopped rfl ?_ h.bound h.silent
  rintro ⟨⟩

theorem Phase.step (hdispatches : dispatches true = false) (h : Phase dispatches maxResends r) {event : Event}
    (hstep : r.Step dispatches event r') : Phase dispatches maxResends r' := by
  cases event with
  | scheduleResend data =>
      obtain ⟨-, hstep⟩ := Option.ite_none_left_eq_some.mp hstep
      cases hstep
      exact h.quiet (quiet_scheduleResend r data)
  | joined =>
      obtain ⟨⟨-, hthread⟩, hstep⟩ := Option.ite_none_right_eq_some.mp hstep
      cases hstep
      exact h.startThread hdispatches hthread
  | cancel =>
      cases hstep
      exact h.quiet (quiet_endWaits r .aborted)
  | expire =>
      cases hstep
      exact h.quiet (quiet_endWaits r .expired)
  | dispatch wait =>
      obtain ⟨⟨hthread, hmem, -⟩, hstep⟩ := Option.ite_none_right_eq_some.mp hstep
      cases hstep
      exact h.dispatch hthread hmem
  | returned =>
      obtain ⟨-, hstep⟩ := Option.ite_none_right_eq_some.mp hstep
      cases hstep
      exact h.returned

theorem phase_of_run {events : List Event} (hdispatches : dispatches true = false)
    (hrun : Run (Step dispatches) (create maxResends) events r) : Phase dispatches maxResends r :=
  hrun.invariant (phase_create dispatches maxResends) fun h hstep => h.step hdispatches hstep

/-- The timer of a resender writes at most `max_resends_` packets in any run, and none once it has reported
that the handshake failed. -/
theorem resends_bounded {events : List Event} (hdispatches : dispatches true = false)
    (hrun : Run (Step dispatches) (create maxResends) events r) :
    r.resends ≤ maxResends.toNat ∧ SilentAfterFailure r.out := by
  have hphase := phase_of_run hdispatches hrun
  exact ⟨hphase.bound, hphase.silent⟩

end Run

/-- A flight whose timer runs out, and a flight that is scheduled after that. -/
def timeout : List Event :=
  [.scheduleResend [22], .joined] ++ (List.replicate 6 [.expire, .dispatch .expired]).flatten
    ++ [.returned, .scheduleResend [23], .joined, .expire]

theorem resends_bounded_timeout : ∃ r : Resender,
    Run (Step fun stopped => !stopped) (create kMaxResends) timeout r
      ∧ r.out = [.flight [22]] ++ List.replicate 5 (.resend [22]) ++ [.handshakeFailed, .flight [23]]
      ∧ r.resends ≤ kMaxResends.toNat ∧ SilentAfterFailure r.out := by
  have hout : (timeout.foldlM (next fun stopped => !stopped) (create kMaxResends)).map Resender.out
      = some ([.flight [22]] ++ List.replicate 5 (.resend [22]) ++ [.handshakeFailed, .flight [23]]) := by
    decide
  obtain ⟨r, hr, hout⟩ := Option.map_eq_some_iff.mp hout
  have hrun : Run (Step fun stopped => !stopped) (create kMaxResends) timeout r := Run.of_foldlM hr
  exact ⟨r, hrun, hout, resends_bounded rfl hrun⟩

end Resender

end Licode.Media.DtlsTransport
