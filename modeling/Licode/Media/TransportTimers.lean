import Licode.Media.Resender
import Licode.Media.TransportState

/-!
# The timers of a transport and its resenders

The state machine of a transport knows of a timer whether it is armed, and lets any timer that is armed run
out. A resender has its service besides, and can do less: what it does, the timer can do as well.
-/

namespace Licode.Media.LiveTransport

/-- A handler may still be called because the time is over, or a wait be begun that leads to one. -/
structure Live (r : DtlsTransport.Resender) : Prop where
  stopped : r.stopped = false
  awaits : (∃ wait ∈ r.waits, wait ≠ .aborted) ∨ (r.joining = true ∧ r.thread ≠ .running)

/-- The timer counts with the resender, and is armed as long as that is live. -/
structure Covers (r : DtlsTransport.Resender) (timer : Resender) : Prop where
  maxResends : timer.maxResends = r.maxResends
  armed : Live r → timer.armed = true

/-- What the transport sees of a step of its resender. -/
def seen (ctx : Component) : DtlsTransport.Resender.Event → List Event
  | .scheduleResend _ => [.onDtlsPacket ctx]
  | .cancel => [.cancel ctx true]
  | .dispatch .expired => [.resend ctx]
  | .joined | .expire | .dispatch _ | .returned => []

section Step

variable {srtpCreate : AString → Bool} {l : LiveTransport} {ctx : Component}
variable {dispatches : Bool → Bool} {maxResends : UInt32} {r r' : DtlsTransport.Resender}

theorem Covers.of_live {timer : Resender} (h : Covers r timer) (hmaxResends : r'.maxResends = r.maxResends)
    (hlive : Live r' → Live r) : Covers r' timer :=
  ⟨h.maxResends.trans hmaxResends.symm, fun hr' => h.armed (hlive hr')⟩

/-- The end of a wait gives no new life. -/
theorem live_of_endWaits {ec : DtlsTransport.Wait} (h : Live (r.endWaits ec)) : Live r where
  stopped := h.stopped
  awaits := by
    rcases h.awaits with hwait | hjoining
    · obtain ⟨wait, hmem, hne⟩ := hwait
      obtain ⟨before, hbefore, rfl⟩ := List.mem_map.mp hmem
      refine .inl ⟨before, hbefore, ?_⟩
      rintro rfl
      exact hne (if_neg DtlsTransport.Wait.noConfusion)
    · exact .inr hjoining

theorem step_of_enabled {event : Event} (henabled : Enabled l event) :
    Step srtpCreate l event (l.next srtpCreate event) :=
  if_pos henabled

theorem resender_resend (l : LiveTransport) (ctx : Component) : (l.resend ctx).resender ctx
    = ⟨(l.resender ctx).maxResends - 1, decide (0 < (l.resender ctx).maxResends)⟩ := by
  rw [resend]
  split
  · next hleft =>
      rw [decide_eq_true hleft]
      exact Function.update_self _ _ _
  · next hleft =>
      rw [decide_eq_false hleft]
      exact Function.update_self _ _ _

theorem dtlsRtcp_resend (l : LiveTransport) (ctx : Component) :
    (l.resend ctx).transport.dtlsRtcp = l.transport.dtlsRtcp := by
  rw [resend]
  split
  · rfl
  · exact dtlsRtcp_updateTransportState _ _

/-- A wait that is over: the timer is armed, and runs out like the resender. -/
theorem Covers.expired (h : Covers r (l.resender ctx)) (hphase : r.Phase dispatches maxResends)
    (hthread : r.thread = .running) (hmem : .expired ∈ r.waits) :
    Enabled l (.resend ctx)
      ∧ Covers (DtlsTransport.Resender.resend { r with waits := r.waits.erase .expired } .expired)
        ((l.resend ctx).resender ctx) := by
  obtain ⟨hstopped, herase⟩ := hphase.alone hthread hmem
  have hlive : Live r := ⟨hstopped, .inl ⟨.expired, hmem, DtlsTransport.Wait.noConfusion⟩⟩
  refine ⟨h.armed hlive, ?_⟩
  rw [DtlsTransport.Resender.resend, if_neg DtlsTransport.Wait.noConfusion, resender_resend, h.maxResends, herase]
  by_cases hleft : 0 < r.maxResends
  · rw [if_pos hleft]
    exact ⟨rfl, fun _ => decide_eq_true hleft⟩
  · rw [if_neg hleft]
    refine ⟨rfl, ?_⟩
    intro hdead
    rcases hdead.awaits with hwait | hjoining
    · obtain ⟨wait, hmem, -⟩ := hwait
      cases hmem
    · exact absurd hthread hjoining.2

theorem Covers.step (h : Covers r (l.resender ctx)) (hphase : r.Phase dispatches maxResends)
    (hctx : ctx = .rtp ∨ l.transport.dtlsRtcp.isSome = true) {event : DtlsTransport.Resender.Event}
    (hstep : r.Step dispatches event r') :
    ∃ l', Run (Step srtpCreate) l (seen ctx event) l' ∧ Covers r' (l'.resender ctx)
      ∧ l'.transport.dtlsRtcp = l.transport.dtlsRtcp := by
  cases event with
  | scheduleResend data =>
      obtain ⟨-, hstep⟩ := Option.ite_none_left_eq_some.mp hstep
      cases hstep
      have harmed : (l.scheduleResend ctx).resender ctx = { l.resender ctx with armed := true } :=
        Function.update_self _ _ _
      refine ⟨l.scheduleResend ctx, Run.nil.snoc (step_of_enabled hctx), ?_, rfl⟩
      rw [harmed]
      exact ⟨h.maxResends, fun _ => rfl⟩
  | joined =>
      obtain ⟨hguard, hstep⟩ := Option.ite_none_right_eq_some.mp hstep
      cases hstep
      exact ⟨l, .nil, h.of_live rfl fun hlive => ⟨hlive.stopped, .inr hguard⟩, rfl⟩
  | cancel =>
      cases hstep
      have hcancel : (l.cancel ctx true).resender ctx = l.resender ctx := by
        apply (Function.update_self _ _ _).trans
        rw [Bool.and_true]
      refine ⟨l.cancel ctx true, Run.nil.snoc (step_of_enabled hctx), ?_, rfl⟩
      rw [hcancel]
      exact h.of_live rfl live_of_endWaits
  | expire =>
      cases hstep
      exact ⟨l, .nil, h.of_live rfl live_of_endWaits, rfl⟩
  | dispatch wait =>
      obtain ⟨hguard, hstep⟩ := Option.ite_none_right_eq_some.mp hstep
      cases hstep
      obtain ⟨hthread, hmem, hover⟩ := hguard
      cases wait with
      | waiting => exact absurd rfl hover
      | expired =>
          obtain ⟨henabled, hcovers⟩ := h.expired hphase hthread hmem
          exact ⟨l.resend ctx, Run.nil.snoc (step_of_enabled henabled), hcovers, dtlsRtcp_resend l ctx⟩
      | aborted =>
          refine ⟨l, .nil, h.of_live rfl ?_, rfl⟩
          intro hlive
          refine ⟨hlive.stopped, hlive.awaits.imp_left ?_⟩
          rintro ⟨wait, hin, hne⟩
          exact ⟨wait, List.mem_of_mem_erase hin, hne⟩
  | returned =>
      obtain ⟨-, hstep⟩ := Option.ite_none_right_eq_some.mp hstep
      cases hstep
      exact ⟨l, .nil, h.of_live rfl fun hlive => absurd hlive.stopped.symm Bool.false_ne_true, rfl⟩

/-- Whatever a resender does, the transport sees it in a run of its own timer. -/
theorem covers_run (hdispatches : dispatches true = false) {events : List DtlsTransport.Resender.Event}
    (hrun : Run (DtlsTransport.Resender.Step dispatches) (DtlsTransport.Resender.create maxResends) events r)
    (hstart : l.resender ctx = ⟨maxResends, false⟩) (hctx : ctx = .rtp ∨ l.transport.dtlsRtcp.isSome = true) :
    ∃ l', Run (Step srtpCreate) l (events.flatMap (seen ctx)) l' ∧ Covers r (l'.resender ctx) := by
  have hall : ∃ l', Run (Step srtpCreate) l (events.flatMap (seen ctx)) l' ∧ Covers r (l'.resender ctx)
      ∧ l'.transport.dtlsRtcp = l.transport.dtlsRtcp := by
    induction hrun with
    | nil =>
        refine ⟨l, .nil, ⟨?_, ?_⟩, rfl⟩
        · rw [hstart]
          rfl
        · intro hlive
          rcases hlive.awaits with hwait | hjoining
          · obtain ⟨wait, hmem, -⟩ := hwait
            cases hmem
          · exact absurd hjoining.1 Bool.false_ne_true
    | snoc hbefore hlast ih =>
        obtain ⟨l₁, hrun₁, hcovers, hdtls⟩ := ih
        have hphase := DtlsTransport.Resender.phase_of_run hdispatches hbefore
        obtain ⟨l₂, hrun₂, hcovers₂, hdtls₂⟩ := hcovers.step hphase (hdtls ▸ hctx) hlast
        refine ⟨l₂, ?_, hcovers₂, hdtls₂.trans hdtls⟩
        rw [List.flatMap_append, List.flatMap_singleton]
        exact hrun₁.trans hrun₂
  obtain ⟨l', hrun', hcovers, -⟩ := hall
  exact ⟨l', hrun', hcovers⟩

end Step

end Licode.Media.LiveTransport
