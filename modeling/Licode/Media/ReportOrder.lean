import Licode.Lib.Merge
import Licode.Media.RtcpReports
import Licode.Media.SubPackets

/-!
# Receiver reports in any order

The reports about a source are merged field by field, with the greater value kept; the highest sequence
number and its cycles go with the number that is made of both. So their order does not matter, and
neither does it which of them come in one packet.
-/

namespace Licode.Media

open Overlay Rtcp

/-! ### What reports are merged in -/

/-- The highest sequence number with its cycles, and the number that is made of both. -/
structure Extended where
  extendedSeqNo : UInt32
  highestSeqNumReceived : UInt16
  seqNumCycles : UInt16

/-- The fields in which the reports of a period are merged. -/
structure Merged where
  ratioLost : UInt8
  totalPacketsLost : UInt32
  extended : Extended
  jitter : UInt32
  rrsReceivedInPeriod : UInt16

def RtcpData.merged (d : RtcpData) : Merged where
  ratioLost := d.ratioLost
  totalPacketsLost := d.totalPacketsLost
  extended := ⟨d.extendedSeqNo, d.highestSeqNumReceived, d.seqNumCycles⟩
  jitter := d.jitter
  rrsReceivedInPeriod := d.rrsReceivedInPeriod

def Extended.rank (e : Extended) : Nat := e.extendedSeqNo.toNat

def Extended.make (cycles highest : Nat) : Extended :=
  ⟨(UInt32.ofNat cycles <<< 16) + .ofNat highest, .ofNat highest, .ofNat cycles⟩

def Merged.take (m : Merged) (fraction : UInt8) (lost : UInt32) (extended : Extended) (jitter : UInt32) : Merged where
  ratioLost := greater UInt8.toNat m.ratioLost fraction
  totalPacketsLost := greater UInt32.toNat m.totalPacketsLost lost
  extended := greater Extended.rank m.extended extended
  jitter := greater UInt32.toNat m.jitter jitter
  rrsReceivedInPeriod := m.rrsReceivedInPeriod + 1

theorem Extended.rank_make {cycles highest : Nat} (hcycles : cycles < 2 ^ 16) (hhighest : highest < 2 ^ 16) :
    (make cycles highest).rank = cycles * 2 ^ 16 + highest := by
  have hsum : cycles * 2 ^ 16 + highest < 2 ^ 32 := by omega
  rw [rank, make, UInt32.toNat_add, UInt32.toNat_shiftLeft, UInt32.toNat_ofNat', UInt32.toNat_ofNat',
    Nat.shiftLeft_eq]
  change (cycles % 2 ^ 32 * 2 ^ 16 % 2 ^ 32 + highest % 2 ^ 32) % 2 ^ 32 = _
  omega

theorem Extended.eq_of_rank {cycles highest cycles' highest' : Nat} (hcycles : cycles < 2 ^ 16)
    (hhighest : highest < 2 ^ 16) (hcycles' : cycles' < 2 ^ 16) (hhighest' : highest' < 2 ^ 16)
    (hrank : (make cycles highest).rank = (make cycles' highest').rank) :
    make cycles highest = make cycles' highest' := by
  rw [rank_make hcycles hhighest, rank_make hcycles' hhighest'] at hrank
  have hsame : cycles = cycles' ∧ highest = highest' := by omega
  rw [hsame.1, hsame.2]

theorem ite_eq_greater_byte (a b : UInt8) : (if a > b then a else b) = greater UInt8.toNat a b :=
  greater_eq_ite (fun _ => UInt8.toNat_inj.mp) a

theorem ite_eq_greater_word (a b : UInt32) : (if a > b then a else b) = greater UInt32.toNat a b :=
  greater_eq_ite (fun _ => UInt32.toNat_inj.mp) a

namespace RtcpData

/-- What is noted of the delay has no part in what is merged. -/
theorem merged_record (now : Timeval) (d : RtcpData) (lastSr delaySinceLastSr delay : UInt32) :
    (if d.lastSr = 0 ∨ d.lastDelay < delay then
        ({ d with lastSr, delaySinceLastSr, lastSrUpdated := now, lastDelay := delay }, delay)
      else (d, delay)).1.merged = d.merged := by
  split
  all_goals rfl

theorem merged_takeReport (now : Timeval) (d : RtcpData) (delay : UInt32) (fraction : UInt8) (lost : UInt32)
    (cycles highest : Nat) (jitter lastSr delaySinceLastSr : UInt32) :
    (takeReport now d delay fraction lost cycles highest jitter lastSr delaySinceLastSr).1.merged
      = d.merged.take fraction lost (.make cycles highest) jitter := by
  have hextended (e : Extended) : greater Extended.rank e (.make cycles highest)
      = if (Extended.make cycles highest).extendedSeqNo > e.extendedSeqNo then .make cycles highest else e := rfl
  rw [Merged.take, ← ite_eq_greater_byte, ← ite_eq_greater_word, ← ite_eq_greater_word, hextended]
  apply (merged_record now _ lastSr delaySinceLastSr _).trans
  by_cases hnew : (Extended.make cycles highest).extendedSeqNo > d.merged.extended.extendedSeqNo
  · rw [if_pos hnew]
    exact congrArg merged (if_pos hnew)
  · rw [if_neg hnew]
    exact congrArg merged (if_neg hnew)

end RtcpData

/-! ### Compound packets of reports -/

/-- A receiver report about a source, with one block. -/
structure IsReport (source : UInt32) (sub : SubPacket) : Prop where
  type : sub.type = receiverPT
  count : sub.count = 1
  source : sub.sourceSSRC = source
  size : 32 ≤ sub.bytes.length

def Merged.takeReport (m : Merged) (sub : SubPacket) : Merged :=
  m.take sub.fractionLost sub.lostPackets (.make sub.seqnumCycles sub.highestSeqnum) sub.jitter

theorem Merged.takeReport_right_comm (m : Merged) (sub sub' : SubPacket) :
    (m.takeReport sub).takeReport sub' = (m.takeReport sub').takeReport sub := by
  have hextended := Extended.eq_of_rank sub.seqnumCycles_lt sub.highestSeqnum_lt sub'.seqnumCycles_lt
    sub'.highestSeqnum_lt
  simp only [takeReport, take, mk.injEq, and_true]
  refine ⟨?_, ?_, ?_, ?_⟩
  · exact greater_right_comm UInt8.toNat_inj.mp _
  · exact greater_right_comm UInt32.toNat_inj.mp _
  · exact greater_right_comm hextended _
  · exact greater_right_comm UInt32.toNat_inj.mp _

namespace RtcpData

/-- What a visit makes of a report. -/
def takeSubPacket (now : Timeval) (s : RtcpData × UInt32) (sub : SubPacket) : RtcpData × UInt32 :=
  takeReport now s.1 s.2 sub.fractionLost sub.lostPackets sub.seqnumCycles sub.highestSeqnum sub.jitter sub.lastSr
    sub.delaySinceLastSr

theorem visit_report (defaultVideoBw : UInt32) (now : Timeval) (s : RtcpData × UInt32) {source : UInt32}
    {sub : SubPacket} (hreport : IsReport source sub) (rest : List UInt8) :
    visit defaultVideoBw now s (sub.bytes ++ rest) = .ok (takeSubPacket now s sub) := by
  have hsize := hreport.size
  rw [visit, sub.getPacketType_append, Checked.ok_bind, if_pos hreport.type, receiverReport,
    sub.getSourceSSRC_append _ (by omega), Checked.ok_bind, sub.getFractionLost_append _ (by omega), Checked.ok_bind,
    sub.getLostPackets_append _ (by omega), Checked.ok_bind, sub.getSeqnumCycles_append _ (by omega), Checked.ok_bind,
    sub.getHighestSeqnum_append _ (by omega), Checked.ok_bind, sub.getJitter_append _ (by omega), Checked.ok_bind,
    sub.getLastSr_append _ (by omega), Checked.ok_bind, sub.getDelaySinceLastSr_append _ hsize, Checked.ok_bind]
  rfl

theorem merged_foldl (now : Timeval) (s : RtcpData × UInt32) (subs : List SubPacket) :
    (subs.foldl (takeSubPacket now) s).1.merged = subs.foldl Merged.takeReport s.1.merged := by
  induction subs generalizing s with
  | nil => rfl
  | cons sub subs ih =>
      rw [List.foldl_cons, List.foldl_cons, ih, takeSubPacket, merged_takeReport]
      rfl

end RtcpData

/-- Reports in one packet are merged one behind the other. -/
theorem RtcpReporter.analyzeFeedback_reports (r : RtcpReporter) (now : Timeval) (delay : UInt32) {source : UInt32}
    {subs : List SubPacket} (hne : subs ≠ []) (hreports : ∀ sub ∈ subs, IsReport source sub) :
    ∃ d, r.analyzeFeedback now delay (compound subs) = .ok (r.setData source d)
      ∧ d.merged = subs.foldl Merged.takeReport (r.data source).merged := by
  have hscan := scan_compound hne
    (fun s sub hmem rest => RtcpData.visit_report r.gathered.defaultVideoBw now s (hreports sub hmem) rest)
    (length_le_compound subs) (r.data source, delay)
  refine ⟨_, ?_, RtcpData.merged_foldl now (r.data source, delay) subs⟩
  cases subs with
  | nil => exact absurd rfl hne
  | cons sub subs =>
      have hfirst := hreports sub List.mem_cons_self
      apply analyzeFeedback_of_scan (.inl hfirst.type) _ hfirst.source ((by decide : 12 ≤ 32).trans hfirst.size) hscan
      rw [hfirst.count]
      decide

/-! ### Reports of the connection and resets -/

/-- A reset keeps the number of lost packets and the highest sequence number. -/
def Merged.reset (m : Merged) : Merged := { m with ratioLost := 0, jitter := 0, rrsReceivedInPeriod := 0 }

namespace RtcpReporter

/-- The condition under which a report is followed by a reset. -/
def Resetting (now : Timeval) (s : RtcpSent) : Prop :=
  s.shouldReset = true ∨ UInt32.ofInt (now.msSince s.lastRrWasScheduled) > s.nextPacketInMs

instance (now : Timeval) (s : RtcpSent) : Decidable (Resetting now s) := inferInstanceAs (Decidable (_ ∨ _))

theorem merged_appendNACK (r : RtcpReporter) (ssrc : UInt32) (d : RtcpData) (packet : List UInt8) :
    (r.appendNACK ssrc d packet).1.merged = d.merged := by
  rw [appendNACK]
  split
  all_goals rfl

theorem merged_appendREMB (r : RtcpReporter) (now : Timeval) (d : RtcpData) (s : RtcpSent) (packet : List UInt8) :
    (r.appendREMB now d s packet).1.merged = d.merged
      ∧ ∃ lastREMBSent, (r.appendREMB now d s packet).2.1 = { s with lastREMBSent } := by
  rw [appendREMB]
  split
  · exact ⟨rfl, s.lastREMBSent, rfl⟩
  · split
    · exact ⟨rfl, now, rfl⟩
    · exact ⟨rfl, s.lastREMBSent, rfl⟩

theorem merged_schedule (r : RtcpReporter) (now : Timeval) (next : UInt32) (d : RtcpData) (s : RtcpSent) :
    (r.schedule now next d s).1.merged = (if Resetting now s then d.merged.reset else d.merged)
      ∧ (r.schedule now next d s).2.prevTotalPacketsLost = s.prevTotalPacketsLost
      ∧ (r.schedule now next d s).2.prevExtendedSeqNo = s.prevExtendedSeqNo := by
  have hreset : (s.shouldReset || decide (UInt32.ofInt (now.msSince s.lastRrWasScheduled) > s.nextPacketInMs)) = true
      ↔ Resetting now s := by
    rw [Bool.or_eq_true, decide_eq_true_iff]
    rfl
  rw [schedule]
  by_cases h : Resetting now s
  · rw [if_pos (hreset.mpr h), if_pos h]
    exact ⟨rfl, rfl, rfl⟩
  · rw [if_neg (mt hreset.mp h), if_neg h]
    exact ⟨rfl, rfl, rfl⟩

/-- A report that has been made. -/
theorem report_ok {r : RtcpReporter} {now : Timeval} {next ssrc : UInt32} {d : RtcpData} {s : RtcpSent}
    {result : RtcpData × RtcpSent × List UInt8} (h : r.report now next ssrc d s = .ok result) :
    result.1.merged = (if Resetting now s then d.merged.reset else d.merged)
      ∧ result.2.1.prevTotalPacketsLost = d.totalPacketsLost
      ∧ result.2.1.prevExtendedSeqNo = d.extendedSeqNo := by
  obtain ⟨fraction, -, h⟩ := exists_of_bind_ok h
  have hresult : r.reportWith now next ssrc d s fraction = result := Except.ok.inj h
  rw [← hresult, reportWith]
  obtain ⟨hremb, lastREMBSent, hsent⟩ := r.merged_appendREMB now
    (r.appendNACK ssrc { d with requestRr := false } (d.receiverReportBytes (r.addresses ssrc).1 (r.addresses ssrc).2
      fraction (d.delayAdjusted now))).1
    { s with prevTotalPacketsLost := d.totalPacketsLost, prevExtendedSeqNo := d.extendedSeqNo }
    (r.appendNACK ssrc { d with requestRr := false } (d.receiverReportBytes (r.addresses ssrc).1 (r.addresses ssrc).2
      fraction (d.delayAdjusted now))).2
  have hscheduled := r.merged_schedule now next
  refine ⟨(hscheduled _ _).1.trans ?_, (hscheduled _ _).2.1.trans ?_, (hscheduled _ _).2.2.trans ?_⟩
  · rw [hremb, hsent, merged_appendNACK]
    rfl
  · rw [hsent]
  · rw [hsent]

/-- A source for which no report is due keeps its data, and so does one without a reset what is merged. -/
theorem checkSource_ok {r : RtcpReporter} {now : Timeval} {next ssrc : UInt32} {d d' : RtcpData} {s s' : RtcpSent}
    {out : List RtcpOut} (h : r.checkSource now next ssrc d s = .ok (d', s', out)) :
    (¬ Due now d s ∧ d'.merged = d.merged ∧ s' = s)
      ∨ (Due now d s ∧ d'.merged = (if Resetting now s then d.merged.reset else d.merged)
        ∧ s'.prevTotalPacketsLost = d.totalPacketsLost ∧ s'.prevExtendedSeqNo = d.extendedSeqNo) := by
  obtain ⟨result, hreport, h⟩ := exists_of_bind_ok h
  have hresult := Except.ok.inj h
  cases hresult
  rw [deliver] at hreport
  split at hreport
  · next hdue =>
      obtain ⟨made, hmade, hreport⟩ := exists_of_bind_ok hreport
      cases hreport
      exact .inr ⟨hdue, report_ok hmade⟩
  · next hdue =>
      cases hreport
      exact .inl ⟨hdue, rfl, rfl⟩

end RtcpReporter

/-! ### Growth -/

def Extended.Numbered (e : Extended) : Prop := e.rank = e.seqNumCycles.toNat * 2 ^ 16 + e.highestSeqNumReceived.toNat

theorem Extended.numbered_make {cycles highest : Nat} (hcycles : cycles < 2 ^ 16) (hhighest : highest < 2 ^ 16) :
    (make cycles highest).Numbered := by
  rw [Numbered, rank_make hcycles hhighest, make, UInt16.toNat_ofNat', UInt16.toNat_ofNat', Nat.mod_eq_of_lt hcycles,
    Nat.mod_eq_of_lt hhighest]

/-- The numbers that are made of a source agree with each other and do not go back. -/
structure Merged.Grows (m m' : Merged) : Prop where
  numbered : m.extended.Numbered → m'.extended.Numbered
  rank_le : m.extended.rank ≤ m'.extended.rank
  lost_le : m.totalPacketsLost.toNat ≤ m'.totalPacketsLost.toNat

namespace Merged

theorem Grows.refl (m : Merged) : m.Grows m := ⟨id, le_rfl, le_rfl⟩

theorem Grows.trans {m m' m'' : Merged} (h : m.Grows m') (h' : m'.Grows m'') : m.Grows m'' :=
  ⟨h'.numbered ∘ h.numbered, h.rank_le.trans h'.rank_le, h.lost_le.trans h'.lost_le⟩

theorem grows_reset (m : Merged) : m.Grows m.reset := ⟨id, le_rfl, le_rfl⟩

theorem grows_take (m : Merged) (fraction : UInt8) (lost : UInt32) {cycles highest : Nat} (jitter : UInt32)
    (hcycles : cycles < 2 ^ 16) (hhighest : highest < 2 ^ 16) :
    m.Grows (m.take fraction lost (.make cycles highest) jitter) where
  numbered hm := by
    change (greater Extended.rank m.extended (.make cycles highest)).Numbered
    rw [greater]
    split
    · exact Extended.numbered_make hcycles hhighest
    · exact hm
  rank_le := by
    change m.extended.rank ≤ (greater Extended.rank m.extended (.make cycles highest)).rank
    exact rank_le_greater _ _
  lost_le := by
    change m.totalPacketsLost.toNat ≤ (greater UInt32.toNat m.totalPacketsLost lost).toNat
    exact rank_le_greater _ _

end Merged

namespace RtcpData

theorem merged_insertNacked (d : RtcpData) (number : UInt32) : (d.insertNacked number).2.merged = d.merged := by
  rw [insertNacked]
  split
  all_goals rfl

theorem merged_nackFollower (pid : UInt32) (blp : UInt16) (d : RtcpData) (i : Nat) :
    (nackFollower pid blp d i).merged = d.merged := by
  rw [nackFollower]
  split
  · exact merged_insertNacked d _
  · rfl

theorem merged_nackFollowers (pid : UInt32) (blp : UInt16) (d : RtcpData) (bits : List Nat) :
    (bits.foldl (nackFollower pid blp) d).merged = d.merged := by
  induction bits generalizing d with
  | nil => rfl
  | cons i bits ih => rw [List.foldl_cons, ih, merged_nackFollower]

/-- NACKs are no part of what is merged. -/
theorem merged_takeNack (d : RtcpData) (pid : Nat) (blp : UInt16) : (d.takeNack pid blp).merged = d.merged := by
  have hlast (d : RtcpData) : (if d.shouldSendNACK then
      { d with nackSeqnum := .ofNat pid, nackBlp := blp, requestRr := true } else d).merged = d.merged := by
    split
    all_goals rfl
  have hfirst (isNew : Bool) (d : RtcpData) :
      (if isNew then { d with shouldSendNACK := true } else d.trimNacked).merged = d.merged := by
    split
    all_goals rfl
  refine (hlast _).trans ?_
  split
  · exact (merged_nackFollowers _ _ _ _).trans ((hfirst _ _).trans (merged_insertNacked _ _))
  · exact (hfirst _ _).trans (merged_insertNacked _ _)

theorem merged_takeBitrate (defaultVideoBw : UInt32) (d : RtcpData) (bitrate : UInt64) :
    (takeBitrate defaultVideoBw d bitrate).merged = d.merged := by
  rw [takeBitrate]
  split
  all_goals rfl

theorem merged_psFeedback {defaultVideoBw : UInt32} {d d' : RtcpData} {chead : List UInt8}
    (h : d.psFeedback defaultVideoBw chead = .ok d') : d'.merged = d.merged := by
  obtain ⟨fmt, -, h⟩ := exists_of_bind_ok h
  split at h
  · cases h
    rfl
  split at h
  · obtain ⟨uniqueId, -, h⟩ := exists_of_bind_ok h
    split at h
    · obtain ⟨mantissa, -, h⟩ := exists_of_bind_ok h
      obtain ⟨exp, -, h⟩ := exists_of_bind_ok h
      have hd' := Except.ok.inj h
      rw [← hd', merged_takeBitrate]
    · cases h
      rfl
  · cases h
    rfl

theorem grows_receiverReport {now : Timeval} {d : RtcpData} {delay : UInt32} {chead : List UInt8}
    {result : RtcpData × UInt32} (h : receiverReport now d delay chead = .ok result) :
    d.merged.Grows result.1.merged := by
  obtain ⟨source, -, h⟩ := exists_of_bind_ok h
  obtain ⟨fraction, -, h⟩ := exists_of_bind_ok h
  obtain ⟨lost, -, h⟩ := exists_of_bind_ok h
  obtain ⟨cycles, hcycles, h⟩ := exists_of_bind_ok h
  obtain ⟨highest, hhighest, h⟩ := exists_of_bind_ok h
  obtain ⟨jitter, -, h⟩ := exists_of_bind_ok h
  obtain ⟨lastSr, -, h⟩ := exists_of_bind_ok h
  obtain ⟨delaySinceLastSr, -, h⟩ := exists_of_bind_ok h
  have hresult := Except.ok.inj h
  rw [← hresult, merged_takeReport]
  exact d.merged.grows_take fraction lost jitter (getSeqnumCycles_lt hcycles) (getHighestSeqnum_lt hhighest)

theorem grows_visit {defaultVideoBw : UInt32} {now : Timeval} {s s' : RtcpData × UInt32} {chead : List UInt8}
    (h : visit defaultVideoBw now s chead = .ok s') : s.1.merged.Grows s'.1.merged := by
  obtain ⟨type, -, h⟩ := exists_of_bind_ok h
  split at h
  · exact grows_receiverReport h
  split at h
  · obtain ⟨d, hnack, h⟩ := exists_of_bind_ok h
    obtain ⟨blp, -, hnack⟩ := exists_of_bind_ok hnack
    obtain ⟨pid, -, hnack⟩ := exists_of_bind_ok hnack
    have hd := Except.ok.inj hnack
    have hs' := Except.ok.inj h
    rw [← hs', ← hd, merged_takeNack]
    exact .refl _
  split at h
  · obtain ⟨d, hps, h⟩ := exists_of_bind_ok h
    have hs' := Except.ok.inj h
    rw [← hs', merged_psFeedback hps]
    exact .refl _
  · have hs' := Except.ok.inj h
    rw [← hs']
    exact .refl _

end RtcpData

namespace RtcpReporter

/-- The counts of the last report are not ahead of those that are gathered. -/
structure Behind (d : RtcpData) (s : RtcpSent) : Prop where
  lost_le : s.prevTotalPacketsLost.toNat ≤ d.totalPacketsLost.toNat
  extended_le : s.prevExtendedSeqNo.toNat ≤ d.extendedSeqNo.toNat

theorem Behind.grows {d d' : RtcpData} {s : RtcpSent} (h : Behind d s) (hgrows : d.merged.Grows d'.merged) :
    Behind d' s :=
  ⟨h.lost_le.trans hgrows.lost_le, h.extended_le.trans hgrows.rank_le⟩

theorem Effect.grows {r : RtcpReporter} {ssrc : UInt32} {d d' : RtcpData} {s s' : RtcpSent} {event : RtcpEvent}
    (h : Effect r ssrc d s event d' s') : d.merged.Grows d'.merged ∧ (Behind d s → Behind d' s') := by
  cases h with
  | same => exact ⟨.refl _, id⟩
  | senderReport => exact ⟨.refl _, fun h => ⟨h.lost_le, h.extended_le⟩⟩
  | feedback hscan =>
      have hgrows := @scan_keeps _ _ (fun s => d.merged.Grows s.1.merged)
        (fun hs hvisit => hs.trans (RtcpData.grows_visit hvisit)) _ _ _ _ _ (.refl _) hscan
      exact ⟨hgrows, fun h => h.grows hgrows⟩
  | check hcheck =>
      rcases checkSource_ok hcheck with ⟨-, hmerged, rfl⟩ | ⟨-, hmerged, hlost, hextended⟩
      · have hgrows : d.merged.Grows d'.merged := hmerged ▸ .refl _
        exact ⟨hgrows, fun h => h.grows hgrows⟩
      · have hgrows : d.merged.Grows d'.merged := by
          rw [hmerged]
          split
          · exact d.merged.grows_reset
          · exact .refl _
        refine ⟨hgrows, fun _ => ⟨?_, ?_⟩⟩
        · rw [hlost]
          exact hgrows.lost_le
        · rw [hextended]
          exact hgrows.rank_le

theorem run_grows {r r' : RtcpReporter} {events : List RtcpEvent} (hrun : Run Step r events r') (ssrc : UInt32) :
    (r.data ssrc).merged.Grows (r'.data ssrc).merged
      ∧ ((r.gathered.rtcpData ssrc).isSome = true → (r'.gathered.rtcpData ssrc).isSome = true)
      ∧ (Behind (r.data ssrc) (r.sent ssrc) → Behind (r'.data ssrc) (r'.sent ssrc)) := by
  induction hrun with
  | nil => exact ⟨.refl _, id, id⟩
  | snoc _ hstep ih =>
      obtain ⟨hgrows, hsome, hbehind⟩ := ih
      have hlast := (effect_of_step hstep ssrc).grows
      exact ⟨hgrows.trans hlast.1, isSome_of_step hstep ∘ hsome, hlast.2 ∘ hbehind⟩

theorem reachable_numbered {r : RtcpReporter} (hr : Reachable r) (ssrc : UInt32) :
    (r.data ssrc).merged.extended.Numbered := by
  obtain ⟨maxVideoBw, audioSource, videoSource, audioSink, videoSink, events, hrun⟩ := hr
  apply (run_grows hrun ssrc).1.numbered
  change (0 : UInt32).toNat = (0 : UInt16).toNat * 2 ^ 16 + (0 : UInt16).toNat
  decide

theorem reachable_behind {r : RtcpReporter} (hr : Reachable r) (ssrc : UInt32) :
    Behind (r.data ssrc) (r.sent ssrc) := by
  obtain ⟨maxVideoBw, audioSource, videoSource, audioSink, videoSink, events, hrun⟩ := hr
  apply (run_grows hrun ssrc).2.2
  exact ⟨le_rfl, le_rfl⟩

/-! ### Between two resets -/

/-- What happens between two resets: packets of reports, and other operations. -/
inductive PeriodEvent where
  | reports (now : Timeval) (delay : UInt32) (subs : List SubPacket)
  | other (event : RtcpEvent)

def PeriodEvent.subs : PeriodEvent → List SubPacket
  | reports _ _ subs => subs
  | other _ => []

/-- Operations other than feedback, and checks that do not reset the data of the source. -/
def Quiet (r : RtcpReporter) (source : UInt32) : RtcpEvent → Prop
  | .analyzeFeedback _ _ _ => False
  | .checkRtcpFb now _ _ => ¬ (Due now (r.data source) (r.sent source) ∧ Resetting now (r.sent source))
  | _ => True

def PeriodStep (source : UInt32) (r : RtcpReporter) (event : PeriodEvent) (r' : RtcpReporter) : Prop :=
  match event with
  | .reports now delay subs => subs ≠ [] ∧ (∀ sub ∈ subs, IsReport source sub)
      ∧ r.analyzeFeedback now delay (compound subs) = .ok r'
  | .other event => Quiet r source event ∧ r.Step event r'

theorem merged_of_quiet {r r' : RtcpReporter} {source : UInt32} {event : RtcpEvent} (hquiet : Quiet r source event)
    (hstep : r.Step event r') : (r'.data source).merged = (r.data source).merged := by
  have heffect := effect_of_step hstep source
  generalize r'.data source = d' at heffect
  generalize r'.sent source = s' at heffect
  cases heffect with
  | same => rfl
  | senderReport => rfl
  | feedback => exact hquiet.elim
  | check hcheck =>
      rcases checkSource_ok hcheck with ⟨-, hmerged, -⟩ | ⟨hdue, hmerged, -⟩
      · exact hmerged
      · rw [hmerged, if_neg fun hreset => hquiet ⟨hdue, hreset⟩]

/-- What is merged in a period is what its reports give, one behind the other. -/
theorem merged_of_period {source : UInt32} {r r' : RtcpReporter} {events : List PeriodEvent}
    (hrun : Run (PeriodStep source) r events r') :
    (r'.data source).merged = (events.flatMap PeriodEvent.subs).foldl Merged.takeReport (r.data source).merged := by
  induction hrun with
  | nil => rfl
  | @snoc events r₁ event r₂ _ hstep ih =>
      rw [List.flatMap_append, List.foldl_append, ← ih]
      cases event with
      | reports now delay subs =>
          obtain ⟨hne, hreports, hanalyzed⟩ := hstep
          obtain ⟨d, hresult, hmerged⟩ := r₁.analyzeFeedback_reports now delay hne hreports
          have hr₂ : r₁.setData source d = r₂ := Except.ok.inj (hresult.symm.trans hanalyzed)
          rw [← hr₂, data_setData, if_pos rfl, hmerged, List.flatMap_singleton]
          rfl
      | other event => exact merged_of_quiet hstep.1 hstep.2

/-- **Receiver reports may come in any order,** and in any packets: what a period leaves behind of them is the same.
The highest sequence number agrees with the number that is made of it, which never goes back. -/
theorem receiverReports_any_order :
    (∀ (r : RtcpReporter) (now : Timeval) (delay source : UInt32) (subs : List SubPacket), subs ≠ [] →
      (∀ sub ∈ subs, IsReport source sub) → ∃ r', r.analyzeFeedback now delay (compound subs) = .ok r')
    ∧ (∀ (r r₁ r₂ : RtcpReporter) (source : UInt32) (events₁ events₂ : List PeriodEvent),
      Run (PeriodStep source) r events₁ r₁ → Run (PeriodStep source) r events₂ r₂ →
      (events₁.flatMap PeriodEvent.subs).Perm (events₂.flatMap PeriodEvent.subs) →
      (r₁.data source).merged = (r₂.data source).merged)
    ∧ ∀ (r r' : RtcpReporter) (events : List RtcpEvent) (ssrc : UInt32) (d : RtcpData), Reachable r →
      Run Step r events r' → r.gathered.rtcpData ssrc = some d →
      d.extendedSeqNo.toNat = d.seqNumCycles.toNat * 2 ^ 16 + d.highestSeqNumReceived.toNat
        ∧ ∃ d', r'.gathered.rtcpData ssrc = some d' ∧ d.extendedSeqNo ≤ d'.extendedSeqNo := by
  refine ⟨?_, ?_, ?_⟩
  · intro r now delay source subs hne hreports
    obtain ⟨d, hanalyzed, -⟩ := r.analyzeFeedback_reports now delay hne hreports
    exact ⟨_, hanalyzed⟩
  · intro r r₁ r₂ source events₁ events₂ hrun₁ hrun₂ hperm
    rw [merged_of_period hrun₁, merged_of_period hrun₂]
    apply hperm.foldl_eq'
    intro sub _ sub' _ m
    exact m.takeReport_right_comm sub sub'
  · intro r r' events ssrc d hr hrun hd
    have hdata := data_of_some hd
    obtain ⟨hgrows, hsome, -⟩ := run_grows hrun ssrc
    obtain ⟨d', hd'⟩ := Option.isSome_iff_exists.mp (hsome (Option.isSome_iff_exists.mpr ⟨d, hd⟩))
    have hnumbered := reachable_numbered hr ssrc
    rw [hdata] at hgrows hnumbered
    rw [data_of_some hd'] at hgrows
    exact ⟨hnumbered, d', hd', hgrows.rank_le⟩

/-- Two reports about the source 8, of which the first has the greater loss and the second the later number. -/
def reportOfLoss : SubPacket where
  bytes := [0x81, 201, 0, 7, 0, 0, 0, 1, 0, 0, 0, 8, 10, 0, 0, 3, 0, 0, 0, 100, 0, 0, 0, 5, 0, 0, 0, 1, 0, 0, 0, 0]
  size := rfl

def reportOfNumber : SubPacket where
  bytes := [0x81, 201, 0, 7, 0, 0, 0, 1, 0, 0, 0, 8, 0, 0, 0, 2, 0, 1, 0, 4, 0, 0, 0, 2, 0, 0, 0, 1, 0, 0, 0, 0]
  size := rfl

theorem receiverReports_any_order_two : ∃ r₁ r₂,
    Run (PeriodStep 8) (create 300000 7 8 1 2) [.reports 0 0 [reportOfLoss, reportOfNumber]] r₁
      ∧ Run (PeriodStep 8) (create 300000 7 8 1 2) [.reports 0 0 [reportOfNumber], .reports 0 5 [reportOfLoss]] r₂
      ∧ (r₁.data 8).merged = (r₂.data 8).merged := by
  have hloss : IsReport 8 reportOfLoss := ⟨rfl, rfl, rfl, by decide⟩
  have hnumber : IsReport 8 reportOfNumber := ⟨rfl, rfl, rfl, by decide⟩
  have hboth : ∀ sub ∈ [reportOfLoss, reportOfNumber], IsReport 8 sub := by
    simp [hloss, hnumber]
  obtain ⟨hreturns, hsame, -⟩ := receiverReports_any_order
  obtain ⟨r₁, h₁⟩ := hreturns (create 300000 7 8 1 2) 0 0 8 _ (List.cons_ne_nil _ _) hboth
  obtain ⟨r, h⟩ := hreturns (create 300000 7 8 1 2) 0 0 8 [reportOfNumber] (List.cons_ne_nil _ _) (by simp [hnumber])
  obtain ⟨r₂, h₂⟩ := hreturns r 0 5 8 [reportOfLoss] (List.cons_ne_nil _ _) (by simp [hloss])
  have hrun₁ : Run (PeriodStep 8) (create 300000 7 8 1 2) [.reports 0 0 [reportOfLoss, reportOfNumber]] r₁ :=
    Run.nil.snoc ⟨List.cons_ne_nil _ _, hboth, h₁⟩
  have hrun₂ : Run (PeriodStep 8) (create 300000 7 8 1 2)
      [.reports 0 0 [reportOfNumber], .reports 0 5 [reportOfLoss]] r₂ :=
    (Run.nil.snoc ⟨List.cons_ne_nil _ _, by simp [hnumber], h⟩).snoc ⟨List.cons_ne_nil _ _, by simp [hloss], h₂⟩
  exact ⟨r₁, r₂, hrun₁, hrun₂, hsame _ _ _ _ _ _ hrun₁ hrun₂ (List.Perm.swap _ _ _)⟩

end RtcpReporter

end Licode.Media
