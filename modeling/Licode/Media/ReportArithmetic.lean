import Licode.Media.ReportOrder

/-!
# The arithmetic of a report

The counts of a report are differences to those of the last one. The code divides them as integers, by
zero where nothing was expected, and multiplies the time that has passed by 65536 in 32 bits. So a report
is right just in the states in which both come out.
-/

namespace Licode.Media

open Overlay Rtcp

theorem Rtcp.load_field {before field : List UInt8} {offset width : Nat} (behind : List UInt8)
    (hbefore : before.length = offset) (hfield : field.length = width) :
    load (before ++ (field ++ behind)) offset width = .ok field := by
  rw [load, read_field hbefore hfield, if_pos]
  simp only [List.length_append]
  omega

/-! ### The fraction -/

namespace RtcpData

/-- A quotient of integers is right where it is 0 and the fraction is as well. -/
theorem fractionLost_right_iff (lost expected : UInt32) :
    fractionLost lost expected = .ok (.ofNat (min 255 (256 * lost.toNat / expected.toNat)))
      ↔ 256 * lost.toNat < expected.toNat := by
  rw [fractionLost]
  by_cases hzero : expected = 0
  · rw [if_pos hzero, hzero]
    refine ⟨fun h => ?_, fun h => absurd h (Nat.not_lt_zero _)⟩
    cases h
  · have hpos : 0 < expected.toNat := by
      apply Nat.pos_of_ne_zero
      exact fun h => hzero (UInt32.toNat_inj.mp h)
    rw [if_neg hzero]
    by_cases hless : 256 * lost.toNat < expected.toNat
    · have hratio : lost.toNat / expected.toNat = 0 := Nat.div_eq_of_lt (by omega)
      have hfraction : 256 * lost.toNat / expected.toNat = 0 := Nat.div_eq_of_lt hless
      rw [hratio, hfraction]
      exact ⟨fun _ => hless, fun _ => rfl⟩
    · have hfraction : 1 ≤ 256 * lost.toNat / expected.toNat := (Nat.one_le_div_iff hpos).mpr (Nat.le_of_not_lt hless)
      refine ⟨fun h => ?_, fun h => absurd h hless⟩
      dsimp only at h
      split at h
      · next hsmall =>
          have hratio : lost.toNat / expected.toNat = 0 := by omega
          rw [hratio, Except.ok.injEq, ← UInt8.toNat_inj, UInt8.toNat_ofNat', UInt8.toNat_ofNat'] at h
          omega
      · cases h

/-- The delay is right where neither the product nor the sum leaves its 32 bits. -/
theorem delayAdjusted_right_iff (d : RtcpData) {now : Timeval} {elapsed : Nat}
    (helapsed : now.msSince d.lastSrUpdated = elapsed) (hday : elapsed < 86400000) :
    (d.delayAdjusted now).toNat = d.delaySinceLastSr.toNat + elapsed * 65536 / 1000
      ↔ elapsed < 65536 ∧ d.delaySinceLastSr.toNat + elapsed * 65536 / 1000 < 2 ^ 32 := by
  have hedlsr : (UInt32.ofInt (now.msSince d.lastSrUpdated)).toNat = elapsed := by
    rw [helapsed, UInt32.ofInt, UInt32.toNat_ofNat']
    omega
  have hdelay := d.delaySinceLastSr.toNat_lt
  rw [delayAdjusted, UInt32.toNat_add, UInt32.toNat_div, UInt32.toNat_mul, hedlsr]
  change (d.delaySinceLastSr.toNat + elapsed * 65536 % 2 ^ 32 / 1000) % 2 ^ 32 = _ ↔ _
  by_cases hfits : elapsed < 65536
  · rw [Nat.mod_eq_of_lt (show elapsed * 65536 < 2 ^ 32 by omega)]
    omega
  · have hwrapped : elapsed * 65536 % 2 ^ 32 + 1000 ≤ elapsed * 65536 := by omega
    have hless : elapsed * 65536 % 2 ^ 32 / 1000 < elapsed * 65536 / 1000 := by
      calc elapsed * 65536 % 2 ^ 32 / 1000
          < (elapsed * 65536 % 2 ^ 32 + 1000) / 1000 := by omega
        _ ≤ elapsed * 65536 / 1000 := Nat.div_le_div_right hwrapped
    constructor
    · intro hright
      have hle := Nat.mod_le (d.delaySinceLastSr.toNat + elapsed * 65536 % 2 ^ 32 / 1000) (2 ^ 32)
      omega
    · intro h
      exact absurd h.1 hfits

/-! ### The bytes -/

section Bytes

variable (d : RtcpData) (sinkSsrc sourceSsrc : UInt32) (fraction : UInt8) (delay : UInt32) (behind : List UInt8)

theorem getFractionLost_receiverReportBytes :
    getFractionLost (d.receiverReportBytes sinkSsrc sourceSsrc fraction delay ++ behind) = .ok fraction := by
  have hload : load (d.receiverReportBytes sinkSsrc sourceSsrc fraction delay ++ behind) 12 1 = .ok [fraction] := by
    rw [receiverReportBytes]
    simp only [List.append_assoc]
    rw [← List.append_assoc, ← List.append_assoc, ← List.append_assoc]
    apply load_field
    all_goals simp
  have hnumber : number [fraction] = fraction.toNat := by
    simp [number, ByteImage.value]
  rw [getFractionLost, hload, Checked.ok_bind, hnumber, UInt8.ofNat_toNat]
  rfl

theorem getDelaySinceLastSr_receiverReportBytes :
    getDelaySinceLastSr (d.receiverReportBytes sinkSsrc sourceSsrc fraction delay ++ behind) = .ok delay := by
  have hload : load (d.receiverReportBytes sinkSsrc sourceSsrc fraction delay ++ behind) 28 4
      = .ok (image 4 delay.toNat) := by
    rw [receiverReportBytes, List.append_assoc]
    apply load_field
    all_goals simp
  rw [getDelaySinceLastSr, hload, Checked.ok_bind, number_image (show delay.toNat < 256 ^ 4 from delay.toNat_lt),
    UInt32.ofNat_toNat]
  rfl

end Bytes

end RtcpData

/-! ### A report -/

namespace RtcpReporter

/-- The packets that were lost since the last report, and those that were to come. -/
def lostInInterval (d : RtcpData) (s : RtcpSent) : Nat := d.totalPacketsLost.toNat - s.prevTotalPacketsLost.toNat
def expectedInInterval (d : RtcpData) (s : RtcpSent) : Nat := d.extendedSeqNo.toNat - s.prevExtendedSeqNo.toNat

/-- The fraction in parts of 256, which is 0 where nothing was expected. -/
def fractionDue (d : RtcpData) (s : RtcpSent) : UInt8 :=
  .ofNat (min 255 (256 * lostInInterval d s / expectedInInterval d s))

/-- The fraction and the delay that a report has to give, the latter within a day. -/
structure RightReport (now : Timeval) (d : RtcpData) (s : RtcpSent) (packet : List UInt8) : Prop where
  fraction : getFractionLost packet = .ok (fractionDue d s)
  delay : ∀ elapsed : Nat, now.msSince d.lastSrUpdated = elapsed → elapsed < 86400000 →
    ∃ delay, getDelaySinceLastSr packet = .ok delay
      ∧ delay.toNat = d.delaySinceLastSr.toNat + elapsed * 65536 / 1000

/-- What both need: a loss of less than one packet in 256, and a time that has its place in 32 bits. -/
structure InRange (now : Timeval) (d : RtcpData) (s : RtcpSent) : Prop where
  fraction : 256 * lostInInterval d s < expectedInInterval d s
  delay : ∀ elapsed : Nat, now.msSince d.lastSrUpdated = elapsed → elapsed < 86400000 →
    elapsed < 65536 ∧ d.delaySinceLastSr.toNat + elapsed * 65536 / 1000 < 2 ^ 32

theorem appendNACK_packet (r : RtcpReporter) (ssrc : UInt32) (d : RtcpData) (packet : List UInt8) :
    ∃ behind, (r.appendNACK ssrc d packet).2 = packet ++ behind := by
  rw [appendNACK]
  split
  · exact ⟨_, rfl⟩
  · exact ⟨[], (List.append_nil _).symm⟩

theorem appendREMB_packet (r : RtcpReporter) (now : Timeval) (d : RtcpData) (s : RtcpSent) (packet : List UInt8) :
    ∃ behind, (r.appendREMB now d s packet).2.2 = packet ++ behind := by
  rw [appendREMB]
  split
  · exact ⟨[], (List.append_nil _).symm⟩
  · split
    · exact ⟨_, rfl⟩
    · exact ⟨[], (List.append_nil _).symm⟩

/-- The report stands before what is appended to it. -/
theorem reportWith_packet (r : RtcpReporter) (now : Timeval) (next ssrc : UInt32) (d : RtcpData) (s : RtcpSent)
    (fraction : UInt8) : ∃ behind, (r.reportWith now next ssrc d s fraction).2.2
      = d.receiverReportBytes (r.addresses ssrc).1 (r.addresses ssrc).2 fraction (d.delayAdjusted now) ++ behind := by
  rw [reportWith]
  obtain ⟨nack, hnack⟩ := r.appendNACK_packet ssrc { d with requestRr := false }
    (d.receiverReportBytes (r.addresses ssrc).1 (r.addresses ssrc).2 fraction (d.delayAdjusted now))
  obtain ⟨remb, hremb⟩ := r.appendREMB_packet now
    (r.appendNACK ssrc { d with requestRr := false } (d.receiverReportBytes (r.addresses ssrc).1 (r.addresses ssrc).2
      fraction (d.delayAdjusted now))).1
    { s with prevTotalPacketsLost := d.totalPacketsLost, prevExtendedSeqNo := d.extendedSeqNo }
    (r.appendNACK ssrc { d with requestRr := false } (d.receiverReportBytes (r.addresses ssrc).1 (r.addresses ssrc).2
      fraction (d.delayAdjusted now))).2
  refine ⟨nack ++ remb, hremb.trans ?_⟩
  rw [hnack, List.append_assoc]

/-- A report is right just where both numbers are in range. -/
theorem report_right_iff (r : RtcpReporter) {now : Timeval} (next ssrc : UInt32) {d : RtcpData} {s : RtcpSent}
    (hbehind : Behind d s) :
    (∃ result, r.report now next ssrc d s = .ok result ∧ RightReport now d s result.2.2) ↔ InRange now d s := by
  have hlost : (d.totalPacketsLost - s.prevTotalPacketsLost).toNat = lostInInterval d s :=
    UInt32.toNat_sub_of_le _ _ (UInt32.le_iff_toNat_le.mpr hbehind.lost_le)
  have hexpected : (d.extendedSeqNo - s.prevExtendedSeqNo).toNat = expectedInInterval d s :=
    UInt32.toNat_sub_of_le _ _ (UInt32.le_iff_toNat_le.mpr hbehind.extended_le)
  have hiff := RtcpData.fractionLost_right_iff (d.totalPacketsLost - s.prevTotalPacketsLost)
    (d.extendedSeqNo - s.prevExtendedSeqNo)
  rw [hlost, hexpected] at hiff
  constructor
  · rintro ⟨result, hreport, hright⟩
    obtain ⟨fraction, hfraction, hresult⟩ := exists_of_bind_ok hreport
    have hmade : r.reportWith now next ssrc d s fraction = result := Except.ok.inj hresult
    obtain ⟨behind, hpacket⟩ := r.reportWith_packet now next ssrc d s fraction
    rw [hmade] at hpacket
    have hread := hright.fraction
    rw [hpacket, RtcpData.getFractionLost_receiverReportBytes, Except.ok.injEq] at hread
    rw [hread, fractionDue] at hfraction
    refine ⟨hiff.mp hfraction, ?_⟩
    intro elapsed helapsed hday
    obtain ⟨delay, hdelay, hvalue⟩ := hright.delay elapsed helapsed hday
    rw [hpacket, RtcpData.getDelaySinceLastSr_receiverReportBytes, Except.ok.injEq] at hdelay
    rw [← hdelay] at hvalue
    exact (d.delayAdjusted_right_iff helapsed hday).mp hvalue
  · intro hrange
    have hfraction := hiff.mpr hrange.fraction
    refine ⟨r.reportWith now next ssrc d s (fractionDue d s), ?_, ?_⟩
    · rw [report, hfraction]
      rfl
    · obtain ⟨behind, hpacket⟩ := r.reportWith_packet now next ssrc d s (fractionDue d s)
      rw [hpacket]
      refine ⟨RtcpData.getFractionLost_receiverReportBytes _ _ _ _ _ _, ?_⟩
      intro elapsed helapsed hday
      refine ⟨_, RtcpData.getDelaySinceLastSr_receiverReportBytes _ _ _ _ _ _, ?_⟩
      exact (d.delayAdjusted_right_iff helapsed hday).mpr (hrange.delay elapsed helapsed hday)

/-! ### A check of all sources -/

/-- The packet that is handed over. -/
def packet? : RtcpOut → Option (List UInt8)
  | .deliverVideoData packet => some packet
  | .deliverAudioData packet => some packet
  | .sendPLI => none

def packets (out : List RtcpOut) : List (List UInt8) := out.filterMap packet?

theorem packets_append (out more : List RtcpOut) : packets (out ++ more) = packets out ++ packets more :=
  List.filterMap_append

theorem packets_pli (d : RtcpData) : packets (if d.shouldSendPli = true then [.sendPLI] else []) = [] := by
  split
  all_goals rfl

theorem checkSource_eq {r : RtcpReporter} {now : Timeval} {next ssrc : UInt32} {d : RtcpData} {s : RtcpSent}
    {made : RtcpData × RtcpSent × List RtcpOut} (h : r.deliver now next ssrc d s = .ok made) :
    r.checkSource now next ssrc d s = .ok ({ made.1 with shouldSendPli := false }, made.2.1,
      made.2.2 ++ if made.1.shouldSendPli = true then [.sendPLI] else []) := by
  rw [checkSource, h]
  rfl

/-- Without a report that is due nothing is delivered. -/
theorem checkSource_of_not_due (r : RtcpReporter) {now : Timeval} (next ssrc : UInt32) {d : RtcpData} {s : RtcpSent}
    (hdue : ¬ Due now d s) :
    ∃ result, r.checkSource now next ssrc d s = .ok result ∧ packets result.2.2 = [] := by
  have hdeliver : r.deliver now next ssrc d s = .ok (d, s, []) := if_neg hdue
  exact ⟨_, checkSource_eq hdeliver, packets_pli d⟩

/-- With one that is due it alone is delivered. -/
theorem checkSource_of_report {r : RtcpReporter} {now : Timeval} {next ssrc : UInt32} {d : RtcpData} {s : RtcpSent}
    (hdue : Due now d s) {made : RtcpData × RtcpSent × List UInt8} (hmade : r.report now next ssrc d s = .ok made) :
    ∃ result, r.checkSource now next ssrc d s = .ok result ∧ packets result.2.2 = [made.2.2] := by
  have hdeliver : r.deliver now next ssrc d s = .ok (made.1, made.2.1,
      [if ssrc = r.videoSourceSSRC then .deliverVideoData made.2.2 else .deliverAudioData made.2.2]) := by
    rw [deliver, if_pos hdue, hmade]
    rfl
  refine ⟨_, checkSource_eq hdeliver, ?_⟩
  rw [packets_append, packets_pli, List.append_nil]
  split
  all_goals rfl

theorem report_of_checkSource {r : RtcpReporter} {now : Timeval} {next ssrc : UInt32} {d : RtcpData} {s : RtcpSent}
    (hdue : Due now d s) {result : RtcpData × RtcpSent × List RtcpOut}
    (hresult : r.checkSource now next ssrc d s = .ok result) :
    ∃ made, r.report now next ssrc d s = .ok made ∧ packets result.2.2 = [made.2.2] := by
  obtain ⟨delivered, hdeliver, -⟩ := exists_of_bind_ok hresult
  rw [deliver, if_pos hdue] at hdeliver
  obtain ⟨made, hmade, -⟩ := exists_of_bind_ok hdeliver
  obtain ⟨result', hresult', hpackets⟩ := checkSource_of_report hdue hmade
  have hsame : result' = result := Except.ok.inj (hresult'.symm.trans hresult)
  exact ⟨made, hmade, hsame ▸ hpackets⟩

theorem checkRtcpFb_of_cons {r : RtcpReporter} {now : Timeval} {next : UInt32 → UInt32} {first : UInt32}
    {ssrcs : List UInt32} {d : RtcpData} {result : RtcpData × RtcpSent × List RtcpOut}
    {rest : RtcpReporter × List RtcpOut} (hd : r.gathered.rtcpData first = some d)
    (hfirst : r.checkSource now (next first) first d (r.sent first) = .ok result)
    (hrest : (r.setSource first result.1 result.2.1).checkRtcpFb now next ssrcs = .ok rest) :
    r.checkRtcpFb now next (first :: ssrcs) = .ok (rest.1, result.2.2 ++ rest.2) := by
  rw [checkRtcpFb, hd]
  dsimp only
  rw [hfirst]
  change (do
    let made ← (r.setSource first result.1 result.2.1).checkRtcpFb now next ssrcs
    return (made.1, result.2.2 ++ made.2)) = _
  rw [hrest]
  rfl

theorem cons_of_checkRtcpFb {r : RtcpReporter} {now : Timeval} {next : UInt32 → UInt32} {first : UInt32}
    {ssrcs : List UInt32} {d : RtcpData} {whole : RtcpReporter × List RtcpOut}
    (hd : r.gathered.rtcpData first = some d) (hcheck : r.checkRtcpFb now next (first :: ssrcs) = .ok whole) :
    ∃ result rest, r.checkSource now (next first) first d (r.sent first) = .ok result
      ∧ (r.setSource first result.1 result.2.1).checkRtcpFb now next ssrcs = .ok rest
      ∧ whole.2 = result.2.2 ++ rest.2 := by
  rcases checkRtcpFb_cons hcheck with ⟨hnone, -⟩ | ⟨d₁, d', s', here, more, hd₁, hfirst, hrest, hout⟩
  · rw [hd] at hnone
    cases hnone
  · have hsame : d₁ = d := Option.some_inj.mp (hd₁.symm.trans hd)
    rw [hsame] at hfirst
    exact ⟨_, _, hfirst, hrest, hout⟩

/-- The sources for which a report is due. -/
def dueSources (now : Timeval) (data : UInt32 → RtcpData) (sent : UInt32 → RtcpSent) (ssrcs : List UInt32) : List UInt32 :=
  ssrcs.filter fun ssrc => Due now (data ssrc) (sent ssrc)

/-- The check returns, with a right report for each source for which one is due. -/
def RightCheck (r : RtcpReporter) (now : Timeval) (next : UInt32 → UInt32) (ssrcs : List UInt32)
    (data : UInt32 → RtcpData) (sent : UInt32 → RtcpSent) : Prop :=
  ∃ result, r.checkRtcpFb now next ssrcs = .ok result
    ∧ List.Forall₂ (fun ssrc packet => RightReport now (data ssrc) (sent ssrc) packet)
      (dueSources now data sent ssrcs) (packets result.2)

/-- The loop, of which each turn leaves the sources behind it alone. -/
theorem rightCheck_iff {r : RtcpReporter} {now : Timeval} {next : UInt32 → UInt32} {ssrcs : List UInt32}
    {data : UInt32 → RtcpData} {sent : UInt32 → RtcpSent} (hnodup : ssrcs.Nodup)
    (hdata : ∀ ssrc ∈ ssrcs, r.gathered.rtcpData ssrc = some (data ssrc)) (hsent : ∀ ssrc ∈ ssrcs, r.sent ssrc = sent ssrc)
    (hbehind : ∀ ssrc ∈ ssrcs, Behind (data ssrc) (sent ssrc)) :
    RightCheck r now next ssrcs data sent
      ↔ ∀ ssrc ∈ dueSources now data sent ssrcs, InRange now (data ssrc) (sent ssrc) := by
  induction ssrcs generalizing r with
  | nil =>
      apply iff_of_true
      · exact ⟨(r, []), rfl, .nil⟩
      · exact List.forall_mem_nil _
  | cons first ssrcs ih =>
      rw [List.nodup_cons] at hnodup
      rw [List.forall_mem_cons] at hdata hsent hbehind
      have htail (d : RtcpData) (s : RtcpSent) : RightCheck (r.setSource first d s) now next ssrcs data sent
          ↔ ∀ ssrc ∈ dueSources now data sent ssrcs, InRange now (data ssrc) (sent ssrc) := by
        apply ih hnodup.2 _ _ hbehind.2
        · intro ssrc hmem
          have hne : ssrc ≠ first := fun h => hnodup.1 (h ▸ hmem)
          rw [setSource_rtcpData_of_ne _ _ _ _ hne, hdata.2 ssrc hmem]
        · intro ssrc hmem
          have hne : ssrc ≠ first := fun h => hnodup.1 (h ▸ hmem)
          rw [setSource_sent_of_ne _ _ _ _ hne, hsent.2 ssrc hmem]
      by_cases hdue : Due now (data first) (sent first)
      · have hfilter : dueSources now data sent (first :: ssrcs) = first :: dueSources now data sent ssrcs :=
          List.filter_cons_of_pos (decide_eq_true hdue)
        rw [RightCheck, hfilter, List.forall_mem_cons, ← report_right_iff r (next first) first hbehind.1]
        constructor
        · rintro ⟨whole, hcheck, hright⟩
          obtain ⟨result, rest, hfirst, hrest, hout⟩ := cons_of_checkRtcpFb hdata.1 hcheck
          rw [hsent.1] at hfirst
          obtain ⟨made, hmade, hpackets⟩ := report_of_checkSource hdue hfirst
          rw [hout, packets_append, hpackets, List.singleton_append, List.forall₂_cons] at hright
          exact ⟨⟨made, hmade, hright.1⟩, (htail _ _).mp ⟨rest, hrest, hright.2⟩⟩
        · rintro ⟨⟨made, hmade, hright⟩, hrange⟩
          obtain ⟨result, hfirst, hpackets⟩ := checkSource_of_report hdue hmade
          obtain ⟨rest, hrest, hmore⟩ := (htail result.1 result.2.1).mpr hrange
          rw [← hsent.1] at hfirst
          refine ⟨_, checkRtcpFb_of_cons hdata.1 hfirst hrest, ?_⟩
          rw [packets_append, hpackets]
          exact .cons hright hmore
      · have hfilter : dueSources now data sent (first :: ssrcs) = dueSources now data sent ssrcs :=
          List.filter_cons_of_neg (by rw [decide_eq_true_eq]; exact hdue)
        obtain ⟨result, hfirst, hpackets⟩ := r.checkSource_of_not_due (next first) first hdue
        rw [← hsent.1] at hfirst
        rw [RightCheck, hfilter, ← htail result.1 result.2.1]
        constructor
        · rintro ⟨whole, hcheck, hright⟩
          obtain ⟨result', rest, hfirst', hrest, hout⟩ := cons_of_checkRtcpFb hdata.1 hcheck
          have hsame : result = result' := Except.ok.inj (hfirst.symm.trans hfirst')
          subst hsame
          rw [hout, packets_append, hpackets] at hright
          exact ⟨rest, hrest, hright⟩
        · rintro ⟨rest, hrest, hmore⟩
          refine ⟨_, checkRtcpFb_of_cons hdata.1 hfirst hrest, ?_⟩
          rw [packets_append, hpackets]
          exact hmore

/-- **When the reports are right:** in every reachable state, whatever is due. The counts of the last report are never
ahead of those that are gathered. -/
theorem checkRtcpFb_right_iff {r : RtcpReporter} (hr : Reachable r) {ssrcs : List UInt32}
    (hkeys : KeysOf r.gathered.rtcpData ssrcs) (now : Timeval) (next : UInt32 → UInt32) :
    (∀ ssrc, Behind (r.data ssrc) (r.sent ssrc))
      ∧ (RightCheck r now next ssrcs r.data r.sent
        ↔ ∀ ssrc ∈ dueSources now r.data r.sent ssrcs, InRange now (r.data ssrc) (r.sent ssrc)) := by
  refine ⟨reachable_behind hr, ?_⟩
  apply rightCheck_iff hkeys.nodup _ (fun _ _ => rfl) fun ssrc _ => reachable_behind hr ssrc
  intro ssrc hmem
  obtain ⟨d, hd⟩ := Option.isSome_iff_exists.mp ((hkeys.mem_iff ssrc).mp hmem)
  rw [hd, data_of_some hd]

theorem keysOf_singleton (ssrc : UInt32) (d : RtcpData) :
    KeysOf (Function.update (fun _ => none) ssrc (some d)) [ssrc] where
  sorted := List.pairwise_singleton _ _
  mem_iff other := by
    rw [List.mem_singleton, Function.update_apply]
    split
    · next h => exact iff_of_true h rfl
    · next h => exact iff_of_false h (by decide)

/-- A report about the source 8 without any loss. -/
def reportOfNoLoss : List UInt8 :=
  [0x81, 201, 0, 7, 0, 0, 0, 1, 0, 0, 0, 8, 0, 0, 0, 0, 0, 0, 0, 100, 0, 0, 0, 5, 0, 0, 0, 1, 0, 0, 0, 0]

theorem checkRtcpFb_right_noLoss : ∃ r, (create 300000 7 8 1 2).analyzeFeedback 0 0 reportOfNoLoss = .ok r
    ∧ RightCheck r ⟨1, 0⟩ (fun _ => 800) [8] r.data r.sent := by
  have hanalyzed : ∃ d, (create 300000 7 8 1 2).analyzeFeedback 0 0 reportOfNoLoss
      = .ok ((create 300000 7 8 1 2).setData 8 d) ∧ d.extendedSeqNo = 100 ∧ d.totalPacketsLost = 0
        ∧ d.delaySinceLastSr = 0 ∧ d.lastSrUpdated = 0 := ⟨_, rfl, rfl, rfl, rfl, rfl⟩
  obtain ⟨d, hanalyzed, hextended, hlost, hdelay, hupdated⟩ := hanalyzed
  have hreachable : Reachable ((create 300000 7 8 1 2).setData 8 d) :=
    ⟨300000, 7, 8, 1, 2, [.analyzeFeedback 0 0 reportOfNoLoss], Run.nil.snoc hanalyzed⟩
  refine ⟨_, hanalyzed, (checkRtcpFb_right_iff hreachable (keysOf_singleton 8 d) _ _).2.mpr ?_⟩
  intro ssrc hmem
  have hssrc : ssrc = 8 := List.mem_singleton.mp (List.mem_of_mem_filter hmem)
  have hdata : ((create 300000 7 8 1 2).setData 8 d).data 8 = d := data_of_some rfl
  rw [hssrc, hdata]
  refine ⟨?_, ?_⟩
  · rw [lostInInterval, expectedInInterval, hlost, hextended]
    change 256 * (0 - 0) < 100 - 0
    decide
  · intro elapsed helapsed hday
    rw [hupdated] at helapsed
    have hms : Timeval.msSince ⟨1, 0⟩ 0 = 1000 := rfl
    rw [hdelay]
    change elapsed < 65536 ∧ 0 + elapsed * 65536 / 1000 < 2 ^ 32
    omega

/-- Two reports on a source about which nothing comes between them: the second one divides by zero. -/
theorem quiet_period_divides_by_zero : ∃ r₁ r₂ out,
    (create 300000 7 8 1 2).analyzeFeedback 0 0 reportOfNoLoss = .ok r₁
      ∧ r₁.checkRtcpFb ⟨1, 0⟩ (fun _ => 800) [8] = .ok (r₂, out)
      ∧ r₂.checkRtcpFb ⟨2, 0⟩ (fun _ => 800) [8] = .error .divisionByZero :=
  ⟨_, _, _, rfl, rfl, rfl⟩

end RtcpReporter

end Licode.Media
