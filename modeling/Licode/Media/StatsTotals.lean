import Licode.Lib.Tally
import Licode.Media.Stats
import Licode.Media.SubPackets

/-!
# What the statistics say

Over well-formed packets the statistics of a source are functions of the sub-packets that came from it:
some of them count, and others are those of the last report. A transport-layer feedback message counts as
a NACK whatever its format is.
-/

namespace Licode.Media

open Overlay Rtcp

namespace Rtcp.SubPacket

/-- The sender is named, and the fields of a type are there: the first block of a receiver report, the counts of a
sender report, and the identifier and the bit rate of application-layer feedback. -/
structure WellFormed (sub : SubPacket) : Prop where
  ssrc : 8 ≤ sub.bytes.length
  receiver : sub.type = receiverPT → 1 ≤ sub.count ∧ 32 ≤ sub.bytes.length
  sender : sub.type = senderPT → 28 ≤ sub.bytes.length
  feedback : sub.type = psFeedbackPT → sub.count = afbFMT →
    16 ≤ sub.bytes.length ∧ (read sub.bytes 12 4 = rembId → 20 ≤ sub.bytes.length)

def IsPs (format : Nat) (sub : SubPacket) : Prop := sub.type = psFeedbackPT ∧ sub.count = format

def IsRemb (sub : SubPacket) : Prop := IsPs afbFMT sub ∧ read sub.bytes 12 4 = rembId

instance (format : Nat) (sub : SubPacket) : Decidable (IsPs format sub) := inferInstanceAs (Decidable (_ ∧ _))

instance (sub : SubPacket) : Decidable sub.IsRemb := inferInstanceAs (Decidable (_ ∧ _))

/-- `ntohl(brLength)`. -/
def brLength (sub : SubPacket) : UInt32 := .ofNat (number (read sub.bytes 17 3) * 256)

def bitrate (sub : SubPacket) : UInt32 := (sub.brLength >>> 8 &&& 0x3FFFF) <<< (sub.brLength >>> 26)

theorem brLength_append (sub : SubPacket) (rest : List UInt8) (h : 20 ≤ sub.bytes.length) :
    Rtcp.brLength (sub.bytes ++ rest) = .ok sub.brLength := by
  rw [Rtcp.brLength, load_append h]
  rfl

end Rtcp.SubPacket

namespace Stats

open SubPacket

def bump (count : Option UInt64) : UInt64 :=
  match count with
  | some count => count + 1
  | none => 1

/-- What a sub-packet does to a statistic of its sender. -/
def effect (sub : SubPacket) (key : StatsKey) (value : Option UInt64) : Option UInt64 :=
  match key with
  | .nack => if sub.type = rtpFeedbackPT then some (bump value) else value
  | .pli => if IsPs pliFMT sub then some (bump value) else value
  | .sli => if IsPs sliFMT sub then some (bump value) else value
  | .fir => if IsPs firFMT sub then some (bump value) else value
  | .fractionLost => if sub.type = receiverPT then some sub.fractionLost.toUInt64 else value
  | .packetsLost => if sub.type = receiverPT then some sub.lostPackets.toUInt64 else value
  | .jitter => if sub.type = receiverPT then some sub.jitter.toUInt64 else value
  | .sourceSsrc => if sub.type = receiverPT then some sub.sourceSSRC.toUInt64 else value
  | .rtcpPacketSent => if sub.type = senderPT then some sub.packetsSent.toUInt64 else value
  | .rtcpBytesSent => if sub.type = senderPT then some sub.octetsSent.toUInt64 else value
  | .bandwidth => if IsRemb sub then some sub.bitrate.toUInt64 else value

def take (s : Stats) (sub : SubPacket) : Stats :=
  ⟨Function.update s.statsPacket sub.ssrc fun key => effect sub key (s.statsPacket sub.ssrc key)⟩

/-- Statistics are what they are at each source. -/
theorem eq_take {s s' : Stats} {sub : SubPacket}
    (hsame : ∀ key, s'.statsPacket sub.ssrc key = effect sub key (s.statsPacket sub.ssrc key))
    (hother : ∀ ssrc, ssrc ≠ sub.ssrc → s'.statsPacket ssrc = s.statsPacket ssrc) : s' = s.take sub := by
  obtain ⟨statsPacket⟩ := s'
  rw [take, Stats.mk.injEq]
  funext ssrc
  by_cases hssrc : ssrc = sub.ssrc
  · rw [hssrc, Function.update_self]
    funext key
    exact hsame key
  · rw [Function.update_of_ne hssrc]
    exact hother ssrc hssrc

theorem set_of_ne (s : Stats) {ssrc ssrc' : UInt32} (key : StatsKey) (value : UInt64) (h : ssrc' ≠ ssrc) :
    (s.set ssrc key value).statsPacket ssrc' = s.statsPacket ssrc' := Function.update_of_ne h _ _

theorem set_same (s : Stats) (ssrc : UInt32) (key : StatsKey) (value : UInt64) (key' : StatsKey) :
    (s.set ssrc key value).statsPacket ssrc key' = if key' = key then some value else s.statsPacket ssrc key' := by
  change Function.update s.statsPacket ssrc _ ssrc key' = _
  rw [Function.update_self, Function.update_apply]

theorem account_eq (s : Stats) (ssrc : UInt32) (key : StatsKey) :
    s.account ssrc key = s.set ssrc key (bump (s.statsPacket ssrc key)) := rfl

/-! ### One sub-packet -/

section Header

variable (s : Stats) {sub : SubPacket} (h : sub.WellFormed) (rest : List UInt8)

include h

theorem processReceiverReport_eq (htype : sub.type = receiverPT) :
    s.processReceiverReport sub.ssrc (sub.bytes ++ rest) = .ok (s.take sub) := by
  have hsize := (h.receiver htype).2
  rw [processReceiverReport, sub.getFractionLost_append _ (by omega), Checked.ok_bind,
    sub.getLostPackets_append _ (by omega), Checked.ok_bind, sub.getJitter_append _ (by omega), Checked.ok_bind,
    sub.getSourceSSRC_append _ (by omega), Checked.ok_bind]
  apply congrArg Except.ok
  apply eq_take
  · intro key
    rw [set_same, set_same, set_same, set_same]
    cases key
    all_goals simp [effect, IsPs, IsRemb, htype, receiverPT, senderPT, rtpFeedbackPT, psFeedbackPT]
  · intro ssrc hne
    rw [set_of_ne _ _ _ hne, set_of_ne _ _ _ hne, set_of_ne _ _ _ hne, set_of_ne _ _ _ hne]

theorem processSenderReport_eq (htype : sub.type = senderPT) :
    s.processSenderReport sub.ssrc (sub.bytes ++ rest) = .ok (s.take sub) := by
  have hsize := h.sender htype
  rw [processSenderReport, sub.getPacketsSent_append _ (by omega), Checked.ok_bind,
    sub.getOctetsSent_append _ (by omega), Checked.ok_bind]
  apply congrArg Except.ok
  apply eq_take
  · intro key
    rw [set_same, set_same]
    cases key
    all_goals simp [effect, IsPs, IsRemb, htype, receiverPT, senderPT, rtpFeedbackPT, psFeedbackPT]
  · intro ssrc hne
    rw [set_of_ne _ _ _ hne, set_of_ne _ _ _ hne]

omit h in
/-- A message that is counted. -/
theorem account_eq_take {key : StatsKey}
    (heffect : ∀ key', effect sub key' (s.statsPacket sub.ssrc key')
      = if key' = key then some (bump (s.statsPacket sub.ssrc key)) else s.statsPacket sub.ssrc key') :
    s.account sub.ssrc key = s.take sub := by
  rw [account_eq]
  apply eq_take
  · intro key'
    rw [set_same, heffect]
  · intro ssrc hne
    exact set_of_ne _ _ _ hne

omit h in
/-- A sub-packet of no interest. -/
theorem eq_take_of_id (heffect : ∀ key value, effect sub key value = value) : s = s.take sub :=
  eq_take (fun key => (heffect key _).symm) fun _ _ => rfl

omit h in
/-- The messages with a statistic of their own. -/
theorem account_ps {format : Nat} {key : StatsKey} (htype : sub.type = psFeedbackPT) (hcount : sub.count = format)
    (hkey : (format = pliFMT ∧ key = .pli) ∨ (format = sliFMT ∧ key = .sli) ∨ (format = firFMT ∧ key = .fir)) :
    s.account sub.ssrc key = s.take sub := by
  apply account_eq_take
  intro key'
  rcases hkey with ⟨rfl, rfl⟩ | ⟨rfl, rfl⟩ | ⟨rfl, rfl⟩
  all_goals
    cases key'
    all_goals simp [effect, IsPs, IsRemb, htype, hcount, receiverPT, senderPT, rtpFeedbackPT, psFeedbackPT, pliFMT,
      sliFMT, firFMT, afbFMT]

theorem processPsFeedback_eq (htype : sub.type = psFeedbackPT) :
    s.processPsFeedback sub.ssrc (sub.bytes ++ rest) = .ok (s.take sub) := by
  rw [processPsFeedback, sub.getBlockCount_append, Checked.ok_bind]
  by_cases hpli : sub.count = pliFMT
  · rw [if_pos hpli]
    exact congrArg Except.ok (account_ps s htype hpli (.inl ⟨rfl, rfl⟩))
  rw [if_neg hpli]
  by_cases hsli : sub.count = sliFMT
  · rw [if_pos hsli]
    exact congrArg Except.ok (account_ps s htype hsli (.inr (.inl ⟨rfl, rfl⟩)))
  rw [if_neg hsli]
  by_cases hfir : sub.count = firFMT
  · rw [if_pos hfir]
    exact congrArg Except.ok (account_ps s htype hfir (.inr (.inr ⟨rfl, rfl⟩)))
  rw [if_neg hfir]
  have hcounted : ¬ IsPs pliFMT sub ∧ ¬ IsPs sliFMT sub ∧ ¬ IsPs firFMT sub :=
    ⟨fun hps => hpli hps.2, fun hps => hsli hps.2, fun hps => hfir hps.2⟩
  obtain ⟨hnpli, hnsli, hnfir⟩ := hcounted
  by_cases hafb : sub.count = afbFMT
  · obtain ⟨hid, hrate⟩ := h.feedback htype hafb
    rw [if_pos hafb, load_append hid, Checked.ok_bind]
    by_cases hremb : read sub.bytes 12 4 = rembId
    · have hkind : IsRemb sub := ⟨⟨htype, hafb⟩, hremb⟩
      rw [if_pos hremb, getBrMantis, getBrExp, sub.brLength_append _ (hrate hremb)]
      apply congrArg Except.ok
      apply eq_take
      · intro key
        rw [set_same]
        cases key
        all_goals simp [effect, hkind, hnpli, hnsli, hnfir, htype, receiverPT, senderPT, rtpFeedbackPT, psFeedbackPT,
          bitrate]
      · intro ssrc hne
        exact set_of_ne _ _ _ hne
    · have hkind : ¬ IsRemb sub := fun hremb' => hremb hremb'.2
      rw [if_neg hremb]
      apply congrArg Except.ok
      apply eq_take_of_id
      intro key value
      cases key
      all_goals simp [effect, hkind, hnpli, hnsli, hnfir, htype, receiverPT, senderPT, rtpFeedbackPT, psFeedbackPT]
  · have hkind : ¬ IsRemb sub := fun hremb => hafb hremb.1.2
    rw [if_neg hafb]
    apply congrArg Except.ok
    apply eq_take_of_id
    intro key value
    cases key
    all_goals simp [effect, hkind, hnpli, hnsli, hnfir, htype, receiverPT, senderPT, rtpFeedbackPT, psFeedbackPT]

theorem processRtcpHeader_eq : s.processRtcpHeader (sub.bytes ++ rest) = .ok (s.take sub) := by
  rw [processRtcpHeader, sub.getSSRC_append _ h.ssrc, Checked.ok_bind, sub.getPacketType_append, Checked.ok_bind]
  by_cases hreceiver : sub.type = receiverPT
  · rw [if_pos hreceiver]
    exact processReceiverReport_eq s h rest hreceiver
  rw [if_neg hreceiver]
  by_cases hsender : sub.type = senderPT
  · rw [if_pos hsender]
    exact processSenderReport_eq s h rest hsender
  rw [if_neg hsender]
  by_cases hrtp : sub.type = rtpFeedbackPT
  · rw [if_pos hrtp]
    apply congrArg Except.ok
    apply account_eq_take
    intro key
    cases key
    all_goals simp [effect, IsPs, IsRemb, hrtp, receiverPT, senderPT, rtpFeedbackPT, psFeedbackPT]
  rw [if_neg hrtp]
  by_cases hps : sub.type = psFeedbackPT
  · rw [if_pos hps]
    exact processPsFeedback_eq s h rest hps
  · rw [if_neg hps]
    apply congrArg Except.ok
    apply eq_take_of_id
    intro key value
    cases key
    all_goals simp [effect, IsPs, IsRemb, hreceiver, hsender, hrtp, hps]

end Header

/-! ### A sequence of packets -/

/-- `processRtcpPacket` of packets one behind the other. -/
def processRtcpPackets (s : Stats) (packets : List (List SubPacket)) : Checked Stats :=
  packets.foldlM (fun s subs => s.processRtcpPacket (compound subs)) s

theorem processRtcpPackets_eq (s : Stats) {packets : List (List SubPacket)} (hne : ∀ subs ∈ packets, subs ≠ [])
    (hformed : ∀ subs ∈ packets, ∀ sub ∈ subs, sub.WellFormed) :
    s.processRtcpPackets packets = .ok (packets.flatten.foldl take s) := by
  induction packets generalizing s with
  | nil => rfl
  | cons subs packets ih =>
      rw [List.forall_mem_cons] at hne hformed
      have hscan : s.processRtcpPacket (compound subs) = .ok (subs.foldl take s) :=
        scan_compound hne.1 (fun s sub hmem rest => s.processRtcpHeader_eq (hformed.1 sub hmem) rest)
          (length_le_compound subs) s
      rw [processRtcpPackets, List.foldlM_cons, hscan, Checked.ok_bind, List.flatten_cons, List.foldl_append]
      exact ih _ hne.2 hformed.2

/-- The number of the sub-packets of a kind, in 64 bits, and nothing where there are none. -/
def counter (kind : SubPacket → Prop) [DecidablePred kind] (subs : List SubPacket) : Option UInt64 :=
  if subs.countP (fun sub => kind sub) = 0 then none else some (.ofNat (subs.countP fun sub => kind sub))

/-- A value of the last sub-packet of a kind. -/
def last (kind : SubPacket → Prop) [DecidablePred kind] (value : SubPacket → UInt64) (subs : List SubPacket) :
    Option UInt64 :=
  (subs.filter fun sub => kind sub).getLast?.map value

/-- What the statistics of a source have to be, for the sub-packets that came from it. -/
structure Totals (statistics : StatsKey → Option UInt64) (subs : List SubPacket) : Prop where
  nack : statistics .nack = counter (fun sub => sub.type = rtpFeedbackPT) subs
  pli : statistics .pli = counter (IsPs pliFMT) subs
  sli : statistics .sli = counter (IsPs sliFMT) subs
  fir : statistics .fir = counter (IsPs firFMT) subs
  fractionLost : statistics .fractionLost = last (fun sub => sub.type = receiverPT) (·.fractionLost.toUInt64) subs
  packetsLost : statistics .packetsLost = last (fun sub => sub.type = receiverPT) (·.lostPackets.toUInt64) subs
  jitter : statistics .jitter = last (fun sub => sub.type = receiverPT) (·.jitter.toUInt64) subs
  sourceSsrc : statistics .sourceSsrc = last (fun sub => sub.type = receiverPT) (·.sourceSSRC.toUInt64) subs
  rtcpPacketSent : statistics .rtcpPacketSent = last (fun sub => sub.type = senderPT) (·.packetsSent.toUInt64) subs
  rtcpBytesSent : statistics .rtcpBytesSent = last (fun sub => sub.type = senderPT) (·.octetsSent.toUInt64) subs
  bandwidth : statistics .bandwidth = last IsRemb (·.bitrate.toUInt64) subs

theorem take_statsPacket (s : Stats) (sub : SubPacket) (key : StatsKey) (ssrc : UInt32) :
    (s.take sub).statsPacket ssrc key
      = if ssrc = sub.ssrc then effect sub key (s.statsPacket ssrc key) else s.statsPacket ssrc key := by
  rw [take]
  dsimp only
  rw [Function.update_apply]
  split
  · next hssrc => rw [hssrc]
  · rfl

/-- A statistic of a source is a fold over the sub-packets that came from it. -/
theorem foldl_take (subs : List SubPacket) (ssrc : UInt32) (key : StatsKey) :
    (subs.foldl take create).statsPacket ssrc key
      = (subs.filter fun sub => sub.ssrc = ssrc).foldl (fun value sub => effect sub key value) none := by
  exact @foldl_at_key _ _ _ _ _ SubPacket.ssrc (fun s ssrc => s.statsPacket ssrc key) take (fun sub => effect sub key)
    (fun s sub ssrc => take_statsPacket s sub key ssrc) subs create ssrc

theorem foldl_counter {key : StatsKey} (kind : SubPacket → Prop) [DecidablePred kind]
    (heffect : ∀ sub value, effect sub key value = if kind sub then some (bump value) else value) (subs : List SubPacket) :
    subs.foldl (fun value sub => effect sub key value) none = counter kind subs := by
  have hsame : (fun value sub => effect sub key value)
      = fun value sub => if kind sub then some (bump value) else value := by
    funext value sub
    exact heffect sub value
  rw [hsame]
  apply foldl_tally kind rfl
  intro n
  exact (UInt64.ofNat_add n 1).symm

theorem foldl_last {key : StatsKey} (kind : SubPacket → Prop) [DecidablePred kind] (value : SubPacket → UInt64)
    (heffect : ∀ sub old, effect sub key old = if kind sub then some (value sub) else old) (subs : List SubPacket) :
    subs.foldl (fun value sub => effect sub key value) none = last kind value subs := by
  have hsame : (fun value sub => effect sub key value)
      = fun old sub => if kind sub then some (value sub) else old := by
    funext old sub
    exact heffect sub old
  rw [hsame, foldl_keepLast kind value, Option.or_none]
  rfl

theorem totals_foldl (subs : List SubPacket) (ssrc : UInt32) :
    Totals ((subs.foldl take create).statsPacket ssrc) (subs.filter fun sub => sub.ssrc = ssrc) where
  nack := (foldl_take subs ssrc .nack).trans (foldl_counter _ (fun _ _ => rfl) _)
  pli := (foldl_take subs ssrc .pli).trans (foldl_counter _ (fun _ _ => rfl) _)
  sli := (foldl_take subs ssrc .sli).trans (foldl_counter _ (fun _ _ => rfl) _)
  fir := (foldl_take subs ssrc .fir).trans (foldl_counter _ (fun _ _ => rfl) _)
  fractionLost := (foldl_take subs ssrc .fractionLost).trans (foldl_last _ _ (fun _ _ => rfl) _)
  packetsLost := (foldl_take subs ssrc .packetsLost).trans (foldl_last _ _ (fun _ _ => rfl) _)
  jitter := (foldl_take subs ssrc .jitter).trans (foldl_last _ _ (fun _ _ => rfl) _)
  sourceSsrc := (foldl_take subs ssrc .sourceSsrc).trans (foldl_last _ _ (fun _ _ => rfl) _)
  rtcpPacketSent := (foldl_take subs ssrc .rtcpPacketSent).trans (foldl_last _ _ (fun _ _ => rfl) _)
  rtcpBytesSent := (foldl_take subs ssrc .rtcpBytesSent).trans (foldl_last _ _ (fun _ _ => rfl) _)
  bandwidth := (foldl_take subs ssrc .bandwidth).trans (foldl_last _ _ (fun _ _ => rfl) _)

/-- **The statistics are the totals** of the sub-packets, source by source, after any packets that are well-formed. The
statistics of a source of which nothing came are not there. -/
theorem processRtcpPackets_totals {packets : List (List SubPacket)} (hne : ∀ subs ∈ packets, subs ≠ [])
    (hformed : ∀ subs ∈ packets, ∀ sub ∈ subs, sub.WellFormed) :
    ∃ s, create.processRtcpPackets packets = .ok s ∧ ∀ ssrc,
      Totals (s.statsPacket ssrc) (packets.flatten.filter fun sub => sub.ssrc = ssrc)
        ∧ ((∀ sub ∈ packets.flatten, sub.ssrc ≠ ssrc) → ∀ key, s.statsPacket ssrc key = none) := by
  refine ⟨_, processRtcpPackets_eq create hne hformed, ?_⟩
  intro ssrc
  refine ⟨totals_foldl _ ssrc, ?_⟩
  intro hnothing key
  have hempty : (packets.flatten.filter fun sub => sub.ssrc = ssrc) = [] := by
    apply List.filter_eq_nil_iff.mpr
    intro sub hmem
    rw [decide_eq_true_eq]
    exact hnothing sub hmem
  rw [foldl_take, hempty]
  rfl

/-- Congestion feedback, which has another format than a NACK, and a report with one packet more than was expected. -/
def congestionFeedback : SubPacket where
  bytes := [0x8F, 205, 0, 3, 0, 0, 0, 1, 0, 0, 0, 8, 0, 100, 0, 1]
  size := rfl

def reportOfDuplicate : SubPacket where
  bytes := [0x81, 201, 0, 7, 0, 0, 0, 1, 0, 0, 0, 8, 0, 255, 255, 255, 0, 0, 0, 100, 0, 0, 0, 5, 0, 0, 0, 1, 0, 0, 0, 0]
  size := rfl

theorem processRtcpPackets_totals_two : ∃ s,
    create.processRtcpPackets [[reportOfDuplicate, congestionFeedback]] = .ok s
      ∧ Totals (s.statsPacket 1) [reportOfDuplicate, congestionFeedback] := by
  have hreport : reportOfDuplicate.WellFormed := ⟨by decide, by decide, by decide, by decide⟩
  have hfeedback : congestionFeedback.WellFormed := ⟨by decide, by decide, by decide, by decide⟩
  obtain ⟨s, hs, htotals⟩ := @processRtcpPackets_totals [[reportOfDuplicate, congestionFeedback]] (by simp)
    (by simp [hreport, hfeedback])
  exact ⟨s, hs, (htotals 1).1⟩

/-- The feedback counts as a NACK, and the loss of minus one is 16777215. -/
theorem feedback_counts_as_nack : ∃ s,
    create.processRtcpPackets [[reportOfDuplicate, congestionFeedback]] = .ok s
      ∧ congestionFeedback.count ≠ 1 ∧ s.statsPacket 1 .nack = some 1
      ∧ (BitVec.ofNat 24 reportOfDuplicate.lostPackets.toNat).toInt = -1 ∧ s.statsPacket 1 .packetsLost = some 16777215 :=
  ⟨_, rfl, by decide, rfl, by decide, rfl⟩

end Stats

end Licode.Media
