import Licode.Media.FecRecovery

/-!
# The decoder among packets of one stream

A sender gives each number to one packet at most, and the numbers of a stretch of the stream lie in half of
their circle. As long as what comes is from there, every entry of the decoder's lists has the packet
that was sent with its number, the list of recovered packets ascends, and what an FEC packet misses
is not in it. The rules below are those of the decoder's operations; each of them keeps this invariant and
stays within the arrays and the lists.
-/

namespace Licode.Media.Fec

open Overlay

/-- A stretch of what a sender sends. -/
structure Stream where
  ssrc : UInt32
  base : UInt16
  sent : UInt16 → Option (List UInt8)
  media : ∀ n w, sent n = some w → IsMedia ssrc n w
  near : ∀ n w, sent n = some w → (n - base).toNat < 2 ^ 15

namespace Stream

variable (s : Stream)

def content (n : UInt16) : List UInt8 := (s.sent n).getD []

def Has (n : UInt16) : Prop := (s.sent n).isSome

instance (n : UInt16) : Decidable (s.Has n) := inferInstanceAs (Decidable ((s.sent n).isSome = true))

def rank (n : UInt16) : Nat := (n - s.base).toNat

variable {s}

theorem Has.sent_eq {n : UInt16} (h : s.Has n) : s.sent n = some (s.content n) := by
  obtain ⟨w, hw⟩ := Option.isSome_iff_exists.mp h
  rw [content, hw]
  rfl

theorem Has.isMedia {n : UInt16} (h : s.Has n) : IsMedia s.ssrc n (s.content n) := s.media n _ h.sent_eq

theorem Has.rank_lt {n : UInt16} (h : s.Has n) : s.rank n < 2 ^ 15 := s.near n _ h.sent_eq

theorem rank_inj {n n' : UInt16} : s.rank n = s.rank n' ↔ n = n' := by
  refine ⟨fun h => ?_, fun h => by rw [h]⟩
  have hsub : n - s.base = n' - s.base := UInt16.toNat_inj.mp h
  rw [← UInt16.sub_add_cancel n s.base, hsub, UInt16.sub_add_cancel]

/-- Among the numbers of a stream `LessThan` is an order. -/
theorem lessThan_iff {n n' : UInt16} (h : s.rank n < 2 ^ 15) (h' : s.rank n' < 2 ^ 15) :
    lessThan n n' = true ↔ s.rank n < s.rank n' := by
  have hn := n.toNat_lt
  have hn' := n'.toNat_lt
  have hbase := s.base.toNat_lt
  have hhalf : (0x8000 : UInt16).toNat = 32768 := rfl
  have hne : n' = n ↔ n'.toNat = n.toNat := UInt16.toNat_inj.symm
  rw [rank, UInt16.toNat_sub] at h h' ⊢
  rw [rank, UInt16.toNat_sub, lessThan, isNewerSequenceNumber, Bool.and_eq_true, bne_iff_ne, ne_eq, hne,
    decide_eq_true_eq, UInt16.lt_iff_toNat_lt, UInt16.toNat_sub, hhalf]
  omega

end Stream

variable (s : Stream)

/-- A packet that stands for the one that was sent with a number. -/
def Known (n : UInt16) (pkt : Packet) : Prop := s.Has n ∧ pkt.Carries (s.content n)

/-- An FEC packet of the stream with its list. -/
structure FecOk (fec : FecPacket) : Prop where
  ssrc : fec.ssrc = s.ssrc
  has : ∀ p ∈ fec.protectedPktList, s.Has p.seqNum
  protects : Protects fec.pkt (fec.protectedPktList.map fun p => s.content p.seqNum)
  known : ∀ p ∈ fec.protectedPktList, ∀ q, p.pkt = some q → q.Carries (s.content p.seqNum)
  ascending : fec.protectedPktList.Pairwise fun p p' => s.rank p.seqNum < s.rank p'.seqNum

/-- The recovered packets are packets of the stream in their order. -/
structure RecoveredOk (recovered : List RecoveredPacket) : Prop where
  known : ∀ r ∈ recovered, Known s r.seqNum r.pkt
  ascending : recovered.Pairwise fun r r' => s.rank r.seqNum < s.rank r'.seqNum

/-- The two lists of the decoder. -/
structure Lists (fecs : List FecPacket) (recovered : List RecoveredPacket) : Prop where
  fecOk : ∀ fec ∈ fecs, FecOk s fec
  recoveredOk : RecoveredOk s recovered
  missing : ∀ fec ∈ fecs, ∀ p ∈ fec.protectedPktList, p.pkt = none → ∀ r ∈ recovered, r.seqNum ≠ p.seqNum

variable {s}

theorem lists_nil : Lists s [] [] where
  fecOk := by simp
  recoveredOk := ⟨by simp, List.Pairwise.nil⟩
  missing := by simp

theorem Lists.mono {fecs fecs' : List FecPacket} {recovered : List RecoveredPacket} (h : Lists s fecs recovered)
    (hfecs : ∀ fec ∈ fecs', fec ∈ fecs) : Lists s fecs' recovered where
  fecOk fec hfec := h.fecOk fec (hfecs fec hfec)
  recoveredOk := h.recoveredOk
  missing fec hfec := h.missing fec (hfecs fec hfec)

theorem Lists.drop {fecs : List FecPacket} {recovered recovered' : List RecoveredPacket} (h : Lists s fecs recovered)
    (hsub : recovered'.Sublist recovered) : Lists s fecs recovered' where
  fecOk := h.fecOk
  recoveredOk := ⟨fun r hr => h.recoveredOk.known r (hsub.subset hr), h.recoveredOk.ascending.sublist hsub⟩
  missing fec hfec p hp hnone r hr := h.missing fec hfec p hp hnone r (hsub.subset hr)

theorem discardOldPackets_sublist (recovered : List RecoveredPacket) :
    (discardOldPackets recovered).Sublist recovered := List.drop_sublist _ _

/-! ### `UpdateCoveringFECPackets` -/

/-- An entry of the list of protected packets when a packet is known. -/
def fill (packet : RecoveredPacket) (p : ProtectedPacket) : ProtectedPacket :=
  if p.seqNum = packet.seqNum then { p with pkt := some packet.pkt } else p

@[simp]
theorem seqNum_fill (packet : RecoveredPacket) (p : ProtectedPacket) : (fill packet p).seqNum = p.seqNum := by
  rw [fill]
  split_ifs <;> rfl

theorem pkt_fill_of_ne {packet : RecoveredPacket} {p : ProtectedPacket} (h : p.seqNum ≠ packet.seqNum) :
    fill packet p = p := if_neg h

theorem pkt_fill_eq_none_iff {packet : RecoveredPacket} {p : ProtectedPacket} :
    (fill packet p).pkt = none ↔ p.pkt = none ∧ p.seqNum ≠ packet.seqNum := by
  rw [fill]
  split_ifs with h
  · simp [h]
  · simp [h]

/-- The binary search finds the entry of a packet where there is one. -/
theorem FecPacket.update_eq {fec : FecPacket} {packet : RecoveredPacket} (h : FecOk s fec) (hpacket : s.Has packet.seqNum) :
    fec.update packet = { fec with protectedPktList := fec.protectedPktList.map (fill packet) } := by
  have hlt := hpacket.rank_lt
  obtain ⟨front, back, hsplit, hfront, hback⟩ :=
    SortedRange.exists_split_of_rank h.ascending (s.rank packet.seqNum)
  have hless : ∀ p ∈ fec.protectedPktList,
      (lessThan p.seqNum packet.seqNum = true ↔ s.rank p.seqNum < s.rank packet.seqNum) :=
    fun p hp => Stream.lessThan_iff (h.has p hp).rank_lt hlt
  have hbound : SortedRange.lowerBound (fun p => lessThan p.seqNum packet.seqNum) fec.protectedPktList
      = front.length := by
    rw [hsplit] at hless ⊢
    apply SortedRange.lowerBound_append
    · intro p hp
      exact (hless p (List.mem_append_left _ hp)).mpr (hfront p hp)
    · intro p hp
      have hge := hback p hp
      exact Bool.eq_false_iff.mpr fun hlt => absurd ((hless p (List.mem_append_right _ hp)).mp hlt) (by omega)
  have hkept : front.map (fill packet) = front := by
    refine (List.map_congr_left fun p hp => ?_).trans (List.map_id front)
    apply pkt_fill_of_ne
    intro heq
    have hrank := hfront p hp
    rw [heq] at hrank
    omega
  rw [FecPacket.update, hbound, hsplit, List.getElem?_append_right (le_refl _), Nat.sub_self, List.map_append, hkept]
  have hasc := (List.pairwise_append.mp (hsplit ▸ h.ascending)).2.1
  cases back with
  | nil =>
      dsimp only [List.getElem?_nil]
      rw [List.map_nil, ← hsplit]
  | cons p back =>
      have hothers : s.rank packet.seqNum ≤ s.rank p.seqNum := hback p List.mem_cons_self
      have hrest : back.map (fill packet) = back := by
        refine (List.map_congr_left fun p' hp' => ?_).trans (List.map_id back)
        apply pkt_fill_of_ne
        intro heq
        have hrank := (List.pairwise_cons.mp hasc).1 p' hp'
        rw [heq] at hrank
        omega
      dsimp only [List.getElem?_cons_zero]
      rw [List.map_cons, hrest, fill]
      split_ifs with heq
      · rw [List.set_append_right _ _ (le_refl _), Nat.sub_self, List.set_cons_zero]
      · rw [← hsplit]

theorem FecOk.fill {fec : FecPacket} {packet : RecoveredPacket} (h : FecOk s fec) (hpacket : Known s packet.seqNum packet.pkt) :
    FecOk s { fec with protectedPktList := fec.protectedPktList.map (fill packet) } where
  ssrc := h.ssrc
  has p hp := by
    obtain ⟨p₀, hp₀, rfl⟩ := List.mem_map.mp hp
    rw [seqNum_fill]
    exact h.has p₀ hp₀
  protects := by
    have hsame : (fec.protectedPktList.map (Fec.fill packet)).map (fun p => s.content p.seqNum)
        = fec.protectedPktList.map fun p => s.content p.seqNum := by
      rw [List.map_map]
      exact List.map_congr_left fun p _ => congrArg s.content (seqNum_fill packet p)
    rw [hsame]
    exact h.protects
  known p hp q hq := by
    obtain ⟨p₀, hp₀, rfl⟩ := List.mem_map.mp hp
    rw [seqNum_fill]
    by_cases heq : p₀.seqNum = packet.seqNum
    · rw [Fec.fill, if_pos heq] at hq
      cases hq
      rw [heq]
      exact hpacket.2
    · rw [pkt_fill_of_ne heq] at hq
      exact h.known p₀ hp₀ q hq
  ascending := by
    rw [List.pairwise_map]
    exact h.ascending.imp fun hlt => by rwa [seqNum_fill, seqNum_fill]

/-- A packet that was not known enters both lists. -/
theorem Lists.push {fecs : List FecPacket} {recovered : List RecoveredPacket} {packet : RecoveredPacket}
    (h : Lists s fecs recovered) (hpacket : Known s packet.seqNum packet.pkt)
    (hnew : ∀ r ∈ recovered, r.seqNum ≠ packet.seqNum) :
    Lists s (updateCoveringFecPackets fecs packet) (sortRecovered (recovered ++ [packet])) where
  fecOk fec hfec := by
    obtain ⟨fec₀, hfec₀, rfl⟩ := List.mem_map.mp hfec
    rw [FecPacket.update_eq (h.fecOk fec₀ hfec₀) hpacket.1]
    exact (h.fecOk fec₀ hfec₀).fill hpacket
  recoveredOk := by
    have hknown : ∀ r ∈ recovered ++ [packet], Known s r.seqNum r.pkt := by
      intro r hr
      rcases List.mem_append.mp hr with hr | hr
      · exact h.recoveredOk.known r hr
      · rw [List.mem_singleton.mp hr]
        exact hpacket
    refine ⟨fun r hr => hknown r (List.mem_mergeSort.mp hr), ?_⟩
    have hless : ∀ r ∈ recovered ++ [packet], ∀ r' ∈ recovered ++ [packet],
        (lessThan r.seqNum r'.seqNum = true ↔ s.rank r.seqNum < s.rank r'.seqNum) :=
      fun r hr r' hr' => Stream.lessThan_iff (hknown r hr).1.rank_lt (hknown r' hr').1.rank_lt
    apply SortedRange.pairwise_lt_mergeSort hless
    · refine List.pairwise_append.mpr ⟨h.recoveredOk.ascending.imp fun hlt => hlt.ne, List.pairwise_singleton _ _, ?_⟩
      intro r hr r' hr'
      rw [List.mem_singleton.mp hr']
      exact fun heq => hnew r hr (Stream.rank_inj.mp heq)
  missing fec hfec p hp hnone r hr := by
    obtain ⟨fec₀, hfec₀, rfl⟩ := List.mem_map.mp hfec
    rw [FecPacket.update_eq (h.fecOk fec₀ hfec₀) hpacket.1] at hp
    obtain ⟨p₀, hp₀, rfl⟩ := List.mem_map.mp hp
    obtain ⟨hnone₀, hne⟩ := pkt_fill_eq_none_iff.mp hnone
    rw [seqNum_fill]
    rcases List.mem_append.mp (List.mem_mergeSort.mp hr) with hr | hr
    · exact h.missing fec₀ hfec₀ p₀ hp₀ hnone₀ r hr
    · rw [List.mem_singleton.mp hr]
      exact hne.symm

/-! ### `AssignRecoveredPackets` -/

/-- An entry of the list when some packets are known. -/
def fillAll (rs : List RecoveredPacket) (p : ProtectedPacket) : ProtectedPacket := rs.foldl (fun p r => fill r p) p

@[simp]
theorem seqNum_fillAll (rs : List RecoveredPacket) (p : ProtectedPacket) : (fillAll rs p).seqNum = p.seqNum := by
  induction rs generalizing p with
  | nil => rfl
  | cons r rs ih => exact (ih (fill r p)).trans (seqNum_fill r p)

theorem fillAll_of_ne {rs : List RecoveredPacket} {p : ProtectedPacket} (h : ∀ r ∈ rs, p.seqNum ≠ r.seqNum) :
    fillAll rs p = p := by
  induction rs with
  | nil => rfl
  | cons r rs ih =>
      rw [fillAll, List.foldl_cons, pkt_fill_of_ne (h r List.mem_cons_self)]
      exact ih fun r hr => h r (List.mem_cons_of_mem _ hr)

theorem pkt_fillAll_eq_none_iff {rs : List RecoveredPacket} {p : ProtectedPacket} :
    (fillAll rs p).pkt = none ↔ p.pkt = none ∧ ∀ r ∈ rs, p.seqNum ≠ r.seqNum := by
  induction rs generalizing p with
  | nil => simp [fillAll]
  | cons r rs ih =>
      rw [fillAll, List.foldl_cons, ← fillAll, ih, pkt_fill_eq_none_iff, seqNum_fill, List.forall_mem_cons, and_assoc]

/-- Each of the packets has an entry, so that the search comes to it. -/
theorem assignPackets_eq {ps : List ProtectedPacket} {rs : List RecoveredPacket}
    (hps : ps.Pairwise fun p p' => s.rank p.seqNum < s.rank p'.seqNum)
    (hrs : rs.Pairwise fun r r' => s.rank r.seqNum < s.rank r'.seqNum)
    (hmem : ∀ r ∈ rs, ∃ p ∈ ps, p.seqNum = r.seqNum) : assignPackets ps rs = .ok (ps.map (fillAll rs)) := by
  fun_induction assignPackets ps rs with
  | case1 ps => exact congrArg _ (List.map_id ps).symm
  | case2 r rs =>
      obtain ⟨p, hp, -⟩ := hmem r List.mem_cons_self
      exact absurd hp List.not_mem_nil
  | case3 p ps r rs heq ih =>
      have hrest : ps.map (fillAll (r :: rs)) = ps.map (fillAll rs) := by
        apply List.map_congr_left
        intro p' hp'
        have hlt := (List.pairwise_cons.mp hps).1 p' hp'
        rw [fillAll, List.foldl_cons, pkt_fill_of_ne]
        · rfl
        · intro hsame
          rw [hsame, ← heq] at hlt
          exact lt_irrefl _ hlt
      have hfirst : fillAll (r :: rs) p = fillAll rs { p with pkt := some r.pkt } := by
        rw [fillAll, List.foldl_cons, fill, if_pos heq]
        rfl
      rw [List.map_cons, hfirst, hrest, ← List.map_cons]
      refine ih (List.pairwise_cons.mpr (List.pairwise_cons.mp hps)) (List.pairwise_cons.mp hrs).2 ?_
      intro r' hr'
      obtain ⟨p', hp', hsame⟩ := hmem r' (List.mem_cons_of_mem _ hr')
      rcases List.mem_cons.mp hp' with rfl | hp'
      · exact ⟨_, List.mem_cons_self, hsame⟩
      · exact ⟨p', List.mem_cons_of_mem _ hp', hsame⟩
  | case4 p ps r rs hne ih =>
      -- the entries of the packets all stand behind one that is before the first of them
      have hbehind : ∀ r' ∈ r :: rs, p.seqNum ≠ r'.seqNum := by
        intro r' hr'
        rcases List.mem_cons.mp hr' with rfl | hrest
        · exact hne
        · obtain ⟨p₁, hp₁, hsame⟩ := hmem r List.mem_cons_self
          rcases List.mem_cons.mp hp₁ with rfl | hp₁
          · exact absurd hsame hne
          · have hlt := (List.pairwise_cons.mp hps).1 p₁ hp₁
            have hlt' := (List.pairwise_cons.mp hrs).1 r' hrest
            rw [hsame] at hlt
            intro heq
            rw [← heq] at hlt'
            omega
      rw [ih (List.pairwise_cons.mp hps).2 hrs ?_, Checked.ok_bind, List.map_cons, fillAll_of_ne hbehind]
      · rfl
      · intro r' hr'
        obtain ⟨p', hp', hsame⟩ := hmem r' hr'
        rcases List.mem_cons.mp hp' with rfl | hp'
        · exact absurd hsame (hbehind r' hr')
        · exact ⟨p', hp', hsame⟩

theorem FecOk.fillAll {fec : FecPacket} {rs : List RecoveredPacket} (h : FecOk s fec)
    (hrs : ∀ r ∈ rs, Known s r.seqNum r.pkt) :
    FecOk s { fec with protectedPktList := fec.protectedPktList.map (fillAll rs) } := by
  induction rs generalizing fec with
  | nil =>
      have hsame : fec.protectedPktList.map (Fec.fillAll []) = fec.protectedPktList := List.map_id _
      rw [hsame]
      exact h
  | cons r rs ih =>
      have hrest := ih (h.fill (hrs r List.mem_cons_self)) fun r hr => hrs r (List.mem_cons_of_mem _ hr)
      rw [List.map_map] at hrest
      exact hrest

/-- The entries of the packets that have been recovered are filled. -/
theorem assignRecoveredPackets_spec {fec : FecPacket} {recovered : List RecoveredPacket} (h : FecOk s fec)
    (hrecovered : RecoveredOk s recovered) :
    ∃ rs, assignRecoveredPackets fec recovered = .ok { fec with protectedPktList := fec.protectedPktList.map (fillAll rs) }
      ∧ (∀ r ∈ rs, r ∈ recovered)
      ∧ ∀ p ∈ fec.protectedPktList, (∀ r ∈ rs, p.seqNum ≠ r.seqNum) → ∀ r ∈ recovered, r.seqNum ≠ p.seqNum := by
  have hlt : ∀ r ∈ recovered, ∀ p ∈ fec.protectedPktList,
      (lessThan r.seqNum p.seqNum = true ↔ s.rank r.seqNum < s.rank p.seqNum)
      ∧ (lessThan p.seqNum r.seqNum = true ↔ s.rank p.seqNum < s.rank r.seqNum) := by
    intro r hr p hp
    have hr' := (hrecovered.known r hr).1.rank_lt
    have hp' := (h.has p hp).rank_lt
    exact ⟨Stream.lessThan_iff hr' hp', Stream.lessThan_iff hp' hr'⟩
  have hfilter : SortedRange.setIntersection (fun (r : RecoveredPacket) (p : ProtectedPacket) =>
      lessThan r.seqNum p.seqNum) (fun p r => lessThan p.seqNum r.seqNum) recovered fec.protectedPktList
      = recovered.filter fun r => fec.protectedPktList.any fun p => decide (s.rank p.seqNum = s.rank r.seqNum) :=
    SortedRange.setIntersection_eq_filter (fun r hr p hp => (hlt r hr p hp).1) (fun r hr p hp => (hlt r hr p hp).2)
      hrecovered.ascending h.ascending
  have hmem : ∀ r, (r ∈ recovered ∧ ∃ p ∈ fec.protectedPktList, p.seqNum = r.seqNum) ↔
      r ∈ recovered.filter fun r => fec.protectedPktList.any fun p => decide (s.rank p.seqNum = s.rank r.seqNum) := by
    intro r
    simp only [List.mem_filter, List.any_eq_true, decide_eq_true_eq, Stream.rank_inj]
  refine ⟨_, ?_, fun r hr => ((hmem r).mpr hr).1, fun p hp hnone r hr heq => ?_⟩
  · rw [assignRecoveredPackets, hfilter, assignPackets_eq h.ascending (hrecovered.ascending.sublist List.filter_sublist)
      fun r hr => ((hmem r).mpr hr).2]
    rfl
  · exact hnone r ((hmem r).mp ⟨hr, p, hp, heq.symm⟩) heq.symm

end Licode.Media.Fec
