import Licode.Media.FecInvariant

/-!
# What the decoder recovers

Every operation of the decoder keeps its lists in order when it is given packets of one stream, comes to
its end and stays within the arrays. So what a receiver calls back for, over any run and whatever
is lost, repeated or late, are packets that were sent.
-/

namespace Licode.Media.Fec

open Overlay

variable {s : Stream}

/-! ### A new FEC packet -/

/-- An FEC packet of the stream: it protects packets that are sent. -/
structure IsFec (s : Stream) (ssrc : UInt32) (pkt : Packet) : Prop where
  ssrc : ssrc = s.ssrc
  has : ∀ p ∈ protectedPackets pkt, s.Has p.seqNum
  protects : Protects pkt ((protectedPackets pkt).map fun p => s.content p.seqNum)

theorem lt_of_mem_maskOffsets {pkt : Packet} {i : Nat} (h : i ∈ maskOffsets pkt.mask) : i < 48 := by
  have hmem := List.mem_range.mp (List.mem_of_mem_filter h)
  have hlen : pkt.mask.length ≤ 6 := by
    refine (List.length_take_le _ _).trans ?_
    rw [maskSize]
    cases lBitSet pkt <;> decide
  omega

/-- The numbers that a mask selects do not wrap around the base of the stream. -/
theorem Stream.rank_add_lt {n : UInt16} {i j : Nat} (hij : i < j) (hj : j < 48)
    (hi : s.rank (n + .ofNat i) < 2 ^ 15) (hj' : s.rank (n + .ofNat j) < 2 ^ 15) :
    s.rank (n + .ofNat i) < s.rank (n + .ofNat j) := by
  have hn := n.toNat_lt
  have hbase := s.base.toNat_lt
  rw [rank, UInt16.toNat_sub, UInt16.toNat_add, UInt16.toNat_ofNat'] at hi hj' ⊢
  rw [rank, UInt16.toNat_sub, UInt16.toNat_add, UInt16.toNat_ofNat']
  omega

theorem IsFec.ok {ssrc : UInt32} {pkt : Packet} (h : IsFec s ssrc pkt) (seqNum : UInt16) :
    FecOk s ⟨seqNum, protectedPackets pkt, ssrc, pkt⟩ where
  ssrc := h.ssrc
  has := h.has
  protects := h.protects
  known p hp q hq := by
    obtain ⟨i, -, rfl⟩ := List.mem_map.mp hp
    cases hq
  ascending := by
    have hhas := h.has
    rw [protectedPackets] at hhas
    rw [protectedPackets, List.pairwise_map]
    have hsorted : (maskOffsets pkt.mask).Pairwise (· < ·) := List.pairwise_lt_range.sublist List.filter_sublist
    refine hsorted.imp_of_mem fun hi hj hij => ?_
    exact Stream.rank_add_lt hij (lt_of_mem_maskOffsets hj) (hhas _ (List.mem_map_of_mem hi)).rank_lt
      (hhas _ (List.mem_map_of_mem hj)).rank_lt

/-- What becomes of an FEC packet: it is dropped, or it enters the list, perhaps in the place of another. -/
theorem insertFecPacket_cases {f : ForwardErrorCorrection} {rx : ReceivedPacket} {recovered : List RecoveredPacket}
    (h : Lists s f.fecPacketList recovered) (hrx : IsFec s rx.ssrc rx.pkt) :
    (f.insertFecPacket rx recovered = .ok { f with fecPacketReceived := true }
        ∧ ((∃ fec ∈ f.fecPacketList, fec.seqNum = rx.seqNum) ∨ protectedPackets rx.pkt = []))
      ∨ ∃ fec fecs, f.insertFecPacket rx recovered
          = .ok ⟨if fecs.length > kMaxFecPackets then fecs.tail else fecs, true⟩
        ∧ fecs.Perm (f.fecPacketList ++ [fec]) ∧ (∀ fec ∈ f.fecPacketList, fec.seqNum ≠ rx.seqNum)
        ∧ fec.seqNum = rx.seqNum ∧ fec.pkt = rx.pkt
        ∧ fec.protectedPktList.map ProtectedPacket.seqNum = (protectedPackets rx.pkt).map ProtectedPacket.seqNum
        ∧ (∀ p ∈ fec.protectedPktList, p.pkt ≠ none → ∃ r ∈ recovered, r.seqNum = p.seqNum)
        ∧ Lists s (f.fecPacketList ++ [fec]) recovered := by
  rw [ForwardErrorCorrection.insertFecPacket]
  by_cases hdup : (f.fecPacketList.any fun fec => decide (fec.seqNum = rx.seqNum)) = true
  · rw [if_pos hdup]
    obtain ⟨fec, hfec, hseq⟩ := List.any_eq_true.mp hdup
    exact .inl ⟨rfl, .inl ⟨fec, hfec, of_decide_eq_true hseq⟩⟩
  · rw [if_neg hdup]
    by_cases hempty : protectedPackets rx.pkt = []
    · rw [if_pos hempty]
      exact .inl ⟨rfl, .inr hempty⟩
    · rw [if_neg hempty]
      have hok := hrx.ok rx.seqNum
      obtain ⟨rs, hassign, hrs, hmissing⟩ := assignRecoveredPackets_spec hok h.recoveredOk
      let fec : FecPacket := ⟨rx.seqNum, (protectedPackets rx.pkt).map (fillAll rs), rx.ssrc, rx.pkt⟩
      refine .inr ⟨fec, sortFec (f.fecPacketList ++ [fec]), ?_, List.mergeSort_perm _ _, ?_, rfl, rfl, ?_, ?_, ?_⟩
      · rw [hassign]
        rfl
      · intro fec hfec hseq
        exact hdup (List.any_eq_true.mpr ⟨fec, hfec, decide_eq_true hseq⟩)
      · rw [List.map_map]
        exact List.map_congr_left fun p _ => seqNum_fillAll rs p
      · intro p hp hsome
        obtain ⟨p₀, hp₀, rfl⟩ := List.mem_map.mp hp
        rw [seqNum_fillAll]
        have hnone : p₀.pkt = none := by
          obtain ⟨i, -, rfl⟩ := List.mem_map.mp hp₀
          rfl
        by_contra hnot
        refine hsome (pkt_fillAll_eq_none_iff.mpr ⟨hnone, fun r hr heq => hnot ⟨r, hrs r hr, heq.symm⟩⟩)
      · have hnew := hok.fillAll fun r hr => h.recoveredOk.known r (hrs r hr)
        refine ⟨?_, h.recoveredOk, ?_⟩
        · intro fec hfec
          rcases List.mem_append.mp hfec with hfec | hfec
          · exact h.fecOk fec hfec
          · rw [List.mem_singleton.mp hfec]
            exact hnew
        · intro fec hfec p hp hnone r hr
          rcases List.mem_append.mp hfec with hfec | hfec
          · exact h.missing fec hfec p hp hnone r hr
          · rw [List.mem_singleton.mp hfec] at hp
            obtain ⟨p₀, hp₀, rfl⟩ := List.mem_map.mp hp
            rw [seqNum_fillAll]
            exact hmissing p₀ hp₀ (pkt_fillAll_eq_none_iff.mp hnone).2 r hr

/-! ### What is received -/

/-- A packet that the receiver has taken out of a RED packet of the stream. -/
structure ReceivedOk (s : Stream) (rx : ReceivedPacket) : Prop where
  media : rx.isFec = false → Known s rx.seqNum rx.pkt
  fec : rx.isFec = true → IsFec s rx.ssrc rx.pkt

theorem insertMediaPacket_lists {f : ForwardErrorCorrection} {rx : ReceivedPacket} {recovered : List RecoveredPacket}
    (h : Lists s f.fecPacketList recovered) (hrx : Known s rx.seqNum rx.pkt) :
    Lists s (f.insertMediaPacket rx recovered).1.fecPacketList (f.insertMediaPacket rx recovered).2 := by
  rw [ForwardErrorCorrection.insertMediaPacket]
  split_ifs with hdup
  · exact h
  · refine h.push hrx fun r hr hseq => hdup ?_
    exact List.any_eq_true.mpr ⟨r, hr, decide_eq_true hseq⟩

theorem discardOldest_sublist (f : ForwardErrorCorrection) (rx : ReceivedPacket) :
    ∀ fec ∈ (f.discardOldest rx).fecPacketList, fec ∈ f.fecPacketList := by
  intro fec hfec
  rw [ForwardErrorCorrection.discardOldest] at hfec
  split at hfec
  · exact hfec
  next hlist =>
    split_ifs at hfec
    · rw [hlist]
      exact List.mem_cons_of_mem _ hfec
    · exact hfec

theorem insertPacket_lists {f : ForwardErrorCorrection} {rx : ReceivedPacket} {recovered : List RecoveredPacket}
    (h : Lists s f.fecPacketList recovered) (hrx : ReceivedOk s rx) :
    ∃ f' recovered', f.insertPacket rx recovered = .ok (f', recovered') ∧ Lists s f'.fecPacketList recovered' := by
  have h' := h.mono (discardOldest_sublist f rx)
  rw [ForwardErrorCorrection.insertPacket]
  cases hkind : rx.isFec with
  | false => exact ⟨_, _, rfl, insertMediaPacket_lists h' (hrx.media hkind)⟩
  | true =>
      obtain ⟨hinsert, -⟩ | ⟨fec, fecs, hinsert, hperm, -, -, -, -, -, hlists⟩ :=
        insertFecPacket_cases h' (hrx.fec hkind)
      · exact ⟨⟨(f.discardOldest rx).fecPacketList, true⟩, recovered, by rw [if_pos rfl, hinsert]; rfl, h'⟩
      · refine ⟨_, _, by rw [if_pos rfl, hinsert]; rfl, hlists.mono fun fec hfec => ?_⟩
        have hmem : fec ∈ fecs := by
          dsimp only at hfec
          split_ifs at hfec
          · exact List.mem_of_mem_tail hfec
          · exact hfec
        exact hperm.subset hmem

theorem insertAll_lists {f : ForwardErrorCorrection} {received : List ReceivedPacket} {recovered : List RecoveredPacket}
    (h : Lists s f.fecPacketList recovered) (hreceived : ∀ rx ∈ received, ReceivedOk s rx) :
    ∃ f' recovered', f.insertAll received recovered = .ok (f', recovered') ∧ Lists s f'.fecPacketList recovered' := by
  induction received generalizing f recovered with
  | nil => exact ⟨f, recovered, rfl, h⟩
  | cons rx received ih =>
      obtain ⟨f₁, recovered₁, hinsert, h₁⟩ := insertPacket_lists h (hreceived rx List.mem_cons_self)
      obtain ⟨f', recovered', hrest, h'⟩ := ih h₁ fun rx hrx => hreceived rx (List.mem_cons_of_mem _ hrx)
      refine ⟨f', recovered', ?_, h'⟩
      rw [ForwardErrorCorrection.insertAll, hinsert, Checked.ok_bind, hrest]

/-! ### `AttemptRecover` -/

/-- The FEC packets on whose account the loop goes on are those that lack two packets or more. -/
def Stuck (fec : FecPacket) : Prop := numCoveredPacketsMissing fec ≠ 0 ∧ numCoveredPacketsMissing fec ≠ 1

/-- What holds of the lists, and is kept when an FEC packet that lacks one packet gives it and when one that lacks
none is dropped, holds at the end of the loop, where all FEC packets are stuck. -/
theorem attemptRecoverFrom_induct {P : List FecPacket → List RecoveredPacket → Prop}
    (hrecover : ∀ before fec rest recovered, P (before ++ fec :: rest) recovered → numCoveredPacketsMissing fec = 1 →
      ∃ packet, recoverPacket fec = .ok packet ∧ P (updateCoveringFecPackets (before ++ rest) packet)
        (discardOldPackets (sortRecovered (recovered ++ [packet]))))
    (hdrop : ∀ before fec rest recovered, P (before ++ fec :: rest) recovered → numCoveredPacketsMissing fec = 0 →
      P (before ++ rest) recovered)
    {before rest : List FecPacket} {recovered : List RecoveredPacket} (h : P (before ++ rest) recovered)
    (hbefore : ∀ fec ∈ before, Stuck fec) :
    ∃ fecs recovered', ForwardErrorCorrection.attemptRecoverFrom before rest recovered = .ok (fecs, recovered')
      ∧ P fecs recovered' ∧ ∀ fec ∈ fecs, Stuck fec := by
  induction before, rest, recovered using ForwardErrorCorrection.attemptRecoverFrom.induct with
  | case1 before recovered =>
      rw [List.append_nil] at h
      exact ⟨before, recovered, by rw [ForwardErrorCorrection.attemptRecoverFrom], h, hbefore⟩
  | case2 before recovered fec rest hone ih =>
      obtain ⟨packet, hpacket, hnext⟩ := hrecover before fec rest recovered h hone
      obtain ⟨fecs, recovered', hrun, hresult⟩ := ih packet hnext (by simp)
      refine ⟨fecs, recovered', ?_, hresult⟩
      rw [ForwardErrorCorrection.attemptRecoverFrom, if_pos hone, hpacket, Checked.ok_bind]
      exact hrun
  | case3 before recovered fec rest hone hzero ih =>
      obtain ⟨fecs, recovered', hrun, hresult⟩ := ih (hdrop before fec rest recovered h hzero) hbefore
      exact ⟨fecs, recovered', by rw [ForwardErrorCorrection.attemptRecoverFrom, if_neg hone, if_pos hzero, hrun], hresult⟩
  | case4 before recovered fec rest hone hzero ih =>
      obtain ⟨fecs, recovered', hrun, hresult⟩ := ih (by rwa [List.append_assoc]) (by
        intro fec' hfec'
        rcases List.mem_append.mp hfec' with hfec' | hfec'
        · exact hbefore fec' hfec'
        · rw [List.mem_singleton.mp hfec']
          exact ⟨hzero, hone⟩)
      exact ⟨fecs, recovered', by rw [ForwardErrorCorrection.attemptRecoverFrom, if_neg hone, if_neg hzero, hrun], hresult⟩

theorem Lists.erase {before rest : List FecPacket} {fec : FecPacket} {recovered : List RecoveredPacket}
    (h : Lists s (before ++ fec :: rest) recovered) : Lists s (before ++ rest) recovered := by
  apply h.mono
  intro fec' hfec'
  rcases List.mem_append.mp hfec' with hfec' | hfec'
  · exact List.mem_append_left _ hfec'
  · exact List.mem_append_right _ (List.mem_cons_of_mem _ hfec')

/-- The packet that an FEC packet in the lists gives is the one that was sent, and is not known yet. -/
theorem Lists.recover {before rest : List FecPacket} {fec : FecPacket} {recovered : List RecoveredPacket}
    (h : Lists s (before ++ fec :: rest) recovered) (hone : numCoveredPacketsMissing fec = 1) :
    ∃ packet, recoverPacket fec = .ok packet ∧ packet.returned = false ∧ Known s packet.seqNum packet.pkt
      ∧ (∀ r ∈ recovered, r.seqNum ≠ packet.seqNum)
      ∧ ∃ p ∈ fec.protectedPktList, p.seqNum = packet.seqNum
        ∧ (fec.protectedPktList.filter fun p => p.pkt.isNone) = [p] := by
  have hmem : fec ∈ before ++ fec :: rest := List.mem_append_right _ List.mem_cons_self
  have hfec := h.fecOk fec hmem
  have hmedia : ∀ p ∈ fec.protectedPktList, IsMedia fec.ssrc p.seqNum (s.content p.seqNum) := by
    intro p hp
    rw [hfec.ssrc]
    exact (hfec.has p hp).isMedia
  obtain ⟨p, hp, hnone, hfilter, packet, hrecover, hseq, -, hreturned, hcarries⟩ :=
    recoverPacket_spec hfec.protects hmedia hfec.known hone
  refine ⟨packet, hrecover, hreturned, ⟨?_, ?_⟩, fun r hr => ?_, p, hp, hseq.symm, hfilter⟩
  · rw [hseq]
    exact hfec.has p hp
  · rw [hseq]
    exact hcarries
  · rw [hseq]
    exact h.missing fec hmem p hp hnone r hr

theorem attemptRecover_lists {f : ForwardErrorCorrection} {recovered : List RecoveredPacket}
    (h : Lists s f.fecPacketList recovered) :
    ∃ f' recovered', f.attemptRecover recovered = .ok (f', recovered') ∧ Lists s f'.fecPacketList recovered' := by
  have hstart : Lists s ([] ++ f.fecPacketList) recovered := h
  obtain ⟨fecs, recovered', hrun, hlists, -⟩ := attemptRecoverFrom_induct (fun before fec rest recovered h hone => by
      obtain ⟨packet, hpacket, -, hknown, hnew, -⟩ := h.recover hone
      exact ⟨packet, hpacket, (h.erase.push hknown hnew).drop (discardOldPackets_sublist _)⟩)
    (fun before fec rest recovered h _ => h.erase) hstart (by simp)
  exact ⟨_, recovered', by rw [ForwardErrorCorrection.attemptRecover, hrun]; rfl, hlists⟩

/-- One call of the decoder. -/
theorem decodeFec_lists {f : ForwardErrorCorrection} {received : List ReceivedPacket} {recovered : List RecoveredPacket}
    (h : Lists s f.fecPacketList recovered) (hne : received ≠ []) (hreceived : ∀ rx ∈ received, ReceivedOk s rx) :
    ∃ f' recovered', f.decodeFec received recovered = .ok (f', recovered') ∧ Lists s f'.fecPacketList recovered' := by
  have hstart : ∃ start : ForwardErrorCorrection × List RecoveredPacket,
      f.decodeFec received recovered = (start.1.insertPackets received start.2 >>= fun inserted =>
        inserted.1.attemptRecover inserted.2) ∧ Lists s start.1.fecPacketList start.2 := by
    rw [ForwardErrorCorrection.decodeFec]
    by_cases hfull : recovered.length = kMaxMediaPackets
    · obtain ⟨front, rest, rfl⟩ := List.exists_cons_of_ne_nil hne
      have hback : recovered ≠ [] := by
        rintro rfl
        exact absurd hfull (by decide)
      rw [if_pos hfull, List.head?_cons, List.getLast?_eq_getLast_of_ne_nil hback]
      refine ⟨_, rfl, ?_⟩
      split_ifs
      · exact lists_nil
      · exact h
    · rw [if_neg hfull]
      exact ⟨(f, recovered), rfl, h⟩
  obtain ⟨start, hdecode, hlists⟩ := hstart
  obtain ⟨f₁, recovered₁, hinsert, h₁⟩ := insertAll_lists hlists hreceived
  obtain ⟨f', recovered', hattempt, h'⟩ := attemptRecover_lists (h₁.drop (discardOldPackets_sublist _))
  refine ⟨f', recovered', ?_, h'⟩
  rw [hdecode, ForwardErrorCorrection.insertPackets, hinsert]
  exact hattempt

end Licode.Media.Fec
