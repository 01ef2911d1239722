import Licode.Lib.Peeling
import Licode.Media.FecRun

/-!
# All that can be recovered

A stream of at most 48 packets with at most 48 FEC packets is what the decoder has room for. Whichever of
them come, and in whatever order, the receiver has called back in the end for those packets that peeling
finds from the ones that came: it misses none of them.

The invariant is that a list of the decoder has what was found, and that every FEC packet that came is
complete or still in the other list. Where the loop of `AttemptRecover` ends, those in the list are stuck.
-/

namespace Licode.Media.Fec

open Overlay

variable {s : Stream}

/-- A packet of one of the two kinds, by its number. -/
inductive Arrival
  | media (n : UInt16)
  | fec (k : UInt16)
  deriving DecidableEq

/-- A short stream with its FEC packets. Their numbers are near those of the stream and near each other. -/
structure Batch (s : Stream) where
  numbers : List UInt16
  all : ∀ n, s.Has n → n ∈ numbers
  few : numbers.length ≤ kMaxMediaPackets
  fecNumbers : List UInt16
  fewFecs : fecNumbers.length ≤ kMaxFecPackets
  body : UInt16 → List UInt8
  isFec : ∀ k ∈ fecNumbers, IsFec s s.ssrc (fecPacketOf (body k))
  near : ∀ n ∈ numbers ++ fecNumbers, ∀ k ∈ fecNumbers, ((n.toNat : Int) - k.toNat).natAbs ≤ 0x3fff

namespace Batch

variable (b : Batch s)

/-- The numbers of the packets that an FEC packet protects. -/
def group (k : UInt16) : List UInt16 := (protectedPackets (fecPacketOf (b.body k))).map ProtectedPacket.seqNum

def groups (arrivals : List Arrival) : Set (List UInt16) := {g | ∃ k, .fec k ∈ arrivals ∧ g = b.group k}

/-- The RED packet of an arrival. -/
def Brings : Arrival → Datagram → Prop
  | .media n, d => s.SendsMedia n d
  | .fec k, d => k ∈ b.fecNumbers ∧ getSeqNumber d.buf = k ∧ ∃ header, s.SendsFec header (b.body k) d

/-- What can be recovered from what has come. -/
def Recovers (arrivals : List Arrival) (n : UInt16) : Prop :=
  Peeling.Recoverable (b.groups arrivals) {n | .media n ∈ arrivals} n

variable {b}

theorem Recovers.mono {arrivals : List Arrival} {n : UInt16} (h : b.Recovers arrivals n) (a : Arrival) :
    b.Recovers (arrivals ++ [a]) n := by
  refine Peeling.Recoverable.mono h ?_ fun n hn => List.mem_append_left _ hn
  rintro g ⟨k, hk, rfl⟩
  exact ⟨k, List.mem_append_left _ hk, rfl⟩

end Batch

/-- A packet with this number is in the list. -/
def Found (recovered : List RecoveredPacket) (n : UInt16) : Prop := ∃ r ∈ recovered, r.seqNum = n

theorem found_push {recovered : List RecoveredPacket} {packet : RecoveredPacket} {n : UInt16} :
    Found (sortRecovered (recovered ++ [packet])) n ↔ Found recovered n ∨ n = packet.seqNum := by
  constructor
  · rintro ⟨r, hr, rfl⟩
    rcases List.mem_append.mp (List.mem_mergeSort.mp hr) with hr | hr
    · exact .inl ⟨r, hr, rfl⟩
    · exact .inr (by rw [List.mem_singleton.mp hr])
  · rintro (⟨r, hr, rfl⟩ | rfl)
    · exact ⟨r, List.mem_mergeSort.mpr (List.mem_append_left _ hr), rfl⟩
    · exact ⟨packet, List.mem_mergeSort.mpr (List.mem_append_right _ (List.mem_singleton_self _)), rfl⟩

/-- The lists of the decoder when these arrivals have come, and packets with the numbers of `handed` have been
called back for. -/
structure Holds (b : Batch s) (arrivals : List Arrival) (handed : Set UInt16) (fecs : List FecPacket)
    (recovered : List RecoveredPacket) : Prop where
  lists : Lists s fecs recovered
  sound : ∀ r ∈ recovered, b.Recovers arrivals r.seqNum
  known : ∀ n ∈ handed, Found recovered n
  returned : ∀ r ∈ recovered, r.returned = true → r.seqNum ∈ handed
  marked : ∀ fec ∈ fecs, ∀ p ∈ fec.protectedPktList, p.pkt ≠ none → Found recovered p.seqNum
  came : ∀ fec ∈ fecs, fec.seqNum ∈ b.fecNumbers ∧ .fec fec.seqNum ∈ arrivals
  covers : ∀ fec ∈ fecs, fec.protectedPktList.map ProtectedPacket.seqNum = b.group fec.seqNum
  distinct : (fecs.map FecPacket.seqNum).Nodup
  kept : ∀ k, .fec k ∈ arrivals → (∀ n ∈ b.group k, Found recovered n) ∨ ∃ fec ∈ fecs, fec.seqNum = k

namespace Holds

variable {b : Batch s} {arrivals : List Arrival} {handed handed' : Set UInt16} {fecs : List FecPacket}
  {recovered : List RecoveredPacket}

theorem nil : Holds b [] ∅ [] [] where
  lists := lists_nil
  sound := by simp
  known := by simp
  returned := by simp
  marked := by simp
  came := by simp
  covers := by simp
  distinct := List.nodup_nil
  kept := by simp

theorem subperm (h : Holds b arrivals handed fecs recovered) :
    List.Subperm (recovered.map RecoveredPacket.seqNum) b.numbers := by
  have hnodup : (recovered.map RecoveredPacket.seqNum).Nodup := by
    rw [List.Nodup, List.pairwise_map]
    refine h.lists.recoveredOk.ascending.imp fun hlt heq => ?_
    rw [heq] at hlt
    exact lt_irrefl _ hlt
  have hsub : recovered.map RecoveredPacket.seqNum ⊆ b.numbers := by
    intro n hn
    obtain ⟨r, hr, rfl⟩ := List.mem_map.mp hn
    exact b.all _ (h.lists.recoveredOk.known r hr).1
  exact List.subperm_of_subset hnodup hsub

/-- The list of recovered packets has room for the stream. -/
theorem length_le (h : Holds b arrivals handed fecs recovered) : recovered.length ≤ b.numbers.length := by
  have hle := h.subperm.length_le
  rwa [List.length_map] at hle

theorem discardOldPackets_eq (h : Holds b arrivals handed fecs recovered) : discardOldPackets recovered = recovered := by
  have hfew := b.few
  have hle := h.length_le
  rw [discardOldPackets, Nat.sub_eq_zero_of_le (hle.trans hfew), List.drop_zero]

/-- The other list has room for the FEC packets. -/
theorem length_fecs_le (h : Holds b arrivals handed fecs recovered) : fecs.length ≤ kMaxFecPackets := by
  have hsub : fecs.map FecPacket.seqNum ⊆ b.fecNumbers := by
    intro k hk
    obtain ⟨fec, hfec, rfl⟩ := List.mem_map.mp hk
    exact (h.came fec hfec).1
  have hle := (List.subperm_of_subset h.distinct hsub).length_le
  rw [List.length_map] at hle
  exact hle.trans b.fewFecs

theorem found_has (h : Holds b arrivals handed fecs recovered) {n : UInt16} (hn : Found recovered n) : s.Has n := by
  obtain ⟨r, hr, rfl⟩ := hn
  exact (h.lists.recoveredOk.known r hr).1

theorem found_recovers (h : Holds b arrivals handed fecs recovered) {n : UInt16} (hn : Found recovered n) :
    b.Recovers arrivals n := by
  obtain ⟨r, hr, rfl⟩ := hn
  exact h.sound r hr

/-- An FEC packet that lacks nothing may go. -/
theorem erase {before rest : List FecPacket} {fec : FecPacket}
    (h : Holds b arrivals handed (before ++ fec :: rest) recovered)
    (hall : ∀ p ∈ fec.protectedPktList, Found recovered p.seqNum) : Holds b arrivals handed (before ++ rest) recovered := by
  have hmem : ∀ fec' ∈ before ++ rest, fec' ∈ before ++ fec :: rest := by
    intro fec' hfec'
    rcases List.mem_append.mp hfec' with hfec' | hfec'
    · exact List.mem_append_left _ hfec'
    · exact List.mem_append_right _ (List.mem_cons_of_mem _ hfec')
  exact {
    lists := h.lists.erase
    sound := h.sound
    known := h.known
    returned := h.returned
    marked := fun fec' hfec' => h.marked fec' (hmem fec' hfec')
    came := fun fec' hfec' => h.came fec' (hmem fec' hfec')
    covers := fun fec' hfec' => h.covers fec' (hmem fec' hfec')
    distinct := by
      have hsub : (before ++ rest).Sublist (before ++ fec :: rest) :=
        List.Sublist.append_left (List.sublist_cons_self fec rest) before
      exact h.distinct.sublist (hsub.map FecPacket.seqNum)
    kept := fun k hk => by
      rcases h.kept k hk with hfound | ⟨fec', hfec', rfl⟩
      · exact .inl hfound
      · rcases List.mem_append.mp hfec' with hfec' | hfec'
        · exact .inr ⟨fec', List.mem_append_left _ hfec', rfl⟩
        · rcases List.mem_cons.mp hfec' with rfl | hfec'
          · refine .inl fun n hn => ?_
            rw [← h.covers fec' (List.mem_append_right _ List.mem_cons_self)] at hn
            obtain ⟨p, hp, rfl⟩ := List.mem_map.mp hn
            exact hall p hp
          · exact .inr ⟨fec', List.mem_append_right _ hfec', rfl⟩ }

/-- A packet that was not known and can be recovered enters the list. -/
theorem push {packet : RecoveredPacket} (h : Holds b arrivals handed fecs recovered)
    (hpacket : Known s packet.seqNum packet.pkt) (hnew : ∀ r ∈ recovered, r.seqNum ≠ packet.seqNum)
    (hsound : b.Recovers arrivals packet.seqNum) (hkeep : handed ⊆ handed')
    (hmore : ∀ n ∈ handed', n ∈ handed ∨ n = packet.seqNum)
    (hreturned : packet.returned = true → packet.seqNum ∈ handed') :
    Holds b arrivals handed' (updateCoveringFecPackets fecs packet) (sortRecovered (recovered ++ [packet])) := by
  have hmem : ∀ fec ∈ updateCoveringFecPackets fecs packet, ∃ fec₀ ∈ fecs,
      fec = { fec₀ with protectedPktList := fec₀.protectedPktList.map (fill packet) } := by
    intro fec hfec
    obtain ⟨fec₀, hfec₀, rfl⟩ := List.mem_map.mp hfec
    exact ⟨fec₀, hfec₀, FecPacket.update_eq (h.lists.fecOk fec₀ hfec₀) hpacket.1⟩
  have hnumbers : (updateCoveringFecPackets fecs packet).map FecPacket.seqNum = fecs.map FecPacket.seqNum := by
    rw [updateCoveringFecPackets, List.map_map]
    refine List.map_congr_left fun fec hfec => ?_
    rw [Function.comp_apply, FecPacket.update_eq (h.lists.fecOk fec hfec) hpacket.1]
  exact {
    lists := h.lists.push hpacket hnew
    sound := fun r hr => by
      rcases found_push.mp ⟨r, hr, rfl⟩ with hfound | heq
      · exact h.found_recovers hfound
      · rw [heq]
        exact hsound
    known := fun n hn => found_push.mpr ((hmore n hn).imp (h.known n) id)
    returned := fun r hr htrue => by
      rcases List.mem_append.mp (List.mem_mergeSort.mp hr) with hr | hr
      · exact hkeep (h.returned r hr htrue)
      · rw [List.mem_singleton.mp hr] at htrue ⊢
        exact hreturned htrue
    marked := fun fec hfec p hp hsome => by
      obtain ⟨fec₀, hfec₀, rfl⟩ := hmem fec hfec
      obtain ⟨p₀, hp₀, rfl⟩ := List.mem_map.mp hp
      rw [seqNum_fill, found_push]
      by_cases hseq : p₀.seqNum = packet.seqNum
      · exact .inr hseq
      · rw [pkt_fill_of_ne hseq] at hsome
        exact .inl (h.marked fec₀ hfec₀ p₀ hp₀ hsome)
    came := fun fec hfec => by
      obtain ⟨fec₀, hfec₀, rfl⟩ := hmem fec hfec
      exact h.came fec₀ hfec₀
    covers := fun fec hfec => by
      obtain ⟨fec₀, hfec₀, rfl⟩ := hmem fec hfec
      rw [List.map_map]
      exact (List.map_congr_left fun p _ => seqNum_fill packet p).trans (h.covers fec₀ hfec₀)
    distinct := by rw [hnumbers]; exact h.distinct
    kept := fun k hk => by
      rcases h.kept k hk with hfound | ⟨fec, hfec, rfl⟩
      · exact .inl fun n hn => found_push.mpr (.inl (hfound n hn))
      · have hin : fec.seqNum ∈ (updateCoveringFecPackets fecs packet).map FecPacket.seqNum := by
          rw [hnumbers]
          exact List.mem_map_of_mem hfec
        exact .inr (List.mem_map.mp hin) }

/-- One more arrival. -/
theorem arrive (h : Holds b arrivals handed fecs recovered) (a : Arrival)
    (hfec : ∀ k, a = .fec k → (∀ n ∈ b.group k, Found recovered n) ∨ ∃ fec ∈ fecs, fec.seqNum = k) :
    Holds b (arrivals ++ [a]) handed fecs recovered where
  lists := h.lists
  sound r hr := (h.sound r hr).mono a
  known := h.known
  returned := h.returned
  marked := h.marked
  came fec hfec := ⟨(h.came fec hfec).1, List.mem_append_left _ (h.came fec hfec).2⟩
  covers := h.covers
  distinct := h.distinct
  kept k hk := by
    rcases List.mem_append.mp hk with hk | hk
    · exact h.kept k hk
    · exact hfec k (List.mem_singleton.mp hk).symm

/-- A new FEC packet enters the list. -/
theorem insert {k : UInt16} {fec : FecPacket} {fecs' : List FecPacket} (h : Holds b arrivals handed fecs recovered)
    (hk : k ∈ b.fecNumbers) (hperm : fecs'.Perm (fecs ++ [fec])) (hnew : ∀ fec ∈ fecs, fec.seqNum ≠ k)
    (hseq : fec.seqNum = k) (hgroup : fec.protectedPktList.map ProtectedPacket.seqNum = b.group k)
    (hmarked : ∀ p ∈ fec.protectedPktList, p.pkt ≠ none → Found recovered p.seqNum)
    (hlists : Lists s (fecs ++ [fec]) recovered) : Holds b (arrivals ++ [.fec k]) handed fecs' recovered := by
  have hmem : ∀ fec' ∈ fecs', fec' ∈ fecs ∨ fec' = fec := by
    intro fec' hfec'
    rcases List.mem_append.mp (hperm.subset hfec') with hfec' | hfec'
    · exact .inl hfec'
    · exact .inr (List.mem_singleton.mp hfec')
  have hin : fec ∈ fecs' := hperm.symm.subset (List.mem_append_right _ (List.mem_singleton_self _))
  exact {
    lists := hlists.mono fun fec' hfec' => hperm.subset hfec'
    sound := fun r hr => (h.sound r hr).mono (.fec k)
    known := h.known
    returned := h.returned
    marked := fun fec' hfec' => by
      rcases hmem fec' hfec' with hold | rfl
      · exact h.marked fec' hold
      · exact hmarked
    came := fun fec' hfec' => by
      rcases hmem fec' hfec' with hold | rfl
      · exact ⟨(h.came fec' hold).1, List.mem_append_left _ (h.came fec' hold).2⟩
      · rw [hseq]
        exact ⟨hk, List.mem_append_right _ (List.mem_singleton_self _)⟩
    covers := fun fec' hfec' => by
      rcases hmem fec' hfec' with hold | rfl
      · exact h.covers fec' hold
      · rw [hseq]
        exact hgroup
    distinct := by
      refine ((hperm.map FecPacket.seqNum).nodup_iff).mpr ?_
      rw [List.map_append, List.map_singleton, hseq]
      refine List.nodup_append.mpr ⟨h.distinct, List.nodup_singleton k, fun n hn n' hn' => ?_⟩
      obtain ⟨fec', hfec', rfl⟩ := List.mem_map.mp hn
      rw [List.mem_singleton.mp hn']
      exact hnew fec' hfec'
    kept := fun k' hk' => by
      rcases List.mem_append.mp hk' with hk' | hk'
      · rcases h.kept k' hk' with hfound | ⟨fec', hfec', rfl⟩
        · exact .inl hfound
        · exact .inr ⟨fec', hperm.symm.subset (List.mem_append_left _ hfec'), rfl⟩
      · cases List.mem_singleton.mp hk'
        exact .inr ⟨fec, hin, hseq⟩ }

/-! ### `AttemptRecover` -/

/-- An FEC packet that lacks one packet gives it, and is not needed any more. -/
theorem recover {before rest : List FecPacket} {fec : FecPacket}
    (h : Holds b arrivals handed (before ++ fec :: rest) recovered) (hone : numCoveredPacketsMissing fec = 1) :
    ∃ packet, recoverPacket fec = .ok packet ∧ Holds b arrivals handed (updateCoveringFecPackets (before ++ rest) packet)
      (discardOldPackets (sortRecovered (recovered ++ [packet]))) := by
  obtain ⟨packet, hrecover, hreturned, hpacket, hnew, p, hp, hseq, hfilter⟩ := h.lists.recover hone
  have hfec : fec ∈ before ++ fec :: rest := List.mem_append_right _ List.mem_cons_self
  -- the others of its group have all been found
  have hothers : ∀ p' ∈ fec.protectedPktList, p'.seqNum ≠ packet.seqNum → Found recovered p'.seqNum := by
    intro p' hp' hne
    refine h.marked fec hfec p' hp' fun hnone => hne ?_
    have hin : p' ∈ fec.protectedPktList.filter fun p => p.pkt.isNone :=
      List.mem_filter.mpr ⟨hp', by rw [hnone]; rfl⟩
    rw [hfilter] at hin
    rw [List.mem_singleton.mp hin, hseq]
  have hgroup : ∀ n ∈ b.group fec.seqNum, n ≠ packet.seqNum → Found recovered n := by
    intro n hn hne
    rw [← h.covers fec hfec] at hn
    obtain ⟨p', hp', rfl⟩ := List.mem_map.mp hn
    exact hothers p' hp' hne
  have hlast : packet.seqNum ∈ b.group fec.seqNum := by
    rw [← h.covers fec hfec, ← hseq]
    exact List.mem_map_of_mem hp
  have hsound : b.Recovers arrivals packet.seqNum :=
    .last ⟨fec.seqNum, (h.came fec hfec).2, rfl⟩ hlast fun n hn hne => h.found_recovers (hgroup n hn hne)
  have hpush := h.push hpacket hnew hsound (le_refl handed) (fun n hn => .inl hn) (by
    rw [hreturned]
    intro hfalse
    exact absurd hfalse Bool.false_ne_true)
  refine ⟨packet, hrecover, ?_⟩
  rw [hpush.discardOldPackets_eq]
  rw [updateCoveringFecPackets, List.map_append, List.map_cons] at hpush
  rw [updateCoveringFecPackets, List.map_append]
  refine hpush.erase fun p' hp' => ?_
  rw [FecPacket.update_eq (h.lists.fecOk fec hfec) hpacket.1] at hp'
  obtain ⟨p₀, hp₀, rfl⟩ := List.mem_map.mp hp'
  rw [seqNum_fill, found_push]
  by_cases heq : p₀.seqNum = packet.seqNum
  · exact .inr heq
  · exact .inl (hothers p₀ hp₀ heq)

/-- An FEC packet that lacks nothing is dropped. -/
theorem complete {before rest : List FecPacket} {fec : FecPacket}
    (h : Holds b arrivals handed (before ++ fec :: rest) recovered) (hzero : numCoveredPacketsMissing fec = 0) :
    Holds b arrivals handed (before ++ rest) recovered := by
  have hcount : (fec.protectedPktList.countP fun p => p.pkt.isNone) = 0 := by
    rw [numCoveredPacketsMissing] at hzero
    omega
  refine h.erase fun p hp => h.marked fec (List.mem_append_right _ List.mem_cons_self) p hp fun hnone => ?_
  exact List.countP_eq_zero.mp hcount p hp (by rw [hnone]; rfl)

theorem attemptRecover {f : ForwardErrorCorrection} (h : Holds b arrivals handed f.fecPacketList recovered) :
    ∃ f' recovered', f.attemptRecover recovered = .ok (f', recovered')
      ∧ Holds b arrivals handed f'.fecPacketList recovered' ∧ ∀ fec ∈ f'.fecPacketList, Stuck fec := by
  have hstart : Holds b arrivals handed ([] ++ f.fecPacketList) recovered := h
  obtain ⟨fecs, recovered', hrun, hend, hstuck⟩ := attemptRecoverFrom_induct
    (fun before fec rest recovered h hone => h.recover hone)
    (fun before fec rest recovered h hzero => h.complete hzero) hstart (by simp)
  exact ⟨_, recovered', by rw [ForwardErrorCorrection.attemptRecover, hrun]; rfl, hend, hstuck⟩

/-- Two packets of an FEC packet that is stuck are missing. -/
theorem two_of_stuck {fec : FecPacket} (h : Holds b arrivals handed fecs recovered) (hfec : fec ∈ fecs) (hstuck : Stuck fec) :
    ∃ n ∈ b.group fec.seqNum, ∃ n' ∈ b.group fec.seqNum, n ≠ n' ∧ ¬ Found recovered n ∧ ¬ Found recovered n' := by
  have hcount : 2 ≤ (fec.protectedPktList.filter fun p => p.pkt.isNone).length := by
    rw [← List.countP_eq_length_filter]
    obtain ⟨hzero, hone⟩ := hstuck
    rw [numCoveredPacketsMissing] at hzero hone
    omega
  have hsub : (fec.protectedPktList.filter fun p => p.pkt.isNone).Sublist fec.protectedPktList := List.filter_sublist
  have hasc := (h.lists.fecOk fec hfec).ascending.sublist hsub
  have hmissing : ∀ p ∈ fec.protectedPktList.filter fun p => p.pkt.isNone,
      p.seqNum ∈ b.group fec.seqNum ∧ ¬ Found recovered p.seqNum := by
    intro p hp
    obtain ⟨hmem, hnone⟩ := List.mem_filter.mp hp
    rw [← h.covers fec hfec]
    refine ⟨List.mem_map_of_mem hmem, fun hfound => ?_⟩
    obtain ⟨r, hr, hseq⟩ := hfound
    exact h.lists.missing fec hfec p hmem (Option.isNone_iff_eq_none.mp hnone) r hr hseq
  obtain ⟨p, tail, hlist⟩ := List.exists_cons_of_length_pos (Nat.lt_of_lt_of_le Nat.zero_lt_two hcount)
  rw [hlist, List.length_cons] at hcount
  obtain ⟨p', rest, rfl⟩ := List.exists_cons_of_length_pos (Nat.le_of_succ_le_succ hcount)
  rw [hlist] at hasc hmissing
  have hp := hmissing p List.mem_cons_self
  have hp' := hmissing p' (List.mem_cons_of_mem _ List.mem_cons_self)
  refine ⟨p.seqNum, hp.1, p'.seqNum, hp'.1, fun heq => ?_, hp.2, hp'.2⟩
  have hlt := (List.pairwise_cons.mp hasc).1 p' List.mem_cons_self
  rw [heq] at hlt
  exact lt_irrefl _ hlt

/-- Where all FEC packets are stuck, what was found is what can be recovered. -/
theorem found_iff (h : Holds b arrivals handed fecs recovered) (hstuck : ∀ fec ∈ fecs, Stuck fec)
    (hmedia : ∀ n, .media n ∈ arrivals → Found recovered n) (n : UInt16) : Found recovered n ↔ b.Recovers arrivals n := by
  refine Peeling.mem_iff_recoverable hmedia (fun n hn => h.found_recovers hn) ?_ n
  rintro group ⟨k, hk, rfl⟩
  rcases h.kept k hk with hall | ⟨fec, hfec, rfl⟩
  · exact .inl hall
  · exact .inr (h.two_of_stuck hfec (hstuck fec hfec))

/-! ### One call of the decoder -/

/-- Numbers that are near do not make the decoder discard an FEC packet. -/
theorem discardOldest_eq {f : ForwardErrorCorrection} {rx : ReceivedPacket}
    (h : Holds b arrivals handed f.fecPacketList recovered) (hnear : rx.seqNum ∈ b.numbers ++ b.fecNumbers) :
    f.discardOldest rx = f := by
  rw [ForwardErrorCorrection.discardOldest]
  split
  · rfl
  next fec rest hlist =>
    have hclose := b.near rx.seqNum hnear fec.seqNum (h.came fec (hlist ▸ List.mem_cons_self)).1
    exact if_neg (by omega)

theorem insertMedia {f : ForwardErrorCorrection} {rx : ReceivedPacket} (h : Holds b arrivals handed f.fecPacketList recovered)
    (hkind : rx.isFec = false) (hrx : Known s rx.seqNum rx.pkt) (hkeep : handed ⊆ handed')
    (hmore : ∀ n ∈ handed', n ∈ handed ∨ n = rx.seqNum) (hreturned : rx.seqNum ∈ handed') :
    ∃ f' recovered', f.insertPacket rx recovered = .ok (f', recovered')
      ∧ Holds b (arrivals ++ [.media rx.seqNum]) handed' f'.fecPacketList recovered' := by
  have harrive := h.arrive (.media rx.seqNum) (by simp)
  rw [ForwardErrorCorrection.insertPacket, h.discardOldest_eq (List.mem_append_left _ (b.all _ hrx.1)), hkind,
    if_neg Bool.false_ne_true]
  refine ⟨(f.insertMediaPacket rx recovered).1, (f.insertMediaPacket rx recovered).2, rfl, ?_⟩
  rw [ForwardErrorCorrection.insertMediaPacket]
  by_cases hdup : (recovered.any fun r => decide (r.seqNum = rx.seqNum)) = true
  · rw [if_pos hdup]
    obtain ⟨r, hr, hseq⟩ := List.any_eq_true.mp hdup
    have hfound : Found recovered rx.seqNum := ⟨r, hr, of_decide_eq_true hseq⟩
    refine { harrive with
      known := fun n hn => ?_
      returned := fun r hr htrue => hkeep (h.returned r hr htrue) }
    rcases hmore n hn with hn | rfl
    · exact h.known n hn
    · exact hfound
  · rw [if_neg hdup]
    refine harrive.push hrx (fun r hr hseq => hdup ?_) ?_ hkeep hmore fun _ => hreturned
    · exact List.any_eq_true.mpr ⟨r, hr, decide_eq_true hseq⟩
    · exact .known (List.mem_append_right _ (List.mem_singleton_self _))

theorem insertFec {f : ForwardErrorCorrection} {rx : ReceivedPacket} (h : Holds b arrivals handed f.fecPacketList recovered)
    (hkind : rx.isFec = true) (hk : rx.seqNum ∈ b.fecNumbers) (hrx : IsFec s rx.ssrc rx.pkt)
    (hpkt : rx.pkt = fecPacketOf (b.body rx.seqNum)) :
    ∃ f' recovered', f.insertPacket rx recovered = .ok (f', recovered')
      ∧ Holds b (arrivals ++ [.fec rx.seqNum]) handed f'.fecPacketList recovered' := by
  have hgroup : b.group rx.seqNum = (protectedPackets rx.pkt).map ProtectedPacket.seqNum := by rw [Batch.group, hpkt]
  rw [ForwardErrorCorrection.insertPacket, h.discardOldest_eq (List.mem_append_right _ hk), hkind, if_pos rfl]
  obtain ⟨hinsert, hcase⟩ | ⟨fec, fecs, hinsert, hperm, hnew, hseq, -, hcovers, hmarked, hlists⟩ :=
    insertFecPacket_cases h.lists hrx
  · refine ⟨⟨f.fecPacketList, true⟩, recovered, by rw [hinsert]; rfl, h.arrive (.fec rx.seqNum) fun k hk => ?_⟩
    cases hk
    rcases hcase with hdup | hempty
    · exact .inr hdup
    · rw [hgroup, hempty]
      exact .inl (by simp)
  · have hin := h.insert hk hperm hnew hseq (hcovers.trans hgroup.symm) hmarked hlists
    refine ⟨_, _, by rw [hinsert]; rfl, ?_⟩
    dsimp only
    rw [if_neg (not_lt.mpr hin.length_fecs_le)]
    exact hin

theorem decodeFec {f f₁ : ForwardErrorCorrection} {rx : ReceivedPacket} {recovered₁ : List RecoveredPacket}
    (hfull : recovered.length ≠ kMaxMediaPackets) (hinsert : f.insertPacket rx recovered = .ok (f₁, recovered₁))
    (h : Holds b arrivals handed f₁.fecPacketList recovered₁) :
    ∃ f' recovered', f.decodeFec [rx] recovered = .ok (f', recovered')
      ∧ Holds b arrivals handed f'.fecPacketList recovered' ∧ ∀ fec ∈ f'.fecPacketList, Stuck fec := by
  obtain ⟨f', recovered', hattempt, hend, hstuck⟩ := h.attemptRecover
  refine ⟨f', recovered', ?_, hend, hstuck⟩
  have hall : f.insertPackets [rx] recovered = .ok (f₁, recovered₁) := by
    rw [ForwardErrorCorrection.insertPackets, ForwardErrorCorrection.insertAll, hinsert, Checked.ok_bind,
      ForwardErrorCorrection.insertAll, Checked.ok_bind, h.discardOldPackets_eq]
    rfl
  rw [ForwardErrorCorrection.decodeFec, if_neg hfull, Checked.ok_bind]
  dsimp only
  rw [hall, Checked.ok_bind, hattempt]

end Holds

/-! ### The receiver -/

namespace FecReceiverImpl

theorem found_rest {recovered : List RecoveredPacket} {n : UInt16} :
    Found (recovered.map fun packet => { packet with returned := true }) n ↔ Found recovered n := by
  simp [Found]

/-- The receiver when these arrivals have come and it has called back for `out`. -/
structure Peeled (b : Batch s) (arrivals : List Arrival) (r : FecReceiverImpl) (out : List (List UInt8)) : Prop where
  idle : r.Idle s
  holds : Holds b arrivals {n | Found r.recoveredPacketList n} r.fec.fecPacketList r.recoveredPacketList
  stuck : ∀ fec ∈ r.fec.fecPacketList, Stuck fec
  media : ∀ n, .media n ∈ arrivals → Found r.recoveredPacketList n
  out : ∀ w, w ∈ out ↔ ∃ n, Found r.recoveredPacketList n ∧ s.content n = w

/-- The receiver when it has called back for the whole stream. -/
structure Whole (b : Batch s) (arrivals : List Arrival) (r : FecReceiverImpl) (out : List (List UInt8)) : Prop where
  idle : r.Idle s
  recovers : ∀ n, s.Has n → b.Recovers arrivals n
  out : ∀ w, w ∈ out ↔ ∃ n, s.sent n = some w

variable {b : Batch s} {arrivals : List Arrival} {r : FecReceiverImpl} {out : List (List UInt8)}

theorem peeled_create : Peeled b [] create [] where
  idle := idle_create
  holds := by
    have hempty : {n | Found create.recoveredPacketList n} = ∅ := by
      ext n
      simp [Found, create]
    rw [hempty]
    exact .nil
  stuck := by simp [create, ForwardErrorCorrection.create]
  media := by simp
  out := by simp [Found, create]

/-- A list that is full has the whole stream. -/
theorem Peeled.whole (h : Peeled b arrivals r out) (hfull : r.recoveredPacketList.length = kMaxMediaPackets) :
    Whole b arrivals r out := by
  have hfound : ∀ n, s.Has n → Found r.recoveredPacketList n := by
    intro n hn
    have hle := b.few
    have hperm := h.holds.subperm.perm_of_length_le (by rw [List.length_map, hfull]; exact hle)
    exact List.mem_map.mp (hperm.symm.subset (b.all n hn))
  refine ⟨h.idle, fun n hn => h.holds.found_recovers (hfound n hn), fun w => ?_⟩
  rw [h.out]
  constructor
  · rintro ⟨n, hn, rfl⟩
    exact ⟨n, (h.holds.found_has hn).sent_eq⟩
  · rintro ⟨n, hn⟩
    have hhas : s.Has n := by rw [Stream.Has, hn]; rfl
    refine ⟨n, hfound n hhas, ?_⟩
    rw [Stream.content, hn]
    rfl

/-- The decoder's work on a packet that was taken out, with the callbacks for it. -/
theorem Peeled.process {rx : ReceivedPacket} {a : Arrival} {f₁ : ForwardErrorCorrection} {recovered₁ : List RecoveredPacket}
    (h : Peeled b arrivals r out) (hfull : r.recoveredPacketList.length ≠ kMaxMediaPackets) (hrx : ReceivedOk s rx)
    (ha : ∀ n, a = .media n → rx.isFec = false ∧ n = rx.seqNum)
    (hinsert : r.fec.insertPacket rx r.recoveredPacketList = .ok (f₁, recovered₁))
    (hholds : Holds b (arrivals ++ [a]) {n | Found r.recoveredPacketList n ∨ rx.isFec = false ∧ n = rx.seqNum}
      f₁.fecPacketList recovered₁) :
    ∃ r' out', processReceivedFec { r with receivedPacketList := [rx] } = .ok (r', out')
      ∧ Peeled b (arrivals ++ [a]) r' (out ++ out') := by
  obtain ⟨f, recovered, hdecode, hend, hstuck⟩ := Holds.decodeFec hfull hinsert hholds
  obtain ⟨f', recovered', hdecode', hlists, hrun⟩ := processReceivedFec_eq h.idle hrx
  rw [hdecode] at hdecode'
  cases hdecode'
  have hknown : ∀ n, (Found r.recoveredPacketList n ∨ rx.isFec = false ∧ n = rx.seqNum) → Found recovered n := hend.known
  refine ⟨_, _, hrun, idle_of_lists hlists, ?_, hstuck, fun n hn => ?_, fun w => ?_⟩
  · have hidle := idle_of_lists hlists
    exact {
      lists := hidle.lists
      sound := fun r hr => hend.found_recovers (found_rest.mp ⟨r, hr, rfl⟩)
      known := fun n hn => hn
      returned := fun r hr _ => ⟨r, hr, rfl⟩
      marked := fun fec hfec p hp hsome => found_rest.mpr (hend.marked fec hfec p hp hsome)
      came := hend.came
      covers := hend.covers
      distinct := hend.distinct
      kept := fun k hk => (hend.kept k hk).imp_left fun hall n hn => found_rest.mpr (hall n hn) }
  · refine found_rest.mpr (hknown n ?_)
    rcases List.mem_append.mp hn with hn | hn
    · exact .inl (h.media n hn)
    · exact .inr (ha n (List.mem_singleton.mp hn).symm)
  · rw [List.mem_append, List.mem_append, h.out]
    constructor
    · rintro (⟨n, hn, rfl⟩ | hfront | hback)
      · exact ⟨n, found_rest.mpr (hknown n (.inl hn)), rfl⟩
      · cases hkind : rx.isFec with
        | true =>
            rw [hkind] at hfront
            exact absurd hfront List.not_mem_nil
        | false =>
            rw [hkind] at hfront
            exact ⟨rx.seqNum, found_rest.mpr (hknown _ (.inr ⟨hkind, rfl⟩)), (List.mem_singleton.mp hfront).symm⟩
      · obtain ⟨packet, hpacket, rfl⟩ := List.mem_map.mp hback
        exact ⟨packet.seqNum, found_rest.mpr ⟨packet, List.mem_of_mem_filter hpacket, rfl⟩, rfl⟩
    · rintro ⟨n, hn, rfl⟩
      obtain ⟨packet, hpacket, rfl⟩ := found_rest.mp hn
      cases hreturned : packet.returned with
      | false =>
          refine .inr (.inr (List.mem_map_of_mem (f := fun r => s.content r.seqNum) (List.mem_filter.mpr ⟨hpacket, ?_⟩)))
          rw [hreturned]
          rfl
      | true =>
          rcases hend.returned packet hpacket hreturned with hold | ⟨hkind, hseq⟩
          · exact .inl ⟨packet.seqNum, hold, rfl⟩
          · rw [hkind, hseq]
            exact .inr (.inl (List.mem_singleton_self _))

/-- An FEC packet with nothing in it protects nothing. -/
theorem group_of_nil {k : UInt16} (h : b.body k = []) : b.group k = [] := by
  have hcell : ∀ i, (fecPacketOf []).data.cell i = 0 := by
    intro i
    have hsame := (sameOutside_write PacketData.zero.bytes 0 ([] : List UInt8)).2 i (by rw [List.length_nil]; omega)
    rw [← PacketData.cell_zero i, PacketData.cell, PacketData.cell, List.getD_eq_getElem?_getD,
      List.getD_eq_getElem?_getD, ← hsame]
    rfl
  have hmask : ∀ i, (fecPacketOf []).mask.getD i 0 = 0 := by
    intro i
    rw [Packet.mask]
    by_cases hi : i < maskSize (lBitSet (fecPacketOf []))
    · rw [PacketData.getD_read hi, hcell]
    · rw [List.getD_eq_default]
      exact (List.length_take_le _ _).trans (not_lt.mp hi)
  have hnone : maskOffsets (fecPacketOf []).mask = [] := by
    refine List.filter_eq_nil_iff.mpr fun i _ => ?_
    rw [hmask, bitSet]
    simp
  rw [Batch.group, h, protectedPackets, hnone]
  rfl

/-- The receiver after some arrivals. -/
def Progress (b : Batch s) (arrivals : List Arrival) (r : FecReceiverImpl) (out : List (List UInt8)) : Prop :=
  Peeled b arrivals r out ∨ Whole b arrivals r out

theorem Brings.sends {a : Arrival} {d : Datagram} (h : b.Brings a d) : s.Sends d := by
  cases a with
  | media n => exact .media n h
  | fec k =>
      obtain ⟨-, -, header, hfec⟩ := h
      exact .fec header _ hfec

theorem Whole.receive {a : Arrival} {d : Datagram} (h : Whole b arrivals r out) (hd : b.Brings a d) :
    ∃ r' out', r.receiveRed d.buf d.stale d.staleSsrc = .ok (r', out') ∧ Whole b (arrivals ++ [a]) r' (out ++ out') := by
  obtain ⟨r', out', hrun, hidle, hsent, -⟩ := receiveRed_sound h.idle (Brings.sends hd)
  refine ⟨r', out', hrun, hidle, fun n hn => (h.recovers n hn).mono a, fun w => ?_⟩
  rw [List.mem_append, h.out]
  exact ⟨fun hw => hw.elim id (hsent w), .inl⟩

theorem Peeled.receive {a : Arrival} {d : Datagram} (h : Peeled b arrivals r out)
    (hfull : r.recoveredPacketList.length ≠ kMaxMediaPackets) (hd : b.Brings a d) :
    ∃ r' out', r.receiveRed d.buf d.stale d.staleSsrc = .ok (r', out') ∧ Peeled b (arrivals ++ [a]) r' (out ++ out') := by
  cases a with
  | media n =>
      obtain ⟨rx, hrx, hkind, rfl, hrun⟩ := receiveRed_media h.idle hd
      have hkeep : {n | Found r.recoveredPacketList n}
          ⊆ {n | Found r.recoveredPacketList n ∨ rx.isFec = false ∧ n = rx.seqNum} := fun n hn => .inl hn
      obtain ⟨f₁, recovered₁, hinsert, hholds⟩ := h.holds.insertMedia hkind (hrx.media hkind) hkeep
        (fun n hn => hn.imp_right And.right) (.inr ⟨hkind, rfl⟩)
      rw [hrun]
      exact h.process hfull hrx (fun n hn => by cases hn; exact ⟨hkind, rfl⟩) hinsert hholds
  | fec k =>
      obtain ⟨hk, hseq, header, hfec⟩ := hd
      rw [receiveRed_fec h.idle hfec]
      by_cases hnil : b.body k = []
      · rw [if_pos hnil]
        refine ⟨r, [], processReceivedFec_idle h.idle, h.idle, h.holds.arrive (.fec k) fun k' hk' => ?_, h.stuck,
          fun n hn => ?_, by rw [List.append_nil]; exact h.out⟩
        · cases hk'
          rw [group_of_nil hnil]
          exact .inl (by simp)
        · rcases List.mem_append.mp hn with hn | hn
          · exact h.media n hn
          · cases List.mem_singleton.mp hn
      · rw [if_neg hnil, hseq]
        have hrx : ReceivedOk s ⟨k, s.ssrc, true, fecPacketOf (b.body k)⟩ := ⟨by simp, fun _ => hfec.isFec⟩
        obtain ⟨f₁, recovered₁, hinsert, hholds⟩ := h.holds.insertFec (f := r.fec) rfl hk (hrx.fec rfl) rfl
        refine h.process hfull hrx (by simp) hinsert ?_
        have hsame : {n | Found r.recoveredPacketList n ∨ true = false ∧ n = k} = {n | Found r.recoveredPacketList n} := by
          simp
        rw [hsame]
        exact hholds

theorem Progress.receive {a : Arrival} {d : Datagram} (h : Progress b arrivals r out) (hd : b.Brings a d) :
    ∃ r' out', r.receiveRed d.buf d.stale d.staleSsrc = .ok (r', out') ∧ Progress b (arrivals ++ [a]) r' (out ++ out') := by
  have hwhole : Whole b arrivals r out → ∃ r' out', r.receiveRed d.buf d.stale d.staleSsrc = .ok (r', out')
      ∧ Progress b (arrivals ++ [a]) r' (out ++ out') := by
    intro hwhole
    obtain ⟨r', out', hrun, hnext⟩ := hwhole.receive hd
    exact ⟨r', out', hrun, .inr hnext⟩
  rcases h with hpeeled | hdone
  · by_cases hfull : r.recoveredPacketList.length = kMaxMediaPackets
    · exact hwhole (hpeeled.whole hfull)
    · obtain ⟨r', out', hrun, hnext⟩ := hpeeled.receive hfull hd
      exact ⟨r', out', hrun, .inl hnext⟩
  · exact hwhole hdone

theorem Progress.receiveAll {more : List Arrival} {datagrams : List Datagram} (h : Progress b arrivals r out)
    (hall : List.Forall₂ b.Brings more datagrams) :
    ∃ r' out', r.receiveAll datagrams = .ok (r', out') ∧ Progress b (arrivals ++ more) r' (out ++ out') := by
  induction hall generalizing arrivals r out with
  | nil => exact ⟨r, [], rfl, by rw [List.append_nil, List.append_nil]; exact h⟩
  | @cons a d more datagrams hd _ ih =>
      obtain ⟨r₁, out₁, hone, hnext⟩ := h.receive hd
      obtain ⟨r', out', hrest, hend⟩ := ih hnext
      refine ⟨r', out₁ ++ out', ?_, ?_⟩
      · rw [FecReceiverImpl.receiveAll, hone, Checked.ok_bind, hrest]
        rfl
      · rwa [List.append_assoc, List.append_assoc, List.singleton_append] at hend

/-- What has been called back for is what can be recovered. -/
theorem Progress.out_iff (h : Progress b arrivals r out) (w : List UInt8) :
    w ∈ out ↔ ∃ n, b.Recovers arrivals n ∧ s.sent n = some w := by
  have hsent : ∀ {n}, s.Has n → (s.content n = w ↔ s.sent n = some w) := by
    intro n hn
    rw [hn.sent_eq, Option.some_inj]
  rcases h with hpeeled | hdone
  · rw [hpeeled.out]
    have hiff := hpeeled.holds.found_iff hpeeled.stuck hpeeled.media
    constructor
    · rintro ⟨n, hn, heq⟩
      exact ⟨n, (hiff n).mp hn, (hsent (hpeeled.holds.found_has hn)).mp heq⟩
    · rintro ⟨n, hn, heq⟩
      have hfound := (hiff n).mpr hn
      exact ⟨n, hfound, (hsent (hpeeled.holds.found_has hfound)).mpr heq⟩
  · rw [hdone.out]
    constructor
    · rintro ⟨n, hn⟩
      exact ⟨n, hdone.recovers n (by rw [Stream.Has, hn]; rfl), hn⟩
    · rintro ⟨n, -, hn⟩
      exact ⟨n, hn⟩

/-- **FEC gives back all it can.** Whichever of the packets of a short stream and of its FEC packets come, in whatever
order and however often, the receiver calls back for the packets that peeling finds from these, and for no others. -/
theorem receiveAll_peels (b : Batch s) {arrivals : List Arrival} {datagrams : List Datagram}
    (h : List.Forall₂ b.Brings arrivals datagrams) :
    ∃ r out, create.receiveAll datagrams = .ok (r, out)
      ∧ ∀ w, w ∈ out ↔ ∃ n, b.Recovers arrivals n ∧ s.sent n = some w := by
  obtain ⟨r, out, hrun, hend⟩ := Progress.receiveAll (.inl peeled_create) h
  exact ⟨r, out, hrun, hend.out_iff⟩

end FecReceiverImpl

def pairBatch : Batch pair where
  numbers := [0, 1]
  all n hn := by
    by_contra hnot
    have hnone : pair.sent n = none := if_neg fun h => hnot (by simpa using h)
    rw [Stream.Has, hnone] at hn
    exact Bool.false_ne_true hn
  few := by decide
  fecNumbers := [2]
  fewFecs := by decide
  body _ := pairFec
  isFec _ _ := isFec_pairFec
  near n hn k hk := by
    obtain rfl : k = 2 := List.mem_singleton.mp hk
    have hn : n = 0 ∨ n = 1 ∨ n = 2 := by simpa using hn
    obtain rfl | rfl | rfl := hn <;> decide

/-- The first packet is recovered from the FEC packet and the second. -/
theorem peels_pair : ∃ r out, FecReceiverImpl.create.receiveAll [pairThird, pairSecond] = .ok (r, out)
    ∧ pairContent 0 ∈ out := by
  have hbrings : List.Forall₂ pairBatch.Brings [.fec 2, .media 1] [pairThird, pairSecond] :=
    .cons ⟨by decide, by decide, pairHeader, sendsFec_pair⟩ (.cons sendsMedia_pair .nil)
  obtain ⟨r, out, hrun, hout⟩ := FecReceiverImpl.receiveAll_peels pairBatch hbrings
  have hgroup : pairBatch.group 2 = [0, 1] := by
    rw [Batch.group]
    change List.map _ (protectedPackets (fecPacketOf pairFec)) = _
    rw [protectedPackets_pairFec]
    rfl
  have hfirst : pairBatch.Recovers [.fec 2, .media 1] 0 := by
    refine .last ⟨2, by decide, rfl⟩ (by rw [hgroup]; decide) fun n hn hne => .known ?_
    rw [hgroup] at hn
    rcases List.mem_cons.mp hn with rfl | hn
    · exact absurd rfl hne
    · rw [List.mem_singleton.mp hn]
      decide
  exact ⟨r, out, hrun, (hout _).mpr ⟨0, hfirst, rfl⟩⟩

end Licode.Media.Fec
