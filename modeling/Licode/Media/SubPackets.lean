import Licode.Media.Rtcp

/-!
# Walks over sub-packets that have their fields

A walk that only looks, over sub-packets each of which is long enough for what is read of it, is a fold
over the list of them.
-/

namespace Licode.Media.Rtcp

open Overlay

namespace SubPacket

def ssrc (sub : SubPacket) : UInt32 := .ofNat (number (read sub.bytes 4 4))
def sourceSSRC (sub : SubPacket) : UInt32 := .ofNat (number (read sub.bytes 8 4))
def fractionLost (sub : SubPacket) : UInt8 := .ofNat (number (read sub.bytes 12 1))
def lostPackets (sub : SubPacket) : UInt32 := .ofNat (number (read sub.bytes 13 3))
def seqnumCycles (sub : SubPacket) : Nat := number (read sub.bytes 16 2)
def highestSeqnum (sub : SubPacket) : Nat := number (read sub.bytes 18 2)
def jitter (sub : SubPacket) : UInt32 := .ofNat (number (read sub.bytes 20 4))
def lastSr (sub : SubPacket) : UInt32 := .ofNat (number (read sub.bytes 24 4))
def delaySinceLastSr (sub : SubPacket) : UInt32 := .ofNat (number (read sub.bytes 28 4))
def packetsSent (sub : SubPacket) : UInt32 := .ofNat (number (read sub.bytes 20 4))
def octetsSent (sub : SubPacket) : UInt32 := .ofNat (number (read sub.bytes 24 4))
def nackPid (sub : SubPacket) : Nat := number (read sub.bytes 12 2)

/-- The mask in the order of the bytes that the host reads it in. -/
def nackBlp (sub : SubPacket) : UInt16 := .ofNat (number (read sub.bytes 14 2).reverse)

section Fields

variable (sub : SubPacket) (rest : List UInt8)

theorem getSSRC_append (h : 8 ≤ sub.bytes.length) : getSSRC (sub.bytes ++ rest) = .ok sub.ssrc := by
  rw [getSSRC, load_append h]
  rfl

theorem getSourceSSRC_append (h : 12 ≤ sub.bytes.length) : getSourceSSRC (sub.bytes ++ rest) = .ok sub.sourceSSRC := by
  rw [getSourceSSRC, load_append h]
  rfl

theorem getFractionLost_append (h : 13 ≤ sub.bytes.length) :
    getFractionLost (sub.bytes ++ rest) = .ok sub.fractionLost := by
  rw [getFractionLost, load_append h]
  rfl

theorem getLostPackets_append (h : 16 ≤ sub.bytes.length) :
    getLostPackets (sub.bytes ++ rest) = .ok sub.lostPackets := by
  rw [getLostPackets, load_append h]
  rfl

theorem getSeqnumCycles_append (h : 18 ≤ sub.bytes.length) :
    getSeqnumCycles (sub.bytes ++ rest) = .ok sub.seqnumCycles := by
  rw [getSeqnumCycles, load_append h]
  rfl

theorem getHighestSeqnum_append (h : 20 ≤ sub.bytes.length) :
    getHighestSeqnum (sub.bytes ++ rest) = .ok sub.highestSeqnum := by
  rw [getHighestSeqnum, load_append h]
  rfl

theorem getJitter_append (h : 24 ≤ sub.bytes.length) : getJitter (sub.bytes ++ rest) = .ok sub.jitter := by
  rw [getJitter, load_append h]
  rfl

theorem getLastSr_append (h : 28 ≤ sub.bytes.length) : getLastSr (sub.bytes ++ rest) = .ok sub.lastSr := by
  rw [getLastSr, load_append h]
  rfl

theorem getDelaySinceLastSr_append (h : 32 ≤ sub.bytes.length) :
    getDelaySinceLastSr (sub.bytes ++ rest) = .ok sub.delaySinceLastSr := by
  rw [getDelaySinceLastSr, load_append h]
  rfl

theorem getPacketsSent_append (h : 24 ≤ sub.bytes.length) :
    getPacketsSent (sub.bytes ++ rest) = .ok sub.packetsSent := by
  rw [getPacketsSent, load_append h]
  rfl

theorem getOctetsSent_append (h : 28 ≤ sub.bytes.length) : getOctetsSent (sub.bytes ++ rest) = .ok sub.octetsSent := by
  rw [getOctetsSent, load_append h]
  rfl

theorem getNackPid_append (h : 14 ≤ sub.bytes.length) : getNackPid (sub.bytes ++ rest) = .ok sub.nackPid := by
  rw [getNackPid, load_append h]
  rfl

theorem getNackBlp_append (h : 16 ≤ sub.bytes.length) : getNackBlp (sub.bytes ++ rest) = .ok sub.nackBlp := by
  rw [getNackBlp, load_append h]
  rfl

end Fields

/-- The numbers of 16 bits are in their type. -/
theorem seqnumCycles_lt (sub : SubPacket) : sub.seqnumCycles < 2 ^ 16 := number_read_lt _ _ _

theorem highestSeqnum_lt (sub : SubPacket) : sub.highestSeqnum < 2 ^ 16 := number_read_lt _ _ _

end SubPacket

/-- If what is found at a sub-packet depends on its own bytes, the walk gathers it in their order. -/
theorem scan_compound {σ : Type} {visit : σ → List UInt8 → Checked σ} {f : σ → SubPacket → σ} {subs : List SubPacket}
    (hne : subs ≠ []) (hvisit : ∀ s, ∀ sub ∈ subs, ∀ rest, visit s (sub.bytes ++ rest) = .ok (f s sub)) {fuel : Nat}
    (hfuel : subs.length ≤ fuel) (s : σ) :
    scan visit fuel (compound subs).length s (compound subs) = .ok (subs.foldl f s) := by
  induction fuel generalizing subs s with
  | zero =>
      rw [Nat.le_zero, List.length_eq_zero_iff] at hfuel
      exact absurd hfuel hne
  | succ fuel ih =>
      cases subs with
      | nil => exact absurd rfl hne
      | cons sub subs =>
          rw [compound_cons, scan, sub.rtcpLength_append, Checked.ok_bind, hvisit s sub List.mem_cons_self,
            Checked.ok_bind, List.length_append, List.foldl_cons]
          by_cases hlast : subs = []
          · rw [hlast, if_neg (by simp [compound])]
            rfl
          · have hmore : 0 < (compound subs).length :=
              (List.length_pos_iff.mpr hlast).trans_le (length_le_compound subs)
            rw [if_pos (by omega), List.drop_left, Nat.add_sub_cancel_left]
            apply ih hlast
            · intro s next hnext
              exact hvisit s next (List.mem_cons_of_mem _ hnext)
            · exact Nat.le_of_succ_le_succ hfuel

/-- What every visit keeps holds behind a walk over any bytes. -/
theorem scan_keeps {σ : Type} {visit : σ → List UInt8 → Checked σ} {P : σ → Prop}
    (hvisit : ∀ {s buf s'}, P s → visit s buf = .ok s' → P s') {fuel rest : Nat} {s s' : σ} {buf : List UInt8}
    (hs : P s) (hscan : scan visit fuel rest s buf = .ok s') : P s' := by
  induction fuel generalizing rest s buf with
  | zero => cases hscan
  | succ fuel ih =>
      rw [scan] at hscan
      obtain ⟨length, -, hscan⟩ := exists_of_bind_ok hscan
      obtain ⟨s₁, hfirst, hscan⟩ := exists_of_bind_ok hscan
      have hs₁ : P s₁ := hvisit hs hfirst
      split at hscan
      · exact ih hs₁ hscan
      · cases hscan
        exact hs₁

theorem load_number_lt {buf : List UInt8} {offset value : Nat}
    (h : (load buf offset 2 >>= fun field => .ok (number field)) = .ok value) : value < 2 ^ 16 := by
  obtain ⟨field, hload, hvalue⟩ := exists_of_bind_ok h
  rw [load] at hload
  split at hload
  · cases hload
    cases hvalue
    exact number_read_lt _ _ _
  · cases hload

theorem getSeqnumCycles_lt {buf : List UInt8} {cycles : Nat} (h : getSeqnumCycles buf = .ok cycles) :
    cycles < 2 ^ 16 :=
  load_number_lt h

theorem getHighestSeqnum_lt {buf : List UInt8} {highest : Nat} (h : getHighestSeqnum buf = .ok highest) :
    highest < 2 ^ 16 :=
  load_number_lt h

end Licode.Media.Rtcp
