import Licode.Media.RtcpReports
import Licode.Media.SubPackets

/-!
# The set of numbers that have been asked for

A NACK that asks for nothing new is not passed on. The numbers are kept in a set, of which the smallest are
erased when it has grown, but only on the way of a NACK whose first number is in it already. The mask is
read in the order of the bytes of the host, and the numbers behind the first do not go round at 2 ^ 16.
-/

namespace Licode.Media

open Overlay Rtcp

/-- A bit of a mask stands for one of the numbers behind the first. -/
def Asked (blp i : Nat) : Prop := blp / 2 ^ i % 2 = 1

instance (blp i : Nat) : Decidable (Asked blp i) := inferInstanceAs (Decidable (_ = _))

namespace RtcpData

/-! ### One number -/

section Insert

variable (d : RtcpData) (number : UInt32)

theorem insertNacked_isNew : (d.insertNacked number).1 = true ↔ number ∉ d.nackedPackets := by
  rw [insertNacked]
  split
  · next h => exact iff_of_false Bool.false_ne_true (not_not_intro h)
  · next h => exact iff_of_true rfl h

theorem mem_insertNacked (n : UInt32) :
    n ∈ (d.insertNacked number).2.nackedPackets ↔ n ∈ d.nackedPackets ∨ n = number := by
  rw [insertNacked]
  split
  · next h =>
      constructor
      · exact Or.inl
      · rintro (hmem | rfl)
        · exact hmem
        · exact h
  · exact (List.mem_orderedInsert (· ≤ ·)).trans or_comm

theorem length_insertNacked : (d.insertNacked number).2.nackedPackets.length
    = d.nackedPackets.length + if number ∉ d.nackedPackets then 1 else 0 := by
  rw [insertNacked]
  by_cases h : number ∈ d.nackedPackets
  · rw [if_pos h, if_neg (not_not_intro h)]
    rfl
  · rw [if_neg h, if_pos h]
    exact List.orderedInsert_length _ _ _

theorem insertNacked_shouldSend : (d.insertNacked number).2.shouldSendNACK = d.shouldSendNACK := by
  rw [insertNacked]
  split
  all_goals rfl

end Insert

/-! ### The numbers of the mask -/

/-- What the numbers of a mask make of the data. -/
structure Followed (d d' : RtcpData) (blp : Nat) (number : Nat → UInt32) (bits : List Nat) : Prop where
  mem_iff : ∀ n, n ∈ d'.nackedPackets ↔ n ∈ d.nackedPackets ∨ ∃ i ∈ bits, Asked blp i ∧ n = number i
  shouldSend_iff : d'.shouldSendNACK = true
    ↔ d.shouldSendNACK = true ∨ ∃ i ∈ bits, Asked blp i ∧ number i ∉ d.nackedPackets
  length_le : d'.nackedPackets.length
    ≤ d.nackedPackets.length + (bits.filter fun i => Asked blp i ∧ number i ∉ d.nackedPackets).length

theorem followed_nackFollower (pid : UInt32) (blp : UInt16) (d : RtcpData) (i : Nat) :
    Followed d (nackFollower pid blp d i) blp.toNat (fun i => pid + 1 + .ofNat i) [i] := by
  by_cases hasked : Asked blp.toNat i
  · have hnacked : (nackFollower pid blp d i).nackedPackets = (d.insertNacked (pid + 1 + .ofNat i)).2.nackedPackets := by
      rw [nackFollower, if_pos (show blp.toNat / 2 ^ i % 2 = 1 from hasked)]
    have hsend : (nackFollower pid blp d i).shouldSendNACK
        = ((d.insertNacked (pid + 1 + .ofNat i)).2.shouldSendNACK || (d.insertNacked (pid + 1 + .ofNat i)).1) := by
      rw [nackFollower, if_pos (show blp.toNat / 2 ^ i % 2 = 1 from hasked)]
    refine ⟨?_, ?_, ?_⟩
    · intro n
      rw [hnacked, mem_insertNacked]
      simp [hasked]
    · rw [hsend, Bool.or_eq_true, insertNacked_shouldSend, insertNacked_isNew]
      simp [hasked]
    · rw [hnacked, length_insertNacked]
      apply Nat.add_le_add_left
      split
      · next hnew => simp [hasked, hnew]
      · exact Nat.zero_le _
  · have hstep : nackFollower pid blp d i = d := if_neg hasked
    rw [hstep]
    refine ⟨?_, ?_, Nat.le_add_right _ _⟩
    · intro n
      simp [hasked]
    · simp [hasked]

theorem Followed.refl (d : RtcpData) (blp : Nat) (number : Nat → UInt32) : Followed d d blp number [] where
  mem_iff n := by simp
  shouldSend_iff := by simp
  length_le := Nat.le_refl _

/-- A number that has come twice is new at most once. -/
theorem Followed.trans {d d' d'' : RtcpData} {blp : Nat} {number : Nat → UInt32} {bits more : List Nat}
    (h : Followed d d' blp number bits) (h' : Followed d' d'' blp number more) :
    Followed d d'' blp number (bits ++ more) where
  mem_iff n := by
    rw [h'.mem_iff, h.mem_iff, or_assoc]
    simp only [List.mem_append, or_and_right, exists_or]
  shouldSend_iff := by
    rw [h'.shouldSend_iff, h.shouldSend_iff]
    constructor
    · rintro ((hsend | ⟨i, hi, hasked, hnew⟩) | ⟨i, hi, hasked, hnew⟩)
      · exact .inl hsend
      · exact .inr ⟨i, List.mem_append_left _ hi, hasked, hnew⟩
      · exact .inr ⟨i, List.mem_append_right _ hi, hasked, fun hmem => hnew ((h.mem_iff _).mpr (.inl hmem))⟩
    · rintro (hsend | ⟨i, hi, hasked, hnew⟩)
      · exact .inl (.inl hsend)
      · by_cases hmem : number i ∈ d'.nackedPackets
        · rcases (h.mem_iff _).mp hmem with hold | ⟨j, hj, hjasked, hsame⟩
          · exact absurd hold hnew
          · exact .inl (.inr ⟨j, hj, hjasked, hsame ▸ hnew⟩)
        · rcases List.mem_append.mp hi with hi | hi
          · exact .inl (.inr ⟨i, hi, hasked, hnew⟩)
          · exact .inr ⟨i, hi, hasked, hmem⟩
  length_le := by
    have hsub : (more.filter fun i => Asked blp i ∧ number i ∉ d'.nackedPackets).length
        ≤ (more.filter fun i => Asked blp i ∧ number i ∉ d.nackedPackets).length := by
      apply List.Sublist.length_le
      apply List.monotone_filter_right
      intro i hi
      rw [decide_eq_true_eq] at hi ⊢
      exact ⟨hi.1, fun hmem => hi.2 ((h.mem_iff _).mpr (.inl hmem))⟩
    rw [List.filter_append, List.length_append]
    have hfirst := h.length_le
    have hsecond := h'.length_le
    omega

theorem followed_foldl (pid : UInt32) (blp : UInt16) (d : RtcpData) (bits : List Nat) :
    Followed d (bits.foldl (nackFollower pid blp) d) blp.toNat (fun i => pid + 1 + .ofNat i) bits := by
  induction bits generalizing d with
  | nil => exact .refl d _ _
  | cons i bits ih => exact (followed_nackFollower pid blp d i).trans (ih _)

/-! ### A NACK -/

def unsent (d : RtcpData) : RtcpData := { d with shouldSendNACK := false }

/-- The data after the first number. -/
def afterPid (d : RtcpData) (pid : Nat) : RtcpData :=
  if (d.unsent.insertNacked (.ofNat pid)).1 then
    { (d.unsent.insertNacked (.ofNat pid)).2 with shouldSendNACK := true }
  else (d.unsent.insertNacked (.ofNat pid)).2.trimNacked

/-- What is left where the smallest are erased. -/
def kept (d : RtcpData) : List UInt32 := d.nackedPackets.drop (d.nackedPackets.length - 49)

theorem afterPid_of_new {d : RtcpData} {pid : Nat} (hnew : .ofNat pid ∉ d.nackedPackets) :
    (∀ n, n ∈ (d.afterPid pid).nackedPackets ↔ n ∈ d.nackedPackets ∨ n = .ofNat pid)
      ∧ (d.afterPid pid).shouldSendNACK = true
      ∧ (d.afterPid pid).nackedPackets.length = d.nackedPackets.length + 1 := by
  have hlength := d.unsent.length_insertNacked (.ofNat pid)
  rw [if_pos (show .ofNat pid ∉ d.unsent.nackedPackets from hnew)] at hlength
  rw [afterPid, if_pos ((d.unsent.insertNacked_isNew _).mpr hnew)]
  exact ⟨d.unsent.mem_insertNacked _, rfl, hlength⟩

theorem afterPid_of_known {d : RtcpData} {pid : Nat} (hknown : .ofNat pid ∈ d.nackedPackets) :
    (d.afterPid pid).nackedPackets = d.kept ∧ (d.afterPid pid).shouldSendNACK = false := by
  have hinsert : d.unsent.insertNacked (.ofNat pid) = (false, d.unsent) := if_pos hknown
  rw [afterPid, hinsert, if_neg Bool.false_ne_true]
  exact ⟨rfl, rfl⟩

theorem takeNack_eq (d : RtcpData) (pid : Nat) (blp : UInt16) :
    ∃ d', Followed (d.afterPid pid) d' blp.toNat (fun i => .ofNat pid + 1 + .ofNat i) (List.range 16)
      ∧ d.takeNack pid blp
        = if d'.shouldSendNACK then { d' with nackSeqnum := .ofNat pid, nackBlp := blp, requestRr := true } else d' := by
  refine ⟨if blp ≠ 0 then (List.range 16).foldl (nackFollower (.ofNat pid) blp) (d.afterPid pid) else d.afterPid pid,
    ?_, rfl⟩
  split
  · exact followed_foldl _ _ _ _
  · next hzero =>
      have hnone (i : Nat) : ¬ Asked blp.toNat i := by
        rw [not_not.mp hzero, Asked, UInt16.toNat_zero, Nat.zero_div]
        decide
      refine ⟨?_, ?_, Nat.le_add_right _ _⟩
      · intro n
        simp [hnone]
      · simp [hnone]

end RtcpData

/-! ### What a NACK has to do -/

/-- The numbers that an entry asks for, which go round at 2 ^ 16. -/
def askedNumbers (pid mask : Nat) : List UInt32 :=
  .ofNat pid :: ((List.range 16).filter fun i => Asked mask i).map fun i => .ofNat ((pid + 1 + i) % 2 ^ 16)

/-- The first mask in network order. -/
def Rtcp.SubPacket.nackMask (sub : SubPacket) : Nat := number (read sub.bytes 14 2)

/-- The numbers that a NACK asks for, with all of its entries. -/
def Rtcp.SubPacket.nackedNumbers (sub : SubPacket) : List UInt32 :=
  (List.range ((sub.bytes.length - 12) / 4)).flatMap fun k =>
    askedNumbers (number (read sub.bytes (12 + 4 * k) 2)) (number (read sub.bytes (14 + 4 * k) 2))

/-- The numbers are added and no others, and the NACK is passed on if one of them is new; the set holds numbers of
16 bits and no more than `MAP_NACK_SIZE + 17` of them. -/
structure Suppresses (sub : SubPacket) (d d' : RtcpData) : Prop where
  added : ∀ n ∈ sub.nackedNumbers, n ∈ d'.nackedPackets
  only : ∀ n ∈ d'.nackedPackets, n ∈ d.nackedPackets ∨ n ∈ sub.nackedNumbers
  scheduled : d'.shouldSendNACK = true ↔ ∃ n ∈ sub.nackedNumbers, n ∉ d.nackedPackets
  message : d'.shouldSendNACK = true →
    d'.nackSeqnum = .ofNat sub.nackPid ∧ d'.nackBlp = sub.nackBlp ∧ d'.requestRr = true
  small : ∀ n ∈ d'.nackedPackets, n.toNat < 2 ^ 16
  bounded : d'.nackedPackets.length ≤ 67

/-- A NACK for which that comes out: it has one entry, the mask is the same in both orders of its bytes, its numbers
stay below 2 ^ 16, and either there is room for the new ones, or what is erased on the other way is not asked for. -/
structure NackFits (sub : SubPacket) (d : RtcpData) : Prop where
  single : sub.bytes.length = 16
  order : sub.nackBlp.toNat = sub.nackMask
  around : ∀ i < 16, Asked sub.nackMask i → sub.nackPid + 1 + i < 2 ^ 16
  room : .ofNat sub.nackPid ∉ d.nackedPackets →
    d.nackedPackets.length + (sub.nackedNumbers.filter fun n => n ∉ d.nackedPackets).length ≤ 67
  kept : .ofNat sub.nackPid ∈ d.nackedPackets → .ofNat sub.nackPid ∈ d.kept
    ∧ ((∀ n ∈ sub.nackedNumbers, n ∈ d.nackedPackets → n ∈ d.kept) ∨ ∃ n ∈ sub.nackedNumbers, n ∉ d.nackedPackets)

section Fits

variable {sub : SubPacket} {d : RtcpData}

theorem NackFits.number_eq (h : NackFits sub d) {i : Nat} (hi : i < 16) (hasked : Asked sub.nackMask i) :
    UInt32.ofNat sub.nackPid + 1 + .ofNat i = .ofNat ((sub.nackPid + 1 + i) % 2 ^ 16) := by
  rw [Nat.mod_eq_of_lt (h.around i hi hasked), UInt32.ofNat_add, UInt32.ofNat_add]
  rfl

theorem NackFits.nackedNumbers_eq (h : NackFits sub d) :
    sub.nackedNumbers = askedNumbers sub.nackPid sub.nackMask := by
  rw [SubPacket.nackedNumbers, h.single]
  exact List.append_nil _

theorem NackFits.mem_nackedNumbers (h : NackFits sub d) (n : UInt32) : n ∈ sub.nackedNumbers
    ↔ n = .ofNat sub.nackPid
      ∨ ∃ i ∈ List.range 16, Asked sub.nackMask i ∧ n = UInt32.ofNat sub.nackPid + 1 + .ofNat i := by
  rw [h.nackedNumbers_eq, askedNumbers, List.mem_cons, List.mem_map]
  apply or_congr_right
  constructor
  · rintro ⟨i, hmem, hn⟩
    rw [List.mem_filter, decide_eq_true_eq] at hmem
    exact ⟨i, hmem.1, hmem.2, hn.symm.trans (h.number_eq (List.mem_range.mp hmem.1) hmem.2).symm⟩
  · rintro ⟨i, hi, hasked, hn⟩
    refine ⟨i, List.mem_filter.mpr ⟨hi, decide_eq_true hasked⟩, ?_⟩
    rw [hn, h.number_eq (List.mem_range.mp hi) hasked]

theorem toNat_lt_of_mem_nackedNumbers {n : UInt32} (hn : n ∈ sub.nackedNumbers) : n.toNat < 2 ^ 16 := by
  rw [SubPacket.nackedNumbers, List.mem_flatMap] at hn
  obtain ⟨k, -, hn⟩ := hn
  have hpid : number (read sub.bytes (12 + 4 * k) 2) < 2 ^ 16 := number_read_lt _ _ _
  rw [askedNumbers, List.mem_cons, List.mem_map] at hn
  rcases hn with rfl | ⟨i, -, rfl⟩
  · rw [UInt32.toNat_ofNat']
    omega
  · rw [UInt32.toNat_ofNat']
    omega

theorem length_kept_le (d : RtcpData) : d.kept.length ≤ 49 := by
  rw [RtcpData.kept, List.length_drop]
  omega

theorem mem_of_mem_kept {n : UInt32} (h : n ∈ d.kept) : n ∈ d.nackedPackets := List.mem_of_mem_drop h

/-- The case of a first number that is new. -/
theorem followed_of_new {d' : RtcpData} (h : NackFits sub d) (hnew : .ofNat sub.nackPid ∉ d.nackedPackets)
    (hfollowed : RtcpData.Followed (d.afterPid sub.nackPid) d' sub.nackMask (fun i => .ofNat sub.nackPid + 1 + .ofNat i)
      (List.range 16)) :
    (∀ n, n ∈ d'.nackedPackets ↔ n ∈ d.nackedPackets ∨ n ∈ sub.nackedNumbers) ∧ d'.shouldSendNACK = true
      ∧ d'.nackedPackets.length ≤ 67 := by
  obtain ⟨hmem, hsend, hlength⟩ := RtcpData.afterPid_of_new hnew
  refine ⟨?_, ?_, ?_⟩
  · intro n
    rw [hfollowed.mem_iff, hmem, h.mem_nackedNumbers, or_assoc]
  · exact hfollowed.shouldSend_iff.mpr (.inl hsend)
  · have hroom := h.room hnew
    have hcount : ((List.range 16).filter fun i => Asked sub.nackMask i
          ∧ UInt32.ofNat sub.nackPid + 1 + .ofNat i ∉ (d.afterPid sub.nackPid).nackedPackets).length + 1
        ≤ (sub.nackedNumbers.filter fun n => n ∉ d.nackedPackets).length := by
      have hpid : decide (UInt32.ofNat sub.nackPid ∉ d.nackedPackets) = true := decide_eq_true hnew
      rw [h.nackedNumbers_eq, askedNumbers, List.filter_cons, if_pos hpid, List.length_cons, List.filter_map, List.length_map,
        List.filter_filter, ← List.countP_eq_length_filter, ← List.countP_eq_length_filter]
      apply Nat.succ_le_succ
      apply List.countP_mono_left
      intro i hi hbit
      rw [decide_eq_true_eq] at hbit
      have hnotin : UInt32.ofNat ((sub.nackPid + 1 + i) % 2 ^ 16) ∉ d.nackedPackets := by
        rw [← h.number_eq (List.mem_range.mp hi) hbit.1]
        exact fun hold => hbit.2 ((hmem _).mpr (.inl hold))
      rw [Bool.and_eq_true, Function.comp_apply, decide_eq_true_eq, decide_eq_true_eq]
      exact ⟨hnotin, hbit.1⟩
    have hle := hfollowed.length_le
    omega

/-- The case of a first number that is known. -/
theorem followed_of_known {d' : RtcpData} (h : NackFits sub d) (hknown : .ofNat sub.nackPid ∈ d.nackedPackets)
    (hfollowed : RtcpData.Followed (d.afterPid sub.nackPid) d' sub.nackMask (fun i => .ofNat sub.nackPid + 1 + .ofNat i)
      (List.range 16)) :
    (∀ n ∈ sub.nackedNumbers, n ∈ d'.nackedPackets)
      ∧ (∀ n ∈ d'.nackedPackets, n ∈ d.nackedPackets ∨ n ∈ sub.nackedNumbers)
      ∧ (d'.shouldSendNACK = true ↔ ∃ n ∈ sub.nackedNumbers, n ∉ d.nackedPackets)
      ∧ d'.nackedPackets.length ≤ 67 := by
  obtain ⟨hnacked, hsend⟩ := RtcpData.afterPid_of_known hknown
  obtain ⟨hpid, hevicted⟩ := h.kept hknown
  refine ⟨?_, ?_, ?_, ?_⟩
  · intro n hn
    rw [hfollowed.mem_iff, hnacked]
    rcases (h.mem_nackedNumbers n).mp hn with rfl | hbit
    · exact .inl hpid
    · exact .inr hbit
  · intro n hn
    rw [hfollowed.mem_iff, hnacked] at hn
    rcases hn with hold | hbit
    · exact .inl (mem_of_mem_kept hold)
    · exact .inr ((h.mem_nackedNumbers n).mpr (.inr hbit))
  · rw [hfollowed.shouldSend_iff, hnacked, hsend]
    constructor
    · rintro (hfalse | ⟨i, hi, hasked, hgone⟩)
      · exact absurd hfalse Bool.false_ne_true
      · rcases hevicted with hall | hnew
        · have hnumber := (h.mem_nackedNumbers _).mpr (.inr ⟨i, hi, hasked, rfl⟩)
          exact ⟨_, hnumber, fun hmem => hgone (hall _ hnumber hmem)⟩
        · exact hnew
    · rintro ⟨n, hn, hnew⟩
      rcases (h.mem_nackedNumbers n).mp hn with rfl | ⟨i, hi, hasked, rfl⟩
      · exact absurd hknown hnew
      · exact .inr ⟨i, hi, hasked, fun hmem => hnew (mem_of_mem_kept hmem)⟩
  · have hle := hfollowed.length_le
    have hkept := length_kept_le d
    have hbits : ((List.range 16).filter fun i => Asked sub.nackMask i
        ∧ UInt32.ofNat sub.nackPid + 1 + .ofNat i ∉ d.kept).length ≤ 16 :=
      (List.length_filter_le _ _).trans List.length_range.le
    rw [hnacked] at hle
    omega

theorem takeNack_followed (sub : SubPacket) (d : RtcpData) : ∃ d',
    RtcpData.Followed (d.afterPid sub.nackPid) d' sub.nackBlp.toNat (fun i => .ofNat sub.nackPid + 1 + .ofNat i)
        (List.range 16)
      ∧ (d.takeNack sub.nackPid sub.nackBlp).nackedPackets = d'.nackedPackets
      ∧ (d.takeNack sub.nackPid sub.nackBlp).shouldSendNACK = d'.shouldSendNACK
      ∧ (d'.shouldSendNACK = true → (d.takeNack sub.nackPid sub.nackBlp).nackSeqnum = .ofNat sub.nackPid
        ∧ (d.takeNack sub.nackPid sub.nackBlp).nackBlp = sub.nackBlp
        ∧ (d.takeNack sub.nackPid sub.nackBlp).requestRr = true) := by
  obtain ⟨d', hfollowed, htake⟩ := d.takeNack_eq sub.nackPid sub.nackBlp
  refine ⟨d', hfollowed, ?_⟩
  rw [htake]
  by_cases hsend : d'.shouldSendNACK = true
  · rw [if_pos hsend]
    exact ⟨rfl, rfl, fun _ => ⟨rfl, rfl, rfl⟩⟩
  · rw [if_neg hsend]
    exact ⟨rfl, rfl, fun h => absurd h hsend⟩

/-- A NACK that fits does what it has to. -/
theorem suppresses_of_fits (hsmall : ∀ n ∈ d.nackedPackets, n.toNat < 2 ^ 16) (h : NackFits sub d) :
    Suppresses sub d (d.takeNack sub.nackPid sub.nackBlp) := by
  obtain ⟨d', hfollowed, hnacked, hsend, hmessage⟩ := takeNack_followed sub d
  rw [h.order] at hfollowed
  have hspec : (∀ n ∈ sub.nackedNumbers, n ∈ d'.nackedPackets)
      ∧ (∀ n ∈ d'.nackedPackets, n ∈ d.nackedPackets ∨ n ∈ sub.nackedNumbers)
      ∧ (d'.shouldSendNACK = true ↔ ∃ n ∈ sub.nackedNumbers, n ∉ d.nackedPackets)
      ∧ d'.nackedPackets.length ≤ 67 := by
    by_cases hknown : .ofNat sub.nackPid ∈ d.nackedPackets
    · exact followed_of_known h hknown hfollowed
    · obtain ⟨hmem, htrue, hlength⟩ := followed_of_new h hknown hfollowed
      have hpid : .ofNat sub.nackPid ∈ sub.nackedNumbers := (h.mem_nackedNumbers _).mpr (.inl rfl)
      exact ⟨fun n hn => (hmem n).mpr (.inr hn), fun n => (hmem n).mp, iff_of_true htrue ⟨_, hpid, hknown⟩, hlength⟩
  obtain ⟨hadded, honly, hscheduled, hbounded⟩ := hspec
  refine ⟨?_, ?_, ?_, ?_, ?_, ?_⟩
  · rw [hnacked]
    exact hadded
  · rw [hnacked]
    exact honly
  · rw [hsend]
    exact hscheduled
  · rw [hsend]
    exact hmessage
  · rw [hnacked]
    intro n hn
    rcases honly n hn with hold | hnumber
    · exact hsmall n hold
    · exact toNat_lt_of_mem_nackedNumbers hnumber
  · rw [hnacked]
    exact hbounded

end Fits

/-! ### Runs of NACKs -/

/-- A generic NACK about a source. -/
structure IsNack (source : UInt32) (sub : SubPacket) : Prop where
  type : sub.type = rtpFeedbackPT
  count : sub.count = 1
  source : sub.sourceSSRC = source
  size : 16 ≤ sub.bytes.length

def NackStep (d : RtcpData) (sub : SubPacket) (d' : RtcpData) : Prop := d' = d.takeNack sub.nackPid sub.nackBlp

theorem RtcpData.visit_nack (defaultVideoBw : UInt32) (now : Timeval) (s : RtcpData × UInt32) {source : UInt32}
    {sub : SubPacket} (hnack : IsNack source sub) (rest : List UInt8) :
    visit defaultVideoBw now s (sub.bytes ++ rest) = .ok (s.1.takeNack sub.nackPid sub.nackBlp, s.2) := by
  have hsize := hnack.size
  have htype : ¬ sub.type = receiverPT := by
    rw [hnack.type]
    decide
  rw [visit, sub.getPacketType_append, Checked.ok_bind, if_neg htype, if_pos hnack.type, rtpFeedback,
    sub.getNackBlp_append _ hsize, Checked.ok_bind, sub.getNackPid_append _ (by omega), Checked.ok_bind]
  rfl

theorem run_nacks (s : RtcpData × UInt32) (subs : List SubPacket) :
    Run NackStep s.1 subs (subs.foldl (fun s sub => (s.1.takeNack sub.nackPid sub.nackBlp, s.2)) s).1 := by
  induction subs generalizing s with
  | nil => exact .nil
  | cons sub subs ih => exact Run.cons rfl (ih (s.1.takeNack sub.nackPid sub.nackBlp, s.2))

namespace RtcpReporter

/-- A packet of NACKs is a run of them on the data of their source. -/
theorem analyzeFeedback_nacks (r : RtcpReporter) (now : Timeval) (delay : UInt32) {source : UInt32}
    {subs : List SubPacket} (hne : subs ≠ []) (hnacks : ∀ sub ∈ subs, IsNack source sub) :
    ∃ d, r.analyzeFeedback now delay (compound subs) = .ok (r.setData source d)
      ∧ Run NackStep (r.data source) subs d := by
  have hscan := scan_compound hne
    (fun s sub hmem rest => RtcpData.visit_nack r.gathered.defaultVideoBw now s (hnacks sub hmem) rest)
    (length_le_compound subs) (r.data source, delay)
  refine ⟨_, ?_, run_nacks (r.data source, delay) subs⟩
  cases subs with
  | nil => exact absurd rfl hne
  | cons sub subs =>
      have hfirst := hnacks sub List.mem_cons_self
      apply analyzeFeedback_of_scan (.inr (.inr hfirst.type)) _ hfirst.source ((by decide : 12 ≤ 16).trans hfirst.size)
        hscan
      rw [hfirst.count]
      decide

/-- A packet of NACKs. -/
structure NackPacket where
  now : Timeval
  delay : UInt32
  subs : List SubPacket

def NackPacketStep (source : UInt32) (r : RtcpReporter) (packet : NackPacket) (r' : RtcpReporter) : Prop :=
  packet.subs ≠ [] ∧ (∀ sub ∈ packet.subs, IsNack source sub)
    ∧ r.analyzeFeedback packet.now packet.delay (compound packet.subs) = .ok r'

theorem run_of_packets {source : UInt32} {r r' : RtcpReporter} {packets : List NackPacket}
    (hrun : Run (NackPacketStep source) r packets r') :
    Run NackStep (r.data source) (packets.flatMap NackPacket.subs) (r'.data source) := by
  induction hrun with
  | nil => exact .nil
  | @snoc packets r₁ packet r₂ _ hstep ih =>
      obtain ⟨hne, hnacks, hanalyzed⟩ := hstep
      obtain ⟨d, hresult, hnacked⟩ := r₁.analyzeFeedback_nacks packet.now packet.delay hne hnacks
      have hr₂ : r₁.setData source d = r₂ := Except.ok.inj (hresult.symm.trans hanalyzed)
      rw [List.flatMap_append, List.flatMap_singleton, ← hr₂, data_setData, if_pos rfl]
      exact ih.trans hnacked

end RtcpReporter

/-- Where all NACKs fit, the numbers stay in 16 bits. -/
theorem small_of_run {d d' : RtcpData} {subs : List SubPacket} (hempty : d.nackedPackets = [])
    (hrun : Run (Guarded (fun d sub => NackFits sub d) NackStep) d subs d') :
    (∀ n ∈ d'.nackedPackets, n.toNat < 2 ^ 16) ∧ d'.nackedPackets.length ≤ 67 := by
  apply hrun.invariant
  · rw [hempty]
    exact ⟨List.forall_mem_nil _, Nat.zero_le _⟩
  · intro s sub s' hs hstep
    obtain ⟨hfits, rfl⟩ := hstep
    have hsuppresses := suppresses_of_fits hs.1 hfits
    exact ⟨hsuppresses.small, hsuppresses.bounded⟩

/-- **A NACK is passed on if it asks for something new,** in every run of NACKs that all fit. Any packets of NACKs about
a source are such a run on its data. -/
theorem nacks_suppressed (source : UInt32) :
    (∀ (r r' : RtcpReporter) (packets : List RtcpReporter.NackPacket),
      Run (RtcpReporter.NackPacketStep source) r packets r' →
      Run NackStep (r.data source) (packets.flatMap RtcpReporter.NackPacket.subs) (r'.data source))
    ∧ ∀ (d d' : RtcpData) (subs : List SubPacket), d.nackedPackets = [] →
      Run (Guarded (fun d sub => NackFits sub d) NackStep) d subs d' →
      (∀ n ∈ d'.nackedPackets, n.toNat < 2 ^ 16) ∧ d'.nackedPackets.length ≤ 67
        ∧ ∀ sub d'', NackFits sub d' → NackStep d' sub d'' → Suppresses sub d' d'' := by
  refine ⟨fun _ _ _ hrun => RtcpReporter.run_of_packets hrun, ?_⟩
  intro d d' subs hempty hrun
  obtain ⟨hsmall, hbounded⟩ := small_of_run hempty hrun
  refine ⟨hsmall, hbounded, ?_⟩
  intro sub d'' hfits hstep
  cases hstep
  exact suppresses_of_fits hsmall hfits

/-- A NACK about the source 8, for 100 and by the mask 0x0101 for 101 and 109. -/
def nackOf100 : SubPacket where
  bytes := [0x81, 205, 0, 3, 0, 0, 0, 1, 0, 0, 0, 8, 0, 100, 1, 1]
  size := rfl

theorem nacks_suppressed_once : ∃ d', Run (Guarded (fun d sub => NackFits sub d) NackStep) {} [nackOf100] d'
    ∧ (∀ n ∈ d'.nackedPackets, n.toNat < 2 ^ 16) ∧ d'.nackedPackets.length ≤ 67 := by
  have hfits : NackFits nackOf100 {} := ⟨rfl, by decide, by decide, by decide, by decide⟩
  have hrun : Run (Guarded (fun d sub => NackFits sub d) NackStep) {} [nackOf100]
      (({} : RtcpData).takeNack nackOf100.nackPid nackOf100.nackBlp) := Run.nil.snoc ⟨hfits, rfl⟩
  obtain ⟨hsmall, hbounded, -⟩ := (nacks_suppressed 8).2 _ _ _ rfl hrun
  exact ⟨_, hrun, hsmall, hbounded⟩

/-- A NACK for 100 and by the mask 0x0001 for 101. -/
def nackOf101 : SubPacket where
  bytes := [0x81, 205, 0, 3, 0, 0, 0, 1, 0, 0, 0, 8, 0, 100, 0, 1]
  size := rfl

/-- A second entry, here for 200, is not looked at. -/
example : (({} : RtcpData).takeNack 100 0).nackedPackets = [100]
    ∧ SubPacket.nackedNumbers ⟨[0x81, 205, 0, 4, 0, 0, 0, 1, 0, 0, 0, 8, 0, 100, 0, 0, 0, 200, 0, 0], rfl⟩
      = [100, 200] := by
  decide

/-- It puts 109 into the set in place of 101. -/
theorem mask_misread : ∃ d, (RtcpReporter.create 300000 7 8 1 2).analyzeFeedback 0 0 nackOf101.bytes
      = .ok ((RtcpReporter.create 300000 7 8 1 2).setData 8 d)
    ∧ d.nackedPackets = [100, 109] ∧ nackOf101.nackedNumbers = [100, 101] :=
  ⟨_, rfl, rfl, by decide⟩

/-- NACKs for numbers that are all new leave nothing that is erased: the set grows with each. -/
theorem growth_of_new {d : RtcpData} {pids : List Nat} (hnodup : pids.Nodup) (hlt : ∀ pid ∈ pids, pid < 2 ^ 16)
    (hnew : ∀ pid ∈ pids, .ofNat pid ∉ d.nackedPackets) :
    (pids.foldl (fun d pid => d.takeNack pid 0) d).nackedPackets.length = d.nackedPackets.length + pids.length := by
  induction pids generalizing d with
  | nil => rfl
  | cons pid pids ih =>
      rw [List.nodup_cons] at hnodup
      rw [List.forall_mem_cons] at hlt hnew
      obtain ⟨hmem, hsend, hlength⟩ := RtcpData.afterPid_of_new hnew.1
      have htake : (d.takeNack pid 0).nackedPackets = (d.afterPid pid).nackedPackets := by
        change (if (d.afterPid pid).shouldSendNACK then
          ({ d.afterPid pid with nackSeqnum := .ofNat pid, nackBlp := 0, requestRr := true } : RtcpData)
          else d.afterPid pid).nackedPackets = _
        rw [if_pos hsend]
      rw [List.foldl_cons, ih hnodup.2 hlt.2, htake, hlength, List.length_cons]
      · omega
      · intro other hother
        rw [htake, hmem, not_or]
        refine ⟨hnew.2 other hother, fun hsame => hnodup.1 ?_⟩
        have htoNat : other % 2 ^ 32 = pid % 2 ^ 32 := by
          rw [← UInt32.toNat_ofNat', ← UInt32.toNat_ofNat', hsame]
        have hother_lt := hlt.2 other hother
        have hpid_lt := hlt.1
        have heq : other = pid := by omega
        exact heq ▸ hother

end Licode.Media
