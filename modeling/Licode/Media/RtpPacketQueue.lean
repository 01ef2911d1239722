import Licode.Checked
import Licode.Lib.LocalOrder
import Licode.Lib.Run
import Licode.Media.RtpVP8Parser
import Mathlib.Data.Rat.Defs

/-!
# The reordering queue of the recorder

`pushPacket` puts a packet at the place of its sequence number, the newest in front, and then takes
packets from the back until the queue is no deeper than its maximum. `popPacket` gives the oldest
packet once the queue is deep enough. How deep it is comes from the timestamps of the two ends,
whatever lies between them.
-/

namespace Licode.Media

/-- A packet with a whole header. -/
structure RtpPacket where
  data : List UInt8
  header : 12 ≤ data.length
  deriving DecidableEq

namespace RtpPacket

def seqNumber (packet : RtpPacket) : UInt16 := getSeqNumber packet.data

def timestamp (packet : RtpPacket) : UInt32 := getTimestamp packet.data

end RtpPacket

/-- `lastSequenceNumberGiven` is `none` where it is -1 in the source. -/
structure RtpPacketQueue where
  queue : List RtpPacket
  lastSequenceNumberGiven : Option UInt16
  timebase : UInt32
  depthInSeconds : ℚ
  maxDepthInSeconds : ℚ
  deriving DecidableEq

namespace RtpPacketQueue

def create (depthInSeconds maxDepthInSeconds : ℚ) : RtpPacketQueue :=
  if maxDepthInSeconds ≤ depthInSeconds then ⟨[], none, 0, 3, 5⟩
  else ⟨[], none, 0, depthInSeconds, maxDepthInSeconds⟩

def rtpSequenceLessThan (x y : UInt16) : Bool :=
  let diff : Int := y.toNat - x.toNat
  if diff > 0 then diff < 0x8000
  else if diff < 0 then diff < -0x8000
  else false

/-- The difference of the timestamps is one of unsigned numbers. -/
def getDepthInSeconds (q : RtpPacketQueue) : ℚ :=
  match q.queue with
  | newest :: next :: rest =>
      let oldest := (next :: rest).getLast (List.cons_ne_nil next rest)
      if q.timebase > 0 then (newest.timestamp - oldest.timestamp).toNat / q.timebase.toNat else 0
  | _ => 0

def hasData (q : RtpPacketQueue) : Bool := q.getDepthInSeconds > q.depthInSeconds

def getSize (q : RtpPacketQueue) : Nat := q.queue.length

def setTimebase (q : RtpPacketQueue) (timebase : UInt32) : RtpPacketQueue := { q with timebase }

/-- The loop of `pushPacket` over the queue. -/
def insertPacket (packet : RtpPacket) : List RtpPacket → List RtpPacket
  | [] => [packet]
  | other :: rest =>
      if other.seqNumber = packet.seqNumber then other :: rest
      else if rtpSequenceLessThan other.seqNumber packet.seqNumber then packet :: other :: rest
      else other :: insertPacket packet rest

/-- The loop that takes packets from the back, with as many turns as there are packets. -/
def trim : Nat → RtpPacketQueue → Checked RtpPacketQueue
  | 0, q => if q.getDepthInSeconds > q.maxDepthInSeconds then .error .outOfBounds else .ok q
  | turns + 1, q =>
      if q.getDepthInSeconds > q.maxDepthInSeconds then trim turns { q with queue := q.queue.dropLast } else .ok q

/-- Whether a packet comes after one with its number or a greater one has been given. -/
def isLate (q : RtpPacketQueue) (packet : RtpPacket) : Bool :=
  q.lastSequenceNumberGiven.any fun last =>
    rtpSequenceLessThan packet.seqNumber last || packet.seqNumber = last

/-- The queue with a packet in its place. -/
def insert (q : RtpPacketQueue) (packet : RtpPacket) : RtpPacketQueue :=
  { q with queue := insertPacket packet q.queue }

def pushPacket (q : RtpPacketQueue) (packet : RtpPacket) : Checked RtpPacketQueue :=
  if q.isLate packet then .ok q
  else
    let q := q.insert packet
    trim q.queue.length q

def popPacket (q : RtpPacketQueue) (ignoreDepth : Bool) : Option RtpPacket × RtpPacketQueue :=
  match q.queue.getLast? with
  | none => (none, q)
  | some packet =>
      if ignoreDepth || q.getDepthInSeconds > q.depthInSeconds then
        (some packet, { q with
          queue := q.queue.dropLast
          lastSequenceNumberGiven := some packet.seqNumber })
      else (none, q)

@[simp]
theorem maxDepthInSeconds_popPacket (q : RtpPacketQueue) (ignoreDepth : Bool) :
    (q.popPacket ignoreDepth).2.maxDepthInSeconds = q.maxDepthInSeconds := by
  unfold popPacket
  split
  · rfl
  · split_ifs <;> rfl

/-! ### The order of the numbers -/

/-- The numbers of a window of 2 ^ 15 consecutive ones. -/
def window (base : UInt16) : Set UInt16 := { n | (n - base).toNat < 2 ^ 15 }

instance (n base : UInt16) : Decidable (n ∈ window base) := 
  inferInstanceAs (Decidable ((n - base).toNat < 2 ^ 15))

abbrev Less (x y : UInt16) : Prop := rtpSequenceLessThan x y = true

theorem toNat_sub_base (n base : UInt16) :
    (n - base).toNat = if base.toNat ≤ n.toNat then n.toNat - base.toNat else n.toNat + 2 ^ 16 - base.toNat := by
  have hn := n.toNat_lt
  have hbase := base.toNat_lt
  rw [UInt16.toNat_sub]
  split_ifs <;> omega

theorem less_iff {base x y : UInt16} (hx : x ∈ window base) (hy : y ∈ window base) :
    Less x y ↔ (x - base).toNat < (y - base).toNat := by
  have hltx := x.toNat_lt
  have hlty := y.toNat_lt
  have hltb := base.toNat_lt
  simp only [window, Set.mem_ofPred_eq, toNat_sub_base] at hx hy
  rw [toNat_sub_base, toNat_sub_base, Less, rtpSequenceLessThan]
  split_ifs at hx hy ⊢ <;> simp only [decide_eq_true_eq, false_iff] <;> omega

theorem orderedOn_window (base : UInt16) : OrderedOn Less (window base) := by
  refine OrderedOn.of_rank (fun n => (n - base).toNat) ?_ fun x hx y hy => less_iff hx hy
  intro x _ y _ heq
  have hsub : x - base = y - base := UInt16.toNat_inj.mp heq
  rw [← UInt16.sub_add_cancel x base, hsub, UInt16.sub_add_cancel]

theorem not_less_self (n : UInt16) : ¬ Less n n := by simp [Less, rtpSequenceLessThan]

/-! ### The place of a packet -/

theorem insertPacket_of_mem {packet : RtpPacket} {queue : List RtpPacket} {base : UInt16}
    (hqueue : Descending Less RtpPacket.seqNumber queue) (hwindow : ∀ p ∈ queue, p.seqNumber ∈ window base)
    (hmem : ∃ p ∈ queue, p.seqNumber = packet.seqNumber) : insertPacket packet queue = queue := by
  induction queue with
  | nil =>
      obtain ⟨p, hp, -⟩ := hmem
      cases hp
  | cons other rest ih =>
      rw [insertPacket]
      by_cases hsame : other.seqNumber = packet.seqNumber
      · rw [if_pos hsame]
      · obtain ⟨p, hp, hnumber⟩ := hmem
        have hrest : p ∈ rest := by
          rcases List.mem_cons.mp hp with rfl | hp
          · exact absurd hnumber hsame
          · exact hp
        obtain ⟨hhead, htail⟩ := List.pairwise_cons.mp hqueue
        have hgreater : ¬ Less other.seqNumber packet.seqNumber := by
          rw [← hnumber]
          exact (orderedOn_window base).asymm (hwindow p hp) (hwindow other (by simp)) (hhead p hrest)
        rw [if_neg hsame, if_neg hgreater, ih htail (fun q hq => hwindow q (by simp [hq])) ⟨p, hrest, hnumber⟩]

theorem insertPacket_of_not_mem {packet : RtpPacket} {queue : List RtpPacket} {base : UInt16}
    (hqueue : Descending Less RtpPacket.seqNumber queue) (hwindow : ∀ p ∈ queue, p.seqNumber ∈ window base)
    (hpacket : packet.seqNumber ∈ window base) (hnew : ∀ p ∈ queue, p.seqNumber ≠ packet.seqNumber) :
    ∃ before after, queue = before ++ after ∧ insertPacket packet queue = before ++ packet :: after
      ∧ (∀ p ∈ before, Less packet.seqNumber p.seqNumber) ∧ ∀ p ∈ after, Less p.seqNumber packet.seqNumber := by
  induction queue with
  | nil => exact ⟨[], [], rfl, rfl, by simp, by simp⟩
  | cons other rest ih =>
      have hsame : other.seqNumber ≠ packet.seqNumber := hnew other (by simp)
      rw [insertPacket, if_neg hsame]
      by_cases hless : Less other.seqNumber packet.seqNumber
      · rw [if_pos hless]
        refine ⟨[], other :: rest, rfl, rfl, by simp, ?_⟩
        exact hqueue.less_of_head (orderedOn_window base) hwindow hpacket hless
      · rw [if_neg hless]
        have hgreater : Less packet.seqNumber other.seqNumber := by
          rcases (orderedOn_window base).total _ (hwindow other (by simp)) _ hpacket with h | h | h
          · exact absurd h hless
          · exact absurd h hsame
          · exact h
        obtain ⟨before, after, hsplit, hinsert, hbefore, hafter⟩ := ih (List.pairwise_cons.mp hqueue).2
          (fun p hp => hwindow p (by simp [hp])) fun p hp => hnew p (by simp [hp])
        refine ⟨other :: before, after, by rw [hsplit]; rfl, by rw [hinsert]; rfl, ?_, hafter⟩
        intro p hp
        rcases List.mem_cons.mp hp with rfl | hp
        · exact hgreater
        · exact hbefore p hp

theorem insertPacket_ne_nil (packet : RtpPacket) (queue : List RtpPacket) : insertPacket packet queue ≠ [] := by
  cases queue with
  | nil => exact List.cons_ne_nil _ _
  | cons other rest =>
      rw [insertPacket]
      split_ifs <;> exact List.cons_ne_nil _ _

/-! ### Trimming -/

/-- The depth of the queue if only these packets were in it. -/
def depthOf (q : RtpPacketQueue) (queue : List RtpPacket) : ℚ := getDepthInSeconds { q with queue }

/-- What trimming leaves of packets: as much of their front as is not deeper than the maximum. -/
structure Trimmed (q : RtpPacketQueue) (queue kept : List RtpPacket) : Prop where
  front : kept <+: queue
  depth : q.depthOf kept ≤ q.maxDepthInSeconds
  longest : ∀ more, more <+: queue → kept.length < more.length → q.depthOf more > q.maxDepthInSeconds
  ne_nil : queue ≠ [] → kept ≠ []

theorem trimmed_self {q : RtpPacketQueue} {queue : List RtpPacket} (h : q.depthOf queue ≤ q.maxDepthInSeconds) :
    q.Trimmed queue queue where
  front := List.prefix_rfl
  depth := h
  longest _ hmore hlonger := absurd hmore.length_le (not_le.mpr hlonger)
  ne_nil := id

theorem depthOf_singleton (q : RtpPacketQueue) (packet : RtpPacket) : q.depthOf [packet] = 0 := rfl

theorem trim_concat (q : RtpPacketQueue) (front : List RtpPacket) (oldest : RtpPacket) :
    trim (front ++ [oldest]).length { q with queue := front ++ [oldest] }
      = if q.depthOf (front ++ [oldest]) > q.maxDepthInSeconds then trim front.length { q with queue := front }
        else .ok { q with queue := front ++ [oldest] } := by
  rw [List.length_append, List.length_singleton, trim, List.dropLast_concat]
  rfl

theorem trim_eq {q : RtpPacketQueue} (hmax : 0 ≤ q.maxDepthInSeconds) (queue : List RtpPacket) :
    ∃ kept, trim queue.length { q with queue } = .ok { q with queue := kept } ∧ q.Trimmed queue kept := by
  -- from the back, as the packets are taken
  induction queue using List.reverseRecOn with
  | nil =>
      exact ⟨[], if_neg (not_lt.mpr hmax), trimmed_self hmax⟩
  | append_singleton front oldest ih =>
      rw [trim_concat]
      by_cases hdeep : q.depthOf (front ++ [oldest]) > q.maxDepthInSeconds
      · rw [if_pos hdeep]
        obtain ⟨kept, htrim, hkept⟩ := ih
        refine ⟨kept, htrim, hkept.front.trans (List.prefix_append _ _), hkept.depth, ?_, ?_⟩
        · intro more hmore hlonger
          rcases List.prefix_concat_iff.mp hmore with rfl | hmore
          · exact hdeep
          · exact hkept.longest more hmore hlonger
        · intro _
          refine hkept.ne_nil ?_
          rintro rfl
          rw [List.nil_append, depthOf_singleton] at hdeep
          exact absurd hmax (not_le.mpr hdeep)
      · rw [if_neg hdeep]
        exact ⟨_, rfl, trimmed_self (not_lt.mp hdeep)⟩

/-- There is only one such front. -/
theorem Trimmed.unique {q : RtpPacketQueue} {queue kept kept' : List RtpPacket} (h : q.Trimmed queue kept)
    (h' : q.Trimmed queue kept') : kept = kept' := by
  rcases lt_trichotomy kept.length kept'.length with hlt | heq | hgt
  · exact absurd h'.depth (not_le.mpr (h.longest kept' h'.front hlt))
  · exact (List.prefix_of_prefix_length_le h.front h'.front heq.le).eq_of_length heq
  · exact absurd h.depth (not_le.mpr (h'.longest kept h.front hgt))

/-- What a packet does to the queue. -/
theorem pushPacket_eq {q : RtpPacketQueue} (hmax : 0 ≤ q.maxDepthInSeconds) (packet : RtpPacket) :
    q.isLate packet = true ∧ q.pushPacket packet = .ok q
      ∨ q.isLate packet = false ∧ ∃ kept, q.pushPacket packet = .ok { q with queue := kept }
        ∧ q.Trimmed (insertPacket packet q.queue) kept := by
  rw [pushPacket]
  by_cases hlate : q.isLate packet = true
  · rw [if_pos hlate]
    exact .inl ⟨hlate, rfl⟩
  · rw [if_neg hlate]
    exact .inr ⟨by simpa using hlate, trim_eq hmax _⟩

end RtpPacketQueue

end Licode.Media
