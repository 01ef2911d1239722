import Licode.Media.RtpPacketQueue
import Mathlib.Algebra.Order.Ring.Rat
import Mathlib.Tactic.NormNum

/-!
# Runs of the reordering queue

The numbers of the packets are compared around the wrap, which is an order only among numbers that lie
close together. As long as those that meet in the queue do, packets leave it in their order. Whether
there is one to leave is another matter: a push can make the queue shallower than it was.
-/

namespace Licode.Media

namespace RtpPacketQueue

/-! ### Runs -/

/-- What the threads of the recorder do to a queue; a pop carries what it has returned. -/
inductive Action where
  | push (packet : RtpPacket)
  | pop (ignoreDepth : Bool) (packet : Option RtpPacket)
  | setTimebase (timebase : UInt32)
  deriving DecidableEq

def Step (q : RtpPacketQueue) (action : Action) (q' : RtpPacketQueue) : Prop :=
  match action with
  | .push packet => q.pushPacket packet = .ok q'
  | .pop ignoreDepth packet => q.popPacket ignoreDepth = (packet, q')
  | .setTimebase timebase => q.setTimebase timebase = q'

instance (q : RtpPacketQueue) (action : Action) (q' : RtpPacketQueue) : Decidable (q.Step action q') :=
  match action with
  | .push packet => inferInstanceAs (Decidable (q.pushPacket packet = .ok q'))
  | .pop ignoreDepth packet => inferInstanceAs (Decidable (q.popPacket ignoreDepth = (packet, q')))
  | .setTimebase timebase => inferInstanceAs (Decidable (q.setTimebase timebase = q'))

/-- The number of the packet that an action gives. -/
def Action.given : Action → Option UInt16
  | .pop _ packet => packet.map RtpPacket.seqNumber
  | _ => none

/-- The numbers of the packets given in a run. -/
def given (actions : List Action) : List UInt16 := actions.filterMap Action.given

/-- The numbers that meet in a push. -/
def numbers (q : RtpPacketQueue) (packet : RtpPacket) : List UInt16 :=
  packet.seqNumber :: q.queue.map RtpPacket.seqNumber ++ q.lastSequenceNumberGiven.toList

/-- A packet whose number lies in one window with the queued ones and the last given. -/
def InWindow (q : RtpPacketQueue) (packet : RtpPacket) : Prop :=
  ∃ base, ∀ n ∈ q.numbers packet, n ∈ window base

/-- The condition on a run: every packet is pushed within a window. -/
def Close (q : RtpPacketQueue) (action : Action) : Prop :=
  ∀ packet, action = .push packet → q.InWindow packet

theorem popPacket_cases (q : RtpPacketQueue) (ignoreDepth : Bool) :
    q.popPacket ignoreDepth = (none, q) ∧ (q.queue = [] ∨ ignoreDepth = false ∧ q.hasData = false)
      ∨ (ignoreDepth = true ∨ q.hasData = true) ∧ ∃ front oldest, q.queue = front ++ [oldest]
        ∧ q.popPacket ignoreDepth
          = (some oldest, { q with queue := front, lastSequenceNumberGiven := some oldest.seqNumber }) := by
  rcases List.eq_nil_or_concat q.queue with hnil | ⟨front, oldest, hconcat⟩
  · refine .inl ⟨?_, .inl hnil⟩
    rw [popPacket, hnil]
    rfl
  · rw [List.concat_eq_append] at hconcat
    have hlast : q.queue.getLast? = some oldest := by rw [hconcat, List.getLast?_concat]
    by_cases hdeep : (ignoreDepth || decide (q.getDepthInSeconds > q.depthInSeconds)) = true
    · refine .inr ⟨by simpa [hasData] using hdeep, front, oldest, hconcat, ?_⟩
      rw [popPacket, hlast]
      dsimp only
      rw [if_pos hdeep, hconcat, List.dropLast_concat]
    · refine .inl ⟨?_, .inr (by simpa [hasData] using hdeep)⟩
      rw [popPacket, hlast]
      dsimp only
      rw [if_neg hdeep]

/-- The depths that the constructor accepts or sets, for a depth that is not negative. -/
structure Configured (q : RtpPacketQueue) : Prop where
  depth : 0 ≤ q.depthInSeconds
  less : q.depthInSeconds < q.maxDepthInSeconds

theorem Configured.max {q : RtpPacketQueue} (h : q.Configured) : 0 ≤ q.maxDepthInSeconds :=
  h.depth.trans h.less.le

theorem configured_create {depthInSeconds : ℚ} (h : 0 ≤ depthInSeconds) (maxDepthInSeconds : ℚ) :
    (create depthInSeconds maxDepthInSeconds).Configured := by
  rw [create]
  split_ifs with hinvalid
  · exact ⟨by norm_num, by norm_num⟩
  · exact ⟨h, not_le.mp hinvalid⟩

theorem Configured.step {q q' : RtpPacketQueue} {action : Action} (h : q.Configured) (hstep : q.Step action q') :
    q'.Configured := by
  cases action with
  | push packet =>
      obtain ⟨-, hpush⟩ | ⟨-, kept, hpush, -⟩ := pushPacket_eq h.max packet
      · cases hpush.symm.trans hstep
        exact h
      · cases hpush.symm.trans hstep
        exact ⟨h.depth, h.less⟩
  | pop ignoreDepth packet =>
      obtain ⟨hpop, -⟩ | ⟨-, front, oldest, -, hpop⟩ := q.popPacket_cases ignoreDepth
      · cases hpop.symm.trans hstep
        exact h
      · cases hpop.symm.trans hstep
        exact ⟨h.depth, h.less⟩
  | setTimebase timebase =>
      cases hstep
      exact ⟨h.depth, h.less⟩

/-! ### Order -/

/-- The packets descend from the front to the back, and all are ahead of the last one given. -/
structure Ordered (q : RtpPacketQueue) : Prop where
  descending : Descending Less RtpPacket.seqNumber q.queue
  ahead : ∀ last ∈ q.lastSequenceNumberGiven, ∀ p ∈ q.queue, Less last p.seqNumber

/-- What a push leaves: the queue as it was, where the packet is late; else what trimming keeps of the queue,
and of the packet in its place where its number is not there yet. -/
def Placed (q : RtpPacketQueue) (packet : RtpPacket) (kept : List RtpPacket) : Prop :=
  q.isLate packet = true ∧ kept = q.queue
    ∨ q.isLate packet = false ∧ kept ≠ []
      ∧ ((∃ p ∈ q.queue, p.seqNumber = packet.seqNumber) ∧ q.Trimmed q.queue kept
        ∨ ∃ before after, q.queue = before ++ after ∧ (∀ p ∈ before, Less packet.seqNumber p.seqNumber)
          ∧ (∀ p ∈ after, Less p.seqNumber packet.seqNumber) ∧ q.Trimmed (before ++ packet :: after) kept)

theorem pushPacket_placed {q : RtpPacketQueue} (hmax : 0 ≤ q.maxDepthInSeconds) (hordered : q.Ordered)
    {packet : RtpPacket} (hwindow : q.InWindow packet) :
    ∃ kept, q.pushPacket packet = .ok { q with queue := kept } ∧ q.Placed packet kept := by
  obtain ⟨base, hbase⟩ := hwindow
  have hpacket : packet.seqNumber ∈ window base := hbase _ (by simp [numbers])
  have hqueue : ∀ p ∈ q.queue, p.seqNumber ∈ window base := by
    intro p hp
    exact hbase _ (by simp only [numbers, List.cons_append, List.mem_cons, List.mem_append, List.mem_map]; grind)
  obtain ⟨hlate, hpush⟩ | ⟨hlate, kept, hpush, htrimmed⟩ := pushPacket_eq hmax packet
  · exact ⟨q.queue, hpush, .inl ⟨hlate, rfl⟩⟩
  · refine ⟨kept, hpush, .inr ⟨hlate, htrimmed.ne_nil (insertPacket_ne_nil _ _), ?_⟩⟩
    by_cases hmem : ∃ p ∈ q.queue, p.seqNumber = packet.seqNumber
    · rw [insertPacket_of_mem hordered.descending hqueue hmem] at htrimmed
      exact .inl ⟨hmem, htrimmed⟩
    · obtain ⟨before, after, hsplit, hinsert, hbefore, hafter⟩ := insertPacket_of_not_mem hordered.descending hqueue
        hpacket fun p hp hsame => hmem ⟨p, hp, hsame⟩
      rw [hinsert] at htrimmed
      exact .inr ⟨before, after, hsplit, hbefore, hafter, htrimmed⟩

theorem less_of_not_late {q : RtpPacketQueue} {packet : RtpPacket} (hwindow : q.InWindow packet)
    (hlate : q.isLate packet = false) : ∀ last ∈ q.lastSequenceNumberGiven, Less last packet.seqNumber := by
  intro last hlast
  obtain ⟨base, hbase⟩ := hwindow
  have hpacket : packet.seqNumber ∈ window base := hbase _ (by simp [numbers])
  have hmem : last ∈ window base := hbase _ (by simp [numbers, Option.mem_def.mp hlast])
  rw [isLate, Option.mem_def.mp hlast, Option.any_some, Bool.or_eq_false_iff] at hlate
  rcases (orderedOn_window base).total _ hmem _ hpacket with h | h | h
  · exact h
  · exact absurd h.symm (by simpa using hlate.2)
  · exact absurd h (by simpa using hlate.1)

theorem Ordered.placed {q : RtpPacketQueue} (h : q.Ordered) {packet : RtpPacket} {kept : List RtpPacket}
    (hwindow : q.InWindow packet) (hplaced : q.Placed packet kept) : Ordered { q with queue := kept } := by
  obtain ⟨-, rfl⟩ | ⟨hlate, -, ⟨-, htrimmed⟩ | ⟨before, after, hsplit, hbefore, hafter, htrimmed⟩⟩ := hplaced
  · exact ⟨h.descending, h.ahead⟩
  · refine ⟨h.descending.sublist htrimmed.front.sublist, fun last hlast p hp => ?_⟩
    exact h.ahead last hlast p (htrimmed.front.mem hp)
  · have hdescending : Descending Less RtpPacket.seqNumber (before ++ packet :: after) :=
      Descending.insert (hsplit ▸ h.descending) hbefore hafter
    refine ⟨hdescending.sublist htrimmed.front.sublist, fun last hlast p hp => ?_⟩
    have hmem : p ∈ before ++ packet :: after := htrimmed.front.mem hp
    rw [List.mem_append, List.mem_cons] at hmem
    have hahead : ∀ p ∈ before ++ after, Less last p.seqNumber := hsplit ▸ h.ahead last hlast
    rcases hmem with hp | rfl | hp
    · exact hahead p (List.mem_append_left _ hp)
    · exact less_of_not_late hwindow hlate last hlast
    · exact hahead p (List.mem_append_right _ hp)

/-- Of the packets given so far and the queue: the numbers given ascend, and the last of them is the one the
queue knows. -/
structure Sorted (actions : List Action) (q : RtpPacketQueue) : Prop where
  configured : q.Configured
  ordered : q.Ordered
  ascending : (given actions).IsChain Less
  last : (given actions).getLast? = q.lastSequenceNumberGiven

theorem given_snoc (actions : List Action) (action : Action) :
    given (actions ++ [action]) = given actions ++ action.given.toList := by
  rw [given, List.filterMap_append, given]
  cases haction : action.given <;> simp [haction]

theorem Sorted.step {actions : List Action} {q q' : RtpPacketQueue} {action : Action} (h : Sorted actions q)
    (hstep : Guarded Close Step q action q') : Sorted (actions ++ [action]) q' := by
  obtain ⟨hclose, hstep⟩ := hstep
  have hconfigured := h.configured.step hstep
  cases action with
  | push packet =>
      have hgiven : given (actions ++ [.push packet]) = given actions := by simp [given_snoc, Action.given]
      obtain ⟨kept, hpush, hplaced⟩ := pushPacket_placed h.configured.max h.ordered (hclose packet rfl)
      cases hpush.symm.trans hstep
      exact ⟨hconfigured, h.ordered.placed (hclose packet rfl) hplaced, hgiven ▸ h.ascending, hgiven ▸ h.last⟩
  | pop ignoreDepth packet =>
      obtain ⟨hpop, -⟩ | ⟨-, front, oldest, hqueue, hpop⟩ := q.popPacket_cases ignoreDepth
      · cases hpop.symm.trans hstep
        have hgiven : given (actions ++ [.pop ignoreDepth none]) = given actions := by simp [given_snoc, Action.given]
        exact ⟨hconfigured, h.ordered, hgiven ▸ h.ascending, hgiven ▸ h.last⟩
      · cases hpop.symm.trans hstep
        have hgiven : given (actions ++ [.pop ignoreDepth (some oldest)]) = given actions ++ [oldest.seqNumber] := by
          simp [given_snoc, Action.given]
        have hdescending : Descending Less RtpPacket.seqNumber (front ++ [oldest]) := hqueue ▸ h.ordered.descending
        refine ⟨hconfigured, ⟨hdescending.sublist (List.sublist_append_left _ _), ?_⟩, ?_, ?_⟩
        · intro last hlast p hp
          cases hlast
          exact hdescending.less_of_concat p hp
        · rw [hgiven]
          refine isChain_concat h.ascending fun last hlast => ?_
          exact h.ordered.ahead last (h.last ▸ hlast) oldest (by simp [hqueue])
        · rw [hgiven, List.getLast?_concat]
  | setTimebase timebase =>
      have hgiven : given (actions ++ [.setTimebase timebase]) = given actions := by simp [given_snoc, Action.given]
      cases hstep
      exact ⟨hconfigured, ⟨h.ordered.descending, h.ordered.ahead⟩, hgiven ▸ h.ascending, hgiven ▸ h.last⟩

theorem sorted_create {depthInSeconds : ℚ} (h : 0 ≤ depthInSeconds) (maxDepthInSeconds : ℚ) :
    Sorted [] (create depthInSeconds maxDepthInSeconds) where
  configured := configured_create h _
  ordered := by
    rw [create]
    split_ifs <;> exact ⟨List.Pairwise.nil, by simp⟩
  ascending := List.isChain_nil
  last := by
    rw [create]
    split_ifs <;> rfl

theorem sorted_of_run {depthInSeconds maxDepthInSeconds : ℚ} (hdepth : 0 ≤ depthInSeconds) {actions : List Action}
    {q : RtpPacketQueue} (hrun : Run (Guarded Close Step) (create depthInSeconds maxDepthInSeconds) actions q) :
    Sorted actions q := by
  induction hrun with
  | nil => exact sorted_create hdepth _
  | snoc _ hlast ih => exact ih.step hlast

/-- **Packets are kept and given in the order of their numbers** in every run whose pushes lie in windows. -/
theorem run_ordered {depthInSeconds maxDepthInSeconds : ℚ} (hdepth : 0 ≤ depthInSeconds) {actions : List Action}
    {q : RtpPacketQueue} (hrun : Run (Guarded Close Step) (create depthInSeconds maxDepthInSeconds) actions q) :
    Descending Less RtpPacket.seqNumber q.queue ∧ (q.queue.map RtpPacket.seqNumber).Nodup
      ∧ (given actions).IsChain Less ∧ (given actions).getLast? = q.lastSequenceNumberGiven
      ∧ (∀ last ∈ q.lastSequenceNumberGiven, ∀ p ∈ q.queue, Less last p.seqNumber)
      ∧ ∀ packet, q.InWindow packet →
        ∃ kept, q.pushPacket packet = .ok { q with queue := kept } ∧ q.Placed packet kept := by
  have h := sorted_of_run hdepth hrun
  refine ⟨h.ordered.descending, ?_, h.ascending, h.last, h.ordered.ahead,
    fun packet => pushPacket_placed h.configured.max h.ordered⟩
  rw [List.Nodup, List.pairwise_map]
  refine h.ordered.descending.imp ?_
  intro p p' hless hsame
  rw [hsame] at hless
  exact not_less_self _ hless

/-- A packet with a number and a timestamp, and no payload. -/
def packetWith (number : UInt16) (timestamp : UInt32) : RtpPacket :=
  ⟨[128, 100] ++ Overlay.image 2 number.toNat ++ Overlay.image 4 timestamp.toNat ++ [0, 0, 0, 0], by simp⟩

/-- Two packets that come in the wrong order, at the wrap. -/
theorem run_ordered_wrap :
    ∃ actions q, Run (Guarded Close Step) (create 5 10) actions q ∧ given actions = [65535, 0]
      ∧ (given actions).IsChain Less := by
  have hfirst : Guarded Close Step (create 5 10) (.push (packetWith 0 0)) ⟨[packetWith 0 0], none, 0, 5, 10⟩ := by
    refine ⟨?_, by decide +kernel⟩
    rintro packet ⟨⟩
    exact ⟨65535, List.forall_mem_singleton.mpr (by decide +kernel)⟩
  have hsecond : Guarded Close Step ⟨[packetWith 0 0], none, 0, 5, 10⟩ (.push (packetWith 65535 0))
      ⟨[packetWith 0 0, packetWith 65535 0], none, 0, 5, 10⟩ := by
    refine ⟨?_, by decide +kernel⟩
    rintro packet ⟨⟩
    exact ⟨65535, List.forall_mem_cons.mpr ⟨by decide +kernel, List.forall_mem_singleton.mpr (by decide +kernel)⟩⟩
  have hpop : Guarded Close Step ⟨[packetWith 0 0, packetWith 65535 0], none, 0, 5, 10⟩
      (.pop true (some (packetWith 65535 0))) ⟨[packetWith 0 0], some 65535, 0, 5, 10⟩ :=
    ⟨by rintro packet ⟨⟩, by decide +kernel⟩
  have hlast : Guarded Close Step ⟨[packetWith 0 0], some 65535, 0, 5, 10⟩
      (.pop true (some (packetWith 0 0))) ⟨[], some 0, 0, 5, 10⟩ :=
    ⟨by rintro packet ⟨⟩, by decide +kernel⟩
  have hrun := (((Run.nil.snoc hfirst).snoc hsecond).snoc hpop).snoc hlast
  exact ⟨_, _, hrun, by decide +kernel, (run_ordered (by norm_num) hrun).2.2.1⟩

/-! ### Depth -/

/-- How many seconds a packet is behind another. -/
def behind (q : RtpPacketQueue) (newest packet : RtpPacket) : ℚ :=
  (newest.timestamp - packet.timestamp).toNat / q.timebase.toNat

theorem depthOf_concat (q : RtpPacketQueue) {front : List RtpPacket} {newest oldest : RtpPacket}
    (hnewest : (front ++ [oldest]).head? = some newest) : q.depthOf (front ++ [oldest]) = q.behind newest oldest := by
  have htimebase : ¬ q.timebase > 0 → q.timebase.toNat = 0 := by
    intro h
    rw [gt_iff_lt, UInt32.lt_iff_toNat_lt] at h
    simpa using h
  cases front with
  | nil =>
      obtain rfl : oldest = newest := by simpa using hnewest
      rw [List.nil_append, depthOf_singleton, behind, UInt32.sub_self]
      simp
  | cons other front =>
      obtain rfl : other = newest := by simpa using hnewest
      rw [depthOf, behind]
      cases front with
      | nil =>
          simp only [getDepthInSeconds, List.cons_append, List.nil_append, List.getLast_singleton]
          split_ifs with hbase
          · rfl
          · rw [htimebase hbase, Nat.cast_zero, div_zero]
      | cons next front =>
          simp only [getDepthInSeconds, List.cons_append]
          split_ifs with hbase
          · rw [show (next :: (front ++ [oldest])).getLast (List.cons_ne_nil _ _) = oldest by simp]
          · rw [htimebase hbase, Nat.cast_zero, div_zero]

/-- Of the packets in the queue with the pushed one in its place, the oldest that is not too far behind the newest
is far enough behind it. -/
def StaysDeep (q : RtpPacketQueue) (packet : RtpPacket) : Prop :=
  ∃ newest front oldest rest, insertPacket packet q.queue = front ++ oldest :: rest
    ∧ (insertPacket packet q.queue).head? = some newest
    ∧ q.depthInSeconds < q.behind newest oldest ∧ q.behind newest oldest ≤ q.maxDepthInSeconds
    ∧ ∀ p ∈ rest, q.maxDepthInSeconds < q.behind newest p

theorem head_eq_of_front {queue front : List RtpPacket} {newest : RtpPacket} (hfront : front <+: queue) (hne : front ≠ [])
    (hnewest : queue.head? = some newest) : front.head? = some newest := by
  obtain ⟨rest, rfl⟩ := hfront
  rwa [List.head?_append_of_ne_nil _ hne] at hnewest

/-- A front that ends with a packet not too far behind, all others being so, is what trimming keeps. -/
theorem trimmed_concat {q : RtpPacketQueue} {queue front rest : List RtpPacket} {newest oldest : RtpPacket}
    (hsplit : queue = front ++ oldest :: rest) (hnewest : queue.head? = some newest)
    (hdepth : q.behind newest oldest ≤ q.maxDepthInSeconds)
    (hrest : ∀ p ∈ rest, q.maxDepthInSeconds < q.behind newest p) : q.Trimmed queue (front ++ [oldest]) := by
  subst hsplit
  have hfront : front ++ [oldest] <+: front ++ oldest :: rest := ⟨rest, by simp⟩
  refine ⟨hfront, ?_, ?_, fun _ => by simp⟩
  · rw [depthOf_concat q (head_eq_of_front hfront (by simp) hnewest)]
    exact hdepth
  · intro more hmore hlonger
    -- a longer front ends with one of the others
    obtain ⟨middle, hmiddle⟩ := List.prefix_of_prefix_length_le hfront hmore hlonger.le
    rcases List.eq_nil_or_concat middle with rfl | ⟨middle, last, rfl⟩
    · simp [← hmiddle] at hlonger
    · rw [List.concat_eq_append, ← List.append_assoc] at hmiddle
      have hmem : last ∈ rest := by
        obtain ⟨tail, htail⟩ := hmore
        have hrest' : front ++ oldest :: (middle ++ last :: tail) = front ++ oldest :: rest := by
          rw [← htail, ← hmiddle]
          simp
        have heq : middle ++ last :: tail = rest := by simpa using hrest'
        simp [← heq]
      rw [← hmiddle] at hmore ⊢
      rw [depthOf_concat q (head_eq_of_front hmore (by simp) hnewest)]
      exact hrest last hmem

theorem Trimmed.rest {q : RtpPacketQueue} {queue front rest : List RtpPacket} {newest oldest : RtpPacket}
    (hsplit : queue = front ++ oldest :: rest) (hnewest : queue.head? = some newest)
    (h : q.Trimmed queue (front ++ [oldest])) : ∀ p ∈ rest, q.maxDepthInSeconds < q.behind newest p := by
  intro p hp
  obtain ⟨middle, tail, rfl⟩ := List.append_of_mem hp
  have hmore : front ++ oldest :: middle ++ [p] <+: queue := ⟨tail, by simp [hsplit]⟩
  rw [← depthOf_concat q (head_eq_of_front hmore (by simp) hnewest)]
  exact h.longest _ hmore (by simp)

/-- Whether there is data after a push that is not late. -/
theorem staysDeep_iff {q : RtpPacketQueue} {packet : RtpPacket} {kept : List RtpPacket}
    (h : q.Trimmed (insertPacket packet q.queue) kept) :
    q.depthOf kept > q.depthInSeconds ↔ q.StaysDeep packet := by
  have hne := insertPacket_ne_nil packet q.queue
  constructor
  · intro hdeep
    rcases List.eq_nil_or_concat kept with rfl | ⟨front, oldest, rfl⟩
    · exact absurd rfl (h.ne_nil hne)
    · rw [List.concat_eq_append] at h hdeep
      obtain ⟨rest, hrest⟩ := h.front
      have hsplit : insertPacket packet q.queue = front ++ oldest :: rest := by simp [← hrest]
      obtain ⟨newest, hnewest⟩ := Option.isSome_iff_exists.mp (List.isSome_head?.mpr hne)
      have hhead : (front ++ [oldest]).head? = some newest := head_eq_of_front h.front (by simp) hnewest
      have hkept := h.depth
      rw [depthOf_concat q hhead] at hdeep hkept
      exact ⟨newest, front, oldest, rest, hsplit, hnewest, hdeep, hkept, h.rest hsplit hnewest⟩
  · rintro ⟨newest, front, oldest, rest, hsplit, hnewest, hdeep, hmax, hrest⟩
    have htrimmed := trimmed_concat hsplit hnewest hmax hrest
    rw [h.unique htrimmed, depthOf_concat q (head_eq_of_front htrimmed.front (by simp) hnewest)]
    exact hdeep

theorem isSome_popPacket_iff {q : RtpPacketQueue} (hdepth : 0 ≤ q.depthInSeconds) :
    (q.popPacket false).1.isSome ↔ q.hasData = true := by
  obtain ⟨hpop, hnil | ⟨-, hdata⟩⟩ | ⟨hdata, front, oldest, -, hpop⟩ := q.popPacket_cases false
  · have hdata : q.hasData = false := by
      rw [hasData, getDepthInSeconds, hnil]
      exact decide_eq_false (not_lt.mpr hdepth)
    simp [hpop, hdata]
  · simp [hpop, hdata]
  · have hdata : q.hasData = true := by simpa using hdata
    simp [hpop, hdata]

theorem Configured.run {q q' : RtpPacketQueue} {actions : List Action} (h : q.Configured) (hrun : Run Step q actions q') :
    q'.Configured :=
  hrun.invariant h fun hconfigured hstep => hconfigured.step hstep

theorem Configured.push {q q' : RtpPacketQueue} (h : q.Configured) {packet : RtpPacket}
    (hpush : q.pushPacket packet = .ok q') : q'.Configured :=
  h.step (show q.Step (.push packet) q' from hpush)

theorem hasData_push_iff {q q' : RtpPacketQueue} (h : q.Configured) {packet : RtpPacket} (hdata : q.hasData = true)
    (hpush : q.pushPacket packet = .ok q') :
    q'.hasData = true ↔ q.isLate packet = true ∨ q.StaysDeep packet := by
  obtain ⟨hlate, hsame⟩ | ⟨hlate, kept, hkept, htrimmed⟩ := pushPacket_eq h.max packet
  · cases hsame.symm.trans hpush
    simp [hdata, hlate]
  · cases hkept.symm.trans hpush
    rw [← staysDeep_iff htrimmed, hlate, hasData, decide_eq_true_iff]
    simp [depthOf]

theorem getSize_push_pos {q q' : RtpPacketQueue} (h : q.Configured) {packet : RtpPacket} (hsize : 0 < q.getSize)
    (hpush : q.pushPacket packet = .ok q') : 0 < q'.getSize := by
  obtain ⟨-, hsame⟩ | ⟨-, kept, hkept, htrimmed⟩ := pushPacket_eq h.max packet
  · cases hsame.symm.trans hpush
    exact hsize
  · cases hkept.symm.trans hpush
    exact List.length_pos_of_ne_nil (htrimmed.ne_nil (insertPacket_ne_nil _ _))

/-- A step of the producer, with a packet that is late or leaves the queue deep enough. -/
def Producing (q : RtpPacketQueue) (packet : RtpPacket) (q' : RtpPacketQueue) : Prop :=
  (q.isLate packet = true ∨ q.StaysDeep packet) ∧ q.pushPacket packet = .ok q'

theorem hasData_run {q q' : RtpPacketQueue} (h : q.Configured) (hdata : q.hasData = true) {pushes : List RtpPacket}
    (hrun : Run Producing q pushes q') : q'.Configured ∧ q'.hasData = true := by
  induction hrun with
  | nil => exact ⟨h, hdata⟩
  | snoc _ hlast ih =>
      obtain ⟨hdeep, hpush⟩ := hlast
      exact ⟨ih.1.push hpush, (hasData_push_iff ih.1 ih.2 hpush).mpr hdeep⟩

theorem getSize_run_pos {q q' : RtpPacketQueue} (h : q.Configured) (hsize : 0 < q.getSize) {pushes : List RtpPacket}
    (hrun : Run (fun q packet q' => q.pushPacket packet = .ok q') q pushes q') : q'.Configured ∧ 0 < q'.getSize := by
  induction hrun with
  | nil => exact ⟨h, hsize⟩
  | snoc _ hpush ih => exact ⟨ih.1.push hpush, getSize_push_pos ih.1 ih.2 hpush⟩

/-- **Data that has been seen is there for the next pop** where every packet pushed in between leaves the queue
deep enough; one packet that does not is enough to lose it. That there is a packet at all is not lost. -/
theorem popPacket_of_hasData {depthInSeconds maxDepthInSeconds : ℚ} (hdepth : 0 ≤ depthInSeconds)
    {actions : List Action} {q : RtpPacketQueue}
    (hrun : Run Step (create depthInSeconds maxDepthInSeconds) actions q) :
    (∀ packet, ∃ q', q.pushPacket packet = .ok q')
      ∧ (q.hasData = true → ∀ pushes q', Run Producing q pushes q' → (q'.popPacket false).1.isSome)
      ∧ (q.hasData = true → ∀ packet q', q.pushPacket packet = .ok q' →
        ((q'.popPacket false).1.isSome ↔ q.isLate packet = true ∨ q.StaysDeep packet))
      ∧ (0 < q.getSize → ∀ pushes q', Run (fun q packet q' => q.pushPacket packet = .ok q') q pushes q' →
        (q'.popPacket true).1.isSome) := by
  have hconfigured := (configured_create hdepth maxDepthInSeconds).run hrun
  refine ⟨?_, ?_, ?_, ?_⟩
  · intro packet
    obtain ⟨-, hpush⟩ | ⟨-, kept, hpush, -⟩ := pushPacket_eq hconfigured.max packet
    · exact ⟨_, hpush⟩
    · exact ⟨_, hpush⟩
  · intro hdata pushes q' hpushes
    obtain ⟨hend, hdata⟩ := hasData_run hconfigured hdata hpushes
    exact (isSome_popPacket_iff hend.depth).mpr hdata
  · intro hdata packet q' hpush
    have hnext : q'.Configured := hconfigured.push hpush
    rw [isSome_popPacket_iff hnext.depth, hasData_push_iff hconfigured hdata hpush]
  · intro hsize pushes q' hpushes
    have hend := (getSize_run_pos hconfigured hsize hpushes).2
    obtain ⟨-, hnil | ⟨hfalse, -⟩⟩ | ⟨-, front, oldest, -, hpop⟩ := q'.popPacket_cases true
    · rw [getSize, hnil] at hend
      exact absurd hend (lt_irrefl 0)
    · cases hfalse
    · rw [hpop]
      rfl

/-- Two packets that are six seconds apart. -/
def sixSeconds : RtpPacketQueue := ⟨[packetWith 1 540000, packetWith 0 0], none, 90000, 5, 10⟩

theorem run_sixSeconds :
    Run Step (create 5 10) [.setTimebase 90000, .push (packetWith 0 0), .push (packetWith 1 540000)] sixSeconds := by
  have hbase : Step (create 5 10) (.setTimebase 90000) ⟨[], none, 90000, 5, 10⟩ := by decide +kernel
  have hfirst : Step ⟨[], none, 90000, 5, 10⟩ (.push (packetWith 0 0)) ⟨[packetWith 0 0], none, 90000, 5, 10⟩ := by
    decide +kernel
  have hsecond : Step ⟨[packetWith 0 0], none, 90000, 5, 10⟩ (.push (packetWith 1 540000)) sixSeconds := by
    decide +kernel
  exact ((Run.nil.snoc hbase).snoc hfirst).snoc hsecond

/-- A packet that comes a second later. -/
theorem popPacket_of_hasData_sixSeconds :
    sixSeconds.hasData = true ∧ ∃ q', Run Producing sixSeconds [packetWith 2 630000] q' ∧ (q'.popPacket false).1.isSome := by
  have hdata : sixSeconds.hasData = true := by decide +kernel
  have hdeep : sixSeconds.StaysDeep (packetWith 2 630000) :=
    ⟨packetWith 2 630000, [packetWith 2 630000, packetWith 1 540000], packetWith 0 0, [], by decide +kernel⟩
  have hpush : sixSeconds.pushPacket (packetWith 2 630000)
      = .ok ⟨[packetWith 2 630000, packetWith 1 540000, packetWith 0 0], none, 90000, 5, 10⟩ := by decide +kernel
  have hproducing : Run Producing sixSeconds [packetWith 2 630000] _ := Run.nil.snoc ⟨.inr hdeep, hpush⟩
  exact ⟨hdata, _, hproducing, (popPacket_of_hasData (by norm_num) run_sixSeconds).2.1 hdata _ _ hproducing⟩

/-- A packet after a pause of twenty seconds leaves only itself. -/
theorem data_lost_after_pause :
    ∃ actions q q', Run Step (create 5 10) actions q ∧ q.hasData = true
      ∧ q.pushPacket (packetWith 2 2340000) = .ok q' ∧ (q'.popPacket false).1 = none :=
  ⟨_, sixSeconds, ⟨[packetWith 2 2340000], none, 90000, 5, 10⟩, run_sixSeconds, by decide +kernel⟩

end RtpPacketQueue

end Licode.Media
