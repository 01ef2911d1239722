import Licode.Lib.Run
import Licode.Media.SendQueue
import Mathlib.Data.List.Chain

/-!
# Sequence numbers of outgoing video

In slide-show mode only keyframes are sent, with sequence numbers of the connection's own (`seqNo_`);
otherwise every packet is sent with its number less `seqNoOffset_`. The two numberings have to meet
where the mode changes. Switching back to all packets does it right. Switching to slides begins with
the number of the packet that was sent last, and `queueData` does not write a number that is 0.
-/

namespace Licode.Media

/-- The members of a `WebRtcConnection` that are used for outgoing video. -/
structure VideoSender where
  hasVideoTransport : Bool
  videoEnabled : Bool
  queue : SendQueue
  slideShowMode : Bool
  shouldSendFeedback : Bool
  seqNo : UInt16
  grace : UInt16
  sendSeqNo : UInt16
  seqNoOffset : UInt16

namespace VideoSender

/-- A new connection that has its video transport. -/
def create : VideoSender where
  hasVideoTransport := true
  videoEnabled := true
  queue := .create
  slideShowMode := false
  shouldSendFeedback := true
  seqNo := 1000
  grace := 0
  sendSeqNo := 0
  seqNoOffset := 0

/-- `RED_90000_PT`. -/
def redPT : UInt8 := 116

section Deliver

variable (externalPT : PacketType → UInt8 → UInt8) (supportsRed : Bool)
  (fecReceiver : VideoSender → List UInt8 → VideoSender)

/-- A packet in slide-show mode: from a keyframe on we send until marker. -/
def deliverSlide (s : VideoSender) (buf : List UInt8) (keyframe : Bool) : VideoSender :=
  let grace := if keyframe then 1 else s.grace
  if grace = 0 then s
  else
    { s with
      queue := s.queue.queueData externalPT 0 buf .video s.seqNo
      seqNo := s.seqNo + 1
      grace := if getMarker buf then 0 else grace }

/-- `deliverVideoData_`. `keyframe` is what the parser for VP8 finds, `fecReceiver` what comes of a
packet that is taken apart because the remote side does not support RED. -/
def deliverVideoData (s : VideoSender) (buf : List UInt8) (keyframe : Bool) : VideoSender :=
  if s.hasVideoTransport = false ∨ s.videoEnabled = false then s
  else if isRtcp buf then { s with queue := s.queue.queueData externalPT 0 buf .video 0 }
  else
    let s : VideoSender := { s with sendSeqNo := getSeqNumber buf }
    if getPayloadType buf = redPT ∧ (supportsRed = false ∨ s.slideShowMode = true) then fecReceiver s buf
    else if s.slideShowMode then s.deliverSlide externalPT buf keyframe
    else if s.seqNoOffset > 0 then
      { s with queue := s.queue.queueData externalPT 0 buf .video (s.sendSeqNo - s.seqNoOffset) }
    else { s with queue := s.queue.queueData externalPT 0 buf .video 0 }

end Deliver

def setSlideShowMode (s : VideoSender) (state : Bool) : VideoSender :=
  if s.slideShowMode = state then s
  else if state then
    { s with
      seqNo := s.sendSeqNo - s.seqNoOffset
      grace := 0
      slideShowMode := true
      shouldSendFeedback := false }
  else
    { s with
      seqNoOffset := s.sendSeqNo - s.seqNo + 1
      slideShowMode := false
      shouldSendFeedback := true }

end VideoSender

/-- A sender and the number of the packet that was last given to it. -/
structure VideoStream where
  sender : VideoSender
  last : Option UInt16

namespace VideoStream

def create : VideoStream := ⟨.create, none⟩

inductive Event where
  | deliver (buf : List UInt8) (keyframe : Bool)
  | setSlideShowMode (state : Bool)
  | takeFront

variable (externalPT : PacketType → UInt8 → UInt8) (supportsRed : Bool)
  (fecReceiver : VideoSender → List UInt8 → VideoSender)

/-- A packet of RTP that is not RED comes with the number that is next, and finds room in the queue. -/
def Enabled (s : VideoStream) : Event → Prop
  | .deliver buf _ => 12 ≤ buf.length ∧ isRtcp buf = false
      ∧ getPayloadType buf ≠ VideoSender.redPT ∧ (s.last = none ∨ s.last = some (getSeqNumber buf - 1))
      ∧ s.sender.queue.sendQueue.length < 1000
  | .setSlideShowMode _ | .takeFront => True

instance (s : VideoStream) : ∀ event, Decidable (Enabled s event)
  | .deliver _ _ => inferInstanceAs (Decidable (_ ∧ _ ∧ _ ∧ _ ∧ _))
  | .setSlideShowMode _ | .takeFront => inferInstanceAs (Decidable True)

def next (s : VideoStream) : Event → VideoStream
  | .deliver buf keyframe =>
      ⟨s.sender.deliverVideoData externalPT supportsRed fecReceiver buf keyframe, some (getSeqNumber buf)⟩
  | .setSlideShowMode state => { s with sender := s.sender.setSlideShowMode state }
  | .takeFront => { s with sender := { s.sender with queue := s.sender.queue.takeFront } }

def tryNext (s : VideoStream) (event : Event) : Option VideoStream :=
  if Enabled s event then some (s.next externalPT supportsRed fecReceiver event) else none

def Step (s : VideoStream) (event : Event) (s' : VideoStream) : Prop :=
  s.tryNext externalPT supportsRed fecReceiver event = some s'

/-- The number that a packet is to be sent with. -/
def due (s : VideoSender) (own : UInt16) : UInt16 :=
  if s.slideShowMode then s.seqNo else own - s.seqNoOffset

/-- Slides begin before anything has been sent, and 0 is due only to a packet that has this number. -/
def NumberGuard (s : VideoStream) : Event → Prop
  | .deliver buf keyframe =>
      s.sender.slideShowMode = false ∨ keyframe = true ∨ s.sender.grace ≠ 0 →
        due s.sender (getSeqNumber buf) = 0 → getSeqNumber buf = 0
  | .setSlideShowMode state =>
      state = true → s.sender.slideShowMode = false → s.sender.queue.pushed = []
  | .takeFront => True

/-- The packets were sent with consecutive numbers. -/
def Consecutive (packets : List DataPacket) : Prop :=
  packets.IsChain fun p p' => getSeqNumber p'.data = getSeqNumber p.data + 1

section Step

variable {externalPT supportsRed fecReceiver} {s s' : VideoStream} {event : Event}

/-- A packet is in the queue with a number. -/
def Pushes (q q' : SendQueue) (number : UInt16) : Prop :=
  ∃ packet : DataPacket, packet.comp ≠ -1 ∧ getSeqNumber packet.data = number
    ∧ q' = { q with sendQueue := q.sendQueue ++ [packet], pushed := q.pushed ++ [packet] }

theorem pushes_queueData {q : SendQueue} (hsending : q.sending = true)
    (hroom : q.sendQueue.length < 1000) {buf : List UInt8} (hsize : 12 ≤ buf.length) (seqNum : UInt16) :
    Pushes q (q.queueData externalPT 0 buf .video seqNum)
      (if seqNum = 0 then getSeqNumber buf else seqNum) := by
  refine ⟨SendQueue.packetFor externalPT 0 buf .video seqNum, ?_, ?_, ?_⟩
  · exact (by decide : (0 : Int32) ≠ -1)
  · exact SendQueue.getSeqNumber_packetFor 0 (by omega) .video seqNum
  · exact SendQueue.queueData_of_room hsending hroom buf .video seqNum

/-- What becomes of a packet: it is sent with the number that is due, or with its own where that is 0. -/
theorem deliverVideoData_cases (externalPT : PacketType → UInt8 → UInt8) (supportsRed : Bool)
    (fecReceiver : VideoSender → List UInt8 → VideoSender) {sender : VideoSender} {buf : List UInt8} (keyframe : Bool)
    (hon : sender.hasVideoTransport = true ∧ sender.videoEnabled = true)
    (hsending : sender.queue.sending = true) (hroom : sender.queue.sendQueue.length < 1000)
    (hsize : 12 ≤ buf.length) (hrtp : isRtcp buf = false)
    (hred : getPayloadType buf ≠ VideoSender.redPT) :
    ∃ sender', sender.deliverVideoData externalPT supportsRed fecReceiver buf keyframe = sender'
      ∧ (sender'.hasVideoTransport = true ∧ sender'.videoEnabled = true)
      ∧ sender'.slideShowMode = sender.slideShowMode ∧ sender'.seqNoOffset = sender.seqNoOffset
      ∧ sender'.sendSeqNo = getSeqNumber buf
      ∧ ((sender.slideShowMode = true ∧ sender'.queue = sender.queue ∧ sender'.seqNo = sender.seqNo)
        ∨ ((sender.slideShowMode = false ∨ keyframe = true ∨ sender.grace ≠ 0)
          ∧ Pushes sender.queue sender'.queue
              (if due sender (getSeqNumber buf) = 0 then getSeqNumber buf
                else due sender (getSeqNumber buf))
          ∧ (sender.slideShowMode = true → sender'.seqNo = sender.seqNo + 1))) := by
  refine ⟨_, rfl, ?_⟩
  rw [VideoSender.deliverVideoData, if_neg (by simp [hon]), if_neg (by simp [hrtp])]
  dsimp only
  rw [if_neg (by simp [hred])]
  by_cases hmode : sender.slideShowMode = true
  · rw [if_pos hmode, VideoSender.deliverSlide, due, if_pos hmode]
    dsimp only
    by_cases hgrace : (if keyframe then 1 else sender.grace) = 0
    · rw [if_pos hgrace]
      exact ⟨hon, rfl, rfl, rfl, .inl ⟨hmode, rfl, rfl⟩⟩
    · rw [if_neg hgrace]
      refine ⟨hon, rfl, rfl, rfl, .inr ⟨?_, pushes_queueData hsending hroom hsize _, fun _ => rfl⟩⟩
      cases keyframe with
      | true => exact .inr (.inl rfl)
      | false => exact .inr (.inr hgrace)
  · have hnormal : sender.slideShowMode = false := by simpa using hmode
    rw [if_neg hmode, due, if_neg hmode]
    by_cases hoffset : sender.seqNoOffset > 0
    · rw [if_pos hoffset]
      exact ⟨hon, rfl, rfl, rfl, .inr ⟨.inl hnormal, pushes_queueData hsending hroom hsize _,
        fun h => absurd h hmode⟩⟩
    · have hzero : sender.seqNoOffset = 0 := UInt16.le_zero_iff.mp (UInt16.not_lt.mp hoffset)
      rw [if_neg hoffset, hzero, UInt16.sub_zero, ite_self]
      exact ⟨hon, rfl, rfl, rfl, .inr ⟨.inl hnormal, pushes_queueData hsending hroom hsize 0,
        fun h => absurd h hmode⟩⟩

/-- What holds between steps: if something has been sent, its number is the one before that which is
due to the next packet. -/
structure Inv (s : VideoStream) : Prop where
  on : s.sender.hasVideoTransport = true ∧ s.sender.videoEnabled = true
  sending : s.sender.queue.sending = true
  comps : ∀ packet ∈ s.sender.queue.sendQueue, packet.comp ≠ -1
  last : ∀ n ∈ s.last, s.sender.sendSeqNo = n
  pushed : s.last = none → s.sender.queue.pushed = []
  chain : Consecutive s.sender.queue.pushed
  due : ∀ packet ∈ s.sender.queue.pushed.getLast?,
    getSeqNumber packet.data + 1 = due s.sender (s.sender.sendSeqNo + 1)

theorem inv_create : Inv create :=
  ⟨⟨rfl, rfl⟩, rfl, nofun, nofun, fun _ => rfl, List.isChain_nil, nofun⟩

theorem Inv.takeFront (h : Inv s) :
    Inv { s with sender := { s.sender with queue := s.sender.queue.takeFront } } := by
  have hfront : s.sender.queue.takeFront = { s.sender.queue with
      sendQueue := s.sender.queue.sendQueue.tail } := by
    unfold SendQueue.takeFront
    cases hqueue : s.sender.queue.sendQueue with
    | nil =>
        dsimp only
        rw [List.tail_nil, ← hqueue]
    | cons packet rest => exact if_neg (h.comps packet (hqueue ▸ List.mem_cons_self))
  rw [hfront]
  exact ⟨h.on, h.sending, fun packet hmem => h.comps packet (List.mem_of_mem_tail hmem), h.last, h.pushed,
    h.chain, h.due⟩

theorem Inv.setSlideShowMode {state : Bool} (h : Inv s)
    (hguard : NumberGuard s (.setSlideShowMode state)) :
    Inv { s with sender := s.sender.setSlideShowMode state } := by
  unfold VideoSender.setSlideShowMode
  by_cases hsame : s.sender.slideShowMode = state
  · rw [if_pos hsame]
    exact h
  · rw [if_neg hsame]
    cases state with
    | true =>
        have hnone : s.sender.queue.pushed = [] := hguard rfl (by simpa using hsame)
        refine ⟨h.on, h.sending, h.comps, h.last, h.pushed, h.chain, ?_⟩
        intro packet hpacket
        rw [if_pos rfl] at hpacket
        rw [hnone] at hpacket
        cases hpacket
    | false =>
        refine ⟨h.on, h.sending, h.comps, h.last, h.pushed, h.chain, ?_⟩
        intro packet hpacket
        rw [h.due packet hpacket]
        have hmode : s.sender.slideShowMode = true := by simpa using hsame
        simp only [VideoStream.due, hmode, if_true]
        grind

theorem Inv.deliver {buf : List UInt8} {keyframe : Bool} (h : Inv s)
    (henabled : Enabled s (.deliver buf keyframe)) (hguard : NumberGuard s (.deliver buf keyframe)) :
    Inv (s.next externalPT supportsRed fecReceiver (.deliver buf keyframe)) := by
  obtain ⟨hsize, hrtp, hred, hnext, hroom⟩ := henabled
  obtain ⟨sender', hsender', hon, hmode, hoffset, hsend, hcases⟩ :=
    deliverVideoData_cases externalPT supportsRed fecReceiver keyframe h.on h.sending hroom hsize hrtp
      hred
  rw [next, hsender']
  obtain ⟨hslide, hqueue, hseqNo⟩ | ⟨hsent, ⟨packet, hcomp, hnumber, hqueue⟩, hseqNo⟩ := hcases
  · refine ⟨hon, by rw [hqueue]; exact h.sending, by rw [hqueue]; exact h.comps, ?_, nofun,
      by rw [hqueue]; exact h.chain, ?_⟩
    · intro n hn
      cases hn
      exact hsend
    · intro packet hpacket
      rw [hqueue] at hpacket
      have hdue := h.due packet hpacket
      rw [VideoStream.due, if_pos hslide] at hdue
      rw [VideoStream.due, hmode, if_pos hslide, hseqNo]
      exact hdue
  · have hdue : getSeqNumber packet.data = VideoStream.due s.sender (getSeqNumber buf) := by
      rw [hnumber]
      split_ifs with hzero
      · rw [hzero]
        exact hguard hsent hzero
      · rfl
    refine ⟨hon, by rw [hqueue]; exact h.sending, ?_, ?_, nofun, ?_, ?_⟩
    · rw [hqueue]
      intro other hmem
      obtain hold | hnew := List.mem_append.mp hmem
      · exact h.comps other hold
      · rw [List.mem_singleton.mp hnew]
        exact hcomp
    · intro n hn
      cases hn
      exact hsend
    · rw [hqueue]
      refine List.isChain_append.mpr ⟨h.chain, List.isChain_singleton _, ?_⟩
      intro before hbefore after hafter
      cases hafter
      have hlast : s.last = some s.sender.sendSeqNo := by
        cases hs : s.last with
        | none =>
            rw [h.pushed hs] at hbefore
            cases hbefore
        | some n => rw [h.last n hs]
      have hown : getSeqNumber buf = s.sender.sendSeqNo + 1 := by grind
      rw [hdue, h.due before hbefore, hown]
    · rw [hqueue]
      intro other hother
      rw [List.getLast?_concat] at hother
      cases hother
      rw [hdue, VideoStream.due, VideoStream.due, hmode, hsend, hoffset]
      split_ifs with hslide
      · exact (hseqNo hslide).symm
      · grind

theorem Inv.step (h : Inv s) (hguard : NumberGuard s event)
    (hstep : Step externalPT supportsRed fecReceiver s event s') : Inv s' := by
  unfold Step tryNext at hstep
  split at hstep <;> cases hstep
  next henabled =>
    cases event with
    | deliver buf keyframe => exact h.deliver henabled hguard
    | setSlideShowMode state => exact h.setSlideShowMode hguard
    | takeFront => exact h.takeFront

end Step

/-- **Outgoing numbers are consecutive** in every run that begins slides only before anything is sent,
and in which 0 is due only to a packet that has this number. -/
theorem pushed_consecutive (events : List Event) (s : VideoStream)
    (hrun : Run (Guarded NumberGuard (Step externalPT supportsRed fecReceiver)) create events s) :
    Consecutive s.sender.queue.pushed := by
  have hinv : Inv s := hrun.invariant inv_create fun h hlast => h.step hlast.1 hlast.2
  exact hinv.chain

instance (s : VideoStream) : ∀ event, Decidable (NumberGuard s event)
  | .deliver _ _ => inferInstanceAs (Decidable (_ ∨ _ ∨ _ → _ → _))
  | .setSlideShowMode _ => inferInstanceAs (Decidable (_ → _ → _))
  | .takeFront => inferInstanceAs (Decidable True)

/-- The first packet of a VP8 keyframe, which ends a frame as well. -/
def keyframePacket (seqNumber : UInt16) : List UInt8 :=
  setSeqNumber [0x80, 0xE4, 0, 0, 0, 0, 0, 0, 0, 0, 0, 1, 0x10, 0x00] seqNumber

/-- Slides from the start, and all packets after them. The packets are numbered from 0. -/
def slidesFirst : List Event :=
  [.setSlideShowMode true, .deliver (keyframePacket 0) true, .deliver (keyframePacket 1) false,
    .deliver (keyframePacket 2) true, .setSlideShowMode false, .deliver (keyframePacket 3) false]

theorem pushed_consecutive_slides_first :
    ∃ s, Run (Guarded NumberGuard (Step (fun _ type => type) true fun s _ => s)) create slidesFirst s
      ∧ s.sender.queue.pushed.map (fun packet => getSeqNumber packet.data) = [0, 1, 2]
      ∧ Consecutive s.sender.queue.pushed := by
  have hnumbers : (slidesFirst.foldlM (fun s event =>
          if NumberGuard s event then s.tryNext (fun _ type => type) true (fun s _ => s) event else none)
        create).map (fun s => s.sender.queue.pushed.map fun packet => getSeqNumber packet.data)
      = some [0, 1, 2] := by decide +kernel
  obtain ⟨s, hs, hnumbers⟩ := Option.map_eq_some_iff.mp hnumbers
  have hrun := Run.guarded_of_foldlM hs
  exact ⟨s, hrun, hnumbers, pushed_consecutive _ _ _ _ s hrun⟩

/-- Two packets with the number 10: the last one of all packets and the first slide. -/
theorem slide_repeats_number :
    ¬ ∀ (externalPT : PacketType → UInt8 → UInt8) (supportsRed : Bool)
      (fecReceiver : VideoSender → List UInt8 → VideoSender) (events : List Event) (s : VideoStream),
      Run (Step externalPT supportsRed fecReceiver) create events s →
      Consecutive s.sender.queue.pushed := by
  intro hclaim
  have hnumbers : ([Event.deliver (keyframePacket 10) true, .setSlideShowMode true,
          .deliver (keyframePacket 11) true].foldlM
        (tryNext (fun _ type => type) true fun s _ => s) create).map
          (fun s => s.sender.queue.pushed.map fun packet => getSeqNumber packet.data)
      = some [10, 10] := by decide +kernel
  obtain ⟨s, hs, hnumbers⟩ := Option.map_eq_some_iff.mp hnumbers
  have hchain : (s.sender.queue.pushed.map fun packet => getSeqNumber packet.data).IsChain
      fun n n' => n' = n + 1 := (List.isChain_map _).mpr (hclaim _ _ _ _ s (Run.of_foldlM hs))
  rw [hnumbers] at hchain
  revert hchain
  decide

end VideoStream

end Licode.Media
