import Licode.Media.PayloadUse

/-!
# One publisher and its subscribers

`OneToManyProcessor` hands the one packet of the publisher to all of its subscribers in turn, as a pointer.
What each of them does to it is therefore modelled on the memory that it can reach: the packet itself and
the `dataPacket` into which `queueData` copies it. The FEC receiver works on a copy of its own and is a
parameter. It calls back for the packets that it recovers, and each of them is delivered like a packet of the
publisher, but to this subscriber alone.
-/

namespace Licode.Media

open RtpVP8Parser

/-- The packet of the publisher with what stands behind it in its buffer, and the bytes of the `dataPacket` that
`queueData` has on its stack. -/
structure Memory where
  buf : List UInt8
  behind : Nat → UInt8
  packet : List UInt8

/-- What a new object on the heap has in it where nothing is set: the type of the frame of a payload, and the bytes
behind a recovered packet. -/
structure Heap where
  unset : FrameType
  behind : Nat → UInt8

/-- What a connection uses of a `webrtc::FecReceiver`. It calls back in the middle of `ProcessReceivedFec`, and the
callback may give it another packet, so that the place where it goes on is part of its state. -/
structure FecReceiver (φ : Type) where
  /-- `AddReceivedRedPacket`, and `ProcessReceivedFec` up to its first callback or its end. -/
  receive : φ → List UInt8 → φ
  /-- The packet that it calls back for, and the receiver during the callback. -/
  recovered : φ → Option (List UInt8 × φ)

/-- A `WebRtcConnection` that is a subscriber; `externalPT` and `supportsRed` come from `remoteSdp_`. -/
structure Subscriber (φ : Type) where
  sender : VideoSender
  bundle : Bool
  hasAudioTransport : Bool
  audioEnabled : Bool
  externalPT : PacketType → UInt8 → UInt8
  supportsRed : Bool
  fec : φ

namespace Subscriber

variable {φ : Type} (fecReceiver : FecReceiver φ)

/-- `changeDeliverPayloadType`, of the packet on the stack. -/
def changeDeliverPayloadType (c : Subscriber φ) (m : Memory) (type : PacketType) : Memory :=
  if isRtcp m.packet then m
  else
    let internalPT := getPayloadType m.packet
    let externalPT := if type = .other then internalPT else c.externalPT type internalPT
    if internalPT = externalPT then m else { m with packet := setPayloadType m.packet externalPT }

/-- `queueData`, of the packet of the publisher. -/
def queueData (c : Subscriber φ) (m : Memory) (comp : Int32) (type : PacketType) (seqNum : UInt16) :
    Subscriber φ × Memory :=
  let q := c.sender.queue
  if q.sending = false then (c, m)
  else if comp = -1 then
    ({ c with sender := { c.sender with queue := { q with sending := false, sendQueue := [⟨-1, [], .other⟩] } } }, m)
  else if q.sendQueue.length < 1000 then
    let m := { m with packet := m.buf }
    let m := c.changeDeliverPayloadType m type
    let m := if seqNum = 0 then m else { m with packet := setSeqNumber m.packet seqNum }
    let p : DataPacket := ⟨comp, m.packet, type⟩
    ({ c with sender := { c.sender with queue := { q with sendQueue := q.sendQueue ++ [p], pushed := q.pushed ++ [p] } } },
      m)
  else (c, m)

/-- `deliverAudioData_`. -/
def deliverAudioData (c : Subscriber φ) (m : Memory) : Subscriber φ × Memory :=
  if c.bundle then
    if c.sender.hasVideoTransport ∧ c.audioEnabled then c.queueData m 0 .audio 0 else (c, m)
  else if c.hasAudioTransport ∧ c.audioEnabled then c.queueData m 0 .audio 0
  else (c, m)

/-- A packet in slide-show mode: from a keyframe on we send until marker. -/
def deliverSlide (c : Subscriber φ) (m : Memory) (keyframe : Bool) : Subscriber φ × Memory :=
  let grace := if keyframe then 1 else c.sender.grace
  if grace = 0 then (c, m)
  else
    let (c, m) := c.queueData m 0 .video c.sender.seqNo
    ({ c with sender := { c.sender with
        seqNo := c.sender.seqNo + 1
        grace := if getMarker m.buf then 0 else grace } }, m)

/-- `deliverVideoData_`. `unset` is what the payload, a new object on the heap, has in the place of the type of the
frame if the parser does not set it. -/
def deliverVideoData (c : Subscriber φ) (m : Memory) (unset : FrameType) : Subscriber φ × Memory :=
  if c.sender.hasVideoTransport = false ∨ c.sender.videoEnabled = false then (c, m)
  else if isRtcp m.buf then c.queueData m 0 .video 0
  else
    let c : Subscriber φ := { c with sender := { c.sender with sendSeqNo := getSeqNumber m.buf } }
    if getPayloadType m.buf = VideoSender.redPT ∧ (c.supportsRed = false ∨ c.sender.slideShowMode = true) then
      ({ c with fec := fecReceiver.receive c.fec m.buf }, m)
    else if c.sender.slideShowMode then
      c.deliverSlide m ((parsePayload m.buf m.behind).frameType.getD unset = .iFrame)
    else if c.sender.seqNoOffset > 0 then c.queueData m 0 .video (c.sender.sendSeqNo - c.sender.seqNoOffset)
    else c.queueData m 0 .video 0

/-- `OnRecoveredPacket`, for the first callbacks of the FEC receiver. The packet is in an array of the receiver. -/
def deliverRecovered : Nat → Subscriber φ → (Nat → Heap) → Subscriber φ
  | 0, c, _ => c
  | calls + 1, c, heap =>
      match fecReceiver.recovered c.fec with
      | none => c
      | some (packet, fec) =>
          let c := ({ c with fec }.deliverVideoData fecReceiver ⟨packet, (heap 0).behind, []⟩ (heap 0).unset).1
          c.deliverRecovered calls fun i => heap (i + 1)

/-- A packet of the publisher, with as many callbacks of the FEC receiver as there are up to a number. -/
def deliverVideo (calls : Nat) (c : Subscriber φ) (m : Memory) (heap : Nat → Heap) : Subscriber φ × Memory :=
  let (c, m) := c.deliverVideoData fecReceiver m (heap 0).unset
  (c.deliverRecovered fecReceiver calls fun i => heap (i + 1), m)

/-! ### What a delivery depends on -/

/-- The packet of the publisher and what stands behind it are as they were. -/
structure Untouched (m m' : Memory) : Prop where
  buf : m'.buf = m.buf
  behind : m'.behind = m.behind

theorem untouched_refl (m : Memory) : Untouched m m := ⟨rfl, rfl⟩

theorem Untouched.trans {m m' m'' : Memory} (h : Untouched m m') (h' : Untouched m' m'') : Untouched m m'' :=
  ⟨h'.buf.trans h.buf, h'.behind.trans h.behind⟩

theorem changeDeliverPayloadType_eq (c : Subscriber φ) (m : Memory) (type : PacketType) :
    c.changeDeliverPayloadType m type
      = { m with packet := SendQueue.changeDeliverPayloadType c.externalPT m.packet type } := by
  rw [changeDeliverPayloadType, SendQueue.changeDeliverPayloadType]
  dsimp only
  split_ifs <;> rfl

/-- On the memory it does what `SendQueue.queueData` says of the bytes. -/
theorem queueData_eq (c : Subscriber φ) (m : Memory) (comp : Int32) (type : PacketType) (seqNum : UInt16) :
    (c.queueData m comp type seqNum).1
        = { c with sender := { c.sender with
            queue := c.sender.queue.queueData c.externalPT comp m.buf type seqNum } }
      ∧ Untouched m (c.queueData m comp type seqNum).2 := by
  rw [queueData, SendQueue.queueData]
  dsimp only
  by_cases hsending : c.sender.queue.sending = false
  · rw [if_pos hsending, if_pos hsending]
    exact ⟨rfl, untouched_refl m⟩
  rw [if_neg hsending, if_neg hsending]
  by_cases hend : comp = -1
  · rw [if_pos hend, if_pos hend]
    exact ⟨rfl, untouched_refl m⟩
  rw [if_neg hend, if_neg hend]
  by_cases hroom : c.sender.queue.sendQueue.length < 1000
  · rw [if_pos hroom, if_pos hroom, changeDeliverPayloadType_eq, SendQueue.packetFor]
    dsimp only
    split_ifs
    · exact ⟨rfl, ⟨rfl, rfl⟩⟩
    · exact ⟨rfl, ⟨rfl, rfl⟩⟩
  · rw [if_neg hroom, if_neg hroom]
    exact ⟨rfl, untouched_refl m⟩

/-- What comes of an audio packet. -/
def afterAudio (c : Subscriber φ) (buf : List UInt8) : Subscriber φ :=
  if (if c.bundle then c.sender.hasVideoTransport else c.hasAudioTransport) ∧ c.audioEnabled then
    { c with sender := { c.sender with queue := c.sender.queue.queueData c.externalPT 0 buf .audio 0 } }
  else c

/-- What comes of a video packet: the FEC receiver takes it apart, or the sender delivers it, where the type of the
frame is known or not asked for, or it decides over a slide by what the payload has in its place. -/
def afterVideo (c : Subscriber φ) (buf : List UInt8) (behind : Nat → UInt8) (unset : FrameType) : Subscriber φ :=
  if c.sender.hasVideoTransport ∧ c.sender.videoEnabled ∧ isRtcp buf = false
      ∧ getPayloadType buf = VideoSender.redPT ∧ (c.supportsRed = false ∨ c.sender.slideShowMode = true) then
    { c with
      sender := { c.sender with sendSeqNo := getSeqNumber buf }
      fec := fecReceiver.receive c.fec buf }
  else
    match c.sender.deliverVideoPacket c.externalPT c.supportsRed (fun s _ => s) buf behind with
    | some sender => { c with sender }
    | none =>
        { c with sender :=
            VideoSender.deliverSlide c.externalPT { c.sender with sendSeqNo := getSeqNumber buf } buf (unset = .iFrame) }

theorem deliverAudioData_eq (c : Subscriber φ) (m : Memory) :
    (c.deliverAudioData m).1 = c.afterAudio m.buf ∧ Untouched m (c.deliverAudioData m).2 := by
  rw [deliverAudioData, afterAudio]
  by_cases hbundle : c.bundle = true
  · rw [if_pos hbundle, if_pos hbundle]
    split_ifs
    · exact c.queueData_eq m 0 .audio 0
    · exact ⟨rfl, untouched_refl m⟩
  · rw [if_neg hbundle, if_neg hbundle]
    split_ifs
    · exact c.queueData_eq m 0 .audio 0
    · exact ⟨rfl, untouched_refl m⟩

theorem deliverSlide_eq (c : Subscriber φ) (m : Memory) (keyframe : Bool) :
    (c.deliverSlide m keyframe).1 = { c with sender := c.sender.deliverSlide c.externalPT m.buf keyframe }
      ∧ Untouched m (c.deliverSlide m keyframe).2 := by
  rw [deliverSlide, VideoSender.deliverSlide]
  dsimp only
  by_cases hgrace : (if keyframe = true then 1 else c.sender.grace) = 0
  · rw [if_pos hgrace, if_pos hgrace]
    exact ⟨rfl, untouched_refl m⟩
  · rw [if_neg hgrace, if_neg hgrace]
    obtain ⟨hqueue, huntouched⟩ := c.queueData_eq m 0 .video c.sender.seqNo
    refine ⟨?_, huntouched⟩
    dsimp only
    rw [hqueue, huntouched.buf]

theorem deliverVideoData_eq (c : Subscriber φ) (m : Memory) (unset : FrameType) :
    (c.deliverVideoData fecReceiver m unset).1 = c.afterVideo fecReceiver m.buf m.behind unset
      ∧ Untouched m (c.deliverVideoData fecReceiver m unset).2 := by
  rw [deliverVideoData, afterVideo, VideoSender.deliverVideoPacket]
  by_cases hoff : c.sender.hasVideoTransport = false ∨ c.sender.videoEnabled = false
  · have hnot : ¬ (c.sender.hasVideoTransport = true ∧ c.sender.videoEnabled = true ∧ isRtcp m.buf = false
        ∧ getPayloadType m.buf = VideoSender.redPT ∧ (c.supportsRed = false ∨ c.sender.slideShowMode = true)) := by
      rcases hoff with h | h <;> simp [h]
    rw [if_pos hoff, if_neg hnot, if_pos hoff]
    exact ⟨rfl, untouched_refl m⟩
  rw [if_neg hoff, if_neg hoff]
  have hon : c.sender.hasVideoTransport = true ∧ c.sender.videoEnabled = true := by simpa [not_or] using hoff
  by_cases hrtcp : isRtcp m.buf = true
  · rw [if_pos hrtcp, if_neg (by simp [hrtcp]), if_pos hrtcp]
    exact c.queueData_eq m 0 .video 0
  rw [if_neg hrtcp, if_neg hrtcp]
  dsimp only
  by_cases hred : getPayloadType m.buf = VideoSender.redPT ∧ (c.supportsRed = false ∨ c.sender.slideShowMode = true)
  · rw [if_pos hred, if_pos ⟨hon.1, hon.2, by simpa using hrtcp, hred⟩]
    exact ⟨rfl, untouched_refl m⟩
  have hnot : ¬ (c.sender.hasVideoTransport = true ∧ c.sender.videoEnabled = true ∧ isRtcp m.buf = false
      ∧ getPayloadType m.buf = VideoSender.redPT ∧ (c.supportsRed = false ∨ c.sender.slideShowMode = true)) :=
    fun h => hred h.2.2.2
  rw [if_neg hred, if_neg hnot, if_neg hred]
  by_cases hslides : c.sender.slideShowMode = true
  · rw [if_pos hslides, if_pos hslides]
    cases (parsePayload m.buf m.behind).frameType with
    | none => exact deliverSlide_eq _ m (unset = .iFrame)
    | some frameType => exact deliverSlide_eq _ m (frameType = .iFrame)
  · rw [if_neg hslides, if_neg hslides]
    by_cases hoffset : c.sender.seqNoOffset > 0
    · rw [if_pos hoffset, if_pos hoffset]
      exact queueData_eq _ m 0 .video (getSeqNumber m.buf - c.sender.seqNoOffset)
    · rw [if_neg hoffset, if_neg hoffset]
      exact queueData_eq _ m 0 .video 0

/-- What the payload has in the place of an unset type of the frame makes no difference: it is not asked for, or it is
set, or a slide is being sent anyway. -/
def Decided (c : Subscriber φ) (buf : List UInt8) (behind : Nat → UInt8) : Prop :=
  c.sender.Slides buf →
    Described (payloadOf buf behind) ∨ c.sender.grace = 1 ∨ c.sender.grace ≠ 0 ∧ getMarker buf = true

theorem deliverSlide_same_iff (externalPT : PacketType → UInt8 → UInt8) (s : VideoSender) (buf : List UInt8) :
    s.deliverSlide externalPT buf true = s.deliverSlide externalPT buf false
      ↔ s.grace = 1 ∨ s.grace ≠ 0 ∧ getMarker buf = true := by
  have hone : ¬ (1 : UInt16) = 0 := by decide
  rw [VideoSender.deliverSlide, VideoSender.deliverSlide, if_pos rfl, if_neg hone, if_neg Bool.false_ne_true]
  by_cases hgrace : s.grace = 0
  · rw [if_pos hgrace]
    constructor
    · intro hsame
      have hnumber : s.seqNo + 1 = s.seqNo := congrArg VideoSender.seqNo hsame
      have htoNat := congrArg UInt16.toNat hnumber
      rw [UInt16.toNat_add] at htoNat
      have hlt := s.seqNo.toNat_lt
      have : (1 : UInt16).toNat = 1 := rfl
      omega
    · rintro (h | h)
      · exact absurd (h.symm.trans hgrace) hone
      · exact absurd hgrace h.1
  · rw [if_neg hgrace]
    cases getMarker buf <;> simp [hgrace, eq_comm]

theorem afterVideo_of_slides {c : Subscriber φ} {buf : List UInt8} {behind : Nat → UInt8} (hslides : c.sender.Slides buf)
    (hnot : ¬ Described (payloadOf buf behind)) (unset : FrameType) :
    c.afterVideo fecReceiver buf behind unset
      = { c with sender := (VideoSender.deliverSlide c.externalPT { c.sender with sendSeqNo := getSeqNumber buf } buf
          (unset = .iFrame)) } := by
  have hnone : c.sender.deliverVideoPacket c.externalPT c.supportsRed (fun s _ => s) buf behind = none := by
    by_contra hne
    exact hnot ((VideoSender.deliverVideoPacket_ne_none_iff _ _ _ _ _ _).mp hne hslides)
  rw [afterVideo, if_neg fun h => hslides.2.2.2.2 h.2.2.2.1, hnone]

theorem afterVideo_of_read {c : Subscriber φ} {buf : List UInt8} {behind : Nat → UInt8}
    (h : c.sender.Slides buf → Described (payloadOf buf behind)) (behind' : Nat → UInt8) (unset unset' : FrameType) :
    c.afterVideo fecReceiver buf behind' unset' = c.afterVideo fecReceiver buf behind unset := by
  obtain ⟨sender, hsender⟩ := Option.ne_none_iff_exists'.mp
    ((VideoSender.deliverVideoPacket_ne_none_iff c.externalPT c.supportsRed (fun s _ => s) c.sender buf behind).mpr h)
  rw [afterVideo, afterVideo, VideoSender.deliverVideoPacket_stale _ _ _ h behind', hsender]

/-- Neither what stands behind the packet nor what the payload has in the place of the type counts, just if the packet
is decided. -/
theorem afterVideo_same_iff (c : Subscriber φ) (buf : List UInt8) (behind : Nat → UInt8) :
    (∀ behind' unset unset', c.afterVideo fecReceiver buf behind' unset' = c.afterVideo fecReceiver buf behind unset)
      ↔ c.Decided buf behind := by
  constructor
  · intro hsame hslides
    by_cases hdescribed : Described (payloadOf buf behind)
    · exact .inl hdescribed
    · have hboth := hsame behind .pFrame .iFrame
      rw [afterVideo_of_slides fecReceiver hslides hdescribed, afterVideo_of_slides fecReceiver hslides hdescribed] at hboth
      exact .inr ((deliverSlide_same_iff c.externalPT { c.sender with sendSeqNo := getSeqNumber buf } buf).mp
        (congrArg Subscriber.sender hboth))
  · intro hdecided behind' unset unset'
    by_cases hread : c.sender.Slides buf → Described (payloadOf buf behind)
    · exact afterVideo_of_read fecReceiver hread behind' unset unset'
    · obtain ⟨hslides, hnot⟩ := Classical.not_imp.mp hread
      have hnot' : ¬ Described (payloadOf buf behind') := fun h => hnot (h.stale behind ▸ h)
      have hsame := (deliverSlide_same_iff c.externalPT { c.sender with sendSeqNo := getSeqNumber buf } buf).mpr
        ((hdecided hslides).resolve_left hnot)
      rw [afterVideo_of_slides fecReceiver hslides hnot, afterVideo_of_slides fecReceiver hslides hnot']
      cases unset <;> cases unset' <;> simp [hsame]

theorem deliverRecovered_succ {c : Subscriber φ} {packet : List UInt8} {fec : φ}
    (h : fecReceiver.recovered c.fec = some (packet, fec)) (calls : Nat) (heap : Nat → Heap) :
    c.deliverRecovered fecReceiver (calls + 1) heap
      = ({ c with fec }.afterVideo fecReceiver packet (heap 0).behind (heap 0).unset).deliverRecovered fecReceiver calls
          fun i => heap (i + 1) := by
  rw [deliverRecovered, h]
  dsimp only
  rw [(deliverVideoData_eq fecReceiver _ _ _).1]

/-- Every packet of the first callbacks is decided, in the state that the subscriber is in by then. -/
def DecidedFor : Nat → Subscriber φ → Prop
  | 0, _ => True
  | calls + 1, c =>
      match fecReceiver.recovered c.fec with
      | none => True
      | some (packet, fec) => { c with fec }.Decided packet (fun _ => 0)
          ∧ ({ c with fec }.afterVideo fecReceiver packet (fun _ => 0) .iFrame).DecidedFor calls

/-- What the callbacks come to does not depend on the heap just if each is decided: the first one that is not shows
in the state behind it. -/
theorem deliverRecovered_same_iff (calls : Nat) (c : Subscriber φ) :
    (∀ n ≤ calls, ∀ heap heap', c.deliverRecovered fecReceiver n heap = c.deliverRecovered fecReceiver n heap')
      ↔ c.DecidedFor fecReceiver calls := by
  induction calls generalizing c with
  | zero =>
      refine iff_of_true (fun n hn heap heap' => ?_) trivial
      rw [Nat.le_zero.mp hn]
      rfl
  | succ calls ih =>
      rw [DecidedFor]
      cases hnext : fecReceiver.recovered c.fec with
      | none =>
          refine iff_of_true (fun n _ heap heap' => ?_) trivial
          cases n with
          | zero => rfl
          | succ n => rw [deliverRecovered, deliverRecovered, hnext]
      | some next =>
          obtain ⟨packet, fec⟩ := next
          dsimp only
          rw [← ih, ← afterVideo_same_iff fecReceiver { c with fec } packet fun _ => 0]
          constructor
          · intro hsame
            have hfirst (behind' : Nat → UInt8) (unset unset' : FrameType) :
                { c with fec }.afterVideo fecReceiver packet behind' unset'
                  = { c with fec }.afterVideo fecReceiver packet (fun _ => 0) unset := by
              have hone := hsame 1 (by omega) (fun _ => ⟨unset', behind'⟩) fun _ => ⟨unset, fun _ => 0⟩
              rwa [deliverRecovered_succ fecReceiver hnext, deliverRecovered_succ fecReceiver hnext] at hone
            refine ⟨hfirst, fun n hn heap heap' => ?_⟩
            have hrest := hsame (n + 1) (by omega) (fun i => i.casesOn ⟨.iFrame, fun _ => 0⟩ heap)
              fun i => i.casesOn ⟨.iFrame, fun _ => 0⟩ heap'
            rwa [deliverRecovered_succ fecReceiver hnext, deliverRecovered_succ fecReceiver hnext] at hrest
          · rintro ⟨hfirst, hrest⟩ n hn heap heap'
            cases n with
            | zero => rfl
            | succ n =>
                rw [deliverRecovered_succ fecReceiver hnext, deliverRecovered_succ fecReceiver hnext,
                  hfirst (heap 0).behind .iFrame, hfirst (heap' 0).behind .iFrame]
                exact hrest n (by omega) _ _

/-- What comes of a packet and the callbacks for it. -/
def afterAll (calls : Nat) (c : Subscriber φ) (buf : List UInt8) (behind : Nat → UInt8) (heap : Nat → Heap) :
    Subscriber φ :=
  (c.afterVideo fecReceiver buf behind (heap 0).unset).deliverRecovered fecReceiver calls fun i => heap (i + 1)

theorem deliverVideo_eq (calls : Nat) (c : Subscriber φ) (m : Memory) (heap : Nat → Heap) :
    (c.deliverVideo fecReceiver calls m heap).1 = c.afterAll fecReceiver calls m.buf m.behind heap
      ∧ Untouched m (c.deliverVideo fecReceiver calls m heap).2 := by
  obtain ⟨hresult, huntouched⟩ := c.deliverVideoData_eq fecReceiver m (heap 0).unset
  exact ⟨by rw [afterAll, ← hresult]; rfl, huntouched⟩

/-- The packet is decided, and so is every packet that the FEC receiver calls back for. -/
def AllDecided (c : Subscriber φ) (buf : List UInt8) (behind : Nat → UInt8) : Prop :=
  c.Decided buf behind ∧ ∀ calls, (c.afterVideo fecReceiver buf behind .iFrame).DecidedFor fecReceiver calls

theorem afterAll_same_iff (c : Subscriber φ) (buf : List UInt8) (behind : Nat → UInt8) :
    (∀ calls behind' heap heap',
        c.afterAll fecReceiver calls buf behind' heap' = c.afterAll fecReceiver calls buf behind heap)
      ↔ c.AllDecided fecReceiver buf behind := by
  rw [AllDecided, ← afterVideo_same_iff fecReceiver]
  constructor
  · intro hsame
    refine ⟨fun behind' unset unset' => ?_, fun calls => ?_⟩
    · exact hsame 0 behind' (fun _ => ⟨unset, behind⟩) fun _ => ⟨unset', behind'⟩
    · refine (deliverRecovered_same_iff fecReceiver calls _).mp fun n _ heap heap' => ?_
      exact hsame n behind (fun i => i.casesOn ⟨.iFrame, behind⟩ heap') fun i => i.casesOn ⟨.iFrame, behind⟩ heap
  · rintro ⟨hfirst, hrest⟩ calls behind' heap heap'
    rw [afterAll, afterAll, hfirst behind' .iFrame (heap' 0).unset, hfirst behind .iFrame (heap 0).unset]
    exact (deliverRecovered_same_iff fecReceiver calls _).mpr (hrest calls) calls le_rfl _ _

end Subscriber

/-! ### All subscribers -/

section Serve

variable {φ ω : Type}

/-- The loop over the subscribers: each one finds the memory as those before it have left it. -/
def serve (deliver : Subscriber φ → Memory → ω → Subscriber φ × Memory) :
    List (String × Subscriber φ) → Memory → (Nat → ω) → List (String × Subscriber φ) × Memory
  | [], m, _ => ([], m)
  | (peerId, c) :: subscribers, m, heap =>
      let (c, m) := deliver c m (heap 0)
      let (subscribers, m) := serve deliver subscribers m fun i => heap (i + 1)
      ((peerId, c) :: subscribers, m)

/-- If what comes of a subscriber depends on the packet alone and the packet is left as it was, then so it is for all
of them. -/
theorem serve_eq {deliver : Subscriber φ → Memory → ω → Subscriber φ × Memory}
    {after : Subscriber φ → List UInt8 → (Nat → UInt8) → ω → Subscriber φ}
    (hdeliver : ∀ c m heap, (deliver c m heap).1 = after c m.buf m.behind heap
      ∧ Subscriber.Untouched m (deliver c m heap).2)
    (subscribers : List (String × Subscriber φ)) (m : Memory) (heap : Nat → ω) :
    (∀ i, (serve deliver subscribers m heap).1[i]?
        = subscribers[i]?.map fun entry => (entry.1, after entry.2 m.buf m.behind (heap i)))
      ∧ Subscriber.Untouched m (serve deliver subscribers m heap).2 := by
  induction subscribers generalizing m heap with
  | nil => exact ⟨fun i => rfl, Subscriber.untouched_refl m⟩
  | cons entry subscribers ih =>
      obtain ⟨peerId, c⟩ := entry
      obtain ⟨hresult, huntouched⟩ := hdeliver c m (heap 0)
      obtain ⟨hresults, hrest⟩ := ih (deliver c m (heap 0)).2 fun i => heap (i + 1)
      rw [huntouched.buf, huntouched.behind] at hresults
      refine ⟨fun i => ?_, huntouched.trans hrest⟩
      cases i with
      | zero => simp [serve, hresult]
      | succ i => simpa [serve] using hresults i

end Serve

/-- `subscribers` are in the order of the map. -/
structure OneToManyProcessor (φ : Type) where
  subscribers : List (String × Subscriber φ)
  hasFeedbackSink : Bool
  publisherVideoSSRC : UInt32

namespace OneToManyProcessor

variable {φ : Type} (fecReceiver : FecReceiver φ)

/-- `OneToManyProcessor::deliverAudioData_`, with what comes of each subscriber. -/
def deliverAudioData (o : OneToManyProcessor φ) (m : Memory) : List (String × Subscriber φ) × Memory :=
  if m.buf.length = 0 then (o.subscribers, m)
  else serve (fun c m (_ : Unit) => c.deliverAudioData m) o.subscribers m fun _ => ()

/-- `OneToManyProcessor::deliverVideoData_`, where the FEC receiver of each subscriber has called back up to a number
of times. Feedback that comes here gets the source of the publisher in its place and goes back. -/
def deliverVideoData (o : OneToManyProcessor φ) (calls : Nat) (m : Memory) (heap : Nat → Nat → Heap) :
    List (String × Subscriber φ) × Memory :=
  if m.buf.length = 0 then (o.subscribers, m)
  else if isFeedback m.buf then
    if o.hasFeedbackSink then
      (o.subscribers, { m with buf := Overlay.write m.buf 4 (Overlay.image 4 o.publisherVideoSSRC.toNat) })
    else (o.subscribers, m)
  else serve (Subscriber.deliverVideo fecReceiver calls) o.subscribers m heap

theorem deliverAudioData_eq (o : OneToManyProcessor φ) {m : Memory} (hlen : m.buf ≠ []) :
    (∀ i : Nat, (o.deliverAudioData m).1[i]?
        = o.subscribers[i]?.map fun entry : String × Subscriber φ => (entry.1, entry.2.afterAudio m.buf))
      ∧ Subscriber.Untouched m (o.deliverAudioData m).2 := by
  rw [deliverAudioData, if_neg (by simpa using hlen)]
  exact @serve_eq φ Unit (fun c m _ => c.deliverAudioData m) (fun c buf _ _ => c.afterAudio buf)
    (fun c m _ => c.deliverAudioData_eq m) o.subscribers m _

theorem deliverVideoData_eq (o : OneToManyProcessor φ) (calls : Nat) {m : Memory} (hmedia : isFeedback m.buf = false)
    (hlen : m.buf ≠ []) (heap : Nat → Nat → Heap) :
    (∀ i : Nat, (o.deliverVideoData fecReceiver calls m heap).1[i]?
        = o.subscribers[i]?.map fun entry : String × Subscriber φ =>
            (entry.1, entry.2.afterAll fecReceiver calls m.buf m.behind (heap i)))
      ∧ Subscriber.Untouched m (o.deliverVideoData fecReceiver calls m heap).2 := by
  rw [deliverVideoData, if_neg (by simpa using hlen), if_neg (by simp [hmedia])]
  exact serve_eq (fun c m heap => c.deliverVideo_eq fecReceiver calls m heap) o.subscribers m heap

/-- **Subscribers do not see each other.** What comes of a subscriber, after the packet and after every callback of its
FEC receiver, is the same among any others, in any order, just if no unset member decides over it, and the packet of
the publisher stays as it is. -/
theorem subscriber_isolated_iff (c : Subscriber φ) {m : Memory} (hmedia : isFeedback m.buf = false) (hlen : m.buf ≠ []) :
    ((∀ (o o' : OneToManyProcessor φ) (calls : Nat) (m' : Memory) (heap heap' : Nat → Nat → Heap) (i j : Nat)
          (peerId peerId' : String),
          m'.buf = m.buf → o.subscribers[i]? = some (peerId, c) → o'.subscribers[j]? = some (peerId', c) →
          ∃ next, (o.deliverVideoData fecReceiver calls m heap).1[i]? = some (peerId, next)
            ∧ (o'.deliverVideoData fecReceiver calls m' heap').1[j]? = some (peerId', next))
        ↔ c.AllDecided fecReceiver m.buf m.behind)
      ∧ (∀ (o o' : OneToManyProcessor φ) (m' : Memory) (i j : Nat) (peerId peerId' : String),
          m'.buf = m.buf → o.subscribers[i]? = some (peerId, c) → o'.subscribers[j]? = some (peerId', c) →
          ∃ next, (o.deliverAudioData m).1[i]? = some (peerId, next)
            ∧ (o'.deliverAudioData m').1[j]? = some (peerId', next))
      ∧ ∀ (o : OneToManyProcessor φ) (calls : Nat) (heap : Nat → Nat → Heap),
          (o.deliverAudioData m).2.buf = m.buf ∧ (o.deliverVideoData fecReceiver calls m heap).2.buf = m.buf := by
  refine ⟨⟨?_, ?_⟩, ?_, ?_⟩
  · intro hisolated
    rw [← Subscriber.afterAll_same_iff fecReceiver]
    intro calls behind' heap heap'
    -- the subscriber on its own, twice
    obtain ⟨next, hnext, hnext'⟩ := hisolated ⟨[("", c)], false, 0⟩ ⟨[("", c)], false, 0⟩ calls
      { m with behind := behind' } (fun _ => heap) (fun _ => heap') 0 0 "" "" rfl rfl rfl
    rw [(deliverVideoData_eq fecReceiver _ calls hmedia hlen _).1] at hnext
    rw [(deliverVideoData_eq fecReceiver _ calls (by exact hmedia) (by exact hlen) _).1] at hnext'
    simp only [List.getElem?_cons_zero, Option.map_some, Option.some.injEq, Prod.mk.injEq, true_and] at hnext hnext'
    rw [hnext, hnext']
  · intro hdecided o o' calls m' heap heap' i j peerId peerId' hpacket hi hj
    have hsame := (Subscriber.afterAll_same_iff fecReceiver c m.buf m.behind).mpr hdecided calls m'.behind (heap i) (heap' j)
    rw [(o.deliverVideoData_eq fecReceiver calls hmedia hlen heap).1,
      (o'.deliverVideoData_eq fecReceiver calls (hpacket ▸ hmedia) (hpacket ▸ hlen) heap').1, hi, hj, hpacket]
    exact ⟨_, rfl, by rw [← hsame]; rfl⟩
  · intro o o' m' i j peerId peerId' hpacket hi hj
    rw [(o.deliverAudioData_eq hlen).1, (o'.deliverAudioData_eq (hpacket ▸ hlen)).1, hi, hj, hpacket]
    exact ⟨_, rfl, rfl⟩
  · intro o calls heap
    exact ⟨(o.deliverAudioData_eq hlen).2.buf, (o.deliverVideoData_eq fecReceiver calls hmedia hlen heap).2.buf⟩

/-- A receiver that hands on the packet that a RED packet has in it, where that is one without FEC: it takes the byte
behind a header of twelve bytes out, and has it for the payload type. -/
def singleBlock : FecReceiver (Option (List UInt8)) where
  receive _ buf := some (buf.take 1 ++ [(buf.getD 1 0 &&& 0x80) + buf.getD 12 0] ++ (buf.drop 2).take 10 ++ buf.drop 13)
  recovered fec := fec.map fun packet => (packet, none)

/-- A new subscriber in slide-show mode, for which VP8 has another payload type. -/
def newSubscriber : Subscriber (Option (List UInt8)) where
  sender := { VideoSender.create with slideShowMode := true }
  bundle := true
  hasAudioTransport := false
  audioEnabled := true
  externalPT := fun _ _ => 96
  supportsRed := true
  fec := none

theorem decidedFor_of_idle {c : Subscriber φ} (hidle : fecReceiver.recovered c.fec = none) (calls : Nat) :
    c.DecidedFor fecReceiver calls := by
  cases calls with
  | zero => trivial
  | succ calls => rw [Subscriber.DecidedFor, hidle]; trivial

/-- A keyframe reaches it first, or behind another one. -/
theorem subscriber_isolated_keyframe :
    ∃ next, (deliverVideoData singleBlock ⟨[("a", newSubscriber)], true, 7⟩ 1
          ⟨OutputProcessor.packetOf true 1 0 [0x10, 0, 2, 3], fun _ => 0, []⟩
          fun _ _ => ⟨.pFrame, fun _ => 0⟩).1[0]? = some ("a", next)
      ∧ (deliverVideoData singleBlock ⟨[("0", { newSubscriber with supportsRed := false }), ("a", newSubscriber)], false, 8⟩ 1
          ⟨OutputProcessor.packetOf true 1 0 [0x10, 0, 2, 3], fun _ => 9, [1, 2]⟩
          fun _ _ => ⟨.iFrame, fun _ => 7⟩).1[1]? = some ("a", next) :=
  (subscriber_isolated_iff singleBlock newSubscriber
    (show isFeedback (Memory.buf ⟨OutputProcessor.packetOf true 1 0 [0x10, 0, 2, 3], fun _ => 0, []⟩) = false by decide)
    (by decide)).1.mpr ⟨fun _ => .inl (by decide), decidedFor_of_idle singleBlock rfl⟩ _ _ 1 _ _ _ 0 1 "a" "a" rfl rfl rfl

/-- The numbers that the only subscriber is left with, and how much is queued for it. -/
def sentBy (buf : List UInt8) (unset : FrameType) : List (UInt16 × Nat) :=
  (deliverVideoData singleBlock ⟨[("a", newSubscriber)], true, 7⟩ 1 ⟨buf, fun _ => 0, []⟩
    fun _ _ => ⟨unset, fun _ => 0⟩).1.map fun entry => (entry.2.sender.seqNo, entry.2.sender.queue.sendQueue.length)

/-- A slide is sent for a packet that cannot be read, or not, as the heap has it. -/
theorem unread_packet_sent_by_chance :
    sentBy corruptPacket .iFrame = [(1001, 1)] ∧ sentBy corruptPacket .pFrame = [(1000, 0)] := by
  decide

/-- The same packet in a RED packet. -/
def redCorruptPacket : List UInt8 :=
  setPayloadType (OutputProcessor.packetOf true 1 0 [100, 0x1F, 1, 2, 3]) VideoSender.redPT

example : sentBy redCorruptPacket .iFrame = [(1001, 1)] ∧ sentBy redCorruptPacket .pFrame = [(1000, 0)] := by
  decide

end OneToManyProcessor

end Licode.Media
