import Licode.Media.Recording

/-!
# The clock of a recording

The timestamps of the packets are numbers of 32 bits that wrap around. `ExternalOutput` writes the time since the
first packet of a medium in units of the time base of its stream, and `writeAudioData` is modelled here for it.
-/

namespace Licode.Media

open Overlay RtpVP8Parser

/-- A division of `long long`s. It has no value for the divisor 0. -/
def quotient (dividend divisor : Int) : Option Int :=
  if divisor = 0 then none else some (dividend.tdiv divisor)

/-- `timestampToWrite` of `writeVideoData` and `writeAudioData`, for a clock of `rate` ticks a second. -/
def timestampOf (rate den first offsetMsec : Int) (timestamp : UInt32) : Option Int := do
  let current : Int := if (timestamp.toNat : Int) - first < 0 then timestamp.toNat + 0xFFFFFFFF else timestamp.toNat
  let time ← quotient (current - first) (← quotient rate den)
  let offset ← quotient offsetMsec (← quotient 1000 den)
  return time + offset

/-! ### Audio -/

inductive AudioCodec where
  | none
  | pcmMulaw
  | opus
  deriving DecidableEq, Repr

structure AudioStream where
  sampleRate : Nat
  den : Nat
  deriving DecidableEq

/-- The members of an `ExternalOutput` that `writeAudioData` uses. `written` is not in the source. -/
structure AudioOutput where
  audioCodec : AudioCodec
  lastAudioSequenceNumber : UInt16
  firstAudioTimestamp : Int
  audioOffsetMsec : Int
  audioStream : Option AudioStream
  written : List AVPacket
  deriving DecidableEq

namespace AudioOutput

/-- The last number has no value before the first packet. -/
def create (lastAudioSequenceNumber : UInt16) (audioOffsetMsec : Int) : AudioOutput where
  audioCodec := .none
  lastAudioSequenceNumber := lastAudioSequenceNumber
  firstAudioTimestamp := -1
  audioOffsetMsec := audioOffsetMsec
  audioStream := none
  written := []

/-- `PCMU_8000_PT` and `OPUS_48000_PT`. -/
def codecOf (payloadType : UInt8) : AudioCodec :=
  if payloadType = 0 then .pcmMulaw else if payloadType = 111 then .opus else .none

/-- What comes with the number and the type of a packet. -/
def notice (s : AudioOutput) (buf : List UInt8) : AudioOutput where
  audioCodec := if s.audioCodec = .none then codecOf (getPayloadType buf) else s.audioCodec
  lastAudioSequenceNumber := getSeqNumber buf
  firstAudioTimestamp := if s.firstAudioTimestamp = -1 then (getTimestamp buf).toNat else s.firstAudioTimestamp
  audioOffsetMsec := s.audioOffsetMsec
  audioStream := s.audioStream
  written := s.written

/-- `opened` is the denominator that the muxer has chosen, if there is a stream from this call on. -/
def initContext (s : AudioOutput) (opened : Option Nat) : AudioOutput :=
  { s with
    audioStream := s.audioStream.or
      (if s.audioCodec = .none then none
        else opened.map fun den => ⟨if s.audioCodec = .pcmMulaw then 8000 else 48000, den⟩) }

/-- What is done with a packet, if there is a stream to write it to. It is `none` where a division has no value. -/
def deliver (s : AudioOutput) (buf : List UInt8) (stale : Nat → UInt8) : Option AudioOutput :=
  match s.audioStream with
  | none => some s
  | some stream => do
      let pts ← timestampOf stream.sampleRate stream.den s.firstAudioTimestamp s.audioOffsetMsec (getTimestamp buf)
      return { s with written := s.written ++ [⟨payloadOf buf stale, pts⟩] }

def writeAudioData (s : AudioOutput) (buf : List UInt8) (stale : Nat → UInt8) (opened : Option Nat) :
    Option AudioOutput :=
  ((s.notice buf).initContext opened).deliver buf stale

end AudioOutput

/-! ### The time of the medium -/

/-- The time from the first packet on, which the wrap does not change. -/
def mediaTicks (rate den : Nat) (first timestamp : UInt32) : Nat := (timestamp - first).toNat / (rate / den)

/-- The timestamps have wrapped around, and the time is a whole number of units. -/
def WrappedOnTick (rate den : Nat) (first timestamp : UInt32) : Prop :=
  timestamp < first ∧ rate / den ∣ (timestamp - first).toNat

instance (rate den : Nat) (first timestamp : UInt32) : Decidable (WrappedOnTick rate den first timestamp) :=
  inferInstanceAs (Decidable (_ ∧ _))

section Clock

variable {rate den : Nat}

theorem div_pos_of_dvd (hrate : 0 < rate) (hden : den ∣ rate) : 0 < rate / den :=
  Nat.div_pos (Nat.le_of_dvd hrate hden) (Nat.pos_of_dvd_of_pos hden hrate)

theorem quotient_of_pos (dividend : Int) {divisor : Nat} (h : 0 < divisor) :
    quotient dividend divisor = some (dividend.tdiv divisor) := if_neg (by omega)

theorem quotient_natCast (dividend : Nat) {divisor : Nat} (h : 0 < divisor) :
    quotient dividend divisor = some ((dividend / divisor : Nat) : Int) := by
  rw [quotient_of_pos _ h, Int.tdiv_eq_ediv_of_nonneg (by omega), Int.natCast_div]

/-- The time that is taken: it is one tick short if the timestamps have wrapped around. -/
theorem current_sub_first (first timestamp : UInt32) :
    (if (timestamp.toNat : Int) - first.toNat < 0 then (timestamp.toNat : Int) + 0xFFFFFFFF else timestamp.toNat)
        - first.toNat
      = ((timestamp - first).toNat - if timestamp < first then 1 else 0 : Nat) := by
  have hfirst := first.toNat_lt
  have htimestamp := timestamp.toNat_lt
  by_cases hwrap : timestamp < first
  · rw [UInt32.lt_iff_toNat_lt] at hwrap
    rw [if_pos (by omega), if_pos (UInt32.lt_iff_toNat_lt.mpr hwrap), UInt32.toNat_sub]
    omega
  · have hle : first ≤ timestamp := UInt32.not_lt.mp hwrap
    rw [if_neg hwrap, UInt32.toNat_sub_of_le _ _ hle]
    rw [UInt32.le_iff_toNat_le] at hle
    rw [if_neg (by omega)]
    omega

theorem toNat_sub_pos {first timestamp : UInt32} (hwrap : timestamp < first) : 0 < (timestamp - first).toNat := by
  have hfirst := first.toNat_lt
  rw [UInt32.lt_iff_toNat_lt] at hwrap
  rw [UInt32.toNat_sub]
  omega

/-- A tick less is a unit less just at the beginning of a unit. -/
theorem sub_one_div {time : Nat} (htime : 0 < time) (unit : Nat) :
    (time - 1) / unit = time / unit - if unit ∣ time then 1 else 0 := by
  obtain ⟨time, rfl⟩ : ∃ t, time = t + 1 := ⟨time - 1, by omega⟩
  rw [Nat.succ_div]
  split_ifs
  · rw [Nat.add_sub_cancel, Nat.add_sub_cancel]
  · rfl

/-- No divisor is 0. -/
theorem timestampOf_some (hrate : 0 < rate) (hden : den ∣ rate) (hden' : den ∣ 1000) (first offsetMsec : Int)
    (timestamp : UInt32) :
    timestampOf rate den first offsetMsec timestamp
      = some (((if (timestamp.toNat : Int) - first < 0 then (timestamp.toNat : Int) + 0xFFFFFFFF
          else timestamp.toNat) - first).tdiv (rate / den : Nat) + offsetMsec.tdiv (1000 / den : Nat)) := by
  have hpos : 0 < den := Nat.pos_of_dvd_of_pos hden hrate
  have hthousand : quotient 1000 den = some ((1000 / den : Nat) : Int) := quotient_natCast 1000 hpos
  rw [timestampOf, hthousand, quotient_natCast rate hpos]
  dsimp only [Option.bind_eq_bind, Option.bind_some]
  rw [quotient_of_pos _ (div_pos_of_dvd hrate hden), quotient_of_pos _ (div_pos_of_dvd (by omega) hden')]
  rfl

theorem timestampOf_eq (hrate : 0 < rate) (hden : den ∣ rate) (hden' : den ∣ 1000) (first timestamp : UInt32)
    (offsetMsec : Int) :
    timestampOf rate den first.toNat offsetMsec timestamp
      = some ((mediaTicks rate den first timestamp - if WrappedOnTick rate den first timestamp then 1 else 0 : Nat)
          + offsetMsec.tdiv (1000 / den : Nat)) := by
  have htime : ((timestamp - first).toNat - if timestamp < first then 1 else 0) / (rate / den)
      = mediaTicks rate den first timestamp - if WrappedOnTick rate den first timestamp then 1 else 0 := by
    by_cases hwrap : timestamp < first
    · have hcut := sub_one_div (toNat_sub_pos hwrap) (rate / den)
      rw [if_pos hwrap, hcut]
      simp only [WrappedOnTick, hwrap, true_and]
      rfl
    · rw [if_neg hwrap, if_neg fun h : WrappedOnTick .. => hwrap h.1]
      rfl
  rw [timestampOf_some hrate hden hden', current_sub_first, Int.tdiv_eq_ediv_of_nonneg (by omega), ← Int.natCast_div,
    htime]

/-- What is written is right if it is not one less. -/
theorem timestampOf_iff (hrate : 0 < rate) (hden : den ∣ rate) (hden' : den ∣ 1000) {first timestamp : UInt32}
    {offsetMsec pts : Int} (hpts : timestampOf rate den first.toNat offsetMsec timestamp = some pts) :
    pts = mediaTicks rate den first timestamp + offsetMsec.tdiv (1000 / den : Nat)
      ↔ ¬ WrappedOnTick rate den first timestamp := by
  rw [timestampOf_eq hrate hden hden', Option.some_inj] at hpts
  rw [← hpts]
  by_cases h : WrappedOnTick rate den first timestamp
  · have hpos : 0 < mediaTicks rate den first timestamp := by
      apply Nat.div_pos (Nat.le_of_dvd (toNat_sub_pos h.1) h.2) (div_pos_of_dvd hrate hden)
    rw [if_pos h]
    constructor
    · omega
    · exact absurd h
  · rw [if_neg h, Nat.sub_zero]
    exact iff_of_true rfl h

end Clock

/-! ### The calls -/

namespace ExternalOutput

/-- What the search leaves alone. -/
def timing (s : ExternalOutput) : Int × Int × List AVPacket := (s.firstVideoTimestamp, s.videoOffsetMsec, s.written)

theorem timing_copyPayload (s : ExternalOutput) (data : List UInt8) : (s.copyPayload data).2.timing = s.timing := by
  rw [copyPayload]
  split_ifs <;> rfl

theorem timing_search {s s' : ExternalOutput} {start last frame : Bool} {data : Option (List UInt8)}
    (h : s.search start last data = some (frame, s')) : s'.timing = s.timing := by
  have hcopied {s₁ : ExternalOutput} {bytes : List UInt8} (hpair : s₁.copyPayload bytes = (frame, s'))
      (hsame : s₁.timing = s.timing) : s'.timing = s.timing := by
    rw [← hsame, ← timing_copyPayload s₁ bytes, hpair]
  rw [search.eq_def] at h
  cases data with
  | none => split at h <;> cases h; rfl
  | some bytes =>
      split at h
      all_goals simp only [Option.bind_eq_bind, Option.bind_some, Option.pure_def, Option.some_inj] at h
      · exact hcopied h rfl
      · cases h
        rfl
      · cases h
        split_ifs <;> exact timing_copyPayload s bytes
      · exact hcopied h rfl
      · cases h
        exact timing_copyPayload s bytes
      · cases h
        exact timing_copyPayload s.clear bytes
      · exact hcopied h rfl

theorem firstVideoTimestamp_notice (s : ExternalOutput) (buf : List UInt8) :
    (s.notice buf).firstVideoTimestamp
      = if s.firstVideoTimestamp = -1 then ((getTimestamp buf).toNat : Int) else s.firstVideoTimestamp := by
  rw [notice]
  dsimp only
  by_cases hgap : (getSeqNumber buf).toNat ≠ s.lastVideoSequenceNumber.toNat + 1
  · rw [if_pos hgap]
    rfl
  · rw [if_neg hgap]

theorem videoOffsetMsec_notice (s : ExternalOutput) (buf : List UInt8) :
    (s.notice buf).videoOffsetMsec = s.videoOffsetMsec := by
  rw [notice]
  dsimp only
  split_ifs <;> rfl

section Step

variable {s s' : ExternalOutput} {e : VideoPacket}

/-- A call keeps the time of the first packet and the offset, and writes nothing or one frame. -/
theorem Step.timing (h : Step s e s') :
    s'.firstVideoTimestamp = (s.notice e.buf).firstVideoTimestamp ∧ s'.videoOffsetMsec = s.videoOffsetMsec
      ∧ (s'.written = s.written ∨ ∃ den data, s'.videoStream = some den
        ∧ s'.written = s.written ++ [⟨data, s'.timestampToWrite (getTimestamp e.buf) den⟩]) := by
  simp only [Step, writeVideoData, Option.bind_eq_bind, Option.bind_eq_some_iff, Option.pure_def, Option.some_inj] at h
  obtain ⟨⟨frame, s₁⟩, hsearch, rfl⟩ := h
  have hsame := timing_search hsearch
  simp only [ExternalOutput.timing, Prod.mk.injEq, written_notice, videoOffsetMsec_notice] at hsame
  obtain ⟨hfirst, hoffset, hwritten⟩ := hsame
  dsimp only
  split_ifs
  · obtain ⟨-, hdeliver⟩ | ⟨den, hstream, hdeliver⟩ :=
      deliver_cases { s₁ with videoStream := s₁.videoStream.or e.opened } (getTimestamp e.buf)
    · rw [hdeliver]
      exact ⟨hfirst, hoffset, .inl hwritten⟩
    · rw [hdeliver]
      refine ⟨hfirst, hoffset, .inr ⟨den, s₁.unpackagedBuffer, hstream, ?_⟩⟩
      dsimp only
      rw [hwritten]
      rfl
  · exact ⟨hfirst, hoffset, .inl hwritten⟩

end Step

theorem timestampToWrite_eq (s : ExternalOutput) (timestamp : UInt32) {den : Nat} (hden : den ∣ 1000) :
    timestampOf 90000 den s.firstVideoTimestamp s.videoOffsetMsec timestamp
      = some (s.timestampToWrite timestamp den) := by
  have hrate : ((90000 : Int).tdiv den) = (90000 / den : Nat) := by
    rw [Int.tdiv_eq_ediv_of_nonneg (by omega)]
    rfl
  have hthousand : ((1000 : Int).tdiv den) = (1000 / den : Nat) := by
    rw [Int.tdiv_eq_ediv_of_nonneg (by omega)]
    rfl
  have hsome := @timestampOf_some 90000 den (by omega) (hden.trans (by decide)) hden s.firstVideoTimestamp
    s.videoOffsetMsec timestamp
  rw [timestampToWrite, hrate, hthousand]
  exact hsome

/-- The time of the first packet of a run. -/
theorem firstVideoTimestamp_of_run {number : UInt16} {offsetMsec : Int} {events : List VideoPacket} {e : VideoPacket}
    {s s' : ExternalOutput} (hrun : Run Step (create number offsetMsec) events s) (hstep : Step s e s') :
    s'.firstVideoTimestamp = (getTimestamp (events.head?.getD e).buf).toNat ∧ s'.videoOffsetMsec = offsetMsec := by
  let given (e : VideoPacket) : Int := (getTimestamp e.buf).toNat
  have hgiven (e : VideoPacket) : given e ≠ -1 := by
    dsimp only [given]
    omega
  constructor
  · refine @Run.snoc_eq_of_head _ _ _ Step _ _ _ _ _ firstVideoTimestamp (-1) given hrun hstep rfl hgiven ?_ ?_
    · intro s e s' h hunset
      rw [h.timing.1, firstVideoTimestamp_notice, if_pos hunset]
    · intro s e s' h hset
      rw [h.timing.1, firstVideoTimestamp_notice, if_neg hset]
  · rw [hstep.timing.2.1]
    refine @Run.invariant _ _ Step _ _ _ (fun s => s.videoOffsetMsec = offsetMsec) hrun rfl ?_
    intro s e s' hinv h
    rw [h.timing.2.1, hinv]

end ExternalOutput

namespace AudioOutput

/-- A call of `writeAudioData`. -/
structure AudioPacket where
  buf : List UInt8
  stale : Nat → UInt8
  opened : Option Nat

def Step (s : AudioOutput) (e : AudioPacket) (s' : AudioOutput) : Prop :=
  s.writeAudioData e.buf e.stale e.opened = some s'

/-- The stream has the rate of one of the codecs, and a time base in which a millisecond is a whole number of units. -/
def StreamOk (s : AudioOutput) : Prop :=
  ∀ stream ∈ s.audioStream, (stream.sampleRate = 8000 ∨ stream.sampleRate = 48000) ∧ stream.den ∣ 1000

theorem StreamOk.initContext {s : AudioOutput} (h : s.StreamOk) {opened : Option Nat}
    (hopened : ∀ den ∈ opened, den ∣ 1000) : (s.initContext opened).StreamOk := by
  intro stream hstream
  rw [AudioOutput.initContext] at hstream
  dsimp only at hstream
  cases hold : s.audioStream with
  | some old =>
      rw [hold, Option.some_or] at hstream
      exact h stream (hold.trans hstream)
  | none =>
      rw [hold, Option.none_or] at hstream
      split_ifs at hstream
      · cases hstream
      all_goals
        obtain ⟨den, hden, rfl⟩ := Option.map_eq_some_iff.mp hstream
        refine ⟨?_, hopened den hden⟩
      · exact .inl rfl
      · exact .inr rfl

theorem eq_of_deliver {s s' : AudioOutput} {buf : List UInt8} {stale : Nat → UInt8}
    (h : s.deliver buf stale = some s') : s' = { s with written := s'.written } := by
  rw [deliver] at h
  cases hstream : s.audioStream with
  | none =>
      rw [hstream] at h
      cases h
      rw [← hstream]
  | some stream =>
      rw [hstream] at h
      obtain ⟨pts, -, hpts⟩ := Option.bind_eq_some_iff.mp h
      cases hpts
      rw [← hstream]

/-- The divisions of a call have values. -/
theorem deliver_some {s : AudioOutput} (h : s.StreamOk) (buf : List UInt8) (stale : Nat → UInt8) :
    ∃ written, s.deliver buf stale = some { s with written := written }
      ∧ ∀ stream ∈ s.audioStream, ∃ frame, written = s.written ++ [frame]
        ∧ timestampOf stream.sampleRate stream.den s.firstAudioTimestamp s.audioOffsetMsec (getTimestamp buf)
          = some frame.pts := by
  cases hstream : s.audioStream with
  | none =>
      refine ⟨s.written, ?_, nofun⟩
      rw [deliver, hstream]
      dsimp only
      rw [← hstream]
  | some stream =>
      obtain ⟨hrate, hden⟩ := h stream hstream
      have hpos : 0 < stream.sampleRate := by omega
      have hdvd : 1000 ∣ stream.sampleRate := by omega
      obtain ⟨pts, hpts⟩ : ∃ pts, timestampOf stream.sampleRate stream.den s.firstAudioTimestamp s.audioOffsetMsec
          (getTimestamp buf) = some pts := ⟨_, timestampOf_some hpos (hden.trans hdvd) hden _ _ _⟩
      refine ⟨s.written ++ [⟨payloadOf buf stale, pts⟩], ?_, ?_⟩
      · rw [deliver, hstream]
        dsimp only
        rw [hpts, ← hstream]
        rfl
      · rintro _ ⟨rfl⟩
        exact ⟨_, rfl, hpts⟩

section Step

variable {s s' : AudioOutput} {e : AudioPacket}

theorem Step.timing (h : s.Step e s') :
    s'.firstAudioTimestamp
        = (if s.firstAudioTimestamp = -1 then ((getTimestamp e.buf).toNat : Int) else s.firstAudioTimestamp)
      ∧ s'.audioOffsetMsec = s.audioOffsetMsec
      ∧ s'.audioStream = ((s.notice e.buf).initContext e.opened).audioStream := by
  rw [eq_of_deliver h]
  exact ⟨rfl, rfl, rfl⟩

theorem Step.streamOk (h : s.Step e s') (hok : s.StreamOk) (hopened : ∀ den ∈ e.opened, den ∣ 1000) : s'.StreamOk := by
  have hnoticed : (s.notice e.buf).StreamOk := hok
  have hinit := hnoticed.initContext hopened
  rw [StreamOk, h.timing.2.2]
  exact hinit

end Step

/-- A run goes on with any packet, and the time of its first packet is kept. -/
theorem next_of_run {number : UInt16} {offsetMsec : Int} {events : List AudioPacket} {e : AudioPacket} {s : AudioOutput}
    (hrun : Run Step (create number offsetMsec) events s)
    (hopened : ∀ e' ∈ events ++ [e], ∀ den ∈ e'.opened, den ∣ 1000) :
    ∃ s', s.Step e s' ∧ s'.StreamOk ∧ ∀ stream ∈ s'.audioStream, ∃ frame, s'.written = s.written ++ [frame]
      ∧ timestampOf stream.sampleRate stream.den (getTimestamp (events.head?.getD e).buf).toNat offsetMsec
        (getTimestamp e.buf) = some frame.pts := by
  have hinv : s.StreamOk ∧ s.audioOffsetMsec = offsetMsec := by
    refine @Run.invariant_of_mem _ _ Step _ _ _ (fun s => s.StreamOk ∧ s.audioOffsetMsec = offsetMsec) hrun
      ⟨nofun, rfl⟩ ?_
    intro s e s' hmem hinv hstep
    refine ⟨hstep.streamOk hinv.1 (hopened e ?_), hstep.timing.2.1.trans hinv.2⟩
    exact List.mem_append_left _ hmem
  have hnoticed : (s.notice e.buf).StreamOk := hinv.1
  have hinit := hnoticed.initContext (hopened e (by simp))
  obtain ⟨written, hdeliver, hwritten⟩ := deliver_some hinit e.buf e.stale
  have hstep : s.Step e { (s.notice e.buf).initContext e.opened with written := written } := hdeliver
  refine ⟨_, hstep, hinit, fun stream hstream => ?_⟩
  obtain ⟨frame, hframe, hpts⟩ := hwritten stream hstream
  let given (e : AudioPacket) : Int := (getTimestamp e.buf).toNat
  have hgiven (e : AudioPacket) : given e ≠ -1 := by
    dsimp only [given]
    omega
  have hfirst := @Run.snoc_eq_of_head _ _ _ Step _ _ _ _ _ firstAudioTimestamp (-1) given hrun hstep rfl hgiven
    (fun h hunset => by rw [h.timing.1, if_pos hunset]) (fun h hset => by rw [h.timing.1, if_neg hset])
  refine ⟨frame, hframe, ?_⟩
  rw [← hpts, ← hinv.2]
  dsimp only [given] at hfirst
  rw [← hfirst]
  rfl

end AudioOutput

/-! ### All that is written -/

/-- **The time that is written is that of the medium just if no wrap ends on a tick.** The divisions have values. -/
theorem pts_iff (number : UInt16) (offsetMsec : Int) :
    (∀ (events : List ExternalOutput.VideoPacket) (e : ExternalOutput.VideoPacket) (s s' : ExternalOutput)
        (frame : AVPacket) (den : Nat),
        Run ExternalOutput.Step (.create number offsetMsec) events s → s.Step e s' →
        s'.videoStream = some (den : Int) → den ∣ 1000 → s'.written = s.written ++ [frame] →
        let first := getTimestamp (events.head?.getD e).buf
        timestampOf 90000 den first.toNat offsetMsec (getTimestamp e.buf) = some frame.pts
        ∧ (frame.pts = mediaTicks 90000 den first (getTimestamp e.buf) + offsetMsec.tdiv (1000 / den : Nat)
          ↔ ¬ WrappedOnTick 90000 den first (getTimestamp e.buf)))
    ∧ ∀ (events : List AudioOutput.AudioPacket) (e : AudioOutput.AudioPacket) (s : AudioOutput),
        Run AudioOutput.Step (.create number offsetMsec) events s →
        (∀ e' ∈ events ++ [e], ∀ den ∈ e'.opened, den ∣ 1000) →
        let first := getTimestamp (events.head?.getD e).buf
        ∃ s', s.Step e s' ∧ ∀ stream ∈ s'.audioStream, ∃ frame, s'.written = s.written ++ [frame]
          ∧ (frame.pts = mediaTicks stream.sampleRate stream.den first (getTimestamp e.buf)
              + offsetMsec.tdiv (1000 / stream.den : Nat)
            ↔ ¬ WrappedOnTick stream.sampleRate stream.den first (getTimestamp e.buf)) := by
  constructor
  · intro events e s s' frame den hrun hstep hstream hden hwritten first
    obtain ⟨hfirst, hoffset⟩ := ExternalOutput.firstVideoTimestamp_of_run hrun hstep
    obtain ⟨-, -, hnone | ⟨den', data, hstream', hframe⟩⟩ := hstep.timing
    · rw [hwritten] at hnone
      simp at hnone
    · obtain rfl : (den : Int) = den' := Option.some_inj.mp (hstream.symm.trans hstream')
      obtain rfl : frame = _ := List.singleton_inj.mp (List.append_cancel_left (hwritten.symm.trans hframe))
      have hpts := s'.timestampToWrite_eq (getTimestamp e.buf) hden
      rw [hfirst, hoffset] at hpts
      exact ⟨hpts, timestampOf_iff (by omega) (hden.trans (by omega)) hden hpts⟩
  · intro events e s hrun hopened first
    obtain ⟨s', hstep, hok, hwritten⟩ := AudioOutput.next_of_run hrun hopened
    refine ⟨s', hstep, fun stream hstream => ?_⟩
    obtain ⟨frame, hframe, hpts⟩ := hwritten stream hstream
    obtain ⟨hrate, hden⟩ := hok stream hstream
    exact ⟨frame, hframe, timestampOf_iff (by omega) (hden.trans (by omega)) hden hpts⟩

open ExternalOutput

/-- A frame of one packet with one byte. -/
def frameAt (seqNumber : UInt16) (timestamp : UInt32) : VideoPacket :=
  ⟨OutputProcessor.packetOf true seqNumber timestamp [0x10, 7], fun _ => 0, some 1000⟩

/-- What has been written after a frame at the last timestamp before the wrap. -/
def beforeWrap : ExternalOutput := ⟨.lookingForStart, [], 1, 0xFFFFFFFF, 0, some 1000, [⟨[7], 0⟩]⟩

theorem run_beforeWrap : Run Step (create 0 0) [frameAt 1 0xFFFFFFFF] beforeWrap := by
  apply Run.nil.snoc
  rw [Step]
  decide

theorem pts_iff_between_ticks : (1 : Int) = mediaTicks 90000 1000 0xFFFFFFFF 90 + (0 : Int).tdiv (1000 / 1000 : Nat) :=
  ((pts_iff 0 0).1 [frameAt 1 0xFFFFFFFF] (frameAt 2 90) beforeWrap
    ⟨.lookingForStart, [], 2, 0xFFFFFFFF, 0, some 1000, [⟨[7], 0⟩, ⟨[7], 1⟩]⟩ ⟨[7], 1⟩ 1000 run_beforeWrap
    (by rw [Step]; decide) rfl (by decide) rfl).2.mpr (by decide)

/-- A frame that is a millisecond later has the same time. -/
theorem millisecond_lost : ∃ s', beforeWrap.Step (frameAt 2 89) s' ∧ s'.written = beforeWrap.written ++ [⟨[7], 0⟩]
    ∧ Run Step (create 0 0) [frameAt 1 0xFFFFFFFF] beforeWrap ∧ s'.videoStream = some 1000
    ∧ mediaTicks 90000 1000 (getTimestamp (frameAt 1 0xFFFFFFFF).buf) (getTimestamp (frameAt 2 89).buf) = 1 := by
  refine ⟨⟨.lookingForStart, [], 2, 0xFFFFFFFF, 0, some 1000, [⟨[7], 0⟩, ⟨[7], 0⟩]⟩, ?_, rfl, run_beforeWrap, rfl, ?_⟩
  · rw [Step]
    decide
  · decide

end Licode.Media
