import Mathlib.Data.List.Chain
import Licode.Media.ExternalOutput

/-!
# What is recorded

A frame that is complete before there is a stream to write it to stays in the buffer. If the next packet
is the start of a longer frame, it is put behind it, and the two are written as one frame. Without that,
every frame that is written is one that was sent. All frames of `packageVideo` are written but those whose
packets have the numbers 65535 and 0 among them.
-/

namespace Licode.Media

open Overlay RtpVP8Parser

namespace ExternalOutput

/-- A call of `writeVideoData`. -/
structure VideoPacket where
  buf : List UInt8
  stale : Nat → UInt8
  opened : Option Int

namespace VideoPacket

def payload (e : VideoPacket) : List UInt8 := payloadOf e.buf e.stale

def number (e : VideoPacket) : UInt16 := getSeqNumber e.buf

/-- The S bit. -/
def startOfFrame (e : VideoPacket) : Bool := bit (e.payload.getD 0 0) 4

def endOfFrame (e : VideoPacket) : Bool := getMarker e.buf

/-- What stands behind the descriptor. -/
def data (e : VideoPacket) : List UInt8 := e.payload.drop 1

/-- A descriptor of one byte that is not corrupt, with data behind it. -/
structure WellFormed (e : VideoPacket) : Prop where
  oneByte : bit (e.payload.getD 0 0) 7 = false
  partition : (e.payload.getD 0 0).toNat % 16 ≤ 8
  size : 2 ≤ e.payload.length

instance (e : VideoPacket) : Decidable e.WellFormed :=
  decidable_of_iff (bit (e.payload.getD 0 0) 7 = false ∧ (e.payload.getD 0 0).toNat % 16 ≤ 8 ∧ 2 ≤ e.payload.length)
    ⟨fun h => ⟨h.1, h.2.1, h.2.2⟩, fun h => ⟨h.oneByte, h.partition, h.size⟩⟩

end VideoPacket

open VideoPacket

def Step (s : ExternalOutput) (e : VideoPacket) (s' : ExternalOutput) : Prop :=
  s.writeVideoData e.buf e.stale e.opened = some s'

/-- A call with a well-formed packet, in which the data has a value. -/
theorem writeVideoData_eq {e : VideoPacket} (h : e.WellFormed) (s : ExternalOutput) :
    s.writeVideoData e.buf e.stale e.opened
      = ((s.notice e.buf).search e.startOfFrame e.endOfFrame (some e.data)).map fun (frame, s) =>
        let s := { s with videoStream := s.videoStream.or e.opened }
        if frame then s.deliver (getTimestamp e.buf) else s := by
  have hlength := h.size
  have hsize : descriptorSize e.payload = 1 := by
    rw [descriptorSize, h.oneByte]
    rfl
  have hdescribed : Described e.payload := ⟨h.partition, by omega⟩
  obtain ⟨-, hdata, hdataLength⟩ := parseVP8_of_described hdescribed (e.stale (getHeaderLength e.buf e.stale))
  have hbegin : (parseVP8 e.payload (e.stale (getHeaderLength e.buf e.stale))).beginningOfPartition
      = e.startOfFrame := by
    obtain ⟨first, rest, hpayload⟩ := List.exists_cons_of_length_pos (show 0 < e.payload.length by omega)
    rw [beginningOfPartition_parseVP8, startOfFrame, hpayload]
    rfl
  have hbytes : dataOf e.payload (parseVP8 e.payload (e.stale (getHeaderLength e.buf e.stale))) = some e.data := by
    rw [dataOf, hdata, hdataLength, hsize]
    have hread : read e.payload 1 (e.payload.length - 1) = e.data := by
      rw [Overlay.read, data]
      exact List.take_of_length_le (by rw [List.length_drop])
    simp [hread]
  rw [writeVideoData]
  dsimp only
  rw [show payloadOf e.buf e.stale = e.payload from rfl, hbegin, hbytes,
    show getMarker e.buf = e.endOfFrame from rfl]
  cases (s.notice e.buf).search e.startOfFrame e.endOfFrame (some e.data) <;> rfl

/-! ### Runs of packets -/

/-- Packets with consecutive numbers, of which the first and no other has the S bit. -/
structure Begun (run : List VideoPacket) : Prop where
  ne : run ≠ []
  consecutive : run.IsChain fun e e' => e'.number = e.number + 1
  start : ∀ i e, run[i]? = some e → (e.startOfFrame = true ↔ i = 0)

/-- The packets of a frame that is not complete. -/
def Open (run : List VideoPacket) : Prop := Begun run ∧ ∀ e ∈ run, e.endOfFrame = false

/-- The packets of a frame. -/
def Whole (run : List VideoPacket) : Prop :=
  Begun run ∧ ∀ i e, run[i]? = some e → (e.endOfFrame = true ↔ i + 1 = run.length)

theorem eq_of_getElem?_singleton {e e' : VideoPacket} {i : Nat} (h : [e][i]? = some e') : i = 0 ∧ e = e' := by
  rw [List.getElem?_singleton] at h
  split_ifs at h with hi
  · exact ⟨hi, Option.some.inj h⟩

theorem begun_singleton {e : VideoPacket} (hstart : e.startOfFrame = true) : Begun [e] := by
  refine ⟨List.cons_ne_nil e [], List.isChain_singleton e, fun i e' h => ?_⟩
  obtain ⟨rfl, rfl⟩ := eq_of_getElem?_singleton h
  exact ⟨fun _ => rfl, fun _ => hstart⟩

theorem Begun.snoc {run : List VideoPacket} (h : Begun run) {e : VideoPacket} (hstart : e.startOfFrame = false)
    (hnumber : ∀ last, run.getLast? = some last → e.number = last.number + 1) : Begun (run ++ [e]) := by
  refine ⟨by simp, ?_, fun i e' hi => ?_⟩
  · refine h.consecutive.append (List.isChain_singleton e) fun last hlast e' he' => ?_
    obtain rfl : e = e' := by simpa using he'
    exact hnumber last (Option.mem_def.mp hlast)
  · by_cases hlt : i < run.length
    · rw [List.getElem?_append_left hlt] at hi
      exact h.start i e' hi
    · rw [List.getElem?_append_right (Nat.not_lt.mp hlt)] at hi
      obtain ⟨-, rfl⟩ := eq_of_getElem?_singleton hi
      have hpos := List.length_pos_iff.mpr h.ne
      rw [hstart]
      simp only [Bool.false_eq_true, false_iff]
      omega

theorem open_singleton {e : VideoPacket} (hstart : e.startOfFrame = true) (hend : e.endOfFrame = false) :
    Open [e] :=
  ⟨begun_singleton hstart, List.forall_mem_singleton.mpr hend⟩

theorem whole_singleton {e : VideoPacket} (hstart : e.startOfFrame = true) (hend : e.endOfFrame = true) :
    Whole [e] := by
  refine ⟨begun_singleton hstart, fun i e' h => ?_⟩
  obtain ⟨rfl, rfl⟩ := eq_of_getElem?_singleton h
  exact ⟨fun _ => rfl, fun _ => hend⟩

section Snoc

variable {run : List VideoPacket} (h : Open run) {e : VideoPacket} (hstart : e.startOfFrame = false)
  (hnumber : ∀ last, run.getLast? = some last → e.number = last.number + 1)

include h hstart hnumber

theorem Open.snoc (hend : e.endOfFrame = false) : Open (run ++ [e]) :=
  ⟨h.1.snoc hstart hnumber, List.forall_mem_append.mpr ⟨h.2, List.forall_mem_singleton.mpr hend⟩⟩

theorem Open.complete (hend : e.endOfFrame = true) : Whole (run ++ [e]) := by
  refine ⟨h.1.snoc hstart hnumber, fun i e' hi => ?_⟩
  rw [List.length_append, List.length_singleton]
  by_cases hlt : i < run.length
  · rw [List.getElem?_append_left hlt] at hi
    rw [h.2 e' (List.mem_of_getElem? hi)]
    simp only [Bool.false_eq_true, false_iff]
    omega
  · rw [List.getElem?_append_right (Nat.not_lt.mp hlt)] at hi
    obtain ⟨hzero, rfl⟩ := eq_of_getElem?_singleton hi
    rw [hend]
    simp only [true_iff]
    omega

end Snoc

/-! ### One call -/

/-- What the recorder has of the packets `fed`: if it looks for the end of a frame, the first packets of it,
up to the last that has come. -/
structure Inv (fed : List VideoPacket) (s : ExternalOutput) : Prop where
  size : s.unpackagedBuffer.length < unpackageBufferSize
  written : ∀ frame ∈ s.written, ∃ run, run <:+: fed ∧ Whole run ∧ frame.data = run.flatMap data
  pending : s.vp8SearchState = .lookingForEnd → ∃ run, run <:+ fed ∧ Open run
    ∧ s.unpackagedBuffer = run.flatMap data ∧ ∀ last, run.getLast? = some last → last.number = s.lastVideoSequenceNumber

/-- A packet that begins a longer frame finds an empty buffer, or its number does not follow the last. -/
def FreshStart (s : ExternalOutput) (e : VideoPacket) : Prop :=
  s.vp8SearchState = .lookingForStart → e.startOfFrame = true → e.endOfFrame = false →
    e.number.toNat = s.lastVideoSequenceNumber.toNat + 1 → s.unpackagedBuffer = []

instance (s : ExternalOutput) (e : VideoPacket) : Decidable (FreshStart s e) :=
  inferInstanceAs (Decidable (_ → _ → _ → _ → _))

/-- The state when the number of a packet has been seen. -/
structure Noticed (fed : List VideoPacket) (e : VideoPacket) (s : ExternalOutput) : Prop where
  size : s.unpackagedBuffer.length < unpackageBufferSize
  number : s.lastVideoSequenceNumber = e.number
  pending : s.vp8SearchState = .lookingForEnd → ∃ run, run <:+ fed ∧ Open run
    ∧ s.unpackagedBuffer = run.flatMap data ∧ ∀ last, run.getLast? = some last → e.number = last.number + 1
  fresh : s.vp8SearchState = .lookingForStart → e.startOfFrame = true → e.endOfFrame = false →
    s.unpackagedBuffer = []

/-- The state when a packet has been put to the others, and whether the frame is complete. -/
structure Found (fed : List VideoPacket) (e : VideoPacket) (frame : Bool) (s : ExternalOutput) : Prop where
  size : s.unpackagedBuffer.length < unpackageBufferSize
  number : s.lastVideoSequenceNumber = e.number
  pending : s.vp8SearchState = .lookingForEnd → ∃ run, run <:+ fed ++ [e] ∧ Open run
    ∧ s.unpackagedBuffer = run.flatMap data ∧ ∀ last, run.getLast? = some last → last.number = e.number
  complete : frame = true → s.vp8SearchState = .lookingForStart ∧ ∃ run, run <:+ fed ++ [e] ∧ Whole run
    ∧ s.unpackagedBuffer = run.flatMap data

section Call

variable {fed : List VideoPacket} {e : VideoPacket} {s s' : ExternalOutput}

theorem written_notice (s : ExternalOutput) (buf : List UInt8) : (s.notice buf).written = s.written := by
  rw [notice]
  dsimp only
  split_ifs <;> rfl

theorem noticed_notice (h : Inv fed s) (hfresh : FreshStart s e) : Noticed fed e (s.notice e.buf) := by
  rw [notice]
  dsimp only
  by_cases hgap : (getSeqNumber e.buf).toNat ≠ s.lastVideoSequenceNumber.toNat + 1
  · rw [if_pos hgap]
    refine ⟨Nat.zero_lt_of_lt h.size, rfl, ?_, ?_⟩
    · rintro ⟨⟩
    · exact fun _ _ _ => rfl
  · rw [if_neg hgap]
    have hnext : e.number.toNat = s.lastVideoSequenceNumber.toNat + 1 := not_not.mp hgap
    refine ⟨h.size, rfl, fun hstate => ?_, fun hstate hstart hend => hfresh hstate hstart hend hnext⟩
    obtain ⟨run, hsuffix, hopen, hbuffer, hlast⟩ := h.pending hstate
    refine ⟨run, hsuffix, hopen, hbuffer, fun last hmem => ?_⟩
    have hbound := e.number.toNat_lt
    rw [hlast last hmem]
    refine UInt16.toNat_inj.mp ?_
    rw [hnext, UInt16.toNat_add, UInt16.toNat_one, Nat.mod_eq_of_lt (by omega)]

theorem copyPayload_cases (s : ExternalOutput) (bytes : List UInt8) :
    s.copyPayload bytes = (false, { s.clear with vp8SearchState := .lookingForStart })
      ∨ (bytes.length + s.unpackagedBuffer.length < unpackageBufferSize
        ∧ s.copyPayload bytes = (true, { s with unpackagedBuffer := s.unpackagedBuffer ++ bytes })) := by
  rw [copyPayload]
  split_ifs with hfull
  · exact .inl rfl
  · exact .inr ⟨Nat.not_le.mp hfull, rfl⟩

/-- A packet that is dropped, or for which there is not enough buffer. -/
theorem found_clear (hnumber : s.lastVideoSequenceNumber = e.number) :
    Found fed e false { s.clear with vp8SearchState := .lookingForStart } := by
  refine ⟨?_, hnumber, ?_, ?_⟩
  · exact (by decide : 0 < unpackageBufferSize)
  · rintro ⟨⟩
  · rintro ⟨⟩

theorem suffix_snoc {run : List VideoPacket} (h : run <:+ fed) (e : VideoPacket) : run ++ [e] <:+ fed ++ [e] := by
  obtain ⟨before, rfl⟩ := h
  exact ⟨before, List.append_assoc _ _ _ |>.symm⟩

/-- A packet that completes a frame. -/
theorem found_complete (hnumber : s.lastVideoSequenceNumber = e.number)
    (hstate : s.vp8SearchState = .lookingForStart) {run : List VideoPacket} (hsuffix : run <:+ fed ++ [e])
    (hwhole : Whole run) (hbuffer : s.unpackagedBuffer ++ e.data = run.flatMap data) :
    Found fed e (s.copyPayload e.data).1 (s.copyPayload e.data).2 := by
  obtain hfull | ⟨hroom, hcopy⟩ := s.copyPayload_cases e.data
  · rw [hfull]
    exact found_clear hnumber
  · rw [hcopy]
    refine ⟨?_, hnumber, ?_, fun _ => ⟨hstate, run, hsuffix, hwhole, hbuffer⟩⟩
    · rw [List.length_append]
      omega
    · intro hend
      exact absurd (hstate.symm.trans hend) (by decide)

/-- A packet that belongs to a frame which is not complete then. -/
theorem found_open (hnumber : s.lastVideoSequenceNumber = e.number) {run : List VideoPacket}
    (hsuffix : run <:+ fed ++ [e]) (hopen : Open run)
    (hlast : ∀ last, run.getLast? = some last → last.number = e.number)
    (hbuffer : s.unpackagedBuffer ++ e.data = run.flatMap data) :
    Found fed e false (s.copyPayload e.data).2 := by
  obtain hfull | ⟨hroom, hcopy⟩ := s.copyPayload_cases e.data
  · rw [hfull]
    exact found_clear hnumber
  · rw [hcopy]
    refine ⟨?_, hnumber, fun _ => ⟨run, hsuffix, hopen, hbuffer, hlast⟩, ?_⟩
    · rw [List.length_append]
      omega
    · rintro ⟨⟩

/-- The search goes on for the end only if the start was copied. -/
theorem copyPayload_start (s : ExternalOutput) (bytes : List UInt8) :
    (if (s.copyPayload bytes).1 then { (s.copyPayload bytes).2 with vp8SearchState := .lookingForEnd }
      else (s.copyPayload bytes).2) = (copyPayload { s with vp8SearchState := .lookingForEnd } bytes).2 := by
  by_cases hfull : bytes.length + s.unpackagedBuffer.length ≥ unpackageBufferSize
  · simp only [copyPayload, if_pos hfull]
    rfl
  · simp only [copyPayload, if_neg hfull]
    rfl

theorem written_copyPayload (s : ExternalOutput) (bytes : List UInt8) :
    (s.copyPayload bytes).2.written = s.written := by
  rw [copyPayload]
  split_ifs <;> rfl

theorem found_search (h : Noticed fed e s) :
    ∃ frame s', s.search e.startOfFrame e.endOfFrame (some e.data) = some (frame, s')
      ∧ s'.written = s.written ∧ Found fed e frame s' := by
  have hsingle : [e] <:+ fed ++ [e] := List.suffix_append fed [e]
  have hlast : ∀ run : List VideoPacket, ∀ last, (run ++ [e]).getLast? = some last → last.number = e.number := by
    intro run last hmem
    rw [List.getLast?_append, List.getLast?_singleton, Option.some_or, Option.some_inj] at hmem
    rw [hmem]
  have hnil : [] ++ e.data = [e].flatMap data := by simp
  -- the pair is taken apart before the copying is unfolded
  have hpair (result : Bool × ExternalOutput) : some result = some (result.1, result.2) := rfl
  unfold search
  cases hstate : s.vp8SearchState with
  | lookingForStart =>
      cases hstart : e.startOfFrame with
      | false =>
          refine ⟨false, s.clear, by cases e.endOfFrame <;> rfl, rfl, ?_⟩
          have hclear : s.clear = { s.clear with vp8SearchState := .lookingForStart } := by
            rw [← hstate]
            rfl
          rw [hclear]
          exact found_clear h.number
      | true =>
          cases hend : e.endOfFrame with
          | true =>
              refine ⟨_, _, hpair (s.clear.copyPayload e.data), ?_, ?_⟩
              · exact written_copyPayload _ _
              · exact found_complete h.number hstate hsingle (whole_singleton hstart hend) hnil
          | false =>
              refine ⟨false, (copyPayload { s with vp8SearchState := .lookingForEnd } e.data).2, ?_, ?_, ?_⟩
              · exact congrArg (fun s => some (false, s)) (copyPayload_start s e.data)
              · exact written_copyPayload _ _
              · refine found_open h.number hsingle (open_singleton hstart hend) (hlast []) ?_
                rw [h.fresh hstate hstart hend]
                exact hnil
  | lookingForEnd =>
      obtain ⟨run, hsuffix, hopen, hbuffer, hnumber⟩ := h.pending hstate
      have hmore : s.unpackagedBuffer ++ e.data = (run ++ [e]).flatMap data := by
        rw [hbuffer, List.flatMap_append, List.flatMap_singleton]
      set reset : ExternalOutput := { s.clear with vp8SearchState := .lookingForStart }
      set last : ExternalOutput := { s with vp8SearchState := .lookingForStart }
      cases hstart : e.startOfFrame with
      | true =>
          cases hend : e.endOfFrame with
          | true =>
              refine ⟨_, _, hpair (reset.copyPayload e.data), ?_, ?_⟩
              · exact written_copyPayload _ _
              · exact found_complete h.number rfl hsingle (whole_singleton hstart hend) hnil
          | false =>
              refine ⟨false, (s.clear.copyPayload e.data).2, rfl, written_copyPayload _ _, ?_⟩
              exact found_open h.number hsingle (open_singleton hstart hend) (hlast []) hnil
      | false =>
          cases hend : e.endOfFrame with
          | true =>
              refine ⟨_, _, hpair (last.copyPayload e.data), ?_, ?_⟩
              · exact written_copyPayload _ _
              · exact found_complete h.number rfl (suffix_snoc hsuffix e) (hopen.complete hstart hnumber hend) hmore
          | false =>
              refine ⟨false, (s.copyPayload e.data).2, rfl, written_copyPayload _ _, ?_⟩
              exact found_open h.number (suffix_snoc hsuffix e) (hopen.snoc hstart hnumber hend) (hlast run) hmore

theorem deliver_cases (s : ExternalOutput) (timestamp : UInt32) :
    (s.videoStream = none ∧ s.deliver timestamp = s)
      ∨ ∃ den, s.videoStream = some den ∧ s.deliver timestamp
        = { s.clear with written := s.written ++ [⟨s.unpackagedBuffer, s.timestampToWrite timestamp den⟩] } := by
  rw [deliver]
  cases hstream : s.videoStream with
  | none => exact .inl ⟨rfl, rfl⟩
  | some den => exact .inr ⟨den, rfl, rfl⟩

theorem Inv.step (h : Inv fed s) (hwf : e.WellFormed) (hfresh : FreshStart s e) (hstep : Step s e s') :
    Inv (fed ++ [e]) s' := by
  obtain ⟨frame, s₁, hsearch, hkept, hfound⟩ := found_search (noticed_notice h hfresh)
  have hwritten : ∀ packet ∈ s₁.written, ∃ run, run <:+: fed ++ [e] ∧ Whole run ∧ packet.data = run.flatMap data := by
    intro packet hmem
    rw [hkept, written_notice] at hmem
    obtain ⟨run, hinfix, hrun⟩ := h.written packet hmem
    exact ⟨run, hinfix.trans (List.prefix_append fed [e]).isInfix, hrun⟩
  rw [Step, writeVideoData_eq hwf, hsearch, Option.map_some, Option.some_inj] at hstep
  have hsame : Inv (fed ++ [e]) { s₁ with videoStream := s₁.videoStream.or e.opened } := by
    refine ⟨hfound.size, hwritten, fun hstate => ?_⟩
    obtain ⟨run, hsuffix, hopen, hbuffer, hlast⟩ := hfound.pending hstate
    exact ⟨run, hsuffix, hopen, hbuffer, fun last hmem => (hlast last hmem).trans hfound.number.symm⟩
  set s₂ : ExternalOutput := { s₁ with videoStream := s₁.videoStream.or e.opened } with hs₂
  cases hframe : frame with
  | false =>
      rw [hframe] at hstep
      rw [← hstep]
      exact hsame
  | true =>
      rw [hframe] at hstep
      rw [← hstep]
      obtain ⟨-, hdeliver⟩ | ⟨den, -, hdeliver⟩ := s₂.deliver_cases (getTimestamp e.buf)
      · dsimp only
        rw [if_pos rfl, hdeliver]
        exact hsame
      · dsimp only
        rw [if_pos rfl, hdeliver]
        obtain ⟨hstate, run, hsuffix, hwhole, hbuffer⟩ := hfound.complete hframe
        refine ⟨Nat.zero_lt_of_lt hsame.size, ?_, fun hother => ?_⟩
        · intro packet hmem
          obtain hmem | hmem := List.mem_append.mp hmem
          · exact hwritten packet hmem
          · obtain rfl := List.mem_singleton.mp hmem
            exact ⟨run, hsuffix.isInfix, hwhole, hbuffer⟩
        · exact absurd (hstate.symm.trans hother) (by decide)

end Call

theorem inv_create (lastVideoSequenceNumber : UInt16) (videoOffsetMsec : Int) :
    Inv [] (create lastVideoSequenceNumber videoOffsetMsec) := by
  refine ⟨(by decide : 0 < unpackageBufferSize), by simp [create], ?_⟩
  rintro ⟨⟩

/-- **Only whole frames are written,** if no frame is put behind one that is still in the buffer. -/
theorem written_whole (lastVideoSequenceNumber : UInt16) (videoOffsetMsec : Int) (fed : List VideoPacket)
    (s : ExternalOutput) (hwf : ∀ e ∈ fed, e.WellFormed)
    (hrun : Run (Guarded FreshStart Step) (create lastVideoSequenceNumber videoOffsetMsec) fed s) :
    (∀ frame ∈ s.written, ∃ run, run <:+: fed ∧ Whole run ∧ frame.data = run.flatMap data)
      ∧ s.unpackagedBuffer.length < unpackageBufferSize := by
  have hinv : Inv fed s := by
    induction hrun with
    | nil => exact inv_create _ _
    | snoc _ hlast ih =>
        obtain ⟨hinit, hlastWf⟩ := List.forall_mem_append.mp hwf
        exact (ih hinit).step (hlastWf _ (List.mem_singleton.mpr rfl)) hlast.1 hlast.2
  exact ⟨hinv.written, hinv.size⟩

/-- A packet with one byte of a frame. -/
def onePacket (seqNumber : UInt16) (start last : Bool) (byte : UInt8) (opened : Option Int) : VideoPacket :=
  ⟨OutputProcessor.packetOf last seqNumber 0 [if start then 0x10 else 0, byte], fun _ => 0, opened⟩

/-- A frame of two packets. -/
def oneFrame : List VideoPacket := [onePacket 1 true false 1 (some 1000), onePacket 2 false true 2 none]

theorem written_whole_oneFrame : ∃ s, Run (Guarded FreshStart Step) (create 0 0) oneFrame s
    ∧ s.written.map (·.data) = [[1, 2]]
    ∧ (∀ frame ∈ s.written, ∃ run, run <:+: oneFrame ∧ Whole run ∧ frame.data = run.flatMap data)
    ∧ s.unpackagedBuffer.length < unpackageBufferSize := by
  have hrun : oneFrame.foldlM (fun s e => if FreshStart s e then s.writeVideoData e.buf e.stale e.opened else none)
      (create 0 0) = some ⟨.lookingForStart, [], 2, 0, 0, some 1000, [⟨[1, 2], 0⟩]⟩ := by decide
  have hguarded := Run.guarded_of_foldlM hrun
  exact ⟨_, hguarded, rfl, written_whole 0 0 oneFrame _ (by decide) hguarded⟩

/-- A frame that is complete before there is a stream, and the next one. -/
def twoInOne : List VideoPacket :=
  [onePacket 1 true true 1 none, onePacket 2 true false 2 none, onePacket 3 false true 3 (some 1000)]

theorem written_corrupt : (∀ e ∈ twoInOne, e.WellFormed) ∧ ∃ s, Run Step (create 0 0) twoInOne s
    ∧ ¬ ((∀ frame ∈ s.written, ∃ run, run <:+: twoInOne ∧ Whole run ∧ frame.data = run.flatMap data)
      ∧ s.unpackagedBuffer.length < unpackageBufferSize) := by
  have hrun : twoInOne.foldlM (fun s e => s.writeVideoData e.buf e.stale e.opened) (create 0 0)
      = some ⟨.lookingForStart, [], 3, 0, 0, some 1000, [⟨[1, 2, 3], 0⟩]⟩ := by decide
  refine ⟨by decide, _, Run.of_foldlM hrun, fun h => ?_⟩
  obtain ⟨run, hinfix, hwhole, hdata⟩ := h.1 _ (List.mem_singleton.mpr rfl)
  have hone : ∀ e ∈ twoInOne, e.data.length = 1 := by decide
  have hlength : run.length = 3 := by
    have hsum := congrArg List.length hdata
    have hmap : run.map (fun e => e.data.length) = run.map fun _ => 1 :=
      List.map_congr_left fun e he => hone e (List.IsInfix.subset hinfix he)
    rw [List.length_flatMap, hmap] at hsum
    simpa using hsum.symm
  have hall : run = twoInOne := hinfix.eq_of_length hlength
  rw [hall] at hwhole
  have hstart := (hwhole.1.start 1 _ rfl).mp rfl
  exact absurd hstart Nat.one_ne_zero

/-! ### The packets of `packageVideo` -/

open OutputProcessor RtpVP8Fragmenter

/-- Between two frames, with a stream to write to. -/
structure Ready (s : ExternalOutput) : Prop where
  state : s.vp8SearchState = .lookingForStart
  buffer : s.unpackagedBuffer = []
  stream : s.videoStream.isSome

/-- One packet after the other. -/
def record (stale : Nat → UInt8) (opened : Option Int) (s : ExternalOutput) (packets : List (List UInt8)) :
    Option ExternalOutput :=
  packets.foldlM (fun s buf => s.writeVideoData buf stale opened) s

section Record

variable {stale : Nat → UInt8} {opened : Option Int} {s : ExternalOutput}

theorem record_cons (buf : List UInt8) (packets : List (List UInt8)) :
    s.record stale opened (buf :: packets)
      = (s.writeVideoData buf stale opened).bind fun s => s.record stale opened packets := by
  rw [record, List.foldlM_cons]
  rfl

theorem record_append (packets packets' : List (List UInt8)) :
    s.record stale opened (packets ++ packets')
      = (s.record stale opened packets).bind fun s => s.record stale opened packets' := by
  rw [record, List.foldlM_append]
  rfl

/-- A packet of `packageVideo`. -/
def packaged (stale : Nat → UInt8) (opened : Option Int) (marker : Bool) (seqNumber : UInt16) (timestamp : UInt32)
    (first : Bool) (piece : List UInt8) : VideoPacket :=
  ⟨packetOf marker seqNumber timestamp ((if first then 0x10 else 0) :: piece), stale, opened⟩

theorem writeVideoData_packaged (marker : Bool) (seqNumber : UInt16) (timestamp : UInt32) (first : Bool)
    {piece : List UInt8} (hne : piece ≠ []) :
    s.writeVideoData (packetOf marker seqNumber timestamp ((if first then 0x10 else 0) :: piece)) stale opened
      = ((s.notice (packetOf marker seqNumber timestamp ((if first then 0x10 else 0) :: piece))).search first marker
          (some piece)).map fun (frame, s) =>
        let s := { s with videoStream := s.videoStream.or opened }
        if frame then s.deliver timestamp else s := by
  set e := packaged stale opened marker seqNumber timestamp first piece with he
  have hpayload : e.payload = (if first then 0x10 else 0) :: piece := payloadOf_packetOf _ _ _ _ _
  have hlength := List.length_pos_iff.mpr hne
  have hhead : e.payload.getD 0 0 = if first then 0x10 else 0 := by
    rw [hpayload]
    rfl
  have hwf : e.WellFormed := by
    refine ⟨?_, ?_, ?_⟩
    · rw [hhead]
      cases first <;> decide
    · rw [hhead]
      cases first <;> decide
    · rw [hpayload, List.length_cons]
      omega
  have hstart : e.startOfFrame = first := by
    rw [startOfFrame, hhead]
    cases first <;> decide
  have hend : e.endOfFrame = marker := getMarker_packetOf _ _ _ _
  have hdata : e.data = piece := by
    rw [data, hpayload]
    rfl
  have hcall := writeVideoData_eq hwf s
  rw [hstart, hend, hdata, show getTimestamp e.buf = timestamp from getTimestamp_packetOf _ _ _ _] at hcall
  exact hcall

/-- Inside of a frame of which `bytes` have come, the last of them in the packet `last`. -/
structure Midway (bytes : List UInt8) (last : UInt16) (s : ExternalOutput) : Prop where
  state : s.vp8SearchState = .lookingForEnd
  buffer : s.unpackagedBuffer = bytes
  number : s.lastVideoSequenceNumber = last
  stream : s.videoStream.isSome

theorem copyPayload_of_room (s : ExternalOutput) {bytes : List UInt8}
    (h : bytes.length + s.unpackagedBuffer.length < unpackageBufferSize) :
    s.copyPayload bytes = (true, { s with unpackagedBuffer := s.unpackagedBuffer ++ bytes }) :=
  if_neg (Nat.not_le.mpr h)

theorem Ready.notice (h : s.Ready) (buf : List UInt8) : (s.notice buf).Ready := by
  rw [ExternalOutput.notice]
  dsimp only
  split_ifs
  all_goals first | exact ⟨rfl, rfl, h.stream⟩ | exact ⟨h.state, h.buffer, h.stream⟩

/-- A packet that does not follow the last one. -/
theorem ready_notice_of_gap (hstream : s.videoStream.isSome) {buf : List UInt8}
    (h : (getSeqNumber buf).toNat ≠ s.lastVideoSequenceNumber.toNat + 1) : (s.notice buf).Ready := by
  rw [ExternalOutput.notice]
  dsimp only
  rw [if_pos h]
  exact ⟨rfl, rfl, hstream⟩

theorem Midway.notice {bytes : List UInt8} {last : UInt16} (h : Midway bytes last s) {buf : List UInt8}
    (hnext : (getSeqNumber buf).toNat = last.toNat + 1) : Midway bytes (getSeqNumber buf) (s.notice buf) := by
  rw [ExternalOutput.notice]
  dsimp only
  rw [h.number, if_neg (not_not.mpr hnext)]
  exact ⟨h.state, h.buffer, rfl, h.stream⟩

theorem isSome_or (h : s.videoStream.isSome) (opened : Option Int) : (s.videoStream.or opened).isSome := by
  obtain ⟨den, hden⟩ := Option.isSome_iff_exists.mp h
  rw [hden]
  rfl

/-- A complete frame is written if there is a stream. -/
theorem ready_deliver (hstate : s.vp8SearchState = .lookingForStart) (hstream : s.videoStream.isSome)
    (timestamp : UInt32) :
    (s.deliver timestamp).Ready
      ∧ (s.deliver timestamp).written.map (·.data) = s.written.map (·.data) ++ [s.unpackagedBuffer] := by
  obtain ⟨hnone, -⟩ | ⟨den, hden, hdeliver⟩ := s.deliver_cases timestamp
  · rw [hnone] at hstream
    cases hstream
  · rw [hdeliver]
    refine ⟨⟨hstate, rfl, hstream⟩, ?_⟩
    rw [List.map_append]
    rfl

theorem search_ready_lost (h : s.Ready) (marker : Bool) (piece : List UInt8) :
    s.search false marker (some piece) = some (false, s.clear) := by
  rw [search.eq_def, h.state]

theorem search_ready_whole (h : s.Ready) {piece : List UInt8} (hroom : piece.length < unpackageBufferSize) :
    s.search true true (some piece) = some (true, { s with unpackagedBuffer := piece }) := by
  conv_lhs => rw [search.eq_def, h.state]
  exact congrArg some (copyPayload_of_room s.clear hroom)

theorem search_ready_start (h : s.Ready) {piece : List UInt8} (hroom : piece.length < unpackageBufferSize) :
    s.search true false (some piece)
      = some (false, { s with unpackagedBuffer := piece, vp8SearchState := .lookingForEnd }) := by
  have hcopy : s.copyPayload piece = (true, { s with unpackagedBuffer := piece }) := by
    rw [copyPayload_of_room s (by rw [h.buffer]; exact hroom), h.buffer]
    rfl
  conv_lhs => rw [search.eq_def, h.state]
  dsimp only
  rw [Option.bind_eq_bind, Option.bind_some, hcopy]
  rfl

section Midway

variable {bytes piece : List UInt8} {last : UInt16} (h : Midway bytes last s)
  (hroom : piece.length + bytes.length < unpackageBufferSize)

include h hroom

theorem search_midway_inner :
    s.search false false (some piece) = some (false, { s with unpackagedBuffer := bytes ++ piece }) := by
  have hcopy : s.copyPayload piece = _ := copyPayload_of_room s (by rw [h.buffer]; exact hroom)
  conv_lhs => rw [search.eq_def, h.state]
  dsimp only
  rw [Option.bind_eq_bind, Option.bind_some, hcopy, h.buffer]
  rfl

theorem search_midway_last :
    s.search false true (some piece)
      = some (true, { s with unpackagedBuffer := bytes ++ piece, vp8SearchState := .lookingForStart }) := by
  have hcopy : copyPayload { s with vp8SearchState := .lookingForStart } piece = _ :=
    copyPayload_of_room _ (by rw [h.buffer]; exact hroom)
  conv_lhs => rw [search.eq_def, h.state]
  dsimp only
  rw [Option.bind_eq_bind, Option.bind_some, hcopy, h.buffer]
  rfl

end Midway

section Packet

theorem number_notice (s : ExternalOutput) (marker : Bool) (seqNumber : UInt16) (timestamp : UInt32) (data : List UInt8) :
    (s.notice (packetOf marker seqNumber timestamp data)).lastVideoSequenceNumber = seqNumber :=
  getSeqNumber_packetOf marker seqNumber timestamp data

variable {marker : Bool} {seqNumber : UInt16} {timestamp : UInt32} {piece : List UInt8}

/-- After the packet has been noticed only what is searched in it matters. -/
theorem writeVideoData_of_search (first : Bool) {head : UInt8} (hhead : head = if first then 0x10 else 0) {frame : Bool}
    (hne : piece ≠ []) {noticed s' : ExternalOutput}
    (hnotice : s.notice (packetOf marker seqNumber timestamp (head :: piece)) = noticed)
    (hsearch : noticed.search first marker (some piece) = some (frame, s')) :
    s.writeVideoData (packetOf marker seqNumber timestamp (head :: piece)) stale opened
      = some (if frame then deliver { s' with videoStream := s'.videoStream.or opened } timestamp
        else { s' with videoStream := s'.videoStream.or opened }) := by
  subst hhead hnotice
  rw [writeVideoData_packaged marker seqNumber timestamp first hne, hsearch]
  rfl

/-- A packet inside of a frame of which nothing is kept. -/
theorem write_lost (hne : piece ≠ [])
    (hready : (s.notice (packetOf marker seqNumber timestamp (0 :: piece))).Ready) :
    ∃ s', s.writeVideoData (packetOf marker seqNumber timestamp (0 :: piece)) stale opened = some s' ∧ s'.Ready
      ∧ s'.written = s.written := by
  have hwritten := written_notice s (packetOf marker seqNumber timestamp (0 :: piece))
  generalize hnotice : s.notice (packetOf marker seqNumber timestamp (0 :: piece)) = noticed at hready hwritten
  refine ⟨_, writeVideoData_of_search false rfl hne hnotice (search_ready_lost hready marker piece), ?_, hwritten⟩
  exact ⟨hready.state, rfl, isSome_or hready.stream opened⟩

/-- A frame in one packet. -/
theorem write_whole (hready : s.Ready) (hne : piece ≠ []) (hroom : piece.length < unpackageBufferSize) :
    ∃ s', s.writeVideoData (packetOf true seqNumber timestamp (0x10 :: piece)) stale opened = some s' ∧ s'.Ready
      ∧ s'.written.map (·.data) = s.written.map (·.data) ++ [piece] := by
  have hnoticed := hready.notice (packetOf true seqNumber timestamp (0x10 :: piece))
  have hkept := written_notice s (packetOf true seqNumber timestamp (0x10 :: piece))
  generalize hnotice : s.notice (packetOf true seqNumber timestamp (0x10 :: piece)) = noticed at hnoticed hkept
  obtain ⟨hdelivered, hwritten⟩ := ready_deliver (s := { noticed with
    unpackagedBuffer := piece, videoStream := noticed.videoStream.or opened }) hnoticed.state
    (isSome_or hnoticed.stream opened) timestamp
  refine ⟨_, writeVideoData_of_search true rfl hne hnotice (search_ready_whole hnoticed hroom), hdelivered, ?_⟩
  rw [← hkept]
  exact hwritten

/-- The first of several packets. -/
theorem write_start (hready : s.Ready) (hne : piece ≠ []) (hroom : piece.length < unpackageBufferSize) :
    ∃ s', s.writeVideoData (packetOf false seqNumber timestamp (0x10 :: piece)) stale opened = some s'
      ∧ Midway piece seqNumber s' ∧ s'.written = s.written := by
  have hnoticed := hready.notice (packetOf false seqNumber timestamp (0x10 :: piece))
  have hnumber := number_notice s false seqNumber timestamp (0x10 :: piece)
  have hkept := written_notice s (packetOf false seqNumber timestamp (0x10 :: piece))
  generalize hnotice : s.notice (packetOf false seqNumber timestamp (0x10 :: piece)) = noticed at hnoticed hnumber hkept
  refine ⟨_, writeVideoData_of_search true rfl hne hnotice (search_ready_start hnoticed hroom), ?_, hkept⟩
  exact ⟨rfl, rfl, hnumber, isSome_or hnoticed.stream opened⟩

section Next

variable {bytes : List UInt8} {last : UInt16} (hmidway : Midway bytes last s) (hne : piece ≠ [])
  (hroom : piece.length + bytes.length < unpackageBufferSize) (hnext : seqNumber.toNat = last.toNat + 1)

include hmidway hne hroom hnext

/-- A packet in the middle of a frame. -/
theorem write_inner :
    ∃ s', s.writeVideoData (packetOf false seqNumber timestamp (0 :: piece)) stale opened = some s'
      ∧ Midway (bytes ++ piece) seqNumber s' ∧ s'.written = s.written := by
  have hseq := getSeqNumber_packetOf false seqNumber timestamp (0 :: piece)
  have hnoticed := hmidway.notice (hseq.symm ▸ hnext)
  have hnumber := number_notice s false seqNumber timestamp (0 :: piece)
  have hkept := written_notice s (packetOf false seqNumber timestamp (0 :: piece))
  generalize hnotice : s.notice (packetOf false seqNumber timestamp (0 :: piece)) = noticed at hnoticed hnumber hkept
  refine ⟨_, writeVideoData_of_search false rfl hne hnotice (search_midway_inner hnoticed hroom), ?_, hkept⟩
  exact ⟨hnoticed.state, rfl, hnumber, isSome_or hnoticed.stream opened⟩

/-- The last packet of a frame. -/
theorem write_last :
    ∃ s', s.writeVideoData (packetOf true seqNumber timestamp (0 :: piece)) stale opened = some s' ∧ s'.Ready
      ∧ s'.written.map (·.data) = s.written.map (·.data) ++ [bytes ++ piece] := by
  have hseq := getSeqNumber_packetOf true seqNumber timestamp (0 :: piece)
  have hnoticed := hmidway.notice (hseq.symm ▸ hnext)
  have hkept := written_notice s (packetOf true seqNumber timestamp (0 :: piece))
  generalize hnotice : s.notice (packetOf true seqNumber timestamp (0 :: piece)) = noticed at hnoticed hkept
  obtain ⟨hdelivered, hwritten⟩ := ready_deliver (s := { noticed with
    unpackagedBuffer := bytes ++ piece
    vp8SearchState := .lookingForStart
    videoStream := noticed.videoStream.or opened }) rfl (isSome_or hnoticed.stream opened) timestamp
  refine ⟨_, writeVideoData_of_search false rfl hne hnotice (search_midway_last hnoticed hroom), hdelivered, ?_⟩
  rw [← hkept]
  exact hwritten

end Next

end Packet

/-! ### Frame after frame -/

section Frame

variable {totalData : List UInt8} {timestamp : UInt32} {fragments : List Fragment}

theorem record_lost (hready : s.Ready) (seqnum : UInt32)
    (hfirst : ∀ fragment ∈ fragments, fragment.first = false)
    (hne : ∀ piece ∈ pieces totalData fragments, piece ≠ []) :
    ∃ s', s.record stale opened (packetsOf totalData timestamp seqnum fragments) = some s' ∧ s'.Ready
      ∧ s'.written = s.written := by
  induction fragments generalizing s seqnum with
  | nil => exact ⟨s, rfl, hready, rfl⟩
  | cons fragment fragments ih =>
      obtain ⟨hfragment, hfragments⟩ := List.forall_mem_cons.mp hfirst
      obtain ⟨hpiece, hpieces⟩ := List.forall_mem_cons.mp hne
      obtain ⟨s₁, hwrite, hready₁, hwritten₁⟩ := write_lost hpiece (hready.notice _)
      obtain ⟨s₂, hrecord, hready₂, hwritten₂⟩ := ih hready₁ (seqnum + 1) hfragments hpieces
      refine ⟨s₂, ?_, hready₂, hwritten₂.trans hwritten₁⟩
      rw [packetsOf, record_cons, writeFragment, hfragment, if_neg Bool.false_ne_true, hwrite, Option.bind_some,
        hrecord]

/-- The rest of a frame is written with what has come before, if the numbers do not begin again. -/
theorem record_midway {bytes : List UInt8} {last : UInt16} (hmidway : Midway bytes last s) {seqnum : UInt32}
    (hnumber : seqnum.toUInt16 = last + 1) (hfragments : fragments ≠ [])
    (hfirst : ∀ fragment ∈ fragments, fragment.first = false)
    (hne : ∀ piece ∈ pieces totalData fragments, piece ≠ [])
    (hroom : bytes.length + (pieces totalData fragments).flatten.length < unpackageBufferSize) :
    ∃ s', s.record stale opened (packetsOf totalData timestamp seqnum fragments) = some s' ∧ s'.Ready
      ∧ s'.written.map (·.data) = s.written.map (·.data)
        ++ if last.toNat + fragments.length < 65536 then [bytes ++ (pieces totalData fragments).flatten] else [] := by
  induction fragments generalizing s seqnum bytes last with
  | nil => exact absurd rfl hfragments
  | cons fragment fragments ih =>
      obtain ⟨hfragment, hrest⟩ := List.forall_mem_cons.mp hfirst
      obtain ⟨hhead, hpieces⟩ := List.forall_mem_cons.mp hne
      set piece := read totalData fragment.position fragment.size
      have hpiece : piece ≠ [] := hhead
      have hflatten : (pieces totalData (fragment :: fragments)).flatten
          = piece ++ (pieces totalData fragments).flatten := rfl
      rw [hflatten, List.length_append] at hroom
      have hbound := last.toNat_lt
      have hsum : seqnum.toUInt16.toNat = (last.toNat + 1) % 65536 := by
        rw [hnumber, UInt16.toNat_add]
        rfl
      rw [packetsOf, record_cons, writeFragment, hfragment, if_neg Bool.false_ne_true, hflatten, List.length_cons]
      by_cases hwrap : last.toNat = 65535
      · -- the number is 0, and what has come is discarded
        have hgap : (getSeqNumber (packetOf fragments.isEmpty seqnum.toUInt16 timestamp (0 :: piece))).toNat
            ≠ s.lastVideoSequenceNumber.toNat + 1 := by
          rw [getSeqNumber_packetOf, hmidway.number]
          omega
        obtain ⟨s₁, hwrite, hready₁, hwritten₁⟩ := write_lost hpiece (ready_notice_of_gap hmidway.stream hgap)
        obtain ⟨s₂, hrecord, hready₂, hwritten₂⟩ := record_lost hready₁ (seqnum + 1) hrest hpieces
        refine ⟨s₂, ?_, hready₂, ?_⟩
        · rw [hwrite, Option.bind_some, hrecord]
        · rw [if_neg (by omega), List.append_nil, hwritten₂, hwritten₁]
      · have hnext : seqnum.toUInt16.toNat = last.toNat + 1 := by omega
        cases hqueue : fragments with
        | nil =>
            obtain ⟨s₁, hwrite, hready₁, hwritten₁⟩ :=
              write_last hmidway hpiece (by omega) hnext
            refine ⟨s₁, ?_, hready₁, ?_⟩
            · rw [List.isEmpty_nil, hwrite, Option.bind_some]
              rfl
            · rw [hwritten₁, if_pos (by rw [List.length_nil]; omega)]
              simp [pieces]
        | cons next more =>
            rw [← hqueue]
            obtain ⟨s₁, hwrite, hmidway₁, hwritten₁⟩ := write_inner hmidway hpiece (by omega) hnext
            obtain ⟨s₂, hrecord, hready₂, hwritten₂⟩ := @ih s₁ (bytes ++ piece) seqnum.toUInt16 hmidway₁ (seqnum + 1)
              (UInt32.toUInt16_add _ _) (by rw [hqueue]; exact List.cons_ne_nil _ _) hrest hpieces
              (by rw [List.length_append]; omega)
            have hmore : fragments.isEmpty = false := by rw [hqueue]; rfl
            have hiff : seqnum.toUInt16.toNat + fragments.length < 65536
                ↔ last.toNat + (fragments.length + 1) < 65536 := by omega
            refine ⟨s₂, ?_, hready₂, ?_⟩
            · rw [hmore, hwrite, Option.bind_some, hrecord]
            · rw [hwritten₂, hwritten₁, List.append_assoc]
              simp only [hiff]

end Frame

/-- A frame is written, unless its numbers begin again within it. -/
theorem record_frame (hready : s.Ready) {frame : List UInt8} (hne : frame ≠ [])
    (hsize : frame.length < unpackageBufferSize) (timestamp seqnum : UInt32) :
    ∃ s', s.record stale opened (packetsOf frame timestamp seqnum (calculatePackets 0 frame.length)) = some s'
      ∧ s'.Ready ∧ s'.written.map (·.data) = s.written.map (·.data)
        ++ if seqnum.toUInt16.toNat + packetCount frame.length ≤ 65536 then [frame] else [] := by
  have hpos : 0 < frame.length := List.length_pos_iff.mpr hne
  have hcount := length_calculatePackets 0 frame.length
  have hflatten : (pieces frame (calculatePackets 0 frame.length)).flatten = frame :=
    (flatten_pieces (by omega)).trans (List.drop_zero ..)
  have hpieces := pieces_ne_nil frame
  have hothers : ∀ fragment ∈ (calculatePackets 0 frame.length).tail, fragment.first = false := by
    intro fragment hfragment
    obtain ⟨i, hi⟩ := List.mem_iff_getElem?.mp hfragment
    rw [List.getElem?_tail] at hi
    rw [first_of_getElem? hi, decide_eq_false (Nat.succ_ne_zero i)]
  rw [calculatePackets_of_pos hpos] at hcount hflatten hpieces hothers ⊢
  set fragments := calculatePackets (0 + fragmentSize frame.length) (frame.length - fragmentSize frame.length)
  rw [List.tail_cons] at hothers
  obtain ⟨hhead, hrest⟩ := List.forall_mem_cons.mp hpieces
  set piece := read frame 0 (fragmentSize frame.length) with hpieceEq
  have hpiece : piece ≠ [] := hhead
  have hflat : piece ++ (pieces frame fragments).flatten = frame := hflatten
  have hlength : piece.length + (pieces frame fragments).flatten.length = frame.length := by
    rw [← List.length_append, hflat]
  have hbound := seqnum.toUInt16.toNat_lt
  rw [List.length_cons] at hcount
  rw [packetsOf, record_cons, writeFragment]
  cases hqueue : fragments with
  | nil =>
      obtain ⟨s₁, hwrite, hready₁, hwritten₁⟩ := write_whole hready hpiece (by omega)
      refine ⟨s₁, ?_, hready₁, ?_⟩
      · rw [List.isEmpty_nil]
        refine Eq.trans (congrArg (Option.bind · _) hwrite) rfl
      · have hwhole : piece = frame := by
          rw [hqueue] at hflat
          simpa [pieces] using hflat
        rw [hqueue, List.length_nil] at hcount
        rw [hwritten₁, if_pos (by omega), hwhole]
  | cons next more =>
      rw [← hqueue]
      obtain ⟨s₁, hwrite, hmidway, hwritten₁⟩ := write_start hready hpiece (by omega)
      have hnext : (seqnum + 1).toUInt16 = seqnum.toUInt16 + 1 := UInt32.toUInt16_add _ _
      have hmany : fragments ≠ [] := by
        rw [hqueue]
        exact List.cons_ne_nil _ _
      have hroom : piece.length + (pieces frame fragments).flatten.length < unpackageBufferSize := by omega
      obtain ⟨s₂, hrecord, hready₂, hwritten₂⟩ := record_midway hmidway hnext hmany hothers hrest hroom
      have hmore : fragments.isEmpty = false := by rw [hqueue]; rfl
      have hiff : seqnum.toUInt16.toNat + fragments.length < 65536
          ↔ seqnum.toUInt16.toNat + packetCount frame.length ≤ 65536 := by omega
      refine ⟨s₂, ?_, hready₂, ?_⟩
      · rw [hmore]
        exact Eq.trans (congrArg (Option.bind · _) hwrite) hrecord
      · rw [hwritten₂, hwritten₁, hflat]
        simp only [hiff]

/-- No frame has packets with the numbers 65535 and 0, the first of them being numbered `seqNumber`. -/
def Unbroken : UInt16 → List VideoFrame → Prop
  | _, [] => True
  | seqNumber, frame :: frames => seqNumber.toNat + packetCount frame.data.length ≤ 65536
      ∧ Unbroken (seqNumber + .ofNat (packetCount frame.data.length)) frames

/-- The frames that are not broken. -/
def unbrokenFrames : UInt16 → List VideoFrame → List (List UInt8)
  | _, [] => []
  | seqNumber, frame :: frames =>
      (if seqNumber.toNat + packetCount frame.data.length ≤ 65536 then [frame.data] else [])
        ++ unbrokenFrames (seqNumber + .ofNat (packetCount frame.data.length)) frames

theorem length_unbrokenFrames (seqNumber : UInt16) (frames : List VideoFrame) :
    (unbrokenFrames seqNumber frames).length ≤ frames.length := by
  induction frames generalizing seqNumber with
  | nil => exact le_rfl
  | cons frame frames ih =>
      have hrest := ih (seqNumber + .ofNat (packetCount frame.data.length))
      rw [unbrokenFrames, List.length_append, List.length_cons]
      split_ifs
      · rw [List.length_singleton]
        omega
      · rw [List.length_nil]
        omega

theorem unbrokenFrames_eq_iff (seqNumber : UInt16) (frames : List VideoFrame) :
    unbrokenFrames seqNumber frames = frames.map (·.data) ↔ Unbroken seqNumber frames := by
  induction frames generalizing seqNumber with
  | nil => exact ⟨fun _ => trivial, fun _ => rfl⟩
  | cons frame frames ih =>
      have hlength := length_unbrokenFrames (seqNumber + .ofNat (packetCount frame.data.length)) frames
      rw [unbrokenFrames, Unbroken, List.map_cons]
      by_cases hwhole : seqNumber.toNat + packetCount frame.data.length ≤ 65536
      · rw [if_pos hwhole, List.singleton_append, List.cons_inj_right, ih]
        exact (and_iff_right hwhole).symm
      · rw [if_neg hwhole, List.nil_append]
        refine ⟨fun heq => ?_, fun h => absurd h.1 hwhole⟩
        rw [heq, List.length_cons, List.length_map] at hlength
        omega

theorem record_frames (hready : s.Ready) {p : OutputProcessor} (hon : p.videoPackager = true)
    {frames : List VideoFrame} (hsizes : ∀ frame ∈ frames, 1 ≤ frame.data.length ∧ frame.data.length ≤ 199999) :
    ∃ groups p' s', p.packageFrames frames = .ok (groups, p') ∧ s.record stale opened groups.flatten = some s'
      ∧ s'.written.map (·.data) = s.written.map (·.data) ++ unbrokenFrames p.seqnum.toUInt16 frames := by
  induction frames generalizing s p with
  | nil => exact ⟨[], p, s, rfl, rfl, (List.append_nil _).symm⟩
  | cons frame frames ih =>
      obtain ⟨hframe, hframes⟩ := List.forall_mem_cons.mp hsizes
      have hne : frame.data ≠ [] := List.ne_nil_of_length_pos (by omega)
      obtain ⟨s₁, hrecord, hready₁, hwritten₁⟩ := @record_frame stale opened s hready frame.data hne
        (show frame.data.length < 200000 by omega) (rescaled frame.pts frame.millis) p.seqnum
      obtain ⟨groups, p', s₂, hpackage, hrecord₂, hwritten₂⟩ := @ih s₁ hready₁
        { p with seqnum := p.seqnum + .ofNat (packetCount frame.data.length) } hon hframes
      refine ⟨packetsOf frame.data (rescaled frame.pts frame.millis) p.seqnum (calculatePackets 0 frame.data.length)
        :: groups, p', s₂, ?_, ?_, ?_⟩
      · rw [packageFrames, packageVideo_eq hon hne, Checked.ok_bind]
        dsimp only
        rw [length_calculatePackets, hpackage]
        rfl
      · rw [List.flatten_cons, record_append, hrecord, Option.bind_some, hrecord₂]
      · have hnumber : (p.seqnum + .ofNat (packetCount frame.data.length)).toUInt16
            = p.seqnum.toUInt16 + .ofNat (packetCount frame.data.length) := by
          rw [UInt32.toUInt16_add, UInt32.toUInt16_ofNat']
        rw [hwritten₂, hwritten₁, unbrokenFrames, List.append_assoc, hnumber]

theorem recorded_iff_unbrokenFrames (hready : s.Ready) {p : OutputProcessor} (hon : p.videoPackager = true)
    {frames : List VideoFrame} (hsizes : ∀ frame ∈ frames, 1 ≤ frame.data.length ∧ frame.data.length ≤ 199999) :
    (∃ groups p' s', p.packageFrames frames = .ok (groups, p') ∧ s.record stale opened groups.flatten = some s'
      ∧ s'.written.map (·.data) = s.written.map (·.data) ++ frames.map (·.data))
      ↔ unbrokenFrames p.seqnum.toUInt16 frames = frames.map (·.data) := by
  obtain ⟨groups, p', s', hpackage, hrecord, hwritten⟩ := @record_frames stale opened s hready p hon frames hsizes
  constructor
  · rintro ⟨groups₁, p₁, s₁, hpackage₁, hrecord₁, hwritten₁⟩
    rw [hpackage₁] at hpackage
    cases hpackage
    rw [hrecord₁] at hrecord
    cases hrecord
    rw [hwritten₁] at hwritten
    exact (List.append_cancel_left hwritten).symm
  · intro hall
    rw [hall] at hwritten
    exact ⟨groups, p', s', hpackage, hrecord, hwritten⟩

/-- **Packaged frames are recorded** if and only if no frame is broken by the end of the numbers. -/
theorem recorded_iff (hready : s.Ready) (p : OutputProcessor) (hon : p.videoPackager = true)
    (frames : List VideoFrame) (hsizes : ∀ frame ∈ frames, 1 ≤ frame.data.length ∧ frame.data.length ≤ 199999) :
    (∃ groups p' s', p.packageFrames frames = .ok (groups, p') ∧ s.record stale opened groups.flatten = some s'
      ∧ s'.written.map (·.data) = s.written.map (·.data) ++ frames.map (·.data))
      ↔ Unbroken p.seqnum.toUInt16 frames :=
  (recorded_iff_unbrokenFrames hready hon hsizes).trans (unbrokenFrames_eq_iff _ _)

end Record

/-- A new recorder with a stream. -/
def opened : ExternalOutput := { create 0 0 with videoStream := some 1000 }

theorem opened_ready : opened.Ready := ⟨rfl, rfl, rfl⟩

theorem recorded_twoFrames : ∃ groups p' s', (OutputProcessor.mk true 65535).packageFrames twoFrames = .ok (groups, p')
    ∧ opened.record (fun _ => 0) none groups.flatten = some s'
    ∧ s'.written.map (·.data) = [] ++ twoFrames.map (·.data) :=
  (recorded_iff opened_ready ⟨true, 65535⟩ rfl twoFrames (by simp [twoFrames])).mpr ⟨by decide, by decide, trivial⟩

/-- A frame of two packets. -/
def longFrame : VideoFrame := ⟨List.replicate 1100 0, 0, 0⟩

theorem broken_frame_lost :
    ¬ ∃ groups p' s', (OutputProcessor.mk true 65535).packageFrames [longFrame] = .ok (groups, p')
      ∧ opened.record (fun _ => 0) none groups.flatten = some s'
      ∧ s'.written.map (·.data) = [] ++ [longFrame].map (·.data) := by
  have hlength : longFrame.data.length = 1100 := List.length_replicate
  have hsizes : ∀ frame ∈ [longFrame], 1 ≤ frame.data.length ∧ frame.data.length ≤ 199999 := by
    rw [List.forall_mem_singleton, hlength]
    decide
  have hbroken : unbrokenFrames 65535 [longFrame] = [] := by
    rw [unbrokenFrames, hlength]
    rfl
  intro h
  have hall := (recorded_iff_unbrokenFrames opened_ready (p := ⟨true, 65535⟩) rfl hsizes).mp h
  exact List.cons_ne_nil _ _ (hall.symm.trans hbroken)

end ExternalOutput

end Licode.Media
