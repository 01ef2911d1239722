import Licode.Rounds
import Licode.Server.Reassembly
import Licode.Lib.Run

/-!
# Packets and the cuts of the stream

What `AddReceivedData` finds in the ring depends on the bytes only (`nextFrame`), and a frame that
has been found is found again when more bytes follow it. The loop takes all frames there are, unless
it leaves at a packet whose type cannot be read or is not known: then the frames behind that packet
stay in the ring until the next call. Where no complete frame stands behind such a packet, the calls
of `HandlePacket` and the bytes that stay in the ring are those of the stream, whatever its pieces.
-/

namespace Licode

open ByteBuffer

namespace Server

namespace ServerLink

/-- What the loop does with a packet: whether it goes on, its trace, and the protocol afterwards. -/
def takePacket (env : Env) (p : ProtocolImpl) (packet : List UInt8) :
    Checked (Bool × List ReceiveEvent × ProtocolImpl) := do
  let bb ← fill (ByteBuffer.create (packet.length + 1)) packet
  let (packetType, bb) ← bb.readVarInt
  match packetType with
  | none => return (false, [], p)
  | some packetType =>
      let (_, bb) ← bb.write [0]
      let (handled, bbAfter, p) ← p.handlePacket env bb packetType
      if ¬ handled then
        return (false, [.handlePacket packetType bb], p)
      else if (← bbAfter.getReadableSpace) ≠ 1 then
        return (true, [.handlePacket packetType bb, .packetError packetType],
          ← p.packetError env packetType)
      else
        return (true, [.handlePacket packetType bb], p)

/-- The packet at which the loop leaves: its type cannot be read, or is not known in this state. -/
def Dropped (env : Env) (p : ProtocolImpl) (packet : List UInt8) : Prop :=
  match decodeVarInt 64 packet 0 0 with
  | .ok (some v, _) => ProtocolImpl.handlerOf env p.state (UInt64.ofNat v).toUInt32 = none
  | _ => True

/-- The loop on the bytes of the ring. -/
inductive Drains (env : Env) :
    ProtocolImpl → List UInt8 → List ReceiveEvent → ProtocolImpl → List UInt8 → Prop
  | wait {p : ProtocolImpl} {bytes : List UInt8} (hframe : nextFrame bytes = .ok none) :
      Drains env p bytes [] p bytes
  | leave {p p' : ProtocolImpl} {bytes packet rest : List UInt8} {events : List ReceiveEvent}
      (hframe : nextFrame bytes = .ok (some (packet, rest)))
      (htake : takePacket env p packet = .ok (false, events, p')) :
      Drains env p bytes events p' rest
  | turn {p p₁ p' : ProtocolImpl} {bytes packet rest left : List UInt8}
      {events more : List ReceiveEvent} (hframe : nextFrame bytes = .ok (some (packet, rest)))
      (htake : takePacket env p packet = .ok (true, events, p₁))
      (hrest : Drains env p₁ rest more p' left) : Drains env p bytes (events ++ more) p' left

/-- No complete frame stands behind the packet at which the loop leaves. -/
inductive Unstalled (env : Env) : ProtocolImpl → List UInt8 → Prop
  | wait {p : ProtocolImpl} {bytes : List UInt8} (hframe : nextFrame bytes = .ok none) :
      Unstalled env p bytes
  | leave {p : ProtocolImpl} {bytes packet rest : List UInt8}
      (hframe : nextFrame bytes = .ok (some (packet, rest))) (hdropped : Dropped env p packet)
      (hlast : nextFrame rest = .ok none) : Unstalled env p bytes
  | turn {p p₁ : ProtocolImpl} {bytes packet rest : List UInt8} {events : List ReceiveEvent}
      (hframe : nextFrame bytes = .ok (some (packet, rest)))
      (htake : takePacket env p packet = .ok (true, events, p₁))
      (hrest : Unstalled env p₁ rest) : Unstalled env p bytes

/-- All frames of a stream, one after the other, whatever becomes of them. -/
inductive Consumes (env : Env) :
    ProtocolImpl → List UInt8 → List ReceiveEvent → ProtocolImpl → List UInt8 → Prop
  | wait {p : ProtocolImpl} {bytes : List UInt8} (hframe : nextFrame bytes = .ok none) :
      Consumes env p bytes [] p bytes
  | turn {p p₁ p' : ProtocolImpl} {bytes packet rest left : List UInt8} {goOn : Bool}
      {events more : List ReceiveEvent} (hframe : nextFrame bytes = .ok (some (packet, rest)))
      (htake : takePacket env p packet = .ok (goOn, events, p₁))
      (hrest : Consumes env p₁ rest more p' left) : Consumes env p bytes (events ++ more) p' left

/-! ### The loop is the relation -/

/-- A round of the server's loop behind `CommitRead`. -/
theorem handleBuffered_eq {env : Env} {fuel : Nat} {ring bb : ByteBuffer} {p : ProtocolImpl}
    {packet : List UInt8} (hfill : fill (ByteBuffer.create (packet.length + 1)) packet = .ok bb) :
    (receiver env).handleBuffered fuel ⟨ring, p⟩ bb = (do
      let (goOn, events, p) ← takePacket env p packet
      if goOn then
        let (more, l) ← (receiver env).handleAllPackets fuel ⟨ring, p⟩
        return (events ++ more, l)
      else
        return (events, ⟨ring, p⟩)) := by
  rw [takePacket, hfill, Checked.ok_bind, Receiver.handleBuffered]
  cases bb.readVarInt with
  | error e => rfl
  | ok read =>
      obtain ⟨packetType, bb₁⟩ := read
      cases packetType with
      | none => rfl
      | some packetType =>
          simp only [Checked.ok_bind]
          cases bb₁.write [0] with
          | error e => rfl
          | ok written =>
              simp only [Checked.ok_bind, receiver]
              cases p.handlePacket env written.2 packetType with
              | error e => rfl
              | ok result =>
                  obtain ⟨handled, bbAfter, p₁⟩ := result
                  cases handled with
                  | false => rfl
                  | true =>
                      simp only [Checked.ok_bind, Checked.pure_eq_ok, not_true_eq_false, if_false,
                        Receiver.checkPacketRead]
                      cases bbAfter.getReadableSpace with
                      | error e => rfl
                      | ok space =>
                          simp only [Checked.ok_bind]
                          split
                          · cases p₁.packetError env packetType with
                            | error e => rfl
                            | ok p₂ => rfl
                          · rfl

theorem takePacket_notFull {env : Env} {p p' : ProtocolImpl} {packet : List UInt8} {goOn : Bool}
    {events : List ReceiveEvent} (htake : takePacket env p packet = .ok (goOn, events, p')) :
    .packetBufferFull ∉ events := by
  obtain ⟨bb, -, htake⟩ := exists_of_bind_ok htake
  obtain ⟨⟨packetType, bb₁⟩, -, htake⟩ := exists_of_bind_ok htake
  cases packetType with
  | none =>
      cases htake
      exact List.not_mem_nil
  | some packetType =>
      obtain ⟨written, -, htake⟩ := exists_of_bind_ok htake
      obtain ⟨⟨handled, bbAfter, p₁⟩, -, htake⟩ := exists_of_bind_ok htake
      dsimp only at htake
      split at htake
      · cases htake
        simp
      · obtain ⟨space, -, htake⟩ := exists_of_bind_ok htake
        split at htake
        · obtain ⟨p₂, -, htake⟩ := exists_of_bind_ok htake
          cases htake
          simp
        · cases htake
          simp

/-- A loop that returns, on whatever bytes. -/
theorem drains_of_handleAllPackets {env : Env} {fuel n : Nat} {l l' : ServerLink}
    {bytes : List UInt8} {events : List ReceiveEvent} (hn : n + 1 < 2 ^ 32)
    (hring : Holds l.receivedData n bytes bytes)
    (hcall : (receiver env).handleAllPackets fuel l = .ok (events, l')) :
    ∃ left, Drains env l.protocol bytes events l'.protocol left
      ∧ Holds l'.receivedData n left left := by
  induction fuel generalizing l bytes events with
  | zero => cases hcall
  | succ fuel ih =>
      obtain ⟨found, hframe⟩ := (receiver env).nextFrame_of_handleAllPackets hring hcall
      cases found with
      | none =>
          obtain ⟨ring, hring', hwait⟩ := (receiver env).handleAllPackets_wait hring hframe
          rw [hwait] at hcall
          cases hcall
          exact ⟨bytes, .wait hframe, hring'⟩
      | some found =>
          obtain ⟨packet, rest⟩ := found
          obtain ⟨ring, bb, hring', hfill, hturn⟩ :=
            (receiver env).handleAllPackets_turn hn hring hframe
          rw [hturn] at hcall
          change (receiver env).handleBuffered fuel ⟨ring, l.protocol⟩ bb = _ at hcall
          rw [handleBuffered_eq hfill] at hcall
          obtain ⟨⟨goOn, first, p₁⟩, htake, hcall⟩ := exists_of_bind_ok hcall
          cases goOn with
          | false =>
              cases hcall
              exact ⟨rest, .leave hframe htake, hring'⟩
          | true =>
              obtain ⟨⟨more, l₁⟩, hmore, hcall⟩ := exists_of_bind_ok hcall
              cases hcall
              obtain ⟨left, hdrains, hend⟩ := ih (l := ⟨ring, p₁⟩) hring' hmore
              exact ⟨left, .turn hframe htake hdrains, hend⟩

/-- The loop returns where the relation has an end: each frame takes at least one byte. -/
theorem handleAllPackets_of_drains {env : Env} {p p' : ProtocolImpl} {bytes left : List UInt8}
    {events : List ReceiveEvent} (hdrains : Drains env p bytes events p' left) {n fuel : Nat}
    {ring : ByteBuffer} (hn : n + 1 < 2 ^ 32) (hring : Holds ring n bytes bytes)
    (hfuel : bytes.length < fuel) :
    ∃ ring', (receiver env).handleAllPackets fuel ⟨ring, p⟩ = .ok (events, ⟨ring', p'⟩)
      ∧ Holds ring' n left left ∧ .packetBufferFull ∉ events := by
  obtain ⟨fuel, rfl⟩ := Nat.exists_eq_add_of_lt (Nat.zero_lt_of_lt hfuel)
  rw [Nat.zero_add] at hfuel ⊢
  induction hdrains generalizing ring fuel with
  | wait hframe =>
      obtain ⟨ring', hring', hwait⟩ :=
        (receiver env).handleAllPackets_wait (s := ⟨ring, _⟩) hring hframe
      exact ⟨ring', hwait, hring', List.not_mem_nil⟩
  | leave hframe htake =>
      obtain ⟨ring', bb, hring', hfill, hturn⟩ :=
        (receiver env).handleAllPackets_turn (s := ⟨ring, _⟩) hn hring hframe
      refine ⟨ring', ?_, hring', takePacket_notFull htake⟩
      rw [hturn]
      change (receiver env).handleBuffered fuel ⟨ring', _⟩ bb = _
      rw [handleBuffered_eq hfill, htake]
      rfl
  | turn hframe htake hrest ih =>
      have hshorter := nextFrame_length hframe
      obtain ⟨fuel, rfl⟩ : ∃ less, fuel = less + 1 := ⟨fuel - 1, by omega⟩
      obtain ⟨ring', bb, hring', hfill, hturn⟩ :=
        (receiver env).handleAllPackets_turn (s := ⟨ring, _⟩) hn hring hframe
      obtain ⟨ring'', hmore, hend, hfull⟩ := ih hring' fuel (by omega)
      refine ⟨ring'', ?_, hend, ?_⟩
      · rw [hturn]
        change (receiver env).handleBuffered (fuel + 1) ⟨ring', _⟩ bb = _
        rw [handleBuffered_eq hfill, htake, Checked.ok_bind]
        simp only [if_true, hmore, Checked.ok_bind, Checked.pure_eq_ok]
      · rw [List.mem_append, not_or]
        exact ⟨takePacket_notFull htake, hfull⟩

/-! ### The packet at which the loop leaves -/

theorem fill_total (packet : List UInt8) :
    ∃ bb, fill (ByteBuffer.create (packet.length + 1)) packet = .ok bb
      ∧ Holds bb (packet.length + 1) packet packet := by
  have hstep : ∀ dst chunk rest, chunk ≠ [] → chunk.length ≤ 1024 →
      (∃ done, packet = done ++ (chunk ++ rest) ∧ Holds dst (packet.length + 1) done done) →
      ∃ dst', (do
          let (written, dst) ← dst.write chunk
          verify written
          return dst) = .ok dst'
        ∧ ∃ done, packet = done ++ rest ∧ Holds dst' (packet.length + 1) done done := by
    rintro dst chunk rest - - ⟨done, hpacket, hdst⟩
    have hroom : done.length + chunk.length ≤ packet.length + 1 := by
      rw [hpacket, List.length_append, List.length_append]
      omega
    obtain ⟨dst', hwrite, hdst'⟩ := hdst.write hroom
    refine ⟨dst', ?_, done ++ chunk, by rw [hpacket, List.append_assoc], hdst'⟩
    rw [hwrite]
    rfl
  obtain ⟨bb, hbb, done, hpacket, hholds⟩ := forChunks_induct (Nat.zero_lt_succ 1023)
    (fun dst rest => ∃ done, packet = done ++ rest ∧ Holds dst (packet.length + 1) done done) hstep
    le_rfl ⟨[], rfl, holds_create (packet.length + 1) fun _ => 0⟩
  rw [List.append_nil] at hpacket
  subst hpacket
  exact ⟨bb, hbb, hholds⟩

theorem fill_holds {packet : List UInt8} {bb : ByteBuffer}
    (hfill : fill (ByteBuffer.create (packet.length + 1)) packet = .ok bb) :
    Holds bb (packet.length + 1) packet packet := by
  obtain ⟨bb', hbb', hholds⟩ := fill_total packet
  cases hfill.symm.trans hbb'
  exact hholds

theorem handled_eq_false_iff {env : Env} {p p' : ProtocolImpl} {bb bb' : ByteBuffer}
    {packetType : UInt32} {handled : Bool}
    (h : p.handlePacket env bb packetType = .ok (handled, bb', p')) :
    handled = false ↔ ProtocolImpl.handlerOf env p.state packetType = none := by
  unfold ProtocolImpl.handlePacket at h
  cases hhandler : ProtocolImpl.handlerOf env p.state packetType with
  | some handler =>
      rw [hhandler] at h
      obtain ⟨_, -, h⟩ := exists_of_bind_ok h
      cases h
      exact ⟨nofun, nofun⟩
  | none =>
      rw [hhandler] at h
      refine ⟨fun _ => rfl, fun _ => ?_⟩
      dsimp only at h
      split_ifs at h
      · obtain ⟨_, -, h⟩ := exists_of_bind_ok h
        cases h
        rfl
      · cases h
        rfl
      · cases h
        rfl

/-- The loop leaves at the dropped packets and at no other. -/
theorem goOn_eq_false_iff {env : Env} {p p' : ProtocolImpl} {packet : List UInt8} {goOn : Bool}
    {events : List ReceiveEvent} (htake : takePacket env p packet = .ok (goOn, events, p')) :
    goOn = false ↔ Dropped env p packet := by
  obtain ⟨bb, hfill, htake⟩ := exists_of_bind_ok htake
  obtain ⟨⟨packetType, bb₁⟩, htype, htake⟩ := exists_of_bind_ok htake
  obtain ⟨w, rest, hdecode, rfl, -⟩ := decodeVarInt_of_readVarInt (fill_holds hfill) htype
  rw [Dropped, hdecode]
  cases w with
  | none =>
      cases htake
      exact ⟨fun _ => trivial, fun _ => rfl⟩
  | some w =>
      obtain ⟨⟨written, bb₂⟩, -, htake⟩ := exists_of_bind_ok htake
      obtain ⟨⟨handled, bbAfter, p₁⟩, hhandle, htake⟩ := exists_of_bind_ok htake
      have hhandled : handled = false
          ↔ ProtocolImpl.handlerOf env p.state (UInt64.ofNat w).toUInt32 = none :=
        handled_eq_false_iff hhandle
      dsimp only
      rw [← hhandled]
      dsimp only at htake
      split at htake
      · next hnot =>
        cases htake
        exact ⟨fun _ => Bool.eq_false_of_not_eq_true hnot, fun _ => rfl⟩
      · next hhandled =>
        obtain rfl : handled = true := not_not.mp hhandled
        obtain ⟨space, -, htake⟩ := exists_of_bind_ok htake
        split at htake
        · obtain ⟨p₂, -, htake⟩ := exists_of_bind_ok htake
          cases htake
          rfl
        · cases htake
          rfl

/-- The loop has taken all complete frames of exactly the unstalled streams. -/
theorem Drains.nextFrame_iff {env : Env} {p p' : ProtocolImpl} {bytes left : List UInt8}
    {events : List ReceiveEvent} (hdrains : Drains env p bytes events p' left) :
    nextFrame left = .ok none ↔ Unstalled env p bytes := by
  induction hdrains with
  | wait hframe => exact ⟨fun _ => .wait hframe, fun _ => hframe⟩
  | leave hframe htake =>
      refine ⟨fun hlast => .leave hframe ((goOn_eq_false_iff htake).mp rfl) hlast, fun h => ?_⟩
      cases h with
      | wait hnone => rw [hframe] at hnone; cases hnone
      | leave hframe' _ hlast =>
          rw [hframe] at hframe'
          cases hframe'
          exact hlast
      | turn hframe' htake' _ =>
          rw [hframe] at hframe'
          cases hframe'
          rw [htake] at htake'
          cases htake'
  | turn hframe htake _ ih =>
      rw [ih]
      refine ⟨fun h => .turn hframe htake h, fun h => ?_⟩
      cases h with
      | wait hnone => rw [hframe] at hnone; cases hnone
      | leave hframe' hdropped _ =>
          rw [hframe] at hframe'
          cases hframe'
          cases (goOn_eq_false_iff htake).mpr hdropped
      | turn hframe' htake' hrest =>
          rw [hframe] at hframe'
          cases hframe'
          rw [htake] at htake'
          cases htake'
          exact hrest

theorem Drains.consumes {env : Env} {p p' : ProtocolImpl} {bytes left : List UInt8}
    {events : List ReceiveEvent} (hdrains : Drains env p bytes events p' left)
    (hlast : nextFrame left = .ok none) : Consumes env p bytes events p' left := by
  induction hdrains with
  | wait hframe => exact .wait hframe
  | @leave p p' bytes packet rest events hframe htake =>
      rw [← List.append_nil events]
      exact .turn hframe htake (.wait hlast)
  | turn hframe htake _ ih => exact .turn hframe htake (ih hlast)

/-! ### Streams in pieces -/

/-- What has been consumed stays consumed when more bytes arrive. -/
theorem Consumes.append {env : Env} {p p' p'' : ProtocolImpl} {bytes left more left' : List UInt8}
    {first second : List ReceiveEvent} (hfirst : Consumes env p bytes first p' left)
    (hsecond : Consumes env p' (left ++ more) second p'' left') :
    Consumes env p (bytes ++ more) (first ++ second) p'' left' := by
  induction hfirst with
  | wait _ => exact hsecond
  | turn hframe htake _ ih =>
      rw [List.append_assoc]
      exact .turn (nextFrame_append hframe more) htake (ih hsecond)

theorem Consumes.unique {env : Env} {p p₁ p₂ : ProtocolImpl} {bytes left₁ left₂ : List UInt8}
    {events₁ events₂ : List ReceiveEvent} (h₁ : Consumes env p bytes events₁ p₁ left₁)
    (h₂ : Consumes env p bytes events₂ p₂ left₂) : events₁ = events₂ ∧ left₁ = left₂ := by
  induction h₁ generalizing events₂ with
  | wait hframe =>
      cases h₂ with
      | wait _ => exact ⟨rfl, rfl⟩
      | turn hframe' _ _ => rw [hframe] at hframe'; cases hframe'
  | turn hframe htake _ ih =>
      cases h₂ with
      | wait hframe' => rw [hframe] at hframe'; cases hframe'
      | turn hframe' htake' hrest =>
          rw [hframe] at hframe'
          cases hframe'
          rw [htake] at htake'
          cases htake'
          obtain ⟨rfl, rfl⟩ := ih hrest
          exact ⟨rfl, rfl⟩

/-- The bytes that the ring keeps for the next call. -/
def unread (ring : ByteBuffer) : List UInt8 :=
  match ring.readAll [] with
  | .ok (bytes, _) => bytes
  | .error _ => []

/-- A call of `AddReceivedData` that returns and for which the ring had room, with the trace. -/
def AddStep (env : Env) (t : List ReceiveEvent × ServerLink) (data : List UInt8)
    (t' : List ReceiveEvent × ServerLink) : Prop :=
  ∃ events, (receiver env).addReceivedData t.2 data = .ok (events, t'.2)
    ∧ .packetBufferFull ∉ events ∧ t'.1 = t.1 ++ events

/-- The condition on a call: no complete frame stands behind the packet at which the loop leaves. -/
def TakesAll (env : Env) (t : List ReceiveEvent × ServerLink) (data : List UInt8) : Prop :=
  Unstalled env t.2.protocol (unread t.2.receivedData ++ data)

section Pieces

variable {env : Env} {n : Nat} {t t' : List ReceiveEvent × ServerLink} {bytes data : List UInt8}

theorem unread_of_holds {ring : ByteBuffer} {items : List UInt8} (h : Holds ring n items bytes) :
    unread ring = bytes := by
  obtain ⟨ring', hread, -⟩ := h.readAll []
  rw [unread, hread]

theorem drains_of_addStep (hn : n + 1 < 2 ^ 32) (hring : Holds t.2.receivedData n bytes bytes)
    (hstep : AddStep env t data t') :
    ∃ events left, t'.1 = t.1 ++ events
      ∧ Drains env t.2.protocol (bytes ++ data) events t'.2.protocol left
      ∧ Holds t'.2.receivedData n left left := by
  obtain ⟨events, hcall, hfull, htrace⟩ := hstep
  rw [Receiver.addReceivedData] at hcall
  change (t.2.receivedData.write data >>= _) = _ at hcall
  by_cases hfits : bytes.length + data.length ≤ n
  · obtain ⟨ring, hwrite, hring'⟩ := hring.write hfits
    rw [hwrite, Checked.ok_bind] at hcall
    simp only [not_true_eq_false, if_false, hring'.getUsedSpace, Checked.ok_bind] at hcall
    obtain ⟨left, hdrains, hend⟩ :=
      drains_of_handleAllPackets (l := ⟨ring, t.2.protocol⟩) hn hring' hcall
    exact ⟨events, left, htrace, hdrains, hend⟩
  · rw [hring.write_of_full (by omega), Checked.ok_bind] at hcall
    obtain ⟨l', -, hcall⟩ := exists_of_bind_ok hcall
    cases hcall
    exact absurd (List.mem_singleton_self _) hfull

theorem addStep_of_drains {p' : ProtocolImpl} {left : List UInt8} {events : List ReceiveEvent}
    (data : List UInt8) (hn : n + 1 < 2 ^ 32) (hring : Holds t.2.receivedData n bytes bytes)
    (hfits : bytes.length + data.length ≤ n)
    (hdrains : Drains env t.2.protocol (bytes ++ data) events p' left) :
    ∃ ring, AddStep env t data (t.1 ++ events, ⟨ring, p'⟩) ∧ Holds ring n left left := by
  obtain ⟨ring, hwrite, hring'⟩ := hring.write hfits
  obtain ⟨ring', hcall, hend, hfull⟩ :=
    handleAllPackets_of_drains hdrains hn hring' (Nat.lt_succ_self _)
  refine ⟨ring', ⟨events, ?_, hfull, rfl⟩, hend⟩
  rw [Receiver.addReceivedData]
  change (t.2.receivedData.write data >>= _) = _
  rw [hwrite, Checked.ok_bind]
  simp only [not_true_eq_false, if_false, hring'.getUsedSpace, Checked.ok_bind]
  exact hcall

/-- A call leaves no complete frame exactly where the condition is met. -/
theorem nextFrame_unread_iff (hn : n + 1 < 2 ^ 32) (hring : Holds t.2.receivedData n bytes bytes)
    (hstep : AddStep env t data t') :
    nextFrame (unread t'.2.receivedData) = .ok none ↔ TakesAll env t data := by
  obtain ⟨events, left, -, hdrains, hend⟩ := drains_of_addStep hn hring hstep
  rw [unread_of_holds hend, TakesAll, unread_of_holds hring]
  exact hdrains.nextFrame_iff

/-- What a run of such calls has done, in terms of the stream. -/
structure Stood (env : Env) (n : Nat) (p : ProtocolImpl) (stream : List UInt8)
    (t : List ReceiveEvent × ServerLink) (left : List UInt8) : Prop where
  consumed : Consumes env p stream t.1 t.2.protocol left
  ring : Holds t.2.receivedData n left left
  waits : nextFrame left = .ok none

theorem stood_of_run {l : ServerLink} {waiting : List UInt8} {pieces : List (List UInt8)}
    (hn : n + 1 < 2 ^ 32) (hring : Holds l.receivedData n waiting waiting)
    (hwaits : nextFrame waiting = .ok none)
    (hrun : Run (Guarded (TakesAll env) (AddStep env)) ([], l) pieces t) :
    ∃ left, Stood env n l.protocol (waiting ++ pieces.flatten) t left := by
  induction hrun with
  | nil =>
      refine ⟨waiting, ?_, hring, hwaits⟩
      rw [List.flatten_nil, List.append_nil]
      exact .wait hwaits
  | snoc _ hstep ih =>
      obtain ⟨hguard, hstep⟩ := hstep
      obtain ⟨left, hstood⟩ := ih
      obtain ⟨events, left', htrace, hdrains, hend⟩ := drains_of_addStep hn hstood.ring hstep
      have hwaits' : nextFrame left' = .ok none := by
        rw [hdrains.nextFrame_iff, ← unread_of_holds hstood.ring]
        exact hguard
      refine ⟨left', ?_, hend, hwaits'⟩
      rw [htrace, List.flatten_append, List.flatten_singleton, ← List.append_assoc]
      exact hstood.consumed.append (hdrains.consumes hwaits')

end Pieces

/-- **Segmentation.** Two ways of cutting a stream for which every call takes all frames there are
make the same calls of `HandlePacket` and leave the same bytes in the ring, with no complete frame
among these; and a further call leaves none exactly where it meets the condition too. -/
theorem segmentation_independent (env : Env) (l : ServerLink) {waiting : List UInt8}
    {pieces₁ pieces₂ : List (List UInt8)} {t₁ t₂ : List ReceiveEvent × ServerLink}
    (hring : Holds l.receivedData (64 * 1024) waiting waiting)
    (hwaits : nextFrame waiting = .ok none)
    (hrun₁ : Run (Guarded (TakesAll env) (AddStep env)) ([], l) pieces₁ t₁)
    (hrun₂ : Run (Guarded (TakesAll env) (AddStep env)) ([], l) pieces₂ t₂)
    (hstream : pieces₁.flatten = pieces₂.flatten) :
    calls t₁.1 = calls t₂.1
      ∧ unread t₁.2.receivedData = unread t₂.2.receivedData
      ∧ nextFrame (unread t₁.2.receivedData) = .ok none
      ∧ ∀ data t', AddStep env t₁ data t' →
        (nextFrame (unread t'.2.receivedData) = .ok none ↔ TakesAll env t₁ data) := by
  have hn : 64 * 1024 + 1 < 2 ^ 32 := by decide
  obtain ⟨left₁, hstood₁⟩ := stood_of_run hn hring hwaits hrun₁
  obtain ⟨left₂, hstood₂⟩ := stood_of_run hn hring hwaits hrun₂
  rw [← hstream] at hstood₂
  obtain ⟨htrace, hleft⟩ := hstood₁.consumed.unique hstood₂.consumed
  refine ⟨by rw [htrace], ?_, ?_, fun data t' hstep => nextFrame_unread_iff hn hstood₁.ring hstep⟩
  · rw [unread_of_holds hstood₁.ring, unread_of_holds hstood₂.ring, hleft]
  · rw [unread_of_holds hstood₁.ring]
    exact hstood₁.waits

/-- A guarded call, told by what the loop does with the bytes. -/
theorem guarded_of_drains {env : Env} {n : Nat} {t : List ReceiveEvent × ServerLink}
    {bytes left : List UInt8} {p' : ProtocolImpl} {events : List ReceiveEvent} (data : List UInt8)
    (hn : n + 1 < 2 ^ 32) (hring : Holds t.2.receivedData n bytes bytes)
    (hfits : bytes.length + data.length ≤ n)
    (hdrains : Drains env t.2.protocol (bytes ++ data) events p' left)
    (hwaits : nextFrame left = .ok none) :
    ∃ ring, Guarded (TakesAll env) (AddStep env) t data (t.1 ++ events, ⟨ring, p'⟩)
      ∧ Holds ring n left left := by
  obtain ⟨ring, hstep, hend⟩ := addStep_of_drains data hn hring hfits hdrains
  refine ⟨ring, ⟨?_, hstep⟩, hend⟩
  rw [← nextFrame_unread_iff hn hring hstep, unread_of_holds hend]
  exact hwaits

/-- Two keep-alives, in one piece and cut within the first. -/
theorem segmentation_independent_keepAlives :
    ∃ t₁ t₂,
      Run (Guarded (TakesAll closedEnv) (AddStep closedEnv)) ([], workingLink)
          [[2, 0, 7, 2, 0, 8]] t₁
        ∧ Run (Guarded (TakesAll closedEnv) (AddStep closedEnv)) ([], workingLink)
          [[2, 0], [7, 2, 0, 8]] t₂
        ∧ calls t₁.1 = calls t₂.1
        ∧ unread t₁.2.receivedData = unread t₂.2.receivedData := by
  have hn : 64 * 1024 + 1 < 2 ^ 32 := by decide
  have hring : Holds workingLink.receivedData (64 * 1024) [] [] := holds_create _ _
  have hseven : takePacket closedEnv workingLink.protocol [0, 7]
      = .ok (true, [.handlePacket 0 ⟨[0, 7, 0, 0], 4, 0, 3, 1⟩], workingLink.protocol) := rfl
  have height : takePacket closedEnv workingLink.protocol [0, 8]
      = .ok (true, [.handlePacket 0 ⟨[0, 8, 0, 0], 4, 0, 3, 1⟩], workingLink.protocol) := rfl
  have hboth : Drains closedEnv workingLink.protocol [2, 0, 7, 2, 0, 8] _ _ [] :=
    .turn rfl hseven (.turn rfl height (.wait rfl))
  obtain ⟨ring₁, hone, -⟩ := guarded_of_drains (t := ([], workingLink)) [2, 0, 7, 2, 0, 8]
    hn hring (by decide) hboth rfl
  obtain ⟨ring₂, hcut, hring₂⟩ := guarded_of_drains (t := ([], workingLink)) [2, 0]
    hn hring (by decide) (.wait rfl) rfl
  obtain ⟨ring₃, hrest, -⟩ := guarded_of_drains
    (t := ([], ⟨ring₂, workingLink.protocol⟩)) [7, 2, 0, 8] hn hring₂ (by decide) hboth rfl
  have hrun₁ := Run.nil.snoc hone
  have hrun₂ := (Run.nil.snoc hcut).snoc hrest
  obtain ⟨hcalls, hunread, -⟩ :=
    segmentation_independent closedEnv workingLink hring rfl hrun₁ hrun₂ rfl
  exact ⟨_, _, hrun₁, hrun₂, hcalls, hunread⟩

/-- A link on which nothing has happened yet. -/
def newLink : ServerLink := create (ClientHandle.create (ascii "10.0.0.7") 1) 0x7f0010

/-- A frame without a type hides the frame behind it when both arrive together: the packet of the
unknown type 5 is not handled. -/
theorem frame_left_behind :
    ∃ t₁ t₂, Run (AddStep closedEnv) ([], newLink) [[0, 1, 5]] t₁
      ∧ Run (AddStep closedEnv) ([], newLink) [[0], [1, 5]] t₂
      ∧ calls t₁.1 = [] ∧ calls t₂.1 = [(5, ⟨[5, 0, 0], 3, 0, 2, 1⟩)]
      ∧ unread t₁.2.receivedData = [1, 5] ∧ unread t₂.2.receivedData = []
      ∧ nextFrame (unread t₁.2.receivedData) = .ok (some ([5], [])) := by
  have hn : 64 * 1024 + 1 < 2 ^ 32 := by decide
  have hring : Holds newLink.receivedData (64 * 1024) [] [] := holds_create _ _
  have hnone : takePacket closedEnv newLink.protocol [] = .ok (false, [], newLink.protocol) := rfl
  have hfive : takePacket closedEnv newLink.protocol [5]
      = .ok (false, [.handlePacket 5 ⟨[5, 0, 0], 3, 0, 2, 1⟩],
        { newLink.protocol.report (.packetUnknown 5) with
          client := { newLink.protocol.client with hasSentDC := true } }) := rfl
  obtain ⟨ring₁, hone, hring₁⟩ := addStep_of_drains (t := ([], newLink)) [0, 1, 5]
    hn hring (by decide) (.leave rfl hnone)
  obtain ⟨ring₂, hfirst, hring₂⟩ := addStep_of_drains (t := ([], newLink)) [0]
    hn hring (by decide) (.leave rfl hnone)
  obtain ⟨ring₃, hsecond, hring₃⟩ := addStep_of_drains
    (t := ([], ⟨ring₂, newLink.protocol⟩)) [1, 5] hn hring₂ (by decide) (.leave rfl hfive)
  refine ⟨_, _, Run.nil.snoc hone, (Run.nil.snoc hfirst).snoc hsecond, rfl, rfl,
    unread_of_holds hring₁, unread_of_holds hring₃, ?_⟩
  rw [unread_of_holds hring₁]
  rfl

end ServerLink

end Server

end Licode
