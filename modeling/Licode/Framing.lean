import Licode.Packetizer
import Licode.AesCfb128

/-!
# Reassembling packets from the link

`cProtocol_impl` and `ConnectionClient` have the same `DataReceived` and `AddReceivedData`, each as
a method of its own class. A `Receiver` is what the two functions ask of their object, and they are
defined here once over it. Besides the new state they return the trace of what they did.

A whole run is followed through an invariant on the object and the packets still to come
(`Receiver.Serves`): the loop moves complete frames out of the ring one by one and stops with a
proper prefix of the next frame, which is what leaves room for the next piece of the stream.
-/

namespace Licode

open ByteBuffer

/-- How a byte is encoded on the link: as it is, or under the keystream at an offset. -/
inductive Mode where
  | plain
  | encrypted (offset : Nat)
  deriving DecidableEq

/-- The mode of the byte that comes `count` bytes later. -/
def Mode.after : Mode → Nat → Mode
  | .plain, _ => .plain
  | .encrypted offset, count => .encrypted (offset + count)

/-- Consecutive bytes, each with its mode. -/
def Mode.tag : Mode → List UInt8 → List (Mode × UInt8)
  | _, [] => []
  | mode, byte :: rest => (mode, byte) :: (mode.after 1).tag rest

theorem Mode.after_after (mode : Mode) (i j : Nat) : (mode.after i).after j = mode.after (i + j) := by
  cases mode with
  | plain => rfl
  | encrypted offset => simp only [Mode.after, Nat.add_assoc]

theorem Mode.tag_append (mode : Mode) (left right : List UInt8) :
    mode.tag (left ++ right) = mode.tag left ++ (mode.after left.length).tag right := by
  induction left generalizing mode with
  | nil => cases mode <;> rfl
  | cons byte rest ih =>
      rw [List.cons_append, Mode.tag, ih, Mode.tag, List.cons_append, Mode.after_after,
        List.length_cons, Nat.add_comm 1]

/-- What `DataReceived` does, in order. -/
inductive ReceiveEvent where
  | decoded (mode : Mode) (bytes : List UInt8)
  | packetBufferFull
  | handlePacket (packetType : UInt32) (bb : ByteBuffer)
  | packetError (packetType : UInt32)

/-- The `HandlePacket` calls of a trace. -/
def calls : List ReceiveEvent → List (UInt32 × ByteBuffer)
  | [] => []
  | .handlePacket packetType bb :: events => (packetType, bb) :: calls events
  | _ :: events => calls events

/-- The bytes a trace decodes. -/
def decodedLog : List ReceiveEvent → List (Mode × UInt8)
  | [] => []
  | .decoded mode bytes :: events => mode.tag bytes ++ decodedLog events
  | _ :: events => decodedLog events

theorem calls_append (left right : List ReceiveEvent) :
    calls (left ++ right) = calls left ++ calls right := by
  induction left with
  | nil => rfl
  | cons event left ih => cases event <;> simp [calls, ih]

theorem decodedLog_append (left right : List ReceiveEvent) :
    decodedLog (left ++ right) = decodedLog left ++ decodedLog right := by
  induction left with
  | nil => rfl
  | cons event left ih => cases event <;> simp [decodedLog, ih]

structure Packet where
  packetType : UInt32
  payload : List UInt8
  deriving DecidableEq

namespace Packet

def bytes (q : Packet) : List UInt8 := packetBytes q.packetType q.payload

def frame (q : Packet) : List UInt8 := Licode.frame q.bytes

/-- The stream of several packets. -/
def stream (packets : List Packet) : List UInt8 := packets.flatMap frame

@[simp]
theorem stream_nil : stream [] = [] := rfl

@[simp]
theorem stream_cons (q : Packet) (packets : List Packet) :
    stream (q :: packets) = q.frame ++ stream packets := rfl

theorem stream_append (left right : List Packet) :
    stream (left ++ right) = stream left ++ stream right := by
  simp [stream]

/-- The buffer that a call of `HandlePacket` for the packet gets. -/
def Buffered (q : Packet) (bb : ByteBuffer) : Prop :=
  Holds bb (q.bytes.length + 1) (q.bytes ++ [0]) (q.payload ++ [0])

end Packet

/-- The calls are those for the packets, each once and in order. -/
def Delivers (events : List ReceiveEvent) (packets : List Packet) : Prop :=
  List.Forall₂ (fun call q => call.1 = q.packetType ∧ q.Buffered call.2) (calls events) packets

theorem Delivers.append {left right : List ReceiveEvent} {packets more : List Packet}
    (hleft : Delivers left packets) (hright : Delivers right more) :
    Delivers (left ++ right) (packets ++ more) := by
  rw [Delivers, calls_append]
  exact List.rel_append hleft hright

/-- The members of a class that `DataReceived` and `AddReceivedData` use. A decryptor behind a null
pointer is `none`. -/
structure Receiver (σ : Type) where
  aesCryptEcb : Block → Block → Block
  receivedData : σ → ByteBuffer
  setReceivedData : ByteBuffer → σ → σ
  isEncrypted : σ → Bool
  decryptor : σ → Option AesCfb128
  setDecryptor : AesCfb128 → σ → σ
  handlePacket : σ → ByteBuffer → UInt32 → Checked (Bool × ByteBuffer × σ)
  packetBufferFull : σ → Checked σ
  packetError : UInt32 → σ → Checked σ
  receivedData_setReceivedData : ∀ ring s, receivedData (setReceivedData ring s) = ring
  receivedData_setDecryptor : ∀ c s, receivedData (setDecryptor c s) = receivedData s
  decryptor_setReceivedData : ∀ ring s, decryptor (setReceivedData ring s) = decryptor s
  decryptor_setDecryptor : ∀ c s, decryptor (setDecryptor c s) = some c

/-- `HANDLE_READ`: a handler goes on with the value, or returns when it cannot be read. -/
def handleRead {α σ : Type} (read : Checked (Option α × ByteBuffer)) (s : σ)
    (next : α → ByteBuffer → Checked (ByteBuffer × σ)) : Checked (ByteBuffer × σ) := do
  match ← read with
  | (none, bb) => return (bb, s)
  | (some v, bb) => next v bb

theorem handleRead_some {α σ : Type} {read : Checked (Option α × ByteBuffer)} {v : α}
    {bb : ByteBuffer} (h : read = .ok (some v, bb)) (s : σ)
    (next : α → ByteBuffer → Checked (ByteBuffer × σ)) : handleRead read s next = next v bb := by
  rw [handleRead, h]
  rfl

theorem handleRead_cases {α σ : Type} {read : Checked (Option α × ByteBuffer)} {s s' : σ}
    {next : α → ByteBuffer → Checked (ByteBuffer × σ)} {bb' : ByteBuffer}
    (h : handleRead read s next = .ok (bb', s')) :
    (read = .ok (none, bb') ∧ s' = s)
      ∨ ∃ v bb₁, read = .ok (some v, bb₁) ∧ next v bb₁ = .ok (bb', s') := by
  obtain ⟨⟨v, bb₁⟩, hread, h⟩ := exists_of_bind_ok h
  cases v with
  | none =>
      simp only [Checked.pure_eq_ok, Except.ok.injEq, Prod.mk.injEq] at h
      obtain ⟨rfl, rfl⟩ := h
      exact .inl ⟨hread, rfl⟩
  | some v => exact .inr ⟨v, bb₁, hread, h⟩

namespace Receiver

variable {σ : Type} (R : Receiver σ)

/-- The end of the loop body: a packet that was not read to its end is an error. -/
def checkPacketRead (packetType : UInt32) (bb : ByteBuffer) (s : σ) :
    Checked (List ReceiveEvent × σ) := do
  if (← bb.getReadableSpace) ≠ 1 then
    return ([.packetError packetType], ← R.packetError packetType s)
  else
    return ([], s)

/-- The loop of `AddReceivedData`. -/
def handleAllPackets : Nat → σ → Checked (List ReceiveEvent × σ)
  | 0, _ => .error .diverged
  | fuel + 1, s => do
      let (packetLen, ring) ← (R.receivedData s).readVarInt
      match packetLen with
      | none => return ([], R.setReceivedData (← ring.resetRead) s)
      | some packetLen =>
          if ¬ (← ring.canReadBytes packetLen.toNat) then
            return ([], R.setReceivedData (← ring.resetRead) s)
          else
            let (res, ring, bb) ←
              ring.readToByteBuffer (create (packetLen + 1).toNat) packetLen.toNat
            verify res
            let s := R.setReceivedData (← ring.commitRead) s
            let (packetType, bb) ← bb.readVarInt
            match packetType with
            | none => return ([], s)
            | some packetType =>
                let (_, bb) ← bb.write [0]
                let (handled, bbAfter, s) ← R.handlePacket s bb packetType
                if ¬ handled then
                  return ([.handlePacket packetType bb], s)
                else
                  let (errors, s) ← R.checkPacketRead packetType bbAfter s
                  let (events, s) ← handleAllPackets fuel s
                  return (.handlePacket packetType bb :: errors ++ events, s)

def addReceivedData (s : σ) (data : List UInt8) : Checked (List ReceiveEvent × σ) := do
  let (res, ring) ← (R.receivedData s).write data
  if ¬ res then
    return ([.packetBufferFull], ← R.packetBufferFull s)
  else
    R.handleAllPackets ((← ring.getUsedSpace) + 1) (R.setReceivedData ring s)

/-- `m_Decryptor.ProcessData`. -/
def decrypt (s : σ) (data : List UInt8) : Checked (Mode × List UInt8 × σ) :=
  match R.decryptor s with
  | none => .error .nullPointer
  | some c =>
      let (decrypted, c') := AesCfb128.decryptData R.aesCryptEcb c data
      .ok (.encrypted c.processed, decrypted, R.setDecryptor c' s)

/-- One round of the loop of `DataReceived`. -/
def decryptChunk (trace : List ReceiveEvent × σ) (chunk : List UInt8) :
    Checked (List ReceiveEvent × σ) := do
  let (mode, decrypted, s) ← R.decrypt trace.2 chunk
  let (events, s) ← R.addReceivedData s decrypted
  return (trace.1 ++ .decoded mode decrypted :: events, s)

def dataReceived (s : σ) (data : List UInt8) : Checked (List ReceiveEvent × σ) := do
  if R.isEncrypted s then
    forChunks 512 R.decryptChunk data.length ([], s) data
  else
    let (events, s) ← R.addReceivedData s data
    return (.decoded .plain data :: events, s)

/-! ### One turn of the loop -/

/-- The loop body of `AddReceivedData` up to the call of `HandlePacket`: the packet to be handled, or
none where the loop is left. -/
def nextPacket (s : σ) : Checked (σ × Option (UInt32 × ByteBuffer)) := do
  let (packetLen, ring) ← (R.receivedData s).readVarInt
  match packetLen with
  | none => return (R.setReceivedData (← ring.resetRead) s, none)
  | some packetLen =>
      if ¬ (← ring.canReadBytes packetLen.toNat) then
        return (R.setReceivedData (← ring.resetRead) s, none)
      else
        let (res, ring, bb) ←
          ring.readToByteBuffer (create (packetLen + 1).toNat) packetLen.toNat
        verify res
        let s := R.setReceivedData (← ring.commitRead) s
        let (packetType, bb) ← bb.readVarInt
        match packetType with
        | none => return (s, none)
        | some packetType =>
            let (_, bb) ← bb.write [0]
            return (s, some (packetType, bb))

/-- The loop body from the call of `HandlePacket` on, and the rounds that follow. -/
def handleNext (fuel : Nat) : σ × Option (UInt32 × ByteBuffer) → Checked (List ReceiveEvent × σ)
  | (s, none) => return ([], s)
  | (s, some (packetType, bb)) => do
      let (handled, bbAfter, s) ← R.handlePacket s bb packetType
      if ¬ handled then
        return ([.handlePacket packetType bb], s)
      else
        let (errors, s) ← R.checkPacketRead packetType bbAfter s
        let (events, s) ← R.handleAllPackets fuel s
        return (.handlePacket packetType bb :: errors ++ events, s)

theorem handleAllPackets_succ (fuel : Nat) (s : σ) :
    R.handleAllPackets (fuel + 1) s = R.nextPacket s >>= R.handleNext fuel := by
  rw [handleAllPackets, nextPacket, bind_assoc]
  congr 1
  funext ⟨packetLen, ring⟩
  cases packetLen with
  | none => simp only [bind_assoc, pure_bind, handleNext]
  | some packetLen =>
      simp only [bind_assoc]
      congr 1
      funext there
      split
      · simp only [bind_assoc, pure_bind, handleNext]
      · simp only [bind_assoc]
        congr 1
        funext ⟨res, ring, bb⟩
        dsimp only
        congr 1
        funext _
        congr 1
        funext ring
        congr 1
        funext ⟨packetType, bb⟩
        cases packetType with
        | none => rfl
        | some packetType => simp only [bind_assoc, pure_bind, handleNext]

section Turn

variable {R} {n : Nat} {s : σ} {rest : List UInt8}

/-- A complete packet at the front of the ring is taken out, and handed over with its type read and
one NUL behind it. -/
theorem nextPacket_frame {packetType : UInt32} {payload : List UInt8}
    (hring : Holds (R.receivedData s) n (frame (packetBytes packetType payload) ++ rest)
      (frame (packetBytes packetType payload) ++ rest))
    (hlength : (packetBytes packetType payload).length + 1 < 2 ^ 32) :
    ∃ ring bb, Holds ring n rest rest
      ∧ Holds bb ((packetBytes packetType payload).length + 1)
          (packetBytes packetType payload ++ [0]) (payload ++ [0])
      ∧ R.nextPacket s = .ok (R.setReceivedData ring s, some (packetType, bb)) := by
  set packet := packetBytes packetType payload with hpacket
  have hlen : (UInt32.ofNat packet.length).toNat = packet.length := by
    rw [UInt32.toNat_ofNat', Nat.mod_eq_of_lt (by omega)]
  have hroom : (UInt32.ofNat packet.length + 1).toNat = packet.length + 1 := by
    rw [UInt32.toNat_add, hlen]
    exact Nat.mod_eq_of_lt hlength
  rw [frame, List.append_assoc] at hring
  obtain ⟨ring₁, hreadLen, hring₁⟩ := decodes_readVarInt _ hring
  have hread : packet.length ≤ (packet ++ rest).length := by simp
  have hbb₀ := holds_create (packet.length + 1) fun _ => 0
  have hwrite : ([] : List UInt8).length + packet.length ≤ packet.length + 1 := by simp
  obtain ⟨ring₂, bb₁, hcopy, hring₂, hbb₁⟩ := hring₁.readToByteBuffer hbb₀ hread hwrite
  rw [List.drop_left] at hring₂
  rw [List.take_left, List.nil_append] at hbb₁
  obtain ⟨ring₃, hcommit, hring₃⟩ := hring₂.commitRead
  have hbb₁' := hbb₁
  rw [hpacket, packetBytes] at hbb₁'
  obtain ⟨bb₂, htype, hbb₂⟩ := decodes_readVarInt packetType hbb₁'
  rw [← packetBytes, ← hpacket] at hbb₂
  obtain ⟨bb₃, hnul, hbb₃⟩ := hbb₂.write (show packet.length + [0].length ≤ _ from le_rfl)
  refine ⟨ring₃, bb₃, hring₃, hbb₃, ?_⟩
  rw [nextPacket, hreadLen]
  simp only [Checked.ok_bind, hring₁.canReadBytes, hlen, hread, decide_true, not_true_eq_false,
    if_false, hroom, hcopy, verify_true, hcommit, htype, hnul]
  rfl

theorem handleAllPackets_frame {packetType : UInt32} {payload : List UInt8} (fuel : Nat)
    (hring : Holds (R.receivedData s) n (frame (packetBytes packetType payload) ++ rest)
      (frame (packetBytes packetType payload) ++ rest))
    (hlength : (packetBytes packetType payload).length + 1 < 2 ^ 32) :
    ∃ ring bb, Holds ring n rest rest
      ∧ Holds bb ((packetBytes packetType payload).length + 1)
          (packetBytes packetType payload ++ [0]) (payload ++ [0])
      ∧ R.handleAllPackets (fuel + 1) s
        = R.handleNext fuel (R.setReceivedData ring s, some (packetType, bb)) := by
  obtain ⟨ring, bb, hring', hbb, hnext⟩ := nextPacket_frame hring hlength
  exact ⟨ring, bb, hring', hbb, by rw [handleAllPackets_succ, hnext, Checked.ok_bind]⟩

theorem handleNext_handled {packetType : UInt32} {bb bbAfter : ByteBuffer} {s₁ s₂ s' : σ}
    {errors events : List ReceiveEvent} {fuel : Nat}
    (hhandle : R.handlePacket s bb packetType = .ok (true, bbAfter, s₁))
    (hcheck : R.checkPacketRead packetType bbAfter s₁ = .ok (errors, s₂))
    (hrun : R.handleAllPackets fuel s₂ = .ok (events, s')) :
    R.handleNext fuel (s, some (packetType, bb))
      = .ok (.handlePacket packetType bb :: errors ++ events, s') := by
  rw [handleNext, hhandle, Checked.ok_bind]
  simp only [not_true_eq_false, if_false, hcheck, Checked.ok_bind, hrun, Checked.pure_eq_ok]

/-- Some bytes of a frame, but not all of them. -/
def Pending (bytes packet : List UInt8) : Prop :=
  ∃ missing, missing ≠ [] ∧ bytes ++ missing = frame packet

theorem Pending.length_lt {bytes packet : List UInt8} (h : Pending bytes packet) :
    bytes.length < (frame packet).length := by
  obtain ⟨missing, hne, heq⟩ := h
  have hpos := List.length_pos_iff.mpr hne
  rw [← heq, List.length_append]
  omega

/-- A proper part of a frame ends the loop and stays in the ring to be read again. -/
theorem handleAllPackets_pending {bytes packet : List UInt8} (fuel : Nat)
    (hring : Holds (R.receivedData s) n bytes bytes) (hpending : Pending bytes packet)
    (hlength : packet.length < 2 ^ 32) :
    ∃ ring, Holds ring n bytes bytes
      ∧ R.handleAllPackets (fuel + 1) s = .ok ([], R.setReceivedData ring s) := by
  obtain ⟨missing, hne, heq⟩ := hpending
  have hlen : (UInt32.ofNat packet.length).toNat = packet.length := by
    rw [UInt32.toNat_ofNat', Nat.mod_eq_of_lt hlength]
  rw [frame] at heq
  rw [handleAllPackets]
  by_cases hcut : bytes.length < (varInt32 (UInt32.ofNat packet.length)).length
  · -- the stream stops inside the length
    have hbytes : bytes = (varInt32 (UInt32.ofNat packet.length)).take bytes.length := by
      have htake := congrArg (List.take bytes.length) heq
      rwa [List.take_left, List.take_append_of_le_length (by omega)] at htake
    have hnone : Base128.decode bytes = none := by
      rw [hbytes]
      exact Base128.decode_take_encode hcut
    have hle := varInt32_length_le (UInt32.ofNat packet.length)
    obtain ⟨ring₁, hreadLen, hring₁⟩ := readVarInt_of_decode_none hring hnone (by omega)
    obtain ⟨ring₂, hreset, hring₂⟩ := hring₁.resetRead
    refine ⟨ring₂, hring₂, ?_⟩
    simp only [hreadLen, Checked.ok_bind, hreset, Checked.pure_eq_ok]
  · -- the length is there, and the packet is not
    obtain ⟨body, rfl⟩ : ∃ body, bytes = varInt32 (UInt32.ofNat packet.length) ++ body := by
      refine ⟨bytes.drop (varInt32 (UInt32.ofNat packet.length)).length, ?_⟩
      have htake := congrArg (List.take (varInt32 (UInt32.ofNat packet.length)).length) heq
      rw [List.take_left, List.take_append_of_le_length (by omega)] at htake
      nth_rewrite 1 [← htake]
      rw [List.take_append_drop]
    rw [List.append_assoc, List.append_cancel_left_eq] at heq
    have hshort : ¬ packet.length ≤ body.length := by
      have hpos := List.length_pos_iff.mpr hne
      rw [← heq, List.length_append]
      omega
    obtain ⟨ring₁, hreadLen, hring₁⟩ := decodes_readVarInt _ hring
    obtain ⟨ring₂, hreset, hring₂⟩ := hring₁.resetRead
    refine ⟨ring₂, hring₂, ?_⟩
    rw [hreadLen]
    simp only [Checked.ok_bind, hring₁.canReadBytes, hlen, hshort, decide_false,
      Bool.false_eq_true, not_false_eq_true, if_true, hreset, Checked.pure_eq_ok]

end Turn

/-! ### One frame into an empty ring -/

section Single

variable {R} {n : Nat} {s : σ}

/-- On an empty ring the loop ends at once. -/
theorem handleAllPackets_nil (fuel : Nat) (hring : Holds (R.receivedData s) n [] []) :
    ∃ ring, Holds ring n [] [] ∧ R.handleAllPackets (fuel + 1) s = .ok ([], R.setReceivedData ring s) :=
  handleAllPackets_pending fuel hring
    ⟨frame [], List.ne_nil_of_length_pos (frame_length_pos []), rfl⟩ (by decide)

/-- A whole frame makes one call of `HandlePacket`, with the ring empty again. -/
theorem addReceivedData_frame {q : Packet} (hring : Holds (R.receivedData s) n [] [])
    (hn : n + 1 < 2 ^ 32) (hfit : q.frame.length ≤ n) :
    ∃ ring₀ ring bb fuel, Holds ring n [] [] ∧ q.Buffered bb
      ∧ R.addReceivedData s q.frame = R.handleNext (fuel + 1)
          (R.setReceivedData ring (R.setReceivedData ring₀ s), some (q.packetType, bb)) := by
  have hroom : ([] : List UInt8).length + q.frame.length ≤ n := by simpa using hfit
  obtain ⟨ring₀, hwrite, hring₀⟩ := hring.write hroom
  rw [List.nil_append] at hring₀
  have hlength : q.bytes.length + 1 < 2 ^ 32 := by
    rw [Packet.frame, Licode.frame, List.length_append] at hfit
    omega
  obtain ⟨fuel, hfuel⟩ : ∃ fuel, q.frame.length = fuel + 1 :=
    Nat.exists_eq_add_one_of_ne_zero (Nat.ne_of_gt (frame_length_pos q.bytes))
  have hring₁ : Holds (R.receivedData (R.setReceivedData ring₀ s)) n (q.frame ++ [])
      (q.frame ++ []) := by
    rwa [R.receivedData_setReceivedData, List.append_nil]
  obtain ⟨ring, bb, hring', hbb, hloop⟩ := handleAllPackets_frame (fuel + 1) hring₁ hlength
  refine ⟨ring₀, ring, bb, fuel, hring', hbb, ?_⟩
  rw [addReceivedData, hwrite, Checked.ok_bind]
  simp only [not_true_eq_false, if_false, hring₀.getUsedSpace, Checked.ok_bind, hfuel]
  exact hloop

/-- A frame whose handler reads it to its end. -/
theorem addReceivedData_handled {q : Packet} {P : σ → Prop}
    (hring : Holds (R.receivedData s) n [] []) (hn : n + 1 < 2 ^ 32) (hfit : q.frame.length ≤ n)
    (hhandle : ∀ ring₀ ring bb, q.Buffered bb → ∃ bbAfter s₁,
      R.handlePacket (R.setReceivedData ring (R.setReceivedData ring₀ s)) bb q.packetType
          = .ok (true, bbAfter, s₁)
        ∧ bbAfter.getReadableSpace = .ok 1 ∧ R.receivedData s₁ = ring ∧ P s₁)
    (hP : ∀ ring s, P s → P (R.setReceivedData ring s)) :
    ∃ events s', R.addReceivedData s q.frame = .ok (events, s') ∧ P s'
      ∧ Holds (R.receivedData s') n [] [] := by
  obtain ⟨ring₀, ring, bb, fuel, hring', hbb, hrun⟩ := addReceivedData_frame hring hn hfit
  obtain ⟨bbAfter, s₁, hcall, hread, hkeep, hs₁⟩ := hhandle ring₀ ring bb hbb
  have hring₁ : Holds (R.receivedData s₁) n [] [] := by rwa [hkeep]
  obtain ⟨ring₂, hring₂, hend⟩ := handleAllPackets_nil fuel hring₁
  have hcheck : R.checkPacketRead q.packetType bbAfter s₁ = .ok ([], s₁) := by
    rw [checkPacketRead, hread]
    rfl
  refine ⟨.handlePacket q.packetType bb :: [] ++ [], R.setReceivedData ring₂ s₁, ?_,
    hP ring₂ s₁ hs₁, ?_⟩
  · rw [hrun]
    exact handleNext_handled hcall hcheck hend
  · rwa [R.receivedData_setReceivedData]

end Single

/-! ### A whole call

The invariant of a run relates the object to the packets it has not handled yet. The ring is not
its business, so that it can be stated about the handlers alone. -/

/-- Handling the next packet succeeds and keeps the invariant, and no other event than the allowed
ones is caused. -/
structure Serves (Allowed : ReceiveEvent → Prop) (Inv : σ → List Packet → Prop) : Prop where
  ring : ∀ {s packets} ring, Inv s packets → Inv (R.setReceivedData ring s) packets
  call : ∀ packetType bb, Allowed (.handlePacket packetType bb)
  handle : ∀ {s q packets bb}, Inv s (q :: packets) → q.Buffered bb →
    ∃ bbAfter s₁ errors s₂, R.handlePacket s bb q.packetType = .ok (true, bbAfter, s₁)
      ∧ R.checkPacketRead q.packetType bbAfter s₁ = .ok (errors, s₂)
      ∧ (∀ event ∈ errors, Allowed event) ∧ R.receivedData s₂ = R.receivedData s ∧ Inv s₂ packets

theorem checkPacketRead_calls {packetType : UInt32} {bb : ByteBuffer} {s s' : σ}
    {errors : List ReceiveEvent} (h : R.checkPacketRead packetType bb s = .ok (errors, s')) :
    calls errors = [] ∧ decodedLog errors = [] := by
  obtain ⟨space, -, h⟩ := exists_of_bind_ok h
  split at h
  · obtain ⟨s₁, -, h⟩ := exists_of_bind_ok h
    simp only [Checked.pure_eq_ok, Except.ok.injEq, Prod.mk.injEq] at h
    obtain ⟨rfl, -⟩ := h
    exact ⟨rfl, rfl⟩
  · simp only [Checked.pure_eq_ok, Except.ok.injEq, Prod.mk.injEq] at h
    obtain ⟨rfl, -⟩ := h
    exact ⟨rfl, rfl⟩

/-- What stays in the ring: nothing, or a proper part of the next frame. -/
def Waiting : List UInt8 → List Packet → Prop
  | bytes, [] => bytes = []
  | bytes, q :: _ => Pending bytes q.bytes

/-- Bytes in front of a stream begin with its first frame, or stop inside it. -/
theorem split_stream {q : Packet} {packets : List Packet} {bytes todo : List UInt8}
    (h : bytes ++ todo = Packet.stream (q :: packets)) :
    (∃ rest, bytes = q.frame ++ rest ∧ rest ++ todo = Packet.stream packets)
      ∨ Pending bytes q.bytes := by
  rw [Packet.stream_cons, List.append_eq_append_iff] at h
  rcases h with ⟨missing, hframe, htodo⟩ | ⟨rest, hbytes, hrest⟩
  · by_cases hnil : missing = []
    · rw [hnil, List.append_nil] at hframe
      rw [hnil, List.nil_append] at htodo
      exact .inl ⟨[], by rw [List.append_nil, hframe], htodo⟩
    · exact .inr ⟨missing, hnil, hframe.symm⟩
  · exact .inl ⟨rest, hbytes, hrest.symm⟩

/-- The state of a run with `left` still to be handled, of whose stream `todo` has not come. -/
structure Stands (n : Nat) (Inv : σ → List Packet → Prop) (s : σ) (left : List Packet)
    (pending todo : List UInt8) : Prop where
  inv : Inv s left
  ring : Holds (R.receivedData s) n pending pending
  waiting : Waiting pending left
  stream : pending ++ todo = Packet.stream left

section Run

variable {R} {n : Nat} {Allowed : ReceiveEvent → Prop} {Inv : σ → List Packet → Prop}

theorem handleAllPackets_serves (hserves : R.Serves Allowed Inv) {s : σ} {packets : List Packet}
    {bytes todo : List UInt8} {fuel : Nat} (hinv : Inv s packets)
    (hring : Holds (R.receivedData s) n bytes bytes)
    (hstream : bytes ++ todo = Packet.stream packets)
    (hlength : ∀ q ∈ packets, q.bytes.length + 1 < 2 ^ 32) (hfuel : bytes.length < fuel) :
    ∃ events s' done left pending, R.handleAllPackets fuel s = .ok (events, s')
      ∧ packets = done ++ left ∧ Delivers events done ∧ decodedLog events = []
      ∧ (∀ event ∈ events, Allowed event) ∧ R.Stands n Inv s' left pending todo := by
  induction packets generalizing s bytes fuel with
  | nil =>
      obtain ⟨fuel, rfl⟩ := Nat.exists_eq_add_one_of_ne_zero (Nat.ne_zero_of_lt hfuel)
      rw [Packet.stream_nil, List.append_eq_nil_iff] at hstream
      obtain ⟨rfl, rfl⟩ := hstream
      obtain ⟨ring, hring', hloop⟩ := handleAllPackets_nil fuel hring
      refine ⟨[], _, [], [], [], hloop, rfl, .nil, rfl, by simp, ?_⟩
      exact ⟨hserves.ring ring hinv, by rwa [R.receivedData_setReceivedData], rfl, rfl⟩
  | cons q packets ih =>
      obtain ⟨fuel, rfl⟩ := Nat.exists_eq_add_one_of_ne_zero (Nat.ne_zero_of_lt hfuel)
      have hq := hlength q List.mem_cons_self
      rcases split_stream hstream with ⟨rest, rfl, hrest⟩ | hpending
      · obtain ⟨ring, bb, hring', hbb, hloop⟩ := handleAllPackets_frame fuel hring hq
        obtain ⟨bbAfter, s₁, errors, s₂, hhandle, hcheck, herrors, hkeep, hinv₂⟩ :=
          hserves.handle (hserves.ring ring hinv) hbb
        rw [R.receivedData_setReceivedData] at hkeep
        have hshort : rest.length < fuel := by
          have hpos := frame_length_pos q.bytes
          rw [List.length_append] at hfuel
          change (Licode.frame q.bytes).length + rest.length < fuel + 1 at hfuel
          omega
        obtain ⟨events, s', done, left, pending, hrun, rfl, hcalls, hlog, hallowed, hstands⟩ :=
          ih hinv₂ (hkeep ▸ hring') hrest (fun p hp => hlength p (List.mem_cons_of_mem q hp)) hshort
        obtain ⟨hnone, hsilent⟩ := R.checkPacketRead_calls hcheck
        refine ⟨.handlePacket q.packetType bb :: errors ++ events, s', q :: done, left, pending,
          ?_, rfl, ?_, ?_, ?_, hstands⟩
        · rw [hloop]
          exact handleNext_handled hhandle hcheck hrun
        · rw [Delivers, List.cons_append, calls, calls_append, hnone, List.nil_append]
          exact .cons ⟨rfl, hbb⟩ hcalls
        · change decodedLog (errors ++ events) = []
          rw [decodedLog_append, hsilent, hlog]
          rfl
        · intro event hmem
          rcases List.mem_append.mp hmem with hmem | hmem
          · rcases List.mem_cons.mp hmem with rfl | hmem
            · exact hserves.call _ _
            · exact herrors event hmem
          · exact hallowed event hmem
      · obtain ⟨ring, hring', hloop⟩ := handleAllPackets_pending fuel hring hpending (by omega)
        refine ⟨[], _, [], q :: packets, bytes, hloop, rfl, .nil, rfl, by simp, ?_⟩
        exact ⟨hserves.ring ring hinv, by rwa [R.receivedData_setReceivedData], hpending, hstream⟩

theorem addReceivedData_serves (hserves : R.Serves Allowed Inv) {s : σ} {packets : List Packet}
    {pending data todo : List UInt8} (hstands : R.Stands n Inv s packets pending (data ++ todo))
    (hlength : ∀ q ∈ packets, q.bytes.length + 1 < 2 ^ 32)
    (hfit : pending.length + data.length ≤ n) :
    ∃ events s' done left pending', R.addReceivedData s data = .ok (events, s')
      ∧ packets = done ++ left ∧ Delivers events done ∧ decodedLog events = []
      ∧ (∀ event ∈ events, Allowed event) ∧ R.Stands n Inv s' left pending' todo := by
  obtain ⟨ring, hwrite, hring⟩ := hstands.ring.write hfit
  have hstream : (pending ++ data) ++ todo = Packet.stream packets := by
    rw [List.append_assoc, hstands.stream]
  have hring' : Holds (R.receivedData (R.setReceivedData ring s)) n (pending ++ data)
      (pending ++ data) := by
    rwa [R.receivedData_setReceivedData]
  obtain ⟨events, s', done, left, pending', hrun, hrest⟩ := handleAllPackets_serves hserves
    (hserves.ring ring hstands.inv) hring' hstream hlength (Nat.lt_succ_self _)
  refine ⟨events, s', done, left, pending', ?_, hrest⟩
  rw [addReceivedData, hwrite, Checked.ok_bind]
  simp only [not_true_eq_false, if_false, hring.getUsedSpace, Checked.ok_bind]
  exact hrun

/-- A call in plain mode: the whole piece goes into the ring at once. -/
theorem dataReceived_plain (hserves : R.Serves Allowed Inv) {s : σ} {packets : List Packet}
    {pending data todo : List UInt8} (hplain : R.isEncrypted s = false)
    (hstands : R.Stands n Inv s packets pending (data ++ todo))
    (hlength : ∀ q ∈ packets, q.bytes.length + 1 < 2 ^ 32)
    (hdecoded : Allowed (.decoded .plain data)) (hfit : pending.length + data.length ≤ n) :
    ∃ events s' done left pending', R.dataReceived s data = .ok (events, s')
      ∧ packets = done ++ left ∧ Delivers events done
      ∧ decodedLog events = Mode.plain.tag data
      ∧ (∀ event ∈ events, Allowed event) ∧ R.Stands n Inv s' left pending' todo := by
  obtain ⟨events, s', done, left, pending', hrun, hpackets, hcalls, hlog, hallowed, hstands'⟩ :=
    addReceivedData_serves hserves hstands hlength hfit
  refine ⟨.decoded .plain data :: events, s', done, left, pending', ?_, hpackets, hcalls, ?_, ?_,
    hstands'⟩
  · rw [dataReceived, hplain]
    simp only [Bool.false_eq_true, if_false, hrun, Checked.ok_bind, Checked.pure_eq_ok]
  · rw [decodedLog, hlog, List.append_nil]
  · intro event hmem
    rcases List.mem_cons.mp hmem with rfl | hmem
    · exact hdecoded
    · exact hallowed event hmem

theorem Waiting.length_lt {bytes : List UInt8} {packets : List Packet} {bound : Nat}
    (h : Waiting bytes packets) (hbound : 0 < bound)
    (hframes : ∀ q ∈ packets, q.frame.length ≤ bound) : bytes.length < bound := by
  cases packets with
  | nil =>
      rw [show bytes = [] from h]
      exact hbound
  | cons q packets => exact lt_of_lt_of_le (Pending.length_lt h) (hframes q List.mem_cons_self)

/-- The invariant of the loop over the pieces of one call in encrypted mode. `c` has decrypted
`before` and is where the sender was when it encrypted the rest. -/
structure Decrypting (R : Receiver σ) (n : Nat) (Allowed : ReceiveEvent → Prop)
    (Inv : σ → List Packet → Prop) (c₀ : AesCfb128) (packets : List Packet)
    (plain todo : List UInt8) (trace : List ReceiveEvent × σ) (rest before after : List UInt8)
    (done left : List Packet) (pending : List UInt8) : Prop where
  plain_eq : plain = before ++ after
  rest_eq : rest = (AesCfb128.encryptData R.aesCryptEcb
    (AesCfb128.encryptData R.aesCryptEcb c₀ before).2 after).1
  decryptor : R.decryptor trace.2 = some (AesCfb128.encryptData R.aesCryptEcb c₀ before).2
  packets_eq : packets = done ++ left
  delivers : Delivers trace.1 done
  log : decodedLog trace.1 = (Mode.encrypted c₀.processed).tag before
  allowed : ∀ event ∈ trace.1, Allowed event
  stands : R.Stands n Inv trace.2 left pending (after ++ todo)

/-- The first bytes of a ciphertext are the ciphertext of the first bytes, and the sender goes on
from there. -/
theorem encryptData_split {aesCryptEcb : Block → Block → Block} {c : AesCfb128}
    {plain chunk rest : List UInt8} (h : chunk ++ rest = (AesCfb128.encryptData aesCryptEcb c plain).1) :
    ∃ first last, plain = first ++ last ∧ first.length = chunk.length
      ∧ chunk = (AesCfb128.encryptData aesCryptEcb c first).1
      ∧ rest = (AesCfb128.encryptData aesCryptEcb
          (AesCfb128.encryptData aesCryptEcb c first).2 last).1 := by
  have htake := AesCfb128.encryptData_take aesCryptEcb c plain chunk.length
  rw [← h, List.take_left] at htake
  have hsplit := AesCfb128.encryptData_append aesCryptEcb c (plain.take chunk.length)
    (plain.drop chunk.length)
  rw [List.take_append_drop] at hsplit
  refine ⟨plain.take chunk.length, plain.drop chunk.length, (List.take_append_drop _ _).symm, ?_,
    htake, ?_⟩
  · have hlen := congrArg List.length htake
    rw [AesCfb128.length_encryptData] at hlen
    exact hlen.symm
  · rw [hsplit, ← htake] at h
    exact List.append_cancel_left h

/-- One piece of a call in encrypted mode. A frame that leaves room for one more piece behind any
proper part of it can never fill the ring. -/
theorem decryptChunk_serves
    (hserves : ∀ c, R.Serves Allowed fun s packets => Inv s packets ∧ R.decryptor s = some c)
    (hcipher : ∀ {s packets} c, Inv s packets → Inv (R.setDecryptor c s) packets)
    (hdecoded : ∀ mode bytes, Allowed (.decoded mode bytes)) (hn : 512 ≤ n) (hsmall : n < 2 ^ 32)
    {c : AesCfb128} {packets : List Packet} (hframes : ∀ q ∈ packets, q.frame.length ≤ n - 511)
    {plain todo : List UInt8} {trace : List ReceiveEvent × σ}
    {chunk rest before after pending₁ : List UInt8} {done left : List Packet}
    (hchunk : chunk.length ≤ 512)
    (h : Decrypting R n Allowed Inv c packets plain todo trace (chunk ++ rest) before after done
      left pending₁) :
    ∃ trace', R.decryptChunk trace chunk = .ok trace' ∧
      ∃ before after done left pending, Decrypting R n Allowed Inv c packets plain todo trace'
        rest before after done left pending := by
  obtain ⟨events, s₁⟩ := trace
  set c₁ := (AesCfb128.encryptData R.aesCryptEcb c before).2 with hc₁
  obtain ⟨first, last, hafter, hfirst, hchunk_eq, hrest_eq⟩ := encryptData_split h.rest_eq
  set c₂ := (AesCfb128.encryptData R.aesCryptEcb c₁ first).2 with hc₂
  have happend := AesCfb128.encryptData_append R.aesCryptEcb c before first
  rw [← hc₁, ← hc₂] at happend
  have hdecrypt : R.decrypt s₁ chunk
      = .ok (.encrypted c₁.processed, first, R.setDecryptor c₂ s₁) := by
    rw [decrypt, h.decryptor, hchunk_eq]
    simp only [AesCfb128.decryptData_encryptData]
    rfl
  have hleft : ∀ q ∈ left, q.frame.length ≤ n - 511 := fun q hq =>
    hframes q (by rw [h.packets_eq]; exact List.mem_append_right done hq)
  have hlength : ∀ q ∈ left, q.bytes.length + 1 < 2 ^ 32 := by
    intro q hq
    have hle := hleft q hq
    rw [Packet.frame, Licode.frame, List.length_append] at hle
    omega
  have hroom := h.stands.waiting.length_lt (by omega) hleft
  have hstands₂ : R.Stands n (fun s packets => Inv s packets ∧ R.decryptor s = some c₂)
      (R.setDecryptor c₂ s₁) left pending₁ (first ++ (last ++ todo)) := by
    refine ⟨⟨hcipher c₂ h.stands.inv, R.decryptor_setDecryptor c₂ s₁⟩, ?_, h.stands.waiting, ?_⟩
    · rw [R.receivedData_setDecryptor]
      exact h.stands.ring
    · rw [← h.stands.stream, hafter, List.append_assoc]
  obtain ⟨more, s₂, done₂, left₂, pending₂, hrun, hpackets, hcalls, hlog, hallowed, hend⟩ :=
    addReceivedData_serves (hserves c₂) hstands₂ hlength (by omega)
  refine ⟨(events ++ .decoded (.encrypted c₁.processed) first :: more, s₂), ?_, before ++ first,
    last, done ++ done₂, left₂, pending₂, ?_⟩
  · rw [decryptChunk, hdecrypt, Checked.ok_bind]
    simp only [hrun, Checked.ok_bind, Checked.pure_eq_ok]
  refine ⟨by rw [h.plain_eq, hafter, List.append_assoc], ?_, ?_, ?_, ?_, ?_, ?_, ?_⟩
  · rw [happend]
    exact hrest_eq
  · rw [happend]
    exact hend.inv.2
  · rw [h.packets_eq, hpackets, List.append_assoc]
  · exact h.delivers.append hcalls
  · rw [decodedLog_append, h.log, decodedLog, hlog, List.append_nil, hc₁,
      AesCfb128.encryptData_processed, Mode.tag_append]
    rfl
  · intro event hmem
    rcases List.mem_append.mp hmem with hmem | hmem
    · exact h.allowed event hmem
    · rcases List.mem_cons.mp hmem with rfl | hmem
      · exact hdecoded _ _
      · exact hallowed event hmem
  · exact ⟨hend.inv.1, hend.ring, hend.waiting, hend.stream⟩

/-- A call in encrypted mode, on the next bytes of the sender's ciphertext. -/
theorem dataReceived_encrypted
    (hserves : ∀ c, R.Serves Allowed fun s packets => Inv s packets ∧ R.decryptor s = some c)
    (hcipher : ∀ {s packets} c, Inv s packets → Inv (R.setDecryptor c s) packets)
    (hdecoded : ∀ mode bytes, Allowed (.decoded mode bytes)) (hn : 512 ≤ n) (hsmall : n < 2 ^ 32)
    {s : σ} {packets : List Packet} (hframes : ∀ q ∈ packets, q.frame.length ≤ n - 511)
    {pending plain todo : List UInt8} {c : AesCfb128} (hencrypted : R.isEncrypted s = true)
    (hc : R.decryptor s = some c) (hstands : R.Stands n Inv s packets pending (plain ++ todo)) :
    ∃ events s' done left pending',
      R.dataReceived s (AesCfb128.encryptData R.aesCryptEcb c plain).1 = .ok (events, s')
      ∧ packets = done ++ left ∧ Delivers events done
      ∧ decodedLog events = (Mode.encrypted c.processed).tag plain
      ∧ (∀ event ∈ events, Allowed event)
      ∧ R.decryptor s' = some (AesCfb128.encryptData R.aesCryptEcb c plain).2
      ∧ R.Stands n Inv s' left pending' todo := by
  have hstart : Decrypting R n Allowed Inv c packets plain todo ([], s)
      (AesCfb128.encryptData R.aesCryptEcb c plain).1 [] plain [] packets pending :=
    ⟨rfl, rfl, hc, rfl, .nil, rfl, by simp, hstands⟩
  obtain ⟨⟨events, s'⟩, hrun, before, after, done, left, pending', hend⟩ :=
    forChunks_induct (Nat.zero_lt_succ 511)
      (fun trace rest => ∃ before after done left pending,
        Decrypting R n Allowed Inv c packets plain todo trace rest before after done left pending)
      (by
        rintro trace chunk rest - hchunk ⟨before, after, done, left, pending₁, h⟩
        exact decryptChunk_serves hserves hcipher hdecoded hn hsmall hframes hchunk h)
      le_rfl ⟨[], plain, [], packets, pending, hstart⟩
  have hafter : after = [] := by
    have hlen := congrArg List.length hend.rest_eq
    rw [AesCfb128.length_encryptData] at hlen
    exact List.eq_nil_of_length_eq_zero hlen.symm
  obtain rfl : plain = before := by rw [hend.plain_eq, hafter, List.append_nil]
  have hstands' := hend.stands
  rw [hafter, List.nil_append] at hstands'
  refine ⟨events, s', done, left, pending', ?_, hend.packets_eq, hend.delivers, hend.log,
    hend.allowed, hend.decryptor, hstands'⟩
  rw [dataReceived, hencrypted, if_pos rfl]
  exact hrun

end Run

end Receiver

end Licode
