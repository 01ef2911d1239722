import Licode.Framing

/-!
# The rounds of the receiving loops

What `AddReceivedData` finds in the ring depends on the bytes only (`nextFrame`), and a frame that
has been found is found again when more bytes follow it. A round of its loop takes one frame out of
the ring or puts the cursor back; a round of `DataReceived` takes one piece of its data.
-/

namespace Licode

open ByteBuffer

/-- The first packet of a stream and what follows its frame, where the frame is complete. -/
def nextFrame (bytes : List UInt8) : Checked (Option (List UInt8 × List UInt8)) := do
  match ← decodeVarInt 64 bytes 0 0 with
  | (none, _) => return none
  | (some v, rest) =>
      let packetLen := (UInt64.ofNat v).toUInt32.toNat
      return if packetLen ≤ rest.length then some (rest.take packetLen, rest.drop packetLen)
        else none

/-- The bytes of a packet written to its buffer, in the pieces of `readToByteBuffer`. -/
def fill (dst : ByteBuffer) (bytes : List UInt8) : Checked ByteBuffer :=
  forChunks 1024 (fun dst chunk => do
    let (written, dst) ← dst.write chunk
    verify written
    return dst) bytes.length dst bytes

/-- Prefix stability of the numbers. -/
theorem decodeVarInt_append {width acc shift v : Nat} {bytes rest : List UInt8}
    (h : decodeVarInt width bytes acc shift = .ok (some v, rest)) (more : List UInt8) :
    decodeVarInt width (bytes ++ more) acc shift = .ok (some v, rest ++ more) := by
  induction bytes generalizing acc shift with
  | nil => cases h
  | cons byte bytes ih =>
      rw [decodeVarInt] at h
      rw [List.cons_append, decodeVarInt]
      obtain ⟨term, hterm, h⟩ := exists_of_bind_ok h
      rw [hterm, Checked.ok_bind]
      split at h
      · next hmore =>
        rw [if_pos hmore]
        exact ih h
      · next hlast =>
        rw [if_neg hlast]
        cases h
        rfl

/-- Prefix stability of the frames. -/
theorem nextFrame_append {bytes packet rest : List UInt8}
    (h : nextFrame bytes = .ok (some (packet, rest))) (more : List UInt8) :
    nextFrame (bytes ++ more) = .ok (some (packet, rest ++ more)) := by
  obtain ⟨⟨v, after⟩, hdecode, h⟩ := exists_of_bind_ok h
  cases v with
  | none => cases h
  | some v =>
      dsimp only at h
      split at h
      · next hlen =>
        cases h
        rw [nextFrame, decodeVarInt_append hdecode more, Checked.ok_bind]
        dsimp only
        rw [if_pos (by rw [List.length_append]; omega), List.take_append_of_le_length hlen,
          List.drop_append_of_le_length hlen]
        rfl
      · cases h

theorem decodeVarInt_length {width acc shift : Nat} {bytes rest : List UInt8} {v : Option Nat}
    (h : decodeVarInt width bytes acc shift = .ok (v, rest)) :
    rest.length ≤ bytes.length ∧ (v ≠ none → rest.length < bytes.length) := by
  induction bytes generalizing acc shift with
  | nil =>
      cases h
      exact ⟨le_rfl, fun hne => absurd rfl hne⟩
  | cons byte bytes ih =>
      rw [decodeVarInt] at h
      obtain ⟨term, -, h⟩ := exists_of_bind_ok h
      rw [List.length_cons]
      split at h
      · obtain ⟨hle, -⟩ := ih h
        omega
      · cases h
        omega

/-- A frame has a length, so it is not empty. -/
theorem nextFrame_length {bytes packet rest : List UInt8}
    (h : nextFrame bytes = .ok (some (packet, rest))) : rest.length < bytes.length := by
  obtain ⟨⟨v, after⟩, hdecode, h⟩ := exists_of_bind_ok h
  obtain ⟨-, hshorter⟩ := decodeVarInt_length hdecode
  cases v with
  | none => cases h
  | some v =>
      have hlt := hshorter nofun
      dsimp only at h
      split at h
      · cases h
        rw [List.length_drop]
        omega
      · cases h

theorem forChunks_of_ne_nil {α σ : Type} {size : Nat} {body : σ → List α → Checked σ} {fuel : Nat}
    {s : σ} {data : List α} (hne : data ≠ []) :
    forChunks size body (fuel + 1) s data
      = body s (data.take size) >>= fun s => forChunks size body fuel s (data.drop size) := by
  cases data with
  | nil => exact absurd rfl hne
  | cons a data => rfl

/-- The copying loop fills the destination with what it takes from the source. -/
theorem readToByteBufferLoop_fill {fuel count n : Nat} {src src' dst dst' : ByteBuffer}
    {items rest : List UInt8} (hsrc : Holds src n items rest) (hcount : count ≤ rest.length)
    (hcall : readToByteBufferLoop fuel src dst count = .ok (src', dst')) :
    forChunks 1024 (fun dst chunk => do
      let (written, dst) ← dst.write chunk
      verify written
      return dst) fuel dst (rest.take count) = .ok dst' := by
  induction fuel generalizing src dst count rest with
  | zero =>
      cases count with
      | zero =>
          cases hcall
          rfl
      | succ count => cases hcall
  | succ fuel ih =>
      cases count with
      | zero =>
          cases hcall
          rfl
      | succ count =>
          rw [readToByteBufferLoop] at hcall
          generalize hnum : (if count + 1 > 1024 then 1024 else count + 1) = num at hcall
          have hle : num ≤ count + 1 := by split at hnum <;> omega
          obtain ⟨src₁, hread, hsrc₁⟩ := hsrc.readBuf (show num ≤ rest.length by omega)
          rw [hread, Checked.ok_bind] at hcall
          simp only [Option.isSome_some, verify_true, Checked.ok_bind, Option.getD_some] at hcall
          obtain ⟨⟨written, dst₁⟩, hwrite, hcall⟩ := exists_of_bind_ok hcall
          obtain ⟨_, hverify, hcall⟩ := exists_of_bind_ok hcall
          obtain ⟨-, -, hcall⟩ := exists_of_bind_ok hcall
          have hne : rest.take (count + 1) ≠ [] := by
            rw [ne_eq, List.take_eq_nil_iff]
            rintro (hzero | rfl)
            · cases hzero
            · cases hcount
          have hchunk : (rest.take (count + 1)).take 1024 = rest.take num := by
            rw [List.take_take]
            congr 1
            split at hnum <;> omega
          have hleft : (rest.take (count + 1)).drop 1024
              = (rest.drop num).take (count + 1 - num) := by
            rw [List.drop_take, ← hnum]
            split
            · rfl
            · rw [show count + 1 - 1024 = 0 by omega, show count + 1 - (count + 1) = 0 by omega,
                List.take_zero, List.take_zero]
          have hverify : verify written = .ok () := hverify
          rw [forChunks_of_ne_nil hne, hchunk, hleft, hwrite]
          simp only [Checked.ok_bind, hverify, Checked.pure_eq_ok]
          exact ih hsrc₁ (by rw [List.length_drop]; omega) hcall

/-- The buffer of a packet is made of the packet's bytes alone. -/
theorem readToByteBuffer_fill {count n : Nat} {src src' dst dst' : ByteBuffer}
    {items rest : List UInt8} (hsrc : Holds src n items rest) (hcount : count ≤ rest.length)
    (hcall : src.readToByteBuffer dst count = .ok (true, src', dst')) :
    fill dst (rest.take count) = .ok dst' := by
  unfold readToByteBuffer at hcall
  obtain ⟨fits, -, hcall⟩ := exists_of_bind_ok hcall
  split at hcall
  · cases hcall
  · obtain ⟨there, -, hcall⟩ := exists_of_bind_ok hcall
    split at hcall
    · cases hcall
    · obtain ⟨⟨src₁, dst₁⟩, hloop, hcall⟩ := exists_of_bind_ok hcall
      cases hcall
      rw [fill, List.length_take_of_le hcount]
      exact readToByteBufferLoop_fill hsrc hcount hloop

/-- A number that has been read was there. -/
theorem decodeVarInt_of_readVarInt {n : Nat} {b b' : ByteBuffer} {items rest : List UInt8}
    {v : Option UInt32} (h : Holds b n items rest) (hread : b.readVarInt = .ok (v, b')) :
    ∃ w rest', decodeVarInt 64 rest 0 0 = .ok (w, rest')
      ∧ v = w.map (fun w => (UInt64.ofNat w).toUInt32) ∧ Holds b' n items rest' := by
  cases hdecode : decodeVarInt 64 rest 0 0 with
  | error e =>
      have hloop := (readVarIntLoop_eq 64 0 0 h (Nat.lt_succ_self _)).1 e hdecode
      rw [readVarInt, readVarInt64, h.checkValid, Checked.ok_bind, h.getReadableSpace,
        Checked.ok_bind, hloop] at hread
      cases hread
  | ok result =>
      obtain ⟨w, rest'⟩ := result
      obtain ⟨b₁, hread₁, hholds⟩ := readVarInt64_of_decodeVarInt h hdecode
      rw [readVarInt, hread₁] at hread
      cases hread
      exact ⟨w, rest', rfl, by rw [Option.map_map]; rfl, hholds⟩

namespace Receiver

variable {σ : Type} (R : Receiver σ)

/-- The body of the loop of `AddReceivedData` behind `CommitRead`, and the rounds that follow. -/
def handleBuffered (fuel : Nat) (s : σ) (bb : ByteBuffer) : Checked (List ReceiveEvent × σ) := do
  let (packetType, bb) ← bb.readVarInt
  match packetType with
  | none => return ([], s)
  | some packetType =>
      let (_, bb) ← bb.write [0]
      let (handled, bbAfter, s) ← R.handlePacket s bb packetType
      if ¬ handled then
        return ([.handlePacket packetType bb], s)
      else
        let (errors, s) ← R.checkPacketRead packetType bbAfter s
        let (events, s) ← R.handleAllPackets fuel s
        return (.handlePacket packetType bb :: errors ++ events, s)

section Round

variable {fuel n : Nat} {s : σ} {bytes : List UInt8}

/-- A round without a complete frame puts the cursor back. -/
theorem handleAllPackets_wait (hring : Holds (R.receivedData s) n bytes bytes)
    (hframe : nextFrame bytes = .ok none) :
    ∃ ring, Holds ring n bytes bytes
      ∧ R.handleAllPackets (fuel + 1) s = .ok ([], R.setReceivedData ring s) := by
  obtain ⟨⟨w, rest⟩, hdecode, hframe⟩ := exists_of_bind_ok hframe
  obtain ⟨ring₁, hread, hring₁⟩ := readVarInt64_of_decodeVarInt hring hdecode
  obtain ⟨ring₂, hreset, hring₂⟩ := hring₁.resetRead
  refine ⟨ring₂, hring₂, ?_⟩
  rw [handleAllPackets, readVarInt, hread]
  cases w with
  | none =>
      change (ring₁.resetRead >>= _) = _
      rw [hreset]
      rfl
  | some w =>
      dsimp only at hframe
      split at hframe
      · cases hframe
      · next hshort =>
        change (ring₁.canReadBytes (UInt64.ofNat w).toUInt32.toNat >>= _) = _
        rw [hring₁.canReadBytes, Checked.ok_bind, decide_eq_false hshort,
          if_pos Bool.false_ne_true, hreset]
        rfl

/-- A round with a complete frame takes it out of the ring. -/
theorem handleAllPackets_turn {packet rest : List UInt8} (hn : n + 1 < 2 ^ 32)
    (hring : Holds (R.receivedData s) n bytes bytes)
    (hframe : nextFrame bytes = .ok (some (packet, rest))) :
    ∃ ring bb, Holds ring n rest rest ∧ fill (create (packet.length + 1)) packet = .ok bb
      ∧ R.handleAllPackets (fuel + 1) s = R.handleBuffered fuel (R.setReceivedData ring s) bb := by
  obtain ⟨⟨w, left⟩, hdecode, hframe⟩ := exists_of_bind_ok hframe
  obtain ⟨ring₁, hread, hring₁⟩ := readVarInt64_of_decodeVarInt hring hdecode
  cases w with
  | none => cases hframe
  | some w =>
      dsimp only at hframe
      generalize hlen : (UInt64.ofNat w).toUInt32 = packetLen at hframe
      split at hframe
      · next hcomplete =>
        cases hframe
        have hpacket : (left.take packetLen.toNat).length = packetLen.toNat :=
          List.length_take_of_le hcomplete
        have hroom : (packetLen + 1).toNat = packetLen.toNat + 1 := by
          have hfits := hring₁.length_le
          have hshort := hring₁.rest_length_le
          rw [UInt32.toNat_add]
          exact Nat.mod_eq_of_lt (by change packetLen.toNat + 1 < 2 ^ 32; omega)
        obtain ⟨ring₃, bb, hcopy, hring₃, -⟩ := hring₁.readToByteBuffer
          (holds_create (packetLen.toNat + 1) fun _ => 0) hcomplete (by simp)
        obtain ⟨ring₄, hcommit, hring₄⟩ := hring₃.commitRead
        refine ⟨ring₄, bb, hring₄, ?_, ?_⟩
        · rw [hpacket]
          exact readToByteBuffer_fill hring₁ hcomplete hcopy
        · rw [handleAllPackets, readVarInt, hread]
          simp only [Checked.ok_bind, Checked.pure_eq_ok, Option.map_some, hlen,
            hring₁.canReadBytes, hcomplete, decide_true, not_true_eq_false, if_false, hroom, hcopy,
            verify_true, hcommit]
          rfl
      · cases hframe

/-- A round that returns has found what `nextFrame` tells. -/
theorem nextFrame_of_handleAllPackets {events : List ReceiveEvent} {s' : σ}
    (hring : Holds (R.receivedData s) n bytes bytes)
    (hcall : R.handleAllPackets (fuel + 1) s = .ok (events, s')) :
    ∃ found, nextFrame bytes = .ok found := by
  rw [handleAllPackets] at hcall
  obtain ⟨⟨packetLen, ring₁⟩, hread, -⟩ := exists_of_bind_ok hcall
  obtain ⟨w, rest, hdecode, -, -⟩ := decodeVarInt_of_readVarInt hring hread
  rw [nextFrame, hdecode]
  cases w with
  | none => exact ⟨none, rfl⟩
  | some w => exact ⟨_, rfl⟩

end Round

/-- Only the ring changes up to the call, and a packet takes at least its length out of it. -/
theorem nextPacket_ring {n : Nat} {s s₀ : σ} {bytes : List UInt8}
    {found : Option (UInt32 × ByteBuffer)} (hn : n + 1 < 2 ^ 32)
    (hring : Holds (R.receivedData s) n bytes bytes) (h : R.nextPacket s = .ok (s₀, found)) :
    ∃ ring rest, s₀ = R.setReceivedData ring s ∧ Holds ring n rest rest
      ∧ ∀ packetType bb, found = some (packetType, bb) →
        rest.length < bytes.length ∧ ∃ m items left, Holds bb m items left := by
  obtain ⟨⟨packetLen, ring₁⟩, hread, h⟩ := exists_of_bind_ok h
  obtain ⟨w, rest₁, hdecode, hw, hring₁⟩ := decodeVarInt_of_readVarInt hring hread
  obtain ⟨ring₂, hreset, hring₂⟩ := hring₁.resetRead
  cases packetLen with
  | none =>
      simp only [hreset, Checked.ok_bind, Checked.pure_eq_ok, Except.ok.injEq, Prod.mk.injEq] at h
      obtain ⟨rfl, rfl⟩ := h
      exact ⟨ring₂, bytes, rfl, hring₂, nofun⟩
  | some packetLen =>
      have hshorter : rest₁.length < bytes.length := by
        refine (decodeVarInt_length hdecode).2 ?_
        rintro rfl
        cases hw
      simp only [hring₁.canReadBytes, Checked.ok_bind] at h
      split at h
      · simp only [hreset, Checked.ok_bind, Checked.pure_eq_ok, Except.ok.injEq,
          Prod.mk.injEq] at h
        obtain ⟨rfl, rfl⟩ := h
        exact ⟨ring₂, bytes, rfl, hring₂, nofun⟩
      · next hthere =>
        have hthere : packetLen.toNat ≤ rest₁.length := by simpa using hthere
        have hroom : (packetLen + 1).toNat = packetLen.toNat + 1 := by
          have hfits := hring₁.length_le
          have hshort := hring₁.rest_length_le
          rw [UInt32.toNat_add]
          exact Nat.mod_eq_of_lt (by change packetLen.toNat + 1 < 2 ^ 32; omega)
        obtain ⟨ring₃, bb, hcopy, hring₃, hbb⟩ := hring₁.readToByteBuffer
          (holds_create (packetLen.toNat + 1) fun _ => 0) hthere (by simp)
        obtain ⟨ring₄, hcommit, hring₄⟩ := hring₃.commitRead
        rw [hroom, hcopy, Checked.ok_bind] at h
        simp only [verify_true, Checked.ok_bind, hcommit] at h
        obtain ⟨⟨packetType, bb₁⟩, htype, h⟩ := exists_of_bind_ok h
        cases packetType with
        | none =>
            cases h
            exact ⟨ring₄, _, rfl, hring₄, nofun⟩
        | some packetType =>
            obtain ⟨left, hbb₁⟩ := keeps_readVarInt hbb htype
            have hnul : ([] ++ rest₁.take packetLen.toNat).length + [(0 : UInt8)].length
                ≤ packetLen.toNat + 1 := by
              rw [List.nil_append, List.length_take_of_le hthere]
              exact le_rfl
            obtain ⟨bb₂, hwrite, hbb₂⟩ := hbb₁.write hnul
            rw [hwrite] at h
            cases h
            refine ⟨ring₄, _, rfl, hring₄, ?_⟩
            rintro _ _ heq
            cases heq
            refine ⟨?_, _, _, _, hbb₂⟩
            rw [List.length_drop]
            omega

/-! ### The pieces of a call -/

/-- The pieces in which `while (a_Size > 0)` takes its data. -/
def chunksOf {α : Type} (size : Nat) : Nat → List α → List (List α)
  | 0, _ => []
  | _, [] => []
  | fuel + 1, a :: data => (a :: data).take size :: chunksOf size fuel ((a :: data).drop size)

theorem chunksOf_of_ne_nil {α : Type} {size : Nat} (fuel : Nat) {data : List α} (hne : data ≠ []) :
    chunksOf size (fuel + 1) data = data.take size :: chunksOf size fuel (data.drop size) := by
  cases data with
  | nil => exact absurd rfl hne
  | cons a data => rfl

theorem forChunks_eq_foldlM {α σ : Type} {size : Nat} (hsize : 0 < size)
    (body : σ → List α → Checked σ) {fuel : Nat} (s : σ) {data : List α}
    (hfuel : data.length ≤ fuel) :
    forChunks size body fuel s data = (chunksOf size fuel data).foldlM body s := by
  induction fuel generalizing s data with
  | zero =>
      obtain rfl : data = [] := List.eq_nil_of_length_eq_zero (Nat.le_zero.mp hfuel)
      rfl
  | succ fuel ih =>
      cases data with
      | nil => rfl
      | cons a data =>
          rw [forChunks, chunksOf, List.foldlM_cons]
          congr 1
          funext s₁
          refine ih s₁ ?_
          rw [List.length_drop]
          rw [List.length_cons] at hfuel ⊢
          omega

/-- The pieces in which `DataReceived` takes its data. -/
def pieces (s : σ) (data : List UInt8) : List (List UInt8) :=
  if R.isEncrypted s then chunksOf 512 data.length data else [data]

/-- A piece as it goes into the ring. -/
def decode (encrypted : Bool) (s : σ) (piece : List UInt8) : Checked (Mode × List UInt8 × σ) :=
  if encrypted then R.decrypt s piece else .ok (.plain, piece, s)

/-- What `DataReceived` does with a piece. -/
def receivePiece (encrypted : Bool) (trace : List ReceiveEvent × σ) (piece : List UInt8) :
    Checked (List ReceiveEvent × σ) := do
  let (mode, bytes, s) ← R.decode encrypted trace.2 piece
  let (events, s) ← R.addReceivedData s bytes
  return (trace.1 ++ .decoded mode bytes :: events, s)

theorem dataReceived_eq_foldlM (s : σ) (data : List UInt8) :
    R.dataReceived s data
      = (R.pieces s data).foldlM (R.receivePiece (R.isEncrypted s)) ([], s) := by
  unfold dataReceived pieces
  split
  · next hencrypted =>
    rw [forChunks_eq_foldlM (by decide) _ _ le_rfl, hencrypted]
    rfl
  · next hplain =>
    rw [Bool.eq_false_of_not_eq_true hplain, List.foldlM_cons, receivePiece, decode,
      if_neg Bool.false_ne_true, Checked.ok_bind, bind_assoc]
    rfl

end Receiver

end Licode
