import Licode.Framing

/-!
# One direction of a link

Between the sender of a stream of packets and the ring of its receiver the bytes are in flight,
encoded in one way. `Flow` says what the two ends and the bytes between them have in common: the
packets that have not been handled are the rest in the ring followed by what is in flight, and each
byte in flight is going to be decoded in the mode in which it was encoded.
-/

namespace Licode

open ByteBuffer Receiver

/-- How the next bytes are encoded: as they are, or by a cipher. -/
abbrev Coding := Option AesCfb128

namespace Coding

def mode : Coding → Mode
  | none => .plain
  | some c => .encrypted c.processed

/-- The bytes on the link, and the coding of the bytes behind them. -/
def encode (aesCryptEcb : Block → Block → Block) : Coding → List UInt8 → List UInt8 × Coding
  | none, data => (data, none)
  | some c, data =>
      ((AesCfb128.encryptData aesCryptEcb c data).1, some (AesCfb128.encryptData aesCryptEcb c data).2)

variable (aesCryptEcb : Block → Block → Block) (coding : Coding)

@[simp]
theorem encode_nil : coding.encode aesCryptEcb [] = ([], coding) := by
  cases coding <;> rfl

theorem encode_append (left right : List UInt8) :
    coding.encode aesCryptEcb (left ++ right)
      = ((coding.encode aesCryptEcb left).1
          ++ ((coding.encode aesCryptEcb left).2.encode aesCryptEcb right).1,
        ((coding.encode aesCryptEcb left).2.encode aesCryptEcb right).2) := by
  cases coding with
  | none => rfl
  | some c =>
      simp only [encode, AesCfb128.encryptData_append]

@[simp]
theorem length_encode (data : List UInt8) : (coding.encode aesCryptEcb data).1.length = data.length := by
  cases coding with
  | none => rfl
  | some c => rw [encode, AesCfb128.length_encryptData]

theorem mode_encode (data : List UInt8) :
    (coding.encode aesCryptEcb data).2.mode = coding.mode.after data.length := by
  cases coding with
  | none => rfl
  | some c => simp only [encode, mode, AesCfb128.encryptData_processed, Mode.after]

end Coding

/-- An event of a run without errors. -/
def ReceiveEvent.Quiet : ReceiveEvent → Prop
  | .decoded _ _ => True
  | .handlePacket _ _ => True
  | _ => False

/-- The receiver of `packets` has `ring`, `inFlight` is on its way to it in `coding`, and the
sender will go on in `after`. The logs are those of the two ends. -/
def Flow (aesCryptEcb : Block → Block → Block) (n : Nat) (ring : ByteBuffer) (coding after : Coding)
    (packets : List Packet) (inFlight : List UInt8) (decoded encoded : List (Mode × UInt8)) : Prop :=
  ∃ pending todo, Holds ring n pending pending ∧ Waiting pending packets
    ∧ pending ++ todo = Packet.stream packets
    ∧ coding.encode aesCryptEcb todo = (inFlight, after)
    ∧ encoded = decoded ++ coding.mode.tag todo

theorem waiting_nil (packets : List Packet) : Waiting [] packets := by
  cases packets with
  | nil => rfl
  | cons q packets => exact ⟨q.frame, List.ne_nil_of_length_pos (frame_length_pos q.bytes), rfl⟩

theorem Receiver.Waiting.append {pending : List UInt8} {packets : List Packet} (h : Waiting pending packets)
    (more : List Packet) : Waiting pending (packets ++ more) := by
  cases packets with
  | nil =>
      rw [show pending = [] from h]
      exact waiting_nil _
  | cons q packets => exact h

namespace Flow

variable {aesCryptEcb : Block → Block → Block} {n : Nat} {ring : ByteBuffer} {coding after : Coding}
  {packets : List Packet} {inFlight : List UInt8} {decoded encoded : List (Mode × UInt8)}

theorem idle {log : List (Mode × UInt8)} (hring : Holds ring n [] []) (coding : Coding) :
    Flow aesCryptEcb n ring coding coding [] [] log log := by
  refine ⟨[], [], hring, rfl, rfl, coding.encode_nil aesCryptEcb, ?_⟩
  rw [Mode.tag, List.append_nil]

/-- With no packet on its way there are no bytes on their way either, and the two ends may agree
on another coding. -/
theorem recode (h : Flow aesCryptEcb n ring coding after [] inFlight decoded encoded)
    (coding' : Coding) : Flow aesCryptEcb n ring coding' coding' [] inFlight decoded encoded := by
  obtain ⟨pending, todo, hring, -, hstream, hencode, hlog⟩ := h
  obtain ⟨rfl, rfl⟩ := List.append_eq_nil_iff.mp hstream
  rw [Coding.encode_nil, Prod.mk.injEq] at hencode
  obtain ⟨rfl, -⟩ := hencode
  rw [Mode.tag, List.append_nil] at hlog
  exact hlog ▸ idle hring coding'

theorem decoded_prefix (h : Flow aesCryptEcb n ring coding after packets inFlight decoded encoded) :
    decoded <+: encoded := by
  obtain ⟨pending, todo, -, -, -, -, hlog⟩ := h
  exact ⟨_, hlog.symm⟩

/-- A receiver that has all the bytes has handled all the packets. -/
theorem packets_eq_nil (h : Flow aesCryptEcb n ring coding after packets [] decoded encoded) :
    packets = [] := by
  obtain ⟨pending, todo, -, hwaiting, hstream, hencode, -⟩ := h
  have htodo : todo = [] := by
    have hlength := coding.length_encode aesCryptEcb todo
    rw [hencode] at hlength
    exact List.eq_nil_of_length_eq_zero hlength.symm
  rw [htodo, List.append_nil] at hstream
  cases packets with
  | nil => rfl
  | cons q packets =>
      have hlt : pending.length < q.frame.length := Pending.length_lt hwaiting
      rw [hstream, Packet.stream_cons, List.length_append] at hlt
      exact absurd hlt (Nat.not_lt_of_le (Nat.le_add_right _ _))

/-- The sender sends one more packet. -/
theorem send (h : Flow aesCryptEcb n ring coding after packets inFlight decoded encoded)
    (q : Packet) :
    Flow aesCryptEcb n ring coding (after.encode aesCryptEcb q.frame).2 (packets ++ [q])
      (inFlight ++ (after.encode aesCryptEcb q.frame).1) decoded
      (encoded ++ after.mode.tag q.frame) := by
  obtain ⟨pending, todo, hring, hwaiting, hstream, hencode, hlog⟩ := h
  refine ⟨pending, todo ++ q.frame, hring, hwaiting.append [q], ?_, ?_, ?_⟩
  · rw [← List.append_assoc, hstream, Packet.stream_append, Packet.stream_cons, Packet.stream_nil,
      List.append_nil]
  · rw [Coding.encode_append, hencode]
  · have hmode := coding.mode_encode aesCryptEcb todo
    rw [hencode] at hmode
    rw [Mode.tag_append, ← hmode, hlog, List.append_assoc]

end Flow

namespace Receiver

variable {σ : Type} {R : Receiver σ} {n : Nat} {Inv : σ → List Packet → Prop} {s : σ}
  {packets : List Packet} {data rest : List UInt8} {decoded encoded : List (Mode × UInt8)}
  {after : Coding}

/-- The receiver gets the next bytes of a flow in the clear. A handler may switch the receiver to a
cipher, which is not used in this call. -/
theorem receive_plain (hserves : R.Serves ReceiveEvent.Quiet Inv) (hplain : R.isEncrypted s = false)
    (hinv : Inv s packets) (hsmall : n + 1 < 2 ^ 32) (hfit : (Packet.stream packets).length ≤ n)
    (hflow : Flow R.aesCryptEcb n (R.receivedData s) none after packets (data ++ rest) decoded
      encoded) :
    ∃ events s' done left, R.dataReceived s data = .ok (events, s')
      ∧ packets = done ++ left ∧ Delivers events done ∧ (∀ event ∈ events, event.Quiet)
      ∧ Inv s' left
      ∧ Flow R.aesCryptEcb n (R.receivedData s') none after left rest (decoded ++ decodedLog events)
          encoded := by
  obtain ⟨pending, todo, hring, hwaiting, hstream, hencode, hlog⟩ := hflow
  simp only [Coding.encode, Prod.mk.injEq] at hencode
  obtain ⟨rfl, rfl⟩ := hencode
  have hlength : ∀ q ∈ packets, q.bytes.length + 1 < 2 ^ 32 := by
    intro q hq
    have hframe : q.frame.length ≤ (Packet.stream packets).length :=
      List.Sublist.length_le (List.sublist_flatten_of_mem (List.mem_map_of_mem hq))
    rw [Packet.frame, Licode.frame, List.length_append] at hframe
    omega
  have hroom : pending.length + data.length ≤ n := by
    rw [← hstream, List.length_append, List.length_append] at hfit
    omega
  obtain ⟨events, s', done, left, pending', hrun, hpackets, hcalls, hdecoded, hquiet, hstands⟩ :=
    dataReceived_plain hserves hplain ⟨hinv, hring, hwaiting, hstream⟩ hlength trivial hroom
  refine ⟨events, s', done, left, hrun, hpackets, hcalls, hquiet, hstands.inv, pending', rest,
    hstands.ring, hstands.waiting, hstands.stream, rfl, ?_⟩
  rw [hlog, hdecoded, Mode.tag_append, List.append_assoc]
  rfl

/-- The receiver gets the next bytes of an encrypted flow. -/
theorem receive_encrypted
    (hserves : ∀ c, R.Serves ReceiveEvent.Quiet
      fun s packets => Inv s packets ∧ R.decryptor s = some c)
    (hcipher : ∀ {s packets} c, Inv s packets → Inv (R.setDecryptor c s) packets)
    (hencrypted : R.isEncrypted s = true) (hinv : Inv s packets) (hn : 512 ≤ n) (hsmall : n < 2 ^ 32)
    (hframes : ∀ q ∈ packets, q.frame.length ≤ n - 511) {c : AesCfb128}
    (hc : R.decryptor s = some c)
    (hflow : Flow R.aesCryptEcb n (R.receivedData s) (some c) after packets (data ++ rest) decoded
      encoded) :
    ∃ events s' done left c', R.dataReceived s data = .ok (events, s')
      ∧ packets = done ++ left ∧ Delivers events done ∧ (∀ event ∈ events, event.Quiet)
      ∧ Inv s' left ∧ R.decryptor s' = some c'
      ∧ Flow R.aesCryptEcb n (R.receivedData s') (some c') after left rest
          (decoded ++ decodedLog events) encoded := by
  obtain ⟨pending, todo, hring, hwaiting, hstream, hencode, hlog⟩ := hflow
  simp only [Coding.encode, Prod.mk.injEq] at hencode
  obtain ⟨hbytes, hafter⟩ := hencode
  obtain ⟨first, last, rfl, -, hdata, hrest⟩ := encryptData_split hbytes.symm
  obtain ⟨events, s', done, left, pending', hrun, hpackets, hcalls, hdecoded, hquiet, hc', hstands⟩ :=
    dataReceived_encrypted hserves hcipher (fun _ _ => trivial) hn hsmall hframes hencrypted hc
      ⟨hinv, hring, hwaiting, hstream⟩
  refine ⟨events, s', done, left, _, ?_, hpackets, hcalls, hquiet, hstands.inv, hc', pending', last,
    hstands.ring, hstands.waiting, hstands.stream, ?_, ?_⟩
  · rw [hdata]
    exact hrun
  · rw [Coding.encode, ← hrest, ← hafter, AesCfb128.encryptData_append]
  · rw [hlog, hdecoded, Coding.mode, Mode.tag_append, List.append_assoc, Coding.mode,
      AesCfb128.encryptData_processed]
    rfl

end Receiver

end Licode
