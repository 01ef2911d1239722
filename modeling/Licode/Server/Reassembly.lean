import Licode.Server.ProtocolSpec

/-!
# The encrypted stream of packets

The server decrypts a received piece in chunks of 512 bytes and puts each into the receive ring. As
long as no packet is re-keying the link, the decryptor follows the sender, the ring holds a proper
part of one frame between two chunks, and a frame that leaves 511 bytes of the ring free can never
be the reason for a full ring.
-/

namespace Licode.Server

open ByteBuffer Receiver

namespace ServerLink

/-- `HandlePacket` returns true for each of the packets in turn, whatever the register of the
decryptor holds at that moment, and does not key the decryptor anew. -/
def Accepts (env : Env) : ProtocolImpl → List Packet → Prop
  | _, [] => True
  | p, q :: packets => ∀ c bb, q.Buffered bb →
      ∃ bbAfter p₁, { p with decryptor := c }.handlePacket env bb q.packetType
          = .ok (true, bbAfter, p₁)
        ∧ p₁.decryptor = c
        ∧ ∀ ring errors l, (receiver env).checkPacketRead q.packetType bbAfter ⟨ring, p₁⟩
            = .ok (errors, l) → Accepts env l.protocol packets

theorem accepts_setDecryptor (env : Env) (p : ProtocolImpl) (c : AesCfb128) (packets : List Packet) :
    Accepts env { p with decryptor := c } packets ↔ Accepts env p packets := by
  cases packets <;> rfl

/-- A logged-in client may send as many keep-alives as it likes. -/
theorem accepts_keepAlives (env : Env) {p : ProtocolImpl} (hstate : p.state = 3) (ids : List UInt32) :
    Accepts env p (ids.map fun id => ⟨0x00, varInt32 id⟩) := by
  induction ids with
  | nil => trivial
  | cons id ids ih =>
      intro c bb hbb
      obtain ⟨bb₁, hread, hbb₁⟩ := decodes_readVarInt32 id hbb
      refine ⟨bb₁, { p with decryptor := c }, ?_, rfl, ?_⟩
      · have hhandler : ProtocolImpl.handlerOf env p.state 0x00
            = some ProtocolImpl.handlePacketKeepAlive := by
          rw [hstate]
          rfl
        simp only [ProtocolImpl.handlePacket, hhandler, ProtocolImpl.handlePacketKeepAlive,
          handleRead, hread, Checked.ok_bind, Checked.pure_eq_ok]
      · intro ring errors l hcheck
        rw [checkPacketRead, hbb₁.getReadableSpace, Checked.ok_bind, if_neg (by simp),
          Checked.pure_eq_ok, Except.ok.injEq, Prod.mk.injEq] at hcheck
        rw [← hcheck.2]
        exact (accepts_setDecryptor env p c _).mpr ih

/-- The link is encrypted and will accept the packets. -/
structure Serving (env : Env) (l : ServerLink) (packets : List Packet) : Prop where
  ready : l.protocol.Ready
  encrypted : l.protocol.isEncrypted = true
  accepts : Accepts env l.protocol packets

/-- The check behind a packet only sends a disconnect, if anything. -/
theorem checkPacketRead_kept (env : Env) (l : ServerLink) {bb : ByteBuffer} {n : Nat}
    {items rest : List UInt8} (hready : l.protocol.Ready) (hbb : Holds bb n items rest)
    (packetType : UInt32) :
    ∃ errors p, (receiver env).checkPacketRead packetType bb l
        = .ok (errors, { l with protocol := p })
      ∧ l.protocol.Kept p ∧ .packetBufferFull ∉ errors := by
  rw [checkPacketRead, hbb.getReadableSpace, Checked.ok_bind]
  split_ifs with hone
  · have hreport := ProtocolImpl.kept_report hready (.packetError packetType)
    obtain ⟨p, hp⟩ :=
      ProtocolImpl.clientSendDisconnect_total env hreport.ready ErrorCode.packetError
    refine ⟨[.packetError packetType], p, ?_,
      ProtocolImpl.kept_of_report_disconnect hready hp, by simp⟩
    change ((l.protocol.packetError env packetType >>= fun p => pure { l with protocol := p })
      >>= _) = _
    rw [ProtocolImpl.packetError, hp]
    rfl
  · exact ⟨[], l.protocol, rfl, .refl hready, by simp⟩

theorem serves_serving (env : Env) (c : AesCfb128) :
    (receiver env).Serves (· ≠ .packetBufferFull)
      fun l packets => Serving env l packets ∧ (receiver env).decryptor l = some c where
  ring ring h := ⟨⟨h.1.ready, h.1.encrypted, h.1.accepts⟩, h.2⟩
  call packetType bb := by simp
  handle := by
    rintro l q packets bb ⟨hserving, hc⟩ hbb
    obtain ⟨bbAfter, p₁, hhandle, hkeep, hnext⟩ := hserving.accepts l.protocol.decryptor bb hbb
    obtain ⟨⟨rest', hbb'⟩, heffect⟩ := ProtocolImpl.handlePacket_cases hserving.ready hbb hhandle
    obtain ⟨errors, p₂, hcheck, hkept, herrors⟩ := checkPacketRead_kept env
      { l with protocol := p₁ } (heffect.ready hserving.ready) hbb' q.packetType
    refine ⟨bbAfter, { l with protocol := p₁ }, errors, { l with protocol := p₂ }, ?_, hcheck, ?_,
      rfl, ⟨hkept.ready, ?_, hnext l.receivedData errors _ hcheck⟩, ?_⟩
    · change (l.protocol.handlePacket env bb q.packetType >>= _) = _
      rw [hhandle]
      rfl
    · rintro event hmem rfl
      exact herrors hmem
    · exact hkept.isEncrypted.trans (heffect.isEncrypted hserving.encrypted)
    · change some p₂.decryptor = some c
      rw [← hc, hkept.decryptor, hkeep]
      rfl

/-- Consecutive calls of `DataReceived`. -/
def receiveAll (env : Env) : ServerLink → List (List UInt8) → Checked (List ReceiveEvent × ServerLink)
  | l, [] => .ok ([], l)
  | l, chunk :: chunks => do
      let (events, l) ← l.dataReceived env chunk
      let (more, l) ← receiveAll env l chunks
      return (events ++ more, l)

theorem receiveAll_serves {env : Env} {chunks : List (List UInt8)} {l : ServerLink}
    {packets : List Packet} {pending todo : List UInt8}
    (hstands : (receiver env).Stands (64 * 1024) (Serving env) l packets pending todo)
    (hframes : ∀ q ∈ packets, q.frame.length ≤ 64 * 1024 - 511)
    (hchunks : chunks.flatten
      <+: (AesCfb128.encryptData env.aesCryptEcb l.protocol.decryptor todo).1) :
    ∃ events l' done left pending' todo', receiveAll env l chunks = .ok (events, l')
      ∧ packets = done ++ left ∧ Delivers events done ∧ .packetBufferFull ∉ events
      ∧ (receiver env).Stands (64 * 1024) (Serving env) l' left pending' todo'
      ∧ chunks.flatten.length + todo'.length = todo.length := by
  induction chunks generalizing l packets pending todo with
  | nil => exact ⟨[], l, [], packets, pending, todo, rfl, rfl, .nil, by simp, hstands, by simp⟩
  | cons chunk chunks ih =>
      obtain ⟨later, hcipher⟩ := hchunks
      rw [List.flatten_cons, List.append_assoc] at hcipher
      obtain ⟨first, last, rfl, hfirst, hchunk, hrest⟩ := encryptData_split hcipher
      obtain ⟨events, l₁, done₁, left₁, pending₁, hrun, rfl, hcalls, -, hallowed, hc, hstands₁⟩ :=
        dataReceived_encrypted (serves_serving env)
          (fun c h => ⟨⟨h.ready.out, h.ready.len⟩, h.encrypted,
            (accepts_setDecryptor env _ c _).mpr h.accepts⟩)
          (by simp) (by decide) (by decide) hframes hstands.inv.encrypted rfl hstands
      have hc₁ : l₁.protocol.decryptor
          = (AesCfb128.encryptData env.aesCryptEcb l.protocol.decryptor first).2 :=
        Option.some.inj hc
      obtain ⟨more, l₂, done₂, left₂, pending₂, todo₂, hruns, rfl, hcalls₂, hfull, hstands₂, hlength⟩ :=
        ih hstands₁ (fun q hq => hframes q (List.mem_append_right done₁ hq))
          ⟨later, by rw [hc₁]; exact hrest⟩
      refine ⟨events ++ more, l₂, done₁ ++ done₂, left₂, pending₂, todo₂, ?_,
        (List.append_assoc _ _ _).symm, hcalls.append hcalls₂, ?_, hstands₂, ?_⟩
      · have hrun' : l.dataReceived env chunk = .ok (events, l₁) := by
          rw [hchunk]
          exact hrun
        simp only [receiveAll, hrun', Checked.ok_bind, hruns, Checked.pure_eq_ok]
      · rw [List.mem_append, not_or]
        exact ⟨fun hmem => hallowed _ hmem rfl, hfull⟩
      · rw [List.flatten_cons, List.length_append, List.length_append, ← hfirst]
        omega

/-- **Reassembly.** Whatever the pieces in which a stream of packets arrives on an encrypted link,
complete packets are handed over once each and in order, and the ring keeps exactly the part of the
next frame that has arrived. -/
theorem receiveAll_reassembles (env : Env) (l : ServerLink) (packets : List Packet)
    (chunks : List (List UInt8)) (hready : l.protocol.Ready)
    (hring : Holds l.receivedData (64 * 1024) [] []) (hencrypted : l.protocol.isEncrypted = true)
    (hframes : ∀ q ∈ packets, q.frame.length ≤ 64 * 1024 - 511)
    (haccepts : Accepts env l.protocol packets)
    (hchunks : chunks.flatten <+: (AesCfb128.encryptData env.aesCryptEcb l.protocol.decryptor
      (Packet.stream packets)).1) :
    ∃ events l' done left pending, receiveAll env l chunks = .ok (events, l')
      ∧ packets = done ++ left ∧ Delivers events done ∧ .packetBufferFull ∉ events
      ∧ Holds l'.receivedData (64 * 1024) pending pending ∧ Waiting pending left
      ∧ Packet.stream done ++ pending = (Packet.stream packets).take chunks.flatten.length := by
  have hwaiting : Waiting [] packets := by
    cases packets with
    | nil => rfl
    | cons q packets => exact ⟨q.frame, List.ne_nil_of_length_pos (frame_length_pos q.bytes), rfl⟩
  have hstart : (receiver env).Stands (64 * 1024) (Serving env) l packets []
      (Packet.stream packets) :=
    ⟨⟨hready, hencrypted, haccepts⟩, hring, hwaiting, rfl⟩
  obtain ⟨events, l', done, left, pending, todo, hrun, rfl, hcalls, hfull, hstands, hlength⟩ :=
    receiveAll_serves hstart hframes hchunks
  refine ⟨events, l', done, left, pending, hrun, rfl, hcalls, hfull, hstands.ring, hstands.waiting, ?_⟩
  have hsplit : Packet.stream (done ++ left) = (Packet.stream done ++ pending) ++ todo := by
    rw [Packet.stream_append, ← hstands.stream, List.append_assoc]
  have hreceived : chunks.flatten.length = (Packet.stream done ++ pending).length := by
    have htotal := congrArg List.length hsplit
    rw [List.length_append] at htotal
    omega
  rw [hsplit, hreceived, List.take_left]

/-- A working link on which nothing has been received yet. -/
def workingLink : ServerLink :=
  let l := create (ClientHandle.create (ascii "10.0.0.7") 1) 0x7f0010
  { l with protocol := { l.protocol with
      state := 3
      isEncrypted := true
      encryptor := AesCfb128.init (toBlock []) (toBlock [])
      decryptor := AesCfb128.init (toBlock []) (toBlock []) } }

/-- A server whose block cipher is the identity and whose keys open nothing. -/
def closedEnv : Env := ⟨fun _ block => block, ascii "-", [], 128, fun _ => none⟩

theorem receiveAll_reassembles_keepAlives :
    ∃ events l' done left pending,
      receiveAll closedEnv workingLink
          [(AesCfb128.encryptData closedEnv.aesCryptEcb workingLink.protocol.decryptor
            (Packet.stream [⟨0x00, varInt32 7⟩, ⟨0x00, varInt32 300⟩])).1] = .ok (events, l')
        ∧ [⟨0x00, varInt32 7⟩, ⟨0x00, varInt32 300⟩] = done ++ left
        ∧ Delivers events done ∧ .packetBufferFull ∉ events
        ∧ Holds l'.receivedData (64 * 1024) pending pending ∧ Waiting pending left
        ∧ Packet.stream done ++ pending
          = (Packet.stream [⟨0x00, varInt32 7⟩, ⟨0x00, varInt32 300⟩]).take
              [(AesCfb128.encryptData closedEnv.aesCryptEcb workingLink.protocol.decryptor
                (Packet.stream [⟨0x00, varInt32 7⟩, ⟨0x00, varInt32 300⟩])).1].flatten.length :=
  receiveAll_reassembles closedEnv workingLink _ _ ⟨holds_create _ _, holds_create _ _⟩
    (holds_create _ _) rfl (by decide) (accepts_keepAlives closedEnv rfl [7, 300])
    (by rw [List.flatten_singleton])

end ServerLink

end Licode.Server
