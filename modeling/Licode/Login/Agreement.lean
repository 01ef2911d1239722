import Licode.Login.Completion

/-!
# Login agreement

The main result about the handshake: what every run keeps, seen from outside.
-/

namespace Licode

open ByteBuffer Receiver Server Client

section Agreement

variable {u : Setup} {s : Connection} {floor : Nat} {waiting : List Packet}

/-- The two ends of a connection agree on what has gone between them, no call fails, and a client that is signed in
knows its handle. -/
structure LoginAgrees (u : Setup) (s : Connection) : Prop where
  serverDecodes : decodedLog s.serverTrace <+: s.client.client.encoded
  clientDecodes : decodedLog s.clientTrace <+: s.session.link.protocol.encoded
  serverQuiet : ∀ event ∈ s.serverTrace, event.Quiet
  clientQuiet : ∀ event ∈ s.clientTrace, event.Quiet
  reports : s.session.link.protocol.reports = []
  callbacks : ∀ call ∈ s.client.client.callbacks, call.Quiet
  signedIn : s.client.client.state = 3 → s.session.link.protocol.state = 3
    ∧ s.client.client.clientID = s.session.link.protocol.client.uniqueID.toUInt32
  connects : s.client.client.bConnect = false → ∃ c, s.client.client.onConnect u.client = .ok c
  ticks : ∀ pingDue, ∃ result, s.session.link.serverTick u.server pingDue = .ok result
  authenticates : ∃ session, s.session.executeAuthenticator u.server = .ok session
  reads : ∀ data rest, s.toClient = data ++ rest → ∃ result, s.client.onRead u.client data = .ok result

theorem Stage.signedIn_server {p : ProtocolImpl} {served rank : Nat} {c : ConnectionClient} {answers : List Packet}
    {up down : Coding} (h : Stage u p served c rank waiting answers up down) (hstate : c.state = 3) :
    p.state = 3 ∧ c.clientID = u.uniqueID.toUInt32 := by
  have hbefore : ∀ {bConnect isEncrypted state}, state ≠ 3 → ClientAt c bConnect isEncrypted state → False := by
    intro bConnect isEncrypted state hne hc
    exact hne (hc.state.symm.trans hstate)
  have hone : (1 : UInt32) ≠ 3 := by decide
  have htwo : (2 : UInt32) ≠ 3 := by decide
  cases h with
  | idle hp hc | statusRequest hp hc | statusResponse hp hc => exact (hbefore hone hc).elim
  | loginStart hp hc | keyRequest hp hc | silent hp hc hfails | keyResponse hp hc hencryptor hsecret hnonce
  | loginAllow hp hc | loginInfo hp hc | authenticating hp hc | loginSuccess hp hc hgame =>
      exact (hbefore htwo hc).elim
  | signedIn hp hc hid hasked hgame => exact ⟨hp.state, hid⟩

theorem Agrees.login (hu : u.Sound) (h : Agrees u s floor waiting) : LoginAgrees u s := by
  obtain ⟨answers, up, down, ⟨rank, -, hstage⟩, hup, hdown⟩ := h.stage
  refine ⟨hup.decoded_prefix, hdown.decoded_prefix, h.serverQuiet, h.clientQuiet, h.server.reports, h.client.quiet,
    fun hstate => ?_, fun hconnect => ?_, fun pingDue => ?_, ?_, fun data rest hwire => ?_⟩
  · rw [h.server.uniqueID]
    exact hstage.signedIn_server hstate
  · obtain ⟨c, hrun, -⟩ := onConnect_agrees h hconnect
    exact ⟨c, hrun⟩
  · obtain ⟨events, sent, l, hrun, -⟩ := serverTick_agrees hu h pingDue
    exact ⟨_, hrun⟩
  · obtain ⟨session, hrun, -⟩ := executeAuthenticator_agrees h
    exact ⟨session, hrun⟩
  · obtain ⟨events, l, more, hrun, -⟩ := onRead_agrees hu h hwire
    exact ⟨_, hrun⟩

/-- **Login agreement.** Whatever the order of the steps and the pieces in which the bytes arrive: every byte is decoded
in the mode in which it was encoded, no packet is reported, no call fails, a client is signed in only after its handle
is and under the handle's id, and then the server handles the request for the client's channel before all else. -/
theorem login_agreement (hu : u.Sound) {events : List Connection.Event}
    (hrun : Run (Connection.Step u) (Connection.start u) events s) :
    LoginAgrees u s
      ∧ ∀ event s', Connection.Step u s event s' → s.client.client.state ≠ 3 → s'.client.client.state = 3 →
        ∀ later s'', Run (Connection.Step u) s' later s'' →
          ∃ trace handled, s''.serverTrace = s'.serverTrace ++ trace ∧ Delivers trace handled
            ∧ (handled = [] ∨ ∃ rest, handled = Setup.joinRoom s.client.client.channel :: rest) := by
  obtain ⟨-, -, -, waiting, -, -, -, hagrees⟩ := agrees_of_run hu agrees_start hrun
  refine ⟨hagrees.login hu, fun event s' hstep hbefore hafter later s'' hlater => ?_⟩
  obtain ⟨-, -, -, left, -, -, -, hagrees', hjoin⟩ := hstep.agrees hu hagrees
  obtain ⟨ahead, rfl⟩ := hjoin hbefore hafter
  obtain ⟨trace, handled, more, left', htrace, hdelivers, hwaiting, -⟩ := agrees_of_run hu hagrees' hlater
  refine ⟨trace, handled, htrace, hdelivers, ?_⟩
  cases handled with
  | nil => exact .inl rfl
  | cons q handled =>
      rw [List.cons_append, List.cons_append, List.cons.injEq] at hwaiting
      exact .inr ⟨handled, by rw [hwaiting.1]⟩

/-- A setup whose block cipher is the identity. -/
def sealedSetup : Setup where
  server := keyedEnv
  rand := fun i => 37 * i + 11
  encrypt := fun _ => sealBytes
  ipString := ascii "10.0.0.7"
  uniqueID := 7
  address := 0x7f0010
  userName := ascii "anna"

theorem sound_sealedSetup : sealedSetup.Sound where
  decrypt := fun _ _ hencrypt => decrypt_sealBytes hencrypt
  publicKey := by decide
  ipString := by decide
  userName := by
    unfold Setup.Fits
    decide

theorem not_encryptFails_sealedSetup : ¬ sealedSetup.EncryptFails := by
  rintro (hsecret | hnonce)
  · cases hsecret
  · cases hnonce

/-- A run of this setup to its end, from the call of `JoinChannel` on. -/
theorem login_agreement_sealedSetup :
    ∃ events s, Run (Connection.Step sealedSetup) (Connection.start sealedSetup)
        (.joinChannel (ascii "127.0.0.1") (ascii "lobby") :: events) s
      ∧ s.client.client.state = 3 ∧ LoginAgrees sealedSetup s := by
  have hfits : Setup.Fits 0x01 (ascii "lobby") := by
    unfold Setup.Fits
    decide
  have hjoin : Connection.Step sealedSetup (Connection.start sealedSetup)
      (.joinChannel (ascii "127.0.0.1") (ascii "lobby")) _ := .joinChannel hfits
  have hfirst := Run.nil.snoc hjoin
  obtain ⟨later, s, hlater, hstate⟩ :=
    login_completes sound_sealedSetup not_encryptFails_sealedSetup hfirst rfl (Nat.zero_le _)
  have hrun := hfirst.trans hlater
  exact ⟨later, s, hrun, hstate, (login_agreement sound_sealedSetup hrun).1⟩

end Agreement

end Licode
