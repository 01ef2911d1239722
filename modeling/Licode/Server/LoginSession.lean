import Licode.Lib.Run
import Licode.Server.LoginHandlers
import Licode.Server.Reassembly

/-!
# Sessions: packets and authenticator callbacks

A session is a server link together with the authenticator's queue of the users it has asked to
check. Packets of any type and contents and rounds of the authenticator come in any order. The link
works in the clear if a `LoginInfo` packet gets through before the key exchange, because the handler
does not ask whether the link is encrypted. As long as that does not happen, working implies
encrypted, and that is an invariant of two conditions: the authenticator may only have been asked on
an encrypted link, and encryption is never switched off.
-/

namespace Licode.Server

open ByteBuffer ByteImage Receiver ProtocolImpl

/-- `cAuthenticator::AuthFromDBPoll`. -/
def authFromDBPoll (username password : AString) : Int32 := if username = password then 1 else 0

/-- The requests that wait in the authenticator's queue. -/
def Request.user : Request → Option (Int32 × AString × AString)
  | .authenticate clientID username password => some (clientID, username, password)
  | _ => none

/-- The request acts on a room. -/
def Request.IsRoom : Request → Prop
  | .authenticate _ _ _ => False
  | _ => True

/-- A link and the number of its users the authenticator has taken from its queue. -/
structure Session where
  link : ServerLink
  served : Nat

/-- A pair in the place of RSA with a key of 128 bytes: up to 117 bytes, with their number before
them. -/
def sealBytes (data : List UInt8) : Option (List UInt8) :=
  if data.length ≤ 117 then some (UInt8.ofNat data.length :: (data ++ List.replicate (127 - data.length) 0)) else none

def openBytes : List UInt8 → Option (List UInt8)
  | [] => none
  | length :: bytes => some (bytes.take length.toNat)

/-- A server with this pair, and the identity as its block cipher. -/
def keyedEnv : Env := ⟨fun _ block => block, ascii "-", ascii "key", 128, openBytes⟩

theorem decrypt_sealBytes {data encrypted : List UInt8} (hencrypt : sealBytes data = some encrypted) :
    encrypted.length = 128 ∧ keyedEnv.decrypt encrypted maxEncLen = some data := by
  unfold sealBytes at hencrypt
  split_ifs at hencrypt with hshort
  cases hencrypt
  have hlength : (UInt8.ofNat data.length).toNat = data.length := by
    rw [UInt8.toNat_ofNat']
    omega
  have hsize : (UInt8.ofNat data.length :: (data ++ List.replicate (127 - data.length) 0)).length = 128 := by
    simp only [List.length_cons, List.length_append, List.length_replicate]
    omega
  have hopen : openBytes (List.take 128 (UInt8.ofNat data.length :: (data ++ List.replicate (127 - data.length) 0)))
      = some data := by
    rw [List.take_of_length_le hsize.le, openBytes, hlength, List.take_left]
  refine ⟨hsize, ?_⟩
  rw [Env.decrypt, if_neg (by rw [hsize]; decide), if_neg (by decide)]
  exact hopen

namespace Session

def create (ipString : AString) (uniqueID : Int32) (address : UInt64) : Session where
  link := ServerLink.create (ClientHandle.create ipString uniqueID) address
  served := 0

/-- `cAuthenticator::m_Queue`. -/
def queue (s : Session) : List (Int32 × AString × AString) :=
  (s.link.protocol.requests.filterMap Request.user).drop s.served

/-- `cServer::AuthenticateUser` and `cServer::KickUser` look for the client by its id. -/
def authenticateUser (env : Env) (p : ProtocolImpl) (clientID : Int32) (username password : AString) :
    Checked ProtocolImpl :=
  if p.client.uniqueID ≠ clientID then .ok p
  else if authFromDBPoll username password = ErrorCode.accountAuthOk then
    -- the UUID that `AuthFromDBPoll` was to fill in is still empty
    p.authenticate env username []
  else p.kick env (authFromDBPoll username password)

/-- One round of `cAuthenticator::Execute`, which waits while the queue is empty. -/
def executeAuthenticator (env : Env) (s : Session) : Checked Session := do
  match s.queue with
  | [] => return s
  | (clientID, username, password) :: _ =>
      let p ← authenticateUser env s.link.protocol clientID username password
      return { link := { s.link with protocol := p }, served := s.served + 1 }

inductive Event where
  | packet (q : Packet)
  | authenticator

/-- A packet arrives whole, or the authenticator runs. -/
inductive Step (env : Env) : Session → Event → Session → Prop
  | packet {s : Session} {q : Packet} {events : List ReceiveEvent} {l : ServerLink}
      (h : (ServerLink.receiver env).addReceivedData s.link q.frame = .ok (events, l)) :
      Step env s (.packet q) { s with link := l }
  | authenticator {s s' : Session} (h : s.executeAuthenticator env = .ok s') :
      Step env s .authenticator s'

/-- The payload begins with a string that `ReadVarUTF8String` reads. -/
def HasUsername (payload : List UInt8) : Prop :=
  ∃ n bb items username bb', Holds bb n items (payload ++ [0])
    ∧ bb.readVarUTF8String = .ok (some username, bb')

/-- A `LoginInfo` packet with a user name comes on an encrypted link only. -/
def LoginGuard (s : Session) : Event → Prop
  | .packet q => s.link.protocol.state = 2 → q.packetType = 0x02 → HasUsername q.payload →
      s.link.protocol.isEncrypted = true
  | .authenticator => True

/-- What a whole frame does to an idle link. -/
theorem addReceivedData_effect {env : Env} {l l' : ServerLink} {q : Packet}
    {events : List ReceiveEvent} (hready : l.protocol.Ready)
    (hring : Holds l.receivedData (64 * 1024) [] [])
    (h : (ServerLink.receiver env).addReceivedData l q.frame = .ok (events, l')) :
    Holds l'.receivedData (64 * 1024) [] []
      ∧ (Kept l.protocol l'.protocol
        ∨ ∃ bb p, q.Buffered bb ∧ Effect l.protocol bb q.packetType p ∧ Kept p l'.protocol) := by
  by_cases hfit : q.frame.length ≤ 64 * 1024
  · obtain ⟨ring₀, ring, bb, fuel, hring', hbb, hrun⟩ :=
      addReceivedData_frame (R := ServerLink.receiver env) hring (by decide) hfit
    rw [h] at hrun
    obtain ⟨⟨handled, bbAfter, l₁⟩, hcall, hrun⟩ := exists_of_bind_ok hrun.symm
    obtain ⟨⟨handled', bbAfter', p₁⟩, hhandle, hcall⟩ := exists_of_bind_ok hcall
    simp only [Checked.pure_eq_ok, Except.ok.injEq, Prod.mk.injEq] at hcall
    obtain ⟨rfl, rfl, rfl⟩ := hcall
    obtain ⟨⟨rest', hbb'⟩, heffect⟩ := handlePacket_cases hready hbb hhandle
    have hready₁ := heffect.ready hready
    cases handled' with
    | false =>
        simp only [Bool.false_eq_true, not_false_eq_true, if_true, Checked.pure_eq_ok,
          Except.ok.injEq, Prod.mk.injEq] at hrun
        obtain ⟨-, rfl⟩ := hrun
        exact ⟨hring', .inr ⟨bb, p₁, hbb, heffect, .refl hready₁⟩⟩
    | true =>
        obtain ⟨errors, p₂, hcheck, hkept, -⟩ := ServerLink.checkPacketRead_kept env
          ⟨ring, p₁⟩ hready₁ hbb' q.packetType
        obtain ⟨ring₂, hring₂, hend⟩ :=
          handleAllPackets_nil (R := ServerLink.receiver env) (s := ⟨ring, p₂⟩) fuel hring'
        obtain ⟨⟨errors', l₂⟩, hcheck', hrun⟩ := exists_of_bind_ok hrun
        cases hcheck.symm.trans hcheck'
        obtain ⟨⟨events', l₃⟩, hend', hrun⟩ := exists_of_bind_ok hrun
        cases hend.symm.trans hend'
        simp only [Checked.pure_eq_ok, Except.ok.injEq, Prod.mk.injEq] at hrun
        obtain ⟨-, rfl⟩ := hrun
        exact ⟨hring₂, .inr ⟨bb, p₁, hbb, heffect, hkept⟩⟩
  · have hfull : l.receivedData.write q.frame = .ok (false, l.receivedData) :=
      hring.write_of_full (by simpa using hfit)
    change (l.receivedData.write q.frame >>= _) = _ at h
    rw [hfull, Checked.ok_bind] at h
    obtain ⟨l₁, hreport, h⟩ := exists_of_bind_ok h
    obtain ⟨p₁, hbusy, hreport⟩ := exists_of_bind_ok hreport
    simp only [Checked.pure_eq_ok, Except.ok.injEq, Prod.mk.injEq] at h hreport
    obtain ⟨-, rfl⟩ := h
    subst hreport
    exact ⟨hring, .inl (kept_of_report_disconnect hready hbusy)⟩

/-- A login is only ever under way, and a room only ever used, on an encrypted link. -/
structure Secure (p : ProtocolImpl) : Prop where
  working : p.state = 3 → p.isEncrypted = true
  login : p.client.state = .csAuthenticating → p.isEncrypted = true
  rooms : ∀ r ∈ p.requests, r.IsRoom → p.isEncrypted = true

theorem Secure.kept {p p' : ProtocolImpl} (h : Secure p) (hkept : Kept p p') : Secure p' := by
  refine ⟨?_, ?_, ?_⟩
  · rw [hkept.state, hkept.isEncrypted]
    exact h.working
  · rw [hkept.clientState, hkept.isEncrypted]
    exact h.login
  · rw [hkept.requests, hkept.isEncrypted]
    exact h.rooms

theorem Secure.of_isEncrypted {p : ProtocolImpl} (h : p.isEncrypted = true) : Secure p :=
  ⟨fun _ => h, fun _ => h, fun _ _ _ => h⟩

theorem Secure.effect {p p' : ProtocolImpl} {bb : ByteBuffer} {packetType : UInt32} (h : Secure p)
    (heffect : Effect p bb packetType p')
    (hguard : ∀ username bb', p.state = 2 → packetType = 0x02 →
      bb.readVarUTF8String = .ok (some username, bb') → p.isEncrypted = true) : Secure p' := by
  cases heffect with
  | kept hkept => exact h.kept hkept
  | status state hstate hnext hkept =>
      have hsecure : Secure { p with state := state } := by
        refine ⟨?_, h.login, h.rooms⟩
        rintro (rfl : state = 3)
        rcases hnext with hnext | hnext <;> cases hnext
      exact hsecure.kept hkept
  | encryption key hstate hkept => exact (Secure.of_isEncrypted rfl).kept hkept
  | login username bb' hstate htype hread =>
      exact .of_isEncrypted (hguard username bb' hstate htype hread)
  | room r hstate => exact .of_isEncrypted (h.working hstate)
  | ignore h₁ h₂ h₃ =>
      refine ⟨?_, h.login, h.rooms⟩
      rintro (hbad : (255 : UInt32) = 3)
      cases hbad

theorem Secure.authenticateUser {env : Env} {p p' : ProtocolImpl} {clientID : Int32}
    {username password : AString} (h : Secure p) (hready : p.Ready)
    (hrun : Session.authenticateUser env p clientID username password = .ok p') :
    Secure p' ∧ p'.Ready := by
  unfold Session.authenticateUser at hrun
  split_ifs at hrun with hclient hok
  · cases hrun
    exact ⟨h, hready⟩
  · by_cases hstate : p.client.state = .csAuthenticating
    · obtain ⟨p₁, hauth, hsent⟩ := authenticate_of_authenticating env hready hstate username []
      rw [hauth, Except.ok.injEq] at hrun
      subst hrun
      have hencrypted : p₁.isEncrypted = true := hsent.kept.isEncrypted.trans (h.login hstate)
      exact ⟨.of_isEncrypted hencrypted, hsent.kept.ready.out, hsent.kept.ready.len⟩
    · rw [authenticate, if_pos hstate] at hrun
      cases hrun
      exact ⟨h, hready⟩
  · have hkept := kept_of_kick hready hrun
    exact ⟨h.kept hkept, hkept.ready⟩

/-- The invariant of the session between two events. -/
structure Inv (s : Session) : Prop where
  ready : s.link.protocol.Ready
  ring : Holds s.link.receivedData (64 * 1024) [] []
  secure : Secure s.link.protocol

theorem inv_create (ipString : AString) (uniqueID : Int32) (address : UInt64) :
    Inv (create ipString uniqueID address) where
  ready := ready_create _ _
  ring := holds_create _ _
  secure := by
    refine ⟨?_, ?_, ?_⟩
    · rintro (hstate : (1 : UInt32) = 3)
      cases hstate
    · rintro (hstate : EState.csConnected = .csAuthenticating)
      cases hstate
    · rintro r (hmem : r ∈ [])
      cases hmem

theorem Inv.step {env : Env} {s s' : Session} {event : Event} (h : Inv s)
    (hstep : Guarded LoginGuard (Step env) s event s') : Inv s' := by
  obtain ⟨hguard, hstep⟩ := hstep
  cases hstep with
  | packet hrun =>
      obtain ⟨hring, hkept | ⟨bb, p, hbb, heffect, hkept⟩⟩ :=
        addReceivedData_effect h.ready h.ring hrun
      · exact ⟨hkept.ready, hring, h.secure.kept hkept⟩
      · refine ⟨hkept.ready, hring, (h.secure.effect heffect ?_).kept hkept⟩
        intro username bb' hstate htype hread
        exact hguard hstate htype ⟨_, bb, _, username, bb', hbb, hread⟩
  | authenticator hrun =>
      unfold executeAuthenticator at hrun
      split at hrun
      · cases hrun
        exact h
      · obtain ⟨p, hauth, hrun⟩ := exists_of_bind_ok hrun
        cases hrun
        obtain ⟨hsecure, hready⟩ := h.secure.authenticateUser h.ready hauth
        exact ⟨hready, h.ring, hsecure⟩

/-- **Work is encrypted.** In every run in which a `LoginInfo` packet with a user name only ever
comes on an encrypted link, a link in the work state is encrypted, and so is every link on which a
room has been used. -/
theorem work_encrypted (env : Env) (ipString : AString) (uniqueID : Int32) (address : UInt64)
    (events : List Event) (s : Session)
    (hrun : Run (Guarded LoginGuard (Step env)) (create ipString uniqueID address) events s) :
    (s.link.protocol.state = 3 → s.link.protocol.isEncrypted = true)
      ∧ ∀ r ∈ s.link.protocol.requests, r.IsRoom → s.link.protocol.isEncrypted = true := by
  have hinv : Inv s := hrun.invariant (inv_create ipString uniqueID address) Inv.step
  exact ⟨hinv.secure.working, hinv.secure.rooms⟩

/-! ### Logins -/

/-- The first packet of the client program. -/
def helloPacket : Packet := ⟨0x00, fieldsBytes (statusRequestFields (ascii "127.0.0.1") 6666 2)⟩

def loginInfoPacket : Packet := ⟨0x02, fieldsBytes [.string (ascii "eve")]⟩

section Steps

variable {env : Env} {s : Session}

/-- A packet that its handler reads to the end. -/
theorem step_handled {q : Packet} {P : ProtocolImpl → Prop}
    (hring : Holds s.link.receivedData (64 * 1024) [] []) (hfit : q.frame.length ≤ 64 * 1024)
    (hhandle : ∀ {bb}, q.Buffered bb → ∃ bb' p',
      s.link.protocol.handlePacket env bb q.packetType = .ok (true, bb', p')
        ∧ Holds bb' (q.bytes.length + 1) (q.bytes ++ [0]) [0] ∧ P p') :
    ∃ s', Step env s (.packet q) s' ∧ s'.served = s.served
      ∧ Holds s'.link.receivedData (64 * 1024) [] [] ∧ P s'.link.protocol := by
  obtain ⟨events, l, hrun, hl, hring'⟩ := addReceivedData_handled (R := ServerLink.receiver env)
    (P := fun l => P l.protocol) hring (by decide) hfit (by
      intro ring₀ ring bb hbb
      obtain ⟨bb', p', hcall, hbb', hp'⟩ := hhandle hbb
      refine ⟨bb', ⟨ring, p'⟩, ?_, hbb'.getReadableSpace, rfl, hp'⟩
      change (s.link.protocol.handlePacket env bb q.packetType >>= _) = _
      rw [hcall]
      rfl)
    (fun _ _ h => h)
  exact ⟨{ s with link := l }, .packet hrun, rfl, hring', hl⟩

theorem step_hello (env : Env) (hready : s.link.protocol.Ready)
    (hring : Holds s.link.receivedData (64 * 1024) [] []) (hstate : s.link.protocol.state = 1)
    (hip : s.link.protocol.client.ipString.length ≤ 60000) :
    ∃ s', Step env s (.packet helloPacket) s' ∧ s'.served = s.served
      ∧ Holds s'.link.receivedData (64 * 1024) [] []
      ∧ Kept { s.link.protocol with state := 2 } s'.link.protocol :=
  step_handled hring (by decide) fun hbb => by
    obtain ⟨bb', p', hcall, hbb', hsent⟩ := handlePacket_statusRequest env hready hstate (by decide)
      (by decide) hip hbb
    exact ⟨bb', p', hcall, hbb', hsent.kept⟩

theorem step_loginInfo (env : Env) (hring : Holds s.link.receivedData (64 * 1024) [] [])
    (hstate : s.link.protocol.state = 2) :
    ∃ s', Step env s (.packet loginInfoPacket) s' ∧ s'.served = s.served
      ∧ Holds s'.link.receivedData (64 * 1024) [] []
      ∧ s'.link.protocol = s.link.protocol.handleLogin (ascii "eve") (ascii "eve") :=
  step_handled (P := (· = _)) hring (by decide) fun hbb => by
    obtain ⟨bb', hcall, hbb'⟩ := handlePacket_loginInfo env hstate (by decide) hbb
    exact ⟨bb', _, hcall, hbb', rfl⟩

/-- The authenticator finds the only user in its queue. -/
theorem step_authenticator (env : Env) {p : ProtocolImpl} (hready : p.Ready)
    (hp : s.link.protocol = p.handleLogin (ascii "eve") (ascii "eve"))
    (hrequests : p.requests = []) (hserved : s.served = 0) :
    ∃ s', Step env s .authenticator s' ∧ s'.link.receivedData = s.link.receivedData
      ∧ s'.link.protocol.Ready ∧ s'.link.protocol.state = 3
      ∧ s'.link.protocol.isEncrypted = p.isEncrypted := by
  have hready' : s.link.protocol.Ready := by
    rw [hp]
    exact ⟨hready.out, hready.len⟩
  have hauthenticating : s.link.protocol.client.state = .csAuthenticating := by
    rw [hp]
    rfl
  have hqueue : s.queue = [(s.link.protocol.client.uniqueID, ascii "eve", ascii "eve")] := by
    rw [queue, hserved, hp]
    change List.drop 0 ((p.requests ++ [_]).filterMap Request.user) = _
    rw [hrequests]
    rfl
  obtain ⟨p', hauth, hsent⟩ :=
    authenticate_of_authenticating env hready' hauthenticating (ascii "eve") []
  refine ⟨⟨{ s.link with protocol := { p' with
      state := 3, client := { p'.client with state := .csAuthenticated } } }, s.served + 1⟩,
    .authenticator ?_, rfl, ⟨hsent.kept.ready.out, hsent.kept.ready.len⟩, rfl, ?_⟩
  · rw [executeAuthenticator, hqueue]
    simp only [authenticateUser, ne_eq, not_true_eq_false, if_false]
    rw [if_pos (by decide), hauth]
    rfl
  · change p'.isEncrypted = p.isEncrypted
    rw [hsent.kept.isEncrypted]
    change s.link.protocol.isEncrypted = p.isEncrypted
    rw [hp]
    rfl

end Steps

/-- Two packets and one round of the authenticator lead into the work state without any key. -/
theorem run_unencrypted (env : Env) {ipString : AString} (hip : ipString.length ≤ 60000)
    (uniqueID : Int32) (address : UInt64) :
    ∃ s, Run (Step env) (create ipString uniqueID address)
        [.packet helloPacket, .packet loginInfoPacket, .authenticator] s
      ∧ s.link.protocol.state = 3 ∧ s.link.protocol.isEncrypted = false := by
  have hstart := inv_create ipString uniqueID address
  obtain ⟨s₁, hhello, hserved₁, hring₁, hkept₁⟩ := step_hello env hstart.ready hstart.ring rfl hip
  obtain ⟨s₂, hinfo, hserved₂, -, hlogin⟩ := step_loginInfo env hring₁ hkept₁.state
  obtain ⟨s₃, hauth, -, -, hstate, hplain⟩ :=
    step_authenticator env hkept₁.ready hlogin hkept₁.requests (hserved₂.trans hserved₁)
  exact ⟨s₃, ((Run.nil.snoc hhello).snoc hinfo).snoc hauth, hstate, hplain.trans hkept₁.isEncrypted⟩

/-- A client that sends its user name before any key works in the clear. -/
theorem work_unencrypted :
    ¬ ∀ events s, Run (Step ServerLink.closedEnv) (create (ascii "10.0.0.7") 1 0x7f0010) events s →
      s.link.protocol.state = 3 → s.link.protocol.isEncrypted = true := by
  intro hclaim
  obtain ⟨s, hrun, hstate, hplain⟩ :=
    run_unencrypted ServerLink.closedEnv (show (ascii "10.0.0.7").length ≤ 60000 by decide) 1 0x7f0010
  have hencrypted := hclaim _ s hrun hstate
  rw [hplain] at hencrypted
  cases hencrypted

def loginStartPacket : Packet := ⟨0x00, fieldsBytes []⟩

def joinRoomPacket : Packet := ⟨0x01, fieldsBytes [.string (ascii "lobby")]⟩

def encryptionResponsePacket (encKey encNonce : AString) : Packet :=
  ⟨0x01, fieldsBytes (encryptionResponseFields encKey encNonce)⟩

theorem encryptionResponsePacket_frame_length {encKey encNonce : AString}
    (hkey : encKey.length = 128) (hnonce : encNonce.length = 128) :
    (encryptionResponsePacket encKey encNonce).frame.length ≤ 64 * 1024 := by
  have hbytes : (encryptionResponsePacket encKey encNonce).bytes.length
      = (varInt32 0x01).length + 260 := by
    change (varInt32 0x01 ++ fieldsBytes (encryptionResponseFields encKey encNonce)).length = _
    simp only [encryptionResponseFields, fieldsBytes_cons, fieldsBytes_nil, List.length_append,
      Field.bytes, bigEndian_length, List.length_nil, hkey, hnonce]
  have htype := varInt32_length_le 0x01
  have hlength := varInt32_length_le (UInt32.ofNat (encryptionResponsePacket encKey encNonce).bytes.length)
  calc (encryptionResponsePacket encKey encNonce).frame.length
      = (varInt32 (UInt32.ofNat (encryptionResponsePacket encKey encNonce).bytes.length)).length
        + (encryptionResponsePacket encKey encNonce).bytes.length := List.length_append
    _ ≤ 5 + (5 + 260) := Nat.add_le_add hlength (hbytes.le.trans (Nat.add_le_add_right htype 260))
    _ ≤ 64 * 1024 := by decide

section Steps

variable {s : Session}

theorem step_loginStart (hready : s.link.protocol.Ready)
    (hring : Holds s.link.receivedData (64 * 1024) [] []) (hstate : s.link.protocol.state = 2) :
    ∃ s', Step keyedEnv s (.packet loginStartPacket) s' ∧ s'.served = s.served
      ∧ Holds s'.link.receivedData (64 * 1024) [] [] ∧ Kept s.link.protocol s'.link.protocol :=
  step_handled hring (by decide) fun {bb} hbb => by
    obtain ⟨p', hcall, hsent⟩ : ∃ p', s.link.protocol.handlePacket keyedEnv bb 0x00 = .ok (true, bb, p')
        ∧ Sent keyedEnv s.link.protocol _ p' := handlePacket_loginStart hready hstate (by decide)
    exact ⟨_, p', hcall, hbb, hsent.kept⟩

theorem step_encryptionResponse (hready : s.link.protocol.Ready)
    (hring : Holds s.link.receivedData (64 * 1024) [] []) (hstate : s.link.protocol.state = 2)
    {key encKey encNonce : AString} (hlength : key.length = 16) (hkey : sealBytes key = some encKey)
    (hnonce : sealBytes (littleEndian 4 s.link.protocol.nonce.toNat) = some encNonce) :
    ∃ s', Step keyedEnv s (.packet (encryptionResponsePacket encKey encNonce)) s'
      ∧ s'.served = s.served ∧ Holds s'.link.receivedData (64 * 1024) [] []
      ∧ Kept (s.link.protocol.startEncryption (toBlock key)) s'.link.protocol := by
  obtain ⟨hkeyLength, hkeyOpens⟩ := decrypt_sealBytes hkey
  obtain ⟨hnonceLength, hnonceOpens⟩ := decrypt_sealBytes hnonce
  refine step_handled hring (encryptionResponsePacket_frame_length hkeyLength hnonceLength)
    fun hbb => ?_
  obtain ⟨bb', p', hcall, hbb', hsent⟩ := handlePacket_loginEncryptionResponse hready hstate
    (by omega) (by omega) hnonceOpens hkeyOpens hlength hbb
  exact ⟨bb', p', hcall, hbb', hsent.kept⟩

theorem step_joinRoom (env : Env) (hring : Holds s.link.receivedData (64 * 1024) [] [])
    (hstate : s.link.protocol.state = 3) :
    ∃ s', Step env s (.packet joinRoomPacket) s'
      ∧ s'.link.protocol.state = 3 ∧ s'.link.protocol.requests = s.link.protocol.requests
        ++ [.doUserJoinChannel s.link.protocol.client.uniqueID (ascii "lobby")] := by
  have hhandle : ∀ {bb}, joinRoomPacket.Buffered bb → ∃ bb' p',
      s.link.protocol.handlePacket env bb joinRoomPacket.packetType = .ok (true, bb', p')
        ∧ Holds bb' (joinRoomPacket.bytes.length + 1) (joinRoomPacket.bytes ++ [0]) [0]
        ∧ p'.state = 3 ∧ p'.requests = s.link.protocol.requests
          ++ [.doUserJoinChannel s.link.protocol.client.uniqueID (ascii "lobby")] := by
    intro bb hbb
    obtain ⟨bb', hcall, hbb'⟩ := handlePacket_joinRoom env hstate (by decide) hbb
    exact ⟨bb', _, hcall, hbb', hstate, rfl⟩
  obtain ⟨s', hstep, -, -, hs'⟩ := step_handled hring (by decide) hhandle
  exact ⟨s', hstep, hs'⟩

end Steps

/-- The client asks for the server's key, answers with its own, gives its user name, and joins a
room when it has been let in. -/
def loginEvents (encKey encNonce : AString) : List Event :=
  [.packet helloPacket, .packet loginStartPacket,
    .packet (encryptionResponsePacket encKey encNonce), .packet loginInfoPacket, .authenticator,
    .packet joinRoomPacket]

theorem work_encrypted_lobby :
    ∃ encKey encNonce s,
      Run (Guarded LoginGuard (Step keyedEnv)) (create (ascii "10.0.0.7") 1 0x7f0010)
          (loginEvents encKey encNonce) s
        ∧ s.link.protocol.state = 3 ∧ s.link.protocol.isEncrypted = true
        ∧ ∃ r ∈ s.link.protocol.requests, r.IsRoom := by
  have hstart := inv_create (ascii "10.0.0.7") 1 0x7f0010
  obtain ⟨s₁, hhello, hserved₁, hring₁, hkept₁⟩ :=
    step_hello keyedEnv hstart.ready hstart.ring rfl (by decide)
  obtain ⟨s₂, hask, hserved₂, hring₂, hkept₂⟩ := step_loginStart hkept₁.ready hring₁ hkept₁.state
  have hkept₂ := hkept₁.trans hkept₂
  obtain ⟨encKey, hencKey⟩ : ∃ encKey, sealBytes (ascii "0123456789abcdef") = some encKey := ⟨_, rfl⟩
  obtain ⟨encNonce, hencNonce⟩ :
      ∃ encNonce, sealBytes (littleEndian 4 s₂.link.protocol.nonce.toNat) = some encNonce := ⟨_, rfl⟩
  obtain ⟨s₃, hkey, hserved₃, hring₃, hkept₃⟩ :=
    step_encryptionResponse hkept₂.ready hring₂ hkept₂.state rfl hencKey hencNonce
  obtain ⟨s₄, hinfo, hserved₄, hring₄, hlogin⟩ :=
    step_loginInfo keyedEnv hring₃ (hkept₃.state.trans hkept₂.state)
  obtain ⟨s₅, hauth, hsame, hready₅, hstate₅, -⟩ := step_authenticator keyedEnv
    hkept₃.ready hlogin (hkept₃.requests.trans hkept₂.requests)
    (hserved₄.trans (hserved₃.trans (hserved₂.trans hserved₁)))
  obtain ⟨s₆, hjoin, hstate₆, hrequests⟩ :=
    step_joinRoom keyedEnv (hsame ▸ hring₄) hstate₅
  have hother : ∀ {s : Session} {q : Packet}, q.packetType ≠ 0x02 → LoginGuard s (.packet q) :=
    fun hne _ htype => absurd htype hne
  have hguard : LoginGuard s₃ (.packet loginInfoPacket) := fun _ _ _ => hkept₃.isEncrypted
  have hrun : Run (Guarded LoginGuard (Step keyedEnv)) (create (ascii "10.0.0.7") 1 0x7f0010)
      (loginEvents encKey encNonce) s₆ :=
    (((((Run.nil.snoc ⟨hother (by decide), hhello⟩).snoc ⟨hother (by decide), hask⟩).snoc
      ⟨hother (by simp [encryptionResponsePacket]), hkey⟩).snoc ⟨hguard, hinfo⟩).snoc
        ⟨trivial, hauth⟩).snoc ⟨hother (by decide), hjoin⟩
  have hencrypted := (work_encrypted _ _ _ _ _ s₆ hrun).1 hstate₆
  refine ⟨encKey, encNonce, s₆, hrun, hstate₆, hencrypted,
    .doUserJoinChannel s₅.link.protocol.client.uniqueID (ascii "lobby"), ?_, trivial⟩
  rw [hrequests]
  exact List.mem_append_right _ List.mem_cons_self

end Session

end Licode.Server
