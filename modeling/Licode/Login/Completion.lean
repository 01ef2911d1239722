import Licode.Login.Steps

/-!
# The login comes to its end

The rank of the stage never goes down, and each round of deliveries, a tick, a read and the authenticator raises it. So
no run is stuck before the client is signed in.
-/

namespace Licode

open ByteBuffer Receiver Server Client

section Completion

variable {u : Setup} {s : Connection} {floor : Nat} {waiting answers : List Packet}

/-! ### What a stage has on its way -/

section Ranks

variable {p : ProtocolImpl} {served rank : Nat} {c : ConnectionClient} {up down : Coding}

theorem Stage.rank_of_nothing_waiting (h : Stage u p served c rank [] answers up down) :
    rank ≠ 1 ∧ rank ≠ 3 ∧ rank ≠ 6 ∧ rank ≠ 8 := by
  generalize hwaiting : ([] : List Packet) = waiting at h
  cases h with
  | statusRequest | loginStart | keyResponse | loginInfo => cases hwaiting
  | _ => decide

theorem Stage.rank_of_nothing_answered (h : Stage u p served c rank waiting [] up down) :
    rank ≠ 2 ∧ rank ≠ 4 ∧ rank ≠ 7 ∧ rank ≠ 10 := by
  generalize hanswers : ([] : List Packet) = answers at h
  cases h with
  | statusResponse | keyRequest | loginAllow | loginSuccess => cases hanswers
  | _ => decide

theorem Stage.rank_ne_silent (h : Stage u p served c rank waiting answers up down) (hencrypts : ¬ u.EncryptFails) :
    rank ≠ 5 := by
  cases h with
  | silent hp hc hfails => exact absurd hfails hencrypts
  | _ => decide

theorem Stage.rank_of_queue {session : Session} (hqueue : session.queue = [])
    (h : Stage u session.link.protocol session.served c rank waiting answers up down) : rank ≠ 9 := by
  cases h with
  | authenticating hp hc =>
      rw [hp.queue_eq] at hqueue
      cases hqueue
  | _ => decide

theorem Stage.rank_of_connected (h : Stage u p served c rank waiting answers up down) (hconnect : c.bConnect = true) :
    1 ≤ rank := by
  cases h with
  | idle hp hc => exact absurd (hc.bConnect.symm.trans hconnect) Bool.false_ne_true
  | _ => decide

theorem Stage.state_of_last (h : Stage u p served c rank waiting answers up down) (hlast : 11 ≤ rank) :
    c.state = 3 := by
  cases h with
  | signedIn hp hc hid hasked hgame => exact hc.state
  | _ => exact absurd hlast (by decide)

end Ranks

/-! ### Rounds -/

/-- The ticks since the handle has received something. -/
def Connection.ticks (s : Connection) : Nat := s.session.link.protocol.client.ticksSinceLastPacket

/-- The rank of the stage itself as the floor. -/
theorem Agrees.at_rank (h : Agrees u s floor waiting) :
    ∃ rank answers up down, floor ≤ rank ∧ Agrees u s rank waiting
      ∧ Stage u s.session.link.protocol s.session.served s.client.client rank waiting answers up down
      ∧ Downstream u s.session.link.protocol s.client s.toClient s.clientTrace down answers := by
  obtain ⟨answers, up, down, ⟨rank, hfloor, hstage⟩, hup, hdown⟩ := h.stage
  refine ⟨rank, answers, up, down, hfloor, ?_, hstage, hdown⟩
  exact ⟨h.server, h.client, h.serverQuiet, h.clientQuiet, answers, up, down, ⟨rank, le_rfl, hstage⟩, hup, hdown⟩

/-- What the client has sent arrives. -/
theorem Agrees.deliver (h : Agrees u s floor waiting) :
    ∃ events s', Run (Connection.Step u) s events s' ∧ Agrees u s' floor waiting ∧ s'.client.client.sock = []
      ∧ s'.ticks ≤ s.ticks := by
  cases hsock : s.client.client.sock with
  | nil => exact ⟨[], s, .nil, h, hsock, le_rfl⟩
  | cons byte bytes =>
      have hall : s.client.client.sock = (byte :: bytes) ++ [] := by rw [hsock, List.append_nil]
      exact ⟨_, _, Run.nil.snoc (.onReceivedData (List.cons_ne_nil _ _) hall), onReceivedData_agrees h hall, rfl,
        Nat.zero_le _⟩

/-- A tick behind it handles all of it and sends all the answers. -/
theorem Agrees.drain (hu : u.Sound) (h : Agrees u s floor waiting) (hintime : s.ticks < 600) :
    ∃ events s', Run (Connection.Step u) s events s' ∧ Agrees u s' floor []
      ∧ s'.session.link.protocol.client.outgoingData = [] ∧ s'.ticks ≤ s.ticks + 1 := by
  obtain ⟨events, s₁, hrun, hagrees, hsock, hticks₁⟩ := h.deliver
  obtain ⟨received, sent, l, htick, hticks, htail⟩ := serverTick_agrees hu hagrees false
  have hintime₁ : s₁.ticks < 600 := hticks₁.trans_lt hintime
  obtain ⟨done, left, -, -, htaken, houtgoing, hagrees'⟩ := htail hintime₁
  have hnone : left = [] := by
    obtain ⟨answers, up, down, -, hup, -⟩ := hagrees'.stage
    unfold Upstream at hup
    dsimp only at hup
    rw [htaken, hsock] at hup
    exact hup.packets_eq_nil
  subst hnone
  have hstep : Connection.Step u s₁ (.serverTick false) _ := .serverTick htick (hticks.trans_le hintime₁)
  exact ⟨_, _, hrun.snoc hstep, hagrees', houtgoing rfl, hticks.trans_le (Nat.succ_le_succ hticks₁)⟩

/-- The client reads all that has been sent to it. -/
theorem Agrees.read (hu : u.Sound) (h : Agrees u s floor waiting) :
    ∃ events s' waiting', Run (Connection.Step u) s events s' ∧ Agrees u s' floor waiting' ∧ s'.toClient = []
      ∧ s'.session = s.session := by
  cases hwire : s.toClient with
  | nil => exact ⟨[], s, waiting, .nil, h, hwire, rfl⟩
  | cons byte bytes =>
      have hall : s.toClient = (byte :: bytes) ++ [] := by rw [hwire, List.append_nil]
      obtain ⟨received, l, more, hread, hagrees, -⟩ := onRead_agrees hu h hall
      exact ⟨_, _, _, Run.nil.snoc (.onRead (List.cons_ne_nil _ _) hall hread), hagrees, rfl, rfl⟩

/-- A round: each stage before the last is left in it. -/
theorem Agrees.round (hu : u.Sound) (hencrypts : ¬ u.EncryptFails) (h : Agrees u s floor waiting) (hfirst : 1 ≤ floor)
    (hlast : floor < 11) (hintime : s.ticks < 600) :
    ∃ events s' waiting', Run (Connection.Step u) s events s' ∧ Agrees u s' (floor + 1) waiting'
      ∧ s'.ticks ≤ s.ticks + 1 := by
  obtain ⟨_, s₁, hrun₁, hagrees₁, houtgoing, hticks₁⟩ := h.drain hu hintime
  obtain ⟨rank₁, answers₁, up₁, down₁, hle₁, hagrees₁, hstage₁, -⟩ := hagrees₁.at_rank
  have hdrained := hstage₁.rank_of_nothing_waiting
  obtain ⟨_, s₂, waiting₂, hrun₂, hagrees₂, hwire, hsession⟩ := hagrees₁.read hu
  obtain ⟨rank₂, answers₂, up₂, down₂, hle₂, hagrees₂, hstage₂, hdown₂⟩ := hagrees₂.at_rank
  have hread : rank₂ ≠ 2 ∧ rank₂ ≠ 4 ∧ rank₂ ≠ 7 ∧ rank₂ ≠ 10 := by
    unfold Downstream at hdown₂
    rw [hwire, hsession, houtgoing] at hdown₂
    cases hdown₂.packets_eq_nil
    exact hstage₂.rank_of_nothing_answered
  obtain ⟨session, hauth, hqueue, hticks₃, hagrees₃⟩ := executeAuthenticator_agrees hagrees₂
  obtain ⟨rank₃, answers₃, up₃, down₃, hle₃, hagrees₃, hstage₃, -⟩ := hagrees₃.at_rank
  have hserved : rank₃ ≠ 9 := hstage₃.rank_of_queue hqueue
  have hkeyed := hstage₃.rank_ne_silent hencrypts
  have hrun := (hrun₁.trans hrun₂).snoc (.executeAuthenticator hauth)
  refine ⟨_, _, waiting₂, hrun, hagrees₃.mono ?_, ?_⟩
  · omega
  · change session.link.protocol.client.ticksSinceLastPacket ≤ s.ticks + 1
    rw [hticks₃, hsession]
    exact hticks₁

theorem Agrees.completes (hu : u.Sound) (hencrypts : ¬ u.EncryptFails) (h : Agrees u s floor waiting)
    (hfirst : 1 ≤ floor) (hintime : s.ticks + (11 - floor) ≤ 600) :
    ∃ later s', Run (Connection.Step u) s later s' ∧ s'.client.client.state = 3 := by
  induction hrounds : 11 - floor generalizing s floor waiting with
  | zero =>
      obtain ⟨rank, answers, up, down, hle, -, hstage, -⟩ := h.at_rank
      exact ⟨[], s, .nil, hstage.state_of_last (by omega)⟩
  | succ rounds ih =>
      obtain ⟨_, s', waiting', hrun, hagrees, hticks⟩ := h.round hu hencrypts hfirst (by omega) (by omega)
      obtain ⟨_, s'', hlater, hstate⟩ := ih hagrees (by omega) (by omega) (by omega)
      exact ⟨_, s'', hrun.trans hlater, hstate⟩

/-- **Completion.** In no run is the login stuck: once `JoinChannel` has been called, the client can be signed in while
the handle has ten ticks left, if its key takes the secret and the nonce. -/
theorem login_completes (hu : u.Sound) (hencrypts : ¬ u.EncryptFails) {events : List Connection.Event}
    (hrun : Run (Connection.Step u) (Connection.start u) events s) (hconnecting : s.client.client.connecting = true)
    (hintime : s.ticks ≤ 590) : ∃ later s', Run (Connection.Step u) s later s' ∧ s'.client.client.state = 3 := by
  obtain ⟨-, -, -, waiting, -, -, -, hagrees⟩ := agrees_of_run hu agrees_start hrun
  cases hconnect : s.client.client.bConnect with
  | true =>
      obtain ⟨rank, answers, up, down, -, hagrees, hstage, -⟩ := hagrees.at_rank
      have hfirst := hstage.rank_of_connected hconnect
      exact hagrees.completes hu hencrypts hfirst (by omega)
  | false =>
      obtain ⟨c, hopen, -, hagrees⟩ := onConnect_agrees hagrees hconnect
      have hstep : Connection.Step u s .onConnect { s with client.client := c } := .onConnect hconnecting hconnect hopen
      have hintime' : Connection.ticks { s with client.client := c } ≤ 590 := hintime
      obtain ⟨later, s', hlater, hstate⟩ := hagrees.completes hu hencrypts le_rfl (by omega)
      exact ⟨_, s', Run.cons hstep hlater, hstate⟩

end Completion

end Licode
