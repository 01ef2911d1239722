import Licode.Lib.Outcome
import Licode.Server.LoginHandlers
import Licode.Server.Malformed

/-!
# The checks of a link that end the process

A failed `VERIFY` ends the process, so it has to be shown that none fails on a link, whatever bytes
arrive: the answers of the handlers fit into the out buffer, and a string that has been read was
not longer than its frame. An exception ends it too where nothing catches it. Other ways to stop
being meaningful are left open (`Passes`).
-/

namespace Licode

open ByteBuffer ByteImage

/-- The faults with which the process is gone. -/
inductive Fault.Exits : Fault → Prop
  | verification : Exits .verification
  | exception : Exits .exception

/-- The computation returns a value with the postcondition, or it stops without an exit. -/
abbrev Passes {α : Type} (post : α → Prop) (x : Checked α) : Prop :=
  Ends (fun e => ¬ Fault.Exits e) post x

/-! ### Readers -/

/-- The reader moves its cursor and finds what the reader on lists finds. -/
def ReadTo {α : Type} (field : Fields α) (n : Nat) (items rest : List UInt8)
    (r : Option α × ByteBuffer) : Prop :=
  (r.1 = none ∧ ∃ rest', Holds r.2 n items rest')
    ∨ ∃ v rest', r.1 = some v ∧ field rest = some (v, rest') ∧ Holds r.2 n items rest'

def Reads {α : Type} (read : ByteBuffer → Checked (Option α × ByteBuffer)) (field : Fields α) :
    Prop :=
  ∀ {n : Nat} {b : ByteBuffer} {items rest : List UInt8}, Holds b n items rest →
    Passes (ReadTo field n items rest) (read b)

namespace Server

/-- The result of the request can be told to the client. -/
def Request.Short : Request → Prop
  | .doUserJoinChannel _ channel | .doUserLeftChannel _ channel =>
      (stringBytes channel).length + 2 ≤ 64 * 1024
  | .authenticate _ _ _ | .onMsgFromPeer _ _ _ _ => True

namespace ProtocolImpl

/-- What every call on a link keeps. -/
structure Settles (p p' : ProtocolImpl) : Prop where
  ready : Ready p'
  ipString : p'.client.ipString = p.client.ipString
  requests : ∃ new, p'.requests = p.requests ++ new ∧ ∀ r ∈ new, r.Short

theorem Settles.refl {p : ProtocolImpl} (hready : Ready p) : Settles p p :=
  ⟨hready, rfl, [], (List.append_nil _).symm, nofun⟩

theorem Settles.trans {p p₁ p' : ProtocolImpl} (h : Settles p p₁) (h' : Settles p₁ p') :
    Settles p p' := by
  obtain ⟨new, hnew, hshort⟩ := h.requests
  obtain ⟨more, hmore, hshort'⟩ := h'.requests
  refine ⟨h'.ready, h'.ipString.trans h.ipString, new ++ more, ?_, ?_⟩
  · rw [hmore, hnew, List.append_assoc]
  · intro r hr
    rcases List.mem_append.mp hr with hr | hr
    · exact hshort r hr
    · exact hshort' r hr

section Passes

variable {env : Env} {p : ProtocolImpl}

variable {n : Nat} {bb : ByteBuffer} {items rest : List UInt8}

end Passes

end ProtocolImpl

namespace ServerLink

open ProtocolImpl

/-- A link between two calls. -/
structure Sane (l : ServerLink) : Prop where
  ready : l.protocol.Ready
  ring : ∃ bytes, Holds l.receivedData (64 * 1024) bytes bytes
  ipString : l.protocol.client.ipString.length ≤ 60000

/-- What a call on a link keeps. -/
def Keeps (l l' : ServerLink) : Prop :=
  (∃ bytes, Holds l'.receivedData (64 * 1024) bytes bytes) ∧ Settles l.protocol l'.protocol

theorem Sane.keeps {l l' : ServerLink} (h : Sane l) (hkeeps : Keeps l l') : Sane l' :=
  ⟨hkeeps.2.ready, hkeeps.1, hkeeps.2.ipString ▸ h.ipString⟩

theorem Keeps.trans {l l₁ l' : ServerLink} (h : Keeps l l₁) (h' : Keeps l₁ l') : Keeps l l' :=
  ⟨h'.1, h.2.trans h'.2⟩

theorem Sane.refl {l : ServerLink} (h : Sane l) : Keeps l l := ⟨h.ring, .refl h.ready⟩

section Passes

variable {env : Env} {l : ServerLink}

end Passes

end ServerLink

end Server

end Licode
