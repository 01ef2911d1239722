import Licode.Channel.Peer
import Licode.Lib.Ownership
import Licode.Lib.Run

/-!
# The connections that a peer names

The muxer owns the connections of a peer: one by the text of each subscriber's id, and the publishing one.
The peer has plain pointers to them in a map of its own, by the id itself, and a second map with the listener
that each of them was given. A connection goes with its entry in the muxer, and a listener when the
subscriber does.
-/

namespace Licode.Channel

/-! ### The text of an id -/

theorem chars_ascii {s : String} (hs : ∀ char ∈ s.toList, char.toNat < 256) :
    (ascii s).map (fun byte => Char.ofNat byte.toNat) = s.toList := by
  calc (ascii s).map (fun byte => Char.ofNat byte.toNat) = s.toList.map id := by
        rw [ascii, List.map_map]
        apply List.map_congr_left
        intro char hchar
        have hbyte : (UInt8.ofNat char.toNat).toNat = char.toNat := UInt8.toNat_ofNat_of_lt (hs char hchar)
        rw [Function.comp_apply, hbyte, Char.ofNat_toNat, id]
    _ = s.toList := List.map_id _

theorem repr_toNat_lt {n : Nat} {char : Char} (h : char ∈ n.repr.toList) : char.toNat < 256 := by
  have hdigit : char.isDigit = true := by
    rw [Nat.toList_repr] at h
    exact Nat.isDigit_of_mem_toDigits (by decide) (by decide) h
  calc char.toNat ≤ '9'.toNat := (Char.isDigit_iff_toNat.mp hdigit).2
    _ < 256 := by decide

theorem natRepr_injective : Function.Injective Nat.repr := by
  intro n m h
  have hdigits : Nat.toDigits 10 n = Nat.toDigits 10 m := by
    rw [← Nat.toList_repr, ← Nat.toList_repr, h]
  calc n = Nat.ofDigitChars 10 (Nat.toDigits 10 n) 0 := Nat.ofDigitChars_ten_toDigits.symm
    _ = Nat.ofDigitChars 10 (Nat.toDigits 10 m) 0 := by rw [hdigits]
    _ = m := Nat.ofDigitChars_ten_toDigits

theorem natRepr_ne_minus (n m : Nat) : n.repr ≠ "-" ++ m.repr := by
  intro heq
  have hchars : n.repr.toList = '-' :: m.repr.toList := by
    rw [heq, String.toList_append]
    rfl
  have hdigit : Char.isDigit '-' = true := by
    apply Nat.isDigit_of_mem_toDigits (b := 10) (n := n) (by decide) (by decide)
    rw [← Nat.toList_repr, hchars]
    exact List.mem_cons_self
  exact absurd hdigit (by decide)

theorem intRepr_injective : Function.Injective Int.repr := by
  intro i j h
  rw [Int.repr_eq_if, Int.repr_eq_if] at h
  split at h <;> split at h
  · have hnat := natRepr_injective h
    omega
  · exact absurd h (natRepr_ne_minus _ _)
  · exact absurd h.symm (natRepr_ne_minus _ _)
  · have hnat := natRepr_injective ((String.append_right_inj _).mp h)
    omega

theorem printInt_injective : Function.Injective printInt := by
  have hlt : ∀ (i : Int), ∀ char ∈ (toString i).toList, char.toNat < 256 := by
    intro i char hchar
    rw [Int.toString_eq_repr, Int.repr_eq_if] at hchar
    split at hchar
    · exact repr_toNat_lt hchar
    · rw [String.toList_append, List.mem_append] at hchar
      rcases hchar with hchar | hchar
      · rw [List.mem_singleton.mp hchar]
        decide
      · exact repr_toNat_lt hchar
  intro id id' h
  have hchars : (toString id.toInt).toList = (toString id'.toInt).toList := by
    rw [← chars_ascii (hlt _), ← chars_ascii (hlt _)]
    exact congrArg _ h
  apply Int32.toInt_inj.mp
  apply intRepr_injective
  exact String.toList_injective hchars

/-! ### Maps as functions -/

section StdMap

variable {κ ν : Type} [Ord κ] [Std.TransOrd κ] [Std.LawfulEqOrd κ] [DecidableEq κ]

theorem StdMap.getElem?_insert_eq (m : StdMap κ ν) (key : κ) (value : ν) :
    (fun k => (m.insert key value)[k]?) = Function.update (fun k => m[k]?) key (some value) := by
  funext k
  rw [Std.ExtTreeMap.getElem?_insert, Function.update_apply]
  exact if_congr (Std.LawfulEqCmp.compare_eq_iff_eq.trans eq_comm) rfl rfl

theorem StdMap.getElem?_erase_eq (m : StdMap κ ν) (key : κ) :
    (fun k => (m.erase key)[k]?) = Function.update (fun k => m[k]?) key none := by
  funext k
  rw [Std.ExtTreeMap.getElem?_erase, Function.update_apply]
  exact if_congr (Std.LawfulEqCmp.compare_eq_iff_eq.trans eq_comm) rfl rfl

end StdMap

/-! ### Runs -/

/-- What is called on a peer. -/
inductive Call where
  | doJoin
  | onSubscribed (target : Int32)
  | onUnSubscribed (target : Int32)
  deriving DecidableEq, Repr

/-- A peer with the connections that have been destroyed. -/
structure Tracked where
  peer : Peer
  destroyed : List Nat

/-- The connection that a call takes from the muxer: `setPublisher` resets the pointer to the publishing one,
`addSubscriber` erases the one that it replaces and `removeSubscriber` the one that it is told of. -/
def Peer.released (p : Peer) : Call → Option Connection
  | .doJoin => p.publisher
  | .onSubscribed target | .onUnSubscribed target => p.muxer[printInt target]?

def Peer.call (p : Peer) : Call → Checked Peer
  | .doJoin => .ok p.doJoin.2
  | .onSubscribed target => p.onSubscribed target
  | .onUnSubscribed target => .ok (p.onUnSubscribed target)

namespace Tracked

def create (id : Int32) : Tracked := ⟨.create id, []⟩

/-- A call on a null pointer has no successor. -/
def next (s : Tracked) (call : Call) : Option Tracked :=
  (s.peer.call call).toOption.map fun peer =>
    ⟨peer, s.destroyed ++ ((s.peer.released call).map (·.object)).toList⟩

def Step (s : Tracked) (call : Call) (s' : Tracked) : Prop := s.next call = some s'

/-- The maps of a peer say the same of its subscribers, and what they name is there. -/
structure Agree (s : Tracked) : Prop where
  listeners_iff : ∀ k, k ∈ s.peer.eventListeners ↔ k ∈ s.peer.subscribers
  muxer_iff : ∀ text, text ∈ s.peer.muxer ↔ ∃ k ∈ s.peer.subscribers, text = printInt k
  owned : ∀ k conn, s.peer.subscribers[k]? = some conn →
    s.peer.muxer[printInt k]? = some conn ∧ conn.object ∉ s.destroyed
  found : ∀ target conn, s.peer.getConnectionById target = some conn → conn.object ∉ s.destroyed
  listener : ∀ (k : Int32) (conn : Connection) (listener : EventListener), s.peer.subscribers[k]? = some conn →
    s.peer.eventListeners[k]? = some listener → conn.listener = listener.object ∧ listener.object ∉ s.peer.deleted

/-- The connections of a peer: the publishing one has no key. -/
def connections (p : Peer) : Option Int32 → Option Nat
  | none => p.publisher.map (·.object)
  | some k => p.subscribers[k]?.map (·.object)

def listeners (p : Peer) (k : Int32) : Option Nat := p.eventListeners[k]?.map (·.object)

structure Inv (s : Tracked) : Prop where
  muxer : ∀ k, s.peer.muxer[printInt k]? = s.peer.subscribers[k]?
  text : ∀ text ∈ s.peer.muxer, ∃ k, text = printInt k
  listener : ∀ k, listeners s.peer k = s.peer.subscribers[k]?.map (·.listener)
  connections : Ownership (connections s.peer) s.destroyed s.peer.allocated
  listeners : Ownership (listeners s.peer) s.peer.deleted s.peer.allocated

theorem inv_create (id : Int32) : (create id).Inv := by
  have hsubscribers : ∀ k, (create id).peer.subscribers[k]? = none := fun _ => Std.ExtTreeMap.getElem?_empty
  have heventListeners : ∀ k, (create id).peer.eventListeners[k]? = none := fun _ => Std.ExtTreeMap.getElem?_empty
  have hmuxer : ∀ text, (create id).peer.muxer[text]? = none := fun _ => Std.ExtTreeMap.getElem?_empty
  have hconnections : Tracked.connections (create id).peer = fun _ => none := by
    funext key
    cases key with
    | none => rfl
    | some k => exact congrArg (Option.map Connection.object) (hsubscribers k)
  have hlisteners : Tracked.listeners (create id).peer = fun _ => none := by
    funext k
    exact congrArg (Option.map EventListener.object) (heventListeners k)
  constructor
  · intro k
    exact (hmuxer _).trans (hsubscribers k).symm
  · intro text htext
    rw [Std.ExtTreeMap.mem_iff_isSome_getElem?, hmuxer] at htext
    cases htext
  · intro k
    rw [hlisteners, hsubscribers]
    rfl
  · rw [hconnections]
    exact .empty _
  · rw [hlisteners]
    exact .empty _

/-- The lists of what has gone grow by an object that the map held. -/
theorem mem_released {held : Option Nat} {gone : Option Nat} {objects : List Nat} (hgone : gone = held) :
    ∀ y ∈ objects ++ gone.toList, y ∈ objects ∨ held = some y := by
  intro y hy
  rcases List.mem_append.mp hy with hy | hy
  · exact .inl hy
  · exact .inr (hgone ▸ Option.mem_toList.mp hy)

section Step

variable {s s' : Tracked}

theorem Step.parts {call : Call} (hstep : s.Step call s') : s.peer.call call = .ok s'.peer
    ∧ s'.destroyed = s.destroyed ++ ((s.peer.released call).map (·.object)).toList := by
  obtain ⟨peer, hcall, rfl⟩ := Option.map_eq_some_iff.mp hstep
  refine ⟨?_, rfl⟩
  cases hresult : s.peer.call call with
  | ok peer' =>
      rw [hresult] at hcall
      exact congrArg _ (Option.some.inj hcall)
  | error fault =>
      rw [hresult] at hcall
      cases hcall

theorem Inv.doJoin (h : s.Inv) (hstep : s.Step .doJoin s') : s'.Inv := by
  obtain ⟨hcall, hdestroyed⟩ := hstep.parts
  obtain ⟨peer, destroyed⟩ := s'
  cases hcall
  have hconnections : Tracked.connections s.peer.doJoin.2
      = Function.update (Tracked.connections s.peer) none (some (s.peer.allocated + 1)) := by
    funext key
    cases key with
    | none => rfl
    | some k => rfl
  refine ⟨h.muxer, h.text, h.listener, ?_, h.listeners.mono (Nat.le_add_right _ 2)⟩
  change Ownership (Tracked.connections s.peer.doJoin.2) _ (s.peer.allocated + 2)
  rw [hconnections]
  apply h.connections.put _ (Nat.le_succ _) (Nat.lt_succ_self _)
  exact hdestroyed ▸ mem_released rfl

/-- The three maps change at the same key, to a connection and the listener that it has been given. -/
theorem Inv.update (h : s.Inv) {target : Int32} {conn : Option Connection} {listener : Option EventListener}
    (hpublisher : s'.peer.publisher = s.peer.publisher)
    (hsubscribers : (fun k => s'.peer.subscribers[k]?)
      = Function.update (fun k => s.peer.subscribers[k]?) target conn)
    (heventListeners : (fun k => s'.peer.eventListeners[k]?)
      = Function.update (fun k => s.peer.eventListeners[k]?) target listener)
    (hmuxer : (fun text => s'.peer.muxer[text]?)
      = Function.update (fun text => s.peer.muxer[text]?) (printInt target) conn)
    (hgiven : listener.map (·.object) = conn.map (·.listener))
    (hconnections : Ownership (Function.update (Tracked.connections s.peer) (some target) (conn.map (·.object)))
      s'.destroyed s'.peer.allocated)
    (hlisteners : Ownership (Function.update (Tracked.listeners s.peer) target (listener.map (·.object)))
      s'.peer.deleted s'.peer.allocated) : s'.Inv := by
  have hlisteners_eq : Tracked.listeners s'.peer
      = Function.update (Tracked.listeners s.peer) target (listener.map (·.object)) := by
    change Option.map EventListener.object ∘ (fun k => s'.peer.eventListeners[k]?) = _
    rw [heventListeners, Function.comp_update]
    rfl
  have hconnections_eq : Tracked.connections s'.peer
      = Function.update (Tracked.connections s.peer) (some target) (conn.map (·.object)) := by
    funext key
    cases key with
    | none =>
        rw [Function.update_of_ne (Option.some_ne_none target).symm]
        exact congrArg (Option.map Connection.object) hpublisher
    | some k =>
        have hk : s'.peer.subscribers[k]? = if k = target then conn else s.peer.subscribers[k]? :=
          (congrFun hsubscribers k).trans (Function.update_apply _ _ _ _)
        rw [Tracked.connections, hk, Function.update_apply, apply_ite (Option.map Connection.object)]
        exact if_congr Option.some_inj.symm rfl rfl
  constructor
  · intro k
    calc s'.peer.muxer[printInt k]?
        = Function.update (fun text => s.peer.muxer[text]?) (printInt target) conn (printInt k) :=
          congrFun hmuxer _
      _ = Function.update (fun k => s.peer.muxer[printInt k]?) target conn k :=
          congrFun (Function.update_comp_eq_of_injective _ printInt_injective _ _) k
      _ = Function.update (fun k => s.peer.subscribers[k]?) target conn k := by rw [funext h.muxer]
      _ = s'.peer.subscribers[k]? := (congrFun hsubscribers k).symm
  · intro text htext
    by_cases heq : text = printInt target
    · exact ⟨target, heq⟩
    · have hold : s'.peer.muxer[text]? = s.peer.muxer[text]? :=
        (congrFun hmuxer text).trans (Function.update_of_ne heq _ _)
      rw [Std.ExtTreeMap.mem_iff_isSome_getElem?, hold, ← Std.ExtTreeMap.mem_iff_isSome_getElem?] at htext
      exact h.text text htext
  · intro k
    calc Tracked.listeners s'.peer k
        = Function.update (Tracked.listeners s.peer) target (conn.map (·.listener)) k := by
          rw [hlisteners_eq, hgiven]
      _ = (Option.map Connection.listener ∘ Function.update (fun k => s.peer.subscribers[k]?) target conn) k := by
          rw [Function.comp_update, funext h.listener]
          rfl
      _ = s'.peer.subscribers[k]?.map (·.listener) := by
          rw [← hsubscribers]
          rfl
  · rw [hconnections_eq]
    exact hconnections
  · rw [hlisteners_eq]
    exact hlisteners

theorem Inv.onSubscribed (h : s.Inv) {target : Int32} (hstep : s.Step (.onSubscribed target) s') : s'.Inv := by
  obtain ⟨hcall, hdestroyed⟩ := hstep.parts
  obtain ⟨peer, destroyed⟩ := s'
  have hpublisher : s.peer.publisher ≠ none := by
    intro hnone
    simp [Peer.call, Peer.onSubscribed, Peer.allocate, hnone] at hcall
  simp only [Peer.call, Peer.onSubscribed, Peer.allocate, hpublisher, if_false] at hcall
  cases hcall
  refine h.update rfl (StdMap.getElem?_insert_eq _ target _) (StdMap.getElem?_insert_eq _ target _)
    (StdMap.getElem?_insert_eq _ _ _) rfl ?_ ?_
  · apply h.connections.put _ (Nat.le_succ _) (Nat.lt_succ_self _)
    exact hdestroyed ▸ mem_released (congrArg _ (h.muxer target))
  · apply h.listeners.put _ (Nat.le_refl _) (Nat.lt_add_of_pos_right Nat.two_pos)
    exact fun _ => .inl

theorem Inv.onUnSubscribed (h : s.Inv) {target : Int32} (hstep : s.Step (.onUnSubscribed target) s') :
    s'.Inv := by
  obtain ⟨hcall, hdestroyed⟩ := hstep.parts
  obtain ⟨peer, destroyed⟩ := s'
  cases hcall
  refine h.update rfl (StdMap.getElem?_erase_eq _ target) (StdMap.getElem?_erase_eq _ target)
    (StdMap.getElem?_erase_eq _ _) rfl ?_ ?_
  · apply h.connections.drop
    exact hdestroyed ▸ mem_released (congrArg _ (h.muxer target))
  · apply h.listeners.drop
    exact mem_released rfl

theorem Inv.step (h : s.Inv) {call : Call} (hstep : s.Step call s') : s'.Inv := by
  cases call with
  | doJoin => exact h.doJoin hstep
  | onSubscribed target => exact h.onSubscribed hstep
  | onUnSubscribed target => exact h.onUnSubscribed hstep

end Step

theorem Inv.agree {s : Tracked} (h : s.Inv) : s.Agree where
  listeners_iff k := by
    have hsome := congrArg Option.isSome (h.listener k)
    rw [Tracked.listeners, Option.isSome_map, Option.isSome_map] at hsome
    rw [Std.ExtTreeMap.mem_iff_isSome_getElem?, hsome, Std.ExtTreeMap.mem_iff_isSome_getElem?]
  muxer_iff text := by
    constructor
    · intro htext
      obtain ⟨k, rfl⟩ := h.text text htext
      refine ⟨k, ?_, rfl⟩
      rw [Std.ExtTreeMap.mem_iff_isSome_getElem?, ← h.muxer k]
      exact Std.ExtTreeMap.mem_iff_isSome_getElem?.mp htext
    · rintro ⟨k, hk, rfl⟩
      rw [Std.ExtTreeMap.mem_iff_isSome_getElem?, h.muxer k]
      exact Std.ExtTreeMap.mem_iff_isSome_getElem?.mp hk
  owned k conn hconn :=
    ⟨(h.muxer k).trans hconn, h.connections.alive (some k) _ (congrArg (Option.map Connection.object) hconn)⟩
  found target conn hconn := by
    rw [Peer.getConnectionById] at hconn
    split at hconn
    · exact h.connections.alive none _ (congrArg (Option.map Connection.object) hconn)
    · exact h.connections.alive (some target) _ (congrArg (Option.map Connection.object) hconn)
  listener k conn listener hconn hlistener := by
    have hlistening : Tracked.listeners s.peer k = some listener.object :=
      congrArg (Option.map EventListener.object) hlistener
    have hgiven : some listener.object = some conn.listener := by
      rw [← hlistening, h.listener k, hconn]
      rfl
    exact ⟨(Option.some.inj hgiven).symm, h.listeners.alive k _ hlistening⟩

/-- In every state that a peer comes to, by whatever ids it is called with, its maps agree. -/
theorem maps_agree {id : Int32} {calls : List Call} {s : Tracked} (hrun : Run Step (create id) calls s) :
    s.Agree :=
  (hrun.invariant (inv_create id) fun h hstep => h.step hstep).agree

/-- A subscriber comes twice, a stranger goes, and the peer's own client subscribes. -/
theorem maps_agree_twice : ∃ s : Tracked,
    Run Step (create 1) [.doJoin, .onSubscribed 5, .onSubscribed 5, .onUnSubscribed 7, .onSubscribed 1] s
      ∧ s.destroyed = [3] ∧ s.Agree := by
  have hdestroyed : ([.doJoin, .onSubscribed 5, .onSubscribed 5, .onUnSubscribed 7, .onSubscribed 1].foldlM next
      (create 1)).map Tracked.destroyed = some [3] := rfl
  obtain ⟨s, hs, hdestroyed⟩ := Option.map_eq_some_iff.mp hdestroyed
  have hrun := Run.of_foldlM hs
  exact ⟨s, hrun, hdestroyed, maps_agree hrun⟩

end Tracked

end Licode.Channel
