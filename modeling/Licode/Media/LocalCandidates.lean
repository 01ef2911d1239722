import Licode.Media.SdpInfo

/-!
# Local candidates on their way to the listener

The agent keeps a list of local candidates for each component, which grows at its end, and calls back
when it has grown. `getCandidate` reports what is new in the list of the component, and tells what is
new by `candsDelivered_`: one counter for all components. With one component it counts what has been
seen of the one list. With two it is an index into the wrong list as soon as the other component has
had a candidate.
-/

namespace Licode.Media

/-- A local candidate of the agent; addresses are given as `nice_address_to_string` writes them. -/
structure AgentCandidate where
  type : HostType
  componentId : UInt32
  foundation : AString
  priority : UInt32
  address : AString
  port : Int32
  baseAddress : AString
  basePort : Int32
  deriving DecidableEq

/-- `strstr(address, ":") == NULL`. -/
def AgentCandidate.isIPv4 (cand : AgentCandidate) : Bool := !cand.address.contains 58

/-- A `NiceConnection` as far as `getCandidate` uses it. `localCandidates` is what
`nice_agent_get_local_candidates` returns. `reported` is the log of `onCandidate`, and `seen` how long
the list of a component was at its last callback; both are not in the source. -/
structure Gathering where
  mediaType : MediaType
  transportName : AString
  ufrag : AString
  upass : AString
  iceComponents : Nat
  candsDelivered : UInt32
  localCandidates : UInt32 → List AgentCandidate
  reported : List Sdp.CandidateInfo
  seen : UInt32 → Nat

namespace Gathering

/-- `comps` of the constructor of `DtlsTransport`. -/
def components (rtcpMux : Bool) : Nat := if rtcpMux then 1 else 2

def create (mediaType : MediaType) (transportName ufrag upass : AString) (rtcpMux : Bool) :
    Gathering where
  mediaType := mediaType
  transportName := transportName
  ufrag := ufrag
  upass := upass
  iceComponents := components rtcpMux
  candsDelivered := 0
  localCandidates := fun _ => []
  reported := []
  seen := fun _ => 0

def candidateInfo (g : Gathering) (cand : AgentCandidate) : Sdp.CandidateInfo :=
  let hasBase := cand.type = .srflx ∨ cand.type = .relay
  { isBundle := false
    priority := cand.priority
    componentId := cand.componentId
    foundation := cand.foundation
    hostAddress := cand.address
    rAddress := if hasBase then cand.baseAddress else []
    hostPort := cand.port
    rPort := if hasBase then cand.basePort else 0
    netProtocol := ascii "udp"
    hostType := cand.type
    transProtocol := g.transportName
    username := g.ufrag
    password := g.upass
    mediaType := g.mediaType }

/-- The body of the loop of `getCandidate`. -/
def deliver (g : Gathering) (cand : AgentCandidate) : Gathering :=
  let g := { g with candsDelivered := g.candsDelivered + 1 }
  if cand.isIPv4 then { g with reported := g.reported ++ [g.candidateInfo cand] } else g

/-- The candidates that the loop goes over. -/
def newCandidates (g : Gathering) (componentId : UInt32) : List AgentCandidate :=
  let lcands := g.localCandidates componentId
  if g.candsDelivered ≤ UInt32.ofNat lcands.length then lcands.drop g.candsDelivered.toNat else lcands

def getCandidate (g : Gathering) (componentId : UInt32) : Gathering :=
  { (g.newCandidates componentId).foldl deliver g with
    seen := Function.update g.seen componentId (g.localCandidates componentId).length }

inductive Event where
  /-- The list of a component grows. -/
  | grow (componentId : UInt32) (more : List AgentCandidate)
  | cbNewCandidate (componentId : UInt32)

/-- The components count from 1, and a list has the candidates of its component. -/
def Enabled (g : Gathering) : Event → Prop
  | .grow componentId more =>
      (1 ≤ componentId.toNat ∧ componentId.toNat ≤ g.iceComponents)
        ∧ ∀ cand ∈ more, cand.componentId = componentId
  | .cbNewCandidate componentId => 1 ≤ componentId.toNat ∧ componentId.toNat ≤ g.iceComponents

def next (g : Gathering) : Event → Gathering
  | .grow componentId more =>
      { g with
        localCandidates := Function.update g.localCandidates componentId
          (g.localCandidates componentId ++ more) }
  | .cbNewCandidate componentId => g.getCandidate componentId

instance (g : Gathering) : ∀ event, Decidable (Enabled g event)
  | .grow _ _ | .cbNewCandidate _ => inferInstanceAs (Decidable (_ ∧ _))

def tryNext (g : Gathering) (event : Event) : Option Gathering :=
  if Enabled g event then some (g.next event) else none

def Step (g : Gathering) (event : Event) (g' : Gathering) : Prop := g.tryNext event = some g'

/-- What there is to report of a component: the IPv4 candidates of its list as it was seen last. -/
def present (g : Gathering) (componentId : UInt32) : List Sdp.CandidateInfo :=
  (((g.localCandidates componentId).take (g.seen componentId)).filter (·.isIPv4)).map g.candidateInfo

/-- What has been reported is what there is, for each component in the order of its list. -/
def ReportedOnce (g : Gathering) : Prop :=
  ∀ componentId : UInt32,
    g.reported.filter (·.componentId = componentId) = g.present componentId

/-- The counter is the number of candidates that have been seen of this component, or it is out of the
range of a list of which none has. -/
def CountGuard (g : Gathering) : Event → Prop
  | .grow _ _ => True
  | .cbNewCandidate componentId =>
      (g.localCandidates componentId).length < 2 ^ 32
        ∧ (g.candsDelivered.toNat = g.seen componentId
          ∨ g.seen componentId = 0
            ∧ (g.localCandidates componentId).length < g.candsDelivered.toNat)

/-! ### One callback -/

theorem foldl_deliver (cands : List AgentCandidate) (g : Gathering) :
    cands.foldl deliver g = { g with
      candsDelivered := g.candsDelivered + UInt32.ofNat cands.length
      reported := g.reported ++ (cands.filter (·.isIPv4)).map g.candidateInfo } := by
  induction cands generalizing g with
  | nil => simp
  | cons cand cands ih =>
      have hcount : UInt32.ofNat (cand :: cands).length = 1 + UInt32.ofNat cands.length := by
        rw [List.length_cons, Nat.add_comm, UInt32.ofNat_add]
        rfl
      rw [List.foldl_cons, ih, hcount, ← UInt32.add_assoc]
      unfold deliver
      cases hcand : cand.isIPv4 with
      | false =>
          rw [List.filter_cons_of_neg (by simp [hcand])]
          rfl
      | true =>
          rw [List.filter_cons_of_pos hcand, List.map_cons]
          simp only [if_true, List.append_assoc, List.singleton_append]
          rfl

/-- In a callback that meets the condition the loop goes over what has not been seen. -/
theorem newCandidates_of_guard {g : Gathering} {componentId : UInt32}
    (hseen : g.seen componentId ≤ (g.localCandidates componentId).length)
    (hguard : g.CountGuard (.cbNewCandidate componentId)) :
    g.newCandidates componentId
      = (g.localCandidates componentId).drop (g.seen componentId) := by
  obtain ⟨hlength, hcount⟩ := hguard
  have hofNat : (UInt32.ofNat (g.localCandidates componentId).length).toNat
      = (g.localCandidates componentId).length := by
    rw [UInt32.toNat_ofNat', Nat.mod_eq_of_lt hlength]
  have hle : g.candsDelivered ≤ UInt32.ofNat (g.localCandidates componentId).length
      ↔ g.candsDelivered.toNat ≤ (g.localCandidates componentId).length := by
    rw [UInt32.le_iff_toNat_le, hofNat]
  unfold newCandidates
  rcases hcount with hcount | ⟨hnone, hcount⟩
  · rw [if_pos (hle.mpr (by omega)), hcount]
  · rw [if_neg (fun h => by have := hle.mp h; omega), hnone, List.drop_zero]

/-! ### Runs -/

structure Inv (g : Gathering) : Prop where
  seen : ∀ componentId, g.seen componentId ≤ (g.localCandidates componentId).length
  component : ∀ componentId, ∀ cand ∈ g.localCandidates componentId, cand.componentId = componentId
  reported : g.ReportedOnce

theorem inv_create (mediaType : MediaType) (transportName ufrag upass : AString) (rtcpMux : Bool) :
    Inv (create mediaType transportName ufrag upass rtcpMux) where
  seen _ := le_rfl
  component _ := by simp [create]
  reported _ := rfl

theorem Inv.grow {g : Gathering} (h : Inv g) {componentId : UInt32} {more : List AgentCandidate}
    (hmore : ∀ cand ∈ more, cand.componentId = componentId) :
    Inv (g.next (.grow componentId more)) := by
  have hlist : ∀ other, ∃ added, (g.next (.grow componentId more)).localCandidates other
      = g.localCandidates other ++ added ∧ ∀ cand ∈ added, cand.componentId = other := by
    intro other
    by_cases heq : other = componentId
    · subst heq
      exact ⟨more, Function.update_self .., hmore⟩
    · refine ⟨[], ?_, by simp⟩
      rw [List.append_nil]
      exact Function.update_of_ne heq ..
  refine ⟨?_, ?_, ?_⟩
  · intro other
    obtain ⟨added, hadded, -⟩ := hlist other
    rw [hadded, List.length_append]
    exact (h.seen other).trans (Nat.le_add_right _ _)
  · intro other cand hcand
    obtain ⟨added, hadded, hcomponent⟩ := hlist other
    rw [hadded] at hcand
    rcases List.mem_append.mp hcand with hcand | hcand
    · exact h.component other cand hcand
    · exact hcomponent cand hcand
  · intro other
    obtain ⟨added, hadded, -⟩ := hlist other
    have hpresent : (g.next (.grow componentId more)).present other = g.present other := by
      unfold present
      rw [hadded]
      change List.map g.candidateInfo (List.filter _ ((g.localCandidates other ++ added).take
        (g.seen other))) = _
      rw [List.take_append_of_le_length (h.seen other)]
    rw [hpresent]
    exact h.reported other

/-- What has not been seen of the list of a component. -/
def fresh (g : Gathering) (componentId : UInt32) : List AgentCandidate :=
  (g.localCandidates componentId).drop (g.seen componentId)

theorem next_cbNewCandidate {g : Gathering} {componentId : UInt32}
    (hseen : g.seen componentId ≤ (g.localCandidates componentId).length)
    (hguard : g.CountGuard (.cbNewCandidate componentId)) :
    g.next (.cbNewCandidate componentId) = { g with
      candsDelivered := g.candsDelivered + UInt32.ofNat (g.fresh componentId).length
      reported := g.reported ++ ((g.fresh componentId).filter (·.isIPv4)).map g.candidateInfo
      seen := Function.update g.seen componentId (g.localCandidates componentId).length } := by
  rw [next, getCandidate, newCandidates_of_guard hseen hguard, foldl_deliver]
  rfl

theorem Inv.cbNewCandidate {g : Gathering} (h : Inv g) {componentId : UInt32}
    (hguard : g.CountGuard (.cbNewCandidate componentId)) :
    Inv (g.next (.cbNewCandidate componentId)) := by
  have hinfo : ∀ info ∈ ((g.fresh componentId).filter (·.isIPv4)).map g.candidateInfo,
      info.componentId = componentId := by
    intro info hmem
    obtain ⟨cand, hcand, rfl⟩ := List.mem_map.mp hmem
    exact h.component componentId cand (List.mem_of_mem_drop (List.mem_of_mem_filter hcand))
  rw [next_cbNewCandidate (h.seen componentId) hguard]
  refine ⟨?_, h.component, ?_⟩
  · intro other
    by_cases heq : other = componentId
    · subst heq
      simp
    · simpa [Function.update_of_ne heq] using h.seen other
  · intro other
    change List.filter _ (g.reported ++ _) = (((g.localCandidates other).take
      (Function.update g.seen componentId (g.localCandidates componentId).length other)).filter
        (·.isIPv4)).map g.candidateInfo
    rw [List.filter_append, h.reported other, present]
    by_cases heq : other = componentId
    · subst heq
      rw [List.filter_eq_self.mpr fun info hmem => decide_eq_true (hinfo info hmem)]
      rw [Function.update_self, List.take_length, ← List.map_append, ← List.filter_append, fresh,
        List.take_append_drop]
    · have hnone : List.filter (fun info => decide (info.componentId = other))
          (((g.fresh componentId).filter (·.isIPv4)).map g.candidateInfo) = [] := by
        rw [List.filter_eq_nil_iff]
        intro info hmem
        rw [hinfo info hmem, decide_eq_true_eq]
        exact fun h => heq h.symm
      rw [hnone, List.append_nil, Function.update_of_ne heq]

theorem Inv.step {g g' : Gathering} {event : Event} (h : Inv g)
    (hstep : Guarded CountGuard Step g event g') : Inv g' := by
  obtain ⟨hguard, hstep⟩ := hstep
  unfold Step tryNext at hstep
  split at hstep <;> cases hstep
  next henabled =>
    cases event with
    | grow componentId more => exact h.grow henabled.2
    | cbNewCandidate componentId => exact h.cbNewCandidate hguard

/-- **Each candidate once.** In every run in which the counter has, at each callback, what has been
seen of the component, or is out of the range of a list of which nothing has, the IPv4 candidates of
the lists as they were seen last have been reported, each once and in order. -/
theorem reported_once (mediaType : MediaType) (transportName ufrag upass : AString) (rtcpMux : Bool)
    (events : List Event) (g : Gathering)
    (hrun : Run (Guarded CountGuard Step) (create mediaType transportName ufrag upass rtcpMux)
      events g) : g.ReportedOnce :=
  have hinv : Inv g := hrun.invariant (inv_create _ _ _ _ rtcpMux) Inv.step
  hinv.reported

/-! ### One component -/

/-- With one component the counter has what has been seen of its list. -/
def Counted (g : Gathering) : Prop :=
  g.iceComponents = 1 ∧ g.candsDelivered.toNat = g.seen 1

theorem length_localCandidates_le {g g' : Gathering} {event : Event} (hstep : Step g event g')
    (componentId : UInt32) :
    (g.localCandidates componentId).length ≤ (g'.localCandidates componentId).length := by
  unfold Step tryNext at hstep
  split at hstep <;> cases hstep
  cases event with
  | grow other more =>
      change _ ≤ (Function.update g.localCandidates other _ componentId).length
      by_cases heq : componentId = other
      · subst heq
        simp
      · rw [Function.update_of_ne heq]
  | cbNewCandidate other =>
      change _ ≤ (((g.newCandidates other).foldl deliver g).localCandidates componentId).length
      rw [foldl_deliver]

theorem Counted.step {g g' : Gathering} {event : Event} (h : Inv g) (hcounted : g.Counted)
    (hshort : (g.localCandidates 1).length < 2 ^ 32) (hstep : Step g event g') :
    CountGuard g event ∧ g'.Counted := by
  obtain ⟨hone, hcount⟩ := hcounted
  unfold Step tryNext at hstep
  split at hstep <;> cases hstep
  next henabled =>
    cases event with
    | grow componentId more => exact ⟨trivial, hone, hcount⟩
    | cbNewCandidate componentId =>
        obtain rfl : componentId = 1 := by
          obtain ⟨hlow, hhigh⟩ := henabled
          rw [hone] at hhigh
          exact UInt32.toNat_inj.mp (Nat.le_antisymm hhigh hlow)
        have hguard : g.CountGuard (.cbNewCandidate 1) := ⟨hshort, .inl hcount⟩
        rw [next_cbNewCandidate (h.seen 1) hguard]
        refine ⟨hguard, hone, ?_⟩
        have hseen := h.seen 1
        change (g.candsDelivered + UInt32.ofNat (g.fresh 1).length).toNat
          = Function.update g.seen 1 (g.localCandidates 1).length 1
        rw [Function.update_self, fresh, List.length_drop, UInt32.toNat_add, UInt32.toNat_ofNat',
          hcount]
        omega

/-- With one component every run that the counter can count is within the condition. -/
theorem guarded_of_rtcpMux {mediaType : MediaType} {transportName ufrag upass : AString}
    {events : List Event} {g : Gathering}
    (hrun : Run Step (create mediaType transportName ufrag upass true) events g)
    (hshort : (g.localCandidates 1).length < 2 ^ 32) :
    Run (Guarded CountGuard Step) (create mediaType transportName ufrag upass true) events g
      ∧ Inv g ∧ g.Counted := by
  induction hrun with
  | nil => exact ⟨.nil, inv_create _ _ _ _ true, rfl, rfl⟩
  | snoc _ hstep ih =>
      have hshort' := lt_of_le_of_lt (length_localCandidates_le hstep 1) hshort
      obtain ⟨hrun, hinv, hcounted⟩ := ih hshort'
      obtain ⟨hguard, hcounted'⟩ := hcounted.step hinv hshort' hstep
      exact ⟨hrun.snoc ⟨hguard, hstep⟩, hinv.step ⟨hguard, hstep⟩, hcounted'⟩

/-- One component: a candidate, another one, and an IPv6 candidate that is passed over. -/
def oneComponent : List Event :=
  [.grow 1 [⟨.host, 1, ascii "1", 7, ascii "10.0.0.1", 5000, [], 0⟩], .cbNewCandidate 1,
    .grow 1 [⟨.host, 1, ascii "2", 6, ascii "fe80::1", 5000, [], 0⟩], .cbNewCandidate 1,
    .grow 1 [⟨.srflx, 1, ascii "3", 5, ascii "192.0.2.1", 5000, ascii "10.0.0.1", 5000⟩],
    .cbNewCandidate 1]

theorem reported_once_rtcpMux :
    ∃ g, Run (Guarded CountGuard Step)
        (create .video (ascii "video") (ascii "u") (ascii "p") true) oneComponent g
      ∧ g.reported.length = 2 ∧ g.ReportedOnce := by
  have hrun : ∃ g, oneComponent.foldlM tryNext
      (create .video (ascii "video") (ascii "u") (ascii "p") true) = some g
        ∧ g.reported.length = 2 ∧ (g.localCandidates 1).length = 3 := ⟨_, rfl, rfl, rfl⟩
  obtain ⟨g, hg, htwo, hthree⟩ := hrun
  have hrun := (guarded_of_rtcpMux (Run.of_foldlM hg) (by rw [hthree]; decide)).1
  exact ⟨g, hrun, htwo, reported_once .video _ _ _ true oneComponent g hrun⟩

/-- Two components, with one candidate each. -/
def twoComponents : List Event :=
  [.grow 1 [⟨.host, 1, ascii "1", 7, ascii "10.0.0.1", 5000, [], 0⟩], .cbNewCandidate 1,
    .grow 2 [⟨.host, 2, ascii "1", 6, ascii "10.0.0.1", 5001, [], 0⟩], .cbNewCandidate 2]

/-- The candidate of the second component is never reported. -/
theorem candidate_skipped :
    ¬ ∀ (rtcpMux : Bool) (events : List Event) (g : Gathering),
      Run Step (create .video (ascii "video") (ascii "u") (ascii "p") rtcpMux) events g →
      g.ReportedOnce := by
  intro hclaim
  have hrun : ∃ g, twoComponents.foldlM tryNext
      (create .video (ascii "video") (ascii "u") (ascii "p") false) = some g
        ∧ g.reported.filter (·.componentId = 2) ≠ g.present 2 := ⟨_, rfl, by decide⟩
  obtain ⟨g, hg, hmissing⟩ := hrun
  exact hmissing (hclaim false twoComponents g (Run.of_foldlM hg) 2)

end Gathering

end Licode.Media
