import Licode.Channel.Manager
import Licode.Lib.Run

/-!
# What the members of a channel are told

Runs of `JOIN` and `LEAVE` events and of ready events of the members' publishing connections, on any
channels. A member that folds the online and offline notices it has got since it joined knows who
else is there, as long as nobody joins who is already a member. A publisher is announced once to
every member, and only when it publishes, as long as members become ready in the order in which the
announcements assume it: `BroadcastJoinChannel` announces every other member as a publisher without
asking whether it is one.
-/

namespace Licode.Channel.Manager

open Roster (inbox view AnnouncedOnce)

/-- One event on a channel. -/
def next (parse : AString → Parsed) (m : Manager) (label : AString × Roster.Event Int32) :
    Option Manager :=
  match label.2 with
  | .join clientID => (m.dealEvent parse (mediaEvent .join clientID label.1)).toOption
  | .leave clientID => (m.dealEvent parse (mediaEvent .leave clientID label.1)).toOption
  | .ready clientID => m.notifyClient label.1 clientID .connReady

def Step (parse : AString → Parsed) (m : Manager) (label : AString × Roster.Event Int32)
    (m' : Manager) : Prop :=
  m.next parse label = some m'

/-- What the server was given between two states of a run. -/
def outputsSince (m start : Manager) : List Output := m.outputs.drop start.outputs.length

def IsMember (m : Manager) (channel : AString) (clientID : Int32) : Prop :=
  ∃ room, m.rooms[channel]? = some room ∧ clientID ∈ room.clients

def IsReady (m : Manager) (channel : AString) (clientID : Int32) : Prop :=
  ∃ room peer, m.rooms[channel]? = some room ∧ room.clients[clientID]? = some (some peer)
    ∧ peer.ready = true

theorem isMember_iff {m : Manager} {channel : AString} {clientID : Int32} :
    m.IsMember channel clientID ↔ m.status channel clientID ≠ none := by
  unfold IsMember status doGetRoomSet
  cases hroom : m.rooms[channel]? with
  | none => simp [Room.status, Room.create]
  | some room => simp [Room.status_ne_none]

theorem isReady_iff {m : Manager} {channel : AString} {clientID : Int32} :
    m.IsReady channel clientID ↔ m.status channel clientID = some true := by
  unfold IsReady status doGetRoomSet
  cases hroom : m.rooms[channel]? with
  | none => simp [Room.status, Room.create]
  | some room =>
      cases hentry : room.clients[clientID]? with
      | none => simp [Room.status, hentry]
      | some entry => cases entry <;> simp [Room.status, hentry]

variable {parse : AString → Parsed}

theorem Step.performs {m m' : Manager} {label : AString × Roster.Event Int32} (hsound : m.Sound)
    (hstep : Step parse m label m') : m.Performs label.1 label.2 m' := by
  obtain ⟨channel, event⟩ := label
  cases event with
  | join clientID =>
      obtain ⟨m₁, hcall, hperforms⟩ := performs_join parse hsound clientID channel
      simp only [Step, next, hcall, Except.toOption, Option.some.injEq] at hstep
      subst hstep
      exact hperforms
  | leave clientID =>
      obtain ⟨m₁, hcall, hperforms⟩ := performs_leave parse hsound clientID channel
      simp only [Step, next, hcall, Except.toOption, Option.some.injEq] at hstep
      subst hstep
      exact hperforms
  | ready clientID =>
      have hmember : m.status channel clientID ≠ none := by
        intro hnone
        simp only [Step, next, notifyClient] at hstep
        cases hroom : m.rooms[channel]? with
        | none => simp [hroom] at hstep
        | some room =>
            rw [status_of_room hroom, Room.status, Option.map_eq_none_iff] at hnone
            simp [hroom, Room.notifyClient, hnone] at hstep
      obtain ⟨m₁, hcall, hperforms⟩ := performs_ready hsound hmember
      obtain rfl : m₁ = m' := Option.some.inj (hcall.symm.trans hstep)
      exact hperforms

theorem Performs.status_eq {m m' : Manager} {channel : AString} {event : Roster.Event Int32}
    (hperforms : m.Performs channel event m') :
    m'.status channel = Roster.after (m.status channel) event := by
  obtain ⟨_, -, heffect, -⟩ := hperforms.outputs
  exact heffect.status_eq

/-- A possible event and what it does to the channel. -/
theorem exists_step (parse : AString → Parsed) {m : Manager} (hsound : m.Sound)
    (channel : AString) (event : Roster.Event Int32)
    (hpossible : ∀ clientID, event = .ready clientID → m.status channel clientID ≠ none) :
    ∃ m', Step parse m (channel, event) m' ∧ m'.Sound
      ∧ m'.status channel = Roster.after (m.status channel) event := by
  cases event with
  | join clientID =>
      obtain ⟨m', hcall, hperforms⟩ := performs_join parse hsound clientID channel
      refine ⟨m', ?_, hperforms.sound, hperforms.status_eq⟩
      simp only [Step, next, hcall]
      rfl
  | leave clientID =>
      obtain ⟨m', hcall, hperforms⟩ := performs_leave parse hsound clientID channel
      refine ⟨m', ?_, hperforms.sound, hperforms.status_eq⟩
      simp only [Step, next, hcall]
      rfl
  | ready clientID =>
      obtain ⟨m', hcall, hperforms⟩ := performs_ready hsound (hpossible clientID rfl)
      exact ⟨m', hcall, hperforms.sound, hperforms.status_eq⟩

/-- One step, seen from one channel: an event of its roster, or nothing. -/
theorem Performs.view {m m' : Manager} {label : AString × Roster.Event Int32}
    (hperforms : m.Performs label.1 label.2 m') (channel : AString) :
    ∃ new, m'.outputs = m.outputs ++ new
      ∧ (label.1 = channel ∧ Roster.Effect (m.status channel) label.2 (m'.status channel)
          (letters channel new)
        ∨ label.1 ≠ channel ∧ m'.status channel = m.status channel ∧ letters channel new = []) := by
  obtain ⟨new, hout, heffect, helse⟩ := hperforms.outputs
  refine ⟨new, hout, ?_⟩
  by_cases heq : label.1 = channel
  · subst heq
    exact .inl ⟨rfl, heffect⟩
  · exact .inr ⟨heq, hperforms.frame channel (Ne.symm heq), helse channel (Ne.symm heq)⟩

/-- Nobody joins a channel of which it is a member. -/
def NoRejoin (m : Manager) (label : AString × Roster.Event Int32) : Prop :=
  ∀ clientID, label.2 = .join clientID → ¬ m.IsMember label.1 clientID

theorem sound_of_run {guard : Manager → AString × Roster.Event Int32 → Prop}
    {labels : List (AString × Roster.Event Int32)} {m : Manager}
    (hrun : Run (Guarded guard (Step parse)) create labels m) : m.Sound :=
  hrun.invariant sound_create fun hsound hstep => (hstep.2.performs hsound).sound

/-- What a member has been told since `start`, when the state was another. -/
structure Told (start : Manager) (channel : AString) (member : Int32) (m : Manager) : Prop where
  sound : m.Sound
  isMember : m.status channel member ≠ none
  told : ∃ new, m.outputs = start.outputs ++ new
    ∧ Roster.Informed (m.status channel) member (inbox member (letters channel new))

theorem Told.step {start m m' : Manager} {channel : AString} {member : Int32}
    {label : AString × Roster.Event Int32} (htold : Told start channel member m)
    (hstep : Guarded NoRejoin (Step parse) m label m')
    (hstays : m'.status channel member ≠ none) : Told start channel member m' := by
  obtain ⟨hsound, hmember, new, hout, hinformed⟩ := htold
  have hperforms := hstep.2.performs hsound
  obtain ⟨more, hmore, hview⟩ := hperforms.view channel
  refine ⟨hperforms.sound, hstays, new ++ more, ?_, ?_⟩
  · rw [hmore, hout, List.append_assoc]
  · rw [letters_append, Roster.inbox_append]
    obtain ⟨heq, heffect⟩ | ⟨-, hsame, hnone⟩ := hview
    · refine heffect.informed ?_ hmember hstays hinformed
      intro newcomer hjoin
      have hnot := hstep.1 newcomer hjoin
      rw [isMember_iff, not_not, heq] at hnot
      exact hnot
    · rw [hsame, hnone, Roster.inbox_nil, List.append_nil]
      exact hinformed

theorem presence_agreement {before later : List (AString × Roster.Event Int32)}
    {m m₁ m₂ : Manager} {channel : AString} {member : Int32}
    (hbefore : Run (Guarded NoRejoin (Step parse)) create before m)
    (hjoin : Guarded NoRejoin (Step parse) m (channel, .join member) m₁)
    (hlater : Run (fun s label s' => Guarded NoRejoin (Step parse) s label s'
      ∧ s'.IsMember channel member) m₁ later m₂) :
    (∀ other, other ∈ view (inbox member (letters channel (m₂.outputsSince m)))
        ↔ other ≠ member ∧ m₂.IsMember channel other)
      ∧ AnnouncedOnce (inbox member (letters channel (m₂.outputsSince m))) := by
  have hsound := sound_of_run hbefore
  have hstart : Told m channel member m₁ := by
    have hperforms := hjoin.2.performs hsound
    obtain ⟨new, hout, heffect, -⟩ := hperforms.outputs
    have hnew : m.status channel member = none := by
      have hnot := hjoin.1 member rfl
      rwa [isMember_iff, not_not] at hnot
    exact ⟨hperforms.sound, heffect.mem_join, new, hout, heffect.informed_join hnew⟩
  obtain ⟨-, -, new, hout, hview, honce⟩ := hlater.invariant hstart fun htold hstep =>
    htold.step hstep.1 (isMember_iff.mp hstep.2)
  have hsince : m₂.outputsSince m = new := by
    rw [outputsSince, hout, List.drop_left]
  rw [hsince]
  refine ⟨fun other => ?_, honce⟩
  rw [isMember_iff]
  exact hview other

/-- Two clients join, the second one under observation. -/
theorem presence_agreement_two :
    ∃ m m₁ : Manager, Run (Guarded NoRejoin (Step fun _ => .failed)) create [(ascii "r", .join 1)] m
      ∧ Guarded NoRejoin (Step fun _ => .failed) m (ascii "r", .join 2) m₁
      ∧ (∀ other, other ∈ view (inbox 2 (letters (ascii "r") (m₁.outputsSince m)))
          ↔ other ≠ 2 ∧ m₁.IsMember (ascii "r") other)
      ∧ AnnouncedOnce (inbox 2 (letters (ascii "r") (m₁.outputsSince m))) := by
  have hcreate : create.status (ascii "r") = fun _ => none := funext (status_create _)
  obtain ⟨m, hfirst, hsound, hs⟩ :=
    exists_step (fun _ => .failed) sound_create (ascii "r") (.join 1) (by simp)
  obtain ⟨m₁, hsecond, -, -⟩ :=
    exists_step (fun _ => .failed) hsound (ascii "r") (.join 2) (by simp)
  have hrun : Run (Guarded NoRejoin (Step fun _ => .failed)) create [(ascii "r", .join 1)] m := by
    refine Run.nil.snoc ⟨?_, hfirst⟩
    rintro clientID -
    simp [isMember_iff, hcreate]
  have hjoin : Guarded NoRejoin (Step fun _ => .failed) m (ascii "r", .join 2) m₁ := by
    refine ⟨?_, hsecond⟩
    rintro clientID heq
    cases heq
    simp [isMember_iff, hs, hcreate, Roster.after]
  exact ⟨m, m₁, hrun, hjoin, presence_agreement hrun hjoin Run.nil⟩

/-- A client that joins a second time is announced to itself. -/
theorem presence_disagreement :
    ¬ ∀ (parse : AString → Parsed) (before later : List (AString × Roster.Event Int32))
      (m m₁ m₂ : Manager) (channel : AString) (member : Int32),
      Run (Step parse) create before m → Step parse m (channel, .join member) m₁ →
      Run (fun s label s' => Step parse s label s' ∧ s'.IsMember channel member
        ∧ label ≠ (channel, .join member)) m₁ later m₂ →
      (∀ other, other ∈ view (inbox member (letters channel (m₂.outputsSince m)))
          ↔ other ≠ member ∧ m₂.IsMember channel other)
        ∧ AnnouncedOnce (inbox member (letters channel (m₂.outputsSince m))) := by
  intro hclaim
  have hcalc : (next (fun _ => .failed) create (ascii "r", .join 1)).bind (fun m =>
      (next (fun _ => .failed) m (ascii "r", .join 1)).map fun m₁ =>
        decide (1 ∈ view (inbox 1 (letters (ascii "r") (m₁.outputsSince m))))) = some true := by
    decide
  obtain ⟨m, hfirst, hrest⟩ := Option.bind_eq_some_iff.mp hcalc
  obtain ⟨m₁, hagain, hmem⟩ := Option.map_eq_some_iff.mp hrest
  obtain ⟨hview, -⟩ := hclaim (fun _ => .failed) _ [] m m₁ m₁ (ascii "r") 1
    (Run.nil.snoc hfirst) hagain Run.nil
  exact ((hview 1).mp (of_decide_eq_true hmem)).1 rfl

/-- Both are members and the second one publishes. -/
def Together (m : Manager) (channel : AString) (a b : Int32) : Prop :=
  m.IsMember channel a ∧ m.IsReady channel b

theorem together_iff {m : Manager} {channel : AString} {a b : Int32} :
    m.Together channel a b ↔ Roster.Together (m.status channel) a b := by
  rw [Together, Roster.Together, isMember_iff, isReady_iff]

/-- How often the publishing of one client has been announced to another. -/
def announced (m : Manager) (channel : AString) (a b : Int32) : Nat :=
  (letters channel m.outputs).count ⟨a, .publisher b⟩

def Orderly (m : Manager) (label : AString × Roster.Event Int32) : Prop :=
  Roster.Orderly (m.status label.1) label.2

/-- Two clients are together, and what is due has been announced since `start`. -/
structure Announcing (start : Manager) (channel : AString) (a b : Int32) (m : Manager) : Prop where
  sound : m.Sound
  together : Roster.Together (m.status channel) a b
  announced : m.announced channel a b
    = start.announced channel a b + Roster.due (m.status channel) a

theorem announced_of_outputs {m m' : Manager} {new : List Output}
    (hout : m'.outputs = m.outputs ++ new) (channel : AString) (a b : Int32) :
    m'.announced channel a b
      = m.announced channel a b + (letters channel new).count ⟨a, .publisher b⟩ := by
  rw [announced, hout, letters_append, List.count_append, announced]

theorem Announcing.step {start m m' : Manager} {channel : AString} {a b : Int32} (hne : a ≠ b)
    {label : AString × Roster.Event Int32} (hannouncing : Announcing start channel a b m)
    (hstep : Step parse m label m') (hstays : m'.Together channel a b) :
    Announcing start channel a b m' := by
  obtain ⟨hsound, htogether, hcount⟩ := hannouncing
  have hperforms := hstep.performs hsound
  have hstays := together_iff.mp hstays
  refine ⟨hperforms.sound, hstays, ?_⟩
  obtain ⟨new, hout, hview⟩ := hperforms.view channel
  rw [announced_of_outputs hout, hcount, Nat.add_assoc]
  obtain ⟨-, heffect⟩ | ⟨-, hsame, hnone⟩ := hview
  · rw [heffect.due_during hne htogether hstays]
  · rw [hsame, hnone, List.count_nil, Nat.add_zero]

theorem Announcing.begin {m m' : Manager} {channel : AString} {a b : Int32} (hne : a ≠ b)
    {label : AString × Roster.Event Int32} (hsound : m.Sound)
    (hstep : Guarded Orderly (Step parse) m label m') (hbefore : ¬ m.Together channel a b)
    (hafter : m'.Together channel a b) : Announcing m channel a b m' := by
  have hperforms := hstep.2.performs hsound
  rw [together_iff] at hbefore hafter
  refine ⟨hperforms.sound, hafter, ?_⟩
  obtain ⟨new, hout, hview⟩ := hperforms.view channel
  rw [announced_of_outputs hout]
  obtain ⟨heq, heffect⟩ | ⟨-, hsame, -⟩ := hview
  · have horderly : Roster.Orderly (m.status channel) label.2 := heq ▸ hstep.1
    rw [heffect.due_begin horderly hne hbefore hafter]
  · rw [hsame] at hafter
    exact absurd hafter hbefore

theorem Announcing.finish {start m m' : Manager} {channel : AString} {a b : Int32} (hne : a ≠ b)
    {label : AString × Roster.Event Int32} (hannouncing : Announcing start channel a b m)
    (hstep : Guarded Orderly (Step parse) m label m') (hafter : ¬ m'.Together channel a b) :
    m'.announced channel a b = start.announced channel a b + 1 := by
  obtain ⟨hsound, htogether, hcount⟩ := hannouncing
  rw [together_iff] at hafter
  obtain ⟨new, hout, hview⟩ := (hstep.2.performs hsound).view channel
  rw [announced_of_outputs hout, hcount]
  obtain ⟨heq, heffect⟩ | ⟨-, hsame, -⟩ := hview
  · have horderly : Roster.Orderly (m.status channel) label.2 := heq ▸ hstep.1
    obtain ⟨hdue, hnone⟩ := heffect.due_end horderly hne htogether hafter
    rw [hdue, hnone, Nat.add_zero]
  · rw [hsame] at hafter
    exact absurd htogether hafter

/-- A publisher is announced only when it publishes, and once in every period in which it publishes
to a member: when the period ends it has been announced, and before that at most once. -/
theorem publisher_announcements {before : List (AString × Roster.Event Int32)} {m : Manager}
    (hbefore : Run (Guarded Orderly (Step parse)) create before m)
    {label : AString × Roster.Event Int32} {m₁ : Manager}
    (hstep : Guarded Orderly (Step parse) m label m₁) (channel : AString) {a b : Int32}
    (hne : a ≠ b) :
    (⟨a, .publisher b⟩ ∈ letters channel (m₁.outputsSince m) → m₁.IsReady channel b)
      ∧ (¬ m.Together channel a b → m₁.Together channel a b →
        ∀ during m₂, Run (fun s label s' => Guarded Orderly (Step parse) s label s'
          ∧ s'.Together channel a b) m₁ during m₂ →
        m₂.announced channel a b ≤ m.announced channel a b + 1
          ∧ (m₂.IsReady channel a → m₂.announced channel a b = m.announced channel a b + 1)
          ∧ ∀ last m₃, Guarded Orderly (Step parse) m₂ last m₃ → ¬ m₃.Together channel a b →
            m₃.announced channel a b = m.announced channel a b + 1) := by
  have hsound := sound_of_run hbefore
  constructor
  · intro hletter
    obtain ⟨new, hout, hview⟩ := (hstep.2.performs hsound).view channel
    rw [outputsSince, hout, List.drop_left] at hletter
    rw [isReady_iff]
    obtain ⟨heq, heffect⟩ | ⟨-, -, hnone⟩ := hview
    · have horderly : Roster.Orderly (m.status channel) label.2 := heq ▸ hstep.1
      exact heffect.truthful horderly hne hletter
    · rw [hnone] at hletter
      cases hletter
  · intro hapart htogether during m₂ hduring
    have hannouncing : Announcing m channel a b m₂ :=
      hduring.invariant (Announcing.begin hne hsound hstep hapart htogether)
        fun hannouncing hstep => hannouncing.step hne hstep.1.2 hstep.2
    refine ⟨?_, fun hready => ?_, fun last m₃ hlast hparted => hannouncing.finish hne hlast hparted⟩
    · rw [hannouncing.announced, Roster.due]
      split <;> omega
    · rw [hannouncing.announced, Roster.due, if_pos (isReady_iff.mp hready)]

/-- The second of two clients comes and goes after the first has begun to publish. -/
theorem publisher_announcements_two :
    ∃ m m₁ m₂ m₃ : Manager, Run (Guarded Orderly (Step fun _ => .failed)) create
        [(ascii "r", .join 1), (ascii "r", .ready 1)] m
      ∧ Guarded Orderly (Step fun _ => .failed) m (ascii "r", .join 2) m₁
      ∧ Guarded Orderly (Step fun _ => .failed) m₁ (ascii "r", .ready 2) m₂
      ∧ Guarded Orderly (Step fun _ => .failed) m₂ (ascii "r", .leave 2) m₃
      ∧ m₃.announced (ascii "r") 2 1 = m.announced (ascii "r") 2 1 + 1 := by
  have hcreate : create.status (ascii "r") = fun _ => none := funext (status_create _)
  obtain ⟨m₀, hjoin₁, hsound₀, hs₀⟩ :=
    exists_step (fun _ => .failed) sound_create (ascii "r") (.join 1) (by simp)
  obtain ⟨m, hready₁, hsound, hs⟩ := exists_step (fun _ => .failed) hsound₀ (ascii "r") (.ready 1)
    (by simp [hs₀, Roster.after])
  obtain ⟨m₁, hjoin₂, hsound₁, hs₁⟩ :=
    exists_step (fun _ => .failed) hsound (ascii "r") (.join 2) (by simp)
  obtain ⟨m₂, hready₂, hsound₂, hs₂⟩ := exists_step (fun _ => .failed) hsound₁ (ascii "r") (.ready 2)
    (by simp [hs₁, Roster.after])
  obtain ⟨m₃, hleave₂, -, hs₃⟩ :=
    exists_step (fun _ => .failed) hsound₂ (ascii "r") (.leave 2) (by simp)
  rw [hcreate] at hs₀
  rw [hs₀] at hs
  rw [hs] at hs₁
  rw [hs₁] at hs₂
  rw [hs₂] at hs₃
  have hrun : Run (Guarded Orderly (Step fun _ => .failed)) create
      [(ascii "r", .join 1), (ascii "r", .ready 1)] m := by
    refine (Run.nil.snoc ⟨trivial, hjoin₁⟩).snoc ⟨?_, hready₁⟩
    simp +contextual [Orderly, Roster.Orderly, hs₀, Roster.after]
  have hjoin : Guarded Orderly (Step fun _ => .failed) m (ascii "r", .join 2) m₁ := ⟨trivial, hjoin₂⟩
  have hready : Guarded Orderly (Step fun _ => .failed) m₁ (ascii "r", .ready 2) m₂ := by
    refine ⟨?_, hready₂⟩
    intro _ other hother
    by_cases hone : other = 1 <;> simp [hs₁, Roster.after, hother, hone]
  have hleave : Guarded Orderly (Step fun _ => .failed) m₂ (ascii "r", .leave 2) m₃ := by
    refine ⟨?_, hleave₂⟩
    intro other hother
    by_cases hone : other = 1 <;> simp [hs₂, Roster.after, hother, hone]
  have hduring : Run (fun s label s' => Guarded Orderly (Step fun _ => .failed) s label s'
      ∧ s'.Together (ascii "r") 2 1) m₁ [(ascii "r", .ready 2)] m₂ := by
    refine Run.nil.snoc ⟨hready, ?_⟩
    simp [together_iff, Roster.Together, hs₂, Roster.after]
  obtain ⟨-, hperiod⟩ := publisher_announcements hrun hjoin (ascii "r") (a := 2) (b := 1) (by decide)
  obtain ⟨-, -, hend⟩ := hperiod (by simp [together_iff, Roster.Together, hs, Roster.after])
    (by simp [together_iff, Roster.Together, hs₁, Roster.after]) _ m₂ hduring
  exact ⟨m, m₁, m₂, m₃, hrun, hjoin, hready, hleave,
    hend _ m₃ hleave (by simp [together_iff, Roster.Together, hs₃, Roster.after])⟩

/-- The first of two clients is told that the second publishes, which it does not. -/
theorem publisher_untruthful :
    ¬ ∀ (parse : AString → Parsed) (before : List (AString × Roster.Event Int32))
      (m : Manager) (label : AString × Roster.Event Int32) (m₁ : Manager) (channel : AString)
      (a b : Int32), Run (Step parse) create before m → Step parse m label m₁ → a ≠ b →
      (⟨a, .publisher b⟩ ∈ letters channel (m₁.outputsSince m) → m₁.IsReady channel b)
        ∧ (¬ m.Together channel a b → m₁.Together channel a b →
          ∀ during m₂, Run (fun s label s' => Step parse s label s' ∧ s'.Together channel a b)
            m₁ during m₂ →
          ∀ last m₃, Step parse m₂ last m₃ → ¬ m₃.Together channel a b →
            m₃.announced channel a b = m.announced channel a b + 1) := by
  intro hclaim
  have hcalc : ([(ascii "r", .join 1), (ascii "r", .join 2)].foldlM (next fun _ => .failed) create).bind
      (fun m => (next (fun _ => .failed) m (ascii "r", .ready 1)).map fun m₁ =>
        (decide (⟨1, .publisher 2⟩ ∈ letters (ascii "r") (m₁.outputsSince m)),
          m₁.status (ascii "r") 2)) = some (true, some false) := by
    decide
  obtain ⟨m, hbefore, hrest⟩ := Option.bind_eq_some_iff.mp hcalc
  obtain ⟨m₁, hready, hresult⟩ := Option.map_eq_some_iff.mp hrest
  obtain ⟨hletter, hstatus⟩ := Prod.mk.inj hresult
  obtain ⟨htruthful, -⟩ := hclaim (fun _ => .failed) _ m _ m₁ (ascii "r") 1 2
    (Run.of_foldlM hbefore) hready (by decide)
  have htrue := isReady_iff.mp (htruthful (of_decide_eq_true hletter))
  rw [hstatus] at htrue
  cases htrue

/-- Both become ready after both have joined: the second one is announced twice. -/
example : ([(ascii "r", .join 1), (ascii "r", .join 2), (ascii "r", .ready 2),
    (ascii "r", .ready 1)].foldlM (next fun _ => .failed) create).map (announced · (ascii "r") 1 2)
    = some 2 := by decide

end Licode.Channel.Manager
