import Mathlib.Data.Finset.Basic
import Mathlib.Data.Finset.Lattice.Lemmas
import Mathlib.Data.List.Nodup
import Mathlib.Data.List.Count

/-!
# Groups that announce their members to each other

Members join, become ready and leave, and each of these is announced in letters from the group to
its members. A member learns who else is there by folding the letters it gets: `view`. The results
say what one event does to a member's view and how many announcements of one kind it makes.
-/

namespace Licode.Roster

variable {κ : Type*} [DecidableEq κ]

inductive Notice (κ : Type*) where
  | online (member : κ)
  | offline (member : κ)
  | publisher (member : κ)
  deriving DecidableEq

structure Letter (κ : Type*) where
  target : κ
  notice : Notice κ
  deriving DecidableEq

inductive Event (κ : Type*) where
  | join (member : κ)
  | leave (member : κ)
  | ready (member : κ)
  deriving DecidableEq

/-- For each member whether it is ready. -/
abbrev Status (κ : Type*) := κ → Option Bool

/-- The members, each once. -/
def Enumerates (members : List κ) (status : Status κ) : Prop :=
  members.Nodup ∧ ∀ member, member ∈ members ↔ status member ≠ none

/-- What an event does to the group, and the letters it makes. -/
inductive Effect : Status κ → Event κ → Status κ → List (Letter κ) → Prop
  | join {status : Status κ} {members : List κ} (newcomer : κ)
      (hmembers : Enumerates members status) :
      Effect status (.join newcomer)
        (Function.update status newcomer (some ((status newcomer).getD false)))
        (members.flatMap fun member =>
          [⟨member, .online newcomer⟩, ⟨newcomer, .online member⟩])
  | leave {status : Status κ} {others : List κ} (leaver : κ) (hmember : status leaver ≠ none)
      (hothers : Enumerates others (Function.update status leaver none)) :
      Effect status (.leave leaver) (Function.update status leaver none)
        (others.map fun member => ⟨member, .offline leaver⟩)
  | leaveAgain {status : Status κ} (leaver : κ) (hmember : status leaver = none) :
      Effect status (.leave leaver) status []
  | ready {status : Status κ} {members : List κ} (publisher : κ)
      (hwaiting : status publisher = some false) (hmembers : Enumerates members status) :
      Effect status (.ready publisher) (Function.update status publisher (some true))
        (members.flatMap fun member =>
          if member ≠ publisher then
            [⟨member, .publisher publisher⟩, ⟨publisher, .publisher member⟩]
          else [])
  | readyAgain {status : Status κ} (publisher : κ) (hready : status publisher = some true) :
      Effect status (.ready publisher) status []

/-- The group after an event. -/
def after (status : Status κ) : Event κ → Status κ
  | .join newcomer => Function.update status newcomer (some ((status newcomer).getD false))
  | .leave leaver => Function.update status leaver none
  | .ready publisher => Function.update status publisher ((status publisher).map fun _ => true)

theorem Effect.status_eq {status status' : Status κ} {event : Event κ} {letters : List (Letter κ)}
    (heffect : Effect status event status' letters) : status' = after status event := by
  cases heffect with
  | join | leave => rfl
  | leaveAgain leaver hmember => rw [after, ← hmember, Function.update_eq_self]
  | ready publisher hwaiting _ => rw [after, hwaiting, Option.map_some]
  | readyAgain publisher hready =>
      rw [after, hready, Option.map_some, ← hready, Function.update_eq_self]

/-- The notices that a member gets. -/
def inbox (member : κ) (letters : List (Letter κ)) : List (Notice κ) :=
  letters.filterMap fun letter => if letter.target = member then some letter.notice else none

def Notice.apply (known : Finset κ) : Notice κ → Finset κ
  | .online member => insert member known
  | .offline member => known.erase member
  | .publisher _ => known

/-- Who is there, to a member who has got these notices. -/
def view (notices : List (Notice κ)) : Finset κ := notices.foldl Notice.apply ∅

/-- Nobody is announced twice without having left in between. -/
def AnnouncedOnce (notices : List (Notice κ)) : Prop :=
  ∀ member earlier between later,
    notices = earlier ++ .online member :: between ++ .online member :: later →
      .offline member ∈ between

@[simp]
theorem inbox_nil (member : κ) : inbox member [] = [] := rfl

@[simp]
theorem inbox_append (member : κ) (letters more : List (Letter κ)) :
    inbox member (letters ++ more) = inbox member letters ++ inbox member more :=
  List.filterMap_append

theorem inbox_flatMap (member : κ) (members : List κ) (f : κ → List (Letter κ)) :
    inbox member (members.flatMap f) = members.flatMap fun other => inbox member (f other) := by
  induction members with
  | nil => rfl
  | cons other members ih => rw [List.flatMap_cons, inbox_append, ih, List.flatMap_cons]

@[simp]
theorem view_nil : view ([] : List (Notice κ)) = ∅ := rfl

@[simp]
theorem view_concat (notices : List (Notice κ)) (notice : Notice κ) :
    view (notices ++ [notice]) = notice.apply (view notices) := by
  unfold view
  rw [List.foldl_append]
  rfl

omit [DecidableEq κ] in
theorem announcedOnce_nil : AnnouncedOnce ([] : List (Notice κ)) := by
  intro member earlier between later hsplit
  simp at hsplit

/-- Whoever was announced and did not leave is in view. -/
theorem mem_view_of_online (member : κ) (earlier between : List (Notice κ))
    (hstays : .offline member ∉ between) :
    member ∈ view (earlier ++ .online member :: between) := by
  induction between using List.reverseRecOn with
  | nil =>
      rw [view_concat]
      exact Finset.mem_insert_self member _
  | append_singleton between notice ih =>
      rw [List.mem_append, not_or, List.mem_singleton] at hstays
      obtain ⟨hstays, hlast⟩ := hstays
      have hmem := ih hstays
      rw [← List.cons_append, ← List.append_assoc, view_concat]
      cases notice with
      | online other => exact Finset.mem_insert_of_mem hmem
      | offline other =>
          refine Finset.mem_erase.mpr ⟨?_, hmem⟩
          rintro rfl
          exact hlast rfl
      | publisher other => exact hmem

/-- A notice may be added when it does not announce somebody in view. -/
theorem AnnouncedOnce.concat {notices : List (Notice κ)} (honce : AnnouncedOnce notices)
    (notice : Notice κ) (hnew : ∀ member, notice = .online member → member ∉ view notices) :
    AnnouncedOnce (notices ++ [notice]) := by
  intro member earlier between later hsplit
  induction later using List.reverseRecOn with
  | nil =>
      obtain ⟨rfl, hlast⟩ := List.append_inj' hsplit rfl
      by_contra hstays
      exact hnew member (List.cons.inj hlast).1 (mem_view_of_online member earlier between hstays)
  | append_singleton later last _ =>
      rw [← List.cons_append, ← List.append_assoc] at hsplit
      exact honce member earlier between later (List.append_inj' hsplit rfl).1

theorem announcedOnce_append_online {notices : List (Notice κ)} (honce : AnnouncedOnce notices)
    {members : List κ} (hnodup : members.Nodup) (hnew : ∀ member ∈ members, member ∉ view notices) :
    AnnouncedOnce (notices ++ members.map .online)
      ∧ view (notices ++ members.map .online) = view notices ∪ members.toFinset := by
  induction members using List.reverseRecOn with
  | nil => simpa using honce
  | append_singleton members last ih =>
      obtain ⟨hmembers, -, hlast⟩ := List.nodup_append.mp hnodup
      obtain ⟨hprev, hview⟩ := ih hmembers fun member hmem => hnew member (by simp [hmem])
      have hfresh : last ∉ view notices ∪ members.toFinset := by
        rw [Finset.mem_union, List.mem_toFinset, not_or]
        exact ⟨hnew last (by simp), fun hmem => hlast last hmem last (by simp) rfl⟩
      rw [List.map_append, ← List.append_assoc]
      refine ⟨hprev.concat _ ?_, ?_⟩
      · rintro member heq
        obtain rfl := Notice.online.inj heq
        rw [hview]
        exact hfresh
      · rw [List.map_singleton, view_concat, hview]
        ext member
        simp [Notice.apply, or_comm]

theorem announcedOnce_append_publishers {notices more : List (Notice κ)}
    (honce : AnnouncedOnce notices) (hmore : ∀ notice ∈ more, ∃ member, notice = .publisher member) :
    AnnouncedOnce (notices ++ more) ∧ view (notices ++ more) = view notices := by
  induction more using List.reverseRecOn with
  | nil => simpa using honce
  | append_singleton more last ih =>
      obtain ⟨hprev, hview⟩ := ih fun notice hmem => hmore notice (by simp [hmem])
      obtain ⟨member, rfl⟩ := hmore last (by simp)
      rw [← List.append_assoc]
      refine ⟨hprev.concat _ ?_, ?_⟩
      · intro _ heq
        cases heq
      · rw [view_concat, hview]
        rfl

theorem flatMap_ite_of_nodup {β : Type*} {members : List κ} (hnodup : members.Nodup) {member : κ}
    (hmem : member ∈ members) (x : β) :
    members.flatMap (fun other => if other = member then [x] else []) = [x] := by
  induction members with
  | nil => simp at hmem
  | cons other members ih =>
      obtain ⟨hother, hnodup⟩ := List.nodup_cons.mp hnodup
      rw [List.flatMap_cons]
      by_cases heq : other = member
      · subst heq
        have hrest : members.flatMap (fun o => if o = other then [x] else []) = [] := by
          rw [List.flatMap_eq_nil_iff]
          intro o ho
          rw [if_neg]
          rintro rfl
          exact hother ho
        rw [if_pos rfl, hrest, List.append_nil]
      · have htail : member ∈ members := List.mem_of_ne_of_mem (Ne.symm heq) hmem
        rw [if_neg heq, List.nil_append, ih hnodup htail]

/-- The notices of a member tell who else is there. -/
structure Informed (status : Status κ) (member : κ) (notices : List (Notice κ)) : Prop where
  view : ∀ other, other ∈ view notices ↔ other ≠ member ∧ status other ≠ none
  once : AnnouncedOnce notices

theorem Effect.informed_join {status status' : Status κ} {newcomer : κ} {letters : List (Letter κ)}
    (heffect : Effect status (.join newcomer) status' letters) (hnew : status newcomer = none) :
    Informed status' newcomer (inbox newcomer letters) := by
  cases heffect with
  | join _ hmembers =>
      rename_i members
      obtain ⟨hnodup, hmem⟩ := hmembers
      have hinbox : inbox newcomer (members.flatMap fun member =>
          [⟨member, .online newcomer⟩, ⟨newcomer, .online member⟩]) = members.map .online := by
        rw [inbox_flatMap, ← List.flatMap_pure_eq_map]
        refine List.flatMap_congr fun member hmember => ?_
        have hne : member ≠ newcomer := by
          rintro rfl
          exact (hmem member).mp hmember hnew
        simp [inbox, hne]
      rw [hinbox]
      obtain ⟨honce, hview⟩ := announcedOnce_append_online announcedOnce_nil hnodup
        fun member _ => by simp
      rw [List.nil_append] at honce hview
      refine ⟨fun other => ?_, honce⟩
      rw [hview, view_nil, Finset.empty_union, List.mem_toFinset, hmem]
      by_cases hother : other = newcomer
      · simp [hother, hnew]
      · simp [hother]

theorem Effect.mem_join {status status' : Status κ} {newcomer : κ} {letters : List (Letter κ)}
    (heffect : Effect status (.join newcomer) status' letters) : status' newcomer ≠ none := by
  cases heffect with
  | join => simp

/-- Whoever stays a member stays informed, where nobody joins who is there. -/
theorem Effect.informed {status status' : Status κ} {event : Event κ} {letters : List (Letter κ)}
    (heffect : Effect status event status' letters)
    (hjoin : ∀ newcomer, event = .join newcomer → status newcomer = none) {member : κ}
    (hmember : status member ≠ none) (hstays : status' member ≠ none) {notices : List (Notice κ)}
    (hinformed : Informed status member notices) :
    Informed status' member (notices ++ inbox member letters) := by
  obtain ⟨hview, honce⟩ := hinformed
  cases heffect with
  | join newcomer hmembers =>
      rename_i members
      obtain ⟨hnodup, hmem⟩ := hmembers
      have hnew : status newcomer = none := hjoin newcomer rfl
      have hne : newcomer ≠ member := by
        rintro rfl
        exact hmember hnew
      have hinbox : inbox member (members.flatMap fun other =>
          [⟨other, .online newcomer⟩, ⟨newcomer, .online other⟩]) = [.online newcomer] := by
        rw [inbox_flatMap, ← flatMap_ite_of_nodup hnodup ((hmem member).mpr hmember)]
        refine List.flatMap_congr fun other _ => ?_
        by_cases heq : other = member <;> simp [inbox, hne, heq]
      rw [hinbox]
      constructor
      · intro other
        rw [view_concat, Notice.apply, Finset.mem_insert, hview]
        by_cases heq : other = newcomer
        · simp [heq, hne]
        · simp [heq]
      · refine honce.concat _ fun other heq => ?_
        obtain rfl := Notice.online.inj heq
        rw [hview]
        exact fun h => h.2 hnew
  | leave leaver hleaver hothers =>
      rename_i others
      obtain ⟨hnodup, hmem⟩ := hothers
      have hinbox : inbox member (others.map fun other => (⟨other, .offline leaver⟩ : Letter κ))
          = [.offline leaver] := by
        rw [← List.flatMap_pure_eq_map, inbox_flatMap,
          ← flatMap_ite_of_nodup hnodup ((hmem member).mpr hstays)]
        refine List.flatMap_congr fun other _ => ?_
        by_cases heq : other = member <;> simp [inbox, heq]
      rw [hinbox]
      constructor
      · intro other
        rw [view_concat, Notice.apply, Finset.mem_erase, hview]
        by_cases heq : other = leaver <;> simp [heq]
      · exact honce.concat _ fun other heq => by cases heq
  | leaveAgain => simpa using ⟨hview, honce⟩
  | ready publisher hwaiting hmembers =>
      rename_i members
      have hpublishers : ∀ notice ∈ inbox member (members.flatMap fun other =>
          if other ≠ publisher then
            [⟨other, .publisher publisher⟩, ⟨publisher, .publisher other⟩] else []),
          ∃ other, notice = .publisher other := by
        intro notice hnotice
        rw [inbox_flatMap, List.mem_flatMap] at hnotice
        obtain ⟨other, -, hnotice⟩ := hnotice
        by_cases heq : other = publisher
        · simp [heq] at hnotice
        · simp only [inbox, ne_eq, heq, not_false_eq_true, if_true, List.mem_filterMap,
            List.mem_cons, List.not_mem_nil, or_false, Option.ite_none_right_eq_some,
            Option.some.injEq] at hnotice
          obtain ⟨letter, rfl | rfl, -, rfl⟩ := hnotice
          · exact ⟨publisher, rfl⟩
          · exact ⟨other, rfl⟩
      obtain ⟨honce', hview'⟩ := announcedOnce_append_publishers honce hpublishers
      refine ⟨fun other => ?_, honce'⟩
      rw [hview', hview]
      by_cases heq : other = publisher
      · simp [heq, hwaiting]
      · simp [heq]
  | readyAgain => simpa using ⟨hview, honce⟩

theorem count_flatMap_of_nodup {β : Type*} [DecidableEq β] {members : List κ}
    (hnodup : members.Nodup) {f : κ → List β} {x : β} (member : κ)
    (hf : ∀ other, (f other).count x = if other = member then 1 else 0) :
    (members.flatMap f).count x = if member ∈ members then 1 else 0 := by
  induction members with
  | nil => simp
  | cons other members ih =>
      obtain ⟨hother, hnodup⟩ := List.nodup_cons.mp hnodup
      rw [List.flatMap_cons, List.count_append, ih hnodup, hf]
      by_cases heq : other = member
      · subst heq
        simp [hother]
      · simp [heq, Ne.symm heq]

/-- What an event announces to one member about the publishing of another. -/
theorem Effect.count_publisher {status status' : Status κ} {event : Event κ}
    {letters : List (Letter κ)} (heffect : Effect status event status' letters) {a b : κ}
    (hne : a ≠ b) :
    letters.count ⟨a, .publisher b⟩
      = if (event = .ready b ∧ status b = some false ∧ status a ≠ none)
          ∨ (event = .ready a ∧ status a = some false ∧ status b ≠ none) then 1 else 0 := by
  cases heffect with
  | join newcomer hmembers =>
      rw [if_neg (by simp), List.count_eq_zero]
      simp
  | leave leaver hleaver hothers =>
      rw [if_neg (by simp), List.count_eq_zero]
      simp
  | leaveAgain => simp
  | ready publisher hwaiting hmembers =>
      obtain ⟨hnodup, hmem⟩ := hmembers
      by_cases hb : publisher = b
      · subst hb
        rw [count_flatMap_of_nodup hnodup a]
        · simp [hmem, hwaiting, Ne.symm hne]
        · intro other
          by_cases hother : other = publisher
          · simp [hother, Ne.symm hne]
          · simp [hother, List.count_cons, Ne.symm hne]
      · by_cases ha : publisher = a
        · subst ha
          rw [count_flatMap_of_nodup hnodup b]
          · simp [hmem, hwaiting, hne]
          · intro other
            by_cases hother : other = publisher
            · simp [hother, hne]
            · simp [hother, List.count_cons, hne]
        · rw [if_neg (by simp [ha, hb]), List.count_eq_zero]
          simp only [List.mem_flatMap, not_exists, not_and]
          intro other _ hletter
          by_cases hother : other = publisher
          · simp [hother] at hletter
          · simp [hother, Ne.symm ha, Ne.symm hb] at hletter
  | readyAgain publisher hready =>
      rw [List.count_nil, if_neg]
      rintro (⟨heq, hfalse, -⟩ | ⟨heq, hfalse, -⟩) <;> cases heq <;> rw [hready] at hfalse <;>
        cases hfalse

/-- Both are members, and the second is ready. -/
def Together (status : Status κ) (a b : κ) : Prop := status a ≠ none ∧ status b = some true

/-- Members become ready after those that were there before them, and nobody leaves while somebody
ready and somebody not ready would be parted. -/
def Orderly (status : Status κ) : Event κ → Prop
  | .join _ => True
  | .leave leaver => ∀ other, other ≠ leaver → status leaver ≠ none → status other ≠ none →
      status other = status leaver
  | .ready publisher => status publisher = some false →
      ∀ other, other ≠ publisher → status other ≠ some false

/-- The announcements due to a member about another while they are together. -/
def due (status : Status κ) (a : κ) : Nat := if status a = some true then 1 else 0

theorem Effect.truthful {status status' : Status κ} {event : Event κ} {letters : List (Letter κ)}
    (heffect : Effect status event status' letters) (horderly : Orderly status event) {a b : κ}
    (hne : a ≠ b) (hletter : ⟨a, .publisher b⟩ ∈ letters) : status' b = some true := by
  have hcount := heffect.count_publisher hne
  have hpos : 0 < letters.count ⟨a, .publisher b⟩ := List.count_pos_iff.mpr hletter
  rw [hcount] at hpos
  split at hpos
  · next hready =>
    obtain ⟨rfl, hwaiting, -⟩ | ⟨rfl, hwaiting, hb⟩ := hready
    · cases heffect with
      | ready _ _ _ => simp
      | readyAgain _ hready => exact hready
    · have hother : status b = some true := by
        have hnot := horderly hwaiting b (Ne.symm hne)
        match hstatus : status b with
        | none => exact absurd hstatus hb
        | some true => rfl
        | some false => exact absurd hstatus hnot
      cases heffect with
      | ready _ _ _ => simp [Ne.symm hne, hother]
      | readyAgain _ _ => exact hother
  · omega

/-- When two members come together, what is due is announced. -/
theorem Effect.due_begin {status status' : Status κ} {event : Event κ} {letters : List (Letter κ)}
    (heffect : Effect status event status' letters) (horderly : Orderly status event) {a b : κ}
    (hne : a ≠ b) (hbefore : ¬ Together status a b) (hafter : Together status' a b) :
    letters.count ⟨a, .publisher b⟩ = due status' a := by
  rw [heffect.count_publisher hne]
  unfold Together at hbefore hafter
  cases heffect with
  | join newcomer _ =>
      by_cases ha : a = newcomer
      · subst ha
        have hb : status b = some true := by simpa [Ne.symm hne] using hafter.2
        have hnone : status a = none := by
          by_contra hmember
          exact hbefore ⟨hmember, hb⟩
        simp [due, hnone]
      · by_cases hb : b = newcomer
        · subst hb
          obtain ⟨hmember, hready⟩ := hafter
          have hmember : status a ≠ none := by simpa [ha] using hmember
          have hready : (status b).getD false = true := by simpa using hready
          have hb : status b = some true := by
            match hstatus : status b with
            | none => simp [hstatus] at hready
            | some true => rfl
            | some false => simp [hstatus] at hready
          exact absurd ⟨hmember, hb⟩ hbefore
        · simp only [Function.update_of_ne ha, Function.update_of_ne hb] at hafter
          exact absurd hafter hbefore
  | leave leaver hleaver _ =>
      have ha : a ≠ leaver := by
        rintro rfl
        simp at hafter
      have hb : b ≠ leaver := by
        rintro rfl
        simp at hafter
      simp only [Function.update_of_ne ha, Function.update_of_ne hb] at hafter
      exact absurd hafter hbefore
  | leaveAgain => exact absurd hafter hbefore
  | ready publisher hwaiting _ =>
      by_cases hb : b = publisher
      · subst hb
        have ha : status a ≠ none := by simpa [hne] using hafter.1
        have hready : status a = some true := by
          have hnot := horderly hwaiting a hne
          match hstatus : status a with
          | none => exact absurd hstatus ha
          | some true => rfl
          | some false => exact absurd hstatus hnot
        simp [due, hwaiting, hready, hne]
      · have hbready : status b = some true := by simpa [hb] using hafter.2
        refine absurd ⟨?_, hbready⟩ hbefore
        by_cases ha : a = publisher
        · simp [ha, hwaiting]
        · simpa [ha] using hafter.1
  | readyAgain => exact absurd hafter hbefore

/-- While two members stay together, an event announces what becomes due. -/
theorem Effect.due_during {status status' : Status κ} {event : Event κ} {letters : List (Letter κ)}
    (heffect : Effect status event status' letters) {a b : κ} (hne : a ≠ b)
    (hbefore : Together status a b) (hafter : Together status' a b) :
    due status a + letters.count ⟨a, .publisher b⟩ = due status' a := by
  rw [heffect.count_publisher hne]
  obtain ⟨hmember, hready⟩ := hbefore
  unfold due
  cases heffect with
  | join newcomer _ =>
      by_cases ha : a = newcomer
      · subst ha
        match hstatus : status a with
        | none => exact absurd hstatus hmember
        | some flag => simp
      · simp [ha]
  | leave leaver _ _ =>
      have ha : a ≠ leaver := by
        rintro rfl
        simp [Together] at hafter
      simp [ha]
  | leaveAgain => simp
  | ready publisher hwaiting _ =>
      have hb : b ≠ publisher := by
        rintro rfl
        rw [hready] at hwaiting
        cases hwaiting
      by_cases ha : a = publisher
      · subst ha
        simp [hwaiting, hready]
      · simp [ha, Ne.symm ha, Ne.symm hb]
  | readyAgain publisher hready' =>
      by_cases ha : publisher = a
      · subst ha
        simp [hready', hready]
      · simp [ha, hready]

/-- When two members part, everything due has been announced, and the event announces nothing. -/
theorem Effect.due_end {status status' : Status κ} {event : Event κ} {letters : List (Letter κ)}
    (heffect : Effect status event status' letters) (horderly : Orderly status event) {a b : κ}
    (hne : a ≠ b) (hbefore : Together status a b) (hafter : ¬ Together status' a b) :
    due status a = 1 ∧ letters.count ⟨a, .publisher b⟩ = 0 := by
  rw [heffect.count_publisher hne]
  obtain ⟨hmember, hready⟩ := hbefore
  unfold Together at hafter
  cases heffect with
  | join newcomer _ =>
      refine absurd ⟨?_, ?_⟩ hafter
      · by_cases ha : a = newcomer
        · simp [ha]
        · simpa [ha] using hmember
      · by_cases hb : b = newcomer
        · subst hb
          simp [hready]
        · simpa [hb] using hready
  | leave leaver hleaver _ =>
      refine ⟨?_, by simp⟩
      -- one of the two leaves, and the condition says that they are alike
      have hsame : status a = some true := by
        by_cases ha : a = leaver
        · subst ha
          rw [← horderly b (Ne.symm hne) hmember (by simp [hready]), hready]
        · by_cases hb : b = leaver
          · subst hb
            rw [horderly a hne (by simp [hready]) hmember, hready]
          · refine absurd ⟨?_, ?_⟩ hafter
            · simpa [ha] using hmember
            · simpa [hb] using hready
      rw [due, if_pos hsame]
  | leaveAgain => exact absurd ⟨hmember, hready⟩ hafter
  | ready publisher hwaiting _ =>
      refine absurd ⟨?_, ?_⟩ hafter
      · by_cases ha : a = publisher
        · simp [ha]
        · simpa [ha] using hmember
      · by_cases hb : b = publisher
        · simp [hb]
        · simpa [hb] using hready
  | readyAgain => exact absurd ⟨hmember, hready⟩ hafter

end Licode.Roster
