import Licode.Media.PayloadMaps
import Licode.Media.QuietLines

/-!
# A text read twice

`processSdp` reads into what is there from before. When the lines of a text are quiet, the second reading writes what
the first one has written, but for three things: feedback is added again, a tag may be named before the bundle is
known, and a password that has been replaced by that of the other media is read again.
-/

namespace Licode.Media.Sdp

/-! ### Format parameters -/

theorem FormatParameters.ext_mem {m m' : FormatParameters} (h : ∀ entry, entry ∈ m.entries ↔ entry ∈ m'.entries) :
    m = m' := by
  have hnodup (m : FormatParameters) : m.entries.Nodup := by
    apply m.ordered.imp
    rintro a b hlt rfl
    exact List.lt_irrefl _ hlt
  apply FormatParameters.ext
  refine ((List.perm_ext_iff_of_nodup (hnodup m) (hnodup m')).mpr h).eq_of_pairwise ?_ m.ordered m'.ordered
  intro a b _ _ hlt hgt
  exact absurd hgt (List.lt_asymm hlt)

/-- Assignments leave what they do not assign to. -/
theorem FormatParameters.mem_setAll (entries : List (AString × AString)) :
    ∃ (assigned : AString × AString → Prop) (overwritten : AString → Prop), ∀ (m : FormatParameters) entry,
      entry ∈ (m.setAll entries).entries ↔ assigned entry ∨ entry ∈ m.entries ∧ ¬ overwritten entry.1 := by
  induction entries with
  | nil => exact ⟨fun _ => False, fun _ => False, fun m entry => by simp [setAll]⟩
  | cons first entries ih =>
      obtain ⟨assigned, overwritten, hmem⟩ := ih
      refine ⟨fun entry => assigned entry ∨ entry = first ∧ ¬ overwritten entry.1,
        fun key => overwritten key ∨ key = first.1, fun m entry => ?_⟩
      have hset : entry ∈ (m.set first.1 first.2).entries ↔ entry = first ∨ entry ∈ m.entries ∧ entry.1 ≠ first.1 :=
        mem_mapSet_iff m.ordered entry
      rw [setAll, List.foldl_cons]
      change entry ∈ ((m.set first.1 first.2).setAll entries).entries ↔ _
      rw [hmem, hset]
      tauto

theorem FormatParameters.setAll_setAll (m : FormatParameters) (entries : List (AString × AString)) :
    (m.setAll entries).setAll entries = m.setAll entries := by
  obtain ⟨assigned, overwritten, hmem⟩ := mem_setAll entries
  apply ext_mem
  intro entry
  rw [hmem, hmem]
  tauto

/-- The parameters that lines give to a payload type. -/
def parametersFor (payloadType : UInt32) (lines : List PlacedLine) : List (AString × AString) :=
  lines.filterMap fun l => (parameterOf l.line).bind fun (type, parameter) =>
    if payloadType = type then some parameter else none

/-- A payload after the lines. -/
def withParameters (lines : List PlacedLine) (rtp : RtpMap) : RtpMap :=
  { rtp with formatParameters := rtp.formatParameters.setAll (parametersFor rtp.payloadType lines) }

theorem foldl_withParameter (lines : List PlacedLine) (rtp : RtpMap) :
    lines.foldl (fun rtp l => withParameter l.line rtp) rtp = withParameters lines rtp := by
  induction lines generalizing rtp with
  | nil => rfl
  | cons l lines ih =>
      rw [List.foldl_cons, ih, withParameters, withParameters, parametersFor, parametersFor, List.filterMap_cons,
        withParameter]
      cases parameterOf l.line with
      | none => rfl
      | some parameter =>
          obtain ⟨type, option, value⟩ := parameter
          by_cases htype : rtp.payloadType = type
          · simp only [if_pos htype, Option.bind_some]
            rfl
          · simp only [if_neg htype, Option.bind_some]

/-! ### Tags -/

/-- The media that a line gives to a tag. -/
def mediaOf (id : AString) (l : PlacedLine) : Option MediaType := if midOf l.line = some id then some l.mtype else none

theorem foldl_retag (lines : List PlacedLine) (tag : BundleTag) : lines.foldl (fun tag l => retag l tag) tag
    = { tag with mediaType := (lastOf (mediaOf tag.id) lines).getD tag.mediaType } := by
  induction lines generalizing tag with
  | nil => rfl
  | cons l lines ih =>
      have hid : (retag l tag).id = tag.id := by
        rw [retag]
        split_ifs <;> rfl
      have hmedia : (retag l tag).mediaType = (mediaOf tag.id l).getD tag.mediaType := by
        rw [retag, mediaOf]
        split_ifs <;> rfl
      rw [List.foldl_cons, ih, hid, hmedia, ← getD_or, ← lastOf_cons]

/-! ### Feedback -/

/-- The payload type of a line with feedback. -/
def feedbackType (line : AString) : UInt32 := strtoul ((splitOneOf line (ascii " :") 2)[1]?.getD [])

/-- How much feedback there is. -/
def feedbackCount (payloads : List RtpMap) : Nat := (payloads.map (·.feedbackTypes.length)).sum

namespace Parser

theorem addFeedback_inv {payloads payloads' : List RtpMap} {line : AString}
    (h : addFeedback payloads line = .ok payloads') : ∃ feedback, payloads' = payloads.map fun rtp =>
      if rtp.payloadType = feedbackType line then { rtp with feedbackTypes := rtp.feedbackTypes ++ [feedback] }
      else rtp := by
  obtain ⟨payloadType, htype, h⟩ := exists_of_bind_ok h
  obtain ⟨feedback, -, h⟩ := exists_of_bind_ok h
  cases h
  refine ⟨feedback, ?_⟩
  rw [feedbackType, getElem?_of_piece htype]
  rfl

theorem addFeedback_of_none {payloads payloads' : List RtpMap} {line : AString}
    (h : addFeedback payloads line = .ok payloads') (hnone : ∀ rtp ∈ payloads, rtp.payloadType ≠ feedbackType line) :
    payloads' = payloads := by
  obtain ⟨feedback, rfl⟩ := addFeedback_inv h
  calc payloads.map _ = payloads.map id := List.map_congr_left fun rtp hrtp => if_neg (hnone rtp hrtp)
    _ = payloads := List.map_id payloads

theorem feedbackCount_addFeedback {payloads payloads' : List RtpMap} {line : AString}
    (h : addFeedback payloads line = .ok payloads') :
    feedbackCount payloads' = feedbackCount payloads + payloads.countP (·.payloadType = feedbackType line)
      ∧ payloads'.map (·.payloadType) = payloads.map (·.payloadType) := by
  obtain ⟨feedback, rfl⟩ := addFeedback_inv h
  clear h
  induction payloads with
  | nil => exact ⟨rfl, rfl⟩
  | cons rtp payloads ih =>
      obtain ⟨hcount, htypes⟩ := ih
      simp only [feedbackCount, List.map_cons, List.sum_cons] at hcount ⊢
      rw [hcount, htypes]
      by_cases htype : rtp.payloadType = feedbackType line
      · rw [if_pos htype, List.countP_cons_of_pos (by simpa using htype), List.length_append, List.length_singleton]
        exact ⟨by omega, rfl⟩
      · rw [if_neg htype, List.countP_cons_of_neg (by simpa using htype)]
        exact ⟨by omega, rfl⟩

theorem feedbackCount_foldlM {payloads payloads' : List RtpMap} {lines : List AString}
    (h : lines.foldlM addFeedback payloads = .ok payloads') : feedbackCount payloads' = feedbackCount payloads
      + (lines.map fun line => payloads.countP (·.payloadType = feedbackType line)).sum := by
  induction lines generalizing payloads with
  | nil =>
      cases h
      rfl
  | cons line lines ih =>
      rw [List.foldlM_cons] at h
      obtain ⟨next, hadd, hrest⟩ := exists_of_bind_ok h
      obtain ⟨hcount, htypes⟩ := feedbackCount_addFeedback hadd
      have hsame (type : UInt32) : next.countP (·.payloadType = type) = payloads.countP (·.payloadType = type) := by
        have hmap (rtps : List RtpMap) :
            rtps.countP (·.payloadType = type) = (rtps.map (·.payloadType)).countP (· = type) := by
          rw [List.countP_map]
          rfl
        rw [hmap, hmap, htypes]
      rw [ih hrest, hcount, List.map_cons, List.sum_cons, Nat.add_assoc]
      simp only [hsame]

/-- Feedback is the same afterwards just if no line has one of the payload types. -/
theorem foldlM_addFeedback_eq_iff {payloads payloads' : List RtpMap} {lines : List AString}
    (h : lines.foldlM addFeedback payloads = .ok payloads') :
    payloads' = payloads ↔ ∀ line ∈ lines, ∀ rtp ∈ payloads, rtp.payloadType ≠ feedbackType line := by
  constructor
  · rintro rfl line hline rtp hrtp
    have hnone := List.sum_eq_zero_iff_forall_eq_nat.mp (Nat.left_eq_add.mp (feedbackCount_foldlM h))
    have hzero := hnone _ (List.mem_map_of_mem hline)
    exact fun htype => List.countP_eq_zero.mp hzero rtp hrtp (decide_eq_true htype)
  · intro hnone
    induction lines with
    | nil =>
        cases h
        rfl
    | cons line lines ih =>
        rw [List.foldlM_cons] at h
        obtain ⟨hfirst, hrest⟩ := List.forall_mem_cons.mp hnone
        obtain ⟨next, hadd, hlines⟩ := exists_of_bind_ok h
        rw [addFeedback_of_none hadd hfirst] at hlines
        exact ih hlines hrest

/-- Nothing but feedback is added. -/
theorem mem_foldlM_addFeedback {payloads payloads' : List RtpMap} {lines : List AString}
    (h : lines.foldlM addFeedback payloads = .ok payloads') :
    ∀ rtp' ∈ payloads', ∃ rtp ∈ payloads, ∃ feedbackTypes, rtp' = { rtp with feedbackTypes } := by
  induction lines generalizing payloads with
  | nil =>
      cases h
      exact fun rtp hrtp => ⟨rtp, hrtp, rtp.feedbackTypes, rfl⟩
  | cons line lines ih =>
      rw [List.foldlM_cons] at h
      obtain ⟨next, hadd, hrest⟩ := exists_of_bind_ok h
      obtain ⟨feedback, rfl⟩ := addFeedback_inv hadd
      intro rtp' hrtp'
      obtain ⟨between, hbetween, feedbackTypes, rfl⟩ := ih hrest rtp' hrtp'
      obtain ⟨rtp, hrtp, rfl⟩ := List.mem_map.mp hbetween
      refine ⟨rtp, hrtp, feedbackTypes, ?_⟩
      split_ifs <;> rfl

end Parser

/-! ### The end of a reading -/

/-- The credentials of a candidate are those of video or of audio. -/
def CandidateInfo.ofAudio (candidate : CandidateInfo) : Bool := decide (candidate.mediaType ≠ .video)

def withCredentials (info : SdpInfo) (candidate : CandidateInfo) : CandidateInfo :=
  { candidate with
    isBundle := info.isBundle
    username := info.username candidate.ofAudio
    password := info.password candidate.ofAudio }

/-- There is a name for the credentials of some media. -/
def SdpInfo.Named (info : SdpInfo) : Prop := ∃ audio, info.username audio ≠ []

/-- What the end of a reading does not look at. -/
def SdpInfo.steady (info : SdpInfo) : SdpInfo :=
  { info with
    payloadVector := []
    candidateVector := []
    iceVideoUsername := []
    iceVideoPassword := []
    iceAudioUsername := []
    iceAudioPassword := [] }

/-- What a description is when all lines have been read. -/
structure Finished (p : Parser) (info : SdpInfo) : Prop where
  steady : info.steady = p.info.steady
  username (audio : Bool) : info.username audio
    = if p.info.username audio = [] then p.info.username !audio else p.info.username audio
  password (hnamed : p.info.Named) (audio : Bool) : info.password audio
    = if p.info.username audio = [] then p.info.password !audio else p.info.password audio
  candidates (hnamed : p.info.Named) : info.candidateVector = p.info.candidateVector.map (withCredentials info)
  payloads (hnamed : p.info.Named) : p.tmpFeedbackVector.foldlM Parser.addFeedback p.info.payloadVector
    = .ok info.payloadVector
  unnamed (hnamed : ¬ p.info.Named) : info = p.info

namespace Parser

theorem finish_inv {p : Parser} {answer : Bool} {info : SdpInfo} (h : p.finish = .ok (answer, info)) :
    Finished p info := by
  have hnames : p.info.Named ↔ ¬ (p.info.iceVideoUsername = [] ∧ p.info.iceAudioUsername = []) := by
    rw [SdpInfo.Named, Bool.exists_bool, not_and_or]
    rfl
  rw [finish] at h
  split_ifs at h with hnone
  · cases h
    have hunnamed : ¬ p.info.Named := fun hnamed => hnames.mp hnamed hnone
    refine ⟨rfl, fun audio => ?_, fun hnamed => absurd hnamed hunnamed, fun hnamed => absurd hnamed hunnamed,
      fun hnamed => absurd hnamed hunnamed, fun _ => rfl⟩
    cases audio <;> simp [SdpInfo.username, hnone]
  · obtain ⟨payloadVector, hfeedback, h⟩ := exists_of_bind_ok h
    cases h
    refine ⟨?_, ?_, ?_, ?_, ?_, fun hnamed => absurd (hnames.mpr hnone) hnamed⟩
    · rw [shareCredentials]
      split_ifs <;> rfl
    · intro audio
      rw [shareCredentials]
      cases audio <;> split_ifs with hvideo haudio <;> simp_all [SdpInfo.username, addCredentials]
    · intro _ audio
      rw [shareCredentials]
      cases audio <;> split_ifs with hvideo haudio <;> simp_all [SdpInfo.username, SdpInfo.password, addCredentials]
    · intro _
      have hshared : (shareCredentials p.info).candidateVector = p.info.candidateVector := by
        rw [shareCredentials]
        split_ifs <;> rfl
      simp only [addCredentials, hshared]
      apply List.map_congr_left
      intro c _
      by_cases hvideo : c.mediaType = .video <;>
        simp [hvideo, withCredentials, CandidateInfo.ofAudio, SdpInfo.username, SdpInfo.password]
    · intro _
      have hshared : (shareCredentials p.info).payloadVector = p.info.payloadVector := by
        rw [shareCredentials]
        split_ifs <;> rfl
      rw [← hshared]
      exact hfeedback

end Parser

/-! ### The second reading -/

theorem Finished.named_iff {p : Parser} {info : SdpInfo} (h : Finished p info) (audio : Bool) :
    info.username audio ≠ [] ↔ p.info.Named := by
  rw [h.username]
  constructor
  · intro hne
    split_ifs at hne
    · exact ⟨_, hne⟩
    · exact ⟨_, hne⟩
  · rintro ⟨other, hother⟩
    split_ifs with hempty
    · obtain rfl | rfl : other = audio ∨ other = !audio := by cases other <;> cases audio <;> simp
      · exact absurd hempty hother
      · exact hother
    · exact hempty

/-- What answers and transports need to know beside the lists. -/
structure SameFlags (x y : SdpInfo) : Prop where
  isRtcpMux : y.isRtcpMux = x.isRtcpMux
  isFingerprint : y.isFingerprint = x.isFingerprint
  isBundle : y.isBundle = x.isBundle
  hasVideo : y.hasVideo = x.hasVideo
  hasAudio : y.hasAudio = x.hasAudio
  profile : y.profile = x.profile
  direction (audio : Bool) : y.direction audio = x.direction audio

/-- Two descriptions with the same payloads, counters, extensions, tags, candidates and maps. -/
structure SameLists (x y : SdpInfo) : Prop where
  payloadVector : y.payloadVector = x.payloadVector
  videoCodecs : y.videoCodecs = x.videoCodecs
  audioCodecs : y.audioCodecs = x.audioCodecs
  inOutPTMap : y.inOutPTMap = x.inOutPTMap
  outInPTMap : y.outInPTMap = x.outInPTMap
  extMapVector : y.extMapVector = x.extMapVector
  bundleTags : y.bundleTags = x.bundleTags
  candidateVector : y.candidateVector = x.candidateVector

/-- The password of a media is what another reading makes of it: it comes from the other media again, or the one that
is read again is the same. -/
def KeepsPassword (lines : List PlacedLine) (info : SdpInfo) (audio : Bool) : Prop :=
  lastOf (attributeIn "a=ice-ufrag" audio) lines = some []
    ∨ ∀ password, lastOf (attributeIn "a=ice-pwd" audio) lines = some password → password = info.password audio

theorem getD_getD {α : Type} (x : Option α) (a : α) : x.getD (x.getD a) = x.getD a := by
  cases x <;> rfl

theorem map_eq_self_iff {α : Type} {f : α → α} {items : List α} : items.map f = items ↔ ∀ a ∈ items, f a = a := by
  have hsame := @List.map_inj_left _ _ items f id
  rwa [List.map_id] at hsame

section Twice

variable {info r r' : SdpInfo} {p p' : Parser} {lines : List PlacedLine}
  (hread : LinesRead (Parser.start info []) lines p) (hfinish : Finished p r)
  (hread' : LinesRead (Parser.start r []) lines p') (hfinish' : Finished p' r')

include hfinish hfinish' in
/-- A member that is written in the same way each time. -/
theorem written_again {α : Type} (member : SdpInfo → α) (write : α → α)
    (hsteady : ∀ x : SdpInfo, member x.steady = member x) (hwrite : ∀ a, write (write a) = write a)
    (h : member p.info = write (member info)) (h' : member p'.info = write (member r)) : member r' = member r := by
  have hfirst : member r = write (member info) := by
    rw [← hsteady r, hfinish.steady, hsteady, h]
  calc member r' = member p'.info := by rw [← hsteady r', hfinish'.steady, hsteady]
    _ = write (write (member info)) := by rw [h', hfirst]
    _ = member r := by rw [hwrite, hfirst]

include hread hfinish hread' hfinish'

theorem flags_again : SameFlags r r' := by
  have hor (found b : Bool) : ((b || found) || found) = (b || found) := by rw [Bool.or_assoc, Bool.or_self]
  refine ⟨?_, ?_, ?_, ?_, ?_, ?_, fun audio => ?_⟩
  · exact written_again hfinish hfinish' (·.isRtcpMux) (· || _) (fun _ => rfl) (hor _) hread.isRtcpMux hread'.isRtcpMux
  · exact written_again hfinish hfinish' (·.isFingerprint) (· || _) (fun _ => rfl) (hor _) hread.isFingerprint
      hread'.isFingerprint
  · exact written_again hfinish hfinish' (·.isBundle) (· || _) (fun _ => rfl) (hor _) hread.isBundle hread'.isBundle
  · exact written_again hfinish hfinish' (·.hasVideo) (· || _) (fun _ => rfl) (hor _) hread.hasVideo hread'.hasVideo
  · exact written_again hfinish hfinish' (·.hasAudio) (· || _) (fun _ => rfl) (hor _) hread.hasAudio hread'.hasAudio
  · exact written_again hfinish hfinish' (·.profile) (Option.getD _) (fun _ => rfl) (getD_getD _) hread.profile
      hread'.profile
  · refine written_again hfinish hfinish' (·.direction audio) (Option.or _) (fun _ => rfl) (fun a => ?_)
      (hread.direction audio) (hread'.direction audio)
    rw [← Option.or_assoc, Option.or_self]

omit hfinish' in
theorem not_named_again (hnamed : ¬ p.info.Named) : ¬ p'.info.Named := by
  rintro ⟨audio, hne⟩
  have hnone : p.info.username audio = [] := by
    by_contra hname
    exact hnamed ⟨audio, hname⟩
  have hwritten : p.info.username audio
      = (lastOf (attributeIn "a=ice-ufrag" audio) lines).getD (info.username audio) := hread.username audio
  have hwritten' : p'.info.username audio
      = (lastOf (attributeIn "a=ice-ufrag" audio) lines).getD (r.username audio) := hread'.username audio
  rw [hwritten', hfinish.unnamed hnamed, hwritten, getD_getD, ← hwritten] at hne
  exact hne hnone

theorem username_again (audio : Bool) : r'.username audio = r.username audio := by
  have hwritten (audio : Bool) : p.info.username audio
      = (lastOf (attributeIn "a=ice-ufrag" audio) lines).getD (info.username audio) := hread.username audio
  have hwritten' (audio : Bool) : p'.info.username audio
      = (lastOf (attributeIn "a=ice-ufrag" audio) lines).getD (r.username audio) := hread'.username audio
  have hshared := hfinish.username
  have hshared' := hfinish'.username
  by_cases hnamed : p.info.Named
  · have hne := (hfinish.named_iff audio).mpr hnamed
    cases hlast : lastOf (attributeIn "a=ice-ufrag" audio) lines with
    | none =>
        have hsame : p'.info.username audio = r.username audio := by rw [hwritten', hlast, Option.getD_none]
        rw [hshared', hsame, if_neg hne]
    | some name =>
        have hname : p.info.username audio = name := by rw [hwritten, hlast, Option.getD_some]
        have hname' : p'.info.username audio = name := by rw [hwritten', hlast, Option.getD_some]
        rw [hshared, hname] at hne ⊢
        rw [hshared', hname']
        split_ifs at hne ⊢ with hempty
        · -- the name of the other media is the same each time
          rw [hwritten', hshared, if_neg hne, hwritten, getD_getD]
        · rfl
  · have hnamed' := not_named_again hread hfinish hread' hnamed
    have hnone := not_imp_comm.mp (hfinish.named_iff audio).mp hnamed
    have hnone' := not_imp_comm.mp (hfinish'.named_iff audio).mp hnamed'
    rw [hnone, hnone']

theorem named_again : p'.info.Named ↔ p.info.Named := by
  rw [← hfinish'.named_iff false, username_again hread hfinish hread' hfinish', hfinish.named_iff]

theorem password_again (hnamed : p.info.Named) (audio : Bool) :
    r'.password audio = r.password audio ↔ KeepsPassword lines r audio := by
  have hwritten (audio : Bool) : p.info.password audio
      = (lastOf (attributeIn "a=ice-pwd" audio) lines).getD (info.password audio) := hread.password audio
  have hwritten' (audio : Bool) : p'.info.password audio
      = (lastOf (attributeIn "a=ice-pwd" audio) lines).getD (r.password audio) := hread'.password audio
  have hname : p.info.username audio
      = (lastOf (attributeIn "a=ice-ufrag" audio) lines).getD (info.username audio) := hread.username audio
  have hname' : p'.info.username audio
      = (lastOf (attributeIn "a=ice-ufrag" audio) lines).getD (r.username audio) := hread'.username audio
  have hnamed' := (named_again hread hfinish hread' hfinish').mpr hnamed
  have hshared := hfinish.password hnamed
  by_cases hempty : lastOf (attributeIn "a=ice-ufrag" audio) lines = some []
  · -- the password of the other media is taken each time
    rw [hempty, Option.getD_some] at hname hname'
    have hother : p.info.username (!audio) ≠ [] := by
      have hne := (hfinish.named_iff audio).mpr hnamed
      rwa [hfinish.username, if_pos hname] at hne
    refine iff_of_true ?_ (Or.inl hempty)
    rw [hfinish'.password hnamed', if_pos hname', hwritten', hshared, if_neg hother, hwritten, getD_getD, ← hwritten,
      hshared, if_pos hname]
  · have hne : p'.info.username audio ≠ [] := by
      rw [hname']
      cases hlast : lastOf (attributeIn "a=ice-ufrag" audio) lines with
      | none => exact (hfinish.named_iff audio).mpr hnamed
      | some name => exact fun hname => hempty (hlast.trans (congrArg some hname))
    rw [hfinish'.password hnamed', if_neg hne, hwritten', KeepsPassword, or_iff_right hempty]
    cases lastOf (attributeIn "a=ice-pwd" audio) lines with
    | none => simp
    | some password => simp

/-- A tag gets the media of the last line that names it. -/
theorem bundleTags_again : r'.bundleTags = r.bundleTags ↔ (r.isBundle = true → ∀ tag ∈ r.bundleTags,
    ∀ mtype, lastOf (mediaOf tag.id) lines = some mtype → mtype = tag.mediaType) := by
  have htags : r'.bundleTags = p'.info.bundleTags := congrArg (·.bundleTags) hfinish'.steady
  rw [htags]
  cases hbundle : r.isBundle with
  | true =>
      have hsame (tag : BundleTag) : lines.foldl (fun tag l => retag l tag) tag = tag
          ↔ ∀ mtype, lastOf (mediaOf tag.id) lines = some mtype → mtype = tag.mediaType := by
        rw [foldl_retag]
        cases lastOf (mediaOf tag.id) lines with
        | none => simp
        | some mtype =>
            cases tag
            simp
      rw [hread'.bundleTags hbundle, forall_prop_of_true rfl]
      exact map_eq_self_iff.trans (forall₂_congr fun tag _ => hsame tag)
  | false =>
      have hflags := flags_again hread hfinish hread' hfinish'
      have hbundle' : p'.info.isBundle = false := by
        have hsteady : r'.isBundle = p'.info.isBundle := congrArg (·.isBundle) hfinish'.steady
        rw [← hsteady, hflags.isBundle, hbundle]
      exact iff_of_true (hread'.unbundled hbundle') nofun

omit hfinish' in
/-- The parameters are there already. -/
theorem payloads_between : p'.info.payloadVector = r.payloadVector := by
  have hwritten : p.info.payloadVector = info.payloadVector.map (withParameters lines) :=
    hread.payloadVector.trans (List.map_congr_left fun rtp _ => foldl_withParameter lines rtp)
  have hfound : ∀ rtp ∈ r.payloadVector, ∃ rtp' feedbackTypes,
      rtp = { withParameters lines rtp' with feedbackTypes } := by
    intro rtp hrtp
    obtain ⟨between, hbetween, feedbackTypes, rfl⟩ :
        ∃ between ∈ p.info.payloadVector, ∃ feedbackTypes, rtp = { between with feedbackTypes } := by
      by_cases hnamed : p.info.Named
      · exact Parser.mem_foldlM_addFeedback (hfinish.payloads hnamed) rtp hrtp
      · rw [hfinish.unnamed hnamed] at hrtp
        exact ⟨rtp, hrtp, rtp.feedbackTypes, rfl⟩
    rw [hwritten] at hbetween
    obtain ⟨rtp', -, rfl⟩ := List.mem_map.mp hbetween
    exact ⟨rtp', feedbackTypes, rfl⟩
  refine hread'.payloadVector.trans (map_eq_self_iff.mpr fun rtp hrtp => ?_)
  obtain ⟨rtp', feedbackTypes, rfl⟩ := hfound rtp hrtp
  simp only [foldl_withParameter, withParameters, FormatParameters.setAll_setAll]

theorem payloadVector_again : r'.payloadVector = r.payloadVector ↔ (p.info.Named → ∀ l ∈ lines,
    has "a=rtcp-fb:" l.line → ∀ rtp ∈ r.payloadVector, rtp.payloadType ≠ feedbackType l.line) := by
  have hbetween := payloads_between hread hfinish hread'
  by_cases hnamed : p.info.Named
  · have hadd := hfinish'.payloads ((named_again hread hfinish hread' hfinish').mpr hnamed)
    have hfeedback : p'.tmpFeedbackVector = (lines.map (·.line)).filter (has "a=rtcp-fb:") := hread'.feedback
    rw [hfeedback, hbetween] at hadd
    rw [forall_prop_of_true hnamed, Parser.foldlM_addFeedback_eq_iff hadd]
    simp only [List.mem_filter, List.mem_map, and_imp, forall_exists_index, forall_apply_eq_imp_iff₂]
  · have hnamed' := fun h => hnamed ((named_again hread hfinish hread' hfinish').mp h)
    refine iff_of_true ?_ fun h => absurd h hnamed
    rw [hfinish'.unnamed hnamed', hbetween]

theorem candidates_again : r'.candidateVector = r.candidateVector ↔ (p.info.Named → ∀ c ∈ r.candidateVector,
    KeepsPassword lines r c.ofAudio) := by
  have hbetween : p'.info.candidateVector = r.candidateVector := hread'.candidateVector
  have hflags := flags_again hread hfinish hread' hfinish'
  by_cases hnamed : p.info.Named
  · have hnamed' := (named_again hread hfinish hread' hfinish').mpr hnamed
    have hsame (c : CandidateInfo) : withCredentials r' (withCredentials r c) = withCredentials r c
        ↔ KeepsPassword lines r c.ofAudio := by
      rw [← password_again hread hfinish hread' hfinish' hnamed]
      change withCredentials r' c = withCredentials r c ↔ _
      rw [withCredentials, withCredentials, CandidateInfo.mk.injEq, hflags.isBundle,
        username_again hread hfinish hread' hfinish']
      simp only [true_and, and_true]
    rw [hfinish'.candidates hnamed', hbetween, forall_prop_of_true hnamed, map_eq_self_iff, hfinish.candidates hnamed,
      List.forall_mem_map, List.forall_mem_map]
    exact forall₂_congr fun c _ => hsame c
  · have hnamed' := fun h => hnamed ((named_again hread hfinish hread' hfinish').mp h)
    refine iff_of_true ?_ fun h => absurd h hnamed
    rw [hfinish'.unnamed hnamed', hbetween]

omit hread hfinish in
/-- The lists that quiet lines may change. -/
theorem sameLists_iff : SameLists r r'
    ↔ r'.payloadVector = r.payloadVector ∧ r'.bundleTags = r.bundleTags ∧ r'.candidateVector = r.candidateVector := by
  have hsteady {α : Type} (member : SdpInfo → α) : member r'.steady = member p'.info.steady :=
    congrArg member hfinish'.steady
  constructor
  · exact fun h => ⟨h.payloadVector, h.bundleTags, h.candidateVector⟩
  · rintro ⟨hpayloads, htags, hcandidates⟩
    exact ⟨hpayloads, (hsteady (·.videoCodecs)).trans hread'.videoCodecs,
      (hsteady (·.audioCodecs)).trans hread'.audioCodecs, (hsteady (·.inOutPTMap)).trans hread'.inOutPTMap,
      (hsteady (·.outInPTMap)).trans hread'.outInPTMap, (hsteady (·.extMapVector)).trans hread'.extMapVector, htags,
      hcandidates⟩

omit hfinish' in
/-- The second reading comes to its end if the first one has. -/
theorem finish_again {answer : Bool} (hreturned : p.finish = .ok (answer, r)) : ∃ result, p'.finish = .ok result := by
  have hnames (p : Parser) : p.reading.videoNamed = true ∨ p.reading.audioNamed = true ↔ p.info.Named := by
    rw [SdpInfo.Named, Bool.exists_bool]
    simp [Parser.reading, SdpInfo.username]
  have hfeedback : p'.tmpFeedbackVector = p.tmpFeedbackVector := hread'.feedback.trans hread.feedback.symm
  have hneeds := (Parser.finish_needs p).ne_error_iff.mp (by rw [hreturned]; rintro ⟨⟩)
  obtain ⟨result, hresult, -⟩ := (Parser.finish_needs p').1 fun hnamed => by
    rw [hfeedback]
    exact hneeds ((hnames p).mpr (not_imp_not.mp (not_named_again hread hfinish hread') ((hnames p').mp hnamed)))
  exact ⟨result, hresult⟩

end Twice

/-! ### When the lists are the same -/

/-- A text that adds nothing to a description which it has been read into. -/
structure Repeatable (lines : List AString) (info : SdpInfo) : Prop where
  quiet : ∀ line ∈ lines, Quiet line
  feedback : info.Named → ∀ line ∈ lines, has "a=rtcp-fb:" line →
    ∀ rtp ∈ info.payloadVector, rtp.payloadType ≠ feedbackType line
  ended : info.isBundle = true → ∀ line ∈ lines, midOf line ≠ none → info.bundleTags.length ≤ 255
  tags : info.isBundle = true → ∀ tag ∈ info.bundleTags,
    ∀ mtype, lastOf (mediaOf tag.id) (place .other lines) = some mtype → mtype = tag.mediaType
  candidates : info.Named → ∀ c ∈ info.candidateVector, KeepsPassword (place .other lines) info c.ofAudio

theorem map_line_place (above : MediaType) (lines : List AString) : (place above lines).map (·.line) = lines := by
  induction lines generalizing above with
  | nil => rfl
  | cons line lines ih => rw [place, List.map_cons, ih]

theorem forall_mem_place {above : MediaType} {lines : List AString} {P : AString → Prop} :
    (∀ l ∈ place above lines, P l.line) ↔ ∀ line ∈ lines, P line := by
  have hmap := @List.forall_mem_map _ _ (·.line) (place above lines) P
  rw [map_line_place] at hmap
  exact hmap.symm

theorem codecLine_of_negotiated {lines : List AString} {mtype : MediaType} (h : negotiated mtype lines = []) :
    ∀ line ∈ lines, codecLine line = none := by
  induction lines generalizing mtype with
  | nil => exact fun _ => nofun
  | cons line lines ih =>
      rw [negotiated, List.append_eq_nil_iff] at h
      refine List.forall_mem_cons.mpr ⟨?_, ih h.2⟩
      rw [negotiatedBy] at h
      cases hcodec : codecLine line with
      | none => rfl
      | some found => simp [hcodec] at h

section Again

variable {info r r' : SdpInfo} {sdp : AString} {answer answer' : Bool}

/-- Each reading adds what its lines say. -/
theorem quiet_of_sameLists (h : r.processSdp sdp [] = .ok (answer', r')) (hsame : SameLists r r') :
    ∀ line ∈ getlines sdp, Quiet line := by
  have hcodecs := codecs_processSdp h
  have hnone : negotiated (Parser.start r []).mtype (getlines sdp) = [] := by
    have hpayloads := (addAll_eq r.codecs (negotiated (Parser.start r []).mtype (getlines sdp))).1
    rw [← hcodecs] at hpayloads
    have hlength := congrArg List.length hpayloads
    simp only [SdpInfo.codecs, hsame.payloadVector, List.length_append, List.length_map] at hlength
    exact List.eq_nil_of_length_eq_zero (Nat.left_eq_add.mp hlength)
  have hadded : ((getlines sdp).map Reading.added).sum = 0 := by
    have htotal := Reading.total_foldl_after (getlines sdp) (Parser.start r []).reading
    obtain herror | herror | ⟨result, hresult, hcounted⟩ := Parser.read_cases (Parser.start r []) (getlines sdp)
    · rw [show (Parser.start r []).read (getlines sdp) = .ok (answer', r') from h] at herror
      cases herror
    · rw [show (Parser.start r []).read (getlines sdp) = .ok (answer', r') from h] at herror
      cases herror
    · rw [show (Parser.start r []).read (getlines sdp) = .ok (answer', r') from h] at hresult
      cases hresult
      obtain ⟨-, htags, -, hcandidates, hexts⟩ := hcounted
      rw [hsame.bundleTags] at htags
      rw [hsame.candidateVector] at hcandidates
      rw [hsame.extMapVector] at hexts
      rw [Reading.total, ← htags, ← hcandidates, ← hexts] at htotal
      exact Nat.left_eq_add.mp htotal
  intro line hline
  have hzero := List.sum_eq_zero_iff_forall_eq_nat.mp hadded _ (List.mem_map_of_mem hline)
  exact quiet_of_added (codecLine_of_negotiated hnone line hline) hzero

theorem repeatable_of_again (h : info.processSdp sdp [] = .ok (answer, r))
    (h' : r.processSdp sdp [] = .ok (answer', r')) (hsame : SameLists r r') : Repeatable (getlines sdp) r := by
  have hquiet := quiet_of_sameLists h' hsame
  obtain ⟨p, hlines, hfinish⟩ := exists_of_bind_ok h
  obtain ⟨p', hlines', hfinish'⟩ := exists_of_bind_ok h'
  have hread : LinesRead (Parser.start info []) (place .other (getlines sdp)) p := Parser.lines_read hquiet hlines
  have hread' : LinesRead (Parser.start r []) (place .other (getlines sdp)) p' := Parser.lines_read hquiet hlines'
  have hfin := Parser.finish_inv hfinish
  have hfin' := Parser.finish_inv hfinish'
  have hnamed : r.Named → p.info.Named := fun ⟨audio, hne⟩ => (hfin.named_iff audio).mp hne
  refine ⟨hquiet, fun hname => ?_, fun hbundle => ?_, ?_, fun hname => ?_⟩
  · exact forall_mem_place.mp ((payloadVector_again hread hfin hread' hfin').mp hsame.payloadVector (hnamed hname))
  · exact forall_mem_place.mp (hread'.ended hbundle)
  · exact (bundleTags_again hread hfin hread' hfin').mp hsame.bundleTags
  · exact (candidates_again hread hfin hread' hfin').mp hsame.candidateVector (hnamed hname)

theorem again_of_repeatable (h : info.processSdp sdp [] = .ok (answer, r)) (hrepeat : Repeatable (getlines sdp) r) :
    ∃ answer' r', r.processSdp sdp [] = .ok (answer', r') ∧ SameLists r r' ∧ SameFlags r r' := by
  obtain ⟨hquiet, hfeedback, hended, htags, hcandidates⟩ := hrepeat
  obtain ⟨p, hlines, hfinish⟩ := exists_of_bind_ok h
  have hread : LinesRead (Parser.start info []) (place .other (getlines sdp)) p := Parser.lines_read hquiet hlines
  have hfin := Parser.finish_inv hfinish
  have hsteady {α : Type} (member : SdpInfo → α) : member r.steady = member p.info.steady := congrArg member hfin.steady
  have hbelow : Reading.Below (Parser.start info []).reading (Parser.start r []).reading := by
    refine ⟨rfl, fun hzero => hread.videoSsrc ?_, fun hzero => hread.audioSsrc ?_⟩
    · exact (hsteady (·.videoSsrc)).symm.trans hzero
    · exact (hsteady (·.audioSsrc)).symm.trans hzero
  have hbundles : ∀ line ∈ getlines sdp, bundles line = true → r.isBundle = true := by
    have hplaced : ∀ l ∈ place .other (getlines sdp), bundles l.line = true → r.isBundle = true := by
      intro l hl hbundle
      calc r.isBundle = p.info.isBundle := hsteady (·.isBundle)
        _ = (info.isBundle || true) := hread.isBundle.trans (congrArg _ (List.any_eq_true.mpr ⟨l, hl, hbundle⟩))
        _ = true := Bool.or_true _
    exact forall_mem_place.mp hplaced
  obtain ⟨p', hlines'⟩ := Parser.lines_again hquiet hlines hbelow hbundles hended
  have hread' : LinesRead (Parser.start r []) (place .other (getlines sdp)) p' := Parser.lines_read hquiet hlines'
  obtain ⟨⟨answer', r'⟩, hfinish'⟩ := finish_again hread hfin hread' hfinish
  have hfin' := Parser.finish_inv hfinish'
  have hnamed (hname : p.info.Named) : r.Named := ⟨false, (hfin.named_iff false).mpr hname⟩
  refine ⟨answer', r', ?_, (sameLists_iff hread' hfin').mpr ⟨?_, ?_, ?_⟩, flags_again hread hfin hread' hfin'⟩
  · rw [SdpInfo.processSdp, hlines']
    exact hfinish'
  · exact (payloadVector_again hread hfin hread' hfin').mpr fun hname => forall_mem_place.mpr (hfeedback (hnamed hname))
  · exact (bundleTags_again hread hfin hread' hfin').mpr htags
  · exact (candidates_again hread hfin hread' hfin').mpr fun hname => hcandidates (hnamed hname)

end Again

end Licode.Media.Sdp
