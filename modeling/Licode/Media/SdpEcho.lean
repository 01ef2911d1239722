import Licode.Lib.Outcome
import Licode.Media.SdpText

/-!
# Reading what has been written

What `processSdp` makes of the lines that `getSdp` writes, kind by kind.
-/

namespace Licode.Media.Sdp

namespace Parser

variable {p : Parser} {line : AString}

/-- The parts of the loop body, with the attributes that they look for. -/
def branches : List (List String × (Parser → AString → Checked Parser)) :=
  [(["a=rtcp-mux"], fun p line => .ok (p.processRtcpMux line)),
    (["a=recvonly", "a=sendonly", "a=sendrecv"], fun p line => .ok (p.processDirection line)),
    ([], fun p line => .ok (p.processProfile line)),
    (["a=fingerprint"], processFingerprint),
    (["a=group:"], processGroup),
    (["m=video"], fun p line => .ok (p.processVideo line)),
    (["m=audio"], fun p line => .ok (p.processAudio line)),
    (["a=candidate:"], processCand),
    (["a=crypto:"], processCrypto),
    (["a=ice-ufrag"], processUser),
    (["a=ice-pwd"], processPass),
    (["a=mid"], processMid),
    (["a=ssrc"], processSsrc),
    (["a=ssrc-group"], fun p line => .ok (p.processSsrcGroup line)),
    (["a=rtpmap:"], processRtpmap),
    (["a=extmap:"], processExtmap),
    (["a=rtcp-fb:"], fun p line => .ok (p.processFeedback line)),
    (["a=fmtp:"], fun p line => .ok (p.processFmtp line)),
    (["b=AS:"], fun p line => .ok (p.processBandwidth line))]

theorem processLine_eq_branches (p : Parser) (line : AString) :
    p.processLine line = branches.foldlM (fun p branch => branch.2 p line) p := by
  simp only [processLine, branches, List.foldlM_cons, List.foldlM_nil, Checked.ok_bind, Checked.pure_eq_ok]

/-- A part does nothing on a line that has none of its attributes. -/
theorem branch_eq_ok {branch : List String × (Parser → AString → Checked Parser)}
    (hbranch : branch ∈ branches) (hne : branch.1 ≠ []) (h : ∀ keyword ∈ branch.1, has keyword line = false)
    (p : Parser) : branch.2 p line = .ok p := by
  simp only [branches, List.mem_cons, List.not_mem_nil, or_false] at hbranch
  rcases hbranch with rfl | rfl | rfl | rfl | rfl | rfl | rfl | rfl | rfl | rfl | rfl | rfl | rfl | rfl
    | rfl | rfl | rfl | rfl | rfl
  all_goals
    simp only [List.forall_mem_cons, List.not_mem_nil, false_imp_iff, implies_true, and_true] at h
    simp [h, processRtcpMux, processDirection, processFingerprint, processGroup, processVideo,
      processAudio, processCand, processCrypto, processUser, processPass, keepValue, processMid, processSsrc,
      processSsrcGroup, processRtpmap, processExtmap, processFeedback, processFmtp, processBandwidth] at hne ⊢

/-- Whether a part may do something on a line with some attributes only. -/
def owns (own : List String) (branch : List String × (Parser → AString → Checked Parser)) : Bool :=
  branch.1.isEmpty || branch.1.any own.contains

theorem processLine_of_only {own : List String} (h : only own line = true) (p : Parser) :
    p.processLine line = (branches.filter (owns own)).foldlM (fun p branch => branch.2 p line) p := by
  have hkeywords : ∀ branch ∈ branches, ∀ keyword ∈ branch.1, keyword ∈ keywords := by decide
  rw [processLine_eq_branches]
  refine foldlM_filter (fun branch hbranch hother p => ?_) p
  obtain ⟨hempty, hany⟩ := Bool.or_eq_false_iff.mp hother
  refine branch_eq_ok hbranch (by simpa using hempty) (fun keyword hkeyword => ?_) p
  refine has_eq_false h (hkeywords branch hbranch keyword hkeyword) fun hmem => ?_
  exact absurd (List.contains_iff_mem.mpr hmem) (List.any_eq_false.mp hany keyword hkeyword)

/-- A parser without what is not written into a description. -/
def view (p : Parser) : Parser :=
  { p with
    mlineNum := 0
    info := { p.info with
      profile := .savpf
      videoCodecs := 0
      audioCodecs := 0
      videoSdpMLine := 0
      audioSdpMLine := 0
      videoBandwidth := 0
      inOutPTMap := []
      outInPTMap := []
      cryptoVector := [] } }

theorem view_processProfile (p : Parser) (line : AString) : (p.processProfile line).view = p.view := by
  rw [processProfile]
  split_ifs <;> rfl

/-- A parser that looks like `v` reads the lines, which have no newline in them, and then looks like
`w`. -/
def Hears (lines : List AString) (v w : Parser) : Prop :=
  (∀ line ∈ lines, free "\n" line = true)
    ∧ ∀ p : Parser, p.view = v → ∃ q, lines.foldlM processLine p = .ok q ∧ q.view = w

theorem Hears.nil (v : Parser) : Hears [] v v := ⟨by simp, fun p hp => ⟨p, rfl, hp⟩⟩

theorem Hears.append {lines lines' : List AString} {u v w : Parser} (h : Hears lines u v)
    (h' : Hears lines' v w) : Hears (lines ++ lines') u w := by
  refine ⟨List.forall_mem_append.mpr ⟨h.1, h'.1⟩, fun p hp => ?_⟩
  obtain ⟨q, hq, hview⟩ := h.2 p hp
  obtain ⟨r, hr, hview'⟩ := h'.2 q hview
  exact ⟨r, by rw [List.foldlM_append, hq, Checked.ok_bind, hr], hview'⟩

theorem Hears.cons {lines : List AString} {u v w : Parser} (h : Hears [line] u v) (h' : Hears lines v w) :
    Hears (line :: lines) u w :=
  h.append h'

theorem Hears.to {lines : List AString} {u v w : Parser} (h : Hears lines u v) (hw : v = w) : Hears lines u w :=
  hw ▸ h

/-- The same where reading the lines needs something, and is out of bounds without it. -/
def Tells (lines : List AString) (v : Parser) (needs : Prop) (w : Parser) : Prop :=
  (∀ line ∈ lines, free "\n" line = true)
    ∧ ∀ p : Parser, p.view = v → Needs .outOfBounds needs (·.view = w) (lines.foldlM processLine p)

theorem Hears.tells {lines : List AString} {v w : Parser} (h : Hears lines v w) : Tells lines v True w := by
  refine ⟨h.1, fun p hp => ?_⟩
  obtain ⟨q, hq, hview⟩ := h.2 p hp
  rw [hq]
  exact Needs.ok trivial hview

theorem Tells.congr {lines : List AString} {v w : Parser} {needs needs' : Prop} (h : Tells lines v needs w)
    (hiff : needs ↔ needs') : Tells lines v needs' w :=
  ⟨h.1, fun p hp => (h.2 p hp).congr hiff⟩

theorem Tells.append {lines lines' : List AString} {u v w : Parser} {needs needs' : Prop}
    (h : Tells lines u needs v) (h' : Tells lines' v needs' w) : Tells (lines ++ lines') u (needs ∧ needs') w := by
  refine ⟨List.forall_mem_append.mpr ⟨h.1, h'.1⟩, fun p hp => ?_⟩
  rw [List.foldlM_append]
  refine (h.2 p hp).bind And.left fun hneeds q hq => (h'.2 q hq).congr ?_
  exact (and_iff_right hneeds).symm

/-- Lines that ask for nothing, behind others. -/
theorem Tells.hear {lines lines' : List AString} {u v w : Parser} {needs : Prop} (h : Tells lines u needs v)
    (h' : Hears lines' v w) : Tells (lines ++ lines') u needs w :=
  (h.append h'.tells).congr (and_iff_left trivial)

theorem Tells.cons {lines : List AString} {u v w : Parser} {needs needs' : Prop} (h : Tells [line] u needs v)
    (h' : Tells lines v needs' w) : Tells (line :: lines) u (needs ∧ needs') w :=
  h.append h'

theorem Tells.to {lines : List AString} {u v w : Parser} {needs : Prop} (h : Tells lines u needs v) (hw : v = w) :
    Tells lines u needs w :=
  hw ▸ h

/-- A line that is heard if a part of it is not empty, and otherwise out of bounds. -/
theorem tells_line {value : AString} {v w : Parser} (hfree : free "\n" line = true)
    (h : value ≠ [] → Hears [line] v w) (herror : value = [] → ∀ p : Parser, p.processLine line = .error .outOfBounds) :
    Tells [line] v (value ≠ []) w := by
  refine ⟨List.forall_mem_singleton.mpr hfree, fun p hp => ?_⟩
  by_cases hvalue : value = []
  · rw [List.foldlM_cons, herror hvalue]
    exact Needs.error (not_not.mpr hvalue)
  · exact ⟨fun hne => (h hne).2 p hp, fun hnot => absurd hvalue hnot⟩

/-- Lines that each add to a list, heard one after the other. -/
theorem Hears.collect {α β : Type} {items : List α} {print : α → AString} {add : Parser → List β → Parser}
    {found : α → List β} (hnil : ∀ v, add v [] = v) (v : Parser)
    (h : ∀ a ∈ items, ∀ bs, Hears [print a] (add v bs) (add v (bs ++ found a))) :
    Hears (items.map print) v (add v (items.flatMap found)) := by
  have hall : ∀ bs, Hears (items.map print) (add v bs) (add v (bs ++ items.flatMap found)) := by
    induction items with
    | nil =>
        intro bs
        rw [List.flatMap_nil, List.append_nil]
        exact Hears.nil _
    | cons a items ih =>
        intro bs
        rw [List.flatMap_cons, ← List.append_assoc]
        exact (h a List.mem_cons_self bs).cons (ih (fun b hb => h b (List.mem_cons_of_mem a hb)) _)
  have hstart := hall []
  rw [hnil, List.nil_append] at hstart
  exact hstart

theorem hears_line {v w : Parser} (hfree : free "\n" line = true)
    (h : ∀ p : Parser, p.view = v → ∃ q, p.processLine line = .ok q ∧ q.view = w) : Hears [line] v w := by
  refine ⟨List.forall_mem_singleton.mpr hfree, fun p hp => ?_⟩
  obtain ⟨q, hq, hview⟩ := h p hp
  exact ⟨q, by rw [List.foldlM_cons, hq]; rfl, hview⟩

theorem hears_plain (hfree : free "\n" line = true) (h : only [] line = true) (v : Parser) :
    Hears [line] v v := by
  refine hears_line hfree fun p hp => ⟨p.processProfile line, ?_, (view_processProfile p line).trans hp⟩
  have hown : branches.filter (owns []) = [([], fun p line => .ok (p.processProfile line))] := rfl
  rw [processLine_of_only h, hown]
  rfl

/-- A line with the attribute of one part is read by that part. -/
theorem hears_branch {own found : List String} {process : Parser → AString → Checked Parser}
    (hfree : free "\n" line = true) (h : only own line = true)
    (hown : branches.filter (owns own) = [([], fun p line => .ok (p.processProfile line)), (found, process)])
    {v w : Parser} (hprocess : ∀ p : Parser, p.view = v → ∃ q, process p line = .ok q ∧ q.view = w) :
    Hears [line] v w := by
  refine hears_line hfree fun p hp => ?_
  obtain ⟨q, hq, hview⟩ := hprocess (p.processProfile line) ((view_processProfile p line).trans hp)
  refine ⟨q, ?_, hview⟩
  rw [processLine_of_only h, hown]
  simp only [List.foldlM_cons, List.foldlM_nil, Checked.ok_bind, bind_pure]
  exact hq

/-! ### The kinds of lines -/

theorem hears_mux (v : Parser) :
    Hears [ascii "a=rtcp-mux"] v { v with info := { v.info with isRtcpMux := true } } := by
  refine hears_line rfl fun p hp => ⟨{ p with info := { p.info with isRtcpMux := true } }, rfl, ?_⟩
  rw [← hp]
  rfl

theorem hears_direction (direction : StreamDirection) (v : Parser) :
    Hears (SdpInfo.printDirection (some direction)) v (v.setDirection direction) := by
  have hview (p : Parser) : (p.setDirection direction).view = p.view.setDirection direction := by
    by_cases haudio : p.mtype = .audio
    · have hview : p.view.mtype = .audio := haudio
      rw [setDirection, setDirection, if_pos haudio, if_pos hview]
      rfl
    · have hview : p.view.mtype ≠ .audio := haudio
      rw [setDirection, setDirection, if_neg haudio, if_neg hview]
      rfl
  cases direction with
  | sendrecv => exact hears_line rfl fun p hp => ⟨p.setDirection .sendrecv, rfl, by rw [← hp, hview]⟩
  | sendonly => exact hears_line rfl fun p hp => ⟨p.setDirection .sendonly, rfl, by rw [← hp, hview]⟩
  | recvonly => exact hears_line rfl fun p hp => ⟨p.setDirection .recvonly, rfl, by rw [← hp, hview]⟩

theorem hears_audio {rest : AString} (hrest : free "\n=" rest = true) (v : Parser) :
    Hears [ascii "m=audio" ++ rest] v { v with info := { v.info with hasAudio := true }, mtype := .audio } := by
  have hline : only ["m=audio"] (ascii "m=audio" ++ rest) = true :=
    only_of_start rfl rfl (free_subset hrest rfl)
  refine hears_branch (free_text rfl (free_subset hrest rfl)) hline rfl fun p hp => ⟨_, rfl, ?_⟩
  rw [processAudio, if_pos (has_start _ _), ← hp]
  rfl

theorem hears_video {rest : AString} (hrest : free "\n=" rest = true) (v : Parser) :
    Hears [ascii "m=video" ++ rest] v { v with info := { v.info with hasVideo := true }, mtype := .video } := by
  have hline : only ["m=video"] (ascii "m=video" ++ rest) = true :=
    only_of_start rfl rfl (free_subset hrest rfl)
  refine hears_branch (free_text rfl (free_subset hrest rfl)) hline rfl fun p hp => ⟨_, rfl, ?_⟩
  rw [processVideo, if_pos (has_start _ _), ← hp]
  rfl

/-- Two parts of a text at its first colon. -/
theorem splitOneOf_colon {key value : AString} (hkey : free ":" key = true) (hne : value ≠ []) :
    splitOneOf (key ++ 58 :: value) (ascii ":") 1 = [key, value] := by
  have hsplit := @splitOneOf_fields (ascii ":") 1 [(key, 58)] value (Or.inr le_rfl)
    (List.forall_mem_singleton.mpr (part_of_free hkey rfl)) (Or.inl ⟨Nat.one_ne_zero, rfl⟩) hne
  simpa using hsplit

theorem hears_fingerprint {fingerprint : AString} (hfree : free " \n=" fingerprint = true)
    (hne : fingerprint ≠ []) (v : Parser) :
    Hears [ascii "a=fingerprint:sha-256 " ++ fingerprint] v
      { v with info := { v.info with fingerprint := fingerprint, isFingerprint := true } } := by
  have hline : only ["a=fingerprint"] (ascii "a=fingerprint:sha-256 " ++ fingerprint) = true :=
    only_of_start rfl rfl (free_subset hfree rfl)
  have hcolon : splitOneOf (ascii "a=fingerprint:sha-256 " ++ fingerprint) (ascii ":") 1
      = [ascii "a=fingerprint", ascii "sha-256 " ++ fingerprint] :=
    @splitOneOf_colon (ascii "a=fingerprint") (ascii "sha-256 " ++ fingerprint) rfl
      (List.append_ne_nil_of_right_ne_nil _ hne)
  have hblank : splitOneOf (ascii "sha-256 " ++ fingerprint) (ascii " ") 0 = [ascii "sha-256", fingerprint] := by
    have hsplit := @splitOneOf_fields (ascii " ") 0 [(ascii "sha-256", 32)] fingerprint (Or.inl rfl)
      (List.forall_mem_singleton.mpr (part_of_free rfl rfl))
      (Or.inr (not_mem_of_free (free_subset hfree rfl))) hne
    exact hsplit
  refine hears_branch (free_text rfl (free_subset hfree rfl)) hline rfl fun p hp => ?_
  have hhas : has "a=fingerprint" (ascii "a=fingerprint:sha-256 " ++ fingerprint) = true :=
    has_start "a=fingerprint" _
  rw [processFingerprint, if_pos hhas, hcolon, piece_of_getElem? rfl,
    Checked.ok_bind, hblank, piece_of_getElem? rfl, ← hp]
  exact ⟨_, rfl, rfl⟩

/-- The value of an attribute that has no carriage return. -/
theorem attributeValue_eq {key value : AString} (hkey : free ":" key = true) (hvalue : free "\r" value = true)
    (hne : value ≠ []) : attributeValue (key ++ 58 :: value) = .ok value := by
  have hrest : splitOneOf value (ascii "\r") 1 = [value] :=
    @splitOneOf_fields (ascii "\r") 1 [] value (Or.inr (Nat.zero_le 1)) (by simp)
      (Or.inr (not_mem_of_free hvalue)) hne
  rw [attributeValue, splitOneOf_colon hkey hne, piece_of_getElem? rfl, Checked.ok_bind, hrest,
    piece_of_getElem? rfl]

/-- Without a value an attribute is out of bounds. -/
theorem tells_value (keyword : String) (audio video : AString → SdpInfo → SdpInfo) {value : AString}
    (hown : branches.filter (owns [keyword])
      = [([], fun p line => .ok (p.processProfile line)), ([keyword], keepValue keyword audio video)])
    (hfree : free "\n" (ascii keyword ++ 58 :: value) = true)
    (hline : only [keyword] (ascii keyword ++ 58 :: value) = true) (hkey : free ":" (ascii keyword) = true)
    (hvalue : free "\r" value = true) (hempty : attributeValue (ascii keyword ++ [58]) = .error .outOfBounds)
    (haudio : ∀ p : Parser,
      view { p with info := audio value p.info } = { p.view with info := audio value p.view.info })
    (hvideo : ∀ p : Parser,
      view { p with info := video value p.info } = { p.view with info := video value p.view.info }) (v : Parser) :
    Tells [ascii keyword ++ 58 :: value] v (value ≠ [])
      (if v.mtype = .audio then { v with info := audio value v.info }
        else { v with info := video value v.info }) := by
  have hhas : has keyword (ascii keyword ++ 58 :: value) = true := has_start keyword _
  refine tells_line hfree (fun hne => hears_branch hfree hline hown fun p hp => ?_) ?_
  · have hmtype : v.mtype = p.mtype := by rw [← hp]; rfl
    rw [keepValue, if_pos hhas, attributeValue_eq hkey hvalue hne, Checked.ok_bind, hmtype, ← hp]
    split_ifs
    · exact ⟨_, rfl, haudio p⟩
    · exact ⟨_, rfl, hvideo p⟩
  · rintro rfl p
    rw [processLine_of_only hline, hown]
    simp only [List.foldlM_cons, List.foldlM_nil, Checked.ok_bind, keepValue, if_pos hhas, hempty,
      Checked.error_bind]

theorem tells_user {name : AString} (hfree : free "\r\n=" name = true) (v : Parser) :
    Tells [ascii "a=ice-ufrag:" ++ name] v (name ≠ [])
      (if v.mtype = .audio then { v with info := { v.info with iceAudioUsername := name } }
        else { v with info := { v.info with iceVideoUsername := name } }) :=
  tells_value "a=ice-ufrag" (fun username info => { info with iceAudioUsername := username })
    (fun username info => { info with iceVideoUsername := username }) rfl
    (@free_text "\n" (ascii "a=ice-ufrag:") name rfl (free_subset hfree rfl))
    (@only_of_start ["a=ice-ufrag"] (ascii "a=ice-ufrag:") name rfl rfl (free_subset hfree rfl)) rfl (free_subset hfree rfl) rfl
    (fun _ => rfl) (fun _ => rfl) v

theorem tells_pass {password : AString} (hfree : free "\r\n=" password = true) (v : Parser) :
    Tells [ascii "a=ice-pwd:" ++ password] v (password ≠ [])
      (if v.mtype = .audio then { v with info := { v.info with iceAudioPassword := password } }
        else { v with info := { v.info with iceVideoPassword := password } }) :=
  tells_value "a=ice-pwd" (fun password info => { info with iceAudioPassword := password })
    (fun password info => { info with iceVideoPassword := password }) rfl
    (@free_text "\n" (ascii "a=ice-pwd:") password rfl (free_subset hfree rfl))
    (@only_of_start ["a=ice-pwd"] (ascii "a=ice-pwd:") password rfl rfl (free_subset hfree rfl)) rfl (free_subset hfree rfl) rfl
    (fun _ => rfl) (fun _ => rfl) v

theorem tells_fingerprint {fingerprint : AString} (hfree : free " \n=" fingerprint = true) (v : Parser) :
    Tells [ascii "a=fingerprint:sha-256 " ++ fingerprint] v (fingerprint ≠ [])
      { v with info := { v.info with fingerprint := fingerprint, isFingerprint := true } } := by
  refine tells_line (free_text rfl (free_subset hfree rfl)) (fun hne => hears_fingerprint hfree hne v) ?_
  rintro rfl p
  have hown : branches.filter (owns ["a=fingerprint"])
      = [([], fun p line => .ok (p.processProfile line)), (["a=fingerprint"], processFingerprint)] := rfl
  rw [List.append_nil,
    processLine_of_only (show only ["a=fingerprint"] (ascii "a=fingerprint:sha-256 ") = true from rfl), hown]
  rfl

/-- The line of a group. -/
def groupText (tags : List BundleTag) : AString :=
  ascii "a=group:BUNDLE" ++ tags.flatMap fun tag => ascii " " ++ tag.id

/-- The names that are read from the line of a group. -/
def groupIds (tags : List BundleTag) : List AString :=
  (splitOneOf (groupText tags) (ascii ":  \r\n") 10).drop 2

theorem splitOneOf_groupText (tags : List BundleTag) :
    splitOneOf (groupText tags) (ascii ":  \r\n") 10 = ascii "a=group" :: ascii "BUNDLE" :: groupIds tags := by
  have hhead : ∃ ids, splitOneOf (groupText tags) (ascii ":  \r\n") 10
      = ascii "a=group" :: ascii "BUNDLE" :: ids := by
    cases tags with
    | nil => exact ⟨[], rfl⟩
    | cons tag tags =>
        refine ⟨splitLoop (ascii ":  \r\n") 10 2 []
          (tag.id ++ tags.flatMap fun tag => ascii " " ++ tag.id), ?_⟩
        rfl
  obtain ⟨ids, hids⟩ := hhead
  rw [groupIds, hids]
  rfl

theorem length_groupIds_le (tags : List BundleTag) : (groupIds tags).length ≤ 9 := by
  have hlength := @splitOneOf_length_le (groupText tags) (ascii ":  \r\n") 10 (by omega)
  rw [splitOneOf_groupText, List.length_cons, List.length_cons] at hlength
  omega

/-- Words with blanks between them. -/
theorem words_eq_fields (word : AString) (tags : List BundleTag) (last : AString) :
    word ++ (tags.flatMap fun tag => ascii " " ++ tag.id) ++ (ascii " " ++ last)
      = ((word, 32) :: tags.map fun tag => (tag.id, 32)).flatMap (fun field => field.1 ++ [field.2]) ++ last := by
  induction tags generalizing word with
  | nil => simp [ascii]
  | cons tag tags ih =>
      have hrest := ih tag.id
      simp only [List.flatMap_cons, List.map_cons, List.append_assoc] at hrest ⊢
      rw [← hrest]
      rfl

/-- Up to nine tags are read back, except for a last one that has no name. -/
theorem groupIds_concat {init : List BundleTag} {last : BundleTag} (hnine : init.length ≤ 8)
    (h : ∀ tag ∈ init ++ [last], free ":  \r\n" tag.id = true) :
    groupIds (init ++ [last]) = init.map (·.id) ++ if last.id = [] then [] else [last.id] := by
  have hlast := h last (by simp)
  have htext : groupText (init ++ [last])
      = ((ascii "a=group", 58) :: (ascii "BUNDLE", 32) :: init.map fun tag => (tag.id, 32)).flatMap
        (fun field => field.1 ++ [field.2]) ++ last.id := by
    have hwords := words_eq_fields (ascii "BUNDLE") init last.id
    rw [List.flatMap_cons, List.append_assoc, ← hwords, groupText, List.flatMap_append]
    simp only [List.flatMap_cons, List.flatMap_nil, List.append_nil, ← List.append_assoc]
    rfl
  have hfields : ∀ field ∈ (ascii "a=group", 58) :: (ascii "BUNDLE", 32) :: init.map fun tag => (tag.id, 32),
      (∀ c ∈ field.1, c ∉ ascii ":  \r\n") ∧ field.2 ∈ ascii ":  \r\n" := by
    refine List.forall_mem_cons.mpr ⟨part_of_free rfl rfl, List.forall_mem_cons.mpr ⟨part_of_free rfl rfl, ?_⟩⟩
    refine List.forall_mem_map.mpr fun tag htag => part_of_free ?_ rfl
    exact h tag (by simp [htag])
  have hsplit := @splitOneOf_fields_rest (ascii ":  \r\n") 10 _ last.id (Or.inr ?_) hfields
    (Or.inr (not_mem_of_free hlast))
  · rw [groupIds, htext, hsplit]
    simp
  · simp only [List.length_cons, List.length_map]
    omega

theorem groupIds_eq_iff {tags : List BundleTag} (h : ∀ tag ∈ tags, free ":  \r\n" tag.id = true) :
    groupIds tags = tags.map (·.id)
      ↔ tags.length ≤ 9 ∧ ∀ tag, tags.getLast? = some tag → tag.id ≠ [] := by
  obtain rfl | ⟨init, last, rfl⟩ := List.eq_nil_or_concat' tags
  · exact ⟨fun _ => ⟨Nat.zero_le 9, by simp⟩, fun _ => rfl⟩
  have hlength : (init ++ [last]).length = init.length + 1 := by simp
  by_cases hnine : init.length ≤ 8
  · rw [groupIds_concat hnine h, List.map_append, List.append_right_inj, hlength]
    simp only [List.getLast?_concat, Option.some.injEq, forall_eq']
    split_ifs with hname
    · exact ⟨fun hnil => (List.cons_ne_nil _ _ hnil.symm).elim, fun hall => absurd hname hall.2⟩
    · exact ⟨fun _ => ⟨by omega, hname⟩, fun _ => rfl⟩
  · -- there are more than the line is cut into
    refine ⟨fun heq => ?_, fun hall => absurd hall.1 (by omega)⟩
    have hids := length_groupIds_le (init ++ [last])
    rw [heq, List.length_map, hlength] at hids
    omega

theorem hears_group {tags : List BundleTag} (h : ∀ tag ∈ tags, free "\n=" tag.id = true) (v : Parser) :
    Hears [groupText tags] v { v with info := { v.info with
      isBundle := true
      bundleTags := v.info.bundleTags ++ (groupIds tags).map fun id => ⟨id, .other⟩ } } := by
  have hrest : free "\n=" (tags.flatMap fun tag => ascii " " ++ tag.id) = true :=
    free_flatMap fun tag htag => free_text rfl (h tag htag)
  have hline : only ["a=group:"] (groupText tags) = true :=
    @only_of_start _ (ascii "a=group:BUNDLE") _ rfl rfl (free_subset hrest rfl)
  have hnewline : free "\n" (groupText tags) = true := free_text rfl (free_subset hrest rfl)
  refine hears_branch hnewline hline rfl fun p hp => ?_
  have hhas : has "a=group:" (groupText tags) = true := has_start "a=group:" _
  rw [processGroup, if_pos hhas, splitOneOf_groupText, ← hp]
  refine ⟨_, rfl, ?_⟩
  simp [view, newTags]

/-- The tags of a name get a media type. -/
def nameTags (tags : List BundleTag) (id : AString) (mediaType : MediaType) : List BundleTag :=
  tags.map fun tag => if tag.id = id then { tag with mediaType := mediaType } else tag

/-- A line with the name of a tag, for a bundle or where there are no tags. -/
theorem hears_mid {id : AString} (hfree : free ": \r\n=" id = true) (hne : id ≠ []) {v : Parser}
    (hbundle : v.info.isBundle = true ∨ v.info.bundleTags = []) (htags : v.info.bundleTags.length ≤ 255) :
    Hears [ascii "a=mid:" ++ id] v
      { v with info := { v.info with bundleTags := nameTags v.info.bundleTags id v.mtype } } := by
  have hline : only ["a=mid"] (ascii "a=mid:" ++ id) = true := only_of_start rfl rfl (free_subset hfree rfl)
  have hhas : has "a=mid" (ascii "a=mid:" ++ id) = true := has_start "a=mid" _
  have hparts : splitOneOf (ascii "a=mid:" ++ id) (ascii ": \r\n") 4 = [ascii "a=mid", id] :=
    @splitOneOf_fields (ascii ": \r\n") 4 [(ascii "a=mid", 58)] id (Or.inr (by decide))
      (List.forall_mem_singleton.mpr (part_of_free rfl rfl))
      (Or.inr (not_mem_of_free (free_subset hfree rfl))) hne
  refine hears_branch (free_text rfl (free_subset hfree rfl)) hline rfl fun p hp => ?_
  subst hp
  have hptags : p.info.bundleTags.length ≤ 255 := htags
  have hrun : ByteLoop.run p.info.bundleTags.length (nameTag id p.mtype) p.info.bundleTags
      = some (nameTags p.info.bundleTags id p.mtype) :=
    (ByteLoop.run_modify _ _).trans (if_pos hptags)
  rw [processMid, if_pos hhas, hparts]
  dsimp only
  by_cases hpbundle : p.info.isBundle = true
  · rw [if_pos hpbundle, hrun]
    exact ⟨_, rfl, rfl⟩
  · have hnil : p.view.info.bundleTags = [] := hbundle.resolve_left hpbundle
    rw [if_neg hpbundle, hnil]
    refine ⟨p, rfl, ?_⟩
    rw [nameTags, List.map_nil, ← hnil]

/-- A line without the name of a tag says nothing. -/
theorem hears_mid_nil (v : Parser) : Hears [ascii "a=mid:" ++ []] v v :=
  hears_branch rfl (show only ["a=mid"] _ = true from rfl) rfl fun p hp => ⟨p, rfl, hp⟩

/-- The tags that have one of the names get a media type. -/
def nameAllTags (tags : List BundleTag) (ids : List AString) (mediaType : MediaType) : List BundleTag :=
  tags.map fun tag => if tag.id ≠ [] ∧ tag.id ∈ ids then { tag with mediaType := mediaType } else tag

theorem nameAllTags_cons_nil (tags : List BundleTag) (ids : List AString) (mediaType : MediaType) :
    nameAllTags tags ([] :: ids) mediaType = nameAllTags tags ids mediaType := by
  refine List.map_congr_left fun tag _ => ?_
  by_cases hid : tag.id = []
  · simp [hid]
  · simp [hid]

theorem nameAllTags_cons {id : AString} (hne : id ≠ []) (tags : List BundleTag) (ids : List AString)
    (mediaType : MediaType) :
    nameAllTags tags (id :: ids) mediaType = nameAllTags (nameTags tags id mediaType) ids mediaType := by
  rw [nameAllTags, nameAllTags, nameTags, List.map_map]
  refine List.map_congr_left fun tag _ => ?_
  by_cases hid : tag.id = id
  · simp [hid, hne]
  · simp [hid]

/-- Lines with the names of several tags. -/
theorem hears_mids {ids : List AString} (h : ∀ id ∈ ids, free ": \r\n=" id = true) {v : Parser}
    (hbundle : v.info.isBundle = true ∨ v.info.bundleTags = []) (htags : v.info.bundleTags.length ≤ 255) :
    Hears (ids.map (ascii "a=mid:" ++ ·)) v
      { v with info := { v.info with bundleTags := nameAllTags v.info.bundleTags ids v.mtype } } := by
  induction ids generalizing v with
  | nil =>
      simp only [nameAllTags, List.not_mem_nil, and_false, if_false, List.map_id']
      exact Hears.nil v
  | cons id ids ih =>
      have hids : ∀ i ∈ ids, free ": \r\n=" i = true := fun i hi => h i (List.mem_cons_of_mem id hi)
      by_cases hne : id = []
      · subst hne
        rw [nameAllTags_cons_nil]
        exact (hears_mid_nil v).cons (ih hids hbundle htags)
      have hfirst := hears_mid (h id List.mem_cons_self) hne hbundle htags
      have hlength : (nameTags v.info.bundleTags id v.mtype).length ≤ 255 := by
        rw [nameTags, List.length_map]
        exact htags
      have hrest := @ih hids
        { v with info := { v.info with bundleTags := nameTags v.info.bundleTags id v.mtype } }
        (hbundle.imp_right fun hnil => by simp [nameTags, hnil]) hlength
      rw [nameAllTags_cons hne]
      exact hfirst.cons hrest

/-- The number of a source is between the colon and the blank. -/
theorem splitOneOf_ssrc (ssrc : UInt32) (rest : AString) :
    (splitOneOf (ascii "a=ssrc:" ++ decimal ssrc.toNat ++ 32 :: rest) (ascii " :") 2)[1]?
      = some (decimal ssrc.toNat) := by
  have htext : ascii "a=ssrc:" ++ decimal ssrc.toNat ++ 32 :: rest
      = ascii "a=ssrc" ++ 58 :: (decimal ssrc.toNat ++ 32 :: rest) := by
    rw [List.append_assoc]
    rfl
  have hdelim (c : UInt8) (h : (ascii " :").contains c = true) : c ∈ ascii " :" := List.contains_iff_mem.mp h
  rw [htext, splitOneOf, splitLoop_append (by decide) _ (not_mem_of_free rfl) (hdelim 58 rfl),
    splitLoop_append (by decide) _ (not_mem_of_free (free_decimal rfl _)) (hdelim 32 rfl)]
  rfl

/-- What a line with a source does: it is taken if none is known for the media. -/
def takeSsrc (v : Parser) (ssrc : UInt32) : Parser :=
  if v.mtype = .video ∧ v.info.videoSsrc = 0 then { v with info := { v.info with videoSsrc := ssrc } }
  else if v.mtype = .audio ∧ v.info.audioSsrc = 0 then { v with info := { v.info with audioSsrc := ssrc } }
  else v

theorem hears_ssrc (ssrc : UInt32) {rest : AString} (hrest : free "\n=" rest = true) (v : Parser) :
    Hears [ascii "a=ssrc:" ++ decimal ssrc.toNat ++ 32 :: rest] v (v.takeSsrc ssrc) := by
  have hfree : free "\n=" (decimal ssrc.toNat ++ 32 :: rest) = true :=
    free_text (free_decimal rfl _) (@free_text _ [32] rest rfl hrest)
  have hline : only ["a=ssrc"] (ascii "a=ssrc:" ++ decimal ssrc.toNat ++ 32 :: rest) = true := by
    rw [List.append_assoc]
    exact only_of_start rfl rfl (free_subset hfree rfl)
  have hhas : has "a=ssrc" (ascii "a=ssrc:" ++ decimal ssrc.toNat ++ 32 :: rest) = true := by
    rw [List.append_assoc]
    exact has_start "a=ssrc" _
  have hnewline : free "\n" (ascii "a=ssrc:" ++ decimal ssrc.toNat ++ 32 :: rest) = true := by
    rw [List.append_assoc]
    exact free_text rfl (free_subset hfree rfl)
  refine hears_branch hnewline hline rfl fun p hp => ?_
  subst hp
  have hpiece := piece_of_getElem? (splitOneOf_ssrc ssrc rest)
  have hvideo : p.view.mtype = .video ∧ p.view.info.videoSsrc = 0 ↔ p.mtype = .video ∧ p.info.videoSsrc = 0 := Iff.rfl
  have haudio : p.view.mtype = .audio ∧ p.view.info.audioSsrc = 0 ↔ p.mtype = .audio ∧ p.info.audioSsrc = 0 := Iff.rfl
  rw [processSsrc, if_pos hhas, takeSsrc]
  simp only [hpiece, Checked.ok_bind, strtoul_number, hvideo, haudio]
  split_ifs
  · exact ⟨_, rfl, rfl⟩
  · exact ⟨_, rfl, rfl⟩
  · exact ⟨_, rfl, rfl⟩

/-! ### Candidates -/

/-- A candidate with another address. -/
def related (candidate : CandidateInfo) : Prop := candidate.hostType = .srflx ∨ candidate.hostType = .relay

instance (candidate : CandidateInfo) : Decidable (related candidate) :=
  inferInstanceAs (Decidable (_ ∨ _))

/-- The strings of a candidate stand between blanks and colons. -/
structure CandidateClean (candidate : CandidateInfo) : Prop where
  foundation : free " :\n=" candidate.foundation = true
  netProtocol : free " :\n=" candidate.netProtocol = true
  hostAddress : free " :\n=" candidate.hostAddress = true
  rAddress : related candidate → free " :\n=" candidate.rAddress = true

/-- The words of a candidate after its attribute, but for the last. -/
def candidateWords (candidate : CandidateInfo) : List AString :=
  [candidate.foundation, decimal candidate.componentId.toNat, candidate.netProtocol,
    decimal candidate.priority.toNat, candidate.hostAddress, decimalInt candidate.hostPort, ascii "typ",
    hostTypeWord candidate.hostType]
  ++ (if related candidate then [ascii "raddr", candidate.rAddress, ascii "rport", decimalInt candidate.rPort]
    else [])
  ++ [ascii "generation"]

theorem stringifyCandidate_eq (candidate : CandidateInfo) :
    stringifyCandidate candidate
      = ascii "a=candidate:" ++ ((candidateWords candidate).flatMap (· ++ [32]) ++ ascii "0") := by
  have htyp : ascii " typ " = [32] ++ ascii "typ" ++ [32] := rfl
  have hgeneration : ascii " generation 0" = [32] ++ ascii "generation" ++ [32] ++ ascii "0" := rfl
  have hraddr : ascii " raddr " = [32] ++ ascii "raddr" ++ [32] := rfl
  have hrport : ascii " rport " = [32] ++ ascii "rport" ++ [32] := rfl
  have hblank : ascii " " = [32] := rfl
  rw [stringifyCandidate, candidateWords, htyp, hgeneration, hraddr, hrport, hblank]
  by_cases h : related candidate
  · rw [if_pos (show _ ∨ _ from h), if_pos h]
    simp only [List.flatMap_append, List.flatMap_cons, List.flatMap_nil, List.append_assoc, List.append_nil]
  · rw [if_neg (show ¬ (_ ∨ _) from h), if_neg h]
    simp only [List.flatMap_append, List.flatMap_cons, List.flatMap_nil, List.append_assoc, List.append_nil]

theorem free_candidateWords {candidate : CandidateInfo} (h : CandidateClean candidate) :
    ∀ word ∈ candidateWords candidate, free " :\n=" word = true := by
  have hrelated : ∀ word ∈ (if related candidate then
      [ascii "raddr", candidate.rAddress, ascii "rport", decimalInt candidate.rPort] else []),
      free " :\n=" word = true := by
    split_ifs with hrelated
    · simp only [List.forall_mem_cons]
      exact ⟨rfl, h.rAddress hrelated, rfl, free_decimalInt rfl _, by simp⟩
    · simp
  have hword : free " :\n=" (hostTypeWord candidate.hostType) = true := by
    cases candidate.hostType <;> rfl
  simp only [candidateWords, List.forall_mem_append, List.forall_mem_cons]
  exact ⟨⟨⟨h.foundation, free_decimal rfl _, h.netProtocol, free_decimal rfl _, h.hostAddress,
    free_decimalInt rfl _, rfl, hword, by simp⟩, hrelated⟩, rfl, by simp⟩

/-- What stands behind a candidate up to the end of its line is in its last part. -/
theorem splitOneOf_candidate {candidate : CandidateInfo} (h : CandidateClean candidate) {ending : AString}
    (hending : free " :" ending = true) :
    splitOneOf (stringifyCandidate candidate ++ ending) (ascii " :") 0
      = ascii "a=candidate" :: candidateWords candidate ++ [ascii "0" ++ ending] := by
  have htext : stringifyCandidate candidate ++ ending = ((ascii "a=candidate", 58)
      :: (candidateWords candidate).map fun word => (word, 32)).flatMap (fun field => field.1 ++ [field.2])
        ++ (ascii "0" ++ ending) := by
    rw [stringifyCandidate_eq, List.flatMap_cons, List.flatMap_map, List.append_assoc, List.append_assoc]
    rfl
  have hfields : ∀ field ∈ (ascii "a=candidate", 58) :: (candidateWords candidate).map fun word => (word, 32),
      (∀ c ∈ field.1, c ∉ ascii " :") ∧ field.2 ∈ ascii " :" := by
    refine List.forall_mem_cons.mpr ⟨part_of_free rfl rfl, List.forall_mem_map.mpr fun word hword => ?_⟩
    exact part_of_free (free_subset (free_candidateWords h word hword) rfl) rfl
  rw [htext, splitOneOf_fields (Or.inl rfl) hfields (Or.inr (not_mem_of_free (free_text rfl hending)))
    (List.append_ne_nil_of_left_ne_nil (by decide) _)]
  simp [Function.comp_def]

/-- A candidate that libnice supports. -/
def isUdp (candidate : CandidateInfo) : Prop :=
  candidate.netProtocol = ascii "UDP" ∨ candidate.netProtocol = ascii "udp"

instance (candidate : CandidateInfo) : Decidable (isUdp candidate) :=
  inferInstanceAs (Decidable (_ ∨ _))

/-- What the text of a candidate says about it, for some media. -/
def written (mediaType : MediaType) (candidate : CandidateInfo) : CandidateInfo :=
  { candidate with
    isBundle := false
    rAddress := if related candidate then candidate.rAddress else []
    rPort := if related candidate then candidate.rPort else 0
    transProtocol := []
    username := []
    password := []
    mediaType := mediaType }

theorem hostTypeOf_hostTypeWord (hostType : HostType) : hostTypeOf (hostTypeWord hostType) = hostType := by
  cases hostType <;> rfl

theorem processCandidate_written {candidate : CandidateInfo} (h : CandidateClean candidate) {ending : AString}
    (hending : free " :" ending = true) (mediaType : MediaType) :
    processCandidate (splitOneOf (stringifyCandidate candidate ++ ending) (ascii " :") 0) mediaType
      = .ok (if isUdp candidate then some (written mediaType candidate) else none) := by
  have hport (n : Int32) : (strtoul (decimalInt n)).toInt32 = n := by
    rw [strtoul_decimalInt]
    rfl
  rw [splitOneOf_candidate h hending]
  by_cases hudp : isUdp candidate
  · have hother : ¬ (candidate.netProtocol ≠ ascii "UDP" ∧ candidate.netProtocol ≠ ascii "udp") := by
      simpa [isUdp, or_iff_not_imp_left] using hudp
    rw [if_pos hudp]
    by_cases hrelated : related candidate
    · have hpair : candidate.hostType = .srflx ∨ candidate.hostType = .relay := hrelated
      simp [processCandidate, candidateWords, written, piece, hother, hrelated, hpair, strtoul_number, hport,
        hostTypeOf_hostTypeWord]
    · have hpair : ¬ (candidate.hostType = .srflx ∨ candidate.hostType = .relay) := hrelated
      simp [processCandidate, candidateWords, written, piece, hother, hrelated, hpair, strtoul_number, hport,
        hostTypeOf_hostTypeWord]
  · have hother : candidate.netProtocol ≠ ascii "UDP" ∧ candidate.netProtocol ≠ ascii "udp" :=
      not_or.mp hudp
    rw [if_neg hudp]
    simp [processCandidate, candidateWords, piece, hother]

def addCandidates (v : Parser) (candidates : List CandidateInfo) : Parser :=
  { v with info := { v.info with candidateVector := v.info.candidateVector ++ candidates } }

theorem view_addCandidates (p : Parser) (candidates : List CandidateInfo) :
    (p.addCandidates candidates).view = p.view.addCandidates candidates := rfl

/-- The whole line of a candidate. -/
theorem processLine_candidate {candidate : CandidateInfo} (h : CandidateClean candidate) {ending : AString}
    (hending : free " :=" ending = true) (p : Parser) :
    p.processLine (stringifyCandidate candidate ++ ending)
      = .ok ((p.processProfile (stringifyCandidate candidate ++ ending)).addCandidates
          (if isUdp candidate then [written p.mtype candidate] else [])) := by
  have htext : stringifyCandidate candidate ++ ending
      = ascii "a=candidate:" ++ ((candidateWords candidate).flatMap (· ++ [32]) ++ ascii "0" ++ ending) := by
    rw [stringifyCandidate_eq, List.append_assoc]
  have hrest : free "=" ((candidateWords candidate).flatMap (· ++ [32]) ++ ascii "0" ++ ending) = true := by
    refine free_text (free_text (free_flatMap fun word hword => free_text ?_ rfl) rfl) (free_subset hending rfl)
    exact free_subset (free_candidateWords h word hword) rfl
  have hline : only ["a=candidate:"] (stringifyCandidate candidate ++ ending) = true := by
    rw [htext]
    exact only_of_start rfl rfl hrest
  have hhas : has "a=candidate:" (stringifyCandidate candidate ++ ending) = true := by
    rw [htext]
    exact has_start _ _
  have hown : branches.filter (owns ["a=candidate:"])
      = [([], fun p line => .ok (p.processProfile line)), (["a=candidate:"], processCand)] := rfl
  have hmtype : (p.processProfile (stringifyCandidate candidate ++ ending)).mtype = p.mtype := by
    rw [processProfile]
    split_ifs <;> rfl
  rw [processLine_of_only hline, hown]
  simp only [List.foldlM_cons, List.foldlM_nil, Checked.ok_bind, bind_pure]
  rw [processCand, if_pos hhas, processCandidate_written h (free_subset hending rfl), Checked.ok_bind, ← hmtype]
  generalize p.processProfile _ = q
  split_ifs <;> rfl

theorem hears_candidate {candidate : CandidateInfo} (h : CandidateClean candidate) (v : Parser) :
    Hears [stringifyCandidate candidate] v
      (v.addCandidates (if isUdp candidate then [written v.mtype candidate] else [])) := by
  have hnewline : free "\n" (stringifyCandidate candidate) = true := by
    rw [stringifyCandidate_eq]
    refine free_text rfl (free_text (free_flatMap fun word hword => free_text ?_ rfl) rfl)
    exact free_subset (free_candidateWords h word hword) rfl
  refine hears_line hnewline fun p hp => ?_
  have hprocess := @processLine_candidate candidate h [] rfl p
  rw [List.append_nil] at hprocess
  refine ⟨_, hprocess, ?_⟩
  rw [view_addCandidates, view_processProfile, hp, ← hp]
  rfl

theorem hears_candidates {candidates : List CandidateInfo} (h : ∀ c ∈ candidates, CandidateClean c)
    (v : Parser) :
    Hears (candidates.map stringifyCandidate) v
      (v.addCandidates ((candidates.filter (isUdp ·)).map (written v.mtype))) := by
  have hfound : (candidates.filter (isUdp ·)).map (written v.mtype)
      = candidates.flatMap fun c => if isUdp c then [written v.mtype c] else [] := by
    induction candidates with
    | nil => rfl
    | cons c candidates ih =>
        have hrest := ih fun d hd => h d (List.mem_cons_of_mem c hd)
        by_cases hudp : isUdp c <;> simp [hudp, hrest]
  rw [hfound]
  refine Hears.collect (fun v => by simp [addCandidates]) v fun c hc cs => ?_
  have hadd := hears_candidate (h c hc) (v.addCandidates cs)
  simp only [addCandidates, List.append_assoc] at hadd ⊢
  exact hadd

/-! ### Extensions -/

def addExtMaps (v : Parser) (exts : List ExtMap) : Parser :=
  { v with info := { v.info with extMapVector := v.info.extMapVector ++ exts } }

/-- The line of an extension. -/
def extText (ext : ExtMap) : AString := ascii "a=extmap:" ++ decimal ext.value.toNat ++ ascii " " ++ ext.uri

/-- The last character of a URI is lost. -/
def shorten (mediaType : MediaType) (ext : ExtMap) : ExtMap := ⟨ext.value, ext.uri.dropLast, mediaType⟩

theorem only_extText {ext : ExtMap} (hfree : free "\n=" ext.uri = true) :
    only ["a=extmap:"] (extText ext) = true ∧ free "\n" (extText ext) = true ∧ has "a=extmap:" (extText ext) = true := by
  have hrest : free "\n=" (decimal ext.value.toNat ++ (ascii " " ++ ext.uri)) = true :=
    free_text (free_decimal rfl _) (free_text rfl hfree)
  rw [extText, List.append_assoc, List.append_assoc]
  exact ⟨only_of_start rfl rfl (free_subset hrest rfl), free_text rfl (free_subset hrest rfl), has_start _ _⟩

theorem hears_extmap {ext : ExtMap} (hfree : free "\n=" ext.uri = true) (hne : ext.uri ≠ []) (v : Parser) :
    Hears [extText ext] v (v.addExtMaps [shorten v.mtype ext]) := by
  have htext : extText ext = [(ascii "a", 61), (ascii "extmap", 58), (decimal ext.value.toNat, 32)].flatMap
      (fun field => field.1 ++ [field.2]) ++ ext.uri := by
    simp only [extText, List.flatMap_cons, List.flatMap_nil, List.append_assoc, List.append_nil]
    rfl
  have hparts : splitOneOf (extText ext) (ascii " :=") 3
      = [ascii "a", ascii "extmap", decimal ext.value.toNat, ext.uri] := by
    rw [htext]
    refine splitOneOf_fields (Or.inr le_rfl) ?_ (Or.inl ⟨by decide, rfl⟩) hne
    simp only [List.forall_mem_cons]
    exact ⟨part_of_free rfl rfl, part_of_free rfl rfl, part_of_free (free_decimal rfl _) rfl, by simp⟩
  obtain ⟨hline, hnewline, hhas⟩ := only_extText hfree
  refine hears_branch hnewline hline rfl fun p hp => ?_
  subst hp
  have hwithout : withoutLast ext.uri = .ok ext.uri.dropLast := if_neg hne
  rw [processExtmap, if_pos hhas, hparts]
  dsimp only
  rw [if_pos (by simp), piece_of_getElem? rfl, Checked.ok_bind, piece_of_getElem? rfl, Checked.ok_bind,
    hwithout, Checked.ok_bind, strtoul_number]
  exact ⟨_, rfl, rfl⟩

/-- Without a URI there are three parts, and the fourth is asked for. -/
theorem tells_extmap {ext : ExtMap} (hfree : free "\n=" ext.uri = true) (v : Parser) :
    Tells [extText ext] v (ext.uri ≠ []) (v.addExtMaps [shorten v.mtype ext]) := by
  obtain ⟨hline, hnewline, hhas⟩ := only_extText hfree
  refine tells_line hnewline (fun hne => hears_extmap hfree hne v) fun hnil p => ?_
  have htext : extText ext = ascii "a" ++ 61 :: (ascii "extmap" ++ 58 :: (decimal ext.value.toNat ++ 32 :: [])) := by
    simp only [extText, hnil, List.append_assoc]
    rfl
  have hdelim (c : UInt8) (h : (ascii " :=").contains c = true) : c ∈ ascii " :=" := List.contains_iff_mem.mp h
  have hparts : splitOneOf (extText ext) (ascii " :=") 3 = [ascii "a", ascii "extmap", decimal ext.value.toNat] := by
    rw [htext, splitOneOf, splitLoop_append (by decide) _ (not_mem_of_free rfl) (hdelim 61 rfl),
      splitLoop_append (by decide) _ (not_mem_of_free rfl) (hdelim 58 rfl),
      splitLoop_append (by decide) _ (not_mem_of_free (free_decimal rfl _)) (hdelim 32 rfl)]
    rfl
  have hown : branches.filter (owns ["a=extmap:"])
      = [([], fun p line => .ok (p.processProfile line)), (["a=extmap:"], processExtmap)] := rfl
  rw [processLine_of_only hline, hown]
  simp only [List.foldlM_cons, List.foldlM_nil, Checked.ok_bind, bind_pure]
  rw [processExtmap, if_pos hhas, hparts]
  rfl

theorem tells_extmaps {exts : List ExtMap} (h : ∀ ext ∈ exts, free "\n=" ext.uri = true) (v : Parser) :
    Tells (exts.map extText) v (∀ ext ∈ exts, ext.uri ≠ []) (v.addExtMaps (exts.map (shorten v.mtype))) := by
  induction exts generalizing v with
  | nil =>
      refine ((Hears.nil v).to ?_).tells.congr ?_
      · simp [addExtMaps]
      · simp
  | cons ext exts ih =>
      have hrest := (tells_extmap (h ext List.mem_cons_self) v).cons
        (ih (fun e he => h e (List.mem_cons_of_mem ext he)) (v.addExtMaps [shorten v.mtype ext]))
      refine (hrest.to ?_).congr (by simp only [List.forall_mem_cons])
      simp [addExtMaps]

end Parser

end Licode.Media.Sdp
