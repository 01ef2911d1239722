import Licode.Lib.Outcome
import Licode.Media.SdpParser

/-!
# What a text needs to be read

`processSdp` takes pieces of a line that need not be there. Whether they are asks for little of what
has been read before: the media, the sources that are known, the names of the credentials, and how
many bundle tags there are. A `Reading` holds this, together with the numbers of the other things
that are counted with eight bits, and says of every line what it needs.
-/

namespace Licode.Media.Sdp

/-- A name is given that is not empty. -/
def named (line : AString) : Bool := decide (Parser.attributeValue line ≠ .ok [])

/-- What the lines so far decide about the next. -/
structure Reading where
  mtype : MediaType
  isBundle : Bool
  tags : Nat
  hasMedia : Bool
  candidates : Nat
  extMaps : Nat
  videoSsrc : UInt32
  audioSsrc : UInt32
  videoNamed : Bool
  audioNamed : Bool
  feedback : List AString

def Parser.reading (p : Parser) : Reading where
  mtype := p.mtype
  isBundle := p.info.isBundle
  tags := p.info.bundleTags.length
  hasMedia := p.info.hasAudio || p.info.hasVideo
  candidates := p.info.candidateVector.length
  extMaps := p.info.extMapVector.length
  videoSsrc := p.info.videoSsrc
  audioSsrc := p.info.audioSsrc
  videoNamed := decide (p.info.iceVideoUsername ≠ [])
  audioNamed := decide (p.info.iceAudioUsername ≠ [])
  feedback := p.tmpFeedbackVector

/-- The pieces that `processCandidate` takes. -/
structure CandidateSupplied (pieces : List AString) : Prop where
  protocol : 4 ≤ pieces.length
  address : pieces[3]? = some (ascii "UDP") ∨ pieces[3]? = some (ascii "udp") → 8 ≤ pieces.length
  type : pieces[3]? = some (ascii "UDP") ∨ pieces[3]? = some (ascii "udp") →
    pieces[7]? = some (ascii "typ") → 9 ≤ pieces.length
  related : pieces[3]? = some (ascii "UDP") ∨ pieces[3]? = some (ascii "udp") →
    pieces[7]? = some (ascii "typ") →
    pieces[8]? = some (ascii "srflx") ∨ pieces[8]? = some (ascii "relay") → 13 ≤ pieces.length

/-- A candidate that is kept. -/
def CandidateKept (pieces : List AString) : Prop :=
  (pieces[3]? = some (ascii "UDP") ∨ pieces[3]? = some (ascii "udp")) ∧ pieces[7]? = some (ascii "typ")

instance (pieces : List AString) : Decidable (CandidateKept pieces) := by
  unfold CandidateKept
  infer_instance

/-- What is asked of a line before the loop over the bundle tags. -/
structure HeadSupplied (line : AString) : Prop where
  fingerprint : has "a=fingerprint" line → ∃ value, (splitOneOf line (ascii ":") 1)[1]? = some value
    ∧ 2 ≤ (splitOneOf value (ascii " ") 0).length
  group : has "a=group:" line → 2 ≤ (splitOneOf line (ascii ":  \r\n") 10).length
  candidate : has "a=candidate:" line → CandidateSupplied (splitOneOf line (ascii " :") 0)
  crypto : has "a=crypto:" line → 5 ≤ (splitOneOf line (ascii " :") 0).length
  username : has "a=ice-ufrag" line → 2 ≤ (splitOneOf line (ascii ":") 1).length
  password : has "a=ice-pwd" line → 2 ≤ (splitOneOf line (ascii ":") 1).length

/-- What is asked of a line after the loop over the bundle tags. A source is read only if none is
known for the media. -/
structure TailSupplied (c : Reading) (line : AString) : Prop where
  ssrc : has "a=ssrc" line → c.mtype = .video ∧ c.videoSsrc = 0 ∨ c.mtype = .audio ∧ c.audioSsrc = 0 →
    2 ≤ (splitOneOf line (ascii " :") 2).length
  rtpmap : has "a=rtpmap:" line → 4 ≤ (splitOneOf line (ascii " :/\n") 4).length
  extmap : has "a=extmap:" line → (splitOneOf line (ascii " :=") 3).length ≠ 3

/-- The loop over the bundle tags is started and does not come to its end. -/
def Stuck (c : Reading) (line : AString) : Prop :=
  has "a=mid" line ∧ 2 ≤ (splitOneOf line (ascii ": \r\n") 4).length ∧ c.isBundle ∧ 255 < c.tags

namespace Reading

def readGroup (c : Reading) (line : AString) : Reading :=
  if has "a=group:" line then
    { c with
      isBundle := c.isBundle || (splitOneOf line (ascii ":  \r\n") 10)[1]? = some (ascii "BUNDLE")
      tags := c.tags + ((splitOneOf line (ascii ":  \r\n") 10).length - 2) }
  else c

def readMedia (c : Reading) (line : AString) : Reading :=
  { c with
    mtype := if has "m=audio" line then .audio else if has "m=video" line then .video else c.mtype
    hasMedia := c.hasMedia || has "m=audio" line || has "m=video" line }

def readCandidate (c : Reading) (line : AString) : Reading :=
  if has "a=candidate:" line ∧ CandidateKept (splitOneOf line (ascii " :") 0) then
    { c with candidates := c.candidates + 1 }
  else c

def readUser (c : Reading) (line : AString) : Reading :=
  if has "a=ice-ufrag" line then
    if c.mtype = .audio then { c with audioNamed := named line } else { c with videoNamed := named line }
  else c

/-- The line as far as the loop over the bundle tags. -/
def enter (c : Reading) (line : AString) : Reading :=
  (((c.readGroup line).readMedia line).readCandidate line).readUser line

def readSsrc (c : Reading) (line : AString) : Reading :=
  let ssrc := strtoul ((splitOneOf line (ascii " :") 2)[1]?.getD [])
  if has "a=ssrc" line then
    if c.mtype = .video ∧ c.videoSsrc = 0 then { c with videoSsrc := ssrc }
    else if c.mtype = .audio ∧ c.audioSsrc = 0 then { c with audioSsrc := ssrc }
    else c
  else c

def readExtmap (c : Reading) (line : AString) : Reading :=
  if has "a=extmap:" line ∧ 4 ≤ (splitOneOf line (ascii " :=") 3).length then
    { c with extMaps := c.extMaps + 1 }
  else c

def readFeedback (c : Reading) (line : AString) : Reading :=
  if has "a=rtcp-fb:" line then { c with feedback := c.feedback ++ [line] } else c

/-- The line to its end. -/
def after (c : Reading) (line : AString) : Reading :=
  (((c.enter line).readSsrc line).readExtmap line).readFeedback line

/-- Every piece that is taken is there. Feedback is looked at only if there are credentials. -/
def Supplied : Reading → List AString → Prop
  | c, [] => c.videoNamed ∨ c.audioNamed →
      ∀ line ∈ c.feedback, 3 ≤ (splitOneOf line (ascii " :") 2).length
  | c, line :: lines => HeadSupplied line ∧
      (¬ Stuck (c.enter line) line → TailSupplied (c.enter line) line ∧ (c.after line).Supplied lines)

/-- No loop over the bundle tags that is started goes on for ever. -/
def Unstuck : Reading → List AString → Prop
  | _, [] => True
  | c, line :: lines => HeadSupplied line →
      ¬ Stuck (c.enter line) line ∧ (TailSupplied (c.enter line) line → (c.after line).Unstuck lines)

end Reading

/-- A piece that is taken stands for what is needed as a whole. -/
theorem needs_piece {α : Type} {parts : List AString} {i : Nat} {f : AString → Checked α} {needs : Prop}
    {post : α → Prop} (hneeds : needs → i < parts.length)
    (hf : ∀ part, parts[i]? = some part → Needs .outOfBounds needs post (f part)) :
    Needs .outOfBounds needs post (piece parts i >>= f) := by
  by_cases hi : i < parts.length
  · obtain ⟨part, hpart, hpiece⟩ := exists_piece hi
    rw [hpiece]
    exact hf part hpart
  · rw [piece_of_length_le (by omega)]
    exact Needs.error fun h => hi (hneeds h)

/-- A part of the loop body, with what it needs and what has been read after it. -/
abbrev Reads (needs : Prop) (c : Reading) (x : Checked Parser) : Prop :=
  Needs .outOfBounds needs (fun q => q.reading = c) x

namespace Parser

variable (p : Parser) (line : AString)

theorem processFingerprint_reads :
    Reads (has "a=fingerprint" line → ∃ value, (splitOneOf line (ascii ":") 1)[1]? = some value
      ∧ 2 ≤ (splitOneOf value (ascii " ") 0).length) p.reading (p.processFingerprint line) := by
  refine Needs.ite (fun _ => needs_piece ?_ fun value hvalue => needs_piece ?_ fun fingerprint hpiece => ?_)
    fun _ => rfl
  · rintro ⟨value, hvalue, -⟩
    exact (List.getElem?_eq_some_iff.mp hvalue).1
  · rintro ⟨value', hvalue', hparts⟩
    obtain rfl : value = value' := Option.some.inj (hvalue.symm.trans hvalue')
    exact hparts
  · exact Needs.ok ⟨value, hvalue, (List.getElem?_eq_some_iff.mp hpiece).1⟩ rfl

theorem processGroup_reads :
    Reads (has "a=group:" line → 2 ≤ (splitOneOf line (ascii ":  \r\n") 10).length)
      (p.reading.readGroup line) (p.processGroup line) := by
  refine Needs.ite (fun hhas => needs_piece id fun semantics hsemantics => ?_) fun hhas => ?_
  · refine Needs.ok (List.getElem?_eq_some_iff.mp hsemantics).1 ?_
    simp [Reading.readGroup, hhas, hsemantics, reading, newTags]
  · rw [Reading.readGroup, if_neg (by simp [hhas])]

/-- Both words that are followed by another address. -/
theorem hostTypeOf_related {word : AString} :
    hostTypeOf word = .srflx ∨ hostTypeOf word = .relay ↔ word = ascii "srflx" ∨ word = ascii "relay" := by
  rw [hostTypeOf]
  split_ifs with hrelay hprflx hsrflx
  · simp [hrelay]
  · subst hprflx
    decide
  · simp [hsrflx]
  · simp [hrelay, hsrflx]

theorem processCandidate_needs (pieces : List AString) (mediaType : MediaType) :
    Needs .outOfBounds (CandidateSupplied pieces)
      (fun candidate => candidate.isSome = true ↔ CandidateKept pieces) (processCandidate pieces mediaType) := by
  refine needs_piece (fun h => by have := h.protocol; omega) fun foundation _ => ?_
  refine needs_piece (fun h => by have := h.protocol; omega) fun componentId _ => ?_
  refine needs_piece (fun h => by have := h.protocol; omega) fun netProtocol hprotocol => ?_
  have hlength := (List.getElem?_eq_some_iff.mp hprotocol).1
  split_ifs with hother
  · have hudp : ¬ (pieces[3]? = some (ascii "UDP") ∨ pieces[3]? = some (ascii "udp")) := by
      simp [hprotocol, hother.1, hother.2]
    refine Needs.ok ⟨by omega, fun h => absurd h hudp, fun h => absurd h hudp, fun h => absurd h hudp⟩ ?_
    simp [CandidateKept, hudp]
  have hudp : pieces[3]? = some (ascii "UDP") ∨ pieces[3]? = some (ascii "udp") := by
    rw [hprotocol]
    simpa [or_iff_not_imp_left] using hother
  refine needs_piece (fun h => by have := h.address hudp; omega) fun priority _ => ?_
  refine needs_piece (fun h => by have := h.address hudp; omega) fun hostAddress _ => ?_
  refine needs_piece (fun h => by have := h.address hudp; omega) fun hostPort _ => ?_
  refine needs_piece (fun h => by have := h.address hudp; omega) fun typ htyp => ?_
  have hlength := (List.getElem?_eq_some_iff.mp htyp).1
  split_ifs with hword
  · have htype : pieces[7]? ≠ some (ascii "typ") := by simpa [htyp] using hword
    refine Needs.ok ⟨by omega, fun _ => by omega, fun _ h => absurd h htype, fun _ h => absurd h htype⟩ ?_
    simp [CandidateKept, htype]
  have htype : pieces[7]? = some (ascii "typ") := by rw [htyp, not_not.mp hword]
  have hkept : CandidateKept pieces := ⟨hudp, htype⟩
  refine needs_piece (fun h => h.type hudp htype) fun word hget => ?_
  have hlength := (List.getElem?_eq_some_iff.mp hget).1
  have hrelated : pieces[8]? = some (ascii "srflx") ∨ pieces[8]? = some (ascii "relay")
      ↔ hostTypeOf word = .srflx ∨ hostTypeOf word = .relay := by
    rw [hget, Option.some_inj, Option.some_inj, hostTypeOf_related]
  dsimp only
  split_ifs with htypes
  · have hpair := hrelated.mpr htypes
    refine needs_piece (fun h => by have := h.related hudp htype hpair; omega) fun rAddress _ => ?_
    refine needs_piece (fun h => by have := h.related hudp htype hpair; omega) fun rPort hport => ?_
    have hlength := (List.getElem?_eq_some_iff.mp hport).1
    refine Needs.ok ⟨by omega, fun _ => by omega, fun _ _ => by omega, fun _ _ _ => hlength⟩ ?_
    simp [hkept]
  · refine Needs.ok ⟨by omega, fun _ => by omega, fun _ _ => by omega, fun _ _ h => ?_⟩ ?_
    · exact absurd (hrelated.mp h) htypes
    · simp [hkept]

theorem processCand_reads :
    Reads (has "a=candidate:" line → CandidateSupplied (splitOneOf line (ascii " :") 0))
      (p.reading.readCandidate line) (p.processCand line) := by
  refine Needs.ite (fun hhas => ?_) fun hhas => ?_
  · refine (processCandidate_needs _ p.mtype).bind id fun hneeds candidate hkept => Needs.ok hneeds ?_
    rw [Reading.readCandidate]
    cases candidate with
    | none => rw [if_neg (by simp [← hkept])]; simp [reading]
    | some candidate => rw [if_pos ⟨hhas, hkept.mp rfl⟩]; simp [reading]
  · rw [Reading.readCandidate, if_neg (by simp [hhas])]

theorem processCrypto_reads :
    Reads (has "a=crypto:" line → 5 ≤ (splitOneOf line (ascii " :") 0).length)
      p.reading (p.processCrypto line) := by
  refine Needs.ite (fun _ => needs_piece (fun h => by omega) fun cipherSuite _ => ?_) fun _ => rfl
  refine needs_piece id fun keyParams hkey => ?_
  exact Needs.ok (List.getElem?_eq_some_iff.mp hkey).1 rfl

/-- The second part is not empty, so it has a first part itself. -/
theorem attributeValue_needs :
    Needs .outOfBounds (2 ≤ (splitOneOf line (ascii ":") 1).length)
      (fun value => attributeValue line = .ok value) (attributeValue line) := by
  by_cases hparts : 2 ≤ (splitOneOf line (ascii ":") 1).length
  · obtain ⟨value, hvalue, hpiece⟩ := exists_piece hparts
    have hne : splitOneOf value (ascii "\r") 1 ≠ [] :=
      splitLoop_ne_nil 0 (Or.inr (splitOneOf_last_ne_nil Nat.one_pos hvalue))
    obtain ⟨name, -, hname⟩ := exists_piece (List.length_pos_of_ne_nil hne)
    have heq : attributeValue line = .ok name := by
      rw [attributeValue, hpiece, Checked.ok_bind, hname]
    rw [heq]
    exact Needs.ok hparts rfl
  · rw [attributeValue, piece_of_length_le (by omega)]
    exact Needs.error hparts

theorem processUser_reads :
    Reads (has "a=ice-ufrag" line → 2 ≤ (splitOneOf line (ascii ":") 1).length)
      (p.reading.readUser line) (p.processUser line) := by
  refine Needs.ite (fun hhas => ?_) fun hhas => ?_
  · refine (attributeValue_needs line).bind id fun hneeds value hvalue => ?_
    split_ifs with hmtype
    · refine Needs.ok hneeds ?_
      simp [Reading.readUser, reading, hhas, hmtype, named, hvalue]
    · refine Needs.ok hneeds ?_
      simp [Reading.readUser, reading, hhas, hmtype, named, hvalue]
  · rw [Reading.readUser, if_neg (by simp [hhas])]

theorem processPass_reads :
    Reads (has "a=ice-pwd" line → 2 ≤ (splitOneOf line (ascii ":") 1).length)
      p.reading (p.processPass line) := by
  refine Needs.ite (fun _ => ?_) fun _ => rfl
  refine (attributeValue_needs line).bind id fun hneeds value _ => ?_
  split_ifs
  · exact Needs.ok hneeds rfl
  · exact Needs.ok hneeds rfl

theorem processSsrc_reads :
    Reads (has "a=ssrc" line →
        p.mtype = .video ∧ p.info.videoSsrc = 0 ∨ p.mtype = .audio ∧ p.info.audioSsrc = 0 →
        2 ≤ (splitOneOf line (ascii " :") 2).length)
      (p.reading.readSsrc line) (p.processSsrc line) := by
  refine Needs.ite (fun hhas => ?_) fun hhas => ?_
  · dsimp only
    split_ifs with hvideo haudio
    · refine needs_piece (fun h => h (Or.inl hvideo)) fun ssrc hssrc => Needs.ok (fun _ => ?_) ?_
      · exact (List.getElem?_eq_some_iff.mp hssrc).1
      · simp [Reading.readSsrc, reading, hhas, hvideo, hssrc]
    · refine needs_piece (fun h => h (Or.inr haudio)) fun ssrc hssrc => Needs.ok (fun _ => ?_) ?_
      · exact (List.getElem?_eq_some_iff.mp hssrc).1
      · simp [Reading.readSsrc, reading, hhas, haudio, hssrc]
    · refine Needs.ok (fun h => absurd h (not_or.mpr ⟨hvideo, haudio⟩)) ?_
      simp [Reading.readSsrc, reading, hhas, hvideo, haudio]
  · simp [Reading.readSsrc, hhas]

/-- What a known codec adds has not been counted. -/
theorem reading_addRtpMap (payloadType : UInt32) (codecname : AString) (clock : UInt32) :
    (p.addRtpMap payloadType codecname clock).reading = p.reading := by
  rw [addRtpMap]
  dsimp only
  split
  · rfl
  · rfl

theorem processRtpmap_reads :
    Reads (has "a=rtpmap:" line → 4 ≤ (splitOneOf line (ascii " :/\n") 4).length)
      p.reading (p.processRtpmap line) := by
  refine Needs.ite (fun _ => needs_piece (fun h => by omega) fun payloadType _ => ?_) fun _ => rfl
  refine needs_piece (fun h => by omega) fun codecname _ => needs_piece id fun clock hclock => ?_
  exact Needs.ok (List.getElem?_eq_some_iff.mp hclock).1 (reading_addRtpMap _ _ _ _)

/-- The URI is what is left after the last split, so that its length does not wrap around. -/
theorem processExtmap_reads :
    Reads (has "a=extmap:" line → (splitOneOf line (ascii " :=") 3).length ≠ 3)
      (p.reading.readExtmap line) (p.processExtmap line) := by
  refine Needs.ite (fun hhas => ?_) fun hhas => ?_
  · dsimp only
    split_ifs with hparts
    · refine needs_piece (fun h => by omega) fun id _ => needs_piece (fun h => by omega) fun text htext => ?_
      have hlength := (List.getElem?_eq_some_iff.mp htext).1
      rw [withoutLast, if_neg (splitOneOf_last_ne_nil (by omega) htext)]
      refine Needs.ok (by omega) ?_
      rw [Reading.readExtmap, if_pos ⟨hhas, hlength⟩]
      simp [reading]
    · refine Needs.ok (by omega) ?_
      rw [Reading.readExtmap, if_neg fun h => hparts (by omega)]
  · rw [Reading.readExtmap, if_neg (by simp [hhas])]

/-! ### A line as a whole -/

/-- The body of the loop before the loop over the bundle tags. -/
def processHead (p : Parser) (line : AString) : Checked Parser := do
  let p ← (((p.processRtcpMux line).processDirection line).processProfile line).processFingerprint line
  let p ← p.processGroup line
  let p ← ((p.processVideo line).processAudio line).processCand line
  let p ← p.processCrypto line
  let p ← p.processUser line
  p.processPass line

/-- The body of the loop after the loop over the bundle tags. -/
def processTail (p : Parser) (line : AString) : Checked Parser := do
  let p ← p.processSsrc line
  let p ← (p.processSsrcGroup line).processRtpmap line
  let p ← p.processExtmap line
  return ((p.processFeedback line).processFmtp line).processBandwidth line

theorem processLine_eq :
    p.processLine line
      = p.processHead line >>= fun p => p.processMid line >>= fun p => p.processTail line := by
  simp only [processLine, processHead, processTail, bind_assoc]

theorem reading_processRtcpMux : (p.processRtcpMux line).reading = p.reading := by
  rw [processRtcpMux]
  split_ifs <;> rfl

theorem reading_setDirection (direction : StreamDirection) :
    (p.setDirection direction).reading = p.reading := by
  rw [setDirection]
  split_ifs <;> rfl

theorem reading_processDirection : (p.processDirection line).reading = p.reading := by
  rw [processDirection]
  split_ifs
  · exact reading_setDirection p _
  · exact reading_setDirection p _
  · exact reading_setDirection p _
  · rfl

theorem reading_processProfile : (p.processProfile line).reading = p.reading := by
  rw [processProfile]
  split_ifs <;> rfl

theorem reading_processMedia :
    ((p.processVideo line).processAudio line).reading = p.reading.readMedia line := by
  rw [processAudio, processVideo, Reading.readMedia]
  split_ifs with haudio hvideo hvideo <;> simp [reading, haudio, hvideo]

theorem reading_processSsrcGroup : (p.processSsrcGroup line).reading = p.reading := by
  rw [processSsrcGroup]
  split_ifs
  · split <;> rfl
  · rfl

theorem reading_processFeedback : (p.processFeedback line).reading = p.reading.readFeedback line := by
  rw [processFeedback, Reading.readFeedback]
  split_ifs <;> rfl

theorem reading_processFmtp : (p.processFmtp line).reading = p.reading := by
  rw [processFmtp]
  split_ifs
  · split <;> rfl
  · rfl

theorem reading_processBandwidth : (p.processBandwidth line).reading = p.reading := by
  rw [processBandwidth]
  split_ifs
  · split <;> rfl
  · rfl

theorem processHead_reads : Reads (HeadSupplied line) (p.reading.enter line) (p.processHead line) := by
  have hstart : (((p.processRtcpMux line).processDirection line).processProfile line).reading = p.reading := by
    rw [reading_processProfile, reading_processDirection, reading_processRtcpMux]
  refine (processFingerprint_reads _ line).bind HeadSupplied.fingerprint fun hfingerprint p₁ h₁ => ?_
  refine (processGroup_reads p₁ line).bind HeadSupplied.group fun hgroup p₂ h₂ => ?_
  refine (processCand_reads _ line).bind HeadSupplied.candidate fun hcandidate p₃ h₃ => ?_
  refine (processCrypto_reads p₃ line).bind HeadSupplied.crypto fun hcrypto p₄ h₄ => ?_
  refine (processUser_reads p₄ line).bind HeadSupplied.username fun husername p₅ h₅ => ?_
  have hreading : p₅.reading = p.reading.enter line := by
    rw [h₅, h₄, h₃, reading_processMedia, h₂, h₁, hstart]
    rfl
  rw [← hreading]
  refine (processPass_reads p₅ line).congr ⟨fun hpassword => ?_, HeadSupplied.password⟩
  exact ⟨hfingerprint, hgroup, hcandidate, hcrypto, husername, hpassword⟩

theorem processTail_reads {c : Reading} (hc : p.reading = c.enter line) :
    Reads (TailSupplied (c.enter line) line) (c.after line) (p.processTail line) := by
  have hmtype : p.mtype = (c.enter line).mtype := by rw [← hc]; rfl
  have hvideo : p.info.videoSsrc = (c.enter line).videoSsrc := by rw [← hc]; rfl
  have haudio : p.info.audioSsrc = (c.enter line).audioSsrc := by rw [← hc]; rfl
  have hssrc := processSsrc_reads p line
  rw [hmtype, hvideo, haudio] at hssrc
  refine hssrc.bind TailSupplied.ssrc fun hssrc p₁ h₁ => ?_
  refine (processRtpmap_reads _ line).bind TailSupplied.rtpmap fun hrtpmap p₂ h₂ => ?_
  refine (processExtmap_reads p₂ line).bind TailSupplied.extmap fun hextmap p₃ h₃ => ?_
  refine Needs.ok ⟨hssrc, hrtpmap, hextmap⟩ ?_
  rw [reading_processBandwidth, reading_processFmtp, reading_processFeedback, h₃, h₂,
    reading_processSsrcGroup, h₁, hc]
  rfl

/-- The names of the tags are looked at, and none is added. -/
theorem length_nameTags (thisId : AString) (mtype : MediaType) (tags : List BundleTag) (places : List Nat) :
    (places.foldl (fun tags i => nameTag thisId mtype tags (.ofNat i)) tags).length = tags.length := by
  induction places generalizing tags with
  | nil => rfl
  | cons i places ih =>
      rw [List.foldl_cons, ih, nameTag, List.length_modify]

theorem processMid_of_stuck (h : Stuck p.reading line) : p.processMid line = .error .diverged := by
  obtain ⟨hhas, hparts, hbundle, htags⟩ := h
  rw [processMid, if_pos hhas]
  rcases hsplit : splitOneOf line (ascii ": \r\n") 4 with _ | ⟨first, _ | ⟨thisId, rest⟩⟩
  · simp [hsplit] at hparts
  · simp [hsplit] at hparts
  · have hbundle : p.info.isBundle = true := hbundle
    have htags : ¬ p.info.bundleTags.length ≤ 255 := Nat.not_le.mpr htags
    simp only [hbundle, ByteLoop.run_eq, if_neg htags]
    rfl

theorem processMid_of_not_stuck (h : ¬ Stuck p.reading line) :
    ∃ q, p.processMid line = .ok q ∧ q.reading = p.reading := by
  by_cases hhas : has "a=mid" line
  · rw [processMid, if_pos hhas]
    split
    · rename_i thisId _ hsplit
      by_cases hbundle : p.info.isBundle
      · have htags : p.info.bundleTags.length ≤ 255 := by
          by_contra htags
          exact h ⟨hhas, by simp [hsplit], hbundle, Nat.not_le.mp htags⟩
        rw [if_pos hbundle, ByteLoop.run_eq, if_pos htags]
        refine ⟨_, rfl, ?_⟩
        simp only [reading, length_nameTags]
      · rw [if_neg hbundle]
        exact ⟨p, rfl, rfl⟩
    · exact ⟨p, rfl, rfl⟩
  · rw [processMid, if_neg hhas]
    exact ⟨p, rfl, rfl⟩

/-- What a line can come to. -/
inductive LineOutcome (c : Reading) (line : AString) : Checked Parser → Prop where
  | headMissing (hhead : ¬ HeadSupplied line) : LineOutcome c line (.error .outOfBounds)
  | stuck (hhead : HeadSupplied line) (hstuck : Stuck (c.enter line) line) :
      LineOutcome c line (.error .diverged)
  | tailMissing (hhead : HeadSupplied line) (hstuck : ¬ Stuck (c.enter line) line)
      (htail : ¬ TailSupplied (c.enter line) line) : LineOutcome c line (.error .outOfBounds)
  | read (hhead : HeadSupplied line) (hstuck : ¬ Stuck (c.enter line) line)
      (htail : TailSupplied (c.enter line) line) (q : Parser) (hq : q.reading = c.after line) :
      LineOutcome c line (.ok q)

theorem processLine_outcome : LineOutcome p.reading line (p.processLine line) := by
  rw [processLine_eq]
  by_cases hhead : HeadSupplied line
  · obtain ⟨p₁, hp₁, h₁⟩ := (processHead_reads p line).1 hhead
    rw [hp₁, Checked.ok_bind]
    by_cases hstuck : Stuck (p.reading.enter line) line
    · rw [processMid_of_stuck p₁ line (h₁ ▸ hstuck)]
      exact .stuck hhead hstuck
    · obtain ⟨p₂, hp₂, h₂⟩ := processMid_of_not_stuck p₁ line (h₁ ▸ hstuck)
      rw [hp₂, Checked.ok_bind]
      have hread := processTail_reads p₂ line (h₂.trans h₁)
      by_cases htail : TailSupplied (p.reading.enter line) line
      · obtain ⟨q, hq, hreading⟩ := hread.1 htail
        rw [hq]
        exact .read hhead hstuck htail q hreading
      · rw [hread.2 htail]
        exact .tailMissing hhead hstuck htail
  · rw [(processHead_reads p line).2 hhead]
    exact .headMissing hhead

/-! ### All lines -/

/-- A line with feedback needs three parts. -/
theorem addFeedback_needs (payloadVector : List RtpMap) :
    Needs .outOfBounds (3 ≤ (splitOneOf line (ascii " :") 2).length) (fun _ => True)
      (addFeedback payloadVector line) := by
  refine needs_piece (fun h => by omega) fun payloadType _ => needs_piece id fun feedback hfeedback => ?_
  exact Needs.ok (List.getElem?_eq_some_iff.mp hfeedback).1 trivial

theorem foldlM_addFeedback_needs (lines : List AString) (payloadVector : List RtpMap) :
    Needs .outOfBounds (∀ line ∈ lines, 3 ≤ (splitOneOf line (ascii " :") 2).length) (fun _ => True)
      (lines.foldlM addFeedback payloadVector) := by
  induction lines generalizing payloadVector with
  | nil => exact Needs.ok (by simp) trivial
  | cons line lines ih =>
      rw [List.foldlM_cons]
      refine (addFeedback_needs line payloadVector).bind (fun h => h line List.mem_cons_self)
        fun hline next _ => (ih next).congr ?_
      rw [List.forall_mem_cons, and_iff_right hline]

/-- What is left to count does not change when the lines have been read. -/
def Counted (c : Reading) (info : SdpInfo) : Prop :=
  info.isBundle = c.isBundle ∧ info.bundleTags.length = c.tags ∧ (info.hasAudio || info.hasVideo) = c.hasMedia
    ∧ info.candidateVector.length = c.candidates ∧ info.extMapVector.length = c.extMaps

theorem counted_reading : Counted p.reading p.info := ⟨rfl, rfl, rfl, rfl, rfl⟩

theorem counted_addCredentials {c : Reading} {info : SdpInfo} (h : Counted c info) :
    Counted c (addCredentials (shareCredentials info)) := by
  have hshare : Counted c (shareCredentials info) := by
    rw [shareCredentials]
    split_ifs <;> exact h
  simpa [Counted, addCredentials] using hshare

theorem finish_needs :
    Needs .outOfBounds
      (p.reading.videoNamed ∨ p.reading.audioNamed →
        ∀ line ∈ p.tmpFeedbackVector, 3 ≤ (splitOneOf line (ascii " :") 2).length)
      (fun result => Counted p.reading result.2) p.finish := by
  rw [finish]
  split_ifs with hnames
  · refine Needs.ok ?_ (counted_reading p)
    simp [reading, hnames.1, hnames.2]
  · have hnamed : p.reading.videoNamed ∨ p.reading.audioNamed := by
      simpa [reading, or_iff_not_imp_left] using hnames
    refine (foldlM_addFeedback_needs p.tmpFeedbackVector _).bind (fun h => h hnamed)
      fun hlines payloadVector _ => Needs.ok (fun _ => hlines) ?_
    exact counted_addCredentials (counted_reading p)

/-- The lines from here on and what comes after them. -/
def read (p : Parser) (lines : List AString) : Checked (Bool × SdpInfo) :=
  lines.foldlM processLine p >>= finish

theorem read_cons (lines : List AString) :
    p.read (line :: lines) = p.processLine line >>= fun q => q.read lines := by
  simp only [read, List.foldlM_cons, bind_assoc]

theorem read_ne_outOfBounds_iff (lines : List AString) :
    p.read lines ≠ .error .outOfBounds ↔ p.reading.Supplied lines := by
  induction lines generalizing p with
  | nil => exact (finish_needs p).ne_error_iff
  | cons line lines ih =>
      rw [read_cons, Reading.Supplied]
      have hout := processLine_outcome p line
      generalize p.processLine line = x at hout
      cases hout with
      | headMissing hhead => simp [hhead]
      | stuck hhead hstuck => simp [hhead, hstuck]
      | tailMissing hhead hstuck htail => simp [hstuck, htail]
      | read hhead hstuck htail q hq =>
          rw [Checked.ok_bind, ih q, hq]
          simp [hhead, hstuck, htail]

theorem read_ne_diverged_iff (lines : List AString) :
    p.read lines ≠ .error .diverged ↔ p.reading.Unstuck lines := by
  induction lines generalizing p with
  | nil => exact iff_of_true ((finish_needs p).ne_error (by decide)) trivial
  | cons line lines ih =>
      rw [read_cons, Reading.Unstuck]
      have hout := processLine_outcome p line
      generalize p.processLine line = x at hout
      cases hout with
      | headMissing hhead => simp [hhead]
      | stuck hhead hstuck => simp [hhead, hstuck]
      | tailMissing hhead hstuck htail => simp [hstuck, htail]
      | read hhead hstuck htail q hq =>
          rw [Checked.ok_bind, ih q, hq]
          simp [hhead, hstuck, htail]

/-- There is no third way to fail, and what has been found is what the lines amount to. -/
theorem read_cases (lines : List AString) :
    p.read lines = .error .outOfBounds ∨ p.read lines = .error .diverged
      ∨ ∃ result, p.read lines = .ok result ∧ Counted (lines.foldl Reading.after p.reading) result.2 := by
  induction lines generalizing p with
  | nil =>
      by_cases hneeds : p.reading.Supplied []
      · exact Or.inr (Or.inr ((finish_needs p).1 hneeds))
      · exact Or.inl ((finish_needs p).2 hneeds)
  | cons line lines ih =>
      rw [read_cons]
      have hout := processLine_outcome p line
      generalize p.processLine line = x at hout
      cases hout with
      | headMissing hhead => exact Or.inl rfl
      | stuck hhead hstuck => exact Or.inr (Or.inl rfl)
      | tailMissing hhead hstuck htail => exact Or.inl rfl
      | read hhead hstuck htail q hq =>
          rw [List.foldl_cons, ← hq]
          exact ih q

end Parser

end Licode.Media.Sdp
