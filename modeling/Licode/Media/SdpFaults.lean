import Licode.Media.SdpPrinter
import Licode.Media.SdpReading

/-!
# Texts that cannot be read

Which texts make `processSdp` take a piece that is not there, and which make it, or a function that
works on what it has found, count over a vector for ever.
-/

namespace Licode.Media.Sdp

/-- Every piece is there, and every length has its value, for just the texts that supply what their
lines need. -/
theorem SdpInfo.processSdp_inBounds_iff (info : SdpInfo) (sdp media : AString) :
    info.processSdp sdp media ≠ .error .outOfBounds
      ↔ (Parser.start info media).reading.Supplied (getlines sdp) :=
  Parser.read_ne_outOfBounds_iff (Parser.start info media) (getlines sdp)

/-- The hash of a fingerprint is not followed by the fingerprint. -/
theorem SdpInfo.fingerprint_cut_off :
    SdpInfo.create.processSdp (ascii "a=fingerprint:sha-256\r\n") [] = .error .outOfBounds := by
  rfl

/-! ### Loops that count with eight bits -/

theorem needs_printEach {α β : Type} (v : List α) (print : α → List β) :
    Needs .diverged (v.length ≤ 255) (fun _ => True) (printEach v print) := by
  rw [printEach_eq]
  split_ifs with h
  · exact Needs.ok h trivial
  · exact Needs.error h

namespace SdpInfo

theorem printGroup_needs (info : SdpInfo) (msidtemp : AString) :
    Needs .diverged (info.isBundle = true → info.bundleTags.length ≤ 255) (fun _ => True)
      (info.printGroup msidtemp) :=
  Needs.ite (fun _ => (needs_printEach _ _).bind id fun htags _ _ => Needs.ok htags trivial) fun _ => trivial

theorem printAudio_needs (info : SdpInfo) (msidtemp : AString) :
    Needs .diverged (info.extMapVector.length ≤ 255 ∧ info.bundleTags.length ≤ 255) (fun _ => True)
      (info.printAudio msidtemp) :=
  (needs_printEach _ _).bind And.left fun hext _ _ =>
    (needs_printEach _ _).bind And.right fun htags _ _ => Needs.ok ⟨hext, htags⟩ trivial

theorem printVideo_needs (info : SdpInfo) (msidtemp : AString) :
    Needs .diverged (info.extMapVector.length ≤ 255 ∧ info.bundleTags.length ≤ 255) (fun _ => True)
      (info.printVideo msidtemp) :=
  (needs_printEach _ _).bind And.left fun hext _ _ =>
    (needs_printEach _ _).bind And.right fun htags _ _ => Needs.ok ⟨hext, htags⟩ trivial

/-- A description comes to its end if the vectors that are counted over are small: the tags for a
bundle, and the tags and extensions for each media. -/
def PrintEnds (isBundle hasMedia : Bool) (tags extMaps : Nat) : Prop :=
  (isBundle = true → tags ≤ 255) ∧ (hasMedia = true → extMaps ≤ 255 ∧ tags ≤ 255)

theorem printLines_needs (info : SdpInfo) (msidtemp : AString) :
    Needs .diverged
      (PrintEnds info.isBundle (info.hasAudio || info.hasVideo) info.bundleTags.length info.extMapVector.length)
      (fun _ => True) (info.printLines msidtemp) := by
  refine (printGroup_needs info msidtemp).bind And.left fun hgroup _ _ => ?_
  refine Needs.bind (Needs.ite (fun _ => printAudio_needs info msidtemp) fun _ => trivial)
    (fun h haudio => ?_) fun haudio _ _ => ?_
  · exact h.2 (by rw [haudio, Bool.true_or])
  refine Needs.bind (Needs.ite (fun _ => printVideo_needs info msidtemp) fun _ => trivial)
    (fun h hvideo => ?_) fun hvideo _ _ => ?_
  · exact h.2 (by rw [hvideo, Bool.or_true])
  refine Needs.ok ⟨hgroup, fun hmedia => ?_⟩ trivial
  exact ((Bool.or_eq_true _ _).mp hmedia).elim haudio hvideo

theorem getSdp_needs (info : SdpInfo) (msidtemp : AString) :
    Needs .diverged
      (PrintEnds info.isBundle (info.hasAudio || info.hasVideo) info.bundleTags.length info.extMapVector.length)
      (fun _ => True) (info.getSdp msidtemp) :=
  (printLines_needs info msidtemp).bind id fun h _ _ => Needs.ok h trivial

theorem copyCandidates_needs (remoteSdp tempSdp : SdpInfo) :
    Needs .diverged (tempSdp.candidateVector.length ≤ 255) (fun _ => True)
      (copyCandidates remoteSdp tempSdp) := by
  rw [copyCandidates, ended_over]
  split_ifs with h
  · exact Needs.ok h trivial
  · exact Needs.error h

/-- What is done with a description that has been read comes to its end: the answer to it, and the
copying of its candidates. -/
def UsesEnd (info : SdpInfo) : Prop :=
  (∀ (localSdp : SdpInfo) (msidtemp : AString),
    (localSdp.setOfferSdp info).getSdp msidtemp ≠ .error .diverged)
  ∧ ∀ remoteSdp, copyCandidates remoteSdp info ≠ .error .diverged

theorem usesEnd_iff {c : Reading} {info : SdpInfo} (h : Parser.Counted c info) :
    UsesEnd info ↔ PrintEnds c.isBundle c.hasMedia c.tags c.extMaps ∧ c.candidates ≤ 255 := by
  obtain ⟨hbundle, htags, hmedia, hcandidates, hext⟩ := h
  have hprint (localSdp : SdpInfo) (msidtemp : AString) :=
    (getSdp_needs (localSdp.setOfferSdp info) msidtemp).ne_error_iff
  have hcopy (remoteSdp : SdpInfo) := (copyCandidates_needs remoteSdp info).ne_error_iff
  rw [← hbundle, ← htags, ← hmedia, ← hcandidates, ← hext]
  refine and_congr ⟨fun hall => ?_, fun hends localSdp msidtemp => ?_⟩ ⟨fun hall => ?_, fun hends remoteSdp => ?_⟩
  · exact (hprint create []).mp (hall create [])
  · exact (hprint localSdp msidtemp).mpr hends
  · exact (hcopy create).mp (hall create)
  · exact (hcopy remoteSdp).mpr hends

/-- All loops come to their end for just the texts whose loop over the bundle tags does, wherever it is
started, and that leave no more than 255 candidates, nor tags and extensions where they are printed. -/
theorem processing_ends_iff (info : SdpInfo) (sdp media : AString) :
    (info.processSdp sdp media ≠ .error .diverged
        ∧ ∀ result, info.processSdp sdp media = .ok result → UsesEnd result.2)
      ↔ (Parser.start info media).reading.Unstuck (getlines sdp)
        ∧ ((Parser.start info media).reading.Supplied (getlines sdp) →
          let last := (getlines sdp).foldl Reading.after (Parser.start info media).reading
          PrintEnds last.isBundle last.hasMedia last.tags last.extMaps ∧ last.candidates ≤ 255) := by
  have hread : info.processSdp sdp media = (Parser.start info media).read (getlines sdp) := rfl
  rw [hread, Parser.read_ne_diverged_iff, ← Parser.read_ne_outOfBounds_iff]
  refine and_congr_right fun hunstuck => ?_
  have hdiverged := (Parser.read_ne_diverged_iff _ (getlines sdp)).mpr hunstuck
  obtain hfault | hfault | ⟨result, hresult, hcounted⟩ :=
    Parser.read_cases (Parser.start info media) (getlines sdp)
  · simp [hfault]
  · exact absurd hfault hdiverged
  · simp only [hresult, Except.ok.injEq, forall_eq', ne_eq, reduceCtorEq, not_false_eq_true, forall_const]
    exact usesEnd_iff hcounted

/-! A text that makes the loop over the bundle tags go on for ever: it has 261 of them. -/

def groupLine : AString := ascii "a=group:BUNDLE 1 2 3 4 5 6 7 8 9"

def midLine : AString := ascii "a=mid:1"

theorem headSupplied_groupLine : HeadSupplied groupLine where
  fingerprint h := absurd h (by decide)
  group _ := by decide
  candidate h := absurd h (by decide)
  crypto h := absurd h (by decide)
  username h := absurd h (by decide)
  password h := absurd h (by decide)

theorem tailSupplied_groupLine (c : Reading) : TailSupplied c groupLine where
  ssrc h := absurd h (by decide)
  rtpmap h := absurd h (by decide)
  extmap h := absurd h (by decide)

theorem after_groupLine (c : Reading) :
    c.after groupLine = { c with isBundle := true, tags := c.tags + 9 } := by
  have hgroup : c.readGroup groupLine = { c with isBundle := true, tags := c.tags + 9 } := by
    rw [Reading.readGroup, if_pos (by decide)]
    congr 1
    rw [Bool.or_eq_true]
    exact Or.inr (by decide)
  have hmedia (c : Reading) : c.readMedia groupLine = c := by
    simp [Reading.readMedia, show has "m=audio" groupLine = false by decide,
      show has "m=video" groupLine = false by decide]
  rw [Reading.after, Reading.enter, hgroup, hmedia]
  rfl

theorem stuck_midLine {c : Reading} (hbundle : c.isBundle = true) (htags : 255 < c.tags) :
    Stuck (c.enter midLine) midLine :=
  ⟨by decide, by decide, hbundle, htags⟩

theorem headSupplied_midLine : HeadSupplied midLine where
  fingerprint h := absurd h (by decide)
  group h := absurd h (by decide)
  candidate h := absurd h (by decide)
  crypto h := absurd h (by decide)
  username h := absurd h (by decide)
  password h := absurd h (by decide)

theorem not_unstuck_groupLines {c : Reading} {n : Nat} (htags : 255 < c.tags + 9 * (n + 1)) :
    ¬ c.Unstuck (List.replicate (n + 1) groupLine ++ [midLine]) := by
  induction n generalizing c with
  | zero =>
      intro h
      have hmid := (h headSupplied_groupLine).2 (tailSupplied_groupLine _) headSupplied_midLine
      rw [after_groupLine] at hmid
      exact hmid.1 (stuck_midLine rfl htags)
  | succ n ih =>
      intro h
      have hrest := (h headSupplied_groupLine).2 (tailSupplied_groupLine _)
      rw [after_groupLine] at hrest
      exact ih (by simp only; omega) hrest

def manyTags : AString := (List.replicate 29 groupLine ++ [midLine]).flatMap (· ++ ascii "\n")

theorem getlines_manyTags : getlines manyTags = List.replicate 29 groupLine ++ [midLine] := by
  refine getlines_lines fun line hline => ?_
  obtain hgroup | hmid := List.mem_append.mp hline
  · rw [List.eq_of_mem_replicate hgroup]
    decide
  · rw [List.mem_singleton.mp hmid]
    decide

theorem manyTags_diverges : create.processSdp manyTags [] = .error .diverged := by
  by_contra h
  have hunstuck := (Parser.read_ne_diverged_iff (Parser.start create []) (getlines manyTags)).mp h
  rw [getlines_manyTags] at hunstuck
  exact not_unstuck_groupLines (by decide) hunstuck

end SdpInfo

end Licode.Media.Sdp
