import Licode.Lib.FirstOfName
import Licode.Server.IniFile
import Mathlib.Data.List.TakeWhile

/-!
# Settings that are saved

What `WriteFile` writes is read back as it was, as long as no text has a line end in it, the name of a value no mark,
and nothing stands in a key behind another one of its name. What has been read from a file is of this kind, whatever
was in the file, and every call by name keeps it so: saving loses nothing.

On Windows a text may not end with a carriage return either, for the one that `ReadFile` takes off a line is its own,
nor have the byte 0x1A in it, at which the stream ends.
-/

namespace Licode.Server

open Media

namespace IniContents

/-- Neither a line nor the stream ends within a text. -/
structure Unbroken (win32 : Bool) (s : AString) : Prop where
  newline : (10 : UInt8) ∉ s
  substitute : win32 = true → (0x1A : UInt8) ∉ s

instance (win32 : Bool) (s : AString) : Decidable (Unbroken win32 s) :=
  decidable_of_iff ((10 : UInt8) ∉ s ∧ (win32 = true → (0x1A : UInt8) ∉ s)) ⟨fun h => ⟨h.1, h.2⟩, fun h => ⟨h.1, h.2⟩⟩

/-- What stands in one line up to its end. -/
structure CleanText (win32 : Bool) (s : AString) : Prop where
  unbroken : Unbroken win32 s
  last : win32 = true → s.getLast? ≠ some 13

/-- The name of a value. -/
structure CleanName (win32 : Bool) (n : AString) : Prop where
  unbroken : Unbroken win32 n
  unmarked : ∀ c ∈ n, isMark c = false
  printed : ∀ c ∈ n.head?, isPrint c = true

structure CleanKey (win32 : Bool) (k : IniKey) : Prop where
  name : Unbroken win32 k.name
  values : ∀ e ∈ k.values, CleanName win32 e.1 ∧ CleanText win32 e.2
  comments : ∀ c ∈ k.comments, CleanText win32 c

/-- There is nothing in the key. -/
def Idle (k : IniKey) : Prop := k.values = [] ∧ k.comments = []

/-- Everything can be read back. -/
structure Clean (win32 : Bool) (ini : IniContents) : Prop where
  keys : ∀ k ∈ ini.keys, CleanKey win32 k
  comments : ∀ c ∈ ini.comments, CleanText win32 c
  first : FirstOfName (fun k : IniKey => ini.checkCase k.name) Idle ini.keys

variable {win32 : Bool} {ini : IniContents}

/-! ### Lines -/

/-- The part of a line end that stays in the line. -/
def carriageReturn (win32 : Bool) : AString := if win32 then [] else [13]

theorem iniEOL_eq (win32 : Bool) : iniEOL win32 = carriageReturn win32 ++ [10] := by
  cases win32 <;> rfl

theorem chop_line {line : AString} (h : CleanText win32 line) : chop (line ++ carriageReturn win32) = line := by
  cases win32 with
  | false => simp [chop, carriageReturn]
  | true =>
      have hlast := h.last rfl
      simp [chop, carriageReturn, hlast]

/-- What can stand in a file on Windows can stand in one elsewhere. -/
theorem Unbroken.of_win32 {s : AString} (h : Unbroken true s) : Unbroken win32 s := ⟨h.newline, fun _ => h.substitute rfl⟩

theorem Unbroken.mono {s t : AString} (h : Unbroken win32 s) (hsubset : ∀ c ∈ t, c ∈ s) : Unbroken win32 t :=
  ⟨fun hmem => h.newline (hsubset _ hmem), fun hwin hmem => h.substitute hwin (hsubset _ hmem)⟩

theorem unbroken_nil (win32 : Bool) : Unbroken win32 [] := ⟨List.not_mem_nil, fun _ => List.not_mem_nil⟩

theorem Unbroken.append {s t : AString} (hs : Unbroken win32 s) (ht : Unbroken win32 t) : Unbroken win32 (s ++ t) := by
  refine ⟨fun hmem => ?_, fun hwin hmem => ?_⟩
  · exact (List.mem_append.mp hmem).elim hs.newline ht.newline
  · exact (List.mem_append.mp hmem).elim (hs.substitute hwin) (ht.substitute hwin)

theorem Unbroken.cons {c : UInt8} {s : AString} (hnew : c ≠ 10) (hend : c ≠ 0x1A) (h : Unbroken win32 s) :
    Unbroken win32 (c :: s) := by
  refine ⟨fun hmem => ?_, fun hwin hmem => ?_⟩
  · exact (List.mem_cons.mp hmem).elim (fun heq => hnew heq.symm) h.newline
  · exact (List.mem_cons.mp hmem).elim (fun heq => hend heq.symm) (h.substitute hwin)

theorem cleanText_nil (win32 : Bool) : CleanText win32 [] := ⟨unbroken_nil win32, fun _ => by simp⟩

theorem cleanText_append (before : AString) {c : UInt8} {s : AString} (hbefore : Unbroken win32 before) (hc : c ≠ 10)
    (hend : c ≠ 0x1A) (hlast : c ≠ 13) (h : CleanText win32 s) : CleanText win32 (before ++ c :: s) := by
  refine ⟨hbefore.append (h.unbroken.cons hc hend), fun hwin => ?_⟩
  have hs := h.last hwin
  rw [List.getLast?_append, List.getLast?_cons]
  cases hlast' : s.getLast? with
  | none => simpa using hlast
  | some d =>
      rw [hlast'] at hs
      simpa using hs

theorem cleanText_comment {c : AString} (h : CleanText win32 c) : CleanText win32 (commentLine c) :=
  cleanText_append [] (unbroken_nil win32) (by decide) (by decide) (by decide) h

theorem cleanText_value {e : Entry} (hname : CleanName win32 e.1) (h : CleanText win32 e.2) :
    CleanText win32 (valueLine e) :=
  cleanText_append _ hname.unbroken (by decide) (by decide) (by decide) h

theorem cleanText_name {n : AString} (h : Unbroken win32 n) : CleanText win32 (91 :: (n ++ [93])) :=
  cleanText_append _ (h.cons (by decide) (by decide)) (by decide) (by decide) (by decide) (cleanText_nil win32)

theorem Clean.fileLines (h : Clean win32 ini) : ∀ line ∈ ini.fileLines, CleanText win32 line := by
  intro line hline
  rw [IniContents.fileLines, List.mem_append, List.mem_append] at hline
  rcases hline with (hline | hline) | hline
  · obtain ⟨c, hc, rfl⟩ := List.mem_map.mp hline
    exact cleanText_comment (h.comments c hc)
  · split_ifs at hline
    · exact absurd hline List.not_mem_nil
    · rw [List.mem_singleton.mp hline]
      exact cleanText_nil win32
  · obtain ⟨k, hk, hline⟩ := List.mem_flatMap.mp hline
    have hclean := h.keys k hk
    simp only [keyLines, List.mem_append, List.mem_singleton, List.mem_map] at hline
    rcases hline with ((rfl | ⟨c, hc, rfl⟩) | ⟨e, he, rfl⟩) | rfl
    · exact cleanText_name hclean.name
    · exact cleanText_comment (hclean.comments c hc)
    · exact cleanText_value (hclean.values e he).1 (hclean.values e he).2
    · exact cleanText_nil win32

/-- No line begins with a byte order mark. -/
theorem Clean.removeBom (h : Clean win32 ini) : ∀ line ∈ ini.fileLines, removeBom (line ++ carriageReturn win32)
    = line ++ carriageReturn win32 := by
  have hhead : ∀ {c : UInt8} {line : AString}, c ≠ 0xef → IniContents.removeBom (c :: line) = c :: line := by
    intro c line hc
    rw [IniContents.removeBom, if_neg]
    intro heq
    rw [List.take_succ_cons, List.cons.injEq] at heq
    exact hc heq.1
  have hempty : IniContents.removeBom (carriageReturn win32) = carriageReturn win32 := by
    cases win32 <;> rfl
  intro line hline
  rw [IniContents.fileLines, List.mem_append, List.mem_append] at hline
  rcases hline with (hline | hline) | hline
  · obtain ⟨c, hc, rfl⟩ := List.mem_map.mp hline
    exact hhead (by decide)
  · split_ifs at hline
    · exact absurd hline List.not_mem_nil
    · rw [List.mem_singleton.mp hline]
      exact hempty
  · obtain ⟨k, hk, hline⟩ := List.mem_flatMap.mp hline
    simp only [keyLines, List.mem_append, List.mem_singleton, List.mem_map] at hline
    rcases hline with ((rfl | ⟨c, hc, rfl⟩) | ⟨e, he, rfl⟩) | rfl
    · exact hhead (by decide)
    · exact hhead (by decide)
    · have hname := ((h.keys k hk).values e he).1
      rw [valueLine]
      cases hn : e.1 with
      | nil => exact hhead (by decide)
      | cons c n =>
          have hc := hname.printed c (by rw [hn]; rfl)
          refine hhead ?_
          rintro rfl
          exact absurd hc (by decide)
    · exact hempty

/-- The stream gives all of the text. -/
theorem stream_writeFile (h : Clean win32 ini) : stream win32 (ini.writeFile win32) = ini.writeFile win32 := by
  cases win32 with
  | false => rfl
  | true =>
      refine List.takeWhile_eq_self_iff.mpr fun c hc => decide_eq_true ?_
      obtain ⟨line, hline, hmem⟩ := List.mem_flatMap.mp hc
      rintro rfl
      refine (List.mem_append.mp hmem).elim ((h.fileLines line hline).unbroken.substitute rfl) fun hend => ?_
      exact absurd (List.mem_singleton.mp hend) (by decide)

theorem getlines_writeFile (h : Clean win32 ini) :
    getlines (ini.writeFile win32) = ini.fileLines.map (· ++ carriageReturn win32) := by
  have htext : ini.writeFile win32 = (ini.fileLines.map (· ++ carriageReturn win32)).flatMap (· ++ [10]) := by
    rw [writeFile, iniEOL_eq, List.flatMap_map]
    simp only [List.append_assoc]
  rw [htext]
  refine getlines_lines fun line hline => ?_
  obtain ⟨line, hmem, rfl⟩ := List.mem_map.mp hline
  have hnew := (h.fileLines line hmem).unbroken.newline
  cases win32 <;> simp [carriageReturn, hnew]

/-! ### Reading back -/

section Reading

variable {r r' : Reader} {ks : List IniKey} {k : IniKey} {insensitive : Bool} {header : List AString}

theorem readText_comment (r : Reader) (c : AString) : r.readText (commentLine c)
    = some (if r.ini.keys = [] then { r with ini := r.ini.addHeaderComment c }
      else { r with ini := r.ini.addKeyComment r.keyName c }) := by
  change (if r.ini.keys = [] then some _ else some _) = _
  split_ifs <;> rfl

theorem readText_name (r : Reader) (n : AString) :
    r.readText (91 :: (n ++ [93])) = some ⟨r.ini.addKeyName n, n⟩ := by
  have hlast : (((n ++ [93]).reverse.dropWhile (· ≠ 93)).drop 1).reverse = n := by
    rw [List.reverse_append, List.reverse_singleton, List.singleton_append, List.dropWhile_cons_of_neg (by decide),
      List.drop_one, List.tail_cons, List.reverse_reverse]
  change (if (93 : UInt8) ∈ n ++ [93] then some (Reader.mk _ _) else some r) = _
  rw [if_pos (List.mem_append_right n (List.mem_singleton_self 93)), hlast]

theorem readText_value (r : Reader) {e : Entry} (h : CleanName win32 e.1) :
    r.readText (valueLine e) = some { r with ini := r.ini.addValue r.keyName e.1 e.2 } := by
  have hname : ∀ c ∈ e.1, (! isMark c) = true := fun c hc => by rw [h.unmarked c hc]; rfl
  have hdrop : (valueLine e).dropWhile (! isMark ·) = 61 :: e.2 := by
    rw [valueLine, List.dropWhile_append_of_pos hname]
    rfl
  have htake : (valueLine e).takeWhile (! isMark ·) = e.1 := by
    rw [valueLine, List.takeWhile_append_of_pos hname]
    exact List.append_nil _
  have hfirst : ∃ first rest, valueLine e = first :: rest ∧ isPrint first = true := by
    rw [valueLine]
    cases hn : e.1 with
    | nil => exact ⟨61, e.2, rfl, rfl⟩
    | cons c n => exact ⟨c, n ++ 61 :: e.2, rfl, h.printed c (by rw [hn]; rfl)⟩
  obtain ⟨first, rest, hline, hprint⟩ := hfirst
  rw [hline] at hdrop htake ⊢
  rw [Reader.readText, if_pos hprint, hdrop]
  dsimp only
  rw [if_neg (by decide), if_pos rfl, htake]

theorem readLines_of_foldlM {lines : List AString} (h : ∀ line ∈ lines, CleanText win32 line)
    (hrun : lines.foldlM Reader.readText r = some r') :
    r.readLines (lines.map (· ++ carriageReturn win32))
      = (r'.ini, !(r'.ini.keys = [] ∧ r'.ini.comments = [])) := by
  induction lines generalizing r with
  | nil =>
      cases hrun
      rfl
  | cons line lines ih =>
      rw [List.foldlM_cons] at hrun
      obtain ⟨r₁, hread, hrest⟩ := Option.bind_eq_some_iff.mp hrun
      rw [List.map_cons, Reader.readLines, chop_line (h line List.mem_cons_self), hread]
      exact ih (fun line hline => h line (List.mem_cons_of_mem _ hline)) hrest

theorem modify_length {α : Type*} (xs : List α) (x : α) (f : α → α) : (xs ++ [x]).modify xs.length f = xs ++ [f x] := by
  induction xs with
  | nil => rfl
  | cons y xs ih => exact congrArg (y :: ·) ih

/-- The last key is found under its name where there is none of this name before it. -/
theorem findKey_last (hnone : (⟨insensitive, ks, header⟩ : IniContents).findKey k.name = none) :
    (⟨insensitive, ks ++ [k], header⟩ : IniContents).findKey k.name = some ks.length := by
  have hnone' : ks.findIdx? (fun k' => decide ((⟨insensitive, ks ++ [k], header⟩ : IniContents).checkCase k'.name
      = (⟨insensitive, ks ++ [k], header⟩ : IniContents).checkCase k.name)) = none := hnone
  rw [findKey, List.findIdx?_append, hnone']
  simp

theorem foldlM_header (cs : List AString) (keyName : AString) :
    (cs.map commentLine).foldlM Reader.readText ⟨⟨insensitive, [], header⟩, keyName⟩
      = some ⟨⟨insensitive, [], header ++ cs⟩, keyName⟩ := by
  induction cs generalizing header with
  | nil => rw [List.append_nil]; rfl
  | cons c cs ih =>
      have hnext := @ih (header ++ [c])
      rw [List.append_assoc, List.singleton_append] at hnext
      rw [List.map_cons, List.foldlM_cons, readText_comment, if_pos rfl]
      exact hnext

/-- The comments of a key that is the first of its name. -/
theorem foldlM_comments (cs : List AString)
    (hnone : (⟨insensitive, ks, header⟩ : IniContents).findKey k.name = none) :
    (cs.map commentLine).foldlM Reader.readText ⟨⟨insensitive, ks ++ [k], header⟩, k.name⟩
      = some ⟨⟨insensitive, ks ++ [{ k with comments := k.comments ++ cs }], header⟩, k.name⟩ := by
  induction cs generalizing k with
  | nil => rw [List.append_nil]; rfl
  | cons c cs ih =>
      have hnext := @ih { k with comments := k.comments ++ [c] } hnone
      simp only [List.append_assoc, List.singleton_append] at hnext
      rw [List.map_cons, List.foldlM_cons, readText_comment, if_neg (by simp), addKeyComment, modifyComments,
        findKey_last hnone]
      dsimp only [modifyKey, Option.bind_eq_bind, Option.bind_some]
      rw [modify_length]
      exact hnext

theorem foldlM_values (es : List Entry) (hes : ∀ e ∈ es, CleanName win32 e.1)
    (hnone : (⟨insensitive, ks, header⟩ : IniContents).findKey k.name = none) :
    (es.map valueLine).foldlM Reader.readText ⟨⟨insensitive, ks ++ [k], header⟩, k.name⟩
      = some ⟨⟨insensitive, ks ++ [{ k with values := k.values ++ es }], header⟩, k.name⟩ := by
  induction es generalizing k with
  | nil => rw [List.append_nil]; rfl
  | cons e es ih =>
      have hnext := @ih { k with values := k.values ++ [e] } (fun e he => hes e (List.mem_cons_of_mem _ he)) hnone
      simp only [List.append_assoc, List.singleton_append] at hnext
      rw [List.map_cons, List.foldlM_cons, readText_value _ (hes e List.mem_cons_self), addValue, findKey_last hnone]
      dsimp only [modifyKey, Option.bind_eq_bind, Option.bind_some]
      rw [modify_length]
      exact hnext

/-- A key is read back behind those before it. -/
theorem foldlM_key (hclean : CleanKey win32 k)
    (hfirst : FirstOfName (fun k => (⟨insensitive, ks, header⟩ : IniContents).checkCase k.name) Idle (ks ++ [k]))
    (keyName : AString) :
    (keyLines k).foldlM Reader.readText ⟨⟨insensitive, ks, header⟩, keyName⟩
      = some ⟨⟨insensitive, ks ++ [k], header⟩, k.name⟩ := by
  have hend : ∀ r : Reader, [[]].foldlM Reader.readText r = some r := fun r => rfl
  rw [keyLines, List.foldlM_append, List.foldlM_append, List.foldlM_append, List.foldlM_cons, readText_name]
  dsimp only [Option.bind_eq_bind, Option.bind_some, List.foldlM_nil, addKeyName]
  rw [Option.pure_def, Option.bind_some]
  by_cases hidle : Idle k
  · obtain ⟨hvalues, hcomments⟩ := hidle
    obtain ⟨name, values, comments⟩ := k
    dsimp only at hvalues hcomments
    subst hvalues hcomments
    exact hend _
  · have hnone : (⟨insensitive, ks, header⟩ : IniContents).findKey k.name = none := hfirst.findIdx?_eq_none hidle
    have hcomments := @foldlM_comments ks ⟨k.name, [], []⟩ insensitive header k.comments hnone
    have hvalues := @foldlM_values win32 ks ⟨k.name, [], k.comments⟩ insensitive header k.values
      (fun e he => (hclean.values e he).1) hnone
    rw [List.nil_append] at hcomments hvalues
    rw [hcomments, Option.bind_some, hvalues, Option.bind_some]
    exact hend _

theorem foldlM_keys {rest : List IniKey} (hclean : ∀ k ∈ rest, CleanKey win32 k)
    (hfirst : FirstOfName (fun k => (⟨insensitive, ks, header⟩ : IniContents).checkCase k.name) Idle (ks ++ rest))
    (keyName : AString) :
    ∃ keyName', (rest.flatMap keyLines).foldlM Reader.readText ⟨⟨insensitive, ks, header⟩, keyName⟩
      = some ⟨⟨insensitive, ks ++ rest, header⟩, keyName'⟩ := by
  induction rest generalizing ks keyName with
  | nil => exact ⟨keyName, by rw [List.append_nil]; rfl⟩
  | cons k rest ih =>
      rw [← List.singleton_append, ← List.append_assoc] at hfirst
      obtain ⟨keyName', hrest⟩ := @ih (ks ++ [k]) (fun k hk => hclean k (List.mem_cons_of_mem _ hk)) hfirst k.name
      have hkey := foldlM_key (hclean k List.mem_cons_self)
        (List.Pairwise.sublist (List.sublist_append_left _ _) hfirst) keyName
      refine ⟨keyName', ?_⟩
      rw [List.flatMap_cons, List.foldlM_append, hkey]
      simp only [List.append_assoc, List.singleton_append] at hrest ⊢
      exact hrest

/-- **Round trip.** A file that has been written is read back as it was. -/
theorem Clean.readFile_writeFile (h : Clean win32 ini) :
    readFile win32 ⟨ini.isCaseInsensitive, [], []⟩ (ini.writeFile win32)
      = (ini, !(ini.keys = [] ∧ ini.comments = [])) := by
  obtain ⟨insensitive, keys, comments⟩ := ini
  obtain ⟨keyName, hkeys⟩ := @foldlM_keys win32 [] insensitive comments keys h.keys h.first []
  have hblank : ∀ r : Reader, (if comments = [] then [] else [[]]).foldlM Reader.readText r = some r := by
    intro r
    split_ifs <;> rfl
  have hrun : (IniContents.fileLines ⟨insensitive, keys, comments⟩).foldlM Reader.readText ⟨⟨insensitive, [], []⟩, []⟩
      = some ⟨⟨insensitive, keys, comments⟩, keyName⟩ := by
    rw [IniContents.fileLines, List.foldlM_append, List.foldlM_append, foldlM_header]
    dsimp only [Option.bind_eq_bind, Option.bind_some]
    rw [hblank]
    exact hkeys
  have hbom := h.removeBom
  have hread := readLines_of_foldlM h.fileLines hrun
  rw [readFile, stream_writeFile h, getlines_writeFile h]
  cases hlines : IniContents.fileLines ⟨insensitive, keys, comments⟩ with
  | nil =>
      rw [hlines] at hread
      exact hread
  | cons line lines =>
      rw [hlines] at hread
      rw [List.map_cons]
      dsimp only
      rw [hbom line (by rw [hlines]; exact List.mem_cons_self)]
      exact hread

end Reading

/-! ### What the calls keep -/

section Calls

variable {keyName valueName value comment : AString} {keyID : Nat}

theorem cleanKey_new (h : Unbroken win32 keyName) : CleanKey win32 ⟨keyName, [], []⟩ :=
  ⟨h, List.forall_mem_nil _, List.forall_mem_nil _⟩

theorem Clean.addKeyName (h : Clean win32 ini) (hname : Unbroken win32 keyName) :
    (ini.addKeyName keyName).Clean win32 where
  keys := List.forall_mem_append.mpr ⟨h.keys, List.forall_mem_singleton.mpr (cleanKey_new hname)⟩
  comments := h.comments
  first := h.first.append_idle ⟨rfl, rfl⟩

/-- A change to the first key of a name. -/
theorem Clean.modifyKey (h : Clean win32 ini) (hkey : ini.findKey keyName = some keyID) {f : IniKey → IniKey}
    (hname : ∀ k, (f k).name = k.name) (hclean : ∀ k, CleanKey win32 k → CleanKey win32 (f k)) :
    (ini.modifyKey keyID f).Clean win32 := by
  refine ⟨fun k hk => ?_, h.comments, h.first.modify hkey fun k => congrArg ini.checkCase (hname k)⟩
  obtain ⟨i, hi, rfl⟩ := List.mem_iff_getElem.mp hk
  have hi' : i < ini.keys.length := by simpa [IniContents.modifyKey] using hi
  simp only [IniContents.modifyKey, List.getElem_modify]
  split_ifs
  · exact hclean _ (h.keys _ (List.getElem_mem hi'))
  · exact h.keys _ (List.getElem_mem hi')

/-- A change to a key that is made for it. -/
theorem Clean.newKey (h : Clean win32 ini) (hkey : ini.findKey keyName = none) {f : IniKey → IniKey}
    (hname : ∀ k, (f k).name = k.name) (hclean : CleanKey win32 (f ⟨keyName, [], []⟩)) :
    ((ini.addKeyName keyName).modifyKey ini.keys.length f).Clean win32 := by
  rw [IniContents.modifyKey, IniContents.addKeyName]
  dsimp only
  rw [modify_length]
  refine ⟨List.forall_mem_append.mpr ⟨h.keys, List.forall_mem_singleton.mpr hclean⟩, h.comments, ?_⟩
  refine FirstOfName.append_new h.first ?_
  rw [hname]
  exact hkey

theorem cleanKey_push (hname : CleanName win32 valueName) (hvalue : CleanText win32 value) {k : IniKey}
    (h : CleanKey win32 k) : CleanKey win32 { k with values := k.values ++ [(valueName, value)] } :=
  { h with values := List.forall_mem_append.mpr ⟨h.values, List.forall_mem_singleton.mpr ⟨hname, hvalue⟩⟩ }

theorem Clean.addValue (h : Clean win32 ini) (hkey : Unbroken win32 keyName) (hname : CleanName win32 valueName)
    (hvalue : CleanText win32 value) : (ini.addValue keyName valueName value).Clean win32 := by
  unfold IniContents.addValue
  dsimp only
  split
  · next hnone => exact h.newKey hnone (fun _ => rfl) (cleanKey_push hname hvalue (cleanKey_new hkey))
  · next hsome => exact h.modifyKey hsome (fun _ => rfl) fun k => cleanKey_push hname hvalue

theorem name_putValue (ini : IniContents) (valueName value : AString) (create : Bool) (k : IniKey) :
    (ini.putValue valueName value create k).name = k.name := by
  unfold putValue
  split
  · split_ifs <;> rfl
  · rfl

theorem cleanKey_putValue (ini : IniContents) (hname : CleanName win32 valueName) (hvalue : CleanText win32 value)
    (create : Bool) {k : IniKey} (h : CleanKey win32 k) : CleanKey win32 (ini.putValue valueName value create k) := by
  unfold putValue
  split
  · split_ifs
    · exact cleanKey_push hname hvalue h
    · exact h
  · refine { h with values := fun e he => ?_ }
    obtain ⟨i, hi, rfl⟩ := List.mem_iff_getElem.mp he
    have hi' : i < k.values.length := by simpa using hi
    have hold := h.values _ (List.getElem_mem hi')
    rw [List.getElem_modify]
    split_ifs
    · exact ⟨hold.1, hvalue⟩
    · exact hold

theorem Clean.setValue (h : Clean win32 ini) (hkey : Unbroken win32 keyName) (hname : CleanName win32 valueName)
    (hvalue : CleanText win32 value) (create : Bool) : (ini.setValue keyName valueName value create).Clean win32 := by
  unfold IniContents.setValue
  split
  · next hnone =>
      split_ifs
      · exact h.newKey hnone (name_putValue ini _ _ _) (cleanKey_putValue ini hname hvalue _ (cleanKey_new hkey))
      · exact h
  · next hsome => exact h.modifyKey hsome (name_putValue ini _ _ _) fun k => cleanKey_putValue ini hname hvalue _

theorem Clean.getValueSet (h : Clean win32 ini) (hkey : Unbroken win32 keyName) (hname : CleanName win32 valueName)
    (hvalue : CleanText win32 value) : (ini.getValueSet keyName valueName value).1.Clean win32 := by
  unfold IniContents.getValueSet
  split
  · exact h.setValue hkey hname hvalue true
  · exact h

theorem Clean.deleteValue (h : Clean win32 ini) (keyName valueName : AString) :
    (ini.deleteValue keyName valueName).Clean win32 := by
  unfold IniContents.deleteValue
  split
  · exact h
  · next hsome =>
      refine h.modifyKey hsome (fun k => ?_) fun k hk => ?_
      · split <;> rfl
      · split
        · exact hk
        · exact { hk with values := fun e he => hk.values e (List.mem_of_mem_eraseIdx he) }

theorem Clean.deleteKey (h : Clean win32 ini) (keyName : AString) : (ini.deleteKey keyName).Clean win32 := by
  unfold IniContents.deleteKey
  split
  · exact h
  · exact ⟨fun k hk => h.keys k (List.mem_of_mem_eraseIdx hk), h.comments, h.first.eraseIdx _⟩

theorem clean_clear (win32 : Bool) (ini : IniContents) : ini.clear.Clean win32 :=
  ⟨List.forall_mem_nil _, List.forall_mem_nil _, List.Pairwise.nil⟩

theorem Clean.addHeaderComment (h : Clean win32 ini) (hcomment : CleanText win32 comment) :
    (ini.addHeaderComment comment).Clean win32 :=
  { h with comments := List.forall_mem_append.mpr ⟨h.comments, List.forall_mem_singleton.mpr hcomment⟩ }

theorem Clean.deleteHeaderComment (h : Clean win32 ini) (commentID : Nat) :
    (ini.deleteHeaderComment commentID).Clean win32 :=
  { h with comments := fun c hc => h.comments c (List.mem_of_mem_eraseIdx hc) }

theorem Clean.modifyComments (h : Clean win32 ini) (keyName : AString) {f : List AString → List AString}
    (hf : ∀ cs, (∀ c ∈ cs, CleanText win32 c) → ∀ c ∈ f cs, CleanText win32 c) :
    (ini.modifyComments keyName f).Clean win32 := by
  unfold IniContents.modifyComments
  split
  · exact h
  · next hsome => exact h.modifyKey hsome (fun _ => rfl) fun k hk => { hk with comments := hf _ hk.comments }

theorem Clean.addKeyComment (h : Clean win32 ini) (keyName : AString) (hcomment : CleanText win32 comment) :
    (ini.addKeyComment keyName comment).Clean win32 :=
  h.modifyComments keyName fun _ hcs => List.forall_mem_append.mpr ⟨hcs, List.forall_mem_singleton.mpr hcomment⟩

/-- A call that names its key, or is about the comments of the file. -/
inductive Call where
  | addKeyName (keyName : AString)
  | addValue (keyName valueName value : AString)
  | setValue (keyName valueName value : AString) (create : Bool)
  | getValueSet (keyName valueName defValue : AString)
  | deleteValue (keyName valueName : AString)
  | deleteKey (keyName : AString)
  | clear
  | addHeaderComment (comment : AString)
  | deleteHeaderComment (commentID : Nat)
  | addKeyComment (keyName comment : AString)
  | deleteKeyComment (keyName : AString) (commentID : Nat)
  | deleteKeyComments (keyName : AString)

def Call.apply (ini : IniContents) : Call → IniContents
  | .addKeyName keyName => ini.addKeyName keyName
  | .addValue keyName valueName value => ini.addValue keyName valueName value
  | .setValue keyName valueName value create => ini.setValue keyName valueName value create
  | .getValueSet keyName valueName defValue => (ini.getValueSet keyName valueName defValue).1
  | .deleteValue keyName valueName => ini.deleteValue keyName valueName
  | .deleteKey keyName => ini.deleteKey keyName
  | .clear => ini.clear
  | .addHeaderComment comment => ini.addHeaderComment comment
  | .deleteHeaderComment commentID => ini.deleteHeaderComment commentID
  | .addKeyComment keyName comment => ini.addKeyComment keyName comment
  | .deleteKeyComment keyName commentID => ini.deleteKeyComment keyName commentID
  | .deleteKeyComments keyName => ini.deleteKeyComments keyName

/-- What is brought in by the call can stand in a file. -/
def Call.Clean (win32 : Bool) : Call → Prop
  | .addKeyName keyName => Unbroken win32 keyName
  | .addValue keyName valueName value | .setValue keyName valueName value _ | .getValueSet keyName valueName value =>
      Unbroken win32 keyName ∧ CleanName win32 valueName ∧ CleanText win32 value
  | .addHeaderComment comment | .addKeyComment _ comment => CleanText win32 comment
  | .deleteValue _ _ | .deleteKey _ | .clear | .deleteHeaderComment _ | .deleteKeyComment _ _ | .deleteKeyComments _ =>
      True

theorem Clean.apply (h : Clean win32 ini) {call : Call} (hcall : call.Clean win32) : (call.apply ini).Clean win32 := by
  cases call with
  | addKeyName keyName => exact h.addKeyName hcall
  | addValue keyName valueName value => exact h.addValue hcall.1 hcall.2.1 hcall.2.2
  | setValue keyName valueName value create => exact h.setValue hcall.1 hcall.2.1 hcall.2.2 create
  | getValueSet keyName valueName value => exact h.getValueSet hcall.1 hcall.2.1 hcall.2.2
  | deleteValue keyName valueName => exact h.deleteValue keyName valueName
  | deleteKey keyName => exact h.deleteKey keyName
  | clear => exact clean_clear win32 ini
  | addHeaderComment comment => exact h.addHeaderComment hcall
  | deleteHeaderComment commentID => exact h.deleteHeaderComment commentID
  | addKeyComment keyName comment => exact h.addKeyComment keyName hcall
  | deleteKeyComment keyName commentID =>
      exact h.modifyComments keyName fun cs hcs c hc => hcs c (List.mem_of_mem_eraseIdx hc)
  | deleteKeyComments keyName => exact h.modifyComments keyName fun cs hcs => List.forall_mem_nil _

end Calls

/-! ### What has been read -/

section Read

variable {r r' : Reader} {line text : AString}

theorem cleanText_suffix (h : CleanText win32 line) (hsuffix : text <:+ line) : CleanText win32 text := by
  refine ⟨h.unbroken.mono fun c hc => hsuffix.mem hc, fun hwin hlast => h.last hwin ?_⟩
  obtain ⟨before, rfl⟩ := hsuffix
  rw [List.getLast?_append, hlast]
  rfl

/-- Two carriage returns at the end of a line leave one in the text. -/
theorem cleanText_chop (hline : Unbroken win32 line) (hreturns : win32 = true → ¬ [13, 13] <:+ line) :
    CleanText win32 (chop line) := by
  unfold chop
  split_ifs with hlast
  · refine ⟨hline.mono fun c hc => (List.dropLast_sublist line).mem hc, fun hwin hlast' => hreturns hwin ?_⟩
    obtain ⟨before, rfl⟩ := List.getLast?_eq_some_iff.mp hlast
    rw [List.dropLast_concat] at hlast'
    obtain ⟨before', rfl⟩ := List.getLast?_eq_some_iff.mp hlast'
    exact ⟨before', by simp⟩
  · exact ⟨hline, fun _ => hlast⟩

theorem Reader.readText_clean (hini : r.ini.Clean win32) (hname : Unbroken win32 r.keyName)
    (hline : CleanText win32 line) (hread : r.readText line = some r') :
    r'.ini.Clean win32 ∧ Unbroken win32 r'.keyName := by
  unfold Reader.readText at hread
  split at hread
  · cases hread
    exact ⟨hini, hname⟩
  · next first rest =>
      by_cases hprint : isPrint first = true
      swap
      · rw [if_neg hprint] at hread
        cases hread
      rw [if_pos hprint] at hread
      split at hread
      · cases hread
        exact ⟨hini, hname⟩
      · next mark text hdrop =>
          have hsuffix : text <:+ first :: rest := by
            refine List.IsSuffix.trans ?_ (List.dropWhile_suffix (! isMark ·))
            rw [hdrop]
            exact List.suffix_cons mark text
          have htext := cleanText_suffix hline hsuffix
          have hvalue : CleanName win32 ((first :: rest).takeWhile (! isMark ·)) := by
            refine ⟨hline.unbroken.mono fun c hc => (List.takeWhile_sublist _).mem hc, fun c hc => ?_, fun c hc => ?_⟩
            · simpa using List.mem_takeWhile_imp hc
            · rw [List.takeWhile_cons] at hc
              split_ifs at hc
              · rw [List.head?_cons, Option.mem_some_iff] at hc
                rwa [← hc]
              · cases hc
          have hkey : Unbroken win32 ((text.reverse.dropWhile (· ≠ 93)).drop 1).reverse := by
            refine htext.unbroken.mono fun c hc => ?_
            have hmem := (List.dropWhile_sublist _).mem (List.mem_of_mem_drop (List.mem_reverse.mp hc))
            exact List.mem_reverse.mp hmem
          dsimp only at hread
          split at hread
          · split at hread
            · cases hread
              exact ⟨hini.addKeyName hkey, hkey⟩
            · cases hread
              exact ⟨hini, hname⟩
          · split at hread
            · cases hread
              exact ⟨hini.addValue hname hvalue htext, hname⟩
            · split at hread
              · cases hread
                exact ⟨hini.addHeaderComment htext, hname⟩
              · cases hread
                exact ⟨hini.addKeyComment _ htext, hname⟩

theorem Reader.readLines_clean {lines : List AString} (hini : r.ini.Clean win32) (hname : Unbroken win32 r.keyName)
    (hlines : ∀ line ∈ lines, Unbroken win32 line ∧ (win32 = true → ¬ [13, 13] <:+ line)) :
    (r.readLines lines).1.Clean win32 := by
  induction lines generalizing r with
  | nil => exact hini
  | cons line lines ih =>
      obtain ⟨hline, hrest⟩ := List.forall_mem_cons.mp hlines
      rw [Reader.readLines]
      cases hread : r.readText (chop line) with
      | none => exact hini
      | some r' =>
          obtain ⟨hini', hname'⟩ := Reader.readText_clean hini hname (cleanText_chop hline.1 hline.2) hread
          exact ih hini' hname' hrest

/-- The lines of a stream. -/
theorem splitLoop_unbroken (splits : Nat) {part text : AString} (hpart : Unbroken win32 part)
    (htext : win32 = true → (0x1A : UInt8) ∉ text) : ∀ line ∈ splitLoop [10] 0 splits part text, Unbroken win32 line := by
  induction text generalizing splits part with
  | nil =>
      intro line hline
      rw [splitLoop] at hline
      split_ifs at hline
      · exact absurd hline List.not_mem_nil
      · rwa [List.mem_singleton.mp hline]
  | cons c text ih =>
      have hrest : win32 = true → (0x1A : UInt8) ∉ text := fun hwin hmem => htext hwin (List.mem_cons_of_mem c hmem)
      rw [splitLoop]
      split_ifs with hc
      · exact List.forall_mem_cons.mpr ⟨hpart, ih _ (unbroken_nil win32) hrest⟩
      · refine ih _ (hpart.append ⟨fun hmem => ?_, fun hwin hmem => ?_⟩) hrest
        · exact hc ⟨Or.inl rfl, List.mem_singleton.mpr (List.mem_singleton.mp hmem).symm⟩
        · exact htext hwin (List.mem_singleton.mp hmem ▸ List.mem_cons_self)

theorem removeBom_suffix (line : AString) : IniContents.removeBom line <:+ line := by
  unfold IniContents.removeBom
  split_ifs
  · exact List.drop_suffix 3 line
  · exact List.suffix_refl line

/-- No line that is read ends with two carriage returns. On Windows the runtime has taken one of its own off already. -/
def SingleReturns (win32 : Bool) (text : AString) : Prop :=
  win32 = true → ∀ line ∈ getlines (stream win32 text), ¬ [13, 13] <:+ line

theorem not_mem_stream (text : AString) (hwin : win32 = true) : (0x1A : UInt8) ∉ stream win32 text := by
  rw [stream, if_pos hwin]
  intro hmem
  exact absurd (List.mem_takeWhile_imp hmem) (by decide)

theorem Clean.readFile (h : Clean win32 ini) (htext : SingleReturns win32 text) :
    (ini.readFile win32 text).1.Clean win32 := by
  have hlines : ∀ line ∈ getlines (stream win32 text), Unbroken win32 line ∧ (win32 = true → ¬ [13, 13] <:+ line) :=
    fun line hline => ⟨splitLoop_unbroken 0 (unbroken_nil win32) (not_mem_stream text) line hline,
      fun hwin => htext hwin line hline⟩
  rw [IniContents.readFile]
  refine Reader.readLines_clean h (unbroken_nil win32) ?_
  cases hget : getlines (stream win32 text) with
  | nil => exact List.forall_mem_nil _
  | cons first rest =>
      rw [hget] at hlines
      obtain ⟨hfirst, hrest⟩ := List.forall_mem_cons.mp hlines
      have hsuffix := removeBom_suffix first
      exact List.forall_mem_cons.mpr
        ⟨⟨hfirst.1.mono fun c hc => hsuffix.mem hc, fun hwin hends => hfirst.2 hwin (hends.trans hsuffix)⟩, hrest⟩

end Read

/-! ### What is saved -/

section Saved

variable {r r' : Reader} {line text keyName : AString} {calls : List Call}

theorem case_addValue (ini : IniContents) (keyName valueName value : AString) :
    (ini.addValue keyName valueName value).isCaseInsensitive = ini.isCaseInsensitive := by
  unfold IniContents.addValue
  dsimp only
  split <;> rfl

theorem case_setValue (ini : IniContents) (keyName valueName value : AString) (create : Bool) :
    (ini.setValue keyName valueName value create).isCaseInsensitive = ini.isCaseInsensitive := by
  unfold IniContents.setValue
  split
  · split_ifs <;> rfl
  · rfl

theorem case_modifyComments (ini : IniContents) (keyName : AString) (f : List AString → List AString) :
    (ini.modifyComments keyName f).isCaseInsensitive = ini.isCaseInsensitive := by
  unfold IniContents.modifyComments
  split <;> rfl

/-- Names are compared in one way from first to last. -/
theorem case_apply (ini : IniContents) (call : Call) :
    (call.apply ini).isCaseInsensitive = ini.isCaseInsensitive := by
  cases call with
  | addKeyName keyName => rfl
  | addValue keyName valueName value => exact case_addValue ini keyName valueName value
  | setValue keyName valueName value create => exact case_setValue ini keyName valueName value create
  | getValueSet keyName valueName value =>
      change (ini.getValueSet keyName valueName value).1.isCaseInsensitive = _
      unfold IniContents.getValueSet
      split
      · exact case_setValue ini keyName valueName value true
      · rfl
  | deleteValue keyName valueName =>
      change (ini.deleteValue keyName valueName).isCaseInsensitive = _
      unfold IniContents.deleteValue
      split <;> rfl
  | deleteKey keyName =>
      change (ini.deleteKey keyName).isCaseInsensitive = _
      unfold IniContents.deleteKey
      split <;> rfl
  | clear => rfl
  | addHeaderComment comment => rfl
  | deleteHeaderComment commentID => rfl
  | addKeyComment keyName comment => exact case_modifyComments ini keyName _
  | deleteKeyComment keyName commentID => exact case_modifyComments ini keyName _
  | deleteKeyComments keyName => exact case_modifyComments ini keyName _

theorem Reader.readText_case (h : r.readText line = some r') :
    r'.ini.isCaseInsensitive = r.ini.isCaseInsensitive := by
  unfold Reader.readText at h
  split at h
  · cases h
    rfl
  · next first rest =>
      split at h
      swap
      · cases h
      split at h
      · cases h
        rfl
      · next mark text hdrop =>
          dsimp only at h
          split at h
          · split at h <;> cases h <;> rfl
          · split at h
            · cases h
              exact case_addValue r.ini r.keyName _ text
            · split at h <;> cases h
              · rfl
              · exact case_modifyComments r.ini r.keyName _

theorem Reader.readLines_case (r : Reader) (lines : List AString) :
    (r.readLines lines).1.isCaseInsensitive = r.ini.isCaseInsensitive := by
  induction lines generalizing r with
  | nil => rfl
  | cons line lines ih =>
      rw [Reader.readLines]
      cases hread : r.readText (chop line) with
      | none => rfl
      | some r' => exact (ih r').trans (Reader.readText_case hread)

/-- The settings of a file after the calls of a program. -/
def edited (win32 : Bool) (text : AString) (calls : List Call) : IniContents :=
  calls.foldl Call.apply (create.readFile win32 text).1

theorem clean_edited (htext : SingleReturns win32 text) (hcalls : ∀ call ∈ calls, call.Clean win32) :
    (edited win32 text calls).Clean win32 := by
  have hread : (create.readFile win32 text).1.Clean win32 := (clean_clear win32 create).readFile htext
  rw [edited]
  generalize (create.readFile win32 text).1 = ini at hread
  induction calls generalizing ini with
  | nil => exact hread
  | cons call calls ih =>
      obtain ⟨hcall, hcalls⟩ := List.forall_mem_cons.mp hcalls
      exact ih hcalls _ (hread.apply hcall)

theorem case_edited (win32 : Bool) (text : AString) (calls : List Call) : (edited win32 text calls).isCaseInsensitive = true := by
  have hread : (create.readFile win32 text).1.isCaseInsensitive = true := Reader.readLines_case _ _
  rw [edited]
  generalize (create.readFile win32 text).1 = ini at hread
  induction calls generalizing ini with
  | nil => exact hread
  | cons call calls ih => exact ih _ ((case_apply ini call).trans hread)

/-- **Saving loses nothing.** Whatever was in the file, after any calls by name the settings are read back as they
were written, with their comments, their order and all that stands there twice. -/
theorem readFile_edited (htext : SingleReturns win32 text) (hcalls : ∀ call ∈ calls, call.Clean win32) :
    create.readFile win32 ((edited win32 text calls).writeFile win32)
      = (edited win32 text calls, !((edited win32 text calls).keys = [] ∧ (edited win32 text calls).comments = [])) := by
  have hround := (clean_edited htext hcalls).readFile_writeFile
  rwa [case_edited] at hround

/-- A key that is there twice gets its value in the first place. -/
theorem readFile_edited_keys :
    create.readFile true ((edited true (ascii "[A]\nx=1\n[a]\n") [.setValue (ascii "a") (ascii "X") (ascii "2") true,
        .addHeaderComment (ascii "new")]).writeFile true)
      = (⟨true, [⟨ascii "A", [(ascii "x", ascii "2")], []⟩, ⟨ascii "a", [], []⟩], [ascii "new"]⟩, true) := by
  have htext : SingleReturns true (ascii "[A]\nx=1\n[a]\n") := fun _ => by decide +kernel
  have hcalls : ∀ call ∈ [Call.setValue (ascii "a") (ascii "X") (ascii "2") true, .addHeaderComment (ascii "new")],
      call.Clean true := by
    refine List.forall_mem_cons.mpr ⟨⟨by decide, ⟨by decide, by decide +kernel, by decide +kernel⟩, ?_⟩,
      List.forall_mem_singleton.mpr ?_⟩
    · exact ⟨by decide, fun _ => by decide⟩
    · exact ⟨by decide, fun _ => by decide⟩
  rw [readFile_edited htext hcalls]
  decide +kernel

end Saved

end IniContents

end Licode.Server
