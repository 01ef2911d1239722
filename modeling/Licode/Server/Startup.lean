import Licode.Channel.Peer
import Licode.Lib.Lasting
import Licode.Server.SavedSettings

/-!
# Starting with the settings

`cRoot::Start` reads the settings file, and begins one with a comment where there is none. In every turn of its loop the
server and the authenticator ask for what they need: what is not there is put there with its default, unless it has been
given on the command line, and then the file is written.

So the file only grows, and a server that is started again has the configuration that it had.
-/

namespace Licode.Server

open Channel Media

/-- `atoi`, where a number that does not fit into an `int` becomes the last one that does. -/
def atoi (text : AString) : Int32 :=
  let text := text.dropWhile isSpace
  let (negative, text) := match text with
    | 45 :: rest => (true, rest)
    | 43 :: rest => (false, rest)
    | _ => (false, text)
  let value := decimalValue (text.takeWhile isDigit)
  if negative then Int32.ofInt (-(min value (2 ^ 31) : Nat)) else Int32.ofNat (min value (2 ^ 31 - 1))

/-- What `parseArguments` puts into the repository of the overrides, which cannot be written to. When several ports are
given, `find` comes to any of them. -/
structure Arguments where
  maxPlayers : Option Int32
  port : Option Int32

namespace Arguments

def find (args : Arguments) (keyName valueName : AString) : Option Int32 :=
  if keyName = ascii "Server" then
    if valueName = ascii "MaxPlayers" then args.maxPlayers
    else if valueName = ascii "Port" then args.port
    else none
  else none

/-- The overrides are asked first. `given` is what they make of their number, and `parse` what `cIniFile` makes of the
text that it has, or has now: `defText`. -/
def ask {α : Type} (args : Arguments) (keyName valueName defText : AString) (given : Int32 → α) (parse : AString → α) :
    StateM IniContents α := fun ini =>
  match args.find keyName valueName with
  | some value => (given value, ini)
  | none =>
      let (ini, text) := ini.getValueSet keyName valueName defText
      (parse text, ini)

/-- A number in the overrides has no text. -/
def getValueSet (args : Arguments) (keyName valueName defValue : AString) : StateM IniContents AString :=
  args.ask keyName valueName defValue (fun _ => []) id

def getValueSetI (args : Arguments) (keyName valueName : AString) (defValue : Int32) : StateM IniContents Int32 :=
  args.ask keyName valueName (printInt defValue) id atoi

/-- The overrides look at the first byte of a number. -/
def getValueSetB (args : Arguments) (keyName valueName : AString) (defValue : Bool) : StateM IniContents Bool :=
  args.ask keyName valueName (printInt (if defValue then 1 else 0)) (fun value => value.toInt % 256 ≠ 0) (atoi · ≠ 0)

end Arguments

/-- The fields that `cAuthenticator::ReadSettings` fills. -/
structure AuthenticatorSettings where
  table : AString
  username : AString
  password : AString
  salt : AString
  deriving DecidableEq

def readSettings (args : Arguments) : StateM IniContents AuthenticatorSettings := do
  let table ← args.getValueSet (ascii "Authentication") (ascii "Table") (ascii "tb_users")
  let username ← args.getValueSet (ascii "Authentication") (ascii "sername") (ascii "username")
  let password ← args.getValueSet (ascii "Authentication") (ascii "Password") (ascii "password")
  let salt ← args.getValueSet (ascii "Authentication") (ascii "Salt") (ascii "salt")
  return ⟨table, username, password, salt⟩

structure Config where
  shouldAuthenticate : Bool
  port : Int32
  authenticator : AuthenticatorSettings
  deriving DecidableEq

/-- What a turn of the loop asks for, in its order. -/
def configure (args : Arguments) : StateM IniContents Config := do
  let shouldAuthenticate ← args.getValueSetB (ascii "Authentication") (ascii "Authenticate") true
  let port ← args.getValueSetI (ascii "Server") (ascii "Port") 6666
  let authenticator ← readSettings args
  return ⟨shouldAuthenticate, port, authenticator⟩

/-- A turn of the loop with the settings that it leaves. -/
structure Turn where
  args : Arguments
  settings : IniContents
  config : Config

/-- What `Flush` writes, also after the last turn. -/
def Turn.file (win32 : Bool) (t : Turn) : AString := t.settings.writeFile win32

def turn (args : Arguments) (ini : IniContents) : Turn :=
  let (config, ini) := configure args ini
  ⟨args, ini, config⟩

/-- The beginning of `cRoot::Start`. A file that cannot be opened is `none`. -/
def load (win32 : Bool) (file : Option AString) : IniContents :=
  match file with
  | none => IniContents.create.addHeaderComment (ascii " This is the main server configuration")
  | some text =>
      let (ini, read) := IniContents.create.readFile win32 text
      if read then ini else ini.addHeaderComment (ascii " This is the main server configuration")

/-- What comes after a turn: another one of the loop, or another process. -/
inductive Next where
  | restart
  | process (args : Arguments)

def Turn.next (win32 : Bool) (t : Turn) : Next → Turn
  | .restart => turn t.args t.settings
  | .process args => turn args (load win32 (some (t.file win32)))

def turns (win32 : Bool) : Turn → List Next → List Turn
  | t, [] => [t]
  | t, next :: rest => t :: turns win32 (t.next win32 next) rest

namespace IniContents

/-! ### What the file keeps -/

variable {ini ini' : IniContents} {keyName valueName value : AString}

/-- Values are only added, behind those that are there. -/
structure Grows (ini ini' : IniContents) : Prop where
  case : ini'.isCaseInsensitive = ini.isCaseInsensitive
  values : ∀ keyName, ini.getValues keyName <+: ini'.getValues keyName

instance : Std.Refl Grows where
  refl _ := ⟨rfl, fun _ => List.prefix_rfl⟩

instance : IsTrans IniContents Grows where
  trans _ _ _ h h' := ⟨h'.case.trans h.case, fun keyName => (h.values keyName).trans (h'.values keyName)⟩

theorem lookup_eq (ini : IniContents) (keyName valueName : AString) : ini.lookup keyName valueName
    = ((ini.getValues keyName).find? fun e => ini.checkCase e.1 = ini.checkCase valueName).map Prod.snd := by
  rw [lookup, getValues]
  cases hkey : ini.findKey keyName with
  | none => rfl
  | some keyID =>
      cases hget : ini.keys[keyID]? with
      | none => simp [hget]
      | some k =>
          simp only [Option.bind_eq_bind, Option.bind_some, hget, Option.map_some, Option.getD_some]
          rw [find?_of_findIdx?, findValue]
          cases k.values.findIdx? fun e => decide (ini.checkCase e.1 = ini.checkCase valueName) with
          | none => rfl
          | some valueID =>
              dsimp only [Option.bind_some]
              cases k.values[valueID]? <;> rfl

theorem Grows.lookup (h : Grows ini ini') (hvalue : ini.lookup keyName valueName = some value) :
    ini'.lookup keyName valueName = some value := by
  have hcheck : ini'.checkCase = ini.checkCase := by
    funext s
    rw [checkCase, checkCase, IniFile.checkCase, IniFile.checkCase, toIniFile, toIniFile, h.case]
  rw [lookup_eq] at hvalue ⊢
  obtain ⟨e, hfind, rfl⟩ := Option.map_eq_some_iff.mp hvalue
  rw [hcheck, (h.values keyName).find?_eq_some hfind]
  rfl

theorem findIdx?_modify {α : Type*} {p : α → Bool} {f : α → α} (hf : ∀ x, p (f x) = p x) (xs : List α) (i : Nat) :
    (xs.modify i f).findIdx? p = xs.findIdx? p := by
  induction xs generalizing i with
  | nil => rw [List.modify_nil]
  | cons x xs ih =>
      cases i with
      | zero => rw [List.modify_zero_cons, List.findIdx?_cons, List.findIdx?_cons, hf]
      | succ i => rw [List.modify_succ_cons, List.findIdx?_cons, List.findIdx?_cons, ih]

theorem grows_addKeyName (ini : IniContents) (k : IniKey) : Grows ini { ini with keys := ini.keys ++ [k] } := by
  refine ⟨rfl, fun keyName => ?_⟩
  rw [getValues, getValues]
  cases hkey : ini.findKey keyName with
  | none => exact List.nil_prefix
  | some keyID =>
      have hlt : keyID < ini.keys.length := (List.findIdx?_eq_some_iff_getElem.mp hkey).1
      have hkey' : findKey { ini with keys := ini.keys ++ [k] } keyName = some keyID := by
        rw [findKey, List.findIdx?_append]
        exact congrArg (Option.or · _) hkey
      rw [hkey']
      dsimp only
      rw [List.getElem?_append_left hlt]

theorem grows_modifyKey (ini : IniContents) (keyID : Nat) {f : IniKey → IniKey} (hname : ∀ k, (f k).name = k.name)
    (hvalues : ∀ k, ini.keys[keyID]? = some k → k.values <+: (f k).values) : Grows ini (ini.modifyKey keyID f) := by
  refine ⟨rfl, fun keyName => ?_⟩
  have hkey : (ini.modifyKey keyID f).findKey keyName = ini.findKey keyName :=
    findIdx?_modify (fun k => by rw [hname]) ini.keys keyID
  rw [getValues, getValues, hkey]
  cases ini.findKey keyName with
  | none => exact List.prefix_rfl
  | some i =>
      dsimp only [modifyKey]
      rw [List.getElem?_modify]
      cases hget : ini.keys[i]? with
      | none => exact List.prefix_rfl
      | some k =>
          by_cases hi : keyID = i
          · subst hi
            simpa using hvalues k hget
          · simp [hi]

/-- A value that was not there is there afterwards. -/
theorem setValue_new (hnone : ini.lookup keyName valueName = none) :
    Grows ini (ini.setValue keyName valueName value true)
      ∧ (ini.setValue keyName valueName value true).lookup keyName valueName = some value := by
  rw [setValue]
  cases hkey : ini.findKey keyName with
  | none =>
      have hnew : (ini.addKeyName keyName).modifyKey ini.keys.length (ini.putValue valueName value true)
          = { ini with keys := ini.keys ++ [⟨keyName, [(valueName, value)], []⟩] } := by
        rw [modifyKey, addKeyName]
        dsimp only
        rw [modify_length]
        rfl
      have hlast := @findKey_last ini.keys ⟨keyName, [(valueName, value)], []⟩ ini.isCaseInsensitive ini.comments hkey
      dsimp only
      rw [if_pos rfl, hnew]
      refine ⟨grows_addKeyName ini _, ?_⟩
      rw [lookup, hlast]
      simp [findValue, checkCase]
  | some keyID =>
      obtain ⟨k, hget⟩ : ∃ k, ini.keys[keyID]? = some k :=
        ⟨_, List.getElem?_eq_getElem (List.findIdx?_eq_some_iff_getElem.mp hkey).1⟩
      have hvalues : ini.getValues keyName = k.values := by
        rw [getValues, hkey]
        dsimp only
        rw [hget]
        rfl
      have hfind : (k.values.find? fun e => ini.checkCase e.1 = ini.checkCase valueName) = none := by
        rwa [lookup_eq, hvalues, Option.map_eq_none_iff] at hnone
      have hput : ini.putValue valueName value true k = { k with values := k.values ++ [(valueName, value)] } := by
        have hvalue : ini.findValue k.values valueName = none := by
          rw [findValue, List.findIdx?_eq_none_iff]
          simpa using hfind
        rw [putValue, hvalue]
        rfl
      have hgrows : Grows ini (ini.modifyKey keyID (ini.putValue valueName value true)) := by
        refine grows_modifyKey ini keyID (name_putValue ini _ _ _) fun k' hget' => ?_
        rw [hget, Option.some.injEq] at hget'
        rw [← hget', hput]
        exact List.prefix_append _ _
      have hafter : (ini.modifyKey keyID (ini.putValue valueName value true)).getValues keyName
          = k.values ++ [(valueName, value)] := by
        have hkey' : (ini.modifyKey keyID (ini.putValue valueName value true)).findKey keyName = some keyID :=
          (findIdx?_modify (fun k => by rw [name_putValue]) ini.keys keyID).trans hkey
        rw [getValues, hkey']
        dsimp only [modifyKey]
        rw [List.getElem?_modify, hget]
        simp [hput]
      dsimp only
      refine ⟨hgrows, ?_⟩
      rw [lookup_eq, hafter, List.find?_append]
      change Option.map _ ((List.find? (fun e => ini.checkCase e.1 = ini.checkCase valueName) k.values).or _) = _
      rw [hfind]
      simp

theorem grows_getValueSet (ini : IniContents) (keyName valueName defValue : AString) :
    Grows ini (ini.getValueSet keyName valueName defValue).1 := by
  rw [getValueSet]
  cases hlookup : ini.lookup keyName valueName with
  | none => exact (setValue_new hlookup).1
  | some text => exact Std.Refl.refl ini

theorem lookup_getValueSet (ini : IniContents) (keyName valueName defValue : AString) :
    (ini.getValueSet keyName valueName defValue).1.lookup keyName valueName
      = some (ini.getValueSet keyName valueName defValue).2 := by
  rw [getValueSet]
  cases hlookup : ini.lookup keyName valueName with
  | none => exact (setValue_new hlookup).2
  | some text => exact hlookup

/-- What has been asked for is found from then on, whatever is added. -/
theorem Grows.found {defValue : AString} (h : Grows (ini.getValueSet keyName valueName defValue).1 ini')
    (defValue' : AString) :
    ini'.keyExists keyName = true ∧ ini'.hasValue keyName valueName = true
      ∧ ini'.getValue keyName valueName defValue' = (ini.getValueSet keyName valueName defValue).2 := by
  have hlookup := h.lookup (lookup_getValueSet ini keyName valueName defValue)
  have hkey : ini'.keyExists keyName = true := by
    rw [keyExists]
    cases hfind : ini'.findKey keyName with
    | none =>
        rw [IniContents.lookup, hfind] at hlookup
        cases hlookup
    | some keyID => rfl
  refine ⟨hkey, ?_, ?_⟩
  · rw [hasValue, hlookup]
    rfl
  · rw [getValue, hlookup]
    rfl

/-- Such settings are read back as they were written once there is anything in them. -/
structure Kept (win32 : Bool) (ini : IniContents) : Prop where
  clean : ini.Clean win32
  case : ini.isCaseInsensitive = true

end IniContents

/-! ### What the questions leave -/

open IniContents

section Turns

variable {win32 : Bool} {ini ini' : IniContents} {args args' : Arguments}

/-- A value that has been asked for is there. -/
theorem lasting_ask {α : Type} (args : Arguments) {keyName valueName defText : AString} (given : Int32 → α)
    (parse : AString → α) (hkey : Unbroken win32 keyName) (hname : CleanName win32 valueName)
    (htext : CleanText win32 defText) :
    Lasting Grows (Kept win32) (args.ask keyName valueName defText given parse) := by
  cases hfind : args.find keyName valueName with
  | some value =>
      have hask : ∀ ini, args.ask keyName valueName defText given parse ini = (given value, ini) := by
        intro ini
        rw [Arguments.ask, hfind]
      exact ⟨fun ini => by rw [hask]; exact Std.Refl.refl ini, fun ini ini' _ => by rw [hask, hask],
        fun ini hini => by rwa [hask]⟩
  | none =>
      have hask : ∀ ini, args.ask keyName valueName defText given parse ini
          = (parse (ini.getValueSet keyName valueName defText).2, (ini.getValueSet keyName valueName defText).1) := by
        intro ini
        rw [Arguments.ask, hfind]
      refine ⟨fun ini => ?_, fun ini ini' hgrows => ?_, fun ini hini => ?_⟩
      · rw [hask]
        exact grows_getValueSet ini keyName valueName defText
      · rw [hask] at hgrows
        have hlookup := hgrows.lookup (lookup_getValueSet ini keyName valueName defText)
        rw [hask, hask ini, getValueSet, hlookup]
      · rw [hask]
        exact ⟨hini.clean.getValueSet hkey hname htext,
          (case_apply ini (.getValueSet keyName valueName defText)).trans hini.case⟩

/-- The command line says nothing about the authentication. -/
theorem lasting_authentication {α : Type} (args : Arguments) {valueName defText : AString} (given : Int32 → α)
    (parse : AString → α)
    (hname : Unbroken true valueName ∧ (∀ c ∈ valueName, isMark c = false) ∧ ∀ c ∈ valueName.head?, isPrint c = true)
    (htext : Unbroken true defText ∧ defText.getLast? ≠ some 13) :
    Lasting Grows (Kept win32) (args.ask (ascii "Authentication") valueName defText given parse) :=
  lasting_ask args given parse (Unbroken.of_win32 (by decide)) ⟨hname.1.of_win32, hname.2.1, hname.2.2⟩
    ⟨htext.1.of_win32, fun _ => htext.2⟩

theorem lasting_shouldAuthenticate (args : Arguments) : Lasting Grows (Kept win32)
    (args.getValueSetB (ascii "Authentication") (ascii "Authenticate") true) :=
  lasting_authentication args _ _ (by decide +kernel) (by decide)

theorem lasting_port (args : Arguments) :
    Lasting Grows (Kept win32) (args.getValueSetI (ascii "Server") (ascii "Port") 6666) :=
  lasting_ask args _ _ (Unbroken.of_win32 (by decide))
    ⟨Unbroken.of_win32 (by decide), by decide +kernel, by decide +kernel⟩ ⟨Unbroken.of_win32 (by decide), fun _ => by decide⟩

theorem lasting_readSettings (args : Arguments) : Lasting Grows (Kept win32) (readSettings args) :=
  (lasting_authentication args _ _ (by decide +kernel) (by decide)).bind fun _ =>
    (lasting_authentication args _ _ (by decide +kernel) (by decide)).bind fun _ =>
      (lasting_authentication args _ _ (by decide +kernel) (by decide)).bind fun _ =>
        (lasting_authentication args _ _ (by decide +kernel) (by decide)).bind fun _ => lasting_pure _

theorem lasting_configure (args : Arguments) : Lasting Grows (Kept win32) (configure args) :=
  (lasting_shouldAuthenticate args).bind fun _ => (lasting_port args).bind fun _ =>
    (lasting_readSettings args).bind fun _ => lasting_pure _

/-- What is the same after another turn. -/
structure Turn.Keeps (t t' : Turn) : Prop where
  grows : Grows t.settings t'.settings
  shouldAuthenticate : t'.config.shouldAuthenticate = t.config.shouldAuthenticate
  authenticator : t'.config.authenticator = t.config.authenticator
  settings : t.args.port = none → t'.settings = t.settings
  port : t.args.port = none → t'.args.port = none → t'.config.port = t.config.port

theorem find_port (args : Arguments) : args.find (ascii "Server") (ascii "Port") = args.port := rfl

theorem ask_port_given {port : Int32} (h : args.port = some port) (ini : IniContents) :
    args.getValueSetI (ascii "Server") (ascii "Port") 6666 ini = (port, ini) := by
  rw [Arguments.getValueSetI, Arguments.ask, find_port, h]
  rfl

theorem ask_port_eq (h : args.port = none) (h' : args'.port = none) :
    args'.getValueSetI (ascii "Server") (ascii "Port") 6666
      = args.getValueSetI (ascii "Server") (ascii "Port") 6666 := by
  funext ini
  rw [Arguments.getValueSetI, Arguments.getValueSetI, Arguments.ask, Arguments.ask, find_port, find_port, h, h']

/-- A turn with what an earlier one has left, and perhaps more. Only a port that was given before and is not given now
makes a difference. -/
theorem turn_keeps (args args' : Arguments) (hgrows : Grows (turn args ini).settings ini')
    (hsame : args.port = none → ini' = (turn args ini).settings) : (turn args ini).Keeps (turn args' ini') := by
  let first : StateM IniContents Bool := args.getValueSetB (ascii "Authentication") (ascii "Authenticate") true
  let second (args : Arguments) : StateM IniContents Int32 := args.getValueSetI (ascii "Server") (ascii "Port") 6666
  have hfirst : Lasting Grows (Kept true) first := lasting_shouldAuthenticate args
  have hsecond (args : Arguments) : Lasting Grows (Kept true) (second args) := lasting_port args
  have hthird : Lasting Grows (Kept true) (readSettings args) := lasting_readSettings args
  -- the command line only has a part in the second question
  have hturn (args' : Arguments) (ini : IniContents) : turn args' ini
      = let s₁ := (first ini).2
        let s₂ := (second args' s₁).2
        ⟨args', (readSettings args s₂).2, ⟨(first ini).1, (second args' s₁).1, (readSettings args s₂).1⟩⟩ := rfl
  -- what is settled in the three states of the earlier turn
  obtain ⟨s₁, hs₁⟩ : ∃ s₁, (first ini).2 = s₁ := ⟨_, rfl⟩
  obtain ⟨s₂, hs₂⟩ : ∃ s₂, (second args s₁).2 = s₂ := ⟨_, rfl⟩
  obtain ⟨s₃, hs₃⟩ : ∃ s₃, (readSettings args s₂).2 = s₃ := ⟨_, rfl⟩
  have h₁ : LastingAnswer Grows first s₁ (first ini).1 := hs₁ ▸ hfirst.lasting ini
  have h₂ : LastingAnswer Grows (second args) s₂ (second args s₁).1 := hs₂ ▸ (hsecond args).lasting s₁
  have h₃ : LastingAnswer Grows (readSettings args) s₃ (readSettings args s₂).1 := hs₃ ▸ hthird.lasting s₂
  have h₁₂ : Grows s₁ s₂ := hs₂ ▸ (hsecond args).grows s₁
  have h₂₃ : Grows s₂ s₃ := hs₃ ▸ hthird.grows s₂
  have hbefore : turn args ini = ⟨args, s₃, ⟨(first ini).1, (second args s₁).1, (readSettings args s₂).1⟩⟩ := by
    rw [hturn]
    dsimp only
    rw [hs₁, hs₂, hs₃]
  rw [hbefore] at hgrows hsame ⊢
  -- the later turn comes to the same answers
  have hnew : Grows ini' (second args' ini').2 := (hsecond args').grows ini'
  have hafter : turn args' ini'
      = ⟨args', (second args' ini').2, ⟨(first ini).1, (second args' ini').1, (readSettings args s₂).1⟩⟩ := by
    have hfirst' : first ini' = ((first ini).1, ini') := (h₁.mono h₁₂).mono h₂₃ ini' hgrows
    have hthird' := h₃.mono hgrows _ hnew
    rw [hturn]
    dsimp only
    rw [hfirst', hthird']
  have hport : args.port = none → (second args' ini').2 = ini'
      ∧ (args'.port = none → (second args' ini').1 = (second args s₁).1) := by
    intro hnone
    cases hport' : args'.port with
    | some port =>
        have hgiven : second args' ini' = (port, ini') := ask_port_given hport' ini'
        rw [hgiven]
        exact ⟨rfl, nofun⟩
    | none =>
        have heq : second args' = second args := ask_port_eq hnone hport'
        have hlasting := h₂.mono h₂₃ ini' hgrows
        rw [heq, hlasting]
        exact ⟨rfl, fun _ => rfl⟩
  rw [hafter]
  exact ⟨IsTrans.trans _ _ _ hgrows hnew, rfl, rfl, fun hnone => (hport hnone).1.trans (hsame hnone),
    fun hnone hnone' => (hport hnone).2 hnone'⟩

/-! ### Over all turns -/

theorem kept_load {file : Option AString} (hfile : ∀ text ∈ file, SingleReturns win32 text) :
    Kept win32 (load win32 file) := by
  have hcomment : CleanText win32 (ascii " This is the main server configuration") :=
    ⟨Unbroken.of_win32 (by decide), fun _ => by decide⟩
  have hnew : Kept win32 create := ⟨clean_clear win32 create, rfl⟩
  cases file with
  | none => exact ⟨hnew.clean.addHeaderComment hcomment, rfl⟩
  | some text =>
      have hread : Kept win32 (create.readFile win32 text).1 :=
        ⟨hnew.clean.readFile (hfile text rfl), Reader.readLines_case _ _⟩
      rw [load]
      dsimp only
      split_ifs
      · exact hread
      · exact ⟨hread.clean.addHeaderComment hcomment, hread.case⟩

/-- What has been written is the beginning of the next process. -/
theorem load_saved (h : Kept win32 ini) (hkeys : ini.keys ≠ []) : load win32 (some (ini.writeFile win32)) = ini := by
  have hread := h.clean.readFile_writeFile
  rw [h.case] at hread
  rw [load, create, hread]
  simp [hkeys]

theorem kept_turn (h : Kept win32 ini) (args : Arguments) : Kept win32 (turn args ini).settings :=
  (lasting_configure args).keeps ini h

/-- There is something to be read again: the answer to the last question. -/
theorem turn_keys (args : Arguments) (ini : IniContents) : (turn args ini).settings.keys ≠ [] := by
  obtain ⟨before, hbefore⟩ : ∃ before : IniContents, (turn args ini).settings
      = (before.getValueSet (ascii "Authentication") (ascii "Salt") (ascii "salt")).1 := ⟨_, rfl⟩
  have hlookup := lookup_getValueSet before (ascii "Authentication") (ascii "Salt") (ascii "salt")
  rw [← hbefore] at hlookup
  intro hempty
  rw [lookup, findKey, hempty] at hlookup
  cases hlookup

/-- The command line of the next turn. -/
def Next.commandLine (before : Arguments) : Next → Arguments
  | .restart => before
  | .process args' => args'

/-- A new process begins where the last turn has ended. -/
theorem next_turn (h : Kept win32 ini) (args : Arguments) (next : Next) :
    (turn args ini).next win32 next = turn (next.commandLine args) (turn args ini).settings := by
  cases next with
  | restart => rfl
  | process args' =>
      rw [Turn.next, Turn.file, load_saved (kept_turn h args) (turn_keys args ini)]
      rfl

/-- The turns after one that has left no less than an earlier turn. -/
theorem keeps_turns {t : Turn} (ht : t = turn args ini) (nexts : List Next) (h : Kept win32 ini')
    (hgrows : Grows t.settings ini') (hsame : t.args.port = none → ini' = t.settings) (args' : Arguments) :
    ∀ t' ∈ turns win32 (turn args' ini') nexts, t.Keeps t' := by
  induction nexts generalizing ini' args' with
  | nil =>
      subst ht
      exact List.forall_mem_singleton.mpr (turn_keeps args args' hgrows hsame)
  | cons next nexts ih =>
      have hkeeps : t.Keeps (turn args' ini') := by
        subst ht
        exact turn_keeps args args' hgrows hsame
      rw [turns, next_turn h]
      exact List.forall_mem_cons.mpr ⟨hkeeps, ih (kept_turn h args') hkeeps.grows hkeeps.settings _⟩

theorem pairwise_turns (h : Kept win32 ini) (args : Arguments) (nexts : List Next) :
    (turns win32 (turn args ini) nexts).Pairwise Turn.Keeps := by
  induction nexts generalizing ini args with
  | nil => exact List.pairwise_singleton _ _
  | cons next nexts ih =>
      have hkept := kept_turn h args
      rw [turns, next_turn h]
      exact List.pairwise_cons.mpr
        ⟨keeps_turns rfl nexts hkept (Std.Refl.refl _) (fun _ => rfl) _, ih hkept _⟩

theorem exists_turns (win32 : Bool) (t : Turn) (nexts : List Next) : ∃ rest, turns win32 t nexts = t :: rest := by
  cases nexts with
  | nil => exact ⟨[], rfl⟩
  | cons next nexts => exact ⟨_, rfl⟩

/-- **The configuration stays.** Over any number of turns and processes, with any command lines, nothing that is read
of the first file is lost and the authenticator has what it had. After a turn without a port on the command line the file
is never changed again, and only a port that is given makes another one of it. -/
theorem config_stays {file : Option AString} (hfile : ∀ text ∈ file, SingleReturns win32 text) (args : Arguments)
    (nexts : List Next) :
    (∀ t ∈ turns win32 (turn args (load win32 file)) nexts, ∀ keyName,
        (load win32 file).getValues keyName <+: t.settings.getValues keyName)
      ∧ (turns win32 (turn args (load win32 file)) nexts).Pairwise fun t t' =>
        t'.config.shouldAuthenticate = t.config.shouldAuthenticate
          ∧ t'.config.authenticator = t.config.authenticator
          ∧ (∀ keyName, t.settings.getValues keyName <+: t'.settings.getValues keyName)
          ∧ (t.args.port = none → t'.file win32 = t.file win32
            ∧ (t'.args.port = none → t'.config.port = t.config.port)) := by
  have hkept := kept_load hfile
  have hpair := pairwise_turns hkept args nexts
  refine ⟨fun t ht keyName => ?_, hpair.imp fun {t t'} hkeeps => ?_⟩
  · have hlasting : Lasting Grows (Kept win32) (configure args) := lasting_configure args
    have hfirst : Grows (load win32 file) (turn args (load win32 file)).settings := hlasting.grows (load win32 file)
    obtain ⟨rest, hrest⟩ := exists_turns win32 (turn args (load win32 file)) nexts
    rw [hrest] at hpair ht
    obtain rfl | hlater := List.mem_cons.mp ht
    · exact hfirst.values keyName
    · exact (hfirst.values keyName).trans (((List.pairwise_cons.mp hpair).1 t hlater).grows.values keyName)
  · exact ⟨hkeeps.shouldAuthenticate, hkeeps.authenticator, hkeeps.grows.values,
      fun hport => ⟨congrArg (writeFile win32) (hkeeps.settings hport), hkeeps.port hport⟩⟩

/-- A key is there twice, and the server is started with another port at first. -/
def portFile : AString := ascii "[Server]\nport=7000\n[server]\n"

def portTurns : List Turn :=
  turns true (turn ⟨none, some 8000⟩ (load true (some portFile))) [.restart, .process ⟨none, none⟩, .process ⟨some 10, none⟩]

theorem config_stays_port : portTurns.map (fun t => t.config.port) = [8000, 8000, 7000, 7000]
    ∧ portTurns.Pairwise fun t t' => t'.config.shouldAuthenticate = t.config.shouldAuthenticate
      ∧ t'.config.authenticator = t.config.authenticator
      ∧ (∀ keyName, t.settings.getValues keyName <+: t'.settings.getValues keyName)
      ∧ (t.args.port = none → t'.file true = t.file true
        ∧ (t'.args.port = none → t'.config.port = t.config.port)) := by
  have hfile : ∀ text ∈ some portFile, SingleReturns true text := by
    intro text htext
    rw [Option.mem_some_iff] at htext
    subst htext
    intro _
    decide +kernel
  exact ⟨by decide +kernel, (config_stays hfile ⟨none, some 8000⟩ _).2⟩

end Turns

end Licode.Server
