import Licode.Media.StringUtil
import Licode.Server.Settings

/-!
# The settings file

`cIniFile` reads its file line by line: a section opens a key, a line with an equals sign is a value of the last key
that was opened, and comments belong to that key, or to the file before the first one. Names are looked up without
regard to case, the first key of a name is the one that gets the values, and a value may be there more than once.

The text of a file is what it is behind the translation of line ends by the runtime.
-/

namespace Licode.Server

open Media

/-- A key: the name in `names`, and the element of `keys` with its two vectors as pairs. -/
structure IniKey where
  name : AString
  values : List Entry
  comments : List AString
  deriving DecidableEq

/-- `cIniFile` with its comments. -/
structure IniContents where
  isCaseInsensitive : Bool
  keys : List IniKey
  comments : List AString
  deriving DecidableEq

namespace IniContents

def create : IniContents := ⟨true, [], []⟩

/-- Without the comments it is what the repositories above it see. -/
def toIniFile (ini : IniContents) : IniFile := ⟨ini.isCaseInsensitive, ini.keys.map fun k => (k.name, k.values)⟩

def checkCase (ini : IniContents) (s : AString) : AString := ini.toIniFile.checkCase s

/-- `noID` is `none`. -/
def findKey (ini : IniContents) (keyName : AString) : Option Nat :=
  ini.keys.findIdx? fun k => ini.checkCase k.name = ini.checkCase keyName

/-- `FindValue`, in the values of a key. -/
def findValue (ini : IniContents) (values : List Entry) (valueName : AString) : Option Nat :=
  values.findIdx? fun e => ini.checkCase e.1 = ini.checkCase valueName

/-- What a call does to the key with this index. -/
def modifyKey (ini : IniContents) (keyID : Nat) (f : IniKey → IniKey) : IniContents :=
  { ini with keys := ini.keys.modify keyID f }

def addKeyName (ini : IniContents) (keyName : AString) : IniContents :=
  { ini with keys := ini.keys ++ [⟨keyName, [], []⟩] }

def keyExists (ini : IniContents) (keyName : AString) : Bool := (ini.findKey keyName).isSome

def getValues (ini : IniContents) (keyName : AString) : List Entry :=
  match ini.findKey keyName with
  | none => []
  | some keyID => (ini.keys[keyID]?.map IniKey.values).getD []

def addValue (ini : IniContents) (keyName valueName value : AString) : IniContents :=
  let push (k : IniKey) : IniKey := { k with values := k.values ++ [(valueName, value)] }
  match ini.findKey keyName with
  | none => (ini.addKeyName keyName).modifyKey ini.keys.length push
  | some keyID => ini.modifyKey keyID push

/-- The value in a key is replaced, or put behind the others. -/
def putValue (ini : IniContents) (valueName value : AString) (create : Bool) (k : IniKey) : IniKey :=
  match ini.findValue k.values valueName with
  | none => if create then { k with values := k.values ++ [(valueName, value)] } else k
  | some valueID => { k with values := k.values.modify valueID fun e => (e.1, value) }

def setValue (ini : IniContents) (keyName valueName value : AString) (create : Bool) : IniContents :=
  match ini.findKey keyName with
  | none =>
      if create then (ini.addKeyName keyName).modifyKey ini.keys.length (ini.putValue valueName value create) else ini
  | some keyID => ini.modifyKey keyID (ini.putValue valueName value create)

/-- `FindKey` and `FindValue` together, with the value that they lead to. -/
def lookup (ini : IniContents) (keyName valueName : AString) : Option AString := do
  let keyID ← ini.findKey keyName
  let k ← ini.keys[keyID]?
  let valueID ← ini.findValue k.values valueName
  let e ← k.values[valueID]?
  return e.2

def getValue (ini : IniContents) (keyName valueName defValue : AString) : AString :=
  (ini.lookup keyName valueName).getD defValue

def hasValue (ini : IniContents) (keyName valueName : AString) : Bool := (ini.lookup keyName valueName).isSome

/-- `GetValueSet`, with what it returns. -/
def getValueSet (ini : IniContents) (keyName valueName defValue : AString) : IniContents × AString :=
  match ini.lookup keyName valueName with
  | none => (ini.setValue keyName valueName defValue true, defValue)
  | some value => (ini, value)

def deleteValue (ini : IniContents) (keyName valueName : AString) : IniContents :=
  match ini.findKey keyName with
  | none => ini
  | some keyID => ini.modifyKey keyID fun k =>
      match ini.findValue k.values valueName with
      | none => k
      | some valueID => { k with values := k.values.eraseIdx valueID }

def deleteKey (ini : IniContents) (keyName : AString) : IniContents :=
  match ini.findKey keyName with
  | none => ini
  | some keyID => { ini with keys := ini.keys.eraseIdx keyID }

def clear (ini : IniContents) : IniContents := { ini with keys := [], comments := [] }

def addHeaderComment (ini : IniContents) (comment : AString) : IniContents :=
  { ini with comments := ini.comments ++ [comment] }

def deleteHeaderComment (ini : IniContents) (commentID : Nat) : IniContents :=
  { ini with comments := ini.comments.eraseIdx commentID }

/-- The calls about the comments of a key do nothing where there is no key. -/
def modifyComments (ini : IniContents) (keyName : AString) (f : List AString → List AString) : IniContents :=
  match ini.findKey keyName with
  | none => ini
  | some keyID => ini.modifyKey keyID fun k => { k with comments := f k.comments }

def addKeyComment (ini : IniContents) (keyName comment : AString) : IniContents :=
  ini.modifyComments keyName (· ++ [comment])

def deleteKeyComment (ini : IniContents) (keyName : AString) (commentID : Nat) : IniContents :=
  ini.modifyComments keyName (·.eraseIdx commentID)

def deleteKeyComments (ini : IniContents) (keyName : AString) : IniContents := ini.modifyComments keyName fun _ => []

/-! ### Reading -/

/-- `isprint` in the C locale. -/
def isPrint (c : UInt8) : Bool := 32 ≤ c && c ≤ 126

/-- The characters of `find_first_of(";#[=")`. -/
def isMark (c : UInt8) : Bool := c = 59 || c = 35 || c = 91 || c = 61

def removeBom (line : AString) : AString :=
  if line.take 3 = [0xef, 0xbb, 0xbf] then line.drop 3 else line

/-- Where `ReadFile` is, with the key that was opened last. -/
structure Reader where
  ini : IniContents
  keyName : AString

/-- A line without its line end; `none` where it does not begin with a character that can be printed. -/
def Reader.readText (r : Reader) (line : AString) : Option Reader :=
  match line with
  | [] => some r
  | first :: _ =>
      if isPrint first then
        match line.dropWhile (! isMark ·) with
        | [] => some r
        | mark :: text =>
            if mark = 91 then
              -- up to the last bracket
              if 93 ∈ text then
                let keyName := ((text.reverse.dropWhile (· ≠ 93)).drop 1).reverse
                some ⟨r.ini.addKeyName keyName, keyName⟩
              else some r
            else if mark = 61 then
              some { r with ini := r.ini.addValue r.keyName (line.takeWhile (! isMark ·)) text }
            else if r.ini.keys = [] then some { r with ini := r.ini.addHeaderComment text }
            else some { r with ini := r.ini.addKeyComment r.keyName text }
      else none

/-- One carriage return goes with the line end. -/
def chop (line : AString) : AString := if line.getLast? = some 13 then line.dropLast else line

/-- The loop of `ReadFile`, and whether the file has anything in it. -/
def Reader.readLines : Reader → List AString → IniContents × Bool
  | r, [] => (r.ini, !(r.ini.keys = [] ∧ r.ini.comments = []))
  | r, line :: rest =>
      match r.readText (chop line) with
      | none => (r.ini, false)
      | some r => r.readLines rest

/-- What the stream of a file gives. In the text mode of Windows it ends at the byte 0x1A. -/
def stream (win32 : Bool) (text : AString) : AString := if win32 then text.takeWhile (· ≠ 0x1A) else text

/-- `ReadFile` on a file that can be opened. -/
def readFile (win32 : Bool) (ini : IniContents) (text : AString) : IniContents × Bool :=
  Reader.readLines ⟨ini, []⟩ (match getlines (stream win32 text) with
    | [] => []
    | first :: rest => removeBom first :: rest)

/-! ### Writing -/

/-- `iniEOL`. -/
def iniEOL (win32 : Bool) : AString := if win32 then [10] else [13, 10]

def commentLine (comment : AString) : AString := 59 :: comment

def valueLine (e : Entry) : AString := e.1 ++ 61 :: e.2

def keyLines (k : IniKey) : List AString :=
  [91 :: (k.name ++ [93])] ++ k.comments.map commentLine ++ k.values.map valueLine ++ [[]]

def fileLines (ini : IniContents) : List AString :=
  ini.comments.map commentLine ++ (if ini.comments = [] then [] else [[]]) ++ ini.keys.flatMap keyLines

def writeFile (win32 : Bool) (ini : IniContents) : AString := ini.fileLines.flatMap (· ++ iniEOL win32)

/-! ### What the repositories see -/

/-- A search for an index and a search for an element come to the same end. -/
theorem find?_of_findIdx? {α : Type*} (p : α → Bool) (xs : List α) :
    xs.find? p = (xs.findIdx? p).bind (xs[·]?) := by
  cases h : xs.findIdx? p with
  | none =>
      rw [List.findIdx?_eq_none_iff] at h
      exact List.find?_eq_none.mpr fun x hx => by simp [h x hx]
  | some i =>
      obtain ⟨hi, hp, hbefore⟩ := List.findIdx?_eq_some_iff_getElem.mp h
      rw [Option.bind_some, List.getElem?_eq_getElem hi, List.find?_eq_some_iff_getElem]
      exact ⟨hp, i, hi, rfl, fun j hj => by simp [hbefore j hj]⟩

theorem getValues_toIniFile (ini : IniContents) (keyName : AString) :
    ini.toIniFile.getValues keyName = ini.getValues keyName := by
  have hfind : ini.toIniFile.findKey keyName
      = (ini.keys.find? fun k => ini.checkCase k.name = ini.checkCase keyName).map fun k => (k.name, k.values) :=
    List.find?_map
  rw [IniFile.getValues, hfind, getValues, findKey, find?_of_findIdx?]
  cases ini.keys.findIdx? fun k => decide (ini.checkCase k.name = ini.checkCase keyName) with
  | none => rfl
  | some keyID =>
      dsimp only [Option.bind_some]
      cases ini.keys[keyID]? <;> rfl

end IniContents

end Licode.Server
