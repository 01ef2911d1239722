import Licode.ByteBufferCodec

/-!
# The values of JSON texts

What a `Json::Value` gives as a member, as a text and as an `int`. The accessors convert between most
types, and throw for the others; so does the reader, for values nested too deeply. Nothing on the way
of a message catches an exception.
-/

namespace Licode.Channel

/-- `Json::Value`. A `double` stands with the text that `valueToString` makes of it; `number` is `none`
for an infinity. -/
inductive JsonValue where
  | null
  | int (value : Int64)
  | uint (value : UInt64)
  | real (number : Option Rat) (text : AString)
  | string (value : AString)
  | boolean (value : Bool)
  | array (values : List JsonValue)
  | object (members : List (AString × JsonValue))

/-- `Reader::parse` throws, or it fails, or it reads a value. -/
inductive Parsed where
  | thrown
  | failed
  | root (value : JsonValue)

namespace JsonValue

/-- `operator[]` takes a null value for an object without members, and gives null for a member that
is not there. -/
def get (key : AString) : JsonValue → Checked JsonValue
  | .null => return .null
  | .object members => return (members.lookup key).getD .null
  | _ => .error .exception

def asString : JsonValue → Checked AString
  | .null => return []
  | .string value => return value
  | .boolean value => return if value then ascii "true" else ascii "false"
  | .int value => return ascii (toString value.toInt)
  | .uint value => return ascii (toString value.toNat)
  | .real _ text => return text
  | .array _ | .object _ => .error .exception

/-- An integer as an `int`. -/
def toInt (value : Int) : Checked Int32 :=
  if -2 ^ 31 ≤ value ∧ value < 2 ^ 31 then return Int32.ofInt value else .error .exception

def asInt : JsonValue → Checked Int32
  | .int value => toInt value.toInt
  | .uint value => toInt value.toNat
  | .real (some number) _ =>
      if -2 ^ 31 ≤ number ∧ number ≤ 2 ^ 31 - 1 then
        return Int32.ofInt (number.num.tdiv number.den)
      else .error .exception
  | .null => return 0
  | .boolean value => return if value then 1 else 0
  | .real none _ | .string _ | .array _ | .object _ => .error .exception

/-! The accessors fail by throwing only. -/

theorem ends_get (key : AString) (value : JsonValue) :
    Ends (· = Fault.exception) (fun _ => True) (value.get key) := by
  cases value <;> trivial

theorem ends_asString (value : JsonValue) :
    Ends (· = Fault.exception) (fun _ => True) value.asString := by
  cases value <;> trivial

theorem ends_asInt (value : JsonValue) : Ends (· = Fault.exception) (fun _ => True) value.asInt := by
  have htoInt : ∀ number, Ends (· = Fault.exception) (fun _ => True) (toInt number) := by
    intro number
    unfold toInt
    split <;> trivial
  cases value with
  | int value => exact htoInt _
  | uint value => exact htoInt _
  | real number text =>
      cases number with
      | none => rfl
      | some number =>
          dsimp only [asInt]
          split_ifs <;> trivial
  | null | boolean => trivial
  | string | array | object => rfl

end JsonValue

end Licode.Channel
