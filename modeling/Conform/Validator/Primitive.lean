import Conform.Number.Text
import Conform.Options
import Conform.Schema.Basic
import Conform.Validator.Outcome
import Conform.Value.Basic

/-!
The rules of the primitive schemas, which look at a value and nothing else.
-/

namespace Conform.Validator

def wrongType (expected : String) (value : Value) : Outcome :=
  .failure (.wrongType expected value.typeName)

def checkBoolean (value : Value) : Outcome :=
  match value with
  | .boolean _ => .success
  | _ => wrongType "boolean" value

def checkString (value : Value) : Outcome :=
  match value with
  | .string _ => .success
  | _ => wrongType "string" value

def checkNonPrimitive (value : Value) : Outcome :=
  match value with
  | .object _ | .buffer _ | .typedArray _ _ => .success
  | _ => wrongType "Object" value

/-- A family of big integers takes big integers only, the others take doubles
only; then the sign and the fraction count. -/
def checkNumber (scalar : Scalar) (value : Value) : Outcome :=
  match value with
  | .number number =>
      if scalar.isBig then wrongType "bigint" value
      else if scalar.isIntegral && !number.isIntegral then
        .failure (.wrongScalar scalar number.plainText)
      else if scalar.isUnsigned && number.isNegative then
        .failure (.wrongScalar scalar number.plainText)
      else .success
  | .bigInt integer =>
      if !scalar.isBig then wrongType "number" value
      else if scalar.isUnsigned && decide (integer < 0) then
        .failure (.wrongScalar scalar (toString integer))
      else .success
  | _ => wrongType (if scalar.isBig then "bigint" else "number") value

/-- Without strict null checks `undefined` and `null` stand for each other. -/
def matchesLiteral (options : Options) : Literal → Value → Bool
  | .undefined, .undefined | .null, .null => true
  | .undefined, .null | .null, .undefined => !options.strictNullChecks
  | .boolean expected, .boolean actual => expected == actual
  | .number expected, .number actual => expected.equal actual
  | .string expected, .string actual => expected == actual
  | _, _ => false

def checkLiteral (options : Options) (literal : Literal) (value : Value) : Outcome :=
  if matchesLiteral options literal value then .success else .failure .notTheLiteral

def isEnumNumber (number : Binary64) : EnumValue → Bool
  | .number expected => expected.equal number
  | .string _ => false

def isEnumString (string : String) : EnumValue → Bool
  | .number _ => false
  | .string expected => expected == string

def checkEnum (values : List EnumValue) (value : Value) : Outcome :=
  match value with
  | .string string =>
      if values.any (isEnumString string) then .success else .failure .notInEnum
  | .number number =>
      if values.any (isEnumNumber number) then .success else .failure .notInEnum
  | _ => wrongType "string | number" value

def checkBuffer (kind : Option TypedArrayKind) (value : Value) : Outcome :=
  match kind, value with
  | none, .buffer _ => .success
  | none, _ => wrongType "ArrayBuffer" value
  | some expected, .typedArray actual _ =>
      if actual = expected then .success else wrongType expected.name value
  | some expected, _ => wrongType expected.name value

end Conform.Validator
