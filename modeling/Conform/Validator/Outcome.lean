import Conform.Schema.Scalar

/-!
Outcomes of validation.

A value that does not match its schema is an expected outcome. A failure names
its cause and, one `within` for every level, the way to the part that failed.
-/

namespace Conform

/-- One step from a value to a part of it, or to a member of an intersection,
which is about the value itself. -/
inductive Segment where
  | field (name : String)
  | index (position : Nat)
  | member (position : Nat)
deriving DecidableEq, Repr

namespace Segment

def text : Segment → String
  | .field name => name
  | .index position => s!"[{position}]"
  | .member position => s!"<Condition{position}>"

end Segment

inductive Failure where
  | wrongType (expected actual : String)
  /-- A number outside its family: a fraction among integers, or a negative
  among unsigned ones. -/
  | wrongScalar (scalar : Scalar) (shown : String)
  | tupleOverlength (length maximum : Nat)
  | notInEnum
  | notTheLiteral
  | missingMember
  | unexpectedField
  | invalidNumberKey
  /-- What each member of a union failed with, in the order of the members. -/
  | noMatchingMember (failures : List Failure)
  | within (segment : Segment) (cause : Failure)
deriving Repr, BEq

namespace Failure

/-- The stable name of a kind of failure. -/
def code : Failure → String
  | .wrongType _ _ => "WRONG_TYPE"
  | .wrongScalar _ _ => "WRONG_SCALAR_TYPE"
  | .tupleOverlength _ _ => "TUPLE_OVERLENGTH"
  | .notInEnum => "INVALID_ENUM_VALUE"
  | .notTheLiteral => "INVALID_LITERAL_VALUE"
  | .missingMember => "MISSING_REQUIRED_MEMBER"
  | .unexpectedField => "UNEXPECTED_FIELD"
  | .invalidNumberKey => "INVALID_NUMBER_KEY"
  | .noMatchingMember _ => "NO_MATCHING_UNION_MEMBER"
  | .within _ _ => "INNER_ERROR"

def message : Failure → String
  | .wrongType expected actual => s!"expected {expected}, actually {actual}"
  | .wrongScalar scalar shown => s!"{shown} is not a valid {scalar.name}"
  | .tupleOverlength length maximum => s!"tuple length {length} exceeds maximum {maximum}"
  | .notInEnum => "value is not a member of the enum"
  | .notTheLiteral => "value does not equal the literal"
  | .missingMember => "missing required member"
  | .unexpectedField => "unexpected field"
  | .invalidNumberKey => "invalid number key"
  | .noMatchingMember _ => "value matches no member of the union"
  | .within segment cause => segment.text ++ ": " ++ cause.message

/-- The way to the part that failed, outermost step first. -/
def path : Failure → List Segment
  | .within segment cause => segment :: cause.path
  | _ => []

/-- The failure of that part. -/
def rootCause : Failure → Failure
  | .within _ cause => cause.rootCause
  | failure => failure

end Failure

inductive Outcome where
  | success
  | failure (failure : Failure)
deriving Repr, BEq

namespace Outcome

def isSuccess : Outcome → Bool
  | .success => true
  | .failure _ => false

end Outcome

end Conform
