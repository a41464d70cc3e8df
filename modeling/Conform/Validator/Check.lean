import Conform.Validator.Structure

/-!
The check of a value against a schema.

Steps that stay on the same value, from a reference to its target or from a
union to a member, use up the steps that the options allow. A step into a part
of the value starts again with all of them, so only the schema can run into the
limit, never the depth of the value.

The fields of all branches of a union or intersection are collected once and
passed on to every branch, through nested unions and intersections.
-/

namespace Conform.Validator

/-- Whether some member accepts; otherwise what each one failed with. -/
def checkAny (checkMember : SchemaId → Run Outcome) :
    List Failure → List SchemaId → Run Outcome
  | failures, [] => return .failure (.noMatchingMember failures.reverse)
  | failures, member :: rest => do
      match ← checkMember member with
      | .success => return .success
      | .failure failure => checkAny checkMember (failure :: failures) rest

/-- Whether all members accept; otherwise the first failure. -/
def checkAll (checkMember : SchemaId → Run Outcome) : Nat → List SchemaId → Run Outcome
  | _, [] => return .success
  | position, member :: rest => do
      match ← checkMember member with
      | .success => checkAll checkMember (position + 1) rest
      | .failure cause => return .failure (.within (.member position) cause)

section

variable (options : Options) (checkPart : Value → SchemaId → Run Outcome) (value : Value)

/-- An interface or combinator. A combinator over a union is checked as the
union it stands for. -/
def checkInterfaceLike (foreign : Option ForeignFields) (checkUnion : SchemaId → Run Outcome)
    (id : SchemaId) : Run Outcome := do
  match ← Resolver.distribute options.maxDepth id with
  | some union => checkUnion union
  | none =>
      let shape ← Resolver.flatten options.maxDepth id
      match value with
      | .object object => checkShape checkPart options object shape foreign
      | _ => return wrongType "Object" value

mutual

/-- The value against a schema, with the given number of steps left. -/
def checkWithin : Nat → SchemaId → Run Outcome
  | 0, _ => Run.fail (.depthLimitExceeded options.maxDepth)
  | steps + 1, id => do
      match ← Run.node id with
      | .boolean => return checkBoolean value
      | .string => return checkString value
      | .any => return .success
      | .nonPrimitive => return checkNonPrimitive value
      | .number scalar => return checkNumber (scalar.getD .double) value
      | .literal literal => return checkLiteral options literal value
      | .enumeration values => return checkEnum values value
      | .array element => checkArray checkPart element value
      | .tuple elements optionalStart => checkTuple checkPart elements optionalStart value
      | .buffer kind => return checkBuffer kind value
      | .reference _ | .indexedAccess _ _ =>
          let target ← Resolver.resolve options.maxDepth id
          checkWithin steps target
      | .union members =>
          let foreign ← Resolver.foreignFields options.maxDepth id
          checkAny (checkMemberWithin steps foreign) [] members
      | .intersection members =>
          let foreign ← Resolver.foreignFields options.maxDepth id
          checkAll (checkMemberWithin steps foreign) 0 members
      | .interface _ _ _ | .mapped _ _ =>
          checkInterfaceLike options checkPart value none (checkWithin steps) id
termination_by structural steps => steps

/-- The value against a member of a union or intersection, with the fields of
its siblings. -/
def checkMemberWithin : Nat → ForeignFields → SchemaId → Run Outcome
  | 0, _, _ => Run.fail (.depthLimitExceeded options.maxDepth)
  | steps + 1, foreign, id => do
      let resolved ← Resolver.resolve options.maxDepth id
      match ← Run.node resolved with
      | .union members => checkAny (checkMemberWithin steps foreign) [] members
      | .intersection members => checkAll (checkMemberWithin steps foreign) 0 members
      | .interface _ _ _ | .mapped _ _ =>
          checkInterfaceLike options checkPart value (some foreign)
            (checkMemberWithin steps foreign) resolved
      | _ => checkWithin steps resolved
termination_by structural steps => steps

end

end

/-- A value of at most `levels` levels against a schema. -/
def checkLevels (options : Options) : Nat → Value → SchemaId → Run Outcome
  | 0, _, _ => Run.fail (.depthLimitExceeded options.maxDepth)
  | levels + 1, value, id =>
      checkWithin options (checkLevels options levels) value options.maxDepth id

/-- A value against a schema. Its height bounds the levels that the check can
step into. -/
def check (options : Options) (value : Value) (id : SchemaId) : Run Outcome :=
  checkLevels options (value.height + 1) value id

end Conform.Validator
