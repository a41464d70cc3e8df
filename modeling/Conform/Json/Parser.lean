import Conform.Json.Basic
import Conform.Json.Token

/-!
From tokens to a document.

The open containers form a stack, and each token either extends the innermost
one or opens or closes one. `skim` accepts whatever follows the grammar;
`parse` also wants every part to denote something and the nesting bounded.
-/

namespace Conform.Json

/-- A container around the value that is being read, its parts last one
first. -/
inductive Frame where
  | array (items : List Json)
  | object (members : List (Option String × Json)) (key : Option String)
deriving Repr

/-- What has just been read, and so what may follow. -/
inductive Phase where
  | value
  | firstItem
  | afterItem (items : List Json)
  | firstKey
  | key (members : List (Option String × Json))
  | colon (members : List (Option String × Json)) (key : Option String)
  | afterMember (members : List (Option String × Json))
  | complete (json : Json)
deriving Repr

structure Progress where
  phase : Phase
  frames : List Frame
deriving Repr

/-- Hands a finished value to the innermost open container. -/
def deliver (json : Json) : List Frame → Progress
  | [] => ⟨.complete json, []⟩
  | .array items :: outer => ⟨.afterItem (json :: items), outer⟩
  | .object members key :: outer => ⟨.afterMember ((key, json) :: members), outer⟩

/-- The token that begins a value. -/
def beginValue (frames : List Frame) : Token → Option Progress
  | .openBracket => some ⟨.firstItem, frames⟩
  | .openBrace => some ⟨.firstKey, frames⟩
  | .null => some (deliver .null frames)
  | .bool value => some (deliver (.bool value) frames)
  | .number (some value) => some (deliver (.number value) frames)
  | .string (some value) => some (deliver (.string value) frames)
  | .number none => some (deliver .unreadable frames)
  | .string none => some (deliver .unreadable frames)
  | _ => none

def advance (progress : Progress) (token : Token) : Option Progress :=
  match progress.phase, token with
  | .value, token => beginValue progress.frames token
  | .firstItem, .closeBracket => some (deliver (.array []) progress.frames)
  | .firstItem, token => beginValue (.array [] :: progress.frames) token
  | .afterItem items, .comma => some ⟨.value, .array items :: progress.frames⟩
  | .afterItem items, .closeBracket => some (deliver (.array items.reverse) progress.frames)
  | .firstKey, .closeBrace => some (deliver (.object []) progress.frames)
  | .firstKey, .string key => some ⟨.colon [] key, progress.frames⟩
  | .key members, .string key => some ⟨.colon members key, progress.frames⟩
  | .colon members key, .colon => some ⟨.value, .object members key :: progress.frames⟩
  | .afterMember members, .comma => some ⟨.key members, progress.frames⟩
  | .afterMember members, .closeBrace =>
      some (deliver (ofMembers members.reverse) progress.frames)
  | _, _ => none

def ofTokens (tokens : List Token) : Option Json :=
  match tokens.foldlM advance ⟨.value, []⟩ with
  | some ⟨.complete json, _⟩ => some json
  | _ => none

/-- Reads text by its grammar alone. -/
def skim (text : String) : Option Json :=
  (Token.tokens text.toList).bind ofTokens

/-- Reads text whose parts all denote something and nest within `maxDepth`. -/
def parse (text : String) : Option Json :=
  (skim text).filter fun json => json.isReadable && decide (json.depth ≤ maxDepth)

end Conform.Json
