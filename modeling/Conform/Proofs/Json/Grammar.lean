import Conform.Json.Parser
import Conform.Proofs.Json.Finite
import Conform.Proofs.Json.Tokens

/-! Printed documents read back.  The tokens of a document are taken for the document,
whatever containers are open around it. -/

namespace Conform.Json

variable {json : Json} {frames : List Frame} {progress middle after : Progress}
  {first second : List Token}

/-- The tokens lead from one point of the reading to another. -/
def Reaches (progress : Progress) (tokens : List Token) (after : Progress) : Prop :=
  tokens.foldlM advance progress = some after

theorem Reaches.append (begun : Reaches progress first middle) (rest : Reaches middle second after) :
    Reaches progress (first ++ second) after := by
  unfold Reaches at *
  rw [List.foldlM_append, begun]
  exact rest

theorem Reaches.cons {token : Token} {tokens : List Token} (steps : advance progress token = some middle)
    (rest : Reaches middle tokens after) : Reaches progress (token :: tokens) after := by
  unfold Reaches at *
  rw [List.foldlM_cons, steps]
  exact rest

theorem reaches_end {token : Token} (steps : advance progress token = some after) :
    Reaches progress [token] after :=
  Reaches.cons steps rfl

/-- The first item of an array is read like any other. -/
theorem Reaches.first_item (reaches : Reaches ⟨.value, .array [] :: frames⟩ json.tokens after) :
    Reaches ⟨.firstItem, frames⟩ json.tokens after := by
  cases json with
  | array items => cases items <;> exact reaches
  | object members =>
      cases members with
      | nil => exact reaches
      | cons member members => exact reaches
  | _ => exact reaches

theorem reaches_items {items done : List Json}
    (each : ∀ item ∈ items, ∀ frames, Reaches ⟨.value, frames⟩ item.tokens (deliver item frames)) :
    Reaches ⟨.afterItem done, frames⟩ (itemTokens items) ⟨.afterItem (items.reverse ++ done), frames⟩ := by
  induction items generalizing done with
  | nil => rfl
  | cons item items ih =>
      rw [List.forall_mem_cons] at each
      rw [List.reverse_cons, List.append_assoc]
      exact .cons rfl ((each.1 (.array done :: frames)).append (ih each.2))

theorem reaches_members {members : List (String × Json)} {done : List (Option String × Json)}
    (each : ∀ member ∈ members, ∀ frames,
      Reaches ⟨.value, frames⟩ member.2.tokens (deliver member.2 frames)) :
    Reaches ⟨.afterMember done, frames⟩ (memberTokens members)
      ⟨.afterMember ((members.map fun (key, item) => (some key, item)).reverse ++ done), frames⟩ := by
  induction members generalizing done with
  | nil => rfl
  | cons member members ih =>
      obtain ⟨key, item⟩ := member
      rw [List.forall_mem_cons] at each
      rw [List.map_cons, List.reverse_cons, List.append_assoc]
      exact .cons rfl (.cons rfl (.cons rfl
        ((each.1 (.object done (some key) :: frames)).append (ih each.2))))

theorem ofMembers_named (members : List (String × Json)) :
    ofMembers (members.map fun (key, item) => (some key, item)) = .object members := by
  rw [ofMembers, mapM_written]
  exact fun member _ => rfl

/-- A document is read from its tokens. -/
theorem reaches_tokens (printable : json.Printable) (frames : List Frame) :
    Reaches ⟨.value, frames⟩ json.tokens (deliver json frames) := by
  induction printable generalizing frames with
  | null | bool | string => rfl
  | number _ => rfl
  | @array items _ ih =>
      cases items with
      | nil => rfl
      | cons item items =>
          rw [List.forall_mem_cons] at ih
          have closes : Reaches ⟨.afterItem (items.reverse ++ [item]), frames⟩ [.closeBracket]
              (deliver (.array (item :: items)) frames) := by
            apply reaches_end
            simp [advance]
          exact .cons rfl ((ih.1 (.array [] :: frames)).first_item.append
            ((reaches_items ih.2).append closes))
  | @object members _ ih =>
      cases members with
      | nil => rfl
      | cons member members =>
          obtain ⟨key, item⟩ := member
          rw [List.forall_mem_cons] at ih
          have closes : Reaches ⟨.afterMember ((members.map fun (key, item) => (some key, item)).reverse
              ++ [(some key, item)]), frames⟩ [.closeBrace]
              (deliver (.object ((key, item) :: members)) frames) := by
            apply reaches_end
            simp [advance, ← ofMembers_named]
          exact .cons rfl (.cons rfl (.cons rfl
            ((ih.1 (.object [] (some key) :: frames)).append ((reaches_members ih.2).append closes))))

theorem areReadableItems_of {items : List Json} (each : ∀ item ∈ items, item.isReadable = true) :
    areReadableItems items = true := by
  induction items with
  | nil => rfl
  | cons item items ih =>
      rw [List.forall_mem_cons] at each
      simp [areReadableItems, each.1, ih each.2]

theorem areReadableMembers_of {members : List (String × Json)}
    (each : ∀ member ∈ members, member.2.isReadable = true) : areReadableMembers members = true := by
  induction members with
  | nil => rfl
  | cons member members ih =>
      rw [List.forall_mem_cons] at each
      simp [areReadableMembers, each.1, ih each.2]

theorem Printable.isReadable (printable : json.Printable) : json.isReadable = true := by
  induction printable with
  | array _ ih => exact areReadableItems_of ih
  | object _ ih => exact areReadableMembers_of ih
  | _ => rfl

/-- Printed text is read by its grammar as the document, on one line or indented. -/
theorem skim_write (printable : json.Printable) (indent : Option Nat) :
    skim (String.ofList (write indent json [])) = some json := by
  have reaches : Reaches ⟨.value, []⟩ json.tokens ⟨.complete json, []⟩ :=
    reaches_tokens printable []
  have read : ofTokens json.tokens = some json := by
    rw [Reaches] at reaches
    simp [ofTokens, reaches]
  rw [skim, String.toList_ofList, tokens_write printable, Option.bind_some, read]

/-- A printed document reads back, if it is not nested too deeply. -/
theorem parse_pretty (printable : json.Printable) (nested : json.depth ≤ maxDepth) :
    parse json.pretty = some json := by
  have skims : skim json.pretty = some json := skim_write printable (some 0)
  simp [parse, skims, printable.isReadable, nested]

end Conform.Json
