import Conform.Json.Printer
import Conform.Proofs.Json.Number
import Conform.Proofs.Json.Quoted

/-! The tokens of printed text.  A printed document consists of its tokens, whatever
the indentation.  A number or a word ends only where another character follows, and
what the printer writes after a value is never a part of one. -/

namespace Conform

namespace Json

/-- A document that has text: every part denotes something, and every number reads
back. -/
inductive Printable : Json → Prop
  | null : Printable .null
  | bool (value : Bool) : Printable (.bool value)
  | number {value : JsonNumber} (reads : JsonNumber.read value.text = some (some value)) :
      Printable (.number value)
  | string (value : String) : Printable (.string value)
  | array {items : List Json} (each : ∀ item ∈ items, Printable item) : Printable (.array items)
  | object {members : List (String × Json)} (each : ∀ member ∈ members, Printable member.2) :
      Printable (.object members)

mutual

def tokens : Json → List Token
  | .null | .unreadable => [.null]
  | .bool value => [.bool value]
  | .number value => [.number (some value)]
  | .string value => [.string (some value)]
  | .array [] => [.openBracket, .closeBracket]
  | .array (item :: items) =>
      .openBracket :: (tokens item ++ (itemTokens items ++ [.closeBracket]))
  | .object [] => [.openBrace, .closeBrace]
  | .object ((key, item) :: members) =>
      .openBrace :: .string (some key) :: .colon ::
        (tokens item ++ (memberTokens members ++ [.closeBrace]))
termination_by structural json => json

/-- The items after the first. -/
def itemTokens : List Json → List Token
  | [] => []
  | item :: items => .comma :: (tokens item ++ itemTokens items)
termination_by structural items => items

/-- The members after the first. -/
def memberTokens : List (String × Json) → List Token
  | [] => []
  | (key, item) :: members =>
      .comma :: .string (some key) :: .colon :: (tokens item ++ memberTokens members)
termination_by structural members => members

end

end Json

namespace Token

variable {text middle tail : List Char} {found more : List Token} {character : Char}
  {pending : Pending}

/-- The text consists of the tokens, and then of the tail. -/
def Lexes (text tail : List Char) (found : List Token) : Prop :=
  scan .nothing text = (scan .nothing tail).map (found ++ ·)

theorem Lexes.append (first : Lexes text middle found) (second : Lexes middle tail more) :
    Lexes text tail (found ++ more) := by
  unfold Lexes at *
  rw [first, second, Option.map_map]
  simp [Function.comp_def]

theorem lexes_start {token : Token} (starts : start character = some ([token], .nothing)) :
    Lexes (character :: tail) tail [token] := by
  simp [Lexes, scan, step, starts]

theorem lexes_blank (blank : isBlank character = true) : Lexes (character :: tail) tail [] := by
  simp [Lexes, scan, step, start, blank]

theorem lexes_blanks (count : Nat) : Lexes (List.replicate count ' ' ++ tail) tail [] := by
  induction count with
  | zero => simp [Lexes]
  | succ count ih => exact (lexes_blank rfl).append ih

theorem lexes_lineBreak (indent : Option Nat) : Lexes (Json.lineBreak indent tail) tail [] := by
  cases indent with
  | none => simp [Lexes, Json.lineBreak]
  | some level => exact (lexes_blank rfl).append (lexes_blanks (2 * level))

theorem lexes_separator (indent : Option Nat) :
    Lexes (Json.separator indent tail) tail [.colon] := by
  cases indent with
  | none => exact lexes_start rfl
  | some level => exact (lexes_start rfl : Lexes _ _ [.colon]).append (lexes_blank rfl)

theorem scan_quoted {characters : List Char} (inner : character ≠ '"') (other : character ≠ '\\') :
    scan (.quoted characters false) (character :: tail) =
      scan (.quoted (character :: characters) false) tail := by
  simp [scan, step, inner, beq_false_of_ne other]

theorem scan_escaped {characters : List Char} :
    scan (.quoted characters false) ('\\' :: character :: tail) =
      scan (.quoted (character :: '\\' :: characters) false) tail := by
  simp [scan, step]

theorem scan_escape (characters : List Char) (character : Char) :
    scan (.quoted characters false) (Quoted.escape character ++ tail) =
      scan (.quoted ((Quoted.escape character).reverse ++ characters) false) tail := by
  have digits (unit : Nat) (small : unit < 32) :
      Nat.digitChar (unit / 16) ≠ '"' ∧ Nat.digitChar (unit / 16) ≠ '\\' ∧
        Nat.digitChar (unit % 16) ≠ '"' ∧ Nat.digitChar (unit % 16) ≠ '\\' := by
    revert unit
    decide
  unfold Quoted.escape
  split
  next => exact scan_escaped
  split
  next => exact scan_escaped
  next inner other =>
    iterate 5
      split
      next => exact scan_escaped
    split
    next => exact scan_quoted inner other
    next control =>
      obtain ⟨inner, other, inner', other'⟩ :=
        digits character.toNat (by simpa [Quoted.isPlain] using control)
      refine scan_escaped.trans ((scan_quoted ?_ ?_).trans ((scan_quoted ?_ ?_).trans
        ((scan_quoted inner other).trans (scan_quoted inner' other')))) <;> decide

theorem scan_inside (characters text : List Char) :
    scan (.quoted characters false) (Quoted.inside text ++ tail) =
      scan (.quoted ((Quoted.inside text).reverse ++ characters) false) tail := by
  induction text generalizing characters with
  | nil => rfl
  | cons character rest ih =>
      simp only [Quoted.inside, List.flatMap_cons, List.append_assoc, List.reverse_append] at ih ⊢
      rw [scan_escape, ih]

theorem write_eq (text : List Char) :
    Quoted.write text tail = '"' :: (Quoted.inside text ++ '"' :: tail) := by
  unfold Quoted.write
  congr 1
  induction text with
  | nil => rfl
  | cons character rest ih =>
      rw [List.foldr_cons, ih, Quoted.inside, Quoted.inside, List.flatMap_cons, List.append_assoc]

theorem lexes_quoted (value : String) :
    Lexes (Quoted.write value.toList tail) tail [.string (some value)] := by
  rw [Lexes, write_eq]
  change (scan (.quoted [] false) _).map _ = _
  rw [scan_inside]
  simp [scan, step, Quoted.read_inside, Function.comp_def]

/-- What follows belongs to no word or number. -/
def Stops (tail : List Char) : Prop :=
  ∀ character ∈ tail.head?, isNumeric character = false ∧ isWord character = false

theorem stops_lineBreak (indent : Option Nat) (stops : Stops tail) :
    Stops (Json.lineBreak indent tail) := by
  cases indent with
  | none => exact stops
  | some level => simp [Stops, Json.lineBreak]; decide

theorem scan_pending {ended : List Token} (finishes : finish pending = some ended)
    (ends : ∀ character ∈ tail.head?, step pending character = restart pending character) :
    scan pending tail = (scan .nothing tail).map (ended ++ ·) := by
  cases tail with
  | nil =>
      rw [scan, finishes]
      simp [scan, finish]
  | cons character rest =>
      rw [scan, ends character rfl, restart, finishes]
      rw [scan, step]
      cases start character with
      | none => rfl
      | some begun => simp [Function.comp_def]

theorem scan_word (characters letters : List Char)
    (alphabetic : ∀ letter ∈ letters, isWord letter = true) :
    scan (.word characters) (letters ++ tail) = scan (.word (letters.reverse ++ characters)) tail := by
  induction letters generalizing characters with
  | nil => rfl
  | cons letter rest ih =>
      rw [List.forall_mem_cons] at alphabetic
      simp [scan, step, alphabetic.1, ih _ alphabetic.2]

theorem lexes_word {first : Char} {rest : List Char} {token : Token} (stops : Stops tail)
    (starts : start first = some ([], .word [first])) (alphabetic : rest.all isWord = true)
    (denotes : ofWord (first :: rest) = some token) :
    Lexes (first :: rest ++ tail) tail [token] := by
  simp only [Lexes, List.cons_append, scan, step, starts, List.nil_append]
  rw [scan_word _ _ (List.all_eq_true.mp alphabetic), Option.map_id']
  have finishes : finish (.word (rest.reverse ++ [first])) = some [token] := by
    simp [finish, denotes]
  refine scan_pending finishes fun character head => ?_
  simp [step, (stops character head).2]

theorem scan_number (characters digits : List Char)
    (numeric : ∀ character ∈ digits, isNumeric character = true) :
    scan (.number characters) (digits ++ tail) = scan (.number (digits.reverse ++ characters)) tail := by
  induction digits generalizing characters with
  | nil => rfl
  | cons digit rest ih =>
      rw [List.forall_mem_cons] at numeric
      simp [scan, step, numeric.1, ih _ numeric.2]

theorem lexes_number {value : JsonNumber} (stops : Stops tail)
    (reads : JsonNumber.read value.text = some (some value)) :
    Lexes (value.text ++ tail) tail [.number (some value)] := by
  obtain ⟨first, rest, written, begins, numeric⟩ := JsonNumber.read_numeric reads
  have starts : start first = some ([], .number [first]) := by
    have visible : isBlank first = false ∧ first ≠ '"' := by
      constructor
      · by_contra blank
        simp only [isBlank, Bool.not_eq_false, Bool.or_eq_true, beq_iff_eq] at blank
        rcases blank with ((rfl | rfl) | rfl) | rfl <;> exact absurd begins (by decide)
      · rintro rfl
        exact absurd begins (by decide)
    simp [start, visible, begins]
  rw [written] at reads ⊢
  simp only [Lexes, List.cons_append, scan, step, starts, List.nil_append]
  rw [scan_number _ _ numeric, Option.map_id']
  have finishes : finish (.number (rest.reverse ++ [first])) = some [.number (some value)] := by
    simp [finish, reads]
  refine scan_pending finishes fun character head => ?_
  simp [step, (stops character head).1]

end Token

namespace Json

open Token

variable {json : Json} {tail : List Char}

/-- Items after the first, each of which consists of its tokens. -/
theorem lexes_items {items : List Json} {indent : Option Nat} (stops : Stops tail)
    (each : ∀ item ∈ items, ∀ tail, Stops tail → Lexes (write indent item tail) tail item.tokens) :
    Stops (writeItems indent items tail) ∧
      Lexes (writeItems indent items tail) tail (itemTokens items) := by
  induction items with
  | nil => exact ⟨stops, by simp [Lexes, writeItems, itemTokens]⟩
  | cons item items ih =>
      rw [List.forall_mem_cons] at each
      obtain ⟨ends, lexes⟩ := ih each.2
      refine ⟨by simp [Stops, writeItems]; decide, ?_⟩
      have comma : Lexes (',' :: lineBreak indent (write indent item (writeItems indent items tail)))
          _ [.comma] := lexes_start rfl
      exact comma.append ((lexes_lineBreak indent).append ((each.1 _ ends).append lexes))

theorem lexes_members {members : List (String × Json)} {indent : Option Nat} (stops : Stops tail)
    (each : ∀ member ∈ members, ∀ tail, Stops tail →
      Lexes (write indent member.2 tail) tail member.2.tokens) :
    Stops (writeMembers indent members tail) ∧
      Lexes (writeMembers indent members tail) tail (memberTokens members) := by
  induction members with
  | nil => exact ⟨stops, by simp [Lexes, writeMembers, memberTokens]⟩
  | cons member members ih =>
      obtain ⟨key, item⟩ := member
      rw [List.forall_mem_cons] at each
      obtain ⟨ends, lexes⟩ := ih each.2
      refine ⟨by simp [Stops, writeMembers]; decide, ?_⟩
      have comma : Lexes (',' :: lineBreak indent (Quoted.write key.toList (separator indent
          (write indent item (writeMembers indent members tail))))) _ [.comma] := lexes_start rfl
      exact comma.append ((lexes_lineBreak indent).append ((lexes_quoted key).append
        ((lexes_separator indent).append ((each.1 _ ends).append lexes))))

/-- A printed document consists of its tokens. -/
theorem lexes_write (printable : json.Printable) (indent : Option Nat) (stops : Stops tail) :
    Lexes (write indent json tail) tail json.tokens := by
  induction printable generalizing indent tail with
  | null =>
      have lexes : Lexes ('n' :: ['u', 'l', 'l'] ++ tail) tail [.null] :=
        lexes_word stops rfl rfl rfl
      exact lexes
  | bool value =>
      cases value with
      | true =>
          have lexes : Lexes ('t' :: ['r', 'u', 'e'] ++ tail) tail [.bool true] :=
            lexes_word stops rfl rfl rfl
          exact lexes
      | false =>
          have lexes : Lexes ('f' :: ['a', 'l', 's', 'e'] ++ tail) tail [.bool false] :=
            lexes_word stops rfl rfl rfl
          exact lexes
  | number reads => exact lexes_number stops reads
  | string value => exact lexes_quoted value
  | @array items each ih =>
      cases items with
      | nil => exact (lexes_start rfl : Lexes _ _ [.openBracket]).append (lexes_start rfl)
      | cons item items =>
          rw [List.forall_mem_cons] at ih
          have closing : Stops (']' :: tail) := by simp [Stops]; decide
          obtain ⟨ends, lexes⟩ := lexes_items (stops_lineBreak indent closing)
            fun item listed tail stops => ih.2 item listed (indent.map (· + 1)) stops
          have closed : Lexes (lineBreak indent (']' :: tail)) tail [.closeBracket] :=
            (lexes_lineBreak indent).append (lexes_start rfl)
          have opened : Lexes ('[' :: lineBreak (indent.map (· + 1)) (write (indent.map (· + 1)) item
              (writeItems (indent.map (· + 1)) items (lineBreak indent (']' :: tail))))) _
              [.openBracket] := lexes_start rfl
          exact opened.append ((lexes_lineBreak _).append ((ih.1 _ ends).append (lexes.append closed)))
  | @object members each ih =>
      cases members with
      | nil => exact (lexes_start rfl : Lexes _ _ [.openBrace]).append (lexes_start rfl)
      | cons member members =>
          obtain ⟨key, item⟩ := member
          rw [List.forall_mem_cons] at ih
          have closing : Stops ('}' :: tail) := by simp [Stops]; decide
          obtain ⟨ends, lexes⟩ := lexes_members (stops_lineBreak indent closing)
            fun member listed tail stops => ih.2 member listed (indent.map (· + 1)) stops
          have closed : Lexes (lineBreak indent ('}' :: tail)) tail [.closeBrace] :=
            (lexes_lineBreak indent).append (lexes_start rfl)
          have opened : Lexes ('{' :: lineBreak (indent.map (· + 1)) (Quoted.write key.toList
              (separator (indent.map (· + 1)) (write (indent.map (· + 1)) item
                (writeMembers (indent.map (· + 1)) members (lineBreak indent ('}' :: tail))))))) _
              [.openBrace] := lexes_start rfl
          exact opened.append ((lexes_lineBreak _).append ((lexes_quoted key).append
            ((lexes_separator _).append ((ih.1 _ ends).append (lexes.append closed)))))

theorem tokens_write (printable : json.Printable) (indent : Option Nat) :
    Token.tokens (write indent json []) = some json.tokens := by
  have lexes : Lexes (write indent json []) [] json.tokens :=
    lexes_write printable indent (by simp [Stops])
  simpa [Lexes, Token.tokens, scan, finish] using lexes

end Json

end Conform
