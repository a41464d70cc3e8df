import Conform.Json.Quoted

/-! Quoted text reads back.  Every character is escaped as one piece, which stands for
it; no unit that is written belongs to a surrogate pair. -/

namespace Conform.Quoted

variable {character : Char} {rest : List Char}

/-- The characters that an escape makes of a text, without the quotes. -/
def inside (text : List Char) : List Char :=
  text.flatMap escape

theorem hexUnit?_digits {unit : Nat} (small : unit < 32) :
    hexUnit? '0' '0' (Nat.digitChar (unit / 16)) (Nat.digitChar (unit % 16)) = some unit := by
  revert unit
  decide

theorem pieces_plain (plain : isPlain character = true) (other : character ≠ '\\') :
    pieces (character :: rest) = (pieces rest).map (Piece.char character :: ·) := by
  rw [pieces]
  · simp [plain]
  all_goals simp_all

theorem pieces_mark {mark stands : Char} (stands_for : unescape? mark = some stands) :
    pieces ('\\' :: mark :: rest) = (pieces rest).map (Piece.char stands :: ·) := by
  rw [pieces]
  · simp [stands_for]
  · rintro first second third fourth others rfl -
    cases stands_for

theorem pieces_unit {unit : Nat} (small : unit < 32) :
    pieces ('\\' :: 'u' :: '0' :: '0' :: Nat.digitChar (unit / 16) :: Nat.digitChar (unit % 16) :: rest) =
      (pieces rest).map (Piece.unit unit :: ·) := by
  rw [pieces]
  simp [hexUnit?_digits small]

theorem pieces_escape (character : Char) (rest : List Char) :
    ∃ found, pieces (escape character ++ rest) = (pieces rest).map (found :: ·) ∧
      (found = .char character ∨ found = .unit character.toNat ∧ character.toNat < 32) := by
  unfold escape
  -- the characters with a letter of their own
  iterate 7
    split
    next same => exact ⟨_, pieces_mark rfl, .inl (by rw [same])⟩
  split
  next other _ _ _ _ _ plain => exact ⟨_, pieces_plain plain other, .inl rfl⟩
  next control =>
    have small : character.toNat < 32 := by simpa [isPlain] using control
    exact ⟨_, pieces_unit small, .inr ⟨rfl, small⟩⟩

theorem join_unit {unit : Nat} {rest : List Piece} (small : unit < 32) :
    join (.unit unit :: rest) = (join rest).map (Char.ofNat unit :: ·) := by
  have high : isHighSurrogate unit = false := by simp [isHighSurrogate]; omega
  have low : isLowSurrogate unit = false := by simp [isLowSurrogate]; omega
  cases rest with
  | nil => simp [join, high, low]
  | cons next others => cases next <;> simp [join, high, low]

/-- The text between quotes denotes the text. -/
theorem read_inside (text : List Char) : read (inside text) = some (some (String.ofList text)) := by
  have joined : ∃ found, pieces (inside text) = some found ∧ join found = some text := by
    induction text with
    | nil => exact ⟨[], rfl, rfl⟩
    | cons character rest ih =>
        obtain ⟨found, written, joins⟩ := ih
        obtain ⟨first, begins, stands⟩ := pieces_escape character (inside rest)
        refine ⟨first :: found, ?_, ?_⟩
        · rw [inside, List.flatMap_cons, ← inside, begins, written, Option.map_some]
        · rcases stands with rfl | ⟨rfl, small⟩
          · simp [join, joins]
          · simp [join_unit small, joins, Char.ofNat_toNat]
  obtain ⟨found, written, joins⟩ := joined
  simp [read, written, joins]

end Conform.Quoted
