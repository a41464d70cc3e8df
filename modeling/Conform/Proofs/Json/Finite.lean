import Conform.Json.Parser
import Conform.Proofs.Number.Range

/-! The numbers of a document that is read are finite, wherever in the document they
stand. -/

namespace Conform

/-- What a partial reading of a list gives is read from its items. -/
theorem mem_of_mapM {α β : Type} {read : α → Option β} {items : List α} {values : List β}
    (mapped : items.mapM read = some values) : ∀ value ∈ values, ∃ item ∈ items, read item = some value := by
  induction items generalizing values with
  | nil =>
      cases mapped
      simp
  | cons item rest ih =>
      simp only [List.mapM_cons, Option.bind_eq_bind, Option.bind_eq_some_iff, Option.pure_def,
        Option.some.injEq] at mapped
      obtain ⟨first, reads, others, mapped, rfl⟩ := mapped
      rw [List.forall_mem_cons]
      refine ⟨⟨item, List.mem_cons_self .., reads⟩, fun value listed => ?_⟩
      obtain ⟨source, inside, reads⟩ := ih mapped value listed
      exact ⟨source, List.mem_cons_of_mem _ inside, reads⟩

theorem mapM_written {α β : Type} {read : β → Option α} {write : α → β} {values : List α}
    (each : ∀ value ∈ values, read (write value) = some value) :
    (values.map write).mapM read = some values := by
  induction values with
  | nil => rfl
  | cons value rest ih =>
      rw [List.forall_mem_cons] at each
      simp [each.1, ih each.2]

def JsonNumber.Finite (number : JsonNumber) : Prop :=
  number.toBinary64.isFinite = true

namespace Token

variable {pending : Pending} {character : Char} {found : List Token} {next : Pending}

/-- A number among the tokens is finite. -/
def AllFinite (tokens : List Token) : Prop :=
  ∀ number, Token.number (some number) ∈ tokens → number.Finite

theorem AllFinite.append {first second : List Token} (left : AllFinite first) (right : AllFinite second) :
    AllFinite (first ++ second) :=
  fun number listed => (List.mem_append.mp listed).elim (left number) (right number)

theorem AllFinite.nil : AllFinite [] :=
  nofun

theorem finish_finite (finished : finish pending = some found) : AllFinite found := by
  intro number listed
  cases pending with
  | nothing =>
      cases finished
      cases listed
  | quoted => cases finished
  | word characters =>
      obtain ⟨token, word, rfl⟩ := Option.map_eq_some_iff.mp finished
      cases List.mem_singleton.mp listed
      unfold ofWord at word
      split at word <;> cases word
  | number characters =>
      obtain ⟨value, read, rfl⟩ := Option.map_eq_some_iff.mp finished
      cases List.mem_singleton.mp listed
      exact JsonNumber.read_isFinite read

theorem start_finite (started : start character = some (found, next)) : AllFinite found := by
  simp only [start] at started
  split at started
  · cases started
    exact .nil
  · split at started
    · cases started
      exact .nil
    · split at started
      · cases started
        exact .nil
      · split at started
        · cases started
          exact .nil
        · obtain ⟨token, punctuation, same⟩ := Option.map_eq_some_iff.mp started
          cases same
          intro number listed
          cases List.mem_singleton.mp listed
          unfold punctuation? at punctuation
          split at punctuation <;> cases punctuation

theorem restart_finite (restarted : restart pending character = some (found, next)) :
    AllFinite found := by
  unfold restart at restarted
  split at restarted
  next ended started after finished starts =>
    cases restarted
    exact (finish_finite finished).append (start_finite starts)
  · cases restarted

theorem step_finite (steps : step pending character = some (found, next)) : AllFinite found := by
  unfold step at steps
  split at steps
  · exact start_finite steps
  · split at steps
    · cases steps
      exact .nil
    · exact restart_finite steps
  · split at steps
    · cases steps
      exact .nil
    · exact restart_finite steps
  · cases steps
    exact .nil
  · split at steps
    · obtain ⟨value, -, same⟩ := Option.map_eq_some_iff.mp steps
      cases same
      intro number listed
      cases List.mem_singleton.mp listed
    · cases steps
      exact .nil

theorem scan_finite {text : List Char} (scanned : scan pending text = some found) :
    AllFinite found := by
  induction text generalizing pending found with
  | nil => exact finish_finite scanned
  | cons character rest ih =>
      rw [scan] at scanned
      split at scanned
      next now next steps =>
        obtain ⟨later, remaining, rfl⟩ := Option.map_eq_some_iff.mp scanned
        exact (step_finite steps).append (ih remaining)
      · cases scanned

end Token

namespace Json

/-- Every number of the document is finite. -/
inductive Finite : Json → Prop
  | null : Finite .null
  | bool (value : Bool) : Finite (.bool value)
  | number {value : JsonNumber} (finite : value.Finite) : Finite (.number value)
  | string (value : String) : Finite (.string value)
  | array {items : List Json} (each : ∀ item ∈ items, Finite item) : Finite (.array items)
  | object {members : List (String × Json)} (each : ∀ member ∈ members, Finite member.2) :
      Finite (.object members)
  | unreadable : Finite .unreadable

variable {json : Json} {frames : List Frame} {progress after : Progress} {token : Token}

/-- The parts that an open container has so far. -/
def Frame.parts : Frame → List Json
  | .array items => items
  | .object members _ => members.map (·.2)

def Phase.parts : Phase → List Json
  | .afterItem items => items
  | .key members | .colon members _ | .afterMember members => members.map (·.2)
  | .complete json => [json]
  | .value | .firstItem | .firstKey => []

def Frame.AllFinite (frames : List Frame) : Prop :=
  ∀ frame ∈ frames, ∀ part ∈ frame.parts, part.Finite

/-- Every part that has been read is finite. -/
structure Progress.Finite (progress : Progress) : Prop where
  phase : ∀ part ∈ progress.phase.parts, part.Finite
  frames : Frame.AllFinite progress.frames

theorem finite_ofMembers {members : List (Option String × Json)}
    (each : ∀ part ∈ members.map (·.2), part.Finite) : (ofMembers members).Finite := by
  unfold ofMembers
  split
  next named keyed =>
    apply Finite.object
    intro member listed
    obtain ⟨⟨key, part⟩, inside, kept⟩ := mem_of_mapM keyed member listed
    obtain ⟨name, -, rfl⟩ := Option.map_eq_some_iff.mp kept
    exact each part (List.mem_map_of_mem inside)
  · exact .unreadable

theorem deliver_finite (finite : json.Finite) (open_ : Frame.AllFinite frames) :
    (deliver json frames).Finite := by
  cases frames with
  | nil => exact ⟨by simpa [deliver, Phase.parts] using finite, open_⟩
  | cons frame outer =>
      have here := open_ frame (List.mem_cons_self ..)
      have outside : Frame.AllFinite outer := fun frame listed => open_ frame (List.mem_cons_of_mem _ listed)
      cases frame with
      | array items => exact ⟨List.forall_mem_cons.mpr ⟨finite, here⟩, outside⟩
      | object members key => exact ⟨List.forall_mem_cons.mpr ⟨finite, here⟩, outside⟩

theorem beginValue_finite (finite : Token.AllFinite [token]) (open_ : Frame.AllFinite frames)
    (begins : beginValue frames token = some after) : after.Finite := by
  unfold beginValue at begins
  split at begins
  all_goals try cases begins
  · exact ⟨nofun, open_⟩
  · exact ⟨nofun, open_⟩
  · exact deliver_finite .null open_
  · exact deliver_finite (.bool _) open_
  · exact deliver_finite (.number (finite _ (List.mem_singleton_self _))) open_
  · exact deliver_finite (.string _) open_
  · exact deliver_finite .unreadable open_
  · exact deliver_finite .unreadable open_

/-- One token keeps the parts finite. -/
theorem advance_finite (finite : Token.AllFinite [token]) (read : progress.Finite)
    (advances : advance progress token = some after) : after.Finite := by
  obtain ⟨phase, frames⟩ := progress
  obtain ⟨parts, open_⟩ := read
  have none_open : Frame.AllFinite (.array [] :: frames) := List.forall_mem_cons.mpr ⟨nofun, open_⟩
  simp only [advance] at advances
  dsimp only at parts open_
  split at advances
  next => exact beginValue_finite finite open_ advances
  next =>
    cases advances
    exact deliver_finite (.array nofun) open_
  next => exact beginValue_finite finite none_open advances
  next =>
    cases advances
    exact ⟨nofun, List.forall_mem_cons.mpr ⟨parts, open_⟩⟩
  next =>
    cases advances
    exact deliver_finite (.array fun item listed => parts item (List.mem_reverse.mp listed)) open_
  next =>
    cases advances
    exact deliver_finite (.object nofun) open_
  next =>
    cases advances
    exact ⟨nofun, open_⟩
  next =>
    cases advances
    exact ⟨parts, open_⟩
  next =>
    cases advances
    exact ⟨nofun, List.forall_mem_cons.mpr ⟨parts, open_⟩⟩
  next =>
    cases advances
    exact ⟨parts, open_⟩
  next =>
    cases advances
    apply deliver_finite (finite_ofMembers _) open_
    simpa [Phase.parts] using parts
  next => cases advances

theorem advances_finite {tokens : List Token} (finite : Token.AllFinite tokens) (read : progress.Finite)
    (advances : tokens.foldlM advance progress = some after) : after.Finite := by
  induction tokens generalizing progress with
  | nil =>
      cases advances
      exact read
  | cons token rest ih =>
      simp only [List.foldlM_cons, Option.bind_eq_bind, Option.bind_eq_some_iff] at advances
      obtain ⟨middle, advances, rest_advances⟩ := advances
      refine ih (fun number listed => finite number (List.mem_cons_of_mem _ listed)) ?_ rest_advances
      exact advance_finite (fun number listed => finite number (by simp_all)) read advances

/-- The numbers of a document that is read are finite. -/
theorem parse_finite {text : String} (parses : parse text = some json) : json.Finite := by
  obtain ⟨skims, -⟩ := Option.filter_eq_some_iff.mp parses
  obtain ⟨tokens, scanned, whole⟩ := Option.bind_eq_some_iff.mp skims
  unfold ofTokens at whole
  split at whole
  next read frames advances =>
    cases whole
    have initial : Progress.Finite ⟨.value, []⟩ := ⟨by simp [Phase.parts], by simp [Frame.AllFinite]⟩
    have finite := advances_finite (Token.scan_finite scanned) initial advances
    exact finite.phase json (List.mem_singleton_self _)
  · cases whole

theorem depth_parse {text : String} (parses : parse text = some json) : json.depth ≤ maxDepth := by
  obtain ⟨-, accepted⟩ := Option.filter_eq_some_iff.mp parses
  simp only [Bool.and_eq_true, decide_eq_true_eq] at accepted
  exact accepted.2

end Json

end Conform
