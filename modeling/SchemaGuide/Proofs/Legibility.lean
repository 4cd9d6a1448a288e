import Mathlib.Data.List.Basic
import SchemaGuide.Path.Text

/-! Which paths can be read back from their text. Nothing is escaped when a path is written, so what a key holds of the
marks between steps is lost, and a key that spells a position comes back as an index. Reading takes the text step by
step all the same: each step is read as if it were alone, and no step that was read gets lost when it is written. -/

namespace SchemaGuide

namespace Numeral

/-- The text is a numeral of the position: decimal digits, with at most one plus sign before them. -/
inductive Spells : List Char → Nat → Prop where
  | bare {digits : List Char} (filled : digits ≠ []) (decimal : ∀ c ∈ digits, c.isDigit)
      (small : value digits ≤ greatest) : Spells digits (value digits)
  | signed {digits : List Char} (filled : digits ≠ []) (decimal : ∀ c ∈ digits, c.isDigit)
      (small : value digits ≤ greatest) : Spells ('+' :: digits) (value digits)

theorem isNumeral_iff {text : List Char} : isNumeral text = true ↔ text ≠ [] ∧ ∀ c ∈ text, c.isDigit := by
  simp [isNumeral]

theorem unsigned_cases (text : List Char) : text = unsigned text ∨ text = '+' :: unsigned text := by
  unfold unsigned
  split
  · exact .inr rfl
  · exact .inl rfl

theorem position?_eq_some_iff {text : String} {position : Nat} :
    position? text = some position ↔ Spells text.toList position := by
  constructor
  · intro read
    simp only [position?, Option.ite_none_right_eq_some, Bool.and_eq_true, decide_eq_true_eq, Option.some.injEq] at read
    obtain ⟨⟨numeral, small⟩, rfl⟩ := read
    obtain ⟨filled, decimal⟩ := isNumeral_iff.mp numeral
    rcases unsigned_cases text.toList with bare | signed
    · rw [← bare] at filled decimal small ⊢
      exact .bare filled decimal small
    · rw [signed]
      exact .signed filled decimal small
  · intro spelled
    generalize characters : text.toList = digits at spelled
    cases spelled with
    | bare filled decimal small =>
      have numeral := isNumeral_iff.mpr ⟨filled, decimal⟩
      simp only [position?, characters, unsigned_of_isNumeral numeral, numeral, small, decide_true, Bool.and_self, if_true]
    | signed filled decimal small =>
      have numeral := isNumeral_iff.mpr ⟨filled, decimal⟩
      simp only [position?, characters, unsigned, numeral, small, decide_true, Bool.and_self, if_true]

theorem position?_eq_none_iff {text : String} :
    position? text = none ↔ ∀ position, ¬ Spells text.toList position := by
  simp only [Option.eq_none_iff_forall_ne_some, ne_eq, position?_eq_some_iff]

theorem small_of_spells {text : List Char} {position : Nat} (spelled : Spells text position) : position ≤ greatest := by
  cases spelled with
  | bare _ _ small => exact small
  | signed _ _ small => exact small

end Numeral

/-- The text holds none of the marks that stand around steps. -/
def Text.Unmarked (text : List Char) : Prop := ∀ c ∈ text, c ≠ '.' ∧ c ≠ '[' ∧ c ≠ ']'

/-- The step can be read back from its text. An index only has to be a position; a key must not look like anything else. -/
inductive Step.Legible : Step → Prop where
  | index {position : Nat} (small : position ≤ Numeral.greatest) : Legible (.index position)
  | key {name : String} (filled : name ≠ "") (unmarked : Text.Unmarked name.toList)
      (plain : ∀ position, ¬ Numeral.Spells name.toList position) : Legible (.key name)

namespace Path

/-- The steps of a text, given as its characters. -/
def steps (text : List Char) : Path :=
  ((Text.pieces separates (text.filter (· ≠ ']'))).filter (!·.isEmpty)).map stepOfPiece

theorem steps_append_cons {c : Char} (cut : separates c = true) (before after : List Char) :
    steps (before ++ c :: after) = steps before ++ steps after := by
  have kept : c ≠ ']' := by
    rintro rfl
    cases cut
  rw [steps, List.filter_append, List.filter_cons_of_pos (by simpa using kept), Text.pieces_append_cons cut,
    List.filter_append, List.map_append]
  rfl

theorem steps_append_closing (text : List Char) : steps (text ++ [']']) = steps text := by
  simp [steps]

/-- A written step is read as its bare text. -/
theorem steps_append_shown (before : List Char) (step : Step) :
    steps (before ++ step.shown.toList) = steps before ++ steps step.text.toList := by
  cases step with
  | key name =>
    have shown : (Step.key name).shown.toList = '.' :: name.toList := by simp [Step.shown]
    rw [shown, steps_append_cons rfl]
    rfl
  | index position =>
    have shown : (Step.index position).shown.toList = '[' :: (position.repr.toList ++ [']']) := by simp [Step.shown]
    rw [shown, steps_append_cons rfl, steps_append_closing]
    rfl

theorem steps_append_written (path : Path) (before : List Char) :
    steps (before ++ (path.map Step.shown).flatMap String.toList) =
      steps before ++ path.flatMap fun step => steps step.text.toList := by
  induction path generalizing before with
  | nil => simp
  | cons step rest ih =>
    rw [List.map_cons, List.flatMap_cons, ← List.append_assoc, ih, steps_append_shown, List.flatMap_cons,
      List.append_assoc]

/-- A path is read back step by step. -/
theorem parse_format {path : Path} (filled : path ≠ []) :
    parse (format path) = path.flatMap fun step => steps step.text.toList := by
  have written : format path = String.join (path.map Step.shown) := by
    rw [format, if_neg (by simpa using filled)]
  calc parse (format path)
    _ = steps ([] ++ (path.map Step.shown).flatMap String.toList) := by
      rw [written, List.nil_append, ← String.toList_join]
      rfl
    _ = path.flatMap fun step => steps step.text.toList := steps_append_written path []

/-- Whatever text it comes from, a step that is read can be read back. -/
theorem legible_of_mem_steps {text : List Char} {step : Step} (read : step ∈ steps text) : step.Legible := by
  obtain ⟨piece, kept, rfl⟩ := List.mem_map.mp read
  obtain ⟨part, filled⟩ := List.mem_filter.mp kept
  unfold stepOfPiece
  dsimp only
  split
  next position numeral => exact .index (Numeral.small_of_spells (Numeral.position?_eq_some_iff.mp numeral))
  next plain =>
    refine .key ?_ ?_ (Numeral.position?_eq_none_iff.mp plain)
    · simpa using filled
    · intro c member
      rw [String.toList_ofList] at member
      obtain ⟨held, uncut⟩ := Text.of_mem_pieces part member
      simp_all [separates]

/-- A text without marks is one step. -/
theorem steps_of_unmarked {word : List Char} (filled : word ≠ []) (unmarked : Text.Unmarked word) :
    steps word = [stepOfPiece word] := by
  have unclosed : word.filter (· ≠ ']') = word := by
    rw [List.filter_eq_self]
    intro c member
    simpa using (unmarked c member).2.2
  have uncut : ∀ c ∈ word, separates c = false := by
    intro c member
    obtain ⟨point, opening, _⟩ := unmarked c member
    simp [separates, point, opening]
  rw [steps, unclosed, Text.pieces_of_uncut uncut, List.filter_cons_of_pos (by simpa using filled)]
  rfl

theorem unmarked_of_decimal {digits : List Char} (decimal : ∀ c ∈ digits, c.isDigit) : Text.Unmarked digits := by
  intro c member
  have digit := decimal c member
  refine ⟨?_, ?_, ?_⟩ <;>
  · rintro rfl
    cases digit

theorem stepOfPiece_text {step : Step} (legible : step.Legible) : stepOfPiece step.text.toList = step := by
  unfold stepOfPiece
  rw [String.ofList_toList]
  dsimp only
  cases legible with
  | index small => rw [Step.text, Numeral.position?_repr small]
  | key _ _ plain => rw [Step.text, Numeral.position?_eq_none_iff.mpr plain]

/-- A step that can be read back is the only one in its text. -/
theorem steps_text {step : Step} (legible : step.Legible) : steps step.text.toList = [step] := by
  suffices word : step.text.toList ≠ [] ∧ Text.Unmarked step.text.toList by
    rw [steps_of_unmarked word.1 word.2, stepOfPiece_text legible]
  cases legible with
  | @index position small =>
    obtain ⟨filled, decimal⟩ := Numeral.isNumeral_iff.mp (Numeral.isNumeral_toDigits position)
    rw [Step.text, Nat.toList_repr]
    exact ⟨filled, unmarked_of_decimal decimal⟩
  | key filled unmarked _ => exact ⟨by simpa [Step.text] using filled, unmarked⟩

theorem parse_format_of_legible {path : Path} (filled : path ≠ []) (legible : ∀ step ∈ path, step.Legible) :
    parse (format path) = path := by
  rw [parse_format filled]
  calc path.flatMap fun step => steps step.text.toList
    _ = path.flatMap fun step => [step] := List.flatMap_congr fun step member => steps_text (legible step member)
    _ = path := List.flatMap_singleton' path

/-- A path is read back from its text just when it has a step and each step can be read back. What was read from a text
is such a path, unless it has no step at all. -/
theorem parse_format_eq_iff_legible :
    (∀ path : Path, parse (format path) = path ↔ path ≠ [] ∧ ∀ step ∈ path, step.Legible) ∧
    ∀ text : String, parse (format (parse text)) = parse text ↔ parse text ≠ [] := by
  have filled {path : Path} (same : parse (format path) = path) : path ≠ [] := by
    rintro rfl
    -- the empty path is written as a word, and a word is a key
    have root : parse (format []) = [.key rootText] := by decide
    rw [root] at same
    cases same
  constructor
  · intro path
    constructor
    · intro same
      refine ⟨filled same, ?_⟩
      intro step member
      rw [← same] at member
      exact legible_of_mem_steps member
    · rintro ⟨filled, legible⟩
      exact parse_format_of_legible filled legible
  · intro text
    refine ⟨filled, ?_⟩
    intro filled
    exact parse_format_of_legible filled fun step member => legible_of_mem_steps member

example : parse (format [.key "a.b", .key "+07", .index 3]) = [.key "a", .key "b", .index 7, .index 3] := by decide

end Path

end SchemaGuide
