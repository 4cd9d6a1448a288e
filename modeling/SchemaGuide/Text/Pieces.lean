/-!
A text cut at separator characters. There is always one piece more than there are separators, so empty pieces count.
Main statements: pieces hold what the text holds except for separators, and a separator ends the piece before it.
-/

namespace SchemaGuide.Text

def pieces (cuts : Char → Bool) : List Char → List (List Char)
  | [] => [[]]
  | c :: rest =>
    if cuts c then [] :: pieces cuts rest
    else match pieces cuts rest with
      | [] => [[c]]
      | piece :: others => (c :: piece) :: others

theorem pieces_ne_nil (cuts : Char → Bool) (text : List Char) : pieces cuts text ≠ [] := by
  cases text with
  | nil => simp [pieces]
  | cons c rest =>
    unfold pieces
    split
    · simp
    · split <;> simp

variable {cuts : Char → Bool} {c : Char}

theorem pieces_cons_of_cut (cut : cuts c = true) (rest : List Char) : pieces cuts (c :: rest) = [] :: pieces cuts rest := by
  rw [pieces, if_pos cut]

/-- A character that is no separator belongs to the first piece. -/
theorem exists_pieces_cons_of_uncut (uncut : cuts c = false) (rest : List Char) :
    ∃ piece others, pieces cuts rest = piece :: others ∧ pieces cuts (c :: rest) = (c :: piece) :: others := by
  obtain ⟨piece, others, pieced⟩ := List.exists_cons_of_ne_nil (pieces_ne_nil cuts rest)
  refine ⟨piece, others, pieced, ?_⟩
  rw [pieces, pieced, uncut]
  rfl

/-- A piece holds characters of the text, and no separator. -/
theorem of_mem_pieces {text piece : List Char} (part : piece ∈ pieces cuts text) (member : c ∈ piece) :
    c ∈ text ∧ cuts c = false := by
  induction text generalizing piece with
  | nil => simp_all [pieces]
  | cons head rest ih =>
    cases cut : cuts head with
    | true =>
      rw [pieces_cons_of_cut cut] at part
      rcases List.mem_cons.1 part with rfl | part
      · simp at member
      · exact (ih part member).imp_left (List.mem_cons_of_mem head)
    | false =>
      obtain ⟨first, others, pieced, longer⟩ := exists_pieces_cons_of_uncut cut rest
      rw [pieced] at ih
      rw [longer] at part
      rcases List.mem_cons.1 part with rfl | part
      · rcases List.mem_cons.1 member with rfl | member
        · exact ⟨List.mem_cons_self, cut⟩
        · exact (ih List.mem_cons_self member).imp_left (List.mem_cons_of_mem head)
      · exact (ih (List.mem_cons_of_mem first part) member).imp_left (List.mem_cons_of_mem head)

/-- A separator ends the piece before it, whatever stands there. -/
theorem pieces_append_cons (cut : cuts c = true) (before after : List Char) :
    pieces cuts (before ++ c :: after) = pieces cuts before ++ pieces cuts after := by
  induction before with
  | nil => exact pieces_cons_of_cut cut after
  | cons first rest ih =>
    rw [List.cons_append, pieces, pieces, ih]
    split
    · rfl
    · obtain ⟨piece, others, pieced⟩ := List.exists_cons_of_ne_nil (pieces_ne_nil cuts rest)
      rw [pieced]
      rfl

theorem pieces_of_uncut {text : List Char} (uncut : ∀ c ∈ text, cuts c = false) : pieces cuts text = [text] := by
  induction text with
  | nil => rfl
  | cons first rest ih =>
    obtain ⟨here, later⟩ := List.forall_mem_cons.1 uncut
    rw [pieces, ih later, here]
    rfl

end SchemaGuide.Text
