import Mathlib.Data.List.Forall2
import SchemaGuide.Proofs.RemovalCheck

/-! Two spellings of a number in a path: an index, or the key that is its numeral. Documents never tell them apart. A
schema does so in one place: only a key names a tag, so a tag that is a numeral is out of reach for an index. Everywhere
else the spelling shows in the paths of answers alone. -/

namespace SchemaGuide

/-- The two steps are the same, or one is an index and the other its numeral. -/
inductive Step.Respells : Step → Step → Prop where
  | same {step : Step} : Respells step step
  | key {position : Nat} (small : position ≤ Numeral.greatest) : Respells (.index position) (.key position.repr)
  | index {position : Nat} (small : position ≤ Numeral.greatest) : Respells (.key position.repr) (.index position)

/-- The paths have the same steps, each in a spelling of its own. -/
abbrev Path.Respells (path other : Path) : Prop := List.Forall₂ Step.Respells path other

/-- An echoed path with its steps spelled as they are in another path, as far as that goes. -/
def Path.spelled (other echoed : Path) : Path := other.take echoed.length ++ echoed.drop other.length

def Refusal.spelled (other : Path) (refusal : Refusal) : Refusal := { refusal with path := other.spelled refusal.path }

def Problem.spelled (other : Path) (problem : Problem) : Problem := { problem with path := other.spelled problem.path }

def Objection.spelled (other : Path) : Objection → Objection
  | .refused refusal => .refused (refusal.spelled other)
  | .uncounted => .uncounted

namespace Step.Respells

variable {step other : Step}

theorem text_eq (respells : step.Respells other) : other.text = step.text := by
  cases respells <;> rfl

theorem position?_eq (respells : step.Respells other) : other.position? = step.position? := by
  cases respells with
  | same => rfl
  | key small => exact Numeral.position?_repr small
  | index small => exact (Numeral.position?_repr small).symm

theorem child?_eq (respells : step.Respells other) (value : Json) : value.child? other = value.child? step := by
  unfold Json.child?
  rw [respells.text_eq, respells.position?_eq]

theorem removeChild_eq (respells : step.Respells other) (value : Json) :
    value.removeChild other = value.removeChild step := by
  unfold Json.removeChild
  rw [respells.text_eq, respells.position?_eq]

theorem adjustChild_eq (respells : step.Respells other) (value : Json) (change : Json → Json) :
    value.adjustChild other change = value.adjustChild step change := by
  unfold Json.adjustChild
  rw [respells.text_eq, respells.position?_eq]

theorem below?_eq (respells : step.Respells other) (node : Node) : Schema.below? node other = Schema.below? node step := by
  unfold Schema.below?
  rw [respells.text_eq, respells.position?_eq]

theorem removable_eq (respells : step.Respells other) (parent : Node) (value : Option Json) :
    Schema.removable parent value other = Schema.removable parent value step := by
  have remaining : Schema.remaining? value other = Schema.remaining? value step := by
    simp only [Schema.remaining?, respells.child?_eq]
  unfold Schema.removable
  simp only [respells.text_eq, remaining]

end Step.Respells

namespace Path

@[simp] theorem spelled_nil (other : Path) : other.spelled [] = [] := by simp [spelled]

@[simp] theorem spelled_cons (other : Path) (step first : Step) (echoed : Path) :
    spelled (step :: other) (first :: echoed) = step :: other.spelled echoed := by
  simp [spelled]

namespace Respells

variable {path other : Path}

theorem spelled_append (respells : path.Respells other) (rest : Path) : other.spelled (path ++ rest) = other ++ rest := by
  have length : other.length = path.length := respells.length_eq.symm
  rw [spelled, List.take_of_length_le (by simp [length]), length, List.drop_left]

theorem spelled_eq (respells : path.Respells other) : other.spelled path = other := by
  simpa using respells.spelled_append []

theorem map_text_eq (respells : path.Respells other) : other.map Step.text = path.map Step.text := by
  induction respells with
  | nil => rfl
  | cons step _ ih => rw [List.map_cons, List.map_cons, step.text_eq, ih]

theorem at?_eq (respells : path.Respells other) (value : Json) : value.at? other = value.at? path := by
  induction respells generalizing value with
  | nil => rfl
  | cons step _ ih =>
    rw [Json.at?, Json.at?, step.child?_eq]
    cases value.child? _ with
    | none => rfl
    | some part => exact ih part

theorem removeAt_eq (respells : path.Respells other) (value : Json) : value.removeAt other = value.removeAt path := by
  induction respells generalizing value with
  | nil => rfl
  | cons step further ih =>
    cases further with
    | nil => exact step.removeChild_eq value
    | cons _ _ =>
      rw [Json.removeAt, Json.removeAt, step.adjustChild_eq]
      exact congrArg _ (funext ih)

/-- The last step and those before it are respelled each for itself. -/
theorem exists_concat {last : Step} (respells : (path ++ [last]).Respells other) :
    ∃ front final, other = front ++ [final] ∧ path.Respells front ∧ last.Respells final := by
  induction path generalizing other with
  | nil =>
    cases respells with
    | cons step further =>
      cases further
      exact ⟨[], _, rfl, .nil, step⟩
  | cons first rest ih =>
    cases respells with
    | cons step further =>
      obtain ⟨front, final, rfl, before, last⟩ := ih further
      exact ⟨_ :: front, final, rfl, .cons step before, last⟩

end Respells

end Path

namespace Schema

/-- Where a step is spelled anew, the node that governs there has no variant of that name. -/
def SparesTags (schema : Schema) (node : Node) (given : Option Json) : Path → Path → Prop
  | step :: rest, other :: others =>
    (step = other ∨ schema.taggedBy? (schema.governing node given) (.key step.text) = none) ∧
      match schema.enter? (schema.governing node given) step with
      | none => True
      | some next => schema.SparesTags next (given.bind (·.child? step)) rest others
  | _, _ => True

variable {schema : Schema} {node : Node} {given : Option Json} {path other : Path} {step final : Step}

theorem taggedBy?_eq_none_of_text (untagged : schema.taggedBy? node (.key step.text) = none) :
    schema.taggedBy? node step = none := by
  cases step with
  | key tag => exact untagged
  | index position => rfl

theorem enter?_respelled (respells : step.Respells final)
    (spared : step = final ∨ schema.taggedBy? node (.key step.text) = none) :
    schema.enter? node final = schema.enter? node step := by
  rcases spared with same | untagged
  · rw [same]
  · rw [enter?, enter?, respells.below?_eq, taggedBy?_eq_none_of_text untagged,
      taggedBy?_eq_none_of_text (respells.text_eq.symm ▸ untagged)]

/-- Navigation arrives at the same node, or fails after as many steps. -/
theorem descend_respelled (respells : path.Respells other) (spared : schema.SparesTags node given path other) :
    schema.descend node given other = (schema.descend node given path).mapError other.spelled := by
  induction respells generalizing node given with
  | nil => rfl
  | @cons step final rest others spelling _ ih =>
    obtain ⟨here, below⟩ := spared
    have same : (given.bind (·.child? final)) = given.bind (·.child? step) := by simp only [spelling.child?_eq]
    rw [descend, descend, enter?_respelled spelling here, same]
    cases entered : schema.enter? (schema.governing node given) step with
    | none => simp [Except.mapError]
    | some next =>
      rw [entered] at below
      simp only [ih below]
      cases schema.descend next (given.bind (·.child? step)) rest with
      | error failed => simp [Except.mapError]
      | ok target => rfl

theorem SparesTags.of_concat (respells : path.Respells other)
    (spared : schema.SparesTags node given (path ++ [step]) (other ++ [final])) :
    schema.SparesTags node given path other := by
  induction respells generalizing node given with
  | nil => trivial
  | @cons first _ _ _ _ _ ih =>
    obtain ⟨here, below⟩ := spared
    refine ⟨here, ?_⟩
    cases entered : schema.enter? (schema.governing node given) first with
    | none => trivial
    | some next =>
      rw [entered] at below
      exact ih below

end Schema

namespace Editor

/-- No step that is spelled anew names a tag, on the way from the root definition. -/
def SparesTags (editor : Editor) (given : Option Json) (path other : Path) : Prop :=
  ∀ node, editor.schema.definition? editor.root = some node → editor.schema.SparesTags node given path other

variable {editor : Editor} {given : Option Json} {document : Json} {path other : Path}

theorem nodeAt_respelled (respells : path.Respells other) (spared : editor.SparesTags given path other) :
    editor.nodeAt other given = (editor.nodeAt path given).mapError (·.spelled other) := by
  unfold nodeAt Schema.nodeAt
  cases found : editor.schema.definition? editor.root with
  | none => simp [Except.mapError, Refusal.spelled, Refusal.invalidPath]
  | some node =>
    simp only [Schema.descend_respelled respells (spared node found)]
    cases editor.schema.descend node given path with
    | error failed => rfl
    | ok target => rfl

theorem preview_respelled (respells : path.Respells other) (spared : editor.SparesTags given path other) :
    editor.preview other given = (editor.preview path given).mapError (·.spelled other) := by
  rw [preview, preview, nodeAt_respelled respells spared]
  cases editor.nodeAt path given with
  | error refusal => rfl
  | ok node => rfl

theorem validateAt_respelled (respells : path.Respells other) (spared : editor.SparesTags (some document) path other) :
    editor.validateAt document other =
      ((editor.validateAt document path).map (·.map (·.spelled other))).mapError (·.spelled other) := by
  have reached := nodeAt_respelled respells spared
  unfold nodeAt at reached
  rw [validateAt, validateAt, reached, respells.at?_eq]
  cases editor.schema.nodeAt editor.root path (some document) with
  | error refusal => rfl
  | ok node =>
    simp only [Except.mapError, Except.map, bind, Except.bind, pure, Except.pure, List.map_map]
    refine congrArg Except.ok (List.map_congr_left fun problem _ => ?_)
    simp [Problem.spelled, respells.spelled_append]

theorem offers_respelled (respells : path.Respells other) (spared : editor.SparesTags (some document) path other) :
    editor.offers other document = (editor.offers path document).mapError (·.spelled other) := by
  have reached := nodeAt_respelled respells spared
  have named : other.getLast?.map Step.text = path.getLast?.map Step.text := by
    rw [← List.getLast?_map, respells.map_text_eq, List.getLast?_map]
  unfold nodeAt at reached
  rw [offers, Schema.offers, offers, Schema.offers, reached, respells.at?_eq, named]
  cases editor.schema.nodeAt editor.root path (some document) with
  | error refusal => rfl
  | ok node => rfl

theorem checkRemoval_respelled (respells : path.Respells other)
    (spared : editor.SparesTags (some document) path other) :
    editor.checkRemoval document other = (editor.checkRemoval document path).mapError (·.spelled other) := by
  have reached := nodeAt_respelled respells spared
  rcases List.eq_nil_or_concat' path with rfl | ⟨front, last, rfl⟩
  · cases respells
    rfl
  · obtain ⟨before, final, rfl, beforeRespells, lastRespells⟩ := respells.exists_concat
    have around := nodeAt_respelled beforeRespells (fun node found => (spared node found).of_concat beforeRespells)
    unfold nodeAt at reached around
    cases whole : editor.schema.nodeAt editor.root (front ++ [last]) (some document) with
    | error refusal =>
      rw [whole] at reached
      rw [checkRemoval, checkRemoval, Schema.checkRemoval_of_unresolved reached, Schema.checkRemoval_of_unresolved whole]
      rfl
    | ok target =>
      -- The path to the parent then resolves too, so that what the parent says decides for both spellings.
      obtain ⟨declared, parent, _⟩ := Schema.nodeAt_append_eq_ok_iff.mp whole
      rw [whole] at reached
      rw [parent] at around
      rw [checkRemoval, checkRemoval, Schema.checkRemoval_concat around reached, Schema.checkRemoval_concat parent whole,
        beforeRespells.at?_eq, lastRespells.removable_eq]
      cases Schema.removable (editor.schema.governing declared (document.at? front)) (document.at? front) last with
      | ok => rfl
      | error category =>
        cases category with
        | none => rfl
        | some category =>
          simp [Except.mapError, Objection.spelled, Refusal.spelled, respells.spelled_eq]

/-- The spelling of a number never matters to a document. It does not matter to a schema either, unless the number is
spelled anew where it is a tag: the answers are the same but for the spelling of the paths in them. -/
theorem respelled_path (editor : Editor) (respells : path.Respells other) :
    (∀ document : Json, document.at? other = document.at? path ∧ document.removeAt other = document.removeAt path) ∧
    (∀ given, editor.SparesTags given path other →
      editor.nodeAt other given = (editor.nodeAt path given).mapError (·.spelled other) ∧
      editor.preview other given = (editor.preview path given).mapError (·.spelled other)) ∧
    ∀ document, editor.SparesTags (some document) path other →
      editor.validateAt document other =
        ((editor.validateAt document path).map (·.map (·.spelled other))).mapError (·.spelled other) ∧
      editor.offers other document = (editor.offers path document).mapError (·.spelled other) ∧
      editor.checkRemoval document other = (editor.checkRemoval document path).mapError (·.spelled other) := by
  refine ⟨fun document => ?_, fun given spared => ?_, fun document spared => ?_⟩
  · exact ⟨respells.at?_eq document, respells.removeAt_eq document⟩
  · exact ⟨nodeAt_respelled respells spared, preview_respelled respells spared⟩
  · exact ⟨validateAt_respelled respells spared, offers_respelled respells spared, checkRemoval_respelled respells spared⟩

/-- A reply has a status, which is a numeral, and the form of the reply depends on it. -/
def replies : Editor where
  schema := Schema.build [
    ("Root", .object {} [("reply", .object { discriminator := some ⟨"status", [("200", "Found")]⟩ } [])]),
    ("Found", .object {} [("hits", .array {} (.scalar { required := true } Node.anyNumber) none none)])]
  root := "Root"
  suffix := standardSuffix

/-- Where the status stays as it is, the place of a hit may be written either way, and the problem found there names the
place as it was written. -/
theorem respelled_path_replies :
    Path.Respells [.key "reply", .key "200", .key "hits", .index 3] [.key "reply", .key "200", .key "hits", .key "3"] ∧
    replies.SparesTags (some (.obj [])) [.key "reply", .key "200", .key "hits", .index 3]
      [.key "reply", .key "200", .key "hits", .key "3"] ∧
    replies.validateAt (.obj []) [.key "reply", .key "200", .key "hits", .key "3"] =
      .ok [⟨[.key "reply", .key "200", .key "hits", .key "3"], .empty⟩] := by
  have respells :
      Path.Respells [.key "reply", .key "200", .key "hits", .index 3] [.key "reply", .key "200", .key "hits", .key "3"] :=
    .cons .same (.cons .same (.cons .same (.cons (.key (by decide)) .nil)))
  have spared : replies.SparesTags (some (.obj [])) [.key "reply", .key "200", .key "hits", .index 3]
      [.key "reply", .key "200", .key "hits", .key "3"] := by
    intro node found
    cases found
    exact ⟨.inl rfl, .inl rfl, .inl rfl, .inr rfl, trivial⟩
  exact ⟨respells, spared, ((replies.respelled_path respells).2.2 _ spared).1⟩

/-- The status itself is found by its key only; the index, which is what a written path gives, leads nowhere. -/
theorem respelled_tag_of_replies :
    Path.Respells [.key "reply", .key "200"] [.key "reply", .index 200] ∧
    Path.parse "reply.200" = [.key "reply", .index 200] ∧
    (∃ variant, replies.nodeAt [.key "reply", .key "200"] (some (.obj [])) = .ok variant) ∧
    replies.nodeAt [.key "reply", .index 200] (some (.obj [])) =
      .error (.invalidPath "Root" [.key "reply", .index 200]) :=
  ⟨.cons .same (.cons (@Step.Respells.index 200 (by decide)) .nil), by decide, ⟨_, rfl⟩, rfl⟩

end Editor

end SchemaGuide
