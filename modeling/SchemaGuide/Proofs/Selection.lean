import SchemaGuide.Proofs.Governance

/-! What navigation sees of a document. The document is asked for one thing only, the variant that governs at each step;
so two documents that answer alike lead the same way, and where there is nothing to select any document will do. -/

namespace SchemaGuide

/-- What the node has at a step it has at every other: an array at each position, a map under each key. -/
inductive Node.Repeats : Node → Step → Node → Prop where
  | element {header : Header} {template : Node} {minItems maxItems : Option Int} {step : Step}
      (place : step.position?.isSome) : Repeats (.array header template minItems maxItems) step template
  | value {header : Header} {template : Node} {step : Step} : Repeats (.map header template) step template

namespace Schema

/-- Wherever the walk of the first document comes before the end of the path, both documents select the same variant. -/
def SelectAlike (schema : Schema) (group : String) (first second : Option Json) (path : Path) : Prop :=
  ∀ before step after node, path = before ++ step :: after → schema.nodeAt group before first = .ok node →
    schema.selected? node (first.bind (·.at? before)) = schema.selected? node (second.bind (·.at? before))

/-- No definition has a discriminator, at any depth. -/
def Undiscriminated (schema : Schema) : Prop := ∀ entry ∈ schema.definitions, ∀ d, ¬ entry.2.Carries d

variable {schema : Schema} {group : String} {node template : Node} {first second given : Option Json} {path : Path}
  {step : Step}

theorem descend_eq_of_selected
    (alike : ∀ before step after inner, path = before ++ step :: after → schema.descend node first before = .ok inner →
      schema.selected? inner (first.bind (·.at? before)) = schema.selected? inner (second.bind (·.at? before))) :
    schema.descend node second path = schema.descend node first path := by
  induction path generalizing node first second with
  | nil => rfl
  | cons step rest ih =>
    have here := alike [] step rest node rfl rfl
    rw [Json.bind_at?_nil, Json.bind_at?_nil] at here
    have same : schema.governing node second = schema.governing node first := by rw [governing, governing, here]
    rw [descend, descend, same]
    cases entered : schema.enter? (schema.governing node first) step with
    | none => rfl
    | some next =>
      have deeper : schema.descend next (second.bind (·.child? step)) rest =
          schema.descend next (first.bind (·.child? step)) rest := by
        apply ih
        intro before other after inner split reached
        rw [← Json.bind_at?_cons, ← Json.bind_at?_cons]
        apply alike (step :: before) other after inner
        · rw [split, List.cons_append]
        · exact descend_cons_eq_ok_iff.mpr ⟨next, entered, reached⟩
      simp only [deeper]

theorem nodeAt_eq_of_selectAlike (alike : schema.SelectAlike group first second path) :
    schema.nodeAt group path second = schema.nodeAt group path first := by
  unfold nodeAt
  cases found : schema.definition? group with
  | none => rfl
  | some node =>
    have walked : schema.descend node second path = schema.descend node first path := by
      apply descend_eq_of_selected
      intro before step after inner split reached
      exact alike before step after inner split (nodeAt_eq_ok_iff.mpr ⟨node, found, reached⟩)
    simp only [walked]

/-- From a node without discriminators navigation leads to such nodes only. -/
theorem not_carries_of_descend (plain : ∀ d, ¬ node.Carries d) {target : Node}
    (reached : schema.descend node given path = .ok target) : ∀ d, ¬ target.Carries d := by
  induction path generalizing node given with
  | nil =>
    cases reached
    exact plain
  | cons step rest ih =>
    have own := Node.discriminator?_of_not_carries plain
    obtain ⟨next, entered, reached⟩ := descend_cons_eq_ok_iff.mp reached
    rw [governing_of_plain own, enter?_of_plain own] at entered
    exact ih (fun d carried => plain d (carried.of_within (within_of_below? entered))) reached

theorem Undiscriminated.discriminator?_of_nodeAt (plain : schema.Undiscriminated)
    (reached : schema.nodeAt group path given = .ok node) : node.discriminator? = none := by
  obtain ⟨root, found, reached⟩ := nodeAt_eq_ok_iff.mp reached
  exact Node.discriminator?_of_not_carries (not_carries_of_descend (plain _ (Entries.mem_of_lookup found)) reached)

theorem Undiscriminated.selectAlike (plain : schema.Undiscriminated) (first second : Option Json) :
    schema.SelectAlike group first second path := by
  intro before step after node _ reached
  have own := plain.discriminator?_of_nodeAt reached
  simp [selected?, own]

/-- The template of an array or a map stands at every step that names no tag, be there a value or not. -/
theorem nodeAt_of_repeats (reached : schema.nodeAt group path given = .ok node)
    (repeats : (schema.governing node (given.bind (·.at? path))).Repeats step template)
    (untagged : schema.taggedBy? (schema.governing node (given.bind (·.at? path))) step = none) :
    schema.nodeAt group (path ++ [step]) given = .ok template := by
  obtain ⟨root, found, walked⟩ := nodeAt_eq_ok_iff.mp reached
  refine nodeAt_eq_ok_iff.mpr ⟨root, found, descend_append_eq_ok_iff.mpr ⟨node, walked, descend_singleton ?_⟩⟩
  rw [enter?, untagged, Option.none_or]
  generalize schema.governing node (given.bind (·.at? path)) = rule at repeats
  cases repeats with
  | element place =>
    obtain ⟨position, place⟩ := Option.isSome_iff_exists.mp place
    rw [below?, place, Option.map_some]
  | value => rfl

/-- Documents that select the same variants along a path lead to the same node, or fail alike. Without discriminators
the document does not matter at all; positions of arrays and keys of maps have their template in any document. -/
theorem nodeAt_selected (schema : Schema) (group : String) :
    (∀ path first second, schema.SelectAlike group first second path →
      schema.nodeAt group path second = schema.nodeAt group path first) ∧
    (schema.Undiscriminated → ∀ path first second,
      schema.nodeAt group path second = schema.nodeAt group path first ∧
      ∀ node step template, schema.nodeAt group path first = .ok node → node.Repeats step template →
        schema.nodeAt group (path ++ [step]) second = .ok template) ∧
    ∀ path given node step template, schema.nodeAt group path given = .ok node →
      (schema.governing node (given.bind (·.at? path))).Repeats step template →
      schema.taggedBy? (schema.governing node (given.bind (·.at? path))) step = none →
      schema.nodeAt group (path ++ [step]) given = .ok template := by
  refine ⟨fun path first second alike => nodeAt_eq_of_selectAlike alike, fun plain path first second => ?_,
    fun path given node step template reached repeats untagged => nodeAt_of_repeats reached repeats untagged⟩
  have alike : schema.SelectAlike group first second path := plain.selectAlike first second
  have same := nodeAt_eq_of_selectAlike alike
  refine ⟨same, fun node step template reached repeats => ?_⟩
  have own := plain.discriminator?_of_nodeAt reached
  apply nodeAt_of_repeats (same.trans reached)
  · rw [governing_of_plain own]
    exact repeats
  · rw [governing_of_plain own]
    cases step <;> simp [taggedBy?, own]

def gates : Entries Node :=
  let text : Node := .scalar {} Node.anyString
  let kinds : Discriminator := ⟨"kind", [("glass", "Glass"), ("steel", "Steel")]⟩
  [("Root", .object {} [("gate", .object { discriminator := some kinds } [])]),
    ("Glass", .object {} [("panes", .array {} text none none)]), ("Steel", .object {} [("locks", .map {} text)])]

def glassGate : Json := .obj [("gate", .obj [("kind", .str "glass"), ("panes", .arr [.str "clear"])])]

def bareGlassGate : Json := .obj [("gate", .obj [("panes", .null), ("kind", .str "glass")]), ("owner", .str "x")]

def pages : Entries Node :=
  [("Root", .object {} [("notes", .array {} (.map {} (.scalar {} Node.anyString)) none none)])]

/-- A pane beyond those of either document, and a note where there is no document. -/
theorem nodeAt_selected_gates :
    (build gates).SelectAlike "Root" (some glassGate) (some bareGlassGate) [.key "gate", .key "panes", .index 7] ∧
    (build gates).nodeAt "Root" [.key "gate", .key "panes", .index 7] (some bareGlassGate) =
      .ok (.scalar {} Node.anyString) ∧
    (build pages).Undiscriminated ∧
    (build pages).nodeAt "Root" [.key "notes", .index 3, .key "title"] none = .ok (.scalar {} Node.anyString) := by
  have alike : (build gates).SelectAlike "Root" (some glassGate) (some bareGlassGate)
      [.key "gate", .key "panes", .index 7] := by
    intro before step after node split reached
    match before, split with
    | [], _ =>
      cases reached
      rfl
    | [_], split =>
      cases split
      cases reached
      rfl
    | [_, _], split =>
      cases split
      cases reached
      rfl
    | _ :: _ :: _ :: _, split => simp at split
  have plain : (build pages).Undiscriminated := by
    intro entry member d
    cases List.mem_singleton.mp member
    exact Node.not_carries_of_occurrences (by decide)
  obtain ⟨alikeGates, _, repeatsGates⟩ := nodeAt_selected (build gates) "Root"
  obtain ⟨_, anyDocument, _⟩ := nodeAt_selected (build pages) "Root"
  have panes : (build gates).nodeAt "Root" [.key "gate", .key "panes"] (some glassGate) =
      .ok (.array {} (.scalar {} Node.anyString) none none) := rfl
  have notes : (build pages).nodeAt "Root" [.key "notes", .index 3] (some glassGate) =
      .ok (.map {} (.scalar {} Node.anyString)) := rfl
  have beyond := repeatsGates [.key "gate", .key "panes"] _ _ (.index 7) _ panes (.element rfl) rfl
  have title := (anyDocument plain _ (some glassGate) none).2 _ (.key "title") _ notes .value
  exact ⟨alike, (alikeGates _ _ _ alike).trans beyond, plain, title⟩

end Schema

end SchemaGuide
