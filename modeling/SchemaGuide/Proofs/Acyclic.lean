import SchemaGuide.Proofs.Expansion
import SchemaGuide.Proofs.Strictness

/-! Samples of schemas whose definitions do not refer to one another in a circle. A definition that is being expanded leads
to every definition that a discriminator inside it refers to, so to meet it again would close a circle. Without circles
nothing is cut off, however often definitions share their targets, and a recursion that remembers nothing gives the same
sample. -/

namespace SchemaGuide

namespace Node

variable {first second : Discriminator → Json} {node : Node}

private theorem sampleWith_eq_of_body (own : ∀ d, node.discriminator? = some d → first d = second d)
    (body : node.bodyTemplate first = node.bodyTemplate second) : node.sampleWith first = node.sampleWith second := by
  unfold sampleWith
  split
  next d has => exact own d has
  · exact body

/-- Only the discriminators that a node carries have a part in its sample. -/
theorem bodyTemplate_congr (same : ∀ d, node.Carries d → first d = second d) :
    node.bodyTemplate first = node.bodyTemplate second := by
  induction node with
  | object header properties ih =>
    rw [bodyTemplate_object, bodyTemplate_object]
    refine congrArg Json.obj (List.map_congr_left fun entry declared => ?_)
    have below : ∀ d, entry.2.Carries d → first d = second d :=
      fun d carried => same d (carried.of_within (.property declared .here))
    rw [sampleWith_eq_of_body (fun d has => below d ⟨_, .here, has⟩) (ih entry declared below)]
  | array header items minItems maxItems ih =>
    have below : ∀ d, items.Carries d → first d = second d := fun d carried => same d (carried.of_within (.items .here))
    rw [bodyTemplate_array, bodyTemplate_array, sampleWith_eq_of_body (fun d has => below d ⟨_, .here, has⟩) (ih below)]
  | map | scalar => rfl

theorem sampleWith_congr (same : ∀ d, node.Carries d → first d = second d) : node.sampleWith first = node.sampleWith second :=
  sampleWith_eq_of_body (fun d has => same d ⟨node, .here, has⟩) (bodyTemplate_congr same)

end Node

namespace Schema

/-- A discriminator somewhere in the first definition maps a tag to the second. -/
def Refers (schema : Schema) (first second : String) : Prop :=
  ∃ node d tag, schema.definition? first = some node ∧ node.Carries d ∧ d.target? tag = some second

/-- No definition refers to itself, be it through others. -/
def Acyclic (schema : Schema) : Prop := ∀ name, ¬ Relation.TransGen schema.Refers name name

/-- All variants of a discriminator under their tags, with the discriminators below them expanded in the same way and
nothing remembered of those above. What lies deeper than `depth` is left to `bottom`. -/
def unrolled (schema : Schema) (bottom : Discriminator → Json) : (depth : Nat) → Discriminator → Json
  | 0, d => bottom d
  | depth + 1, d =>
    .obj ((schema.variants d).map fun entry => (entry.1, entry.2.bodyTemplate (schema.unrolled bottom depth)))

/-- Each of the definitions leads to all those that the discriminator refers to. -/
def Leads (schema : Schema) (expanding : List String) (d : Discriminator) : Prop :=
  ∀ name ∈ expanding, ∀ tag target, d.target? tag = some target → Relation.TransGen schema.Refers name target

theorem map_choices (schema : Schema) (d : Discriminator) :
    (schema.choices d).map (fun choice => (choice.tag, choice.variant)) = schema.variants d := by
  rw [choices, variants, List.map_filterMap]
  congr 1
  funext tag
  rw [variant?]
  cases d.target? tag with
  | none => rfl
  | some target => simp only [Option.bind_some, Option.map_map, Function.comp_def]

variable {definitions : Entries Node} {d : Discriminator} {expanding : List String}

/-- With a variant, the definition that it is made of comes to those that are being expanded. -/
theorem Leads.of_choice (leads : (build definitions).Leads expanding d) {choice : Choice}
    (offered : choice ∈ (build definitions).choices d) {inner : Discriminator} (carried : choice.variant.Carries inner) :
    (build definitions).Leads (choice.target :: expanding) inner := by
  obtain ⟨_, mapped, led⟩ := mem_choices.mp offered
  obtain ⟨target, base, same, _, found, made⟩ := variant?_build_eq_some led
  cases mapped.symm.trans same
  rw [made] at carried
  have refers {tag deeper : String} (leadsTo : inner.target? tag = some deeper) :
      (build definitions).Refers choice.target deeper := ⟨base, inner, tag, found, Node.carries_of_tagged carried, leadsTo⟩
  intro name listed tag deeper leadsTo
  rcases List.mem_cons.mp listed with rfl | listed
  · exact .single (refers leadsTo)
  · exact (leads name listed choice.tag choice.target mapped).tail (refers leadsTo)

theorem Acyclic.target_notMem (acyclic : (build definitions).Acyclic) (leads : (build definitions).Leads expanding d)
    {choice : Choice} (offered : choice ∈ (build definitions).choices d) : choice.target ∉ expanding := by
  intro listed
  obtain ⟨_, mapped, _⟩ := mem_choices.mp offered
  exact acyclic choice.target (leads choice.target listed choice.tag choice.target mapped)

/-- Without circles, what is remembered of the definitions above makes no difference. -/
theorem Acyclic.expansion_eq_unrolled (acyclic : (build definitions).Acyclic) (leads : (build definitions).Leads expanding d)
    (bottom : Discriminator → Json) {depth : Nat} (deep : ((build definitions).idle expanding).length < depth) :
    (build definitions).expansion expanding d = (build definitions).unrolled bottom depth d := by
  induction depth generalizing expanding d with
  | zero => omega
  | succ depth ih =>
    rw [expansion_eq, unrolled, ← map_choices, List.map_map]
    refine congrArg Json.obj (List.map_congr_left fun choice offered => ?_)
    have fresh := acyclic.target_notMem leads offered
    have fewer : ((build definitions).idle (choice.target :: expanding)).length < ((build definitions).idle expanding).length :=
      length_filter_cons_lt (target_mem_names offered) fresh
    rw [if_neg fresh]
    refine congrArg (Prod.mk choice.tag) (Node.bodyTemplate_congr fun inner carried => ?_)
    exact ih (leads.of_choice offered carried) (Nat.lt_of_lt_of_le fewer (Nat.le_of_lt_succ deep))

theorem leads_nil (schema : Schema) (d : Discriminator) : schema.Leads [] d := nofun

theorem length_idle_lt (schema : Schema) (expanding : List String) :
    (schema.idle expanding).length < schema.names.length + 1 :=
  Nat.lt_succ_of_le (List.length_filter_le _ _)

theorem Holds.tags_choices {node : Node} (held : (build definitions).Holds node) (has : node.discriminator? = some d) :
    ((build definitions).choices d).map Choice.tag =
      d.tags.filter fun tag => (d.target? tag).any (build definitions).names.contains := by
  calc ((build definitions).choices d).map Choice.tag
    _ = Entries.keys ((build definitions).variants d) := by
      rw [← map_choices, Entries.keys, List.map_map]
      rfl
    _ = _ := held.keys_variants_eq_known has

/-- A variant without a discriminator has the same sample inside its discriminator as on its own. -/
theorem Acyclic.sampleOf_choice (acyclic : (build definitions).Acyclic) {choice : Choice}
    (offered : choice ∈ (build definitions).choices d) (plain : choice.variant.discriminator? = none) :
    (build definitions).sampleOf (.ofChoice [] choice) = (build definitions).template choice.variant := by
  rw [template_of_plain _ plain]
  refine Node.bodyTemplate_congr fun inner carried => ?_
  have nested := (leads_nil (build definitions) d).of_choice offered carried
  have bottom := (build definitions).expansion []
  calc (build definitions).expansion [choice.target] inner
    _ = (build definitions).unrolled bottom _ inner := acyclic.expansion_eq_unrolled nested bottom (length_idle_lt _ _)
    _ = (build definitions).expansion [] inner :=
      (acyclic.expansion_eq_unrolled (leads_nil _ inner) bottom (length_idle_lt _ _)).symm

/-- Where definitions do not refer to one another in a circle, the sample of a node of the schema is what the recursion
gives that remembers and cuts off nothing; it needs no more levels than there are definitions, and one. In place of a
discriminated node stand, in the order of the mapping, all tags whose definitions exist, each with the sample of its variant
unless this has a discriminator of its own. -/
theorem template_eq_unrolled {node : Node} (acyclic : (build definitions).Acyclic) (held : (build definitions).Holds node) :
    (∀ bottom depth, (build definitions).names.length < depth →
      node.sampleWith ((build definitions).unrolled bottom depth) = (build definitions).template node) ∧
    ∀ d, node.discriminator? = some d → ∃ members, (build definitions).template node = .obj members ∧
      Entries.keys members = d.tags.filter (fun tag => (d.target? tag).any (build definitions).names.contains) ∧
      ∀ entry ∈ members, ∃ target base variant, d.target? entry.1 = some target ∧
        (build definitions).definition? target = some base ∧ (build definitions).variant? d entry.1 = some variant ∧
        (base.discriminator? = none → entry.2 = (build definitions).template variant) := by
  constructor
  · intro bottom depth deep
    apply Node.sampleWith_congr
    intro d _
    exact (acyclic.expansion_eq_unrolled (leads_nil _ d) bottom (Nat.lt_of_lt_of_le (length_idle_lt _ []) deep)).symm
  · intro d has
    refine ⟨_, (template_of_discriminator _ has).trans (expansion_eq [] d), ?_, ?_⟩
    · rw [← held.tags_choices has, Entries.keys, List.map_map]
      rfl
    · intro entry listed
      obtain ⟨choice, offered, rfl⟩ := List.mem_map.mp listed
      obtain ⟨_, mapped, led⟩ := mem_choices.mp offered
      obtain ⟨target, base, same, _, found, made⟩ := variant?_build_eq_some led
      cases mapped.symm.trans same
      refine ⟨choice.target, base, choice.variant, mapped, found, led, ?_⟩
      intro plain
      have own : choice.variant.discriminator? = none := by
        rw [made, Node.discriminator?_tagged]
        exact plain
      rw [if_neg List.not_mem_nil, acyclic.sampleOf_choice offered own]

/-- A schema has no circles if its definitions can be given ranks that fall along every reference. -/
theorem acyclic_of_rank (rank : String → Nat)
    (falls : ∀ entry ∈ definitions, ∀ place ∈ entry.2.occurrences, ∀ d ∈ place.2.discriminator?, ∀ mapped ∈ d.targets,
      rank mapped.2 < rank entry.1) : (build definitions).Acyclic := by
  have lower {first second : String} (refers : (build definitions).Refers first second) : rank second < rank first := by
    obtain ⟨node, d, tag, found, carried, mapped⟩ := refers
    rw [definition?_build] at found
    obtain ⟨source, present, rfl⟩ := Option.map_eq_some_iff.mp found
    obtain ⟨inner, inside, has⟩ := Node.carries_of_markAll carried
    obtain ⟨location, listed⟩ := Node.mem_occurrences_iff.mpr inside
    exact falls _ (Entries.mem_of_lookup present) _ listed d has _ (Discriminator.mem_targets_of_target? mapped)
  intro name circle
  suffices falling : ∀ other, Relation.TransGen (build definitions).Refers name other → rank other < rank name from
    Nat.lt_irrefl _ (falling name circle)
  intro other path
  induction path with
  | single refers => exact lower refers
  | tail _ refers ih => exact Nat.lt_trans (lower refers) ih

def leafChoice : Node := .scalar { discriminator := some ⟨"kind", [("leaf", "leaf"), ("gone", "nowhere")]⟩ } Node.anyString

def sides : Node := .scalar { discriminator := some ⟨"side", [("l", "left"), ("r", "right")]⟩ } Node.anyString

/-- Two sides share their leaf. -/
def diamond : Entries Node :=
  [("top", .object {} [("sides", sides)]), ("left", .object {} [("first", leafChoice), ("second", leafChoice)]),
    ("right", .object {} [("leaves", .array {} leafChoice (some 2) none)]), ("leaf", .object {} [])]

/-- No leaf of the diamond is cut off, neither next to another one nor on the other side. -/
theorem template_eq_unrolled_diamond :
    (build diamond).Acyclic ∧ (build diamond).Holds sides ∧
    (build diamond).template sides = .obj
      [("l", .obj [("first", .obj [("leaf", .obj [("kind", .str "leaf")])]),
          ("second", .obj [("leaf", .obj [("kind", .str "leaf")])]), ("side", .str "l")]),
        ("r", .obj [("leaves", .arr [.obj [("leaf", .obj [("kind", .str "leaf")])],
          .obj [("leaf", .obj [("kind", .str "leaf")])]]), ("side", .str "r")])] := by
  have acyclic : (build diamond).Acyclic :=
    acyclic_of_rank (fun name => ["nowhere", "leaf", "right", "left", "top"].idxOf name) (by decide)
  have top : (build diamond).definition? "top" = some _ := rfl
  have held : (build diamond).Holds sides := (holds_of_definition? top).of_within (.property (.head _) .here)
  obtain ⟨flat, _⟩ := template_eq_unrolled acyclic held
  exact ⟨acyclic, held, (flat (fun _ => .null) 5 (by decide)).symm⟩

end Schema

end SchemaGuide
