import SchemaGuide.Schema.Basic

/-!
A sample value for a node. Objects have all their fields, arrays as many elements as they must have, scalars their
literal or a plain value. In place of a discriminated node stand all its variants under their tags; a definition that
is being expanded already is cut off, so the expansion of definitions that refer to one another ends.
-/

namespace SchemaGuide

/-- Arrays in templates never have more elements. -/
def greatestSampleCount : Nat := 64

def sampleCount (minItems : Option Int) : Nat := min (minItems.getD 0).toNat greatestSampleCount

def Scalar.template : Scalar → Json
  | string _ literal => .str (literal.getD "")
  | number _ _ literal => .num (literal.getD (.int 0))
  | boolean literal => .bool (literal.getD false)
  | unspecified literal => literal.getD .null

namespace Node

mutual
/-- The sample of a node's own body. `expand` gives what stands in place of discriminated nodes below it. -/
def bodyTemplate (expand : Discriminator → Json) : Node → Json
  | object _ properties => .obj (fieldTemplates expand properties)
  | array _ items minItems _ =>
    match sampleCount minItems with
    | 0 => .arr []
    | more + 1 =>
      .arr (List.replicate (more + 1)
        (match items.discriminator? with
        | some d => expand d
        | none => items.bodyTemplate expand))
  | map _ _ => .obj []
  | scalar _ form => form.template

def fieldTemplates (expand : Discriminator → Json) : List (String × Node) → List (String × Json)
  | [] => []
  | (key, child) :: rest =>
    (key,
      match child.discriminator? with
      | some d => expand d
      | none => child.bodyTemplate expand) :: fieldTemplates expand rest
end

end Node

namespace Schema

/-- The names of the definitions that variants are made of. -/
def targets (schema : Schema) : List String := schema.tagged.map (·.1.target)

/-- The targets that are not being expanded. -/
def closed (schema : Schema) (expanding : List String) : List String :=
  schema.targets.filter (!expanding.contains ·)

theorem mem_targets_of_lookup {schema : Schema} {use : TagUse} {variant : Node}
    (found : schema.tagged.lookup use = some variant) : use.target ∈ schema.targets := by
  obtain ⟨before, after, entries, _⟩ := List.lookup_eq_some_iff.1 found
  exact List.mem_map.2 ⟨(use, variant), by simp [entries], rfl⟩

/-- Once one more of the names is being expanded, fewer of them are not. -/
theorem length_filter_cons_lt {names expanding : List String} {name : String} (member : name ∈ names)
    (fresh : name ∉ expanding) :
    (names.filter (!(name :: expanding).contains ·)).length < (names.filter (!expanding.contains ·)).length := by
  have narrowed : names.filter (!(name :: expanding).contains ·) =
      (names.filter (!expanding.contains ·)).filter (· ≠ name) := by
    simp only [List.filter_filter]
    congr 1
    funext other
    by_cases same : other = name <;> simp [same]
  rw [narrowed]
  exact List.length_filter_lt_length_iff_exists.2 ⟨name, by simp [member, fresh], by simp⟩

theorem closed_cons_length_lt {schema : Schema} {expanding : List String} {name : String}
    (member : name ∈ schema.targets) (fresh : name ∉ expanding) :
    (schema.closed (name :: expanding)).length < (schema.closed expanding).length :=
  length_filter_cons_lt member fresh

/-- All variants of a discriminator under their tags, each without a look at a discriminator of its own. -/
def expansion (schema : Schema) (expanding : List String) (d : Discriminator) : Json :=
  .obj <| d.tags.filterMap fun tag =>
    match d.target? tag with
    | none => none
    | some target =>
      match _found : schema.tagged.lookup ⟨target, d.property, tag⟩ with
      | none => none
      | some variant =>
        if _cut : target ∈ expanding then some (tag, .obj [])
        else some (tag, variant.bodyTemplate fun inner => schema.expansion (target :: expanding) inner)
termination_by (schema.closed expanding).length
decreasing_by exact closed_cons_length_lt (mem_targets_of_lookup _found) _cut

def template (schema : Schema) (node : Node) : Json :=
  match node.discriminator? with
  | some d => schema.expansion [] d
  | none => node.bodyTemplate (schema.expansion [])

end Schema

end SchemaGuide
