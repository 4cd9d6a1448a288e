import SchemaGuide.Proofs.TagClosure

/-! Strict builds against lenient ones. What stops the one is what the other records: the first tag without a
definition, in the order of the survey. A schema that a strict build lets through has a variant for every tag. -/

namespace SchemaGuide

namespace Survey

/-- The entry of a mapping that leads to no definition although all those before it do. Definitions come in the order of
the table, nodes before those below them, and entries in the order of their mapping. -/
inductive FirstLost (definitions : Entries Node) : LostTag → Prop where
  | at {before after : List Site} {site : Site} {known others : List (String × String)} {tag target : String}
      (reached : sites definitions = before ++ site :: after)
      (earlier : ∀ other ∈ before, ∀ entry ∈ targets other, entry.2 ∈ Entries.keys definitions)
      (listed : targets site = known ++ (tag, target) :: others)
      (found : ∀ entry ∈ known, entry.2 ∈ Entries.keys definitions)
      (absent : target ∉ Entries.keys definitions) :
      FirstLost definitions ⟨site.definition, site.location, tag, target⟩

private theorem lostTagsAt_eq_nil_iff {names : List String} {site : Site} :
    lostTagsAt names site = [] ↔ ∀ entry ∈ targets site, entry.2 ∈ names := by
  simp [lostTagsAt, List.filter_eq_nil_iff]

private theorem lostTagsAt_eq_cons {names : List String} {site : Site} {lost : LostTag} {rest : List LostTag}
    (same : lostTagsAt names site = lost :: rest) :
    ∃ known others, targets site = known ++ (lost.tag, lost.target) :: others ∧
      (∀ entry ∈ known, entry.2 ∈ names) ∧ lost.target ∉ names ∧
      lost = ⟨site.definition, site.location, lost.tag, lost.target⟩ := by
  obtain ⟨⟨tag, target⟩, others, kept, rfl, _⟩ := List.map_eq_cons_iff.mp same
  obtain ⟨known, after, split, skipped, absent, _⟩ := List.filter_eq_cons_iff.mp kept
  exact ⟨known, after, split, by simpa using skipped, by simpa using absent, rfl⟩

private theorem lostTagsAt_of_split {names : List String} {site : Site} {known others : List (String × String)}
    {tag target : String} (listed : targets site = known ++ (tag, target) :: others)
    (found : ∀ entry ∈ known, entry.2 ∈ names) (absent : target ∉ names) :
    ∃ rest, lostTagsAt names site = ⟨site.definition, site.location, tag, target⟩ :: rest := by
  have skipped : known.filter (!names.contains ·.2) = [] := by
    simpa [List.filter_eq_nil_iff] using found
  rw [lostTagsAt, listed, List.filter_append, skipped, List.nil_append, List.filter_cons_of_pos (by simpa using absent)]
  exact ⟨_, rfl⟩

theorem head?_lostTags_eq_some_iff {definitions : Entries Node} {lost : LostTag} :
    (lostTags definitions).head? = some lost ↔ FirstLost definitions lost := by
  constructor
  · intro first
    obtain ⟨rest, same⟩ := List.head?_eq_some_iff.mp first
    obtain ⟨lists, here, later, split, empty, _⟩ := List.flatten_eq_cons_iff.mp same
    obtain ⟨before, tail, reached, rfl, nonempty⟩ := List.map_eq_append_iff.mp split
    obtain ⟨site, after, rfl, lostHere, _⟩ := List.map_eq_cons_iff.mp nonempty
    obtain ⟨known, others, listed, found, absent, shape⟩ := lostTagsAt_eq_cons lostHere
    rw [shape]
    refine .at reached (fun other member => ?_) listed found absent
    exact lostTagsAt_eq_nil_iff.mp (empty _ (List.mem_map_of_mem member))
  · rintro ⟨reached, earlier, listed, found, absent⟩
    obtain ⟨rest, here⟩ := lostTagsAt_of_split listed found absent
    have silent : List.flatMap (lostTagsAt (Entries.keys definitions)) _ = [] :=
      List.flatMap_eq_nil_iff.mpr fun other member => lostTagsAt_eq_nil_iff.mpr (earlier other member)
    rw [lostTags, reached, List.flatMap_append, silent, List.nil_append, List.flatMap_cons, here]
    rfl

/-- Of the defects of a node, those of lost tags are the ones with their code. -/
private theorem filter_defectsAt (names : List String) (site : Site) :
    (defectsAt names site).filter (·.code = .unresolvedTarget) = (lostTagsAt names site).map LostTag.defect := by
  have empty : (emptyMappingAt site).filter (·.code = .unresolvedTarget) = [] := by
    unfold emptyMappingAt
    split
    · rfl
    · split <;> rfl
  have negative (code : Defect.Code) (bound : Option Int) (other : code ≠ .unresolvedTarget) :
      (negativeAt site code bound).filter (·.code = .unresolvedTarget) = [] := by
    unfold negativeAt
    split
    · rfl
    · split <;> simp [Defect.negativeBound, other]
  have bounds : (boundsAt site).filter (·.code = .unresolvedTarget) = [] := by
    unfold boundsAt
    split
    · rw [List.filter_append, negative _ _ (by decide), negative _ _ (by decide), List.append_nil]
    · rfl
  have lost : ((lostTagsAt names site).map LostTag.defect).filter (·.code = .unresolvedTarget) =
      (lostTagsAt names site).map LostTag.defect := by
    simp [List.filter_eq_self, LostTag.defect, Defect.unresolved]
  rw [defectsAt, List.filter_append, List.filter_append, empty, bounds, lost, List.nil_append, List.append_nil]

private theorem find?_defects (definitions : Entries Node) :
    (defects definitions).find? (·.code = .unresolvedTarget) = (lostTags definitions).head?.map LostTag.defect := by
  rw [← List.head?_filter, defects, List.filter_flatMap, ← List.head?_map, lostTags, List.map_flatMap]
  simp only [filter_defectsAt]

end Survey

namespace Schema

theorem keys_variants (schema : Schema) (d : Discriminator) :
    Entries.keys (schema.variants d) = d.tags.filter fun tag => (schema.variant? d tag).isSome := by
  unfold variants
  induction d.tags with
  | nil => rfl
  | cons tag tags ih =>
    cases selected : schema.variant? d tag with
    | none => simpa [selected] using ih
    | some variant => simpa [Entries.keys, selected] using ih

variable {definitions : Entries Node}

/-- The record keeps each defect once and adds others, but the first lost tag still comes first among its like. -/
theorem find?_unresolved_build (definitions : Entries Node) :
    (build definitions).defects.find? (·.code = .unresolvedTarget) =
      (Survey.lostTags definitions).head?.map LostTag.defect := by
  have others : ((Survey.tagUses definitions).filterMap (untaggableDefect? definitions)).find?
      (·.code = .unresolvedTarget) = none := by
    refine List.find?_eq_none.mpr fun defect member => ?_
    obtain ⟨use, _, made⟩ := List.mem_filterMap.mp member
    unfold untaggableDefect? at made
    split at made
    · cases made
    · split at made
      · cases made
      · cases made
        simp [Defect.untaggable]
  simp only [build]
  rw [Defect.find?_collect, List.find?_append, Survey.find?_defects, others, Option.or_none]

/-- The variants are those of the tags whose definition exists. -/
theorem Holds.keys_variants_eq_known {node : Node} {d : Discriminator} (held : (build definitions).Holds node)
    (has : node.discriminator? = some d) : Entries.keys ((build definitions).variants d) =
      d.tags.filter fun tag => (d.target? tag).any (build definitions).names.contains := by
  rw [keys_variants]
  refine List.filter_congr fun tag _ => ?_
  rw [Bool.eq_iff_iff, held.variant?_isSome_iff has]
  simp [Option.any_eq_true]

/-- Without a lost tag, every tag of every mapping has its variant. -/
theorem Holds.keys_variants_eq_tags {node : Node} {d : Discriminator} (held : (build definitions).Holds node)
    (has : node.discriminator? = some d) (complete : Survey.lostTags definitions = []) :
    Entries.keys ((build definitions).variants d) = d.tags := by
  rw [keys_variants, List.filter_eq_self]
  intro tag listed
  obtain ⟨reference, mapped⟩ := Option.isSome_iff_exists.mp (Entries.lookup_isSome_iff.mpr listed)
  have leads : d.target? tag = some (targetName reference) := by rw [Discriminator.target?, mapped, Option.map_some]
  obtain ⟨entry, present, carried⟩ := held.carried has
  obtain ⟨site, member, carries⟩ := Survey.site_with_discriminator_iff.mpr ⟨entry, present, carried⟩
  have known := Survey.lostTagsAt_eq_nil_iff.mp (List.flatMap_eq_nil_iff.mp complete site member)
    (tag, targetName reference) (by simpa [Survey.targets, carries] using Discriminator.mem_targets_of_target? leads)
  exact (held.variant?_isSome_iff has tag).mpr ⟨_, leads, by rwa [names_build]⟩

/-- A strict build refuses just the tables in which a lenient one records a lost tag, and names the first of them. Where
it succeeds it builds the same schema, and each tag of a discriminator anywhere in it has a variant. -/
theorem build?_strict_agrees (definitions : Entries Node) :
    ((∃ failure, build? true definitions = .error failure) ↔
      ∃ defect ∈ (build definitions).defects, defect.code = .unresolvedTarget) ∧
    (∀ failure, build? true definitions = .error failure → ∃ lost, Survey.FirstLost definitions lost ∧
      failure = .unresolvedReference (lost.definition ++ lost.location.text) lost.tag lost.target ∧
      (build definitions).defects.find? (·.code = .unresolvedTarget) = some lost.defect) ∧
    ∀ schema, build? true definitions = .ok schema → schema = build definitions ∧
      ∀ node d, schema.Holds node → node.discriminator? = some d → Entries.keys (schema.variants d) = d.tags := by
  have recorded : (∃ defect ∈ (build definitions).defects, defect.code = .unresolvedTarget) ↔
      ((Survey.lostTags definitions).head?.map LostTag.defect).isSome := by
    rw [← find?_unresolved_build, List.find?_isSome]
    simp only [decide_eq_true_eq]
  cases lostTags : Survey.lostTags definitions with
  | nil =>
    have built : build? true definitions = .ok (build definitions) := by simp [build?, lostTags]
    refine ⟨?_, ?_, ?_⟩
    · rw [recorded, lostTags, built]
      simp
    · intro failure failed
      rw [built] at failed
      cases failed
    · intro schema succeeded
      rw [built] at succeeded
      cases succeeded
      exact ⟨rfl, fun node d held has => held.keys_variants_eq_tags has lostTags⟩
  | cons lost rest =>
    have built : build? true definitions =
        .error (.unresolvedReference (lost.definition ++ lost.location.text) lost.tag lost.target) := by
      simp [build?, lostTags]
    have first : (Survey.lostTags definitions).head? = some lost := by rw [lostTags, List.head?_cons]
    refine ⟨?_, ?_, ?_⟩
    · rw [recorded, first, built]
      simp
    · intro failure failed
      rw [built] at failed
      cases failed
      refine ⟨lost, Survey.head?_lostTags_eq_some_iff.mp first, rfl, ?_⟩
      rw [find?_unresolved_build, first, Option.map_some]
    · intro schema succeeded
      rw [built] at succeeded
      cases succeeded

/-- Every tag of `mappedLeaf` has its definition. -/
def mappedLeaf : Entries Node :=
  [("tree", .map {} (.scalar { discriminator := some byType } Node.anyString)), ("leaf", .object {} [])]

/-- In `sharedLeaf` the elements of the tree are the first to have a tag that leads nowhere; `mappedLeaf` passes, and its
discriminator has the one variant that it names. -/
theorem build?_strict_agrees_leaves :
    (∃ lost, build? true sharedLeaf = .error (.unresolvedReference "tree[]" "gone" "nowhere") ∧
      Survey.FirstLost sharedLeaf lost ∧ lost.tag = "gone" ∧
      (build sharedLeaf).defects.find? (·.code = .unresolvedTarget) = some lost.defect) ∧
    build? true mappedLeaf = .ok (build mappedLeaf) ∧
    Entries.keys ((build mappedLeaf).variants byType) = ["l"] := by
  have failed : build? true sharedLeaf = .error (.unresolvedReference "tree[]" "gone" "nowhere") := by rfl
  have passed : build? true mappedLeaf = .ok (build mappedLeaf) := by rfl
  obtain ⟨lost, first, named, recorded⟩ := (build?_strict_agrees sharedLeaf).2.1 _ failed
  injection named with owner tag target
  have held : (build mappedLeaf).Holds (.scalar { discriminator := some byType } Node.anyString) :=
    .inl ⟨("tree", .map {} (.scalar { discriminator := some byType } Node.anyString)), .head _, .values .here⟩
  obtain ⟨_, complete⟩ := (build?_strict_agrees mappedLeaf).2.2 _ passed
  exact ⟨⟨lost, failed, first, tag.symm, recorded⟩, passed, complete _ byType held rfl⟩

end Schema

end SchemaGuide
