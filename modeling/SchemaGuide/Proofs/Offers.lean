import Mathlib.Data.Set.Finite.Basic
import SchemaGuide.Editor
import SchemaGuide.Proofs.Governance

/-! What stands behind an offer. Offers are made of the body of a node or of its tags, while navigation goes by the
document; both agree on the variant in force, so where an accepted offer would stand navigation finds the node whose
sample the offer carries. -/

namespace SchemaGuide

namespace Offer

variable {offer next : Offer} {kept offers : List Offer} {key : String}

/-- An offer joins those that are kept unless one of them has its key. -/
def add (kept : List Offer) (next : Offer) : List Offer :=
  if kept.any (·.key = next.key) then kept else kept ++ [next]

private theorem any_key_iff : kept.any (·.key = key) ↔ key ∈ kept.map Offer.key := by
  simp [List.any_eq_true]

theorem add_of_notMem (fresh : next.key ∉ kept.map Offer.key) : add kept next = kept ++ [next] := by
  rw [add, if_neg (mt any_key_iff.mp fresh)]

theorem add_of_mem (taken : next.key ∈ kept.map Offer.key) : add kept next = kept := by
  rw [add, if_pos (any_key_iff.mpr taken)]

theorem mem_of_mem_distinct (member : offer ∈ distinct offers) : offer ∈ offers := by
  suffices ∀ kept, offer ∈ offers.foldl add kept → offer ∈ kept ∨ offer ∈ offers from
    (this [] member).resolve_left List.not_mem_nil
  clear member
  induction offers with
  | nil => exact fun _ member => .inl member
  | cons next rest ih =>
    intro kept member
    by_cases taken : next.key ∈ kept.map Offer.key
    · rw [List.foldl_cons, add_of_mem taken] at member
      exact (ih kept member).imp_right (List.mem_cons_of_mem next)
    · rw [List.foldl_cons, add_of_notMem taken] at member
      have split := ih _ member
      rw [List.mem_append, List.mem_singleton, or_assoc] at split
      rwa [List.mem_cons]

/-- No key is lost with the offers that are left out. -/
theorem exists_mem_distinct (member : offer ∈ offers) : ∃ kept ∈ distinct offers, kept.key = offer.key := by
  suffices ∀ kept, offer.key ∈ kept.map Offer.key ∨ offer ∈ offers → offer.key ∈ (offers.foldl add kept).map Offer.key from
    List.mem_map.mp (this [] (.inr member))
  clear member
  induction offers with
  | nil => exact fun _ held => held.resolve_right List.not_mem_nil
  | cons next rest ih =>
    intro kept held
    apply ih
    by_cases taken : next.key ∈ kept.map Offer.key
    · rw [add_of_mem taken]
      rcases held with earlier | member
      · exact .inl earlier
      · exact (List.mem_cons.mp member).imp_left fun same => by rwa [same]
    · rw [add_of_notMem taken, List.map_append]
      rcases held with earlier | member
      · exact .inl (List.mem_append_left _ earlier)
      · refine (List.mem_cons.mp member).imp_left fun same => List.mem_append_right _ ?_
        rw [same]
        exact List.mem_singleton_self next.key

/-- No two of the offers that stay have one key. -/
theorem nodup_keys_distinct (offers : List Offer) : ((distinct offers).map Offer.key).Nodup := by
  suffices ∀ kept : List Offer, (kept.map Offer.key).Nodup → ((offers.foldl add kept).map Offer.key).Nodup from
    this [] List.nodup_nil
  induction offers with
  | nil => exact fun _ apart => apart
  | cons next rest ih =>
    intro kept apart
    apply ih
    by_cases taken : next.key ∈ kept.map Offer.key
    · rwa [add_of_mem taken]
    · rw [add_of_notMem taken, List.map_append, List.map_singleton, ← List.concat_eq_append]
      exact apart.concat taken

private theorem mem_keys_distinct : key ∈ (distinct offers).map Offer.key ↔ key ∈ offers.map Offer.key := by
  constructor
  · intro stays
    obtain ⟨offer, member, rfl⟩ := List.mem_map.mp stays
    exact List.mem_map_of_mem (mem_of_mem_distinct member)
  · intro listed
    obtain ⟨offer, member, rfl⟩ := List.mem_map.mp listed
    exact List.mem_map.mpr (exists_mem_distinct member)

/-- What comes first stays, and of what follows it those offers are added whose keys are still free. -/
theorem mem_distinct_append {first second : List Offer} : offer ∈ distinct (first ++ second) ↔
    offer ∈ distinct first ∨ offer ∈ distinct second ∧ offer.key ∉ first.map Offer.key := by
  suffices ∀ kept, offer ∈ second.foldl add kept ↔ offer ∈ kept ∨ offer ∈ distinct second ∧ offer.key ∉ kept.map Offer.key by
    rw [distinct, List.foldl_append, ← mem_keys_distinct]
    exact this (distinct first)
  induction second with
  | nil => simp [distinct]
  | cons next rest ih =>
    intro kept
    -- In a list by itself the rest is added to the first offer.
    have alone : offer ∈ distinct (next :: rest) ↔ offer = next ∨ offer ∈ distinct rest ∧ offer.key ≠ next.key := by
      refine (ih [next]).trans ?_
      rw [List.mem_singleton, List.map_singleton, List.mem_singleton]
    rw [alone, List.foldl_cons]
    by_cases taken : next.key ∈ kept.map Offer.key
    · have apart : offer.key ∉ kept.map Offer.key → offer.key ≠ next.key := fun free same => free (same ▸ taken)
      rw [add_of_mem taken, ih]
      grind
    · rw [add_of_notMem taken, ih, List.mem_append, List.map_append, List.mem_append, List.mem_singleton, List.map_singleton,
        List.mem_singleton]
      grind

/-- Where no two offers have one key, none is left out. -/
theorem distinct_eq_self (apart : (offers.map Offer.key).Nodup) : distinct offers = offers := by
  suffices ∀ kept : List Offer, ((kept ++ offers).map Offer.key).Nodup → offers.foldl add kept = kept ++ offers from
    this [] apart
  clear apart
  induction offers with
  | nil => exact fun kept _ => (List.append_nil kept).symm
  | cons next rest ih =>
    intro kept apart
    have fresh : next.key ∉ kept.map Offer.key := by
      intro taken
      rw [List.map_append, List.nodup_append] at apart
      exact apart.2.2 next.key taken next.key List.mem_cons_self rfl
    have moved : kept ++ next :: rest = kept ++ [next] ++ rest := List.append_cons kept next rest
    rw [List.foldl_cons, add_of_notMem fresh, moved]
    exact ih _ (moved ▸ apart)

end Offer

namespace Schema

variable {schema : Schema} {node : Node} {value : Option Json} {offer : Offer} {suffix parent field : String}
  {d : Discriminator}

theorem mem_variantOffers {repeatable : Bool} : offer ∈ schema.variantOffers d field repeatable ↔
    ∃ tag variant, tag ∈ d.tags ∧ schema.variant? d tag = some variant ∧
      offer = ⟨if repeatable then tag else field ++ "-" ++ tag, field, Offer.sampleDescription field,
        schema.template variant, repeatable⟩ := by
  rw [variantOffers, List.mem_map]
  constructor
  · intro made
    obtain ⟨⟨tag, variant⟩, listed, rfl⟩ := made
    obtain ⟨known, selected⟩ := mem_variants.mp listed
    exact ⟨tag, variant, known, selected, rfl⟩
  · intro made
    obtain ⟨tag, variant, known, selected, rfl⟩ := made
    exact ⟨(tag, variant), mem_variants.mpr ⟨known, selected⟩, rfl⟩

/-- The offers of a choice, be it of elements or of the variant itself, go by their tags. -/
theorem mem_choice (member : offer ∈ schema.variantOffers d field true) :
    ∃ variant, schema.variant? d offer.key = some variant ∧ offer.value = schema.template variant := by
  obtain ⟨tag, variant, _, selected, rfl⟩ := mem_variantOffers.mp member
  exact ⟨variant, selected, rfl⟩

theorem mem_fieldOffers (member : offer ∈ schema.fieldOffers field node) :
    offer.field = field ∧ offer.repeatable = false ∧
      (node.discriminator? = none ∧ offer.value = schema.template node ∨
        ∃ d tag variant, node.discriminator? = some d ∧ schema.variant? d tag = some variant ∧
          offer.key = field ++ "-" ++ tag ∧ offer.value = schema.template variant) := by
  unfold fieldOffers at member
  split at member
  next d has =>
    obtain ⟨tag, variant, _, selected, rfl⟩ := mem_variantOffers.mp member
    exact ⟨rfl, rfl, .inr ⟨d, tag, variant, has, selected, rfl, rfl⟩⟩
  next plain =>
    cases List.mem_singleton.mp member
    exact ⟨rfl, rfl, .inl ⟨plain, rfl⟩⟩

theorem mem_sampleOffers (member : offer ∈ schema.sampleOffers suffix parent node) :
    node.discriminator? = none ∧ offer.value = schema.template node ∨
      ∃ d variant, node.discriminator? = some d ∧ schema.variant? d offer.key = some variant ∧
        offer.value = schema.template variant := by
  unfold sampleOffers at member
  split at member
  next d has =>
    obtain ⟨variant, selected, same⟩ := mem_choice member
    exact .inr ⟨d, variant, has, selected, same⟩
  next plain =>
    cases List.mem_singleton.mp member
    exact .inl ⟨plain, rfl⟩

theorem mem_bodyOffers_object {header : Header} {properties : Entries Node} :
    offer ∈ schema.bodyOffers suffix parent (.object header properties) ↔
      ∃ child, (offer.field, child) ∈ properties ∧ (Node.object header properties).isReadOnly offer.field = false ∧
        offer ∈ schema.fieldOffers offer.field child := by
  rw [bodyOffers, List.mem_flatMap]
  constructor
  · intro made
    obtain ⟨⟨field, child⟩, listed, member⟩ := made
    obtain ⟨declared, free⟩ := List.mem_filter.mp listed
    have same : offer.field = field := (mem_fieldOffers member).1
    subst same
    exact ⟨child, declared, by simpa using free, member⟩
  · intro made
    obtain ⟨child, declared, free, member⟩ := made
    exact ⟨(offer.field, child), List.mem_filter.mpr ⟨declared, by simpa using free⟩, member⟩

theorem bodyOffers_of_sample? {element : Node} (holds : node.sample? = some element) :
    schema.bodyOffers suffix parent node = schema.sampleOffers suffix parent element := by
  cases node with
  | array | map =>
    cases holds
    rfl
  | object | scalar => cases holds

theorem nodeOffers_of_settled (settled : schema.Settled node value) :
    schema.nodeOffers suffix parent node value = schema.bodyOffers suffix parent (schema.governing node value) := by
  unfold nodeOffers governing
  cases has : node.discriminator? with
  | none => rfl
  | some d =>
    obtain ⟨variant, selected⟩ := Option.isSome_iff_exists.mp (settled.resolve_left (by simp [has]))
    rw [selected]

theorem nodeOffers_of_unselected (has : node.discriminator? = some d) (unselected : schema.selected? node value = none) :
    schema.nodeOffers suffix parent node value = schema.variantOffers d parent true := by
  rw [nodeOffers, has, unselected]

theorem settled_or_unselected (schema : Schema) (node : Node) (value : Option Json) :
    schema.Settled node value ∨ ∃ d, node.discriminator? = some d ∧ schema.selected? node value = none := by
  cases has : node.discriminator? with
  | none => exact .inl (.inl has)
  | some d =>
    cases selected : schema.selected? node value with
    | none => exact .inr ⟨d, rfl, rfl⟩
    | some variant => exact .inl (.inr (by rw [selected]; rfl))

/-- The keys in use at a place, none where nothing stands. -/
def inUse (value : Option Json) : List String := (value.map Json.usedKeys).getD []

/-- Where navigation succeeds there are offers, each of which the node makes and of which no other takes the field. -/
theorem offers_of_nodeAt {group : String} {path : Path} {document : Json}
    (reached : schema.nodeAt group path (some document) = .ok node) :
    ∃ offers parent, schema.offers suffix group path document = .ok offers ∧
      (∀ offer ∈ offers, offer ∈ schema.nodeOffers suffix parent node (document.at? path) ∧
        (offer.repeatable = false → offer.field ∉ inUse (document.at? path))) ∧
      ∀ offer ∈ schema.nodeOffers suffix parent node (document.at? path),
        (offer.repeatable = false → offer.field ∉ inUse (document.at? path)) → ∃ kept ∈ offers, kept.key = offer.key := by
  unfold offers
  rw [reached]
  refine ⟨_, (path.getLast?.map Step.text).getD group, rfl, ?_, ?_⟩
  · intro offer member
    obtain ⟨made, free⟩ := List.mem_filter.mp (Offer.mem_of_mem_distinct member)
    refine ⟨made, ?_⟩
    intro once
    simpa [once, inUse] using free
  · intro offer made free
    apply Offer.exists_mem_distinct
    apply List.mem_filter.mpr
    refine ⟨made, ?_⟩
    cases once : offer.repeatable with
    | true => rfl
    | false => simpa [inUse] using free once

end Schema

/-- Where an accepted offer stands, as seen from the place it is made for: in place of an open choice, as a field, or as
any element or entry. A variant stands under its tag. -/
inductive Offer.StandsAt (schema : Schema) (node : Node) (value : Option Json) (offer : Offer) : Path → Prop where
  | choice {d : Discriminator} (has : node.discriminator? = some d) (unselected : schema.selected? node value = none) :
      StandsAt schema node value offer [.key offer.key]
  | field {child : Node} (settled : schema.Settled node value)
      (declared : (schema.governing node value).property? offer.field = some child)
      (plain : child.discriminator? = none) : StandsAt schema node value offer [.key offer.field]
  | fieldVariant {child : Node} {d : Discriminator} {tag : String} (settled : schema.Settled node value)
      (declared : (schema.governing node value).property? offer.field = some child)
      (has : child.discriminator? = some d) (named : offer.key = offer.field ++ "-" ++ tag) :
      StandsAt schema node value offer [.key offer.field, .key tag]
  | sample {element : Node} {step : Step} (settled : schema.Settled node value)
      (holds : (schema.governing node value).sample? = some element) (plain : element.discriminator? = none)
      (legal : (Schema.below? (schema.governing node value) step).isSome) : StandsAt schema node value offer [step]
  | sampleVariant {element : Node} {d : Discriminator} {step : Step} (settled : schema.Settled node value)
      (holds : (schema.governing node value).sample? = some element) (has : element.discriminator? = some d)
      (legal : (Schema.below? (schema.governing node value) step).isSome)
      (absent : value.bind (·.child? step) = none) : StandsAt schema node value offer [step, .key offer.key]

namespace Schema

variable {schema : Schema} {node : Node} {value : Option Json} {offer : Offer} {suffix parent : String}

private theorem descend_variant {child variant : Node} {d : Discriminator} {step : Step} {tag : String}
    (entered : schema.enter? (schema.governing node value) step = some child) (absent : value.bind (·.child? step) = none)
    (has : child.discriminator? = some d) (selected : schema.variant? d tag = some variant) :
    schema.descend node value [step, .key tag] = .ok variant := by
  refine descend_cons_eq_ok_iff.mpr ⟨child, entered, ?_⟩
  have unselected : schema.governing child (value.bind (·.child? step)) = child := by
    rw [absent]
    exact governing_of_unselected (by simp [selected?])
  exact descend_singleton (unselected.symm ▸ enter?_of_variant has selected)

private theorem below?_sample {rule element : Node} {step : Step} (holds : rule.sample? = some element)
    (legal : (below? rule step).isSome) : below? rule step = some element := by
  cases rule with
  | object | scalar => cases holds
  | array header items minItems maxItems =>
    cases holds
    obtain ⟨next, entered⟩ := Option.isSome_iff_exists.mp legal
    obtain ⟨position, place, rfl⟩ := Option.map_eq_some_iff.mp entered
    exact entered
  | map header values =>
    cases holds
    rfl

private theorem absent_of_notMem_inUse {child : Node} {field : String}
    (shaped : ∀ elements, value = some (.arr elements) → node.kind = .array)
    (declared : (schema.governing node value).property? field = some child) (free : field ∉ inUse value) :
    value.bind (·.child? (.key field)) = none := by
  match value with
  | some (.obj members) => exact Entries.lookup_eq_none_iff.mpr free
  | some (.arr elements) =>
    -- Navigation would read the field's numeral as a place in the array, but no array stands where fields are declared.
    have unselected : schema.selected? node (some (.arr elements)) = none := by
      cases has : node.discriminator? <;> simp [selected?, has, Json.tag?, Json.member?, Json.members?]
    rw [governing_of_unselected unselected] at declared
    have kind := shaped elements rfl
    cases node with
    | object => cases kind
    | array | map | scalar => cases declared
  | none | some .null | some (.bool _) | some (.num _) | some (.str _) => rfl

private theorem exists_absent {rule element : Node} (holds : rule.sample? = some element) (value : Option Json) :
    ∃ step, (below? rule step).isSome ∧ value.bind (·.child? step) = none := by
  have legal (position : Nat) : (below? rule (.index position)).isSome := by
    cases rule with
    | array | map => rfl
    | object | scalar => cases holds
  have unused : ∃ position : Nat, value.bind (·.child? (.index position)) = none := by
    match value with
    | some (.obj members) =>
      -- An object may have any number of numerals among its keys, but not all of them.
      have finite : {position : Nat | position.repr ∈ Entries.keys members}.Finite :=
        (List.finite_toSet (Entries.keys members)).preimage (fun _ _ _ _ same => Numeral.eq_of_repr_eq same)
      obtain ⟨position, fresh⟩ := finite.exists_notMem
      exact ⟨position, Entries.lookup_eq_none_iff.mpr fresh⟩
    | some (.arr elements) => exact ⟨elements.length, List.getElem?_eq_none (Nat.le_refl _)⟩
    | none | some .null | some (.bool _) | some (.num _) | some (.str _) => exact ⟨0, rfl⟩
  obtain ⟨position, absent⟩ := unused
  exact ⟨.index position, legal position, absent⟩

variable (variants : schema.WellFormedVariants)
  (fields : node.WellFormed)

include variants fields

private theorem mem_fieldOffers_of_declared (settled : schema.Settled node value)
    (made : offer ∈ schema.nodeOffers suffix parent node value) {child : Node}
    (declared : (schema.governing node value).property? offer.field = some child) :
    below? (schema.governing node value) (.key offer.field) = some child ∧ offer ∈ schema.fieldOffers offer.field child := by
  have ruleFields := wellFormed_governing fields variants value
  rw [nodeOffers_of_settled settled] at made
  generalize schema.governing node value = rule at ruleFields made declared ⊢
  cases rule with
  | object header properties =>
    obtain ⟨other, member, _, made⟩ := mem_bodyOffers_object.mp made
    cases declared.symm.trans ((ruleFields header properties .here).lookup_of_mem member)
    exact ⟨declared, made⟩
  | array | map | scalar => cases declared

/-- Every offer of a node has a place to stand. -/
theorem exists_standsAt (made : offer ∈ schema.nodeOffers suffix parent node value) :
    ∃ rest, offer.StandsAt schema node value rest := by
  rcases schema.settled_or_unselected node value with settled | ⟨d, has, unselected⟩
  · have ruleFields := wellFormed_governing fields variants value
    rw [nodeOffers_of_settled settled] at made
    cases rules : schema.governing node value with
    | object header properties =>
      rw [rules] at made ruleFields
      obtain ⟨child, member, _, made⟩ := mem_bodyOffers_object.mp made
      have declared : (schema.governing node value).property? offer.field = some child := by
        rw [rules]
        exact (ruleFields header properties .here).lookup_of_mem member
      obtain ⟨_, _, ⟨own, _⟩ | ⟨d, tag, _, has, _, named, _⟩⟩ := mem_fieldOffers made
      · exact ⟨_, .field settled declared own⟩
      · exact ⟨_, .fieldVariant settled declared has named⟩
    | array _ element _ _ | map _ element =>
      have holds : (schema.governing node value).sample? = some element := by
        rw [rules]
        rfl
      obtain ⟨step, legal, absent⟩ := exists_absent holds value
      cases has : element.discriminator? with
      | none => exact ⟨_, .sample settled holds has legal⟩
      | some d => exact ⟨_, .sampleVariant settled holds has legal absent⟩
    | scalar header form =>
      rw [rules] at made
      cases made
  · exact ⟨_, .choice has unselected⟩

/-- Where an offer of a node stands, navigation finds the node whose sample it is. -/
theorem descend_of_standsAt (plain : schema.PlainVariants)
    (shaped : ∀ elements, value = some (.arr elements) → node.kind = .array)
    (made : offer ∈ schema.nodeOffers suffix parent node value)
    (free : offer.repeatable = false → offer.field ∉ inUse value) {rest : Path}
    (stands : offer.StandsAt schema node value rest) :
    ∃ target, schema.descend node value rest = .ok target ∧ schema.template target = offer.value := by
  have enters {step : Step} {next : Node} (settled : schema.Settled node value)
      (below : below? (schema.governing node value) step = some next) :
      schema.enter? (schema.governing node value) step = some next :=
    (enter?_of_plain (plain.governing_plain settled) step).trans below
  cases stands with
  | choice has unselected =>
    rw [nodeOffers_of_unselected has unselected] at made
    obtain ⟨variant, selected, same⟩ := mem_choice made
    refine ⟨variant, descend_singleton ?_, same.symm⟩
    rw [governing_of_unselected unselected]
    exact enter?_of_variant has selected
  | @field child settled declared own =>
    obtain ⟨below, made⟩ := mem_fieldOffers_of_declared variants fields settled made declared
    obtain ⟨_, _, ⟨_, same⟩ | ⟨d, _, _, has, _⟩⟩ := mem_fieldOffers made
    · exact ⟨child, descend_singleton (enters settled below), same.symm⟩
    · cases own.symm.trans has
  | @fieldVariant child d tag settled declared has named =>
    obtain ⟨below, made⟩ := mem_fieldOffers_of_declared variants fields settled made declared
    obtain ⟨_, once, ⟨own, _⟩ | ⟨other, _, variant, same, selected, key, template⟩⟩ := mem_fieldOffers made
    · cases own.symm.trans has
    · cases has.symm.trans same
      have tags := (String.append_right_inj _).mp (named.symm.trans key)
      have absent := absent_of_notMem_inUse shaped declared (free once)
      exact ⟨variant, descend_variant (enters settled below) absent has (tags ▸ selected), template.symm⟩
  | @sample element step settled holds own legal =>
    rw [nodeOffers_of_settled settled, bodyOffers_of_sample? holds] at made
    obtain ⟨_, same⟩ | ⟨d, _, has, _⟩ := mem_sampleOffers made
    · exact ⟨element, descend_singleton (enters settled (below?_sample holds legal)), same.symm⟩
    · cases own.symm.trans has
  | @sampleVariant element d step settled holds has legal absent =>
    rw [nodeOffers_of_settled settled, bodyOffers_of_sample? holds] at made
    obtain ⟨own, _⟩ | ⟨other, variant, same, selected, template⟩ := mem_sampleOffers made
    · cases own.symm.trans has
    · cases has.symm.trans same
      have entered := enters settled (below?_sample holds legal)
      exact ⟨variant, descend_variant entered absent has selected, template.symm⟩

end Schema

namespace Editor

/-- Every offer at a path has a place to stand, and wherever it stands its value is what the editor previews there. -/
theorem offers_eq_previews {editor : Editor} {definitions : Entries Node} {document : Json} {path : Path} {node : Node}
    (built : editor.schema = Schema.build definitions) (fields : ∀ entry ∈ definitions, entry.2.WellFormed)
    (targets : PlainTargets definitions) (reached : editor.nodeAt path (some document) = .ok node)
    (shaped : ∀ elements, document.at? path = some (.arr elements) → node.kind = .array) :
    ∃ offers, editor.offers path document = .ok offers ∧ ∀ offer ∈ offers,
      (∃ rest, offer.StandsAt editor.schema node (document.at? path) rest) ∧
      ∀ rest, offer.StandsAt editor.schema node (document.at? path) rest →
        ∃ preview, editor.preview (path ++ rest) (some document) = .ok preview ∧ preview.sample = offer.value := by
  have reached : editor.schema.nodeAt editor.root path (some document) = .ok node := reached
  obtain ⟨offers, parent, made, origin, _⟩ := Schema.offers_of_nodeAt reached
  have plain : editor.schema.PlainVariants := built ▸ Schema.plainVariants_build targets
  have variants : editor.schema.WellFormedVariants := built ▸ Schema.wellFormedVariants_build fields
  have nodeFields : node.WellFormed := by
    obtain ⟨root, found, walked⟩ := Schema.nodeAt_eq_ok_iff.mp reached
    rw [built] at found
    exact Schema.wellFormed_of_descend variants (Schema.wellFormed_of_definition? fields found) walked
  refine ⟨offers, made, ?_⟩
  intro offer member
  obtain ⟨offered, free⟩ := origin offer member
  refine ⟨Schema.exists_standsAt variants nodeFields offered, ?_⟩
  intro rest stands
  obtain ⟨target, walked, sample⟩ := Schema.descend_of_standsAt variants nodeFields plain shaped offered free stands
  refine ⟨⟨target, editor.schema.template target⟩, ?_, sample⟩
  have arrived : editor.nodeAt (path ++ rest) (some document) = .ok target :=
    Schema.nodeAt_append_eq_ok_iff.mpr ⟨_, reached, walked⟩
  rw [preview, arrived]
  rfl

def gallery : Entries Node :=
  let text : Node := .scalar {} Node.anyString
  let picture : Node := .scalar { discriminator := some ⟨"kind", [("photo", "#/definitions/photo")]⟩ } Node.anyString
  [("gallery", .object {} [("title", text), ("cover", picture), ("frames", .array {} picture none none)]),
    ("photo", .object {} [("size", text), ("next", picture)])]

def opening : Json := .obj [("frames", .arr [.obj [("kind", .str "photo")], .null]), ("title", .str "t")]

/-- A variant as a field, and one as an element at a place that is still free. -/
theorem offers_eq_previews_gallery :
    (∃ offers preview, (Editor.mk (Schema.build gallery) "gallery" standardSuffix).offers [] opening = .ok offers ∧
      offers.map Offer.key = ["cover-photo"] ∧
      (Editor.mk (Schema.build gallery) "gallery" standardSuffix).preview [.key "cover", .key "photo"] (some opening) =
        .ok preview ∧ offers.map Offer.value = [preview.sample]) ∧
    ∃ offers preview,
      (Editor.mk (Schema.build gallery) "gallery" standardSuffix).offers [.key "frames"] opening = .ok offers ∧
      offers.map Offer.key = ["photo"] ∧
      (Editor.mk (Schema.build gallery) "gallery" standardSuffix).preview [.key "frames", .index 2, .key "photo"]
        (some opening) = .ok preview ∧ offers.map Offer.value = [preview.sample] := by
  have fields : ∀ entry ∈ gallery, entry.2.WellFormed := by simp [gallery, Entries.Distinct, Entries.keys]
  constructor
  · have reached : (Editor.mk (Schema.build gallery) "gallery" standardSuffix).nodeAt [] (some opening) = .ok _ := rfl
    obtain ⟨offers, made, stands⟩ := offers_eq_previews rfl fields (by decide) reached (by intro _ shape; cases shape)
    cases made
    obtain ⟨preview, found, same⟩ := (stands _ (.head _)).2 _ (.fieldVariant (.inl rfl) rfl rfl rfl)
    exact ⟨_, preview, rfl, rfl, found, congrArg (fun value => [value]) same.symm⟩
  · have reached : (Editor.mk (Schema.build gallery) "gallery" standardSuffix).nodeAt [.key "frames"] (some opening) =
        .ok _ := rfl
    obtain ⟨offers, made, stands⟩ := offers_eq_previews rfl fields (by decide) reached fun _ _ => rfl
    cases made
    have absent : (opening.at? [.key "frames"]).bind (·.child? (.index 2)) = none := rfl
    obtain ⟨preview, found, same⟩ := (stands _ (.head _)).2 _ (.sampleVariant (.inl rfl) rfl rfl rfl absent)
    exact ⟨_, preview, rfl, rfl, found, congrArg (fun value => [value]) same.symm⟩

end Editor

end SchemaGuide
