import Mathlib.Data.List.Forall2
import SchemaGuide.Proofs.Completion
import SchemaGuide.Proofs.Strictness

/-! The menu of an object. It is keyed by names that are put together, while what the object has is looked up by field; so
a name may come up for another field, but never for one that is there. Where no two choices have one name, the menu has
just the choices that are open, in their order. -/

namespace SchemaGuide

/-- What may be added to an object: a field or, where the field has a choice, one tag of it. -/
structure MenuEntry where
  field : String
  tag : Option String
  deriving DecidableEq

def MenuEntry.key : MenuEntry → String
  | ⟨field, none⟩ => field
  | ⟨field, some tag⟩ => field ++ "-" ++ tag

/-- No discriminator in the node, at any depth, has a tag twice. -/
def Node.DistinctTags (node : Node) : Prop := ∀ d, node.Carries d → Entries.Distinct d.mapping

theorem Node.distinctTags_iff {node : Node} : node.DistinctTags ↔
    ∀ occurrence ∈ node.occurrences, ∀ d ∈ occurrence.2.discriminator?, Entries.Distinct d.mapping := by
  constructor
  · intro distinct occurrence occurs d has
    exact distinct d ⟨occurrence.2, mem_occurrences_iff.mp ⟨occurrence.1, occurs⟩, has⟩
  · intro distinct d carried
    obtain ⟨inner, inside, has⟩ := carried
    obtain ⟨location, occurs⟩ := mem_occurrences_iff.mpr inside
    exact distinct (location, inner) occurs d has

instance (node : Node) : Decidable node.DistinctTags := decidable_of_iff' _ Node.distinctTags_iff

namespace Schema

variable {schema : Schema} {definitions : Entries Node} {node rule : Node} {value : Option Json}

/-- The ways to add a field: as it is or, where it has a choice, with any tag whose definition exists. -/
def fieldEntries (schema : Schema) (field : String) (node : Node) : List MenuEntry :=
  match node.discriminator? with
  | none => [⟨field, none⟩]
  | some d => (d.tags.filter fun tag => (d.target? tag).any schema.names.contains).map fun tag => ⟨field, some tag⟩

/-- All that an object still takes, in the order of the fields and then of their tags. -/
def openEntries (schema : Schema) (rule : Node) (value : Option Json) : List MenuEntry :=
  (openFields rule value).flatMap fun entry => schema.fieldEntries entry.1 entry.2

/-- The offer is what a menu says of the entry: how it is called and what is added. -/
inductive Serves (schema : Schema) (rule : Node) : MenuEntry → Offer → Prop where
  | plain {field : String} {node : Node} (declared : rule.property? field = some node) (own : node.discriminator? = none) :
      Serves schema rule ⟨field, none⟩ ⟨field, field, node.header.description.getD "", schema.template node, false⟩
  | variant {field tag : String} {node variant : Node} {d : Discriminator} (declared : rule.property? field = some node)
      (has : node.discriminator? = some d) (led : schema.mapped? d tag = some variant) :
      Serves schema rule ⟨field, some tag⟩
        ⟨field ++ "-" ++ tag, field, Offer.sampleDescription field, schema.template variant, false⟩

theorem Serves.key {entry : MenuEntry} {offer : Offer} (serves : schema.Serves rule entry offer) : offer.key = entry.key := by
  cases serves <;> rfl

theorem field_of_mem_fieldEntries {field : String} {entry : MenuEntry} (member : entry ∈ schema.fieldEntries field node) :
    entry.field = field := by
  unfold fieldEntries at member
  split at member
  · rw [List.mem_singleton.mp member]
  · obtain ⟨tag, _, rfl⟩ := List.mem_map.mp member
    rfl

/-- A field of a node of the schema is offered in every way there is to add it, one after the other. -/
theorem serves_fieldOffers {field : String} (held : (build definitions).Holds node)
    (declared : rule.property? field = some node) :
    List.Forall₂ ((build definitions).Serves rule) ((build definitions).fieldEntries field node)
      ((build definitions).fieldOffers field node) := by
  unfold fieldEntries fieldOffers
  cases has : node.discriminator? with
  | none => exact .cons (.plain declared has) .nil
  | some d =>
    simp only [variantOffers, ← held.keys_variants_eq_known has, Entries.keys, List.map_map, List.forall₂_map_left_iff,
      List.forall₂_map_right_iff, List.forall₂_same]
    intro variant listed
    exact .variant declared has ((held.variant?_eq_mapped? has variant.1).symm.trans (mem_variants.mp listed).2)

theorem declared_of_mem_openFields (fields : rule.WellFormed) {entry : String × Node} (listed : entry ∈ openFields rule value) :
    rule.property? entry.1 = some entry.2 := by
  have declared := (List.mem_filter.mp listed).1
  cases rule with
  | object header properties => exact (fields header properties .here).lookup_of_mem declared
  | array | map | scalar => cases declared

theorem keys_of_serves {entries : List MenuEntry} {offers : List Offer}
    (serves : List.Forall₂ (schema.Serves rule) entries offers) : offers.map Offer.key = entries.map MenuEntry.key := by
  induction serves with
  | nil => rfl
  | cons first _ ih => rw [List.map_cons, List.map_cons, first.key, ih]

/-- What is offered for the open fields is what there is to add, entry by entry. -/
theorem serves_openEntries (value : Option Json) (fields : rule.WellFormed) (held : (build definitions).Holds rule) :
    List.Forall₂ ((build definitions).Serves rule) ((build definitions).openEntries rule value)
      ((openFields rule value).flatMap fun entry => (build definitions).fieldOffers entry.1 entry.2) := by
  have same : List.Forall₂ (fun one other => one = other ∧ one ∈ openFields rule value)
      (openFields rule value) (openFields rule value) := List.forall₂_same.mpr fun _ listed => ⟨rfl, listed⟩
  refine List.rel_flatMap same ?_
  intro entry _ paired
  obtain ⟨rfl, listed⟩ := paired
  have declared := declared_of_mem_openFields fields listed
  exact serves_fieldOffers (held.of_within (within_of_property? declared)) declared

/-- Nothing is to be added in one way twice. -/
theorem nodup_openEntries (value : Option Json) (fields : rule.WellFormed) (held : (build definitions).Holds rule)
    (tags : ∀ entry ∈ definitions, entry.2.DistinctTags) : ((build definitions).openEntries rule value).Nodup := by
  have distinct : (openFields rule value).Distinct := by
    cases rule with
    | object header properties => exact (fields header properties .here).sublist (List.filter_sublist.map Prod.fst)
    | array | map | scalar => exact List.nodup_nil
  refine List.nodup_flatMap.mpr ⟨?_, ?_⟩
  · intro entry listed
    have inside := held.of_within (within_of_property? (declared_of_mem_openFields fields listed))
    unfold fieldEntries
    split
    · exact List.nodup_singleton _
    next d has =>
      obtain ⟨source, present, carried⟩ := inside.carried has
      have apart : d.tags.Nodup := tags source present d carried
      exact (apart.filter _).map fun one other same => Option.some.inj (congrArg MenuEntry.tag same)
  · refine (List.pairwise_map.mp distinct).imp ?_
    intro first second apart entry one other
    exact apart ((field_of_mem_fieldEntries one).symm.trans (field_of_mem_fieldEntries other))

/-- Where no two open entries share a key, each of them has its offer. -/
theorem exists_offers_of_apart {suffix group : String} {document : Json} {path : Path} (fields : rule.WellFormed)
    (held : (build definitions).Holds rule) (tags : ∀ entry ∈ definitions, entry.2.DistinctTags)
    (reached : (build definitions).nodeAt group path (some document) = .ok node)
    (settled : (build definitions).Settled node (document.at? path))
    (governs : (build definitions).governing node (document.at? path) = rule) (kind : rule.kind = .object)
    (shaped : ∀ given, document.at? path = some given → ∃ members, given = .obj members)
    (apart : ∀ one ∈ (build definitions).openEntries rule (document.at? path),
      ∀ other ∈ (build definitions).openEntries rule (document.at? path), one.key = other.key → one = other) :
    ∃ offers, (build definitions).offers suffix group path document = .ok offers ∧
      List.Forall₂ ((build definitions).Serves rule) ((build definitions).openEntries rule (document.at? path)) offers := by
  have serves := serves_openEntries (document.at? path) fields held
  have keys := keys_of_serves serves
  have once := (nodup_openEntries (document.at? path) fields held tags).map_on apart
  refine ⟨_, offers_of_object reached settled governs kind shaped, ?_⟩
  rwa [Offer.distinct_eq_self (keys ▸ once)]

/-- The menu is the list of the offers by their keys, none of which it has twice. -/
theorem insertKeys_of_offers {suffix group : String} {document : Json} {path : Path} {offers : List Offer}
    (made : schema.offers suffix group path document = .ok offers) : (offers.map Offer.key).Nodup ∧
      schema.insertKeys suffix group path document = .ok (offers.map fun offer => (offer.key, offer.description)) := by
  have once : (offers.map Offer.key).Nodup := by
    unfold Schema.offers at made
    cases reached : schema.nodeAt group path (some document) with
    | error refusal =>
      rw [reached] at made
      cases made
    | ok node =>
      rw [reached] at made
      cases made
      exact Offer.nodup_keys_distinct _
  refine ⟨once, ?_⟩
  have distinct : Entries.Distinct (offers.map fun offer => (offer.key, offer.description)) := by
    rw [Entries.Distinct, Entries.keys, List.map_map]
    exact once
  rw [insertKeys, made]
  exact congrArg Except.ok (Entries.collect_eq_self distinct)

end Schema

namespace Editor

variable {editor : Editor} {definitions : Entries Node} {document : Json} {path : Path} {node rule : Node}

private theorem wellFormed_holds_governing (built : editor.schema = Schema.build definitions)
    (fields : ∀ entry ∈ definitions, entry.2.WellFormed) (reached : editor.nodeAt path (some document) = .ok node) :
    (editor.schema.governing node (document.at? path)).WellFormed ∧
      editor.schema.Holds (editor.schema.governing node (document.at? path)) := by
  have variants : editor.schema.WellFormedVariants := built ▸ Schema.wellFormedVariants_build fields
  obtain ⟨root, known, walked⟩ := Schema.nodeAt_eq_ok_iff.mp reached
  have rootFields : root.WellFormed := Schema.wellFormed_of_definition? fields (built ▸ known)
  have nodeFields := Schema.wellFormed_of_descend variants rootFields walked
  have held := Schema.holds_of_descend (Schema.holds_of_definition? known) walked
  refine ⟨Schema.wellFormed_governing nodeFields variants _, ?_⟩
  obtain same | ⟨d, tag, led⟩ := editor.schema.governing_cases node (document.at? path)
  · rwa [same]
  · exact Schema.holds_of_variant? led

/-- No field that an object has is offered. Whatever key its menu has, be it the name of such a field or this name and a tag,
is the key of another field, which the object still takes. -/
theorem insertKeys_of_present {members : Entries Json} (built : editor.schema = Schema.build definitions)
    (fields : ∀ entry ∈ definitions, entry.2.WellFormed) (reached : editor.nodeAt path (some document) = .ok node)
    (stands : document.at? path = some (.obj members)) (governs : editor.schema.governor? node (.obj members) = some rule)
    (kind : rule.kind = .object) :
    ∃ offers menu, editor.offers path document = .ok offers ∧ editor.insertKeys path document = .ok menu ∧
      ∀ present ∈ Entries.keys members, (∀ offer ∈ offers, offer.field ≠ present) ∧
        ∀ key, key ∈ Entries.keys menu ↔ ∃ other child, other ≠ present ∧
          Schema.OnMenu rule members other child ∧ editor.schema.MenuKey other child key := by
  obtain ⟨ruleFields, held⟩ := wellFormed_holds_governing built fields reached
  rw [stands, Schema.governing_of_governor? governs] at ruleFields held
  obtain ⟨offers, _, made, _⟩ := Schema.offers_of_nodeAt reached
  have menu := (Schema.insertKeys_of_offers made).2
  have onMenu {offer : Offer} (member : offer ∈ offers) :=
    Schema.onMenu_of_mem_offers built ruleFields held kind reached stands governs made member
  refine ⟨offers, _, made, menu, ?_⟩
  intro present there
  have elsewhere : ∀ offer ∈ offers, offer.field ≠ present := by
    intro offer member same
    obtain ⟨child, standing, _⟩ := onMenu member
    exact standing.absent (same ▸ there)
  refine ⟨elsewhere, ?_⟩
  intro key
  rw [Entries.keys, List.map_map, List.mem_map]
  constructor
  · intro listed
    obtain ⟨offer, member, rfl⟩ := listed
    obtain ⟨child, standing, shared⟩ := onMenu member
    exact ⟨offer.field, child, elsewhere offer member, standing, shared⟩
  · intro shared
    obtain ⟨other, child, _, standing, shared⟩ := shared
    exact Schema.exists_offer_with_key built ruleFields held kind reached stands governs made standing shared

/-- A seat that is taken is not offered, although there is a key for the seat's tag. -/
theorem insertKeys_of_present_tickets :
    let editor : Editor := ⟨Schema.build tickets, "ticket", standardSuffix⟩
    let seated : Json := .obj [("seat", .obj [("kind", .str "stalls")])]
    ∃ offers menu, editor.offers [] seated = .ok offers ∧ editor.insertKeys [] seated = .ok menu ∧
      (∀ offer ∈ offers, offer.field ≠ "seat") ∧ "seat-stalls" ∈ Entries.keys menu := by
  intro editor seated
  have fields : ∀ entry ∈ tickets, entry.2.WellFormed := by simp [tickets, Entries.Distinct, Entries.keys]
  have built : editor.schema = Schema.build tickets := rfl
  have reached : editor.nodeAt [] (some seated) = .ok _ := rfl
  obtain ⟨offers, menu, made, listed, present⟩ := insertKeys_of_present built fields reached rfl rfl rfl
  obtain ⟨elsewhere, keys⟩ := present "seat" (by decide)
  refine ⟨offers, menu, made, listed, elsewhere, (keys _).mpr ?_⟩
  exact ⟨"seat-stalls", _, by decide, ⟨rfl, rfl, by decide⟩, .name rfl⟩

/-- A name with a tag and a plain name may be the same, and then either comes up while the other one's field is there. -/
theorem insertKeys_of_shared_name :
    let editor : Editor := ⟨Schema.build tickets, "ticket", standardSuffix⟩
    (∃ header properties, editor.nodeAt [] (some (.obj [])) = .ok (.object header properties) ∧ header.discriminator = none ∧
      (properties.lookup "seat-stalls").map Node.discriminator? = some none ∧
      (properties.lookup "seat").map Node.discriminator? = some (some ⟨"kind", [("stalls", "stalls")]⟩)) ∧
    (∃ menu, editor.insertKeys [] (.obj [("seat-stalls", .str "A4")]) = .ok menu ∧
      Entries.keys menu = ["seat-stalls", "price"]) ∧
    ∃ menu, editor.insertKeys [] (.obj [("seat", .obj [("kind", .str "stalls")])]) = .ok menu ∧
      Entries.keys menu = ["seat-stalls", "price"] := by
  exact ⟨⟨_, _, rfl, rfl, rfl, rfl⟩, ⟨_, rfl, rfl⟩, _, rfl, rfl⟩

/-- No menu has a key twice. Where no two open entries of an object share a key, its menu has just these, in their order. -/
theorem offers_exact (built : editor.schema = Schema.build definitions)
    (fields : ∀ entry ∈ definitions, entry.2.WellFormed) (tags : ∀ entry ∈ definitions, entry.2.DistinctTags) :
    (∀ offers, editor.offers path document = .ok offers → (offers.map Offer.key).Nodup ∧
      editor.insertKeys path document = .ok (offers.map fun offer => (offer.key, offer.description))) ∧
    (editor.nodeAt path (some document) = .ok node → editor.schema.Settled node (document.at? path) →
      editor.schema.governing node (document.at? path) = rule → rule.kind = .object →
      (∀ given, document.at? path = some given → ∃ members, given = .obj members) →
      (∀ one ∈ editor.schema.openEntries rule (document.at? path),
        ∀ other ∈ editor.schema.openEntries rule (document.at? path), one.key = other.key → one = other) →
      ∃ offers, editor.offers path document = .ok offers ∧ (editor.schema.openEntries rule (document.at? path)).Nodup ∧
        List.Forall₂ (editor.schema.Serves rule) (editor.schema.openEntries rule (document.at? path)) offers) := by
  refine ⟨fun offers made => Schema.insertKeys_of_offers made, ?_⟩
  intro reached settled governs kind shaped apart
  obtain ⟨ruleFields, held⟩ := wellFormed_holds_governing built fields reached
  rw [governs] at ruleFields held
  obtain ⟨schema, root, suffix⟩ := editor
  cases built
  obtain ⟨offers, made, serves⟩ :=
    Schema.exists_offers_of_apart ruleFields held tags reached settled governs kind shaped apart
  exact ⟨offers, made, Schema.nodup_openEntries _ ruleFields held tags, serves⟩

/-- A song lacks its title and a cover, which takes one of two forms; the other one is not defined. -/
theorem offers_exact_album :
    let editor : Editor := ⟨Schema.build album, "album", standardSuffix⟩
    let song : Path := [.key "tracks", .index 1]
    ∃ offers, editor.offers song demo = .ok offers ∧ offers.map Offer.key = ["title", "cover-jpg"] ∧
      editor.insertKeys song demo = .ok [("title", ""), ("cover-jpg", "Add sample item to cover")] := by
  intro editor song
  have fields : ∀ entry ∈ album, entry.2.WellFormed := by simp [album, track, picture, Entries.Distinct, Entries.keys]
  have tags : ∀ entry ∈ album, entry.2.DistinctTags := by decide
  have built : editor.schema = Schema.build album := rfl
  have reached : editor.nodeAt song (some demo) = .ok track := rfl
  have settled : editor.schema.Settled track (demo.at? song) := .inr rfl
  have shaped : ∀ given, demo.at? song = some given → ∃ members, given = .obj members :=
    fun given found => ⟨_, (Option.some.inj found).symm⟩
  obtain ⟨menus, entries⟩ := offers_exact built fields tags
  obtain ⟨offers, made, _, serves⟩ := entries reached settled rfl rfl shaped (by decide)
  have keys : offers.map Offer.key = ["title", "cover-jpg"] := (Schema.keys_of_serves serves).trans rfl
  have menu := (menus offers made).2
  cases made
  exact ⟨_, rfl, keys, menu⟩

end Editor

end SchemaGuide
