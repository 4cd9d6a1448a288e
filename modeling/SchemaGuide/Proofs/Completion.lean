import SchemaGuide.Proofs.Offers
import SchemaGuide.Proofs.Origins

/-! What an object lacks and what it is offered. Validation asks which fields are required and the menu which fields are not
marked, and of the offers with one key the first one stays. So a missing field is offered just when it is not kept for a tag
and has a key on the menu that no field declared before it has there. -/

namespace SchemaGuide

namespace Schema

variable {schema : Schema} {definitions : Entries Node} {node : Node} {value : Json} {field key : String}

/-- A key under which a field may be offered: its name or, where it has a choice, its name and a tag with a definition. -/
inductive MenuKey (schema : Schema) (field : String) (node : Node) : String → Prop where
  | name (plain : node.discriminator? = none) : MenuKey schema field node field
  | tag {d : Discriminator} {tag target : String} (has : node.discriminator? = some d)
      (mapped : d.target? tag = some target) (known : target ∈ schema.names) : MenuKey schema field node (field ++ "-" ++ tag)

theorem MenuKey.eq_of_plain (menu : schema.MenuKey field node key) (plain : node.discriminator? = none) : key = field := by
  cases menu with
  | name => rfl
  | tag has => cases plain.symm.trans has

/-- A field that an object may get from its menu: declared, not marked, and not there yet. -/
structure OnMenu (rule : Node) (members : Entries Json) (field : String) (node : Node) : Prop where
  declared : rule.property? field = some node
  unmarked : rule.isReadOnly field = false
  absent : field ∉ Entries.keys members

theorem menuKey_iff (built : schema = build definitions) (held : schema.Holds node) :
    schema.MenuKey field node key ↔ ∃ offer ∈ schema.fieldOffers field node, offer.key = key := by
  subst built
  unfold fieldOffers
  cases has : node.discriminator? with
  | none =>
    constructor
    · intro menu
      cases menu with
      | name => exact ⟨_, List.mem_singleton.mpr rfl, rfl⟩
      | tag other => cases has.symm.trans other
    · intro made
      obtain ⟨offer, member, rfl⟩ := made
      cases List.mem_singleton.mp member
      exact .name has
  | some d =>
    constructor
    · intro menu
      cases menu with
      | name plain => cases has.symm.trans plain
      | @tag _ tag target same mapped known =>
        cases has.symm.trans same
        obtain ⟨variant, selected⟩ :=
          Option.isSome_iff_exists.mp ((held.variant?_isSome_iff has tag).mpr ⟨target, mapped, known⟩)
        obtain ⟨reference, found, _⟩ := Option.map_eq_some_iff.mp mapped
        have listed : tag ∈ d.tags := Entries.lookup_isSome_iff.mp (Option.isSome_of_eq_some found)
        exact ⟨_, mem_variantOffers.mpr ⟨tag, variant, listed, selected, rfl⟩, rfl⟩
    · intro made
      obtain ⟨offer, member, rfl⟩ := made
      obtain ⟨tag, variant, _, selected, rfl⟩ := mem_variantOffers.mp member
      obtain ⟨target, mapped, known⟩ := (held.variant?_isSome_iff has tag).mp (Option.isSome_of_eq_some selected)
      exact .tag has mapped known

/-- The fields that an object still takes, in the order of their declaration. -/
def openFields (rule : Node) (value : Option Json) : Entries Node :=
  (rule.properties?.getD []).filter fun entry => !rule.isReadOnly entry.1 && (value.bind (·.member? entry.1)).isNone

theorem mem_openFields_iff {rule : Node} (fields : rule.WellFormed) {members : Entries Json} {child : Node} :
    (field, child) ∈ openFields rule (some (.obj members)) ↔ OnMenu rule members field child := by
  have absent : (Json.obj members).member? field = none ↔ field ∉ Entries.keys members := Entries.lookup_eq_none_iff
  cases rule with
  | object header properties =>
    have declared : (field, child) ∈ properties ↔ properties.lookup field = some child :=
      ⟨(fields header properties .here).lookup_of_mem, Entries.mem_of_lookup⟩
    simp only [openFields, Node.properties?, Option.getD_some, List.mem_filter, declared, Option.bind_some, Bool.and_eq_true,
      Bool.not_eq_true', Option.isNone_iff_eq_none, absent]
    exact ⟨fun ⟨known, unmarked, fresh⟩ => ⟨known, unmarked, fresh⟩, fun menu => ⟨menu.declared, menu.unmarked, menu.absent⟩⟩
  | array | map | scalar => exact ⟨fun member => (List.not_mem_nil member).elim, fun menu => nomatch menu.declared⟩

/-- The open fields before one of them are those that are declared before it. -/
theorem openFields_split {rule child : Node} (fields : rule.WellFormed) {members : Entries Json} {earlier later : Entries Node}
    (declared : rule.properties? = some (earlier ++ (field, child) :: later)) (onMenu : OnMenu rule members field child) :
    ∃ before after, openFields rule (some (.obj members)) = before ++ (field, child) :: after ∧
      ∀ entry, entry ∈ before ↔ entry ∈ earlier ∧ OnMenu rule members entry.1 entry.2 := by
  obtain ⟨kept, filtered⟩ : ∃ kept, openFields rule (some (.obj members)) = (earlier ++ (field, child) :: later).filter kept :=
    ⟨_, congrArg _ (congrArg (Option.getD · []) declared)⟩
  have keeps : ∀ entry ∈ earlier ++ (field, child) :: later, kept entry = true ↔ OnMenu rule members entry.1 entry.2 := by
    intro entry listed
    rw [← mem_openFields_iff fields, filtered, List.mem_filter, and_iff_right listed]
  refine ⟨earlier.filter kept, later.filter kept, ?_, ?_⟩
  · have stays := (keeps _ (List.mem_append_right _ List.mem_cons_self)).mpr onMenu
    rw [filtered, List.filter_append, List.filter_cons_of_pos stays]
  · intro entry
    rw [List.mem_filter]
    exact and_congr_right fun listed => keeps entry (List.mem_append_left _ listed)

/-- Whether a field is in use is a matter of the field alone, so of its offers all are made or none. -/
private theorem filter_fieldOffers (used : List String) (field : String) (node : Node) :
    (schema.fieldOffers field node).filter (fun offer => offer.repeatable || !used.contains offer.field) =
      if used.contains field then [] else schema.fieldOffers field node := by
  split
  next taken =>
    refine List.filter_eq_nil_iff.mpr ?_
    intro offer member
    obtain ⟨rfl, once, _⟩ := mem_fieldOffers member
    simp [once, List.contains_iff_mem.mp taken]
  next free =>
    refine List.filter_eq_self.mpr ?_
    intro offer member
    obtain ⟨rfl, once, _⟩ := mem_fieldOffers member
    simpa [once] using free

private theorem flatMap_filter {α β : Type} (kept : α → Bool) (parts : α → List β) (elements : List α) :
    (elements.filter kept).flatMap parts = elements.flatMap fun element => if kept element then parts element else [] := by
  induction elements with
  | nil => rfl
  | cons first rest ih => by_cases keeps : kept first <;> simp [keeps, ih]

private theorem contains_inUse {value : Option Json} (shaped : ∀ given, value = some given → ∃ members, given = .obj members) :
    (inUse value).contains field = (value.bind (·.member? field)).isSome := by
  cases value with
  | none => rfl
  | some given =>
    obtain ⟨members, rfl⟩ := shaped given rfl
    rw [Bool.eq_iff_iff, List.contains_iff_mem]
    exact Entries.lookup_isSome_iff.symm

/-- What an object is offered is what its open fields are, each key once. -/
theorem offers_of_object {suffix group : String} {document : Json} {path : Path} {rule : Node}
    (reached : schema.nodeAt group path (some document) = .ok node) (settled : schema.Settled node (document.at? path))
    (governs : schema.governing node (document.at? path) = rule) (kind : rule.kind = .object)
    (shaped : ∀ given, document.at? path = some given → ∃ members, given = .obj members) :
    schema.offers suffix group path document = .ok (Offer.distinct
      ((openFields rule (document.at? path)).flatMap fun entry => schema.fieldOffers entry.1 entry.2)) := by
  obtain ⟨header, properties, rfl⟩ := Node.eq_object_of_kind kind
  have made (parent : String) : (schema.nodeOffers suffix parent node (document.at? path)).filter
      (fun offer => offer.repeatable || !(inUse (document.at? path)).contains offer.field) =
        (openFields (.object header properties) (document.at? path)).flatMap fun entry => schema.fieldOffers entry.1 entry.2 := by
    rw [nodeOffers_of_settled settled, governs, bodyOffers, List.filter_flatMap, openFields, Node.properties?, Option.getD_some,
      flatMap_filter, flatMap_filter]
    refine List.flatMap_congr fun entry _ => ?_
    rw [filter_fieldOffers, contains_inUse shaped]
    cases (Node.object header properties).isReadOnly entry.1 <;>
      cases (document.at? path).bind (·.member? entry.1) <;> rfl
  unfold offers
  rw [reached]
  exact congrArg (Except.ok ∘ Offer.distinct) (made _)

/-- The offers for the open fields are those of the fields on the menu. -/
private theorem mem_openOffers {rule : Node} (fields : rule.WellFormed) {members : Entries Json} {offer : Offer} :
    offer ∈ (openFields rule (some (.obj members))).flatMap (fun entry => schema.fieldOffers entry.1 entry.2) ↔
      ∃ child, OnMenu rule members offer.field child ∧ offer ∈ schema.fieldOffers offer.field child := by
  rw [List.mem_flatMap]
  constructor
  · intro offered
    obtain ⟨⟨field, child⟩, listed, member⟩ := offered
    obtain rfl : offer.field = field := (mem_fieldOffers member).1
    exact ⟨child, (mem_openFields_iff fields).mp listed, member⟩
  · intro offered
    obtain ⟨child, onMenu, member⟩ := offered
    exact ⟨(offer.field, child), (mem_openFields_iff fields).mpr onMenu, member⟩

section Menu

variable {suffix group : String} {document : Json} {path : Path} {members : Entries Json} {rule child : Node}
  {offer : Offer} {offers : List Offer} (built : schema = build definitions) (fields : rule.WellFormed)
  (held : schema.Holds rule) (kind : rule.kind = .object) (reached : schema.nodeAt group path (some document) = .ok node)
  (stands : document.at? path = some (.obj members)) (governs : schema.governor? node (.obj members) = some rule)
  (made : schema.offers suffix group path document = .ok offers)

include kind reached stands governs made

private theorem offers_eq_distinct : offers = Offer.distinct
    ((openFields rule (some (.obj members))).flatMap fun entry => schema.fieldOffers entry.1 entry.2) := by
  have shaped : ∀ given, document.at? path = some given → ∃ members, given = .obj members :=
    fun given found => ⟨members, Option.some.inj (found.symm.trans stands)⟩
  have settled : schema.Settled node (document.at? path) := stands ▸ settled_of_governor? governs
  have ruled : schema.governing node (document.at? path) = rule := stands ▸ governing_of_governor? governs
  have given : schema.offers suffix group path document = .ok _ := offers_of_object reached settled ruled kind shaped
  rw [stands] at given
  exact Except.ok.inj (made.symm.trans given)

include built fields held

/-- Whatever an object is offered is for a field on its menu, under a key of this field. -/
theorem onMenu_of_mem_offers (member : offer ∈ offers) :
    ∃ child, OnMenu rule members offer.field child ∧ schema.MenuKey offer.field child offer.key := by
  rw [offers_eq_distinct kind reached stands governs made] at member
  obtain ⟨child, onMenu, offered⟩ := (mem_openOffers fields).mp (Offer.mem_of_mem_distinct member)
  exact ⟨child, onMenu, (menuKey_iff built (held.of_within (within_of_property? onMenu.declared))).mpr ⟨offer, offered, rfl⟩⟩

/-- A key of a field on the menu is the key of some offer, if not for this field, then for another one. -/
theorem exists_offer_with_key (onMenu : OnMenu rule members field child) (menu : schema.MenuKey field child key) :
    ∃ offer ∈ offers, offer.key = key := by
  rw [offers_eq_distinct kind reached stands governs made]
  obtain ⟨first, offered, rfl⟩ := (menuKey_iff built (held.of_within (within_of_property? onMenu.declared))).mp menu
  obtain rfl : first.field = field := (mem_fieldOffers offered).1
  -- Of the offers with this key the first one stays, and that may be one for another field.
  exact Offer.exists_mem_distinct ((mem_openOffers fields).mpr ⟨child, onMenu, offered⟩)

/-- The offers for an open field come after those for the open fields that are declared before it. -/
private theorem offers_eq_around {earlier later : Entries Node}
    (declared : rule.properties? = some (earlier ++ (field, child) :: later)) (fresh : field ∉ Entries.keys earlier)
    (onMenu : OnMenu rule members field child) :
    ∃ front back, offers = Offer.distinct (front ++ (schema.fieldOffers field child ++ back)) ∧
      (∀ offer ∈ front, offer.field ≠ field) ∧ ∀ key, key ∈ front.map Offer.key ↔
        ∃ entry ∈ earlier, OnMenu rule members entry.1 entry.2 ∧ schema.MenuKey entry.1 entry.2 key := by
  obtain ⟨before, after, split, standing⟩ := openFields_split fields declared onMenu
  refine ⟨before.flatMap fun entry => schema.fieldOffers entry.1 entry.2,
    after.flatMap fun entry => schema.fieldOffers entry.1 entry.2, ?_, ?_, ?_⟩
  · rw [offers_eq_distinct kind reached stands governs made, split, List.flatMap_append, List.flatMap_cons]
  · intro offer member same
    obtain ⟨entry, listed, offered⟩ := List.mem_flatMap.mp member
    obtain rfl : entry.1 = field := (mem_fieldOffers offered).1.symm.trans same
    exact fresh (List.mem_map_of_mem ((standing entry).mp listed).1)
  · intro key
    simp only [List.map_flatMap, List.mem_flatMap, standing, List.mem_map, and_assoc]
    refine exists_congr fun entry => and_congr_right fun _ => and_congr_right fun onMenu => ?_
    exact (menuKey_iff built (held.of_within (within_of_property? onMenu.declared))).symm

/-- A declared field that an object does not have is offered just when it is not marked and has a key that no field before it has
on the menu: of the offers with one key the first one stays. -/
theorem exists_offer_iff (found : rule.property? field = some child) (absent : field ∉ Entries.keys members) :
    ∃ earlier later, rule.properties? = some (earlier ++ (field, child) :: later) ∧
      ((∃ offer ∈ offers, offer.field = field) ↔ rule.isReadOnly field = false ∧ ∃ key, schema.MenuKey field child key ∧
        ∀ entry ∈ earlier, OnMenu rule members entry.1 entry.2 → ¬schema.MenuKey entry.1 entry.2 key) := by
  obtain ⟨earlier, later, declared, fresh⟩ : ∃ earlier later,
      rule.properties? = some (earlier ++ (field, child) :: later) ∧ field ∉ Entries.keys earlier := by
    obtain ⟨header, properties, rfl⟩ := Node.eq_object_of_kind kind
    obtain ⟨earlier, later, rfl, fresh, _⟩ := (fields header properties .here).exists_split found
    exact ⟨earlier, later, rfl, fresh⟩
  refine ⟨earlier, later, declared, ?_⟩
  constructor
  · intro given
    obtain ⟨offer, member, rfl⟩ := given
    obtain ⟨node, onMenu, menu⟩ := onMenu_of_mem_offers built fields held kind reached stands governs made member
    cases found.symm.trans onMenu.declared
    obtain ⟨front, back, same, elsewhere, taken⟩ :=
      offers_eq_around built fields held kind reached stands governs made declared fresh onMenu
    refine ⟨onMenu.unmarked, offer.key, menu, ?_⟩
    intro entry before standing shared
    rw [same, Offer.mem_distinct_append] at member
    cases member with
    | inl first => exact elsewhere offer (Offer.mem_of_mem_distinct first) rfl
    | inr own => exact own.2 ((taken _).mpr ⟨entry, before, standing, shared⟩)
  · intro given
    obtain ⟨unmarked, key, menu, first⟩ := given
    have onMenu : OnMenu rule members field child := ⟨found, unmarked, absent⟩
    obtain ⟨front, back, same, _, taken⟩ :=
      offers_eq_around built fields held kind reached stands governs made declared fresh onMenu
    obtain ⟨own, offered, rfl⟩ := (menuKey_iff built (held.of_within (within_of_property? found))).mp menu
    -- The field may have one key for two tags, and then again the first offer stays.
    obtain ⟨offer, stays, shared⟩ := Offer.exists_mem_distinct offered
    have free : offer.key ∉ front.map Offer.key := by
      intro used
      obtain ⟨entry, before, standing, other⟩ := (taken _).mp used
      exact first entry before standing (shared ▸ other)
    have member : offer ∈ offers := by
      rw [same, Offer.mem_distinct_append, Offer.mem_distinct_append]
      exact .inr ⟨.inl stays, free⟩
    exact ⟨offer, member, (mem_fieldOffers (Offer.mem_of_mem_distinct stays)).1⟩

end Menu

/-- Where no variant has a discriminator of its own, navigation comes to whatever is at fault, but for unknown keys. -/
theorem PlainVariants.exists_fault (plain : schema.PlainVariants) {document : Json} {path : Path} {cause : Cause}
    (fields : node.WellFormed) (variants : schema.WellFormedVariants)
    (wellFormed : document.WellFormed) (reported : ⟨path, cause⟩ ∈ schema.problems document node)
    (known : ∀ key, cause ≠ .unknownKey key) : ∃ target part, schema.descend node (some document) path = .ok target ∧
      document.at? path = some part ∧ schema.Fault target part ⟨[], cause⟩ := by
  have along : schema.Along (fun inner given _ => schema.Unchained inner given) node (some document) path := by
    intro before step after inner split walked variant selected
    obtain ⟨d, _, tag, _, _, _, led⟩ := selected?_eq_some_iff.mp selected
    exact plain d tag variant led
  obtain ⟨place, target, part, ⟨rest, own⟩, same, reached, stands, fault⟩ :=
    exists_fault_of_mem_problems fields variants wellFormed reported along
  have cause_eq : cause = own := congrArg Problem.cause same
  subst cause_eq
  have here : rest = [] := by
    rcases fault.cases_unknown with ⟨here, _⟩ | ⟨key, _, _, _, _, unknown⟩
    · exact here
    · exact absurd (congrArg Problem.cause unknown) (known key)
  subst here
  have arrived : path = place := (congrArg Problem.path same).trans (List.append_nil place)
  subst arrived
  exact ⟨target, part, reached, stands, fault⟩

/-- An object that is ruled as such lacks what is reported to be missing. -/
theorem Fault.missing_eq {header : Header} {properties : Entries Node} {missing : List String}
    (fault : schema.Fault node value ⟨[], .missing missing⟩)
    (ruled : schema.ruling value greatestHops node = .ok (.object header properties)) : missing = lacking value properties := by
  obtain ⟨_, lost | ⟨_, _, again, same⟩⟩ := fault.missing_cases rfl
  · cases ruled.symm.trans lost
  · cases ruled.symm.trans again
    exact same

end Schema

namespace Editor

/-- Of what an object is reported to lack just those fields are offered that are not kept for a tag and have a key on the menu
that no field declared before them has there. -/
theorem exists_offer_iff_of_missing {editor : Editor} {definitions : Entries Node} {document : Json} {path : Path}
    {members : Entries Json} {missing : List String} (built : editor.schema = Schema.build definitions)
    (fields : ∀ entry ∈ definitions, entry.2.WellFormed) (targets : PlainTargets definitions) (wellFormed : document.WellFormed)
    (reported : ⟨path, .missing missing⟩ ∈ editor.validate document) (stands : document.at? path = some (.obj members)) :
    ∃ node offers, editor.nodeAt path (some document) = .ok node ∧ editor.offers path document = .ok offers ∧
      ∀ rule, editor.schema.governor? node (.obj members) = some rule → rule.kind = .object →
        ∀ field ∈ missing, ∃ earlier child later, rule.properties? = some (earlier ++ (field, child) :: later) ∧
          ((∃ offer ∈ offers, offer.field = field) ↔ rule.isReadOnly field = false ∧
            ∃ key, editor.schema.MenuKey field child key ∧ ∀ entry ∈ earlier,
              Schema.OnMenu rule members entry.1 entry.2 → ¬editor.schema.MenuKey entry.1 entry.2 key) := by
  have variants : editor.schema.WellFormedVariants := built ▸ Schema.wellFormedVariants_build fields
  have plain : editor.schema.PlainVariants := built ▸ Schema.plainVariants_build targets
  rw [validate] at reported
  split at reported
  · cases reported
  next root known =>
    have rootFields : root.WellFormed := Schema.wellFormed_of_definition? fields (built ▸ known)
    have apart : ∀ key, Cause.missing missing ≠ .unknownKey key := by
      intro key same
      cases same
    obtain ⟨node, part, walked, found, fault⟩ := plain.exists_fault rootFields variants wellFormed reported apart
    cases stands.symm.trans found
    have reached : editor.schema.nodeAt editor.root path (some document) = .ok node :=
      Schema.nodeAt_eq_ok_iff.mpr ⟨root, known, walked⟩
    obtain ⟨offers, _, made, _⟩ := Schema.offers_of_nodeAt reached
    refine ⟨node, offers, reached, made, ?_⟩
    intro rule governs kind field listed
    obtain ⟨header, properties, rfl⟩ := Node.eq_object_of_kind kind
    have held := Schema.holds_of_governor? (Schema.holds_of_descend (Schema.holds_of_definition? known) walked) governs
    have ruleFields := Schema.wellFormed_of_governor? (Schema.wellFormed_of_descend variants rootFields walked) variants governs
    have lacks := fault.missing_eq (plain.ruling_eq_ok_iff.mpr governs)
    subst lacks
    obtain ⟨child, declared, _, absent⟩ := Schema.mem_lacking.mp listed
    have found : (Node.object header properties).property? field = some child :=
      (ruleFields header properties .here).lookup_of_mem declared
    obtain ⟨earlier, later, place, offered⟩ := Schema.exists_offer_iff built ruleFields held rfl reached stands governs made
      found (Entries.lookup_eq_none_iff.mp absent)
    exact ⟨earlier, child, later, place, offered⟩

/-- A name that is declared before the choice it could be taken for keeps its offer. -/
example :
    let text : Node := .scalar { required := true } Node.anyString
    let seat : Node := .scalar { discriminator := some ⟨"kind", [("stalls", "stalls")]⟩ } Node.anyString
    let booking : Entries Node := [("booking", .object {} [("seat-stalls", text), ("seat", seat)]), ("stalls", .object {} [])]
    let editor : Editor := ⟨Schema.build booking, "booking", standardSuffix⟩
    editor.validate (.obj []) = [⟨[], .missing ["seat-stalls"]⟩] ∧
      ∃ offers, editor.offers [] (.obj []) = .ok offers ∧ offers.map Offer.field = ["seat-stalls"] :=
  ⟨rfl, _, rfl, rfl⟩

def picture : Node :=
  .scalar { required := true, discriminator := some ⟨"form", [("jpg", "#/definitions/image"), ("gone", "nowhere")]⟩ } Node.anyString

def track : Node := .scalar { discriminator := some ⟨"kind", [("song", "#/definitions/song")]⟩ } Node.anyString

def album : Entries Node :=
  [("album", .object {} [("tracks", .array {} track none none)]),
    ("song", .object {} [("title", .scalar { required := true } Node.anyString), ("cover", picture),
      ("plays", .scalar {} Node.anyNumber)]),
    ("image", .object {} [])]

def demo : Json := .obj [("tracks", .arr [.null, .obj [("kind", .str "song"), ("plays", .ofNat 3)]])]

/-- The cover of a song is required, and offered as a picture in the one form that has a definition. -/
theorem exists_offer_iff_of_missing_album :
    let editor : Editor := ⟨Schema.build album, "album", standardSuffix⟩
    let song : Path := [.key "tracks", .index 1]
    ⟨song, .missing ["title", "cover"]⟩ ∈ editor.validate demo ∧
      ∃ offers, editor.offers song demo = .ok offers ∧ ∃ offer ∈ offers, offer.field = "cover" := by
  intro editor song
  have fields : ∀ entry ∈ album, entry.2.WellFormed := by simp [album, track, picture, Entries.Distinct, Entries.keys]
  have wellFormed : demo.WellFormed := by
    simp [demo, Json.WellFormed, Json.AllWellFormed, Json.MembersWellFormed, Entries.Distinct, Entries.keys, Json.ofNat, Json.ofInt]
  have reported : ⟨song, .missing ["title", "cover"]⟩ ∈ editor.validate demo := by decide
  refine ⟨reported, ?_⟩
  have built : editor.schema = Schema.build album := rfl
  obtain ⟨node, offers, reached, made, offered⟩ :=
    exists_offer_iff_of_missing built fields (by decide) wellFormed reported rfl
  have arrived : editor.nodeAt song (some demo) = .ok track := rfl
  cases arrived.symm.trans reached
  have governs : editor.schema.governor? track (.obj [("kind", .str "song"), ("plays", .ofNat 3)]) =
      some (.object { readOnly := ["kind"] } [("title", .scalar { required := true } Node.anyString), ("cover", picture),
        ("plays", .scalar {} Node.anyNumber), ("kind", Node.tagField "song")]) := rfl
  obtain ⟨earlier, child, later, split, single⟩ := offered _ governs rfl "cover" (by decide)
  have known : "image" ∈ editor.schema.names := by decide
  have menu : editor.schema.MenuKey "cover" picture ("cover" ++ "-" ++ "jpg") := .tag rfl rfl known
  -- Of the fields of a song only the title is declared before the cover.
  rcases earlier with _ | ⟨first, _ | ⟨second, rest⟩⟩
  · simp [Node.properties?] at split
  · cases split
    refine ⟨offers, made, single.mpr ⟨rfl, _, menu, ?_⟩⟩
    intro entry title _ shared
    cases List.mem_singleton.mp title
    exact absurd (shared.eq_of_plain rfl) (by decide)
  · simp [Node.properties?, List.cons_eq_append_iff] at split

/-- A ticket keeps its kind for a tag of the fair, and a seat in the stalls takes the key of another field. -/
def tickets : Entries Node :=
  let text : Node := .scalar { required := true } Node.anyString
  let seat : Node := .scalar { discriminator := some ⟨"kind", [("stalls", "stalls")]⟩ } Node.anyString
  [("ticket", .object {} [("kind", text), ("seat", seat), ("seat-stalls", text), ("price", text)]), ("stalls", .object {} []),
    ("fair", .map {} (.scalar { discriminator := some ⟨"kind", [("ticket", "ticket")]⟩ } Node.anyString))]

/-- Of three missing texts only the price is offered. -/
theorem offers_spare_missing :
    let editor : Editor := ⟨Schema.build tickets, "ticket", standardSuffix⟩
    PlainTargets tickets ∧
    editor.validate (.obj []) = [⟨[], .missing ["kind", "seat-stalls", "price"]⟩] ∧
    (∃ header properties, editor.nodeAt [] (some (.obj [])) = .ok (.object header properties) ∧ header.discriminator = none ∧
      (properties.lookup "kind").map Node.discriminator? = some none ∧
      (properties.lookup "seat-stalls").map Node.discriminator? = some none) ∧
    ∃ offers, editor.offers [] (.obj []) = .ok offers ∧ offers.map Offer.field = ["seat", "price"] := by
  exact ⟨by decide, rfl, ⟨_, _, rfl, rfl, rfl, rfl⟩, _, rfl, rfl⟩

end Editor

end SchemaGuide
