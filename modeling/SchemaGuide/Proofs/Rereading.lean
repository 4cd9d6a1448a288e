import Mathlib.Data.List.Basic
import Mathlib.Data.List.Nodup
import SchemaGuide.Declaration.Compile
import SchemaGuide.Declaration.Reader
import SchemaGuide.Declaration.Writer

/-! Declarations written and read again. Reading has many forms to accept, but all that it yields is regular; and of a
regular declaration each field is written so that reading restores it, or left out because reading starts with its value.
So the declaration is restored field by field, whatever form it was first read from. -/

namespace SchemaGuide

namespace Written

theorem mem_of_pairs? {α β : Type} {accept? : α → Option β} {members : List (Option String × α)}
    {pairs : List (String × β)} (read : pairs? accept? members = some pairs) {pair : String × β} (member : pair ∈ pairs) :
    ∃ a, (some pair.1, a) ∈ members ∧ accept? a = some pair.2 := by
  induction members generalizing pairs with
  | nil =>
    cases read
    cases member
  | cons first rest ih =>
    rw [pairs?, List.mapM_cons] at read
    obtain ⟨head, taken, read⟩ := Option.bind_eq_some_iff.mp read
    obtain ⟨others, all, same⟩ := Option.bind_eq_some_iff.mp read
    cases same
    obtain ⟨key, keyed, taken⟩ := Option.bind_eq_some_iff.mp taken
    obtain ⟨value, accepted, same⟩ := Option.bind_eq_some_iff.mp taken
    cases same
    rcases List.mem_cons.mp member with rfl | later
    · refine ⟨first.2, ?_, accepted⟩
      rw [← keyed]
      exact List.mem_cons_self
    · obtain ⟨a, listed, accepted⟩ := ih all later
      exact ⟨a, List.mem_cons_of_mem _ listed, accepted⟩

/-- A table is restored when each of its values is. -/
theorem pairs?_map {α β : Type} {accept? : α → Option β} (give : β → α) {table : Entries β}
    (restored : ∀ entry ∈ table, accept? (give entry.2) = some entry.2) :
    pairs? accept? (table.map fun entry => (some entry.1, give entry.2)) = some table := by
  induction table with
  | nil => rfl
  | cons entry rest ih =>
    obtain ⟨first, others⟩ := List.forall_mem_cons.mp restored
    have ih := ih others
    rw [pairs?] at ih ⊢
    rw [List.map_cons, List.mapM_cons, ih]
    simp [first]

theorem orNull_eq_some_some {α : Type} {read? : Written → Option α} {written : Written} {value : α}
    (read : written.orNull read? = some (some value)) : written ≠ .null ∧ read? written = some value := by
  cases written with
  | null => cases read
  | unreadable | bool | num | str | arr | obj =>
    obtain ⟨_, read, same⟩ := Option.map_eq_some_iff.mp read
    cases same
    exact ⟨nofun, read⟩

theorem orNull_of_ne_null {α : Type} {read? : Written → Option α} {written : Written} (present : written ≠ .null) :
    written.orNull read? = (read? written).map some := by
  cases written with
  | null => exact absurd rfl present
  | unreadable | bool | num | str | arr | obj => rfl

theorem ofJson_ne_null {value : Json} (present : value ≠ .null) : ofJson value ≠ .null := by
  cases value with
  | null => exact absurd rfl present
  | bool | num | str | arr | obj => nofun

theorem value?_ne_null {written : Written} (present : written ≠ .null) {value : Json}
    (read : written.value? = some value) : value ≠ .null := by
  rintro rfl
  cases written with
  | null => exact present rfl
  | unreadable | bool | num | str => cases read
  | arr | obj =>
    obtain ⟨_, _, same⟩ := Option.map_eq_some_iff.mp read
    cases same

theorem ofMembers_eq_map (members : List (String × Json)) :
    ofMembers members = members.map fun entry => (some entry.1, ofJson entry.2) := by
  induction members with
  | nil => rfl
  | cons entry rest ih => rw [ofMembers, ih, List.map_cons]

theorem ofElements_eq_map (elements : List Json) : ofElements elements = elements.map ofJson := by
  induction elements with
  | nil => rfl
  | cons element rest ih => rw [ofElements, ih, List.map_cons]

end Written

namespace Discriminator

theorem distinct_of_ofWritten? {written : Written} {d : Discriminator} (read : ofWritten? written = some d) :
    d.mapping.Distinct := by
  have parts {property mapping : Written} (read : ofParts? property mapping = some d) : d.mapping.Distinct := by
    obtain ⟨name, _, read⟩ := Option.bind_eq_some_iff.mp read
    obtain ⟨table, mapped, same⟩ := Option.bind_eq_some_iff.mp read
    cases same
    cases mapping with
    | obj members =>
      obtain ⟨pairs, _, rfl⟩ := Option.map_eq_some_iff.mp mapped
      exact Entries.distinct_collect pairs
    | unreadable | null | bool | num | str | arr => cases mapped
  cases written with
  | obj members =>
    simp only [ofWritten?] at read
    split at read
    · cases read
    · obtain ⟨_, _, read⟩ := Option.bind_eq_some_iff.mp read
      obtain ⟨_, _, read⟩ := Option.bind_eq_some_iff.mp read
      exact parts read
  | arr elements =>
    unfold ofWritten? at read
    split at read
    · contradiction
    next same => exact parts read
    · cases read
  | unreadable | null | bool | num | str => cases read

theorem ofWritten?_toJson {d : Discriminator} (distinct : d.mapping.Distinct) :
    ofWritten? (.ofJson d.toJson) = some d := by
  let mapping : Json := .obj (d.mapping.map fun entry => (entry.1, .str entry.2))
  have restored : mapping? (.ofJson mapping) = some d.mapping := by
    have pairs : Written.pairs? Written.string? (d.mapping.map fun entry => (some entry.1, .str entry.2)) = some d.mapping :=
      Written.pairs?_map Written.str fun _ _ => rfl
    have written : Written.ofMembers (d.mapping.map fun entry => (entry.1, .str entry.2)) =
        d.mapping.map fun entry => (some entry.1, .str entry.2) := by
      rw [Written.ofMembers_eq_map, List.map_map]
      rfl
    rw [Written.ofJson, mapping?, written, pairs, Option.map_some, Entries.collect_eq_self distinct]
  have parts : ofWritten? (.ofJson d.toJson) = ofParts? (.str d.property) (.ofJson mapping) := rfl
  rw [parts, ofParts?, restored]
  rfl

end Discriminator

namespace Declaration

/-- What holds of every declaration that was read, at any depth. -/
inductive Regular : Declaration → Prop where
  | intro {d : Declaration} (mapping : ∀ x, d.discriminator = some x → x.mapping.Distinct)
      (distinct : Entries.Distinct d.properties) (properties : ∀ entry ∈ d.properties, Regular entry.2)
      (items : ∀ inner, d.items = some inner → Regular inner)
      (additional : ∀ inner, d.additional = some inner → Regular inner)
      (least : ∀ bound, d.minItems = some bound → Numeral.isSignedWord bound)
      (most : ∀ bound, d.maxItems = some bound → Numeral.isSignedWord bound)
      (literal : ∀ value, d.literal = some value → value ≠ .null ∧ value.WellFormed) : Regular d

/-- Whatever a reading offers is regular. -/
structure Reading.Sound (r : Reading) : Prop where
  declaration : ∀ d, r.declaration? = some d → d.Regular
  table : ∀ t, r.table? = some t → t.Distinct ∧ ∀ entry ∈ t, entry.2.Regular

section Regularity

variable {r : Reading} {field : Field} {d changed : Declaration}

theorem regular_empty : empty.Regular :=
  .intro nofun List.nodup_nil nofun nofun nofun nofun nofun nofun

theorem isSignedWord_of_word? {written : Written} {bound : Int} (read : written.word? = some bound) :
    Numeral.isSignedWord bound := by
  cases written with
  | num number =>
    cases number with
    | int value =>
      simp only [Written.word?] at read
      split at read
      next fits =>
        cases read
        exact fits
      · cases read
    | float => cases read
  | unreadable | null | bool | str | arr | obj => cases read

theorem regular_of_nested? (sound : r.Sound) {inner : Option Declaration} (read : r.nested? = some inner) :
    ∀ d, inner = some d → d.Regular := by
  intro d same
  subst same
  unfold Reading.nested? at read
  split at read
  · cases read
  · obtain ⟨_, found, same⟩ := Option.map_eq_some_iff.mp read
    cases same
    exact sound.declaration d found

/-- One field more leaves a declaration regular. -/
theorem Regular.assign? (regular : d.Regular) (sound : r.Sound) (assigned : r.assign? field d = some changed) :
    changed.Regular := by
  obtain ⟨mapping, distinct, properties, items, additional, least, most, literal⟩ := regular
  cases field with
  | kind | description | required | allowed | minimum | maximum =>
    obtain ⟨_, _, rfl⟩ := Option.map_eq_some_iff.mp assigned
    exact .intro mapping distinct properties items additional least most literal
  | discriminator =>
    obtain ⟨_, read, rfl⟩ := Option.map_eq_some_iff.mp assigned
    refine .intro (fun x same => ?_) distinct properties items additional least most literal
    cases same
    exact Discriminator.distinct_of_ofWritten? (Written.orNull_eq_some_some read).2
  | properties =>
    obtain ⟨table, read, rfl⟩ := Option.map_eq_some_iff.mp assigned
    obtain ⟨distinct, properties⟩ := sound.table table read
    exact .intro mapping distinct properties items additional least most literal
  | items =>
    obtain ⟨_, read, rfl⟩ := Option.map_eq_some_iff.mp assigned
    exact .intro mapping distinct properties (regular_of_nested? sound read) additional least most literal
  | additional =>
    obtain ⟨_, read, rfl⟩ := Option.map_eq_some_iff.mp assigned
    exact .intro mapping distinct properties items (regular_of_nested? sound read) least most literal
  | minItems =>
    obtain ⟨_, read, rfl⟩ := Option.map_eq_some_iff.mp assigned
    refine .intro mapping distinct properties items additional (fun bound same => ?_) most literal
    cases same
    exact isSignedWord_of_word? (Written.orNull_eq_some_some read).2
  | maxItems =>
    obtain ⟨_, read, rfl⟩ := Option.map_eq_some_iff.mp assigned
    refine .intro mapping distinct properties items additional least (fun bound same => ?_) literal
    cases same
    exact isSignedWord_of_word? (Written.orNull_eq_some_some read).2
  | literal =>
    obtain ⟨_, read, rfl⟩ := Option.map_eq_some_iff.mp assigned
    refine .intro mapping distinct properties items additional least most (fun value same => ?_)
    cases same
    obtain ⟨present, read⟩ := Written.orNull_eq_some_some read
    exact ⟨Written.value?_ne_null present read, Written.wellFormed_of_value? read⟩

theorem Regular.assignAll {fields : List (Field × Reading)} (regular : d.Regular) (sound : ∀ entry ∈ fields, entry.2.Sound)
    (assigned : fields.foldlM (fun d (field, reading) => reading.assign? field d) d = some changed) : changed.Regular := by
  induction fields generalizing d with
  | nil =>
    cases assigned
    exact regular
  | cons first rest ih =>
    obtain ⟨here, later⟩ := List.forall_mem_cons.mp sound
    obtain ⟨next, read, assigned⟩ := Option.bind_eq_some_iff.mp assigned
    exact ih (regular.assign? here read) later assigned

theorem regular_of_ofMembers? {members : List (Option String × Reading)} (sound : ∀ entry ∈ members, entry.2.Sound)
    (read : ofMembers? members = some d) : d.Regular := by
  obtain ⟨fields, listed, read⟩ := Option.bind_eq_some_iff.mp read
  obtain ⟨pairs, all, rfl⟩ := Option.map_eq_some_iff.mp listed
  split at read
  · refine regular_empty.assignAll (fun entry member => ?_) read
    obtain ⟨⟨key, reading⟩, present, same⟩ := List.mem_filterMap.mp member
    obtain ⟨field, _, rfl⟩ := Option.map_eq_some_iff.mp same
    obtain ⟨_, member, same⟩ := Written.mem_of_pairs? all present
    cases same
    exact sound _ member
  · cases read

theorem regular_of_ofElements? {elements : List Reading} (sound : ∀ reading ∈ elements, reading.Sound)
    (read : ofElements? elements = some d) : d.Regular := by
  unfold ofElements? at read
  split at read
  · exact regular_empty.assignAll (fun entry member => sound _ (List.of_mem_zip member).2) read
  · cases read

theorem regular_of_tableOf? {members : List (Option String × Reading)} (sound : ∀ entry ∈ members, entry.2.Sound)
    {table : Entries Declaration} (read : tableOf? members = some table) :
    table.Distinct ∧ ∀ entry ∈ table, entry.2.Regular := by
  obtain ⟨pairs, all, rfl⟩ := Option.map_eq_some_iff.mp read
  refine ⟨Entries.distinct_collect pairs, fun entry member => ?_⟩
  obtain ⟨reading, present, found⟩ := Written.mem_of_pairs? all (Entries.mem_collect member)
  exact (sound _ present).declaration _ found

mutual
theorem sound_reading (written : Written) : (reading written).Sound := by
  cases written with
  | obj members =>
    have parts := sound_memberReadings members
    exact ⟨fun d read => regular_of_ofMembers? parts read, fun t read => regular_of_tableOf? parts read⟩
  | arr elements => exact ⟨fun d read => regular_of_ofElements? (sound_elementReadings elements) read, nofun⟩
  | unreadable | null | bool | num | str => exact ⟨nofun, nofun⟩

theorem sound_elementReadings (elements : List Written) : ∀ r ∈ elementReadings elements, r.Sound := by
  cases elements with
  | nil => exact nofun
  | cons element rest => exact List.forall_mem_cons.mpr ⟨sound_reading element, sound_elementReadings rest⟩

theorem sound_memberReadings (members : List (Option String × Written)) : ∀ entry ∈ memberReadings members, entry.2.Sound := by
  match members with
  | [] => exact nofun
  | (key, written) :: rest => exact List.forall_mem_cons.mpr ⟨sound_reading written, sound_memberReadings rest⟩
end

theorem regular_of_ofWritten? {written : Written} (read : ofWritten? written = some d) : d.Regular :=
  (sound_reading written).declaration d read

end Regularity

/-- What is written of a field; nothing when the field is left out. -/
def shown? (d : Declaration) : Field → Option Json
  | .kind => d.kind.map .str
  | .description => d.description.map .str
  | .required => some (.bool d.required)
  | .discriminator => d.discriminator.map Discriminator.toJson
  | .properties => filled .obj (tableMembers d.properties)
  | .items => nestedJson d.items
  | .additional => nestedJson d.additional
  | .minItems => d.minItems.map Json.ofInt
  | .maxItems => d.maxItems.map Json.ofInt
  | .allowed => filled Json.strings d.allowed
  | .minimum => d.minimum.map fun x => .num (.float x)
  | .maximum => d.maximum.map fun x => .num (.float x)
  | .literal => d.literal

/-- The declaration with one field taken from another. -/
def taking (field : Field) (source d : Declaration) : Declaration :=
  match field with
  | .kind => { d with kind := source.kind }
  | .description => { d with description := source.description }
  | .required => { d with required := source.required }
  | .discriminator => { d with discriminator := source.discriminator }
  | .properties => { d with properties := source.properties }
  | .items => { d with items := source.items }
  | .additional => { d with additional := source.additional }
  | .minItems => { d with minItems := source.minItems }
  | .maxItems => { d with maxItems := source.maxItems }
  | .allowed => { d with allowed := source.allowed }
  | .minimum => { d with minimum := source.minimum }
  | .maximum => { d with maximum := source.maximum }
  | .literal => { d with literal := source.literal }

section Restoring

variable {field other : Field} {d source : Declaration}

theorem taking_comm (apart : other ≠ field) (first second : Declaration) :
    taking other second (taking field first d) = taking field first (taking other second d) := by
  cases field <;> cases other <;> first | rfl | exact absurd rfl apart

/-- With every field taken from a declaration nothing else is left. -/
theorem foldl_taking_all (source d : Declaration) : Field.all.foldl (fun d field => taking field source d) d = source := by
  cases source
  rfl

theorem tableMembers_eq_map (table : List (String × Declaration)) :
    tableMembers table = table.map fun entry => (entry.1, entry.2.toJson) := by
  induction table with
  | nil => rfl
  | cons entry rest ih => rw [tableMembers, ih, List.map_cons]

theorem toJson_eq (d : Declaration) :
    d.toJson = .obj (Field.all.filterMap fun field => (d.shown? field).map (field.key, ·)) := by
  rw [List.filterMap_eq_flatMap_toList]
  cases d
  simp only [toJson, Field.all, List.flatMap_cons, List.flatMap_nil, List.append_nil, List.append_assoc]
  rfl

theorem eq_nil_of_filled {α : Type} {wrap : List α → Json} {content : List α} (absent : filled wrap content = none) :
    content = [] := by
  unfold filled at absent
  split at absent
  next empty => exact List.isEmpty_iff.mp empty
  · cases absent

/-- A field is left out only with the value that reading starts with. -/
theorem taking_of_absent (absent : source.shown? field = none) (d : Declaration) :
    taking field source d = taking field empty d := by
  cases field with
  | kind | description | discriminator | minItems | maxItems | minimum | maximum =>
    have none := Option.map_eq_none_iff.mp absent
    simp only [taking, none, empty]
  | required => cases absent
  | properties =>
    have none := eq_nil_of_filled absent
    rw [tableMembers_eq_map, List.map_eq_nil_iff] at none
    simp only [taking, none, empty]
  | allowed => simp only [taking, eq_nil_of_filled absent, empty]
  | items | additional =>
    simp only [shown?] at absent
    unfold nestedJson at absent
    split at absent
    next none => simp only [taking, none, empty]
    · cases absent
  | literal => simp only [taking, show source.literal = none from absent, empty]

theorem written_reading (written : Written) : (reading written).written = written := by
  cases written <;> rfl

theorem memberReadings_eq_map (members : List (Option String × Written)) :
    memberReadings members = members.map fun entry => (entry.1, reading entry.2) := by
  induction members with
  | nil => rfl
  | cons entry rest ih => rw [memberReadings, ih, List.map_cons]

theorem memberReadings_ofMembers (members : List (String × Json)) :
    memberReadings (Written.ofMembers members) = members.map fun entry => (some entry.1, reading (.ofJson entry.2)) := by
  rw [memberReadings_eq_map, Written.ofMembers_eq_map, List.map_map]
  rfl

/-- What a declaration needs for its fields to be restored, its parts being restored already. -/
structure Restorable (source : Declaration) : Prop where
  mapping : ∀ x, source.discriminator = some x → x.mapping.Distinct
  distinct : Entries.Distinct source.properties
  properties : ∀ entry ∈ source.properties, ofJson? entry.2.toJson = some entry.2
  items : ∀ inner, source.items = some inner → ofJson? inner.toJson = some inner
  additional : ∀ inner, source.additional = some inner → ofJson? inner.toJson = some inner
  least : ∀ bound, source.minItems = some bound → Numeral.isSignedWord bound
  most : ∀ bound, source.maxItems = some bound → Numeral.isSignedWord bound
  literal : ∀ value, source.literal = some value → value ≠ .null ∧ value.WellFormed

theorem table?_tableMembers {table : Entries Declaration} (distinct : table.Distinct)
    (restored : ∀ entry ∈ table, ofJson? entry.2.toJson = some entry.2) :
    (reading (.ofJson (.obj (tableMembers table)))).table? = some table := by
  have members : memberReadings (Written.ofMembers (tableMembers table)) =
      table.map fun entry => (some entry.1, reading (.ofJson entry.2.toJson)) := by
    rw [memberReadings_ofMembers, tableMembers_eq_map, List.map_map]
    rfl
  have pairs : Written.pairs? Reading.declaration? (memberReadings (Written.ofMembers (tableMembers table))) = some table := by
    rw [members]
    exact Written.pairs?_map (fun inner : Declaration => reading (.ofJson inner.toJson)) restored
  rw [Written.ofJson, reading, tableOf?, pairs, Option.map_some, Entries.collect_eq_self distinct]

theorem nested?_toJson {inner : Declaration} (restored : ofJson? inner.toJson = some inner) :
    (reading (.ofJson inner.toJson)).nested? = some (some inner) := by
  have present : Written.ofJson inner.toJson ≠ .null := Written.ofJson_ne_null (toJson_eq inner ▸ nofun)
  unfold Reading.nested?
  rw [written_reading]
  split
  next null => exact absurd null present
  · exact congrArg (Option.map some) restored

theorem nestedJson_eq_some {inner : Option Declaration} {value : Json} (shown : nestedJson inner = some value) :
    ∃ d, inner = some d ∧ value = d.toJson := by
  cases inner with
  | none => cases shown
  | some d =>
    cases shown
    exact ⟨d, rfl, rfl⟩

theorem filled_eq_some {α : Type} {wrap : List α → Json} {content : List α} {value : Json}
    (shown : filled wrap content = some value) : value = wrap content := by
  unfold filled at shown
  split at shown
  · cases shown
  · exact (Option.some.inj shown).symm

theorem word?_ofInt {bound : Int} (fits : Numeral.isSignedWord bound) :
    (Written.ofJson (.ofInt bound)).word? = some bound := by
  exact if_pos fits

theorem strings?_strings (texts : List String) : (Written.ofJson (.strings texts)).strings? = some texts := by
  have each : Written.string? ∘ Written.ofJson ∘ Json.str = fun text => pure (id text) := rfl
  rw [Json.strings, Written.ofJson, Written.ofElements_eq_map, List.map_map, Written.strings?, List.mapM_map, each,
    List.mapM_pure, List.map_id]
  rfl

/-- A field that is written is read back. -/
theorem assign?_of_shown (restorable : Restorable source) {value : Json} (shown : source.shown? field = some value)
    (d : Declaration) : (reading (.ofJson value)).assign? field d = some (taking field source d) := by
  unfold Reading.assign?
  rw [written_reading]
  cases field with
  | kind | description | minimum | maximum =>
    obtain ⟨x, has, rfl⟩ := Option.map_eq_some_iff.mp shown
    simp only [taking, has]
    rfl
  | required =>
    cases shown
    rfl
  | discriminator =>
    obtain ⟨x, has, rfl⟩ := Option.map_eq_some_iff.mp shown
    have present : Written.ofJson x.toJson ≠ .null := Written.ofJson_ne_null nofun
    have read := Discriminator.ofWritten?_toJson (restorable.mapping x has)
    simp only [taking, has, Written.orNull_of_ne_null present, read, Option.map_some]
  | properties =>
    obtain rfl := filled_eq_some shown
    simp only [table?_tableMembers restorable.distinct restorable.properties, Option.map_some, taking]
  | items =>
    obtain ⟨inner, has, rfl⟩ := nestedJson_eq_some shown
    simp only [taking, has, nested?_toJson (restorable.items inner has), Option.map_some]
  | additional =>
    obtain ⟨inner, has, rfl⟩ := nestedJson_eq_some shown
    simp only [taking, has, nested?_toJson (restorable.additional inner has), Option.map_some]
  | minItems =>
    obtain ⟨bound, has, rfl⟩ := Option.map_eq_some_iff.mp shown
    have present : Written.ofJson (.ofInt bound) ≠ .null := nofun
    simp only [taking, has, Written.orNull_of_ne_null present, word?_ofInt (restorable.least bound has), Option.map_some]
  | maxItems =>
    obtain ⟨bound, has, rfl⟩ := Option.map_eq_some_iff.mp shown
    have present : Written.ofJson (.ofInt bound) ≠ .null := nofun
    simp only [taking, has, Written.orNull_of_ne_null present, word?_ofInt (restorable.most bound has), Option.map_some]
  | allowed =>
    obtain rfl := filled_eq_some shown
    simp only [strings?_strings, Option.map_some, taking]
  | literal =>
    have has : source.literal = some value := shown
    obtain ⟨present, wellFormed⟩ := restorable.literal value has
    simp only [taking, has, Written.orNull_of_ne_null (Written.ofJson_ne_null present), Written.value?_ofJson wellFormed,
      Option.map_some]

/-- The fields of a declaration as they are read again. -/
def shownReadings (source : Declaration) (fields : List Field) : List (Field × Reading) :=
  fields.filterMap fun field => (source.shown? field).map fun value => (field, reading (.ofJson value))

/-- Reading the fields takes every one of them from the declaration, those that are left out included. -/
theorem foldlM_shownReadings (restorable : Restorable source) {fields : List Field} (once : fields.Nodup) {d : Declaration}
    (fresh : ∀ field ∈ fields, taking field empty d = d) :
    (source.shownReadings fields).foldlM (fun d (field, reading) => reading.assign? field d) d =
      some (fields.foldl (fun d field => taking field source d) d) := by
  induction fields generalizing d with
  | nil => rfl
  | cons field rest ih =>
    obtain ⟨apart, once⟩ := List.nodup_cons.mp once
    obtain ⟨here, others⟩ := List.forall_mem_cons.mp fresh
    have later : ∀ other ∈ rest, taking other empty (taking field source d) = taking field source d := by
      intro other member
      have different : other ≠ field := fun same => apart (same ▸ member)
      rw [taking_comm different, others other member]
    rw [List.foldl_cons, ← ih once later, shownReadings, List.filterMap_cons]
    cases shown : source.shown? field with
    | none => rw [taking_of_absent shown, here]; rfl
    | some value =>
      rw [Option.map_some, List.foldlM_cons]
      dsimp only
      rw [assign?_of_shown restorable shown]
      rfl

/-- An object with the members of a declaration has those fields and no others. -/
theorem fields?_shown (source : Declaration) :
    fields? (memberReadings (Written.ofMembers
      (Field.all.filterMap fun field => (source.shown? field).map (field.key, ·)))) = some (source.shownReadings Field.all) := by
  let readings : Entries Reading :=
    Field.all.filterMap fun field => (source.shown? field).map fun value => (field.key, reading (.ofJson value))
  have members : memberReadings (Written.ofMembers (Field.all.filterMap fun field => (source.shown? field).map (field.key, ·))) =
      readings.map fun entry => (some entry.1, entry.2) := by
    rw [memberReadings_ofMembers, List.map_filterMap, List.map_filterMap]
    simp only [Option.map_map]
    rfl
  have named : (readings.filterMap fun entry => (Field.ofKey? entry.1).map (·, entry.2)) =
      source.shownReadings Field.all := by
    rw [List.filterMap_filterMap]
    refine List.filterMap_congr fun field _ => ?_
    cases source.shown? field with
    | none => rfl
    | some value => simp only [Option.map_some, Option.bind_some, Field.ofKey?_key]
  rw [fields?, members, Written.pairs?_map (fun reading => reading) fun _ _ => rfl, Option.map_some]
  exact congrArg some named

theorem nodup_shownReadings (source : Declaration) : ((source.shownReadings Field.all).map Prod.fst).Nodup := by
  have fields : (source.shownReadings Field.all).map Prod.fst =
      Field.all.filterMap fun field => (source.shown? field).map fun _ => field := by
    rw [shownReadings, List.map_filterMap]
    simp only [Option.map_map]
    rfl
  rw [fields]
  refine List.Nodup.filterMap (fun first second field here there => ?_) (by decide)
  obtain ⟨_, _, rfl⟩ := Option.map_eq_some_iff.mp here
  obtain ⟨_, _, same⟩ := Option.map_eq_some_iff.mp there
  exact same.symm

theorem ofJson?_of_restorable (restorable : Restorable source) : ofJson? source.toJson = some source := by
  have fresh : ∀ field ∈ Field.all, taking field empty empty = empty := by
    intro field _
    cases field <;> rfl
  have read := foldlM_shownReadings restorable (by decide) fresh
  rw [foldl_taking_all] at read
  rw [toJson_eq, ofJson?, ofWritten?, Written.ofJson, reading, ofMembers?, fields?_shown]
  exact (if_pos (nodup_shownReadings source)).trans read

theorem Regular.ofJson?_toJson (regular : d.Regular) : ofJson? d.toJson = some d := by
  induction regular with
  | intro mapping distinct _ _ _ least most literal properties items additional =>
    exact ofJson?_of_restorable ⟨mapping, distinct, properties, items, additional, least, most, literal⟩

end Restoring

/-- Whatever a declaration was read from, the declaration is written so that it reads back as it is, and so it compiles
to the same node, or fails in the same way, at every place. -/
theorem ofJson?_toJson_of_read {value : Json} {d : Declaration} (read : ofJson? value = some d) :
    ofJson? d.toJson = some d ∧ ∀ place, (ofJson? d.toJson).map (compile place) = some (d.compile place) := by
  have restored : ofJson? d.toJson = some d := (regular_of_ofWritten? read).ofJson?_toJson
  refine ⟨restored, fun place => ?_⟩
  rw [restored, Option.map_some]

/-- A declaration in the form of a list, with parts in both forms, with nulls and with a key that is skipped. -/
def shelf : Json :=
  .arr [.str "object", .null, .bool true, .arr [.str "kind", .obj [("b", .str "Book"), ("a", .str "Atlas")]],
    .obj [
      ("title", .obj [("example", .str "x"), ("enum", .arr [.str "x", .str "y"]), ("colour", .null), ("type", .str "string")]),
      ("pages", .arr [.str "array", .str "at least one", .bool false, .null, .obj [],
        .obj [("type", .str "integer"), ("example", .null)], .null, .num (.int 1), .null])]]

def shelfDeclaration : Declaration :=
  { empty with
    kind := some "object"
    required := true
    discriminator := some ⟨"kind", [("b", "Book"), ("a", "Atlas")]⟩
    properties := [
      ("title", { empty with kind := some "string", allowed := ["x", "y"], literal := some (.str "x") }),
      ("pages", { empty with
        kind := some "array", description := some "at least one", items := some { empty with kind := some "integer" },
        minItems := some 1 })] }

theorem ofJson?_toJson_of_read_shelf :
    ofJson? shelf = some shelfDeclaration ∧ ofJson? shelfDeclaration.toJson = some shelfDeclaration ∧
    ∀ place, (ofJson? shelfDeclaration.toJson).map (compile place) = some (shelfDeclaration.compile place) := by
  have read : ofJson? shelf = some shelfDeclaration := rfl
  exact ⟨read, ofJson?_toJson_of_read read⟩

end Declaration

end SchemaGuide
