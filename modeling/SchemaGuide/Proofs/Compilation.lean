import Mathlib.Data.List.Forall2
import SchemaGuide.Declaration.Compile

/-! Declarations compiled. A declaration and, below it, the parts that its kind reads are visited in the order in which
they are declared; whatever else a declaration holds is ignored. Compiling stops at the first visit to a declaration that
does not have what its kind needs. Otherwise it makes one node of every visit, at the same place. -/

namespace SchemaGuide

/-- The value may be an example of the kind. Only texts, numbers and truth values have a JSON type of their own. -/
def Json.Suits (value : Json) : Kind → Prop
  | .string => ∃ text, value = .str text
  | .number => ∃ number, value = .num number
  | .boolean => ∃ flag, value = .bool flag
  | _ => True

theorem Json.string?_eq_some_iff (value : Json) (text : String) : value.string? = some text ↔ value = .str text := by
  cases value <;> simp [string?]

theorem Json.bool?_eq_some_iff (value : Json) (flag : Bool) : value.bool? = some flag ↔ value = .bool flag := by
  cases value <;> simp [bool?]

/-- What stands below a step, as seen from above it. -/
def Location.under {α : Type} (step : Descent) (visits : List (Location × α)) : List (Location × α) :=
  visits.map fun visit => (step :: visit.1, visit.2)

namespace Declaration

/-- The kind that the word of a declaration means. -/
def declaredKind (d : Declaration) : Kind := (d.kind.map Kind.ofWord).getD .unspecified

/-- The kind of its node. -/
def shape (d : Declaration) : Kind := nodeKind d.kind d.properties d.additional

/-- An object that has no properties and admits additional ones, which makes a map of it. -/
def Open (d : Declaration) : Prop := d.declaredKind = .object ∧ d.properties = [] ∧ d.additional.isSome

def header (d : Declaration) : Header :=
  { description := d.description, required := d.required, discriminator := d.discriminator }

/-- The kind of a declaration reads the part below the step. An object without properties reads what it admits besides. -/
inductive Reads (d : Declaration) : Descent → Declaration → Prop where
  | property {key : String} {part : Declaration} (object : d.declaredKind = .object)
      (declared : (key, part) ∈ d.properties) : Reads d (.property key) part
  | items {part : Declaration} (array : d.declaredKind = .array) (declared : d.items = some part) : Reads d .items part
  | values {part : Declaration} (map : d.declaredKind = .map ∨ d.declaredKind = .object ∧ d.properties = [])
      (declared : d.additional = some part) : Reads d .values part

/-- `inner` stands at the location and is reached through parts that are read. -/
inductive Live (inner : Declaration) : Location → Declaration → Prop where
  | here : Live inner [] inner
  | part {d part : Declaration} {step : Descent} {rest : Location} (read : d.Reads step part)
      (deeper : Live inner rest part) : Live inner (step :: rest) d

/-- What a declaration lacks for its kind, in the words of the failure. -/
inductive Defective (d : Declaration) : String → Prop where
  | array (array : d.declaredKind = .array) (lacks : d.items = none) : Defective d "array node has no items"
  | map (map : d.declaredKind = .map) (lacks : d.additional = none) : Defective d "map node has no additionalProperties"
  | literal {value : Json} (has : d.literal = some value) (misfit : ¬ value.Suits d.declaredKind) :
      Defective d ("example " ++ value.compact ++ " does not fit a " ++ d.declaredKind.word ++ " node")

def Sound (d : Declaration) : Prop := ∀ reason, ¬ d.Defective reason

theorem sound_intro {d : Declaration} (array : d.declaredKind = .array → d.items ≠ none)
    (map : d.declaredKind = .map → d.additional ≠ none)
    (literal : ∀ value, d.literal = some value → value.Suits d.declaredKind) : d.Sound := by
  intro reason defective
  cases defective with
  | array declared lacks => exact array declared lacks
  | map declared lacks => exact map declared lacks
  | literal has misfit => exact misfit (literal _ has)

/-- The node has all that the declaration says itself, and the kind of parts that it reads. -/
inductive Describes (d : Declaration) : Node → Prop where
  | object {properties : List (String × Node)} (object : d.declaredKind = .object ∧ ¬ d.Open) :
      Describes d (.object d.header properties)
  | array {items : Node} (array : d.declaredKind = .array) : Describes d (.array d.header items d.minItems d.maxItems)
  | map {values : Node} (map : d.declaredKind = .map ∨ d.Open) : Describes d (.map d.header values)
  | string {literal : Option String} (string : d.declaredKind = .string) (same : d.literal = literal.map .str) :
      Describes d (.scalar d.header (.string d.allowed literal))
  | number {literal : Option Number} (number : d.declaredKind = .number) (same : d.literal = literal.map .num) :
      Describes d (.scalar d.header (.number d.minimum d.maximum literal))
  | boolean {literal : Option Bool} (boolean : d.declaredKind = .boolean) (same : d.literal = literal.map .bool) :
      Describes d (.scalar d.header (.boolean literal))
  | unspecified (unspecified : d.declaredKind = .unspecified) :
      Describes d (.scalar d.header (.unspecified d.literal))

/-- The node stands where the declaration stands, and is described by it. -/
def Matches (visit : Location × Declaration) (made : Location × Node) : Prop :=
  made.1 = visit.1 ∧ visit.2.Describes made.2

/-- The parts that are read, in the order of declaration. -/
def parts (d : Declaration) : List (Descent × Declaration) :=
  match d.shape with
  | .object => d.properties.map fun entry => (.property entry.1, entry.2)
  | .array => d.items.toList.map (.items, ·)
  | .map => d.additional.toList.map (.values, ·)
  | _ => []

theorem shape_cases (d : Declaration) : d.shape = .map ∧ d.Open ∨ d.shape = d.declaredKind ∧ ¬ d.Open := by
  unfold shape nodeKind
  split
  next object =>
    split
    next empty =>
      left
      exact ⟨rfl, object, by simpa using empty⟩
    next filled =>
      right
      exact ⟨object.symm, by simpa [Open, declaredKind, object] using filled⟩
  next other =>
    right
    exact ⟨rfl, fun admits => other admits.1⟩

theorem shape_eq_object_iff {d : Declaration} : d.shape = .object ↔ d.declaredKind = .object ∧ ¬ d.Open := by
  rcases shape_cases d with ⟨shape, admits⟩ | ⟨shape, closed⟩
  · simp [shape, admits]
  · simp [shape, closed]

theorem shape_eq_map_iff {d : Declaration} : d.shape = .map ↔ d.declaredKind = .map ∨ d.Open := by
  rcases shape_cases d with ⟨shape, admits⟩ | ⟨shape, closed⟩
  · simp [shape, admits]
  · simp [shape, closed]

theorem shape_eq_iff {d : Declaration} {kind : Kind} (notObject : kind ≠ .object) (notMap : kind ≠ .map) :
    d.shape = kind ↔ d.declaredKind = kind := by
  rcases shape_cases d with ⟨shape, admits⟩ | ⟨shape, _⟩
  · rw [shape, admits.1]
    exact ⟨fun same => absurd same.symm notMap, fun same => absurd same.symm notObject⟩
  · rw [shape]

theorem mem_parts {d part : Declaration} {step : Descent} : (step, part) ∈ d.parts ↔ d.Reads step part := by
  constructor
  · intro member
    unfold parts at member
    split at member
    next object =>
      obtain ⟨entry, declared, same⟩ := List.mem_map.mp member
      cases same
      exact .property (shape_eq_object_iff.mp object).1 declared
    next array =>
      obtain ⟨_, declared, same⟩ := List.mem_map.mp member
      cases same
      exact .items ((shape_eq_iff (by decide) (by decide)).mp array) (Option.mem_toList.mp declared)
    next map =>
      obtain ⟨_, declared, same⟩ := List.mem_map.mp member
      cases same
      refine .values ?_ (Option.mem_toList.mp declared)
      exact (shape_eq_map_iff.mp map).imp_right fun admits => ⟨admits.1, admits.2.1⟩
    · cases member
  · intro read
    unfold parts
    cases read with
    | @property key _ object declared =>
      have closed : ¬ d.Open := fun admits => List.ne_nil_of_mem declared admits.2.1
      rw [shape_eq_object_iff.mpr ⟨object, closed⟩]
      exact List.mem_map.mpr ⟨_, declared, rfl⟩
    | items array declared =>
      rw [(shape_eq_iff (by decide) (by decide)).mpr array]
      exact List.mem_map.mpr ⟨_, Option.mem_toList.mpr declared, rfl⟩
    | values map declared =>
      have admits : d.additional.isSome := Option.isSome_of_eq_some declared
      rw [shape_eq_map_iff.mpr (map.imp_right fun empty => ⟨empty.1, empty.2, admits⟩)]
      exact List.mem_map.mpr ⟨_, Option.mem_toList.mpr declared, rfl⟩

theorem sizeOf_lt_of_mem_parts {d : Declaration} {entry : Descent × Declaration} (member : entry ∈ d.parts) :
    sizeOf entry.2 < sizeOf d := by
  obtain ⟨step, part⟩ := entry
  cases d
  cases mem_parts.mp member with
  | @property key _ _ declared =>
    have smaller := List.sizeOf_lt_of_mem declared
    simp only [Prod.mk.sizeOf_spec, mk.sizeOf_spec] at smaller ⊢
    omega
  | items _ declared | values _ declared =>
    simp only at declared
    simp only [declared, mk.sizeOf_spec, Option.some.sizeOf_spec]
    omega

/-- The declaration and those that are read below it, each before those below it and in the order of declaration. -/
def live (d : Declaration) : List (Location × Declaration) :=
  ([], d) :: d.parts.attach.flatMap fun entry => Location.under entry.1.1 entry.1.2.live
termination_by sizeOf d
decreasing_by exact sizeOf_lt_of_mem_parts entry.2

theorem live_eq (d : Declaration) : d.live = ([], d) :: d.parts.flatMap fun entry => Location.under entry.1 entry.2.live := by
  have each : d.parts.flatMap (fun entry => Location.under entry.1 entry.2.live) =
      (d.parts.attach.map Subtype.val).flatMap fun entry => Location.under entry.1 entry.2.live := by
    rw [List.attach_map_subtype_val]
  rw [live, each, List.flatMap_map]

theorem compile_eq (place : String) (d : Declaration) : d.compile place =
    match d.shape with
    | .object => (compileProperties place d.properties).map (.object d.header)
    | .map => (compileNested (place ++ Descent.values.text) (.invalidFormat place "map node has no additionalProperties")
        d.additional).map (.map d.header)
    | .array => (compileNested (place ++ Descent.items.text) (.invalidFormat place "array node has no items")
        d.items).map fun items => .array d.header items d.minItems d.maxItems
    | .string => (literalOf place .string Json.string? d.literal).map fun literal =>
        .scalar d.header (.string d.allowed literal)
    | .number => (literalOf place .number number? d.literal).map fun literal =>
        .scalar d.header (.number d.minimum d.maximum literal)
    | .boolean => (literalOf place .boolean Json.bool? d.literal).map fun literal => .scalar d.header (.boolean literal)
    | .unspecified => .ok (.scalar d.header (.unspecified d.literal)) := by
  cases d
  rw [compile]
  rfl

/-- What holds of a declaration whenever it holds of the parts that it reads holds of all declarations. -/
theorem induction_on_parts {motive : Declaration → Prop}
    (read : ∀ d, (∀ entry ∈ d.parts, motive entry.2) → motive d) (d : Declaration) : motive d :=
  read d fun entry _ => induction_on_parts read entry.2
termination_by sizeOf d
decreasing_by exact sizeOf_lt_of_mem_parts ‹_›

theorem mem_live {location : Location} {inner d : Declaration} : (location, inner) ∈ d.live ↔ Live inner location d := by
  induction d using induction_on_parts generalizing location with
  | read d ih =>
    rw [live_eq, List.mem_cons, List.mem_flatMap]
    constructor
    · rintro (same | ⟨entry, member, listed⟩)
      · cases same
        exact .here
      · obtain ⟨visit, inside, same⟩ := List.mem_map.mp listed
        cases same
        exact .part (mem_parts.mp member) ((ih _ member).mp inside)
    · intro live
      cases live with
      | here => exact .inl rfl
      | part read deeper =>
        have member := mem_parts.mpr read
        exact .inr ⟨_, member, List.mem_map.mpr ⟨_, (ih _ member).mpr deeper, rfl⟩⟩

/-- What comes of compiling visits one after another: a node for each of them, or a failure at the first that is defective. -/
inductive Outcome (place : String) (visits : List (Location × Declaration)) :
    Except Failure (List (Location × Node)) → Prop where
  | made {nodes : List (Location × Node)} (sound : ∀ visit ∈ visits, visit.2.Sound)
      (matched : List.Forall₂ Matches visits nodes) : Outcome place visits (.ok nodes)
  | stopped {before after : List (Location × Declaration)} {location : Location} {inner : Declaration} {reason : String}
      (reached : visits = before ++ (location, inner) :: after) (earlier : ∀ visit ∈ before, visit.2.Sound)
      (defective : inner.Defective reason) : Outcome place visits (.error (.invalidFormat (place ++ location.text) reason))

namespace Outcome

variable {place : String} {visits others : List (Location × Declaration)}
  {result later : Except Failure (List (Location × Node))}

theorem append (first : Outcome place visits result) (second : Outcome place others later) :
    Outcome place (visits ++ others) (result.bind fun nodes => later.map (nodes ++ ·)) := by
  cases first with
  | stopped reached earlier defective =>
    rw [reached, List.append_assoc]
    exact .stopped rfl earlier defective
  | made sound matched =>
    cases second with
    | stopped reached earlier defective =>
      rw [reached, ← List.append_assoc]
      exact .stopped rfl (List.forall_mem_append.mpr ⟨sound, earlier⟩) defective
    | made soundToo matchedToo =>
      exact .made (List.forall_mem_append.mpr ⟨sound, soundToo⟩) (List.rel_append matched matchedToo)

/-- Places below a step begin with it. -/
theorem under {step : Descent} (outcome : Outcome (place ++ step.text) visits result) :
    Outcome place (Location.under step visits) (result.map (Location.under step)) := by
  cases outcome with
  | made sound matched =>
    refine .made (List.forall_mem_map.mpr sound) ?_
    rw [Location.under, Location.under, List.forall₂_map_left_iff, List.forall₂_map_right_iff]
    refine matched.imp ?_
    rintro visit made ⟨same, described⟩
    exact ⟨congrArg (step :: ·) same, described⟩
  | @stopped before after location inner reason reached earlier defective =>
    have text : place ++ step.text ++ location.text = place ++ Location.text (step :: location) := by
      rw [String.append_assoc, Location.text, Location.text, List.map_cons, String.join_cons]
    rw [reached, Location.under, List.map_append, List.map_cons, text]
    exact .stopped rfl (List.forall_mem_map.mpr earlier) defective

theorem failed {d : Declaration} {reason : String} (defective : d.Defective reason) :
    Outcome place (([], d) :: visits) (.error (.invalidFormat place reason)) := by
  have stopped : Outcome place (([], d) :: visits) (.error (.invalidFormat (place ++ Location.text []) reason)) :=
    .stopped (List.nil_append _).symm nofun defective
  simpa [Location.text] using stopped

/-- A sound declaration adds its node to those of its parts. -/
theorem cons {α : Type} {d : Declaration} {build : α → Node} {listed : α → List (Location × Node)}
    {result : Except Failure α} (sound : d.Sound) (described : ∀ parts, result = .ok parts → d.Describes (build parts))
    (occurrences : ∀ parts, (build parts).occurrences = ([], build parts) :: listed parts)
    (outcome : Outcome place visits (result.map listed)) :
    Outcome place (([], d) :: visits) ((result.map build).map Node.occurrences) := by
  cases result with
  | error failure =>
    cases outcome with
    | stopped reached earlier defective =>
      rw [reached, ← List.cons_append]
      exact .stopped rfl (List.forall_mem_cons.mpr ⟨sound, earlier⟩) defective
  | ok parts =>
    cases outcome with
    | made soundBelow matched =>
      refine .made (List.forall_mem_cons.mpr ⟨sound, soundBelow⟩) ?_
      rw [occurrences]
      exact .cons ⟨rfl, described parts rfl⟩ matched

end Outcome

/-- Wherever the declaration is placed, compiling it does with each visit what is due. -/
def Faithful (d : Declaration) : Prop := ∀ place, Outcome place d.live ((d.compile place).map Node.occurrences)

/-- The parts of an object are compiled one after another. -/
theorem outcome_compileProperties (place : String) {properties : List (String × Declaration)}
    (each : ∀ entry ∈ properties, entry.2.Faithful) :
    Outcome place (properties.flatMap fun entry => Location.under (.property entry.1) entry.2.live)
      ((compileProperties place properties).map Node.propertyOccurrences) := by
  induction properties with
  | nil => exact .made nofun .nil
  | cons entry rest ih =>
    obtain ⟨key, part⟩ := entry
    obtain ⟨here, later⟩ := List.forall_mem_cons.mp each
    have joined : (compileProperties place ((key, part) :: rest)).map Node.propertyOccurrences =
        (((part.compile (place ++ (Descent.property key).text)).map Node.occurrences).map
          (Location.under (.property key))).bind fun nodes =>
            ((compileProperties place rest).map Node.propertyOccurrences).map (nodes ++ ·) := by
      rw [compileProperties]
      cases part.compile (place ++ (Descent.property key).text) with
      | error => rfl
      | ok node => cases compileProperties place rest <;> rfl
    rw [joined, List.flatMap_cons]
    exact (here _).under.append (ih later)

/-- What a declaration needs one part for is missing, or made of it. -/
theorem outcome_compileNested {place : String} {d : Declaration} {step : Descent} {nested : Option Declaration}
    {reason : String} {build : Node → Node} (parts : d.parts = nested.toList.map (step, ·))
    (missing : nested = none → d.Defective reason) (sound : nested ≠ none → d.Sound)
    (described : ∀ node, d.Describes (build node))
    (occurrences : ∀ node, (build node).occurrences = ([], build node) :: Location.under step node.occurrences)
    (each : ∀ entry ∈ d.parts, entry.2.Faithful) :
    Outcome place (([], d) :: d.parts.flatMap fun entry => Location.under entry.1 entry.2.live)
      (((compileNested (place ++ step.text) (.invalidFormat place reason) nested).map build).map Node.occurrences) := by
  cases nested with
  | none => exact .failed (missing rfl)
  | some part =>
    have single : d.parts = [(step, part)] := parts
    have below := (each (step, part) (single ▸ List.mem_singleton_self _) (place ++ step.text)).under
    have listed : ((part.compile (place ++ step.text)).map Node.occurrences).map (Location.under step) =
        (part.compile (place ++ step.text)).map fun node => Location.under step node.occurrences := by
      cases part.compile (place ++ step.text) <;> rfl
    rw [listed] at below
    rw [single, List.flatMap_singleton, compileNested]
    exact below.cons (sound nofun) (fun node _ => described node) occurrences

theorem number?_eq_some_iff (value : Json) (number : Number) : number? value = some number ↔ value = .num number := by
  cases value <;> simp [number?]

/-- An example is taken over when it has the type that the kind wants. -/
theorem outcome_literalOf {place : String} {d : Declaration} {kind : Kind} {α : Type} {accept? : Json → Option α}
    {embed : α → Json} {form : Option α → Scalar} (shape : d.shape = kind) (scalar : kind ∈ [Kind.string, .number, .boolean])
    (suits : ∀ value, value.Suits kind ↔ ∃ x, value = embed x)
    (accepted : ∀ value x, accept? value = some x ↔ value = embed x)
    (described : ∀ literal : Option α, d.declaredKind = kind → d.literal = literal.map embed →
      d.Describes (.scalar d.header (form literal))) :
    Outcome place (([], d) :: d.parts.flatMap fun entry => Location.under entry.1 entry.2.live)
      (((literalOf place kind accept? d.literal).map fun literal => .scalar d.header (form literal)).map Node.occurrences) := by
  have declared : d.declaredKind = kind := by
    refine (shape_eq_iff ?_ ?_).mp shape <;>
    · rintro rfl
      simp at scalar
  have parts : d.parts = [] := by
    simp only [List.mem_cons, List.not_mem_nil, or_false] at scalar
    rcases scalar with rfl | rfl | rfl <;> rw [parts, shape]
  subst declared
  have sound (literal : ∀ value, d.literal = some value → value.Suits d.declaredKind) : d.Sound := by
    refine sound_intro ?_ ?_ literal <;>
    · intro other
      rw [other] at scalar
      simp at scalar
  rw [parts]
  cases has : d.literal with
  | none =>
    have made : d.Describes (.scalar d.header (form none)) := described none rfl has
    have fits : d.Sound := sound fun value same => nomatch has.symm.trans same
    exact .made (List.forall_mem_singleton.mpr fits) (.cons ⟨rfl, made⟩ .nil)
  | some value =>
    cases taken : accept? value with
    | none =>
      have misfit : ¬ value.Suits d.declaredKind := by
        rw [suits]
        rintro ⟨x, same⟩
        exact nomatch taken.symm.trans ((accepted value x).mpr same)
      rw [literalOf, taken]
      exact .failed (.literal has misfit)
    | some x =>
      have same := (accepted value x).mp taken
      have made : d.Describes (.scalar d.header (form (some x))) := described (some x) rfl (has.trans (congrArg some same))
      have fits : d.Sound := by
        refine sound fun other again => ?_
        cases has.symm.trans again
        exact (suits value).mpr ⟨x, same⟩
      rw [literalOf, taken]
      exact .made (List.forall_mem_singleton.mpr fits) (.cons ⟨rfl, made⟩ .nil)

theorem faithful (d : Declaration) : d.Faithful := by
  induction d using induction_on_parts with
  | read d ih =>
    intro place
    rw [live_eq, compile_eq]
    cases shape : d.shape with
    | object =>
      have object := shape_eq_object_iff.mp shape
      have parts : d.parts = d.properties.map fun entry => (.property entry.1, entry.2) := by rw [parts, shape]
      rw [parts] at ih ⊢
      rw [List.flatMap_map]
      have below := outcome_compileProperties place fun entry member => ih _ (List.mem_map_of_mem member)
      refine below.cons (sound_intro ?_ ?_ ?_) (fun _ _ => .object object) fun _ => rfl
      all_goals simp [object.1, Json.Suits]
    | map =>
      have map := shape_eq_map_iff.mp shape
      have parts : d.parts = d.additional.toList.map (.values, ·) := by rw [parts, shape]
      refine outcome_compileNested parts ?_ ?_ (fun _ => .map map) (fun _ => rfl) ih
      · intro lacks
        refine .map (map.resolve_right ?_) lacks
        simp [Open, lacks]
      · intro present
        have container : d.declaredKind = .map ∨ d.declaredKind = .object := map.imp_right And.left
        rcases container with declared | declared
        all_goals refine sound_intro ?_ (fun _ => present) ?_ <;> simp [declared, Json.Suits]
    | array =>
      have array := (shape_eq_iff (by decide) (by decide)).mp shape
      have parts : d.parts = d.items.toList.map (.items, ·) := by rw [parts, shape]
      refine outcome_compileNested parts (.array array) ?_ (fun _ => .array array) (fun _ => rfl) ih
      intro present
      refine sound_intro (fun _ => present) ?_ ?_ <;> simp [array, Json.Suits]
    | string => exact outcome_literalOf shape (by decide) (fun _ => Iff.rfl) Json.string?_eq_some_iff fun _ => .string
    | number => exact outcome_literalOf shape (by decide) (fun _ => Iff.rfl) number?_eq_some_iff fun _ => .number
    | boolean => exact outcome_literalOf shape (by decide) (fun _ => Iff.rfl) Json.bool?_eq_some_iff fun _ => .boolean
    | unspecified =>
      have unspecified := (shape_eq_iff (by decide) (by decide)).mp shape
      have parts : d.parts = [] := by rw [parts, shape]
      have sound : d.Sound := by
        refine sound_intro ?_ ?_ ?_ <;> simp [unspecified, Json.Suits]
      rw [parts]
      exact .made (List.forall_mem_singleton.mpr sound) (.cons ⟨rfl, .unspecified unspecified⟩ .nil)

/-- The first defective declaration among those that are read: its place, and what it lacks. -/
inductive FirstDefect (d : Declaration) : Location → String → Prop where
  | at {before after : List (Location × Declaration)} {location : Location} {inner : Declaration} {reason : String}
      (reached : d.live = before ++ (location, inner) :: after) (earlier : ∀ visit ∈ before, visit.2.Sound)
      (defective : inner.Defective reason) : FirstDefect d location reason

/-- A declaration compiles unless one that is read in it is defective, and then it fails at the place of the first of
these. The nodes that it compiles to are those of the declarations that are read, one for each, in their places. -/
theorem compile_first_defect (place : String) (d : Declaration) :
    (∀ location inner, (location, inner) ∈ d.live ↔ Live inner location d) ∧
    ((∃ failure, d.compile place = .error failure) ↔
      ∃ location inner reason, Live inner location d ∧ inner.Defective reason) ∧
    (∀ failure, d.compile place = .error failure → ∃ location reason, d.FirstDefect location reason ∧
      failure = .invalidFormat (place ++ String.join (location.map Descent.text)) reason) ∧
    ∀ node, d.compile place = .ok node → List.Forall₂ Matches d.live node.occurrences := by
  refine ⟨fun _ _ => mem_live, ?_⟩
  have outcome := faithful d place
  cases compiled : d.compile place with
  | ok node =>
    rw [compiled] at outcome
    cases outcome with
    | made sound matched =>
      refine ⟨⟨nofun, ?_⟩, nofun, ?_⟩
      · rintro ⟨location, inner, reason, live, defective⟩
        exact absurd defective (sound _ (mem_live.mpr live) reason)
      · intro other same
        cases same
        exact matched
  | error failure =>
    rw [compiled] at outcome
    cases outcome with
    | stopped reached earlier defective =>
      refine ⟨⟨fun _ => ?_, fun _ => ⟨_, rfl⟩⟩, ?_, nofun⟩
      · exact ⟨_, _, _, mem_live.mp (reached ▸ List.mem_append_right _ List.mem_cons_self), defective⟩
      · intro other same
        cases same
        exact ⟨_, _, .at reached earlier defective, rfl⟩

/-- A bench with drawers. The parts that would not compile are not read: a number has no elements, and an object with
properties does not ask for additional ones. -/
def bench : Declaration :=
  { empty with
    kind := some "object"
    required := true
    properties := [
      ("width", { empty with
        kind := some "integer", literal := some (.num (.int 2)), items := some { empty with kind := some "array" } }),
      ("drawers", { empty with
        kind := some "object"
        additional := some { empty with kind := some "array", items := some empty, minItems := some 1 } })]
    additional := some { empty with kind := some "map" } }

def benchNode : Node :=
  .object { required := true } [
    ("width", .scalar {} (.number none none (some (.int 2)))),
    ("drawers", .map {} (.array {} (.scalar {} (.unspecified none)) (some 1) none))]

/-- A bench with two more parts, of which neither is what it should be. -/
def brokenBench : Declaration :=
  { bench with
    properties := bench.properties ++ [
      ("lamp", { empty with kind := some "boolean", literal := some (.str "on") }),
      ("tools", { empty with kind := some "array" })] }

theorem compile_first_defect_bench :
    bench.compile "bench" = .ok benchNode ∧ List.Forall₂ Matches bench.live benchNode.occurrences ∧
    brokenBench.compile "bench" = .error (.invalidFormat "bench.lamp" "example \"on\" does not fit a boolean node") ∧
    ∃ location, brokenBench.FirstDefect location "example \"on\" does not fit a boolean node" ∧
      "bench.lamp" = "bench" ++ String.join (location.map Descent.text) := by
  have compiled : bench.compile "bench" = .ok benchNode := by rfl
  have failed : brokenBench.compile "bench" =
      .error (.invalidFormat "bench.lamp" "example \"on\" does not fit a boolean node") := by rfl
  obtain ⟨_, _, _, matched⟩ := compile_first_defect "bench" bench
  obtain ⟨_, _, first, _⟩ := compile_first_defect "bench" brokenBench
  obtain ⟨location, reason, defect, same⟩ := first _ failed
  injection same with place because
  subst because
  exact ⟨compiled, matched _ compiled, failed, location, defect, place⟩

end Declaration

end SchemaGuide
