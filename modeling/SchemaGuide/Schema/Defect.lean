/-!
Defects of a schema: mistakes in the definitions, kept apart from problems of documents. A check that a defect makes
impossible is skipped and the defect is reported once.
-/

namespace SchemaGuide

inductive Severity where
  | warning
  | error
  deriving DecidableEq

def Severity.word : Severity → String
  | warning => "warning"
  | error => "error"

namespace Defect

inductive Code where
  | unresolvedTarget
  | negativeMinItems
  | negativeMaxItems
  /-- A tag is mapped to a definition that is not an object, so no field can hold the tag. -/
  | untaggableTarget
  | emptyMapping
  deriving DecidableEq

namespace Code

def all : List Code := [unresolvedTarget, negativeMinItems, negativeMaxItems, untaggableTarget, emptyMapping]

def name : Code → String
  | unresolvedTarget => "UnresolvedDiscriminatorTarget"
  | negativeMinItems => "NegativeMinItems"
  | negativeMaxItems => "NegativeMaxItems"
  | untaggableTarget => "UntaggableTarget"
  | emptyMapping => "EmptyDiscriminatorMapping"

def short : Code → String
  | unresolvedTarget => "E001"
  | negativeMinItems => "E002"
  | negativeMaxItems => "E003"
  | untaggableTarget => "W001"
  | emptyMapping => "W002"

def severity : Code → Severity
  | unresolvedTarget => .error
  | negativeMinItems => .error
  | negativeMaxItems => .error
  | untaggableTarget => .warning
  | emptyMapping => .warning

def ofName? (name : String) : Option Code := all.find? (·.name = name)

end Code

end Defect

structure Defect where
  definition : String
  /-- Where in the definition, as locations are shown. -/
  location : String
  code : Defect.Code
  message : String
  deriving DecidableEq

namespace Defect

def severity (defect : Defect) : Severity := defect.code.severity

def display (defect : Defect) : String :=
  "[" ++ defect.code.short ++ "] " ++ defect.severity.word ++ ": " ++ defect.message ++
    " (" ++ defect.definition ++ " at " ++ defect.location ++ ")"

def unresolved (definition location tag target : String) : Defect :=
  ⟨definition, location, .unresolvedTarget,
    "discriminator tag '" ++ tag ++ "' maps to unknown definition '" ++ target ++ "'"⟩

def negativeBound (definition location : String) (code : Code) (bound : Int) : Defect :=
  let name := if code = .negativeMaxItems then "maxItems" else "minItems"
  ⟨definition, location, code, "invalid " ++ name ++ " configuration: " ++ bound.repr⟩

def withoutTags (definition location property : String) : Defect :=
  ⟨definition, location, .emptyMapping, "discriminator on '" ++ property ++ "' has no mapping entries"⟩

def untaggable (definition kind property : String) : Defect :=
  ⟨definition, "<root>", .untaggableTarget, kind ++ " node cannot carry discriminator property '" ++ property ++ "'"⟩

def record (known : List Defect) (defect : Defect) : List Defect :=
  if defect ∈ known then known else known ++ [defect]

/-- Each defect once, where it came first. -/
def collect (found : List Defect) : List Defect := found.foldl record []

theorem mem_record {known : List Defect} {defect other : Defect} :
    other ∈ record known defect ↔ other ∈ known ∨ other = defect := by
  unfold record
  split
  next present => exact ⟨.inl, fun either => either.elim id (· ▸ present)⟩
  · simp

theorem nodup_record {known : List Defect} (distinct : known.Nodup) (defect : Defect) :
    (record known defect).Nodup := by
  unfold record
  split
  · exact distinct
  next absent =>
    rw [List.nodup_append]
    exact ⟨distinct, by simp, fun a member b single => by rintro rfl; simp_all⟩

theorem mem_collect {found : List Defect} {defect : Defect} : defect ∈ collect found ↔ defect ∈ found := by
  suffices ∀ known, defect ∈ found.foldl record known ↔ defect ∈ known ∨ defect ∈ found by
    simpa [collect] using this []
  induction found with
  | nil => simp
  | cons first rest ih =>
    intro known
    rw [List.foldl_cons, ih, mem_record, List.mem_cons, or_assoc]

theorem nodup_collect (found : List Defect) : (collect found).Nodup := by
  suffices ∀ known : List Defect, known.Nodup → (found.foldl record known).Nodup from this [] List.nodup_nil
  induction found with
  | nil => exact fun _ distinct => distinct
  | cons first rest ih => exact fun known distinct => ih _ (nodup_record distinct first)

theorem find?_record (p : Defect → Bool) (known : List Defect) (defect : Defect) :
    (record known defect).find? p = (known ++ [defect]).find? p := by
  unfold record
  split
  next present =>
    rw [List.find?_append]
    cases met : known.find? p with
    | some first => rfl
    | none => simp [List.find?_eq_none.1 met defect present]
  · rfl

/-- Recording each defect once does not change which comes first, of any sort of them. -/
theorem find?_collect (p : Defect → Bool) (found : List Defect) : (collect found).find? p = found.find? p := by
  suffices ∀ known, (found.foldl record known).find? p = (known ++ found).find? p from this []
  induction found with
  | nil => simp
  | cons defect rest ih =>
    intro known
    rw [List.foldl_cons, ih, List.find?_append, find?_record, ← List.find?_append, List.append_assoc]
    rfl

end Defect

end SchemaGuide
