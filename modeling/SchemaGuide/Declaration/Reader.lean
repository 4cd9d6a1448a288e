import SchemaGuide.Declaration.Basic
import SchemaGuide.Json.Written

/-!
Declarations read from JSON. A declaration is an object, in which unknown keys are skipped and known ones stand once,
or a list of the fields in their order. What is skipped need not be readable. Tables of declarations are objects, and
a repeated name keeps its first place and takes its last declaration.
-/

namespace SchemaGuide

namespace Written

def string? : Written → Option String
  | .str value => some value
  | _ => none

def bool? : Written → Option Bool
  | .bool value => some value
  | _ => none

/-- A signed whole number of 64 bits. -/
def word? : Written → Option Int
  | .num (.int value) => if Numeral.isSignedWord value then some value else none
  | _ => none

def float? : Written → Option Float
  | .num number => some number.toFloat
  | _ => none

def strings? : Written → Option (List String)
  | .arr elements => elements.mapM string?
  | _ => none

/-- Null stands for nothing; all else must be readable. -/
def orNull {α : Type} (read? : Written → Option α) : Written → Option (Option α)
  | .null => some none
  | written => (read? written).map some

/-- Pairs of a key and a value, if every key can be read and every value is accepted. -/
def pairs? {α β : Type} (accept? : α → Option β) (members : List (Option String × α)) : Option (List (String × β)) :=
  members.mapM fun (key, value) => do
    let key ← key
    let value ← accept? value
    some (key, value)

end Written

namespace Discriminator

def mapping? : Written → Option (Entries String)
  | .obj members => (Written.pairs? Written.string? members).map Entries.collect
  | _ => none

/-- The value of a key that must stand exactly once among readable keys. -/
def single? (key : String) (members : List (Option String × Written)) : Option Written :=
  match members.filter (·.1 = some key) with
  | [(_, written)] => some written
  | _ => none

def ofParts? (property mapping : Written) : Option Discriminator := do
  let property ← property.string?
  let mapping ← mapping? mapping
  some ⟨property, mapping⟩

def ofWritten? : Written → Option Discriminator
  | .obj members => do
    if members.any (·.1.isNone) then none
    ofParts? (← single? "propertyName" members) (← single? "mapping" members)
  | .arr [property, mapping] => ofParts? property mapping
  | _ => none

end Discriminator

namespace Declaration

/-- Everything that a written part may turn out to be, so that its place can decide. -/
structure Reading where
  written : Written
  declaration? : Option Declaration
  table? : Option (Entries Declaration)

namespace Reading

def nested? (r : Reading) : Option (Option Declaration) :=
  match r.written with
  | .null => some none
  | _ => r.declaration?.map some

def assign? (r : Reading) (field : Field) (d : Declaration) : Option Declaration :=
  let w := r.written
  match field with
  | .kind => (w.orNull Written.string?).map fun x => { d with kind := x }
  | .description => (w.orNull Written.string?).map fun x => { d with description := x }
  | .required => w.bool?.map fun x => { d with required := x }
  | .discriminator => (w.orNull Discriminator.ofWritten?).map fun x => { d with discriminator := x }
  | .properties => r.table?.map fun x => { d with properties := x }
  | .items => r.nested?.map fun x => { d with items := x }
  | .additional => r.nested?.map fun x => { d with additional := x }
  | .minItems => (w.orNull Written.word?).map fun x => { d with minItems := x }
  | .maxItems => (w.orNull Written.word?).map fun x => { d with maxItems := x }
  | .allowed => w.strings?.map fun x => { d with allowed := x }
  | .minimum => (w.orNull Written.float?).map fun x => { d with minimum := x }
  | .maximum => (w.orNull Written.float?).map fun x => { d with maximum := x }
  | .literal => (w.orNull Written.value?).map fun x => { d with literal := x }

end Reading

def fields? (members : List (Option String × Reading)) : Option (List (Field × Reading)) :=
  (Written.pairs? some members).map (·.filterMap fun (key, reading) => (Field.ofKey? key).map (·, reading))

def ofFields? (fields : List (Field × Reading)) : Option Declaration :=
  fields.foldlM (fun d (field, reading) => reading.assign? field d) empty

def ofMembers? (members : List (Option String × Reading)) : Option Declaration := do
  let fields ← fields? members
  if (fields.map Prod.fst).Nodup then ofFields? fields else none

/-- A list may end early, but not go on after the last field. -/
def ofElements? (elements : List Reading) : Option Declaration :=
  if elements.length ≤ Field.all.length then ofFields? (Field.all.zip elements) else none

def tableOf? (members : List (Option String × Reading)) : Option (Entries Declaration) :=
  (Written.pairs? Reading.declaration? members).map Entries.collect

mutual
def reading : Written → Reading
  | .obj members =>
    let parts := memberReadings members
    ⟨.obj members, ofMembers? parts, tableOf? parts⟩
  | .arr elements => ⟨.arr elements, ofElements? (elementReadings elements), none⟩
  | .unreadable => ⟨.unreadable, none, none⟩
  | .null => ⟨.null, none, none⟩
  | .bool value => ⟨.bool value, none, none⟩
  | .num value => ⟨.num value, none, none⟩
  | .str value => ⟨.str value, none, none⟩

def elementReadings : List Written → List Reading
  | [] => []
  | element :: rest => reading element :: elementReadings rest

def memberReadings : List (Option String × Written) → List (Option String × Reading)
  | [] => []
  | (key, written) :: rest => (key, reading written) :: memberReadings rest
end

def ofWritten? (written : Written) : Option Declaration := (reading written).declaration?

def ofJson? (value : Json) : Option Declaration := ofWritten? (.ofJson value)

def tableOfWritten? (written : Written) : Option (Entries Declaration) := (reading written).table?

/-- The table of a schema document: all of it, or what it holds under `definitions`. -/
def tableOfJson? (value : Json) : Option (Entries Declaration) :=
  tableOfWritten? (.ofJson ((value.member? "definitions").getD value))

end Declaration

end SchemaGuide
