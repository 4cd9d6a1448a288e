import SchemaGuide.Settings.Setting

/-!
Tables of TOML while they are being read. How a table came to be decides what may still be added to it: a header may
name a table once, and keys with points may add only to tables that such keys have made.
-/

namespace SchemaGuide.Toml

inductive Origin where
  /-- Only named on the way to another table. -/
  | passed
  /-- Named by a header. -/
  | headed
  /-- Made by a key with points. -/
  | pointed
  deriving DecidableEq

inductive Item where
  | value (setting : Setting)
  | table (origin : Origin) (entries : List (String × Item))
  /-- Tables under a header in double brackets, the last one first. -/
  | tables (elements : List (List (String × Item)))

namespace Item

/-- Follows keys from a table, through the last of several tables, and changes the table they lead to. -/
def descend? (change? : Origin → Entries Item → Option (Entries Item)) (points : Bool) (origin : Origin)
    (entries : Entries Item) : List String → Option (Entries Item)
  | [] => change? origin entries
  | key :: rest =>
    match entries.lookup key with
    | none => do
      let made := if points then .pointed else .passed
      let inner ← descend? change? points made [] rest
      some (Entries.put key (table made inner) entries)
    | some (value _) => none
    | some (table known inner) => do
      if points && known = .headed then none
      let inner ← descend? change? points known inner rest
      some (Entries.put key (table known inner) entries)
    | some (tables []) => none
    | some (tables (last :: earlier)) => do
      let last ← descend? change? points .headed last rest
      some (Entries.put key (tables (last :: earlier)) entries)

/-- Adds a value to a table that has no such key yet. -/
def add? (key : String) (item : Item) (entries : Entries Item) : Option (Entries Item) :=
  if (entries.lookup key).isSome then none else some (entries ++ [(key, item)])

/-- Sets a key, perhaps one with points, in the table that a header leads to. -/
def set? (header key : List String) (setting : Setting) (root : Entries Item) : Option (Entries Item) :=
  match key.getLast? with
  | none => none
  | some last =>
    let inner := key.dropLast
    let assign (origin : Origin) (entries : Entries Item) :=
      if inner.isEmpty || origin = .pointed then add? last (value setting) entries else none
    let within (origin : Origin) (entries : Entries Item) := descend? assign true origin entries inner
    descend? within false .headed root header

/-- Opens the table of a header. One that was only passed so far moves to the end. -/
def openTable? (header : List String) (root : Entries Item) : Option (Entries Item) :=
  match header.getLast? with
  | none => none
  | some last =>
    let opened (_ : Origin) (entries : Entries Item) :=
      match entries.lookup last with
      | none => some (entries ++ [(last, table .headed [])])
      | some (table .passed inner) => some (entries.filter (·.1 ≠ last) ++ [(last, table .headed inner)])
      | some _ => none
    descend? opened false .headed root header.dropLast

/-- Opens one more table under a header in double brackets. -/
def openElement? (header : List String) (root : Entries Item) : Option (Entries Item) :=
  match header.getLast? with
  | none => none
  | some last =>
    let opened (_ : Origin) (entries : Entries Item) :=
      match entries.lookup last with
      | none => some (entries ++ [(last, tables [[]])])
      | some (tables elements) => some (Entries.put last (tables ([] :: elements)) entries)
      | some _ => none
    descend? opened false .headed root header.dropLast

mutual
def setting : Item → Setting
  | value setting => setting
  | table _ entries => .table (settings entries)
  | tables elements => .list (elementSettings elements).reverse

def settings : List (String × Item) → List (String × Setting)
  | [] => []
  | (key, item) :: rest => (key, setting item) :: settings rest

def elementSettings : List (List (String × Item)) → List Setting
  | [] => []
  | entries :: rest => .table (settings entries) :: elementSettings rest
end

end Item

end SchemaGuide.Toml
