import SchemaGuide.Settings.Yaml.Flow

/-!
YAML documents. Blocks are told apart by columns: the entries of a table, and the elements of a list, all begin in one
column, and what belongs to them stands deeper. A text of settings holds one document at most.
-/

namespace SchemaGuide.Yaml

def blockScalar (around : Int) (tag : Option String) : Scan Node := do
  let rest := (← get).rest
  if rest.head?.any ['|', '>'].contains then
    return .text (String.ofList (← Scan.read (block? around)))
  else
    Scan.require (canBegin false rest)
    let text ← Scan.read (plain? false around)
    return .ofTagged tag text

def inlineKey (bound : Nat) : Scan Node := do
  let start ← get
  let given ← properties false
  let rest := (← get).rest
  let isAlias := rest.head? = some '*'
  let node ←
    if isAlias || isClosed rest then do
      Scan.require !(isAlias && given.arePresent)
      let (node, _) ← flowNode bound (-1)
      pure node
    else if canBegin false rest then do
      let line := plainLine false rest
      modify (Cursor.drop · line.length)
      pure (Node.ofTagged given.tag line)
    else do
      Scan.require given.arePresent
      pure (Node.omitted given.tag)
  name given node
  modify Cursor.dropSpaces
  let here ← get
  Scan.require (here.line = start.line && here.column ≤ start.column + 1024 && here.atSign ':')
  return node

inductive Shape where
  | list
  | table
  | other

/-- The shape of the block that begins here. Only where a line begins, or after a sign that stands alone, may it be a
list or a table; elsewhere their signs are out of place. -/
def shape (bound : Nat) (mayBegin : Bool) : Scan Shape := do
  let here ← get
  if here.atSign '-' then
    Scan.require mayBegin
    return .list
  else if here.atSign '?' || here.atSign ':' then
    Scan.require mayBegin
    return .table
  else return if mayBegin && ((inlineKey bound).run here).isSome then .table else .other

/-- Goes over the sign of an element or of a key. No tab may stand between it and the sign of a further list. -/
def passSign : Scan Unit := do
  let isKey := (← get).atSign '?'
  Scan.step
  let here ← get
  let blanks := here.rest.takeWhile isSpace
  let isDash := (here.drop blanks.length).atSign '-'
  Scan.require !(blanks.contains '\t' && (isDash || (isKey && blanks.head? = some '\t')))

mutual
/-- A node below or after a sign. `around` is the column of the block that it belongs to, `dash` says whether the
elements of a list may stand in that column, and `mayBegin` whether a list or a table may begin on this line. -/
def blockNode : (bound : Nat) → (around : Int) → (dash mayBegin : Bool) → Scan Node
  | 0, _, _, _ => failure
  | bound + 1, around, dash, mayBegin => do
    let line := (← get).line
    Scan.next around
    let here ← get
    if here.isOutside around dash then return .null
    match ← shape bound (mayBegin || here.line ≠ line) with
    | .list => return .list (← blockElements bound here.column)
    | .table => return .table (← blockEntries bound here.column [])
    | .other =>
      let given ← properties false
      if given.arePresent then
        name given .null
        let node ← givenNode bound around dash given
        name given node
        return node
      else blockContent bound around none

/-- The node after its name and its tag, which may stand on lines of their own. -/
def givenNode : (bound : Nat) → (around : Int) → (dash : Bool) → (given : Properties) → Scan Node
  | 0, _, _, _ => failure
  | bound + 1, around, dash, given => do
    let line := (← get).line
    Scan.next around
    let here ← get
    if here.isOutside around dash then return .omitted given.tag
    match ← shape bound (here.line ≠ line) with
    | .list => return .list (← blockElements bound here.column)
    | .table => return .table (← blockEntries bound here.column [])
    | .other =>
      Scan.require (here.rest.head? ≠ some '*')
      blockContent bound around given.tag

/-- A scalar, an alias, or a list or a table in brackets; nothing may follow it on its last line. -/
def blockContent : (bound : Nat) → (around : Int) → (tag : Option String) → Scan Node
  | 0, _, _ => failure
  | bound + 1, around, tag => do
    let rest := (← get).rest
    if rest.head? = some '*' || isClosed rest then
      let (node, _) ← flowNode bound around
      Scan.require (← get).endsLine
      return node
    else
      let node ← blockScalar around tag
      let here ← get
      Scan.require (here.column = 0 || here.endsLine)
      return node

def blockElements : (bound column : Nat) → Scan (List Node)
  | 0, _ => failure
  | bound + 1, column => do
    passSign
    let element ← blockNode bound column false true
    Scan.next column
    let here ← get
    if !here.isEnded && here.column = column && here.atSign '-' then
      return element :: (← blockElements bound column)
    else return [element]

def blockEntries : (bound column : Nat) → (known : List (Node × Node)) → Scan (List (Node × Node))
  | 0, _, _ => failure
  | bound + 1, column, known => do
    let (key, value) ← blockEntry bound column
    match Node.add? key value known with
    | none => failure
    | some known =>
      Scan.next column
      let here ← get
      if here.isEnded || here.column < column then return known
      else
        Scan.require (here.column = column)
        blockEntries bound column known

/-- A key and its value. A key after its sign may be any node, and its value begins a line of its own. -/
def blockEntry : (bound column : Nat) → Scan (Node × Node)
  | 0, _ => failure
  | bound + 1, column => do
    if (← get).atSign '?' then
      passSign
      let key ← blockNode bound column true true
      Scan.next column
      let here ← get
      if !here.isEnded && here.column = column && here.atSign ':' then
        passColon
        return (key, ← blockNode bound column true true)
      else return (key, .null)
    else if (← get).atSign ':' then
      passColon
      return (.null, ← blockNode bound column true true)
    else
      let key ← inlineKey bound
      passColon
      return (key, ← blockNode bound column true false)
end

def words (line : List Char) : List String :=
  ((Text.pieces isSpace line).filter (!·.isEmpty)).map String.ofList

/-- Reads a directive. The version may be declared once, and each handle of tags. -/
def directive : Scan Unit := do
  let here ← get
  let declares (name : String) : Scan Unit := do
    Scan.require !here.declared.contains name
    set { here.dropLine with declared := name :: here.declared }
  match words (here.rest.takeWhile (· ≠ '\n')) with
  | "%YAML" :: version :: _ =>
    let parts := Text.pieces (· = '.') version.toList
    Scan.require (parts.length = 2 && parts.all Numeral.isNumeral)
    declares "%"
  | "%TAG" :: handle :: _ :: _ =>
    let inner := (handle.toList.drop 1).dropLast
    Scan.require (handle = "!" || handle.toList.head? = some '!' && handle.toList.getLast? = some '!')
    declares (if handle = "!" then "!" else String.ofList inner)
  | ["%YAML"] | ["%TAG"] | ["%TAG", _] => failure
  | _ => set here.dropLine

/-- Goes on to where a document begins, over directives and the ends of documents: whether there is one, and whether its
first line is begun by a marker. -/
def opening : (bound : Nat) → (directed : Bool) → Scan (Option Bool)
  | 0, _ => failure
  | bound + 1, directed => do
    Scan.next (-1)
    let here ← get
    if here.rest.isEmpty then
      Scan.require !directed
      return none
    else if here.column = 0 && here.rest.head? = some '%' then
      directive
      opening bound true
    else if here.atMarker then
      set (here.drop 3)
      if here.rest.head? = some '-' then return some true
      else
        Scan.require (!directed && (here.drop 3).endsLine)
        opening bound false
    else
      Scan.require !directed
      return some false

def closing : (bound : Nat) → Scan Unit
  | 0 => failure
  | bound + 1 => do
    Scan.next (-1)
    let here ← get
    if here.rest.isEmpty then return
    Scan.require (here.atMarker && here.rest.head? = some '.' && (here.drop 3).endsLine)
    set (here.drop 3)
    closing bound

def document (bound : Nat) : Scan (Option Node) := do
  match ← opening bound false with
  | none => return none
  | some marked =>
    let node ← blockNode bound (-1) false !marked
    closing bound
    return some node

def normalized : List Char → List Char
  | '\r' :: '\n' :: rest => '\n' :: normalized rest
  | '\r' :: rest => '\n' :: normalized rest
  | c :: rest => c :: normalized rest
  | [] => []

/-- The table that a text writes, which is empty if there is no document. -/
def parse (text : String) : Except Failure (Entries Setting) :=
  let characters := normalized text.toList
  match (document (4 * characters.length + 8)).run ⟨characters, 0, 0, [], []⟩ with
  | none => .error .settings
  | some (none, _) => .ok []
  | some (some node, _) =>
    match node.setting with
    | .error failure => .error failure
    | .ok (.table entries) => .ok entries
    | .ok _ => .error .settings

end SchemaGuide.Yaml
