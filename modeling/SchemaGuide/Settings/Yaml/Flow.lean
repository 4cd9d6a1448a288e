import SchemaGuide.Settings.Yaml.Scalar

/-!
Nodes of YAML that stand in brackets, and the names and tags in front of nodes. Whatever belongs to brackets stands
deeper than the block around them.
-/

namespace SchemaGuide.Yaml

abbrev Scan := StateT Cursor Option

namespace Scan

def read {α : Type} (read? : Cursor → Option (α × Cursor)) : Scan α := read?

def move (move? : Cursor → Option Cursor) : Scan Unit := fun here => (move? here).map ((), ·)

def require (holds : Bool) : Scan Unit := if holds then pure () else failure

def step : Scan Unit := modify Cursor.step

def next (around : Int) : Scan Unit := move (Cursor.next? around)

end Scan

/-- What stands in front of a node: a name for it, and the tag of its type. -/
structure Properties where
  anchor : Option String
  tag : Option String

namespace Properties

def none : Properties := ⟨.none, .none⟩

def arePresent (properties : Properties) : Bool := properties.anchor.isSome || properties.tag.isSome

end Properties

def name (properties : Properties) (node : Node) : Scan Unit :=
  match properties.anchor with
  | none => pure ()
  | some anchor => modify fun here => { here with anchors := Entries.put anchor node here.anchors }

def anchorName : Scan String := do
  Scan.step
  let here ← get
  let name := here.rest.takeWhile fun c => !isSpace c && c ≠ '\n' && !isBracket c
  Scan.require !name.isEmpty
  set (here.drop name.length)
  return String.ofList name

def aliased : Scan Node := do
  let name ← anchorName
  match (← get).anchors.lookup name with
  | none => failure
  | some node => return node

def isTagCharacter (c : Char) : Bool :=
  let marks := ['-', '_', '#', ';', '/', '?', ':', '@', '&', '=', '+', '$', '.', '~', '*', '\'', '(', ')', '%']
  c.isAlphanum || marks.contains c

/-- The type of a tag. Tags under two marks are standard, unless a directive says otherwise; all others are without a
name here. A handle between two marks must have been declared. -/
def tagType? (declared : List String) (tag : List Char) : Option String :=
  match tag with
  | '!' :: '<' :: rest =>
    if rest.getLast? = some '>' && 1 < rest.length then some "" else none
  | '!' :: rest =>
    let handle := rest.takeWhile fun c => c.isAlphanum || c = '-' || c = '_'
    match rest.drop handle.length with
    | '!' :: suffix =>
      let known := declared.contains (String.ofList handle)
      if suffix.isEmpty || !suffix.all isTagCharacter then none
      else if handle.isEmpty && !known then some (String.ofList suffix)
      else if known then some "" else none
    | _ => if rest.all isTagCharacter then some "" else none
  | _ => none

/-- A tag, up to a blank, and in brackets up to one of them. -/
def tag (flow : Bool) : Scan String := do
  let here ← get
  let isVerbatim := "!<".toList.isPrefixOf here.rest
  let text := here.rest.takeWhile fun c => !isSpace c && c ≠ '\n' && (isVerbatim || !isBracket c)
  set (here.drop text.length)
  let here ← get
  Scan.require (endsWord here.rest || (flow && startsBracket here.rest))
  match tagType? here.declared text with
  | none => failure
  | some type => return type

/-- The anchor and the tag in front of a node, in either order. -/
def properties (flow : Bool) : Scan Properties := do
  let anchor : Scan (Option String) := do
    if (← get).rest.head? = some '&' then
      let name ← anchorName
      modify Cursor.dropSpaces
      return some name
    else return none
  let tagged : Scan (Option String) := do
    if (← get).rest.head? = some '!' then
      let type ← tag flow
      modify Cursor.dropSpaces
      return some type
    else return none
  match ← anchor with
  | some name => return ⟨some name, ← tagged⟩
  | none =>
    match ← tagged with
    | some type => return ⟨← anchor, some type⟩
    | none => return .none

def nextInside (around : Int) : Scan Unit := do
  Scan.next around
  let here ← get
  Scan.require (!here.isEnded && around < here.column)

/-- Whether the colon of an entry stands here. It stands alone, or before a comma or a closing bracket, or before anything
on the line on which a key in quotes or brackets ended. -/
def atColon (closed : Option Nat) : Scan Bool := do
  let here ← get
  match here.rest with
  | ':' :: rest =>
    let follows := closed = some here.line
    Scan.require (follows || !rest.head?.any ['[', '\x7b'].contains)
    return endsWord rest || startsBracket rest || follows
  | _ => return false

/-- Goes over a colon. A word may not follow it with tabs alone in between. -/
def passColon : Scan Unit := do
  Scan.step
  let rest := (← get).rest
  let blanks := rest.takeWhile isSpace
  let begins := (rest.drop blanks.length).head?.any fun c => c.isAlphanum || c = '-' || c = '_'
  Scan.require !(begins && blanks.head? = some '\t' && !blanks.contains ' ')

/-- Whether a comma or a closing bracket stands where a node may have been left out. -/
def startsEnd (text : List Char) : Bool := text.head?.any [',', ']', '\x7d'].contains

/-- Whether a node that begins here is in quotes or brackets. -/
def isClosed (text : List Char) : Bool := text.head?.any ['\"', '\'', '[', '\x7b'].contains

mutual
/-- A node inside brackets; with it the line on which it ended, if it is in quotes or brackets itself. -/
def flowNode : (bound : Nat) → (around : Int) → Scan (Node × Option Nat)
  | 0, _ => failure
  | bound + 1, around => do
    let given ← properties true
    if given.arePresent then
      name given .null
      nextInside around
    let closed := isClosed (← get).rest
    let node ← flowContent bound around given
    name given node
    let line := (← get).line
    return (node, if closed then some line else none)

def flowContent : (bound : Nat) → (around : Int) → (given : Properties) → Scan Node
  | 0, _, _ => failure
  | bound + 1, around, given => do
    let rest := (← get).rest
    match rest.head? with
    | some '[' => do
      Scan.step
      nextInside around
      return .list (← flowElements bound around)
    | some '\x7b' => do
      Scan.step
      nextInside around
      return .table (← flowEntries bound around [])
    | some '*' => do
      Scan.require !given.arePresent
      aliased
    | _ =>
      if isClosed rest then do
        return .text (String.ofList (← Scan.read (quote? around)))
      else if canBegin true rest then do
        return .ofTagged given.tag (← Scan.read (plain? true around))
      else do
        Scan.require (given.arePresent && (startsBracket rest || (← atColon none)))
        return .omitted given.tag

def flowElements : (bound : Nat) → (around : Int) → Scan (List Node)
  | 0, _ => failure
  | bound + 1, around => do
    if (← get).rest.head? = some ']' then
      Scan.step
      return []
    let element ← flowElement bound around
    nextInside around
    let sign := (← get).rest.head?
    if sign = some ',' then
      Scan.step
      nextInside around
      return element :: (← flowElements bound around)
    else
      Scan.require (sign = some ']')
      Scan.step
      return [element]

/-- An element of a list. An entry with a colon is a table of its own; without a sign in front, its key and the colon
stand on one line. -/
def flowElement : (bound : Nat) → (around : Int) → Scan Node
  | 0, _ => failure
  | bound + 1, around => do
    let here ← get
    if here.atSign '?' || (← atColon none) then
      let (key, value) ← flowEntry bound around
      return .table [(key, value)]
    else
      let (node, closed) ← flowNode bound around
      let last ← get
      nextInside around
      if ← atColon closed then
        Scan.require ((← get).line = here.line)
        passColon
        return .table [(node, ← flowValue bound around)]
      else
        set last
        return node

def flowEntries : (bound : Nat) → (around : Int) → (known : List (Node × Node)) → Scan (List (Node × Node))
  | 0, _, _ => failure
  | bound + 1, around, known => do
    if (← get).rest.head? = some '\x7d' then
      Scan.step
      return known
    let (key, value) ← flowEntry bound around
    match Node.add? key value known with
    | none => failure
    | some known =>
      nextInside around
      let sign := (← get).rest.head?
      if sign = some ',' then
        Scan.step
        nextInside around
        flowEntries bound around known
      else
        Scan.require (sign = some '\x7d')
        Scan.step
        return known

def flowEntry : (bound : Nat) → (around : Int) → Scan (Node × Node)
  | 0, _ => failure
  | bound + 1, around => do
    if (← get).atSign '?' then
      Scan.step
      nextInside around
    let (key, closed) ←
      if (← atColon none) || startsEnd (← get).rest then pure (Node.null, none) else flowNode bound around
    let last ← get
    nextInside around
    if ← atColon closed then
      passColon
      return (key, ← flowValue bound around)
    else
      set last
      return (key, .null)

def flowValue : (bound : Nat) → (around : Int) → Scan Node
  | 0, _ => failure
  | bound + 1, around => do
    nextInside around
    if startsEnd (← get).rest then return .null
    return (← flowNode bound around).1
end

end SchemaGuide.Yaml
