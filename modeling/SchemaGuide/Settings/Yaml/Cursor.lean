import SchemaGuide.Entries
import SchemaGuide.Settings.Yaml.Node

/-!
The place in a text of YAML up to which it has been read. Lines and columns decide what belongs together, and names and
tags that were declared above are known from there on. Line breaks are single characters here.
-/

namespace SchemaGuide.Yaml

def isSpace (c : Char) : Bool := c = ' ' || c = '\t'

/-- Brackets and commas, which end names and scalars inside brackets. -/
def isBracket (c : Char) : Bool := [',', '[', ']', '\x7b', '\x7d'].contains c

def startsBracket (text : List Char) : Bool := text.head?.any isBracket

/-- Whether a sign before this text stands alone. -/
def endsWord (text : List Char) : Bool := text.head?.all fun c => isSpace c || c = '\n'

/-- Whether nothing but a comment is left of a line. -/
def isIdle (text : List Char) : Bool := (text.dropWhile isSpace).head?.all fun c => c = '\n' || c = '#'

structure Cursor where
  rest : List Char
  line : Nat
  column : Nat
  anchors : Entries Node
  declared : List String

namespace Cursor

def step (here : Cursor) : Cursor :=
  match here.rest with
  | [] => here
  | '\n' :: rest => { here with rest, line := here.line + 1, column := 0 }
  | _ :: rest => { here with rest, column := here.column + 1 }

def drop (here : Cursor) (count : Nat) : Cursor :=
  { here with rest := here.rest.drop count, column := here.column + count }

def dropLine (here : Cursor) : Cursor :=
  { here with rest := (here.rest.dropWhile (· ≠ '\n')).drop 1, line := here.line + 1, column := 0 }

/-- Whether a line starts here that begins or ends a document. -/
def atMarker (here : Cursor) : Bool :=
  here.column = 0 && ["---", "..."].any fun mark => mark.toList.isPrefixOf here.rest && endsWord (here.rest.drop 3)

def isEnded (here : Cursor) : Bool := here.rest.isEmpty || here.atMarker

def atSign (here : Cursor) (sign : Char) : Bool :=
  match here.rest with
  | c :: rest => c = sign && endsWord rest
  | [] => false

/-- Whether all that belongs to a block around this place has ended. The elements of a list may stand in the column of
the key that has the list as its value. -/
def isOutside (here : Cursor) (around : Int) (dash : Bool) : Bool :=
  here.isEnded || (here.column ≤ around && !(dash && here.column = around && here.atSign '-'))

/-- Skips blanks and line breaks, and comments if asked to. No tab may indent what stands inside a block, and a comment
follows a blank. `fresh` says whether the line is blank so far, `spaced` whether a blank or a line break came last. -/
def skip? (around : Int) (comments : Bool) : (bound : Nat) → (fresh spaced : Bool) → Cursor → Option Cursor
  | 0, _, _, _ => none
  | bound + 1, fresh, spaced, here =>
    match here.rest with
    | ' ' :: _ => skip? around comments bound fresh true here.step
    | '\t' :: rest =>
      if fresh && here.column ≤ around && !isIdle rest then none
      else skip? around comments bound fresh true here.step
    | '\n' :: _ => skip? around comments bound true true here.step
    | '#' :: rest =>
      if !comments then some here
      else if spaced then
        skip? around comments bound fresh spaced (here.drop ((rest.takeWhile (· ≠ '\n')).length + 1))
      else none
    | _ => some here

/-- The next place that is neither blank nor in a comment. -/
def next? (around : Int) (here : Cursor) : Option Cursor :=
  here.skip? around true (here.rest.length + 1) (here.column = 0) (here.column = 0)

def nextWord? (around : Int) (here : Cursor) : Option Cursor :=
  here.skip? around false (here.rest.length + 1) (here.column = 0) false

def dropSpaces (here : Cursor) : Cursor := here.drop (here.rest.takeWhile isSpace).length

def endsLine (here : Cursor) : Bool :=
  let rest := here.rest.dropWhile isSpace
  rest.head?.all fun c => c = '\n' || (c = '#' && rest.length < here.rest.length)

end Cursor

end SchemaGuide.Yaml
