import SchemaGuide.Schema.Basic
import SchemaGuide.Schema.Failure
import SchemaGuide.Schema.Survey

/-!
A schema built from its definitions. Every definition that a tag is mapped to has the property of the tag marked
read-only, then the variants of all tags are made, and the defects of all definitions are listed. A strict build refuses
tags without a definition.
-/

namespace SchemaGuide.Schema

/-- The definitions with the properties of all tags marked in their targets. -/
def marked (definitions : Entries Node) (uses : List TagUse) : Entries Node :=
  uses.foldl (fun table use => Entries.adjust use.target (·.markReadOnly use.property) table) definitions

/-- The variant of each tag in use, made of its definition as it is after all marks. -/
def variantTable (definitions : Entries Node) (uses : List TagUse) : List (TagUse × Node) :=
  uses.filterMap fun use => (definitions.lookup use.target).map fun node => (use, node.tagged use.property use.tag)

/-- The defect of a tag whose definition has no field for it. -/
def untaggableDefect? (definitions : Entries Node) (use : TagUse) : Option Defect :=
  match definitions.lookup use.target with
  | none => none
  | some node => if node.canCarryTag then none else some (.untaggable use.target node.kind.word use.property)

def build (definitions : Entries Node) : Schema :=
  let uses := Survey.tagUses definitions
  let definitions' := marked definitions uses
  { definitions := definitions'
    tagged := variantTable definitions' uses
    defects := Defect.collect (Survey.defects definitions ++ uses.filterMap (untaggableDefect? definitions)) }

/-- A strict build fails at the first mapping entry without a definition. -/
def build? (strict : Bool) (definitions : Entries Node) : Except Failure Schema :=
  match strict, Survey.lostTags definitions with
  | true, lost :: _ => .error (.unresolvedReference (lost.definition ++ lost.location.text) lost.tag lost.target)
  | _, _ => .ok (build definitions)

end SchemaGuide.Schema
