import SchemaGuide.Entries
import SchemaGuide.Text.Pieces

/-!
Discriminators. The value that a document holds under `property` is a tag, and the mapping refers each tag to a
definition. A reference may be a pointer with slashes; its last piece is the name of the definition.
-/

namespace SchemaGuide

def targetName (reference : String) : String :=
  String.ofList ((Text.pieces (· = '/') reference.toList).getLastD [])

structure Discriminator where
  property : String
  mapping : Entries String
  deriving DecidableEq

namespace Discriminator

def tags (d : Discriminator) : List String := Entries.keys d.mapping

def target? (d : Discriminator) (tag : String) : Option String := (d.mapping.lookup tag).map targetName

def targets (d : Discriminator) : List (String × String) :=
  d.mapping.map fun (tag, reference) => (tag, targetName reference)

end Discriminator

end SchemaGuide
