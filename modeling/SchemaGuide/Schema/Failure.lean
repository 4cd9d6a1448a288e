/-!
Why a schema cannot be set up. Problems of documents are never reported this way.
-/

namespace SchemaGuide

inductive Failure where
  | notFound (name : String)
  | invalidFormat (place reason : String)
  | unresolvedReference (owner tag target : String)
  /-- A file is missing or cannot be read or written. -/
  | unreadable
  /-- A text is not JSON, or does not have the shape that is due. -/
  | malformed
  | settings
  /-- The settings hold what no answer is foreseen for, and the program stops: an entry that names a place before the
  start of a list, a key that is neither text nor number, or quotes too many to count. -/
  | fault
  deriving DecidableEq

namespace Failure

def message : Failure → String
  | notFound name => "Schema definition not found: " ++ name
  | invalidFormat place reason => "Invalid schema format at " ++ place ++ ": " ++ reason
  | unresolvedReference owner tag target =>
    "Discriminator in " ++ owner ++ " maps tag '" ++ tag ++ "' to unknown definition '" ++ target ++ "'"
  | unreadable => "IO error"
  | malformed => "JSON error"
  | settings => "Configuration error"
  | fault => "Unforeseen settings"

end Failure

end SchemaGuide
