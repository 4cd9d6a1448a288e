import SchemaGuide.Declaration.Writer
import SchemaGuide.Files.Tree
import SchemaGuide.Main
import SchemaGuide.Proofs.Acyclic
import SchemaGuide.Proofs.Compilation
import SchemaGuide.Proofs.Defects
import SchemaGuide.Proofs.Expansion
import SchemaGuide.Proofs.Footprint
import SchemaGuide.Proofs.Insertion
import SchemaGuide.Proofs.KeyOrder
import SchemaGuide.Proofs.Legibility
import SchemaGuide.Proofs.Locality
import SchemaGuide.Proofs.Menu
import SchemaGuide.Proofs.Origins
import SchemaGuide.Proofs.Removal
import SchemaGuide.Proofs.Reports
import SchemaGuide.Proofs.Rereading
import SchemaGuide.Proofs.Reversal
import SchemaGuide.Proofs.Selection
import SchemaGuide.Proofs.Shortcomings
import SchemaGuide.Proofs.Templates
import SchemaGuide.Settings.Toml.Writer
import SchemaGuide.Proofs.Refusal
import SchemaGuide.Proofs.Strictness
import SchemaGuide.Proofs.Rebuilding
import SchemaGuide.Proofs.Spelling
