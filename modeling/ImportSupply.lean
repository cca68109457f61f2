import ImportSupply.Main
import ImportSupply.Options.Writer
import ImportSupply.Proofs.Literal.Remasking
import ImportSupply.Proofs.Literal.Grammar
import ImportSupply.Proofs.ImportBlock.RoundTrip
import ImportSupply.Proofs.Injection.FixedPoint
import ImportSupply.Proofs.Declarations.Names
import ImportSupply.Proofs.Export.OwnNames
import ImportSupply.Proofs.Binding.ImportSyntax
import ImportSupply.Proofs.Pattern.Finding
import ImportSupply.Proofs.Binding.ClauseReading
import ImportSupply.Proofs.Binding.ImportReading
import ImportSupply.Proofs.Binding.ImportSearch
import ImportSupply.Proofs.Binding.ReexportSearch
import ImportSupply.Proofs.Binding.DeclarationSyntax
import ImportSupply.Proofs.Binding.Settled
import ImportSupply.Proofs.Binding.Destructuring
import ImportSupply.Proofs.Binding.DeclarationReading
import ImportSupply.Proofs.Binding.Recognition
import ImportSupply.Proofs.Use.Occurrence
import ImportSupply.Proofs.Literal.Provenance
import ImportSupply.Proofs.Use.Scanned
import ImportSupply.Proofs.FileTree.Following
import ImportSupply.Proofs.FileTree.Growth
import ImportSupply.Proofs.Setup.Stages
import ImportSupply.Proofs.Setup.Confinement
import ImportSupply.Proofs.Pattern.Placing
import ImportSupply.Proofs.Text.WholeWord
import ImportSupply.Proofs.Export.StatementSyntax
import ImportSupply.Proofs.Export.Keywords
import ImportSupply.Proofs.Export.NamingReading
import ImportSupply.Proofs.Export.ListReading
import ImportSupply.Proofs.Export.Quietness
import ImportSupply.Proofs.Export.Exactness
import ImportSupply.Proofs.Export.Generated
import ImportSupply.Proofs.FileTree.Paths
import ImportSupply.Proofs.FileTree.Walking
import ImportSupply.Proofs.FileTree.Revisiting
import ImportSupply.Proofs.Setup.Idempotence
import ImportSupply.Proofs.Injection.Masked
import ImportSupply.Proofs.Export.Usable
import ImportSupply.Proofs.Setup.Precedence
import ImportSupply.Proofs.Json.Layout
import ImportSupply.Proofs.Json.ReadingBack
import ImportSupply.Proofs.Json.Forms
import ImportSupply.Proofs.Options.RoundTrip
import ImportSupply.Proofs.Use.Exactness
import ImportSupply.Proofs.Literal.Alignment
import ImportSupply.Proofs.Binding.Passes
import ImportSupply.Proofs.ImportBlock.Reading
import ImportSupply.Proofs.ImportBlock.Lossless
import ImportSupply.Proofs.Export.SourceOrder
import ImportSupply.Proofs.Export.ValuesOnly
import ImportSupply.Proofs.Declarations.Image
import ImportSupply.Proofs.ImportBlock.Statements
import ImportSupply.Proofs.Injection.ImportOrder
import ImportSupply.Proofs.FileTree.Rewriting
import ImportSupply.Proofs.Globals.Listing
import ImportSupply.Proofs.ImportBlock.Quoting
import ImportSupply.Proofs.FileTree.Sameness
import ImportSupply.Proofs.Output.Refinement
import ImportSupply.Proofs.FileTree.Found
import ImportSupply.Proofs.Setup.ScanOrder
import ImportSupply.Proofs.Literal.Composition
