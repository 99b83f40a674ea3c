import NgFile.Trace
import NgFile.Diagnostic
import NgFile.Proofs.Promotion
import NgFile.Proofs.TemplateLiteral
import NgFile.Proofs.ScaffoldReading
import NgFile.Proofs.Naming
import NgFile.Proofs.StringLiteral
import NgFile.Proofs.Failures
import NgFile.Proofs.ScaffoldConsistency
import NgFile.Proofs.OutputModes
import NgFile.Proofs.SectionArrangement
import NgFile.Proofs.ComponentImports
import NgFile.Proofs.ScaffoldTarget
import NgFile.Proofs.SectionPlaces
import NgFile.Proofs.Declarations
import NgFile.Proofs.Classification
import NgFile.Proofs.TemplateIndependence
import NgFile.Proofs.Attribution
import NgFile.Proofs.MergeOrder
import NgFile.Proofs.Identifier
import NgFile.Proofs.Aggregation
import NgFile.Proofs.MemberNames
import NgFile.Proofs.CallStatements
import NgFile.Proofs.Lifting
import NgFile.Proofs.Placement
import NgFile.Proofs.ImportedComponents
import NgFile.Proofs.PlainOperands
import NgFile.Proofs.NameLists
import NgFile.Proofs.ExposedNames
import NgFile.Proofs.NameCharacters
import NgFile.Proofs.Parentheses
import NgFile.Proofs.StatementEnds
import NgFile.Proofs.Reports
