import ErlangRecords.Main
import ErlangRecords.Workspace
import ErlangRecords.Proofs.Pointwise
import ErlangRecords.Proofs.OrderIndependence
import ErlangRecords.Proofs.Identifiers
import ErlangRecords.Proofs.TypeNames
import ErlangRecords.Proofs.Layout
import ErlangRecords.Proofs.Typed
import ErlangRecords.Proofs.Written
import ErlangRecords.Proofs.Records
import ErlangRecords.Proofs.Meaning
import ErlangRecords.Proofs.References
import ErlangRecords.Proofs.Bare
import ErlangRecords.Proofs.Enlargement
import ErlangRecords.Proofs.Violations
import ErlangRecords.Proofs.Dangling
import ErlangRecords.Proofs.EmptyEnums
import ErlangRecords.Proofs.Requested
import ErlangRecords.Proofs.Renderable
import ErlangRecords.Proofs.ModuleNames
import ErlangRecords.Proofs.WireRoundTrip
import ErlangRecords.Proofs.Answer
import ErlangRecords.Proofs.Reading
import ErlangRecords.Proofs.TypeReading
import ErlangRecords.Proofs.HeaderReading
import ErlangRecords.Proofs.ReadBack
import ErlangRecords.Proofs.EnumAtoms
import ErlangRecords.Proofs.BuiltinNames
import ErlangRecords.Proofs.EntryPoints
import ErlangRecords.Proofs.NamelessPackage
import ErlangRecords.Proofs.Appending
import ErlangRecords.Proofs.Workspaces
import ErlangRecords.Proofs.Slots
import ErlangRecords.Proofs.Membership
import ErlangRecords.Proofs.Acceptance
import ErlangRecords.Proofs.Atomicity
import ErlangRecords.Proofs.Stability
import ErlangRecords.Proofs.Alternatives
import ErlangRecords.Proofs.Qualification
import ErlangRecords.Proofs.AtomTexts
import ErlangRecords.Proofs.NestedNames
import ErlangRecords.Proofs.WordBreaks
import ErlangRecords.Proofs.FirstWrite
import ErlangRecords.Proofs.Layers
import ErlangRecords.Proofs.OutputPaths
import ErlangRecords.Proofs.Parameters
