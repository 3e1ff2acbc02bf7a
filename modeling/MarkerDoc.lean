import MarkerDoc.Main
import MarkerDoc.Proofs.Anchor
import MarkerDoc.Proofs.AttributeTitle
import MarkerDoc.Proofs.BlankLines
import MarkerDoc.Proofs.CommandTemplate
import MarkerDoc.Proofs.DeclaredName
import MarkerDoc.Proofs.Disclosure
import MarkerDoc.Proofs.DocumentPage
import MarkerDoc.Proofs.EndMarker
import MarkerDoc.Proofs.IndexOrder
import MarkerDoc.Proofs.LibraryRoot
import MarkerDoc.Proofs.LineEnding.Extract
import MarkerDoc.Proofs.MarkedLines
import MarkerDoc.Proofs.Nesting
import MarkerDoc.Proofs.Partition
import MarkerDoc.Proofs.QuoteOffset
import MarkerDoc.Proofs.Reachability
import MarkerDoc.Proofs.Regeneration
import MarkerDoc.Proofs.ScriptLayout
import MarkerDoc.Proofs.TestRun
import MarkerDoc.Proofs.Traversal
