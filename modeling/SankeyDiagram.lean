import SankeyDiagram.Scalar.Exact
import SankeyDiagram.Main
import SankeyDiagram.Document.Drawing
import SankeyDiagram.Proofs.Arcs
import SankeyDiagram.Proofs.Reach
import SankeyDiagram.Proofs.Intake
import SankeyDiagram.Proofs.Assembly
import SankeyDiagram.Proofs.Arena
import SankeyDiagram.Proofs.Layering
import SankeyDiagram.Proofs.Columns
import SankeyDiagram.Proofs.Sizing
import SankeyDiagram.Proofs.Spacing
import SankeyDiagram.Proofs.Settings
import SankeyDiagram.Proofs.Redrawing
import SankeyDiagram.Proofs.Session
import SankeyDiagram.Proofs.Stacking
import SankeyDiagram.Proofs.Lookup
import SankeyDiagram.Proofs.Restacking
import SankeyDiagram.Proofs.Agreement
import SankeyDiagram.Proofs.Rederiving
import SankeyDiagram.Proofs.Checked
import SankeyDiagram.Proofs.Signs
import SankeyDiagram.Proofs.OwnFlows
import SankeyDiagram.Proofs.TieOrder
import SankeyDiagram.Proofs.Units
import SankeyDiagram.Proofs.Renumbering
import SankeyDiagram.Proofs.Reordering
import SankeyDiagram.Proofs.Denotation
import SankeyDiagram.Proofs.Scale
import SankeyDiagram.Proofs.Range
import SankeyDiagram.Proofs.Settling
import SankeyDiagram.Proofs.Comparison
import SankeyDiagram.Proofs.Overriding
import SankeyDiagram.Proofs.Numerals
import SankeyDiagram.Proofs.Scanning
import SankeyDiagram.Proofs.Drafting
import SankeyDiagram.Proofs.Readers
import SankeyDiagram.Proofs.RoundTrip
import SankeyDiagram.Proofs.Printing
import SankeyDiagram.Proofs.Filling
import SankeyDiagram.Proofs.Faults
import SankeyDiagram.Proofs.Centers
import SankeyDiagram.Proofs.Staleness
import SankeyDiagram.Proofs.Dragging
import SankeyDiagram.Proofs.Spreading
import SankeyDiagram.Proofs.Curves
import SankeyDiagram.Proofs.Quantum
import SankeyDiagram.Proofs.Fingerprint
import SankeyDiagram.Proofs.Searching
import SankeyDiagram.Proofs.Totals
