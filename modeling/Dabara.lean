import Dabara.CommandLine.Session
import Dabara.Main
import Dabara.Proofs.Boundary
import Dabara.Proofs.BufferEdits
import Dabara.Proofs.ConfigIndependence
import Dabara.Proofs.Configuration
import Dabara.Proofs.Coverage
import Dabara.Proofs.CursorCell
import Dabara.Proofs.CursorRange
import Dabara.Proofs.DiskWrites
import Dabara.Proofs.EditLaws
import Dabara.Proofs.EditorRefinement
import Dabara.Proofs.Entities
import Dabara.Proofs.FlatText
import Dabara.Proofs.Grammar
import Dabara.Proofs.HighlightBounds
import Dabara.Proofs.HighlightsAbove
import Dabara.Proofs.Keystrokes
import Dabara.Proofs.LineHighlights
import Dabara.Proofs.LineModels
import Dabara.Proofs.Lines
import Dabara.Proofs.MarkupDecoding
import Dabara.Proofs.PageStructure
import Dabara.Proofs.PageTags
import Dabara.Proofs.PaintedSource
import Dabara.Proofs.Paired
import Dabara.Proofs.Place
import Dabara.Proofs.Positions
import Dabara.Proofs.Rescanning
import Dabara.Proofs.Saving
import Dabara.Proofs.ScannerBounds
import Dabara.Proofs.Screen
import Dabara.Proofs.ScreenRows
import Dabara.Proofs.SegmentCuts
import Dabara.Proofs.Segments
import Dabara.Proofs.Separation
import Dabara.Terminal.Input
import Dabara.Proofs.TokenContext
import Dabara.Proofs.CursorAddress
