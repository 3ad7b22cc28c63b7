import FungeTrace.Befunge.Command
import FungeTrace.Befunge.Execute
import FungeTrace.Befunge.Language
import FungeTrace.Befunge.Operands
import FungeTrace.Befunge.Program
import FungeTrace.Cli.Arguments
import FungeTrace.Cli.ChaCha
import FungeTrace.Cli.Config
import FungeTrace.Cli.Folder
import FungeTrace.Cli.Session
import FungeTrace.Debug.Debugger
import FungeTrace.Debug.History
import FungeTrace.Debug.Snapshot
import FungeTrace.Engine.Background
import FungeTrace.Engine.Basic
import FungeTrace.Engine.Event
import FungeTrace.Engine.Language
import FungeTrace.Engine.Machine
import FungeTrace.Engine.Rule
import FungeTrace.Engine.Tiny
import FungeTrace.Fault
import FungeTrace.Main
import FungeTrace.Proofs.Addressing
import FungeTrace.Proofs.Agreement
import FungeTrace.Proofs.Budget
import FungeTrace.Proofs.Cancellation
import FungeTrace.Proofs.Canvas
import FungeTrace.Proofs.Chance
import FungeTrace.Proofs.Chunking
import FungeTrace.Proofs.Company
import FungeTrace.Proofs.Depth
import FungeTrace.Proofs.Encoding
import FungeTrace.Proofs.Entries
import FungeTrace.Proofs.Flattening
import FungeTrace.Proofs.Following
import FungeTrace.Proofs.Footage
import FungeTrace.Proofs.Footprint
import FungeTrace.Proofs.Generators
import FungeTrace.Proofs.GridWindow
import FungeTrace.Proofs.Halting
import FungeTrace.Proofs.Kinship
import FungeTrace.Proofs.LastWrite
import FungeTrace.Proofs.LiveSequence
import FungeTrace.Proofs.Loading
import FungeTrace.Proofs.Lone
import FungeTrace.Proofs.Mirror
import FungeTrace.Proofs.Movement
import FungeTrace.Proofs.Navigation
import FungeTrace.Proofs.Notices
import FungeTrace.Proofs.Numerals
import FungeTrace.Proofs.Observation
import FungeTrace.Proofs.Plane
import FungeTrace.Proofs.Portrait
import FungeTrace.Proofs.Quotients
import FungeTrace.Proofs.Readback
import FungeTrace.Proofs.Recording
import FungeTrace.Proofs.Removal
import FungeTrace.Proofs.Rendering
import FungeTrace.Proofs.Rows
import FungeTrace.Proofs.Seat
import FungeTrace.Proofs.Soundness
import FungeTrace.Proofs.Spelling
import FungeTrace.Proofs.Store
import FungeTrace.Proofs.Stride
import FungeTrace.Proofs.StringMode
import FungeTrace.Proofs.Succession
import FungeTrace.Proofs.TextLines
import FungeTrace.Proofs.Tokens
import FungeTrace.Proofs.Trails
import FungeTrace.Proofs.Travel
import FungeTrace.Proofs.Underflow
import FungeTrace.Space.Change
import FungeTrace.Space.Coord
import FungeTrace.Space.Direction
import FungeTrace.Space.Layered
import FungeTrace.Space.Precision
import FungeTrace.Space.Shape
import FungeTrace.Space.Sharing
import FungeTrace.Space.Sparse
import FungeTrace.Space.Torus
import FungeTrace.State.Bag
import FungeTrace.State.Generator
import FungeTrace.Stream.Sink
import FungeTrace.Stream.Source
import FungeTrace.Stream.Terminal
import FungeTrace.Text.Cluster
import FungeTrace.Text.Columns
import FungeTrace.Text.Decimal
import FungeTrace.Text.Hidden
import FungeTrace.Text.Lines
import FungeTrace.Text.Pieces
import FungeTrace.Text.Quoted
import FungeTrace.Text.Ranges
import FungeTrace.Text.Utf8
import FungeTrace.View.Ansi
import FungeTrace.View.App
import FungeTrace.View.GridPane
import FungeTrace.View.KeyPress
import FungeTrace.View.OutputPane
import FungeTrace.View.Screen
import FungeTrace.View.Scroll
import FungeTrace.View.StackPane
import FungeTrace.View.StatusBar
import FungeTrace.View.Style
import FungeTrace.View.Widget
