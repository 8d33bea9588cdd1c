import MatFormat.Array.Basic
import MatFormat.Array.Cell
import MatFormat.Array.Char
import MatFormat.Array.Info
import MatFormat.Array.Numeric
import MatFormat.Array.Same
import MatFormat.Array.Sparse
import MatFormat.Array.Struct
import MatFormat.Array.Text
import MatFormat.ArrayClass
import MatFormat.Binary.Format
import MatFormat.Binary.Shortest
import MatFormat.ByteOrder
import MatFormat.Checked.Access
import MatFormat.Checked.Arithmetic
import MatFormat.Checked.Computation
import MatFormat.Checked.Element
import MatFormat.Checked.Matrix
import MatFormat.Checked.Stream
import MatFormat.Checked.Window
import MatFormat.Cursor
import MatFormat.DataType
import MatFormat.Element
import MatFormat.Error
import MatFormat.File.Basic
import MatFormat.File.Reader
import MatFormat.File.Table
import MatFormat.File.Writer
import MatFormat.Grid
import MatFormat.Header
import MatFormat.Interleave
import MatFormat.Matrix.Reader
import MatFormat.Matrix.Writer
import MatFormat.NameSelection
import MatFormat.Notice
import MatFormat.NumericClass
import MatFormat.Proofs.ArrayTree
import MatFormat.Proofs.Bounds
import MatFormat.Proofs.Checked.Access
import MatFormat.Proofs.Checked.Arithmetic
import MatFormat.Proofs.Checked.Element
import MatFormat.Proofs.Checked.File
import MatFormat.Proofs.Checked.Matrix
import MatFormat.Proofs.Checked.Slots
import MatFormat.Proofs.Checked.Stream
import MatFormat.Proofs.Checked.View
import MatFormat.Proofs.Checked.Window
import MatFormat.Proofs.Constructed
import MatFormat.Proofs.Consumption
import MatFormat.Proofs.Conversion
import MatFormat.Proofs.Cursor
import MatFormat.Proofs.Element
import MatFormat.Proofs.File.Basic
import MatFormat.Proofs.File.Keys
import MatFormat.Proofs.File.Names
import MatFormat.Proofs.File.RoundTrip
import MatFormat.Proofs.File.Selection
import MatFormat.Proofs.File.Table
import MatFormat.Proofs.File.Truncation
import MatFormat.Proofs.Grammar
import MatFormat.Proofs.Grid.Array
import MatFormat.Proofs.Grid.Order
import MatFormat.Proofs.Indexing
import MatFormat.Proofs.Indices
import MatFormat.Proofs.Interleave
import MatFormat.Proofs.Kept
import MatFormat.Proofs.Layout.Array
import MatFormat.Proofs.Layout.Element
import MatFormat.Proofs.Layout.Elements
import MatFormat.Proofs.Layout.Tiling
import MatFormat.Proofs.Located
import MatFormat.Proofs.Matrix.Alignment
import MatFormat.Proofs.Matrix.Contract
import MatFormat.Proofs.Matrix.FieldNames
import MatFormat.Proofs.Matrix.Limits
import MatFormat.Proofs.Matrix.Nesting
import MatFormat.Proofs.Matrix.Refusal
import MatFormat.Proofs.Matrix.Rewrite
import MatFormat.Proofs.Matrix.RoundTrip
import MatFormat.Proofs.Matrix.Shift
import MatFormat.Proofs.Matrix.SlotCheck
import MatFormat.Proofs.Matrix.Slots
import MatFormat.Proofs.Matrix.Sound
import MatFormat.Proofs.Matrix.SparsePadding
import MatFormat.Proofs.Matrix.ValueCount
import MatFormat.Proofs.NameTree
import MatFormat.Proofs.Outcome
import MatFormat.Proofs.Recursion
import MatFormat.Proofs.Related
import MatFormat.Proofs.Rows
import MatFormat.Proofs.Run
import MatFormat.Proofs.Same
import MatFormat.Proofs.Shape
import MatFormat.Proofs.Sparse
import MatFormat.Proofs.Sparse.Construction
import MatFormat.Proofs.Sparse.Listing
import MatFormat.Proofs.Stream.Cancellation
import MatFormat.Proofs.Stream.Compression
import MatFormat.Proofs.Stream.Decoded
import MatFormat.Proofs.Stream.Delivery
import MatFormat.Proofs.Stream.Failure
import MatFormat.Proofs.Stream.Run
import MatFormat.Proofs.Stream.Schedule
import MatFormat.Proofs.Stream.Selection
import MatFormat.Proofs.Stream.Termination
import MatFormat.Proofs.Stream.Yields
import MatFormat.Proofs.Struct.Calls
import MatFormat.Proofs.Text.Stored
import MatFormat.Proofs.Text.Strict
import MatFormat.Proofs.Text.Units
import MatFormat.Proofs.Text.Utf16
import MatFormat.Proofs.UnsetSlots
import MatFormat.Proofs.WellFormed
import MatFormat.Run
import MatFormat.Shape
import MatFormat.Stream
import MatFormat.Text.Blank
import MatFormat.Text.Quoted
import MatFormat.Text.Unprintable
import MatFormat.Text.Utf16
import MatFormat.Text.Utf8
import MatFormat.Zlib.Adler
import MatFormat.Zlib.Bits
import MatFormat.Zlib.Inflate
import MatFormat.Zlib.PrefixCode
import MatFormat.Zlib.Store
