import Darkroom.Archive.ArrayFile
import Darkroom.Archive.Checksum
import Darkroom.Archive.CodeLengths
import Darkroom.Archive.Deflate
import Darkroom.Archive.Pieces
import Darkroom.Archive.Zip
import Darkroom.Calendar
import Darkroom.Camera.Container
import Darkroom.Camera.Device
import Darkroom.Camera.Exif
import Darkroom.Camera.Notation
import Darkroom.Camera.Report
import Darkroom.Camera.Tiff
import Darkroom.Command.Arguments
import Darkroom.Command.Run
import Darkroom.Command.Words
import Darkroom.Environment
import Darkroom.Failure
import Darkroom.Files.Content
import Darkroom.Files.Filing
import Darkroom.Files.Path
import Darkroom.Files.Tree
import Darkroom.Journal
import Darkroom.Json.Printer
import Darkroom.Json.Reader
import Darkroom.Main
import Darkroom.Mosaic.Channels
import Darkroom.Mosaic.Extract
import Darkroom.Mosaic.Normalize
import Darkroom.Mosaic.Pattern
import Darkroom.Mosaic.Plane
import Darkroom.Mosaic.Tensor
import Darkroom.Numeric.Binary
import Darkroom.Numeric.Decimal
import Darkroom.Numeric.Fraction
import Darkroom.Numeric.LowBytes
import Darkroom.Numeric.Number
import Darkroom.Numeric.Power
import Darkroom.Output.Record
import Darkroom.Output.StoredPicture
import Darkroom.Output.TensorArchive
import Darkroom.Picture.BmpHeader
import Darkroom.Picture.GifHeader
import Darkroom.Picture.JpegHeader
import Darkroom.Picture.PixelBuffer
import Darkroom.Picture.PixmapHeader
import Darkroom.Picture.PngHeader
import Darkroom.Picture.Size
import Darkroom.Raw.File
import Darkroom.Raw.Handle
import Darkroom.Raw.Metadata
import Darkroom.Raw.Model
import Darkroom.Samples.Basic
import Darkroom.Samples.Natural
import Darkroom.Samples.SampleType
import Darkroom.Settings.Configuration
import Darkroom.Settings.Decode
import Darkroom.Settings.Loading
import Darkroom.Settings.Section
import Darkroom.Text.Blank
import Darkroom.Text.DecimalDigit
import Darkroom.Text.Half
import Darkroom.Text.LetterCase
import Darkroom.Text.Portions
import Darkroom.Text.Printable
import Darkroom.Text.Quoted
import Darkroom.Text.WordEnd
import Darkroom.Tone.Adjuster
import Darkroom.Tone.Adjustment
import Darkroom.Tone.Hsl
import Darkroom.Value.Basic
import Darkroom.Value.Cast
import Darkroom.Value.Shown
import Darkroom.Yaml.CoreType
import Darkroom.Yaml.Cursor
import Darkroom.Yaml.Document
import Darkroom.Yaml.Lexer
import Darkroom.Yaml.Meaning
import Darkroom.Yaml.Merge
import Darkroom.Yaml.Node
import Darkroom.Yaml.Pages
import Darkroom.Yaml.Plain
import Darkroom.Yaml.Scalar
import Darkroom.Yaml.Token
import Darkroom.Proofs.Numeric.NearestEven
import Darkroom.Proofs.Numeric.Rounding
import Darkroom.Proofs.Numeric.Grid
import Darkroom.Proofs.Numeric.Arithmetic
import Darkroom.Proofs.Numeric.Nearness
import Darkroom.Proofs.Numeric.LowBytes
import Darkroom.Proofs.Samples.Rows
import Darkroom.Proofs.Tone.ByteShares
import Darkroom.Proofs.Tone.ColourCircle
import Darkroom.Proofs.Tone.Intensity
import Darkroom.Proofs.Tone.HueNearness
import Darkroom.Proofs.Tone.Pixelwise
import Darkroom.Proofs.Tone.RoundTrip
import Darkroom.Proofs.Mosaic.Rearrangement
import Darkroom.Proofs.Command.Steps
import Darkroom.Proofs.Files.TreeLaws
import Darkroom.Proofs.Files.LastNames
import Darkroom.Proofs.Command.Extraction
import Darkroom.Proofs.Json.Reading
import Darkroom.Proofs.Json.Tables
import Darkroom.Proofs.Numeric.DecimalValue
import Darkroom.Proofs.Numeric.ShortestDecimal
import Darkroom.Proofs.Json.Numbers
import Darkroom.Proofs.Json.Texts
import Darkroom.Proofs.Json.Parts
import Darkroom.Proofs.Json.RoundTrip
import Darkroom.Proofs.Command.ExtractionRecord
import Darkroom.Proofs.Numeric.Given
import Darkroom.Proofs.Tone.StepValues
import Darkroom.Proofs.Tone.Factors
import Darkroom.Proofs.Tone.OtherSaturation
import Darkroom.Proofs.Command.NamedArchive
import Darkroom.Proofs.Settings.Usable
import Darkroom.Proofs.Tone.Levels
import Darkroom.Proofs.Tone.Greys
import Darkroom.Proofs.Tone.KnobOrder
import Darkroom.Proofs.Tone.VividColours
import Darkroom.Proofs.Raw.Sessions
import Darkroom.Proofs.Files.Frames
import Darkroom.Proofs.Raw.Refusals
import Darkroom.Proofs.Command.Closings
import Darkroom.Proofs.Command.Failures
import Darkroom.Proofs.Camera.Exposures
import Darkroom.Proofs.Camera.TagNumbers
import Darkroom.Proofs.Camera.Tags
import Darkroom.Proofs.Camera.Reports
import Darkroom.Proofs.Mosaic.ExactShares
import Darkroom.Proofs.Tone.ExtremeKnobs
import Darkroom.Proofs.Tone.HslRange
import Darkroom.Proofs.Tone.IntensityRange
import Darkroom.Proofs.Tone.RgbRange
import Darkroom.Proofs.Settings.Casting
import Darkroom.Proofs.Samples.Shapes
import Darkroom.Proofs.Settings.Sections
import Darkroom.Proofs.Settings.Parsing
import Darkroom.Proofs.Settings.Documents
import Darkroom.Proofs.Command.Flags
import Darkroom.Proofs.Command.Keys
import Darkroom.Proofs.Command.Interchange
import Darkroom.Proofs.Mosaic.ChannelSplit
import Darkroom.Proofs.Picture.Packing
import Darkroom.Proofs.Numeric.NearestFraction
import Darkroom.Proofs.Camera.ShutterTexts
import Darkroom.Proofs.Mosaic.TileLabels
import Darkroom.Proofs.Settings.PartialSections
import Darkroom.Proofs.Settings.LibraryOptions
import Darkroom.Proofs.Text.Layers
import Darkroom.Proofs.Camera.LabelEnds
import Darkroom.Proofs.Raw.OpenedPaths
