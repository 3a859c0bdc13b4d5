/-!
# Failures

Everything that can go wrong, as causes. A failure says what was wrong with which value; its
wording is fixed in one place, `Failure.message`, so that two operations that fail for one reason
say the same. `Failure.kind` sorts the causes for callers who want to handle them alike.

Some causes have no wording: a value of a type that an operation cannot use at all, a missing
file, a document that is not well formed. Their kind says all there is to say, and a command that
ends with one reports it without a message.

## Main definitions

* `Failure`: A cause of failure.
* `FailureKind`: The sorts of causes.
* `Failure.kind`: The sort of a cause.
* `Failure.message?`: The wording of a cause.
-/

namespace Darkroom

/-- A list of sizes as messages show it: `(4, 2)`, `(4,)`, `()`. -/
def shapeText : List Nat → String
  | [] => "()"
  | [n] => s!"({n},)"
  | sizes => "(" ++ ", ".intercalate (sizes.map toString) ++ ")"

/-- The sorts of failures. -/
inductive FailureKind where
  | badValue
  | overflow
  | divisionByZero
  | missingKey
  | runtime
  | unsupportedFormat
  | unsupportedMosaic
  | decoding
  | missingDependency
  | badType
  | badAttribute
  | badIndex
  | badText
  | halfText
  | missingFile
  | isDirectory
  | notDirectory
  | fileExists
  | system
  | unencodable
  | oversized
  | unreadableDocument
  | unscannableDocument
  | unparsableDocument
  | uncomposableDocument
  | unconstructibleDocument
  | endlessDocument
  deriving DecidableEq, Repr

/-- What a sort of failures is called, for those whose causes have no wording of their own. -/
def FailureKind.wording : FailureKind → String
  | badType => "a value has the wrong type"
  | badAttribute => "a value lacks a part"
  | badIndex => "a place lies outside a list"
  | badText => "bytes are not text"
  | halfText => "a text has half of a character"
  | missingFile => "there is no such file"
  | isDirectory => "a directory stands where a file should"
  | notDirectory => "a file stands where a directory should"
  | fileExists => "a file is in the way"
  | unencodable => "a picture has no pixels"
  | oversized => "a picture has too many pixels"
  | unreadableDocument => "a document has characters that no document has"
  | unscannableDocument => "a document is not made of words"
  | unparsableDocument => "the words of a document are out of order"
  | uncomposableDocument => "a document refers to what it does not have"
  | unconstructibleDocument => "a document has a value that stands for nothing"
  | system => "the system refused"
  | _ => "it does not work"

/-- The parts of a moment. -/
inductive CalendarPart where
  | year
  | month
  | day
  | hour
  | minute
  | second
  deriving DecidableEq, Repr

/-- What is said about a part that no calendar has. -/
def CalendarPart.wording : CalendarPart → String
  | year => "year 0 is out of range"
  | month => "month must be in 1..12"
  | day => "day is out of range for month"
  | hour => "hour must be in 0..23"
  | minute => "minute must be in 0..59"
  | second => "second must be in 0..59"

/-- A cause of failure. -/
inductive Failure where
  /-- A text, shown quoted, that is not a real number. -/
  | notReal (shown : String)
  /-- A text, shown quoted, that is not a whole number to the given base. -/
  | notWhole (base : Nat) (shown : String)
  /-- A whole number beyond the greatest real number. -/
  | tooLargeForReal
  /-- An infinite number where a whole number is needed. -/
  | infiniteToWhole
  /-- Not-a-number where a whole number is needed. -/
  | nanToWhole
  /-- Not-a-number where a fraction is needed. -/
  | nanToFraction
  /-- A text with more digits than a whole number may have. -/
  | tooManyDigits (count : Nat)
  /-- A whole number with too many digits to be written out. -/
  | tooLongToShow
  /-- A bound on denominators that is not positive. -/
  | noDenominator
  /-- A division by zero outside the arithmetic of samples. -/
  | divisionByZero
  /-- A whole number outside a sample type. -/
  | outOfBounds (value : Int) (type : String)
  /-- A whole number that does not even fit the widest sample type. -/
  | beyondMachine
  /-- Samples laid out in another shape than height, width, channels. -/
  | bufferShape (shape : List Nat)
  /-- A sample depth, shown, other than 8 and 16 bits. -/
  | unsupportedDepth (shown : String)
  /-- Bytes that do not divide into samples. -/
  | partialSample
  /-- A count of samples other than the product of the dimensions, which are shown. -/
  | sampleCount (expected : Int) (width height channels : String) (got : Nat)
  /-- Several negative dimensions. -/
  | unknownDimensions
  /-- Samples that cannot take a shape, which is shown. -/
  | cannotReshape (size : Nat) (shape : String)
  /-- A dimension beyond every array. -/
  | dimensionTooLarge
  /-- Dimensions whose product is beyond every array. -/
  | arrayTooLarge
  /-- Nested lists of uneven lengths, with the even part of the shape. -/
  | unevenArray (depth : Nat) (shape : List Nat)
  /-- Lists nested deeper than an array may be. -/
  | tooManyDimensions (limit : Nat)
  /-- A sensor plane in another shape than height, width. -/
  | planeShape (shape : List Nat)
  /-- A sensor plane whose samples are not whole numbers. -/
  | planeType (type : String)
  /-- A mosaic pattern that is empty or not a table. -/
  | patternShape (shape : List Nat)
  /-- A mosaic pattern, shown, with channels that the description, shown, does not have. -/
  | patternChannels (pattern description : String)
  /-- Tile labels, shown, that are not four. -/
  | tileLabels (shown : String)
  /-- A tensor in another shape than four planes. -/
  | tensorShape (shape : List Nat)
  /-- A name that no plane of a tensor has. -/
  | unknownPlane
  /-- A colour adjustment of too few channels. -/
  | tooFewChannels (count : Nat)
  /-- A colour adjustment of samples that do not have 8 bits. -/
  | notEightBit (bits : Nat)
  /-- A count of rows per chunk that is not positive. -/
  | rowsPerChunk
  /-- A mosaic other than the one that can be split into planes. -/
  | unsupportedPattern (labels : String)
  /-- A source, described, without a mosaic. -/
  | noPattern (source : String)
  /-- Keys that a section of the settings does not have. -/
  | unknownKeys (section_ : String) (keys : List String)
  /-- A setting with another number of values than it needs. -/
  | valueCount (key : String) (count : Nat)
  | unknownDemosaic (name : String)
  | unknownColorSpace (name : String)
  | outputDepth
  | highlightMode
  | userFlip
  /-- A moment with a part that no calendar has. -/
  | outsideCalendar (part : CalendarPart)
  /-- A moment whose distance from universal time, shown, is a day or more. -/
  | distantZone (shown : String)
  /-- An escape for a character beyond all characters. -/
  | noSuchCharacter (code : Nat)
  /-- A key, shown, that is not there. -/
  | missingKey (shown : String)
  | noRawLibrary
  | noYamlLibrary
  | noImageLibrary
  | noTiffLibrary
  /-- A path in a home directory that is not known. -/
  | noHome
  /-- A RAW source, described, that cannot be opened. -/
  | openFailed (source reason : String)
  /-- A RAW source, described, that cannot be developed. -/
  | processingFailed (source reason : String)
  /-- What the RAW library itself reports. -/
  | library (reason : String)
  /-- A deep sample in an image format that has 8 bits. -/
  | formatDepth (suffix : String)
  /-- A channel count that an image format cannot hold. -/
  | formatChannels (count : Nat) (suffix : String)
  /-- An image name whose extension stands for no format. -/
  | unknownExtension (extension : String)
  /-- An image name whose extension stands for a format that is only read. -/
  | readOnlyFormat (name : String)
  /-- A level that the journal does not know. -/
  | unknownLevel (shown : String)
  /-- A path, shown, that has no name. -/
  | namelessPath (shown : String)
  /-- A path that contains NUL, where it is resolved. -/
  | nulInPath
  /-- A name that contains NUL, where it is looked up. -/
  | nulInName
  /-- A path that contains half of a character. -/
  | halfInPath
  /-- An array that is smaller than nothing. -/
  | negativeDimension
  /-- A picture without pixels as JPEG. -/
  | emptyJpeg
  /-- A picture with more pixels than are allowed. -/
  | oversizedPicture
  /-- A description of a PNG picture that ends early. -/
  | shortDescription
  /-- A header of a pixmap that ends early. -/
  | headerEnds
  /-- A word, shown, that is too long for the header of a pixmap. -/
  | longWord (shown : String)
  /-- A greatest sample that takes more than two bytes. -/
  | greatestSample
  /-- A scale of samples that is zero or not finite. -/
  | badScale
  /-- A value of a type that an operation cannot use. -/
  | wrongType
  /-- A value without the parts that an operation needs. -/
  | wrongAttribute
  /-- A place outside a list. -/
  | wrongIndex
  /-- Bytes that are not text. -/
  | wrongEncoding
  | missingFile
  | isDirectory
  | notDirectory
  | fileExists
  /-- A name that is longer than a file system allows. -/
  | nameTooLong
  /-- A fourth channel in a format that has none. -/
  | fourthChannel
  /-- A format that pictures are not encoded in. -/
  | unencodedFormat
  /-- A picture without pixels, where a format needs some. -/
  | emptyPicture
  | unreadableDocument
  | unscannableDocument
  | unparsableDocument
  | uncomposableDocument
  | unconstructibleDocument
  /-- A document with a value that stands for itself. -/
  | endlessDocument
  /-- A report in which a part of some sort is nested too deep. -/
  | nestedReport (part : String)
  deriving DecidableEq, Repr

namespace Failure

/-- The number from which on no character code fits a machine word. -/
def codeLimit : Nat := 0x80000000

/-- The sort of a cause. -/
def kind : Failure → FailureKind
  | tooLargeForReal | infiniteToWhole | outOfBounds .. | beyondMachine => .overflow
  | noSuchCharacter code => if code < codeLimit then .badValue else .overflow
  | divisionByZero => .divisionByZero
  | missingKey _ | readOnlyFormat _ => .missingKey
  | library _ | noYamlLibrary | noImageLibrary | noTiffLibrary | noHome => .runtime
  | tooFewChannels _ | notEightBit _ => .unsupportedFormat
  | unsupportedPattern _ | noPattern _ => .unsupportedMosaic
  | openFailed .. | processingFailed .. => .decoding
  | noRawLibrary => .missingDependency
  | wrongType | planeType _ => .badType
  | wrongAttribute => .badAttribute
  | wrongIndex => .badIndex
  | wrongEncoding => .badText
  | halfInPath => .halfText
  | missingFile => .missingFile
  | isDirectory => .isDirectory
  | notDirectory => .notDirectory
  | fileExists => .fileExists
  | nameTooLong | fourthChannel | unencodedFormat => .system
  | emptyPicture => .unencodable
  | oversizedPicture => .oversized
  | unreadableDocument => .unreadableDocument
  | unscannableDocument => .unscannableDocument
  | unparsableDocument => .unparsableDocument
  | uncomposableDocument => .uncomposableDocument
  | unconstructibleDocument => .unconstructibleDocument
  | endlessDocument | nestedReport _ => .endlessDocument
  | _ => .badValue

/-- The wording of a cause, for the causes that have one. -/
def message? : Failure → Option String
  | notReal shown => some s!"could not convert string to float: {shown}"
  | notWhole base shown => some s!"invalid literal for int() with base {base}: {shown}"
  | tooLargeForReal => some "int too large to convert to float"
  | infiniteToWhole => some "cannot convert float infinity to integer"
  | nanToWhole => some "cannot convert float NaN to integer"
  | nanToFraction => some "cannot convert NaN to integer ratio"
  | tooManyDigits count =>
    some ("Exceeds the limit (4300 digits) for integer string conversion: value has " ++
      s!"{count} digits; use sys.set_int_max_str_digits() to increase the limit")
  | tooLongToShow =>
    some ("Exceeds the limit (4300 digits) for integer string conversion; " ++
      "use sys.set_int_max_str_digits() to increase the limit")
  | noDenominator => some "max_denominator should be at least 1"
  | divisionByZero => some "integer division or modulo by zero"
  | outOfBounds value type => some s!"Python integer {value} out of bounds for {type}"
  | beyondMachine => some "Python int too large to convert to C long"
  | bufferShape shape =>
    some ("pixel buffer must be (height, width, channels), got shape " ++ shapeText shape)
  | unsupportedDepth shown => some s!"unsupported bits per channel: {shown}"
  | partialSample => some "buffer size must be a multiple of element size"
  | sampleCount expected width height channels got =>
    some s!"expected {expected} samples for {width}x{height}x{channels}, got {got}"
  | unknownDimensions => some "can only specify one unknown dimension"
  | cannotReshape size shape => some s!"cannot reshape array of size {size} into shape {shape}"
  | dimensionTooLarge => some "Maximum allowed dimension exceeded"
  | arrayTooLarge =>
    some ("array is too big; `arr.size * arr.dtype.itemsize` is larger than the maximum " ++
      "possible size.")
  | unevenArray depth shape =>
    some ("setting an array element with a sequence. The requested array has an inhomogeneous " ++
      s!"shape after {depth} dimensions. The detected shape was " ++ shapeText shape ++
      " + inhomogeneous part.")
  | tooManyDimensions limit =>
    some ("setting an array element with a sequence. The requested array would exceed the " ++
      s!"maximum number of dimension of {limit}.")
  | planeShape shape => some ("raw plane must be (height, width), got shape " ++ shapeText shape)
  | planeType type => some s!"raw plane samples must be integers, got {type}"
  | patternShape shape =>
    some ("CFA pattern must be a non-empty 2-D tile, got shape " ++ shapeText shape)
  | patternChannels pattern description =>
    some s!"CFA pattern {pattern} references channels outside {description}"
  | tileLabels shown => some s!"expected four tile labels, got {shown}"
  | tensorShape shape => some ("tensor must be (4, height, width), got shape " ++ shapeText shape)
  | unknownPlane => some "tuple.index(x): x not in tuple"
  | tooFewChannels count => some s!"color adjustment needs at least 3 channels, got {count}"
  | notEightBit bits => some s!"color adjustment supports 8-bit samples only, got {bits}-bit"
  | rowsPerChunk => some "rows_per_chunk must be positive"
  | unsupportedPattern labels => some s!"unsupported CFA pattern {labels}; only RGGB is supported"
  | noPattern source => some s!"{source} has no color filter array pattern"
  | unknownKeys name keys => some (s!"unknown {name} config keys: " ++ ", ".intercalate keys)
  | valueCount key count => some s!"{key} must have {count} values"
  | unknownDemosaic name => some s!"unknown demosaic algorithm: {name}"
  | unknownColorSpace name => some s!"unknown output color space: {name}"
  | outputDepth => some "output_bps must be 8 or 16"
  | highlightMode => some "highlight_mode must be in 0..9"
  | userFlip => some "user_flip must be one of 0, 3, 5, 6"
  | outsideCalendar part => some part.wording
  | distantZone shown =>
    some ("offset must be a timedelta strictly between -timedelta(hours=24) and " ++
      s!"timedelta(hours=24), not {shown}.")
  | noSuchCharacter code =>
    some (if code < codeLimit then "chr() arg not in range(0x110000)"
      else "Python int too large to convert to C int")
  | missingKey shown => some shown
  | noRawLibrary => some "rawpy is required for RAW decode: pip install rawpy"
  | noYamlLibrary =>
    some "PyYAML is required for config loading. Install with: pip install PyYAML"
  | noImageLibrary =>
    some "Pillow is required for PNG/JPEG output. Install with: pip install Pillow"
  | noTiffLibrary =>
    some "tifffile is required for TIFF output. Install with: pip install tifffile"
  | noHome => some "Could not determine home directory."
  | openFailed source reason => some s!"open failed for {source}: {reason}"
  | processingFailed source reason => some s!"processing failed for {source}: {reason}"
  | library reason => some reason
  | formatDepth suffix =>
    some ((if suffix.isEmpty then "this format" else suffix) ++
      " output needs 8-bit samples; write .tiff for 16-bit")
  | formatChannels count suffix => some s!"cannot write {count}-channel buffer to {suffix}"
  | unknownExtension extension => some s!"unknown file extension: {extension}"
  | readOnlyFormat name => some s!"'{name}'"
  | unknownLevel shown => some s!"Unknown level: {shown}"
  | namelessPath shown => some s!"PosixPath('{shown}') has an empty name"
  | nulInPath => some "lstat: embedded null character in path"
  | nulInName => some "embedded null byte"
  | negativeDimension => some "negative dimensions are not allowed"
  | emptyJpeg => some "cannot write empty image as JPEG"
  | shortDescription => some "Truncated IHDR chunk"
  | headerEnds => some "Reached EOF while reading header"
  | longWord shown => some s!"Token too long in file header: {shown}"
  | greatestSample => some "maxval must be greater than 0 and less than 65536"
  | badScale => some "scale must be finite and non-zero"
  | endlessDocument => some "maximum recursion depth exceeded"
  | nestedReport part =>
    some s!"maximum recursion depth exceeded while decoding a JSON {part} from a unicode string"
  | _ => none

end Failure

end Darkroom
