import Darkroom.Files.Path
import Darkroom.Picture.PixelBuffer
import Darkroom.Text.LetterCase

/-!
# Stored pictures

Which pictures can be stored in which format. TIFF takes any picture. The other formats take three
or four channels of 8 bits without a sign, and JPEG only three. The format follows from the ending
of the file's name, in any letter case. Some endings stand for formats that can be read but not
written: such an ending is refused like an unknown one, or when it comes to encoding the picture.

A pixmap has one form only, so its bytes are known. How a picture is packed in the other formats
does not matter here.

Two readings of the ending are in use. TIFF is recognised by the ending of a name that has
something before it; for the other formats, a name that consists of nothing but an ending has none.

## Main definitions

* `PictureFormat`: A format of pictures.
* `StoredPicture`: A picture with its format.
* `StoredPicture.ofBuffer`: A picture in the format that a path asks for.
* `StoredPicture.visible`: The samples that a reader of the file finds.
-/

namespace Darkroom

/-- A format of pictures. -/
inductive PictureFormat where
  | tiff
  | png
  | jpeg
  | bmp
  | pixmap
  /-- A format that has a name and no encoding. -/
  | unencoded
  deriving DecidableEq, Repr

namespace PictureFormat

/-- The formats of 8 bits, by the endings in small letters. -/
def endings : List (String × PictureFormat) :=
  [(".png", png), (".jpg", jpeg), (".jpeg", jpeg), (".jpe", jpeg), (".jfif", jpeg), (".bmp", bmp),
    (".ppm", pixmap), (".pgm", pixmap), (".pbm", pixmap), (".pnm", pixmap), (".pfm", pixmap),
    (".bufr", unencoded), (".grib", unencoded), (".h5", unencoded), (".hdf", unencoded),
    (".wmf", unencoded), (".emf", unencoded), (".msp", unencoded), (".xbm", unencoded),
    (".palm", unencoded)]

/-- The names of the formats that are only read, by the endings in small letters. -/
def readOnlyEndings : List (String × String) :=
  [(".cur", "CUR"), (".dcx", "DCX"), (".fit", "FITS"), (".fits", "FITS"), (".flc", "FLI"),
    (".fli", "FLI"), (".ftc", "FTEX"), (".ftu", "FTEX"), (".gbr", "GBR"), (".iim", "IPTC"),
    (".mpeg", "MPEG"), (".mpg", "MPEG"), (".pcd", "PCD"), (".psd", "PSD"), (".pxr", "PIXAR"),
    (".ras", "SUN"), (".xpm", "XPM")]

/-- Whether a path asks for TIFF. -/
def isTiff (path : Path) : Bool := [".tif", ".tiff"].contains (lowerCase path.suffix)

/-- The format of 8 bits that a path asks for. -/
def ofPath? (path : Path) : Except Failure PictureFormat :=
  let ending := lowerCase path.extension
  match endings.lookup ending, readOnlyEndings.lookup ending with
  | some format, _ => .ok format
  | none, some name => .error (.readOnlyFormat name)
  | none, none => .error (.unknownExtension ending)

end PictureFormat

/-- A picture in a format. -/
structure StoredPicture where
  format : PictureFormat
  buffer : PixelBuffer

/-- Whether the libraries for pictures are there. -/
structure PictureLibraries where
  tiff : Bool
  other : Bool

namespace StoredPicture

/-- A picture in the format that a path asks for. -/
def ofBuffer (libraries : PictureLibraries) (path : Path) (buffer : PixelBuffer) :
    Except Failure StoredPicture :=
  if PictureFormat.isTiff path then
    if libraries.tiff then .ok ⟨.tiff, buffer⟩ else .error .noTiffLibrary
  else if buffer.bits ≠ 8 then .error (.formatDepth path.suffix)
  else if !libraries.other then .error .noImageLibrary
  else if buffer.channels ≠ 3 ∧ buffer.channels ≠ 4 then
    .error (.formatChannels buffer.channels path.suffix)
  else if buffer.type ≠ .whole .byte then .error .wrongType
  else do return ⟨← PictureFormat.ofPath? path, buffer⟩

/-- What a format refuses only when a picture is encoded. -/
def checkEncodable (p : StoredPicture) : Except Failure Unit :=
  let isEmpty := p.buffer.width = 0 || p.buffer.height = 0
  match p.format with
  | .tiff => .ok ()
  | .jpeg =>
    if isEmpty then .error .emptyJpeg
    else if p.buffer.channels = 4 then .error .fourthChannel
    else .ok ()
  | .unencoded => .error .unencodedFormat
  | .png | .bmp | .pixmap => if isEmpty then .error .emptyPicture else .ok ()

/-- The samples that a reader of the file finds: a BMP shows no fourth channel, and a pixmap has
none. -/
def visible (p : StoredPicture) : Samples :=
  if p.format = .bmp || p.format = .pixmap then p.buffer.firstChannels (min 3 p.buffer.channels)
  else p.buffer.toSamples

/-- The bytes of a picture in a format that leaves no choice: a pixmap is its size and its greatest
sample in digits, and then its samples. -/
def bytes? (p : StoredPicture) : Option ByteArray :=
  if p.format = .pixmap then
    let size := toString p.buffer.width ++ " " ++ toString p.buffer.height
    some (("P6\n" ++ size ++ "\n255\n").toUTF8 ++ p.visible.toBytes)
  else none

end StoredPicture

end Darkroom
