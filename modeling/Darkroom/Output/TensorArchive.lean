import Darkroom.Archive.ArrayFile
import Darkroom.Archive.Zip
import Darkroom.Files.Path
import Darkroom.Mosaic.Tensor

/-!
# Tensor archives

A tensor as it is kept in a file: its planes with their names and size, and developed planes of the
same picture if there are any. The name of an archive always ends in `.npz`; a name that does not
gets this ending.

## Main definitions

* `TensorArchive`: What an archive holds.
* `TensorArchive.path`: Where an archive is kept.
* `TensorArchive.bytes`: An archive as it is kept.
-/

namespace Darkroom

/-- What an archive holds: a tensor, and developed planes if there are any. -/
structure TensorArchive where
  tensor : Tensor
  rgb : Option Samples

namespace TensorArchive

/-- The ending of the names of archives. -/
def ending : String := ".npz"

/-- Whether some characters end in others. -/
def endsIn (ending cs : List Char) : Bool := ending.reverse.isPrefixOf cs.reverse

/-- Where an archive is kept that is to go to a path. -/
def path (target : Path) : Path :=
  if endsIn ending.toList target.text.toList then target
  else Path.ofText (target.text ++ ending)

/-- An archive of a tensor, with developed planes as real numbers of 32 bits. -/
def of (tensor : Tensor) (rgb : Option Samples) : TensorArchive :=
  ⟨tensor, rgb.map Samples.toSingles⟩

/-- The members of an archive. -/
def members (a : TensorArchive) : List ArchiveMember := [
  ⟨"planes.npy", a.tensor.toSamples.arrayBytes⟩, ⟨"width.npy", wholeArrayBytes a.tensor.width⟩,
  ⟨"height.npy", wholeArrayBytes a.tensor.height⟩, ⟨"channel_order.npy", textArrayBytes planeNames⟩]
  ++ a.rgb.toList.map fun rgb => ⟨"rgb.npy", rgb.arrayBytes⟩

/-- An archive as it is kept. -/
def bytes (a : TensorArchive) : ByteArray := ⟨(archiveBytes a.members).toArray⟩

end TensorArchive

end Darkroom
