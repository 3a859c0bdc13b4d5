import Darkroom.Files.Tree
import Darkroom.Output.StoredPicture
import Darkroom.Output.TensorArchive

/-!
# Contents of files

What is found in a file: bytes or a text that somebody put there, a journal, a picture or an
archive. Journals and pictures are kept as what a reader of the file gets; how they are packed does
not matter here.

## Main definitions

* `Content`: What is found in a file.
* `Content.bytes`: A content as bytes, where it is kept as such.
* `Content.archive?`: The archive that a file holds.
-/

namespace Darkroom

/-- What is found in a file. -/
inductive Content where
  | data (bytes : ByteArray)
  | text (s : String)
  | journal
  | picture (p : StoredPicture)
  | archive (a : TensorArchive)

namespace Content

/-- A content as bytes. Journals and most pictures are never read as bytes, and show none. -/
def bytes : Content → ByteArray
  | data bytes => bytes
  | text s => s.toUTF8
  | archive a => a.bytes
  | picture p => p.bytes?.getD ByteArray.empty
  | journal => ByteArray.empty

/-- The archive that a file holds, if it holds one. -/
def archive? : Content → Option TensorArchive
  | archive a => some a
  | _ => none

end Content

end Darkroom
