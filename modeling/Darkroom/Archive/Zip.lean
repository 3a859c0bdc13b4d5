import Darkroom.Archive.Checksum
import Darkroom.Archive.Deflate
import Darkroom.Numeric.LowBytes

/-!
# Archives of members

Several named texts of bytes in one file. Every member stands in compressed form behind a header;
at the end of the file a directory repeats the headers and says where each member begins. Archives
do not know when they were made: every member carries the first day that the form can express.

Numbers stand with their lowest byte first. A header has room for sizes of eight bytes beside those
of four.

## Main definitions

* `ArchiveMember`: A member.
* `archiveBytes`: The archive of some members.
-/

namespace Darkroom

/-- A member: its name and its bytes. -/
structure ArchiveMember where
  name : String
  bytes : List UInt8

/-- A member that has been compressed. -/
structure PackedMember where
  name : List UInt8
  checksum : Nat
  size : Nat
  packed : List UInt8

namespace PackedMember

/-- A member in compressed form. -/
def ofMember (m : ArchiveMember) : PackedMember where
  name := m.name.toUTF8.toList
  checksum := (Darkroom.checksum m.bytes).toNat
  size := m.bytes.length
  packed := deflate ⟨m.bytes.toArray⟩

/-- The version of the form, and the way of compression. -/
def formVersion : Nat := 20

def compression : Nat := 8

/-- The first day that the form can express, the first of January 1980, at midnight. -/
def firstMoment : List UInt8 := lowBytes 2 0 ++ lowBytes 2 0x21

/-- What a header and the directory say alike. -/
def description (m : PackedMember) : List UInt8 :=
  lowBytes 2 formVersion ++ lowBytes 2 0 ++ lowBytes 2 compression ++ firstMoment ++
    lowBytes 4 m.checksum ++ lowBytes 4 m.packed.length ++ lowBytes 4 m.size ++
    lowBytes 2 m.name.length

/-- A member with its header. -/
def bytes (m : PackedMember) : List UInt8 :=
  lowBytes 4 0x04034B50 ++ m.description ++ lowBytes 2 20 ++ m.name ++
    lowBytes 2 1 ++ lowBytes 2 16 ++ lowBytes 8 m.size ++
    lowBytes 8 m.packed.length ++ m.packed

/-- What the directory says about a member that begins at a place. Its owner may read and write
it. -/
def directoryEntry (m : PackedMember) (place : Nat) : List UInt8 :=
  lowBytes 4 0x02014B50 ++ lowBytes 2 (3 * 256 + formVersion) ++ m.description ++
    lowBytes 2 0 ++ lowBytes 2 0 ++ lowBytes 2 0 ++ lowBytes 2 0 ++
    lowBytes 2 0 ++ lowBytes 2 0o600 ++ lowBytes 4 place ++ m.name

end PackedMember

/-- The directory of some members, the first of which begins at a place. -/
def directoryBytes (place : Nat) : List PackedMember → List UInt8
  | [] => []
  | m :: rest => m.directoryEntry place ++ directoryBytes (place + m.bytes.length) rest

/-- The archive of some members. -/
def archiveBytes (members : List ArchiveMember) : List UInt8 :=
  let packed := members.map PackedMember.ofMember
  let content := packed.flatMap PackedMember.bytes
  let directory := directoryBytes 0 packed
  content ++ directory ++ lowBytes 4 0x06054B50 ++ lowBytes 4 0 ++
    lowBytes 2 packed.length ++ lowBytes 2 packed.length ++
    lowBytes 4 directory.length ++ lowBytes 4 content.length ++ lowBytes 2 0

end Darkroom
