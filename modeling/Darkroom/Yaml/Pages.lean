import Darkroom.Text.Portions

/-!
# Pages of a document

A document is read page by page, and a page only when one of its characters is asked for. A page
with a character that no document has cannot be read at all. So what is wrong on a late page stays
unknown when an earlier one is wrong already.

## Main definitions

* `Yaml.Pages`: The characters of a document that can be read, and why there are no more.
* `Yaml.Pages.ofBytes`: The pages of a file.
-/

namespace Darkroom

namespace Yaml

/-- Whether a document may contain a character. -/
def isDocumentChar (c : Char) : Bool :=
  let n := c.toNat
  n = 0x09 || n = 0x0A || n = 0x0D || (0x20 ≤ n && n ≤ 0x7E) || n = 0x85 ||
    (0xA0 ≤ n && n ≤ 0xD7FF) || (0xE000 ≤ n && n ≤ 0xFFFD) || 0x10000 ≤ n

/-- The characters of a document that can be read, and the failure that comes after them if the
document does not end there. -/
structure Pages where
  text : List Char
  failure : Option Failure

namespace Pages

/-- The number of characters of a page. -/
def pageSize : Nat := 4096

/-- The next page of a file. The first one is as long as two. -/
def nextPage (isFirst : Bool) (file : TextFile) : Except Failure (List Char × TextFile) := do
  let (page, file) ← file.take pageSize
  if isFirst then
    let (more, file) ← file.take pageSize
    return (page ++ more, file)
  else return (page, file)

/-- All further pages of a file. -/
def ofFile : Nat → Bool → TextFile → Pages
  | 0, _, _ => ⟨[], none⟩
  | fuel + 1, isFirst, file =>
    match nextPage isFirst file with
    | .error failure => ⟨[], some failure⟩
    | .ok (page, file) =>
      if page.isEmpty then ⟨[], none⟩
      else if !page.all isDocumentChar then ⟨[], some .unreadableDocument⟩
      else
        let more := ofFile fuel false file
        ⟨page ++ more.text, more.failure⟩

/-- The pages of a file. -/
def ofBytes (data : ByteArray) : Pages := ofFile (data.size + 1) true (.ofBytes data)

end Pages

end Yaml

end Darkroom
