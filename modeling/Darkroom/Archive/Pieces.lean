/-!
# Copies in bytes

Bytes as a row of pieces: a piece is a single byte, or a copy of bytes that stand some distance
before it. A copy has at least three bytes and may overlap what it copies.

The copies are looked for from the front. Places that begin with the same three bytes stand in one
bucket, the latest first, and a bounded number of them is tried; the longest copy wins, and of
equally long ones the nearest. A copy is not written at once: when the next place has a longer one,
a single byte is written instead. A copy of three bytes from far away is not worth its distance.

Buckets are shared by triples that differ only in high bits. Such places cost a try and no more.

## Main definitions

* `Piece`: A byte or a copy.
* `longestCopy`: The longest copy at a place.
* `piecesOf`: The pieces of bytes.
-/

namespace Darkroom

/-- A single byte, or a copy of bytes before it. -/
inductive Piece where
  | byte (b : UInt8)
  | copy (length distance : Nat)
  deriving DecidableEq, Repr

namespace Piece

/-- The number of bytes that a piece stands for. -/
def length : Piece → Nat
  | byte _ => 1
  | copy length _ => length

end Piece

/-- The bounds on copies: the least and the greatest length, and how far they reach. -/
def leastCopy : Nat := 3

def greatestCopy : Nat := 258

def copyReach : Nat := 32506

/-- How far a copy of the least length may reach. -/
def leastCopyReach : Nat := 4096

/-- A copy of this length is taken without looking for a longer one at the next place. -/
def goodCopy : Nat := 16

/-- A copy of this length is taken without trying other places. -/
def niceCopy : Nat := 128

/-- How many places are tried; fewer when the place before has a copy of some length already. -/
def placesTried (before : Nat) : Nat := if before < 8 then 128 else 32

/-- The number of buckets. -/
def bucketCount : Nat := 0x8000

/-- The bucket of the three bytes at a place. -/
def bucketAt (data : ByteArray) (i : Nat) : Nat :=
  ((data.get! i).toNat * 1024 ^^^ (data.get! (i + 1)).toNat * 32 ^^^ (data.get! (i + 2)).toNat)
    % bucketCount

/-- The places in every bucket, the latest first. -/
abbrev Buckets := Array (List Nat)

/-- The places in the bucket of a place. The last two places have none. -/
def placesLike (data : ByteArray) (buckets : Buckets) (i : Nat) : List Nat :=
  if i + leastCopy ≤ data.size then buckets.getD (bucketAt data i) [] else []

/-- Puts a place into its bucket. The first place of all is never copied from. -/
def notePlace (data : ByteArray) (buckets : Buckets) (i : Nat) : Buckets :=
  if i ≠ 0 && i + leastCopy ≤ data.size then buckets.modify (bucketAt data i) (i :: ·) else buckets

/-- The number of bytes, at most `limit`, that are the same at two places. -/
def commonLength (data : ByteArray) (i j : Nat) : (limit : Nat) → Nat
  | 0 => 0
  | limit + 1 =>
    if data.get! i = data.get! j then commonLength data (i + 1) (j + 1) limit + 1 else 0

/-- A copy that may begin at a place: its length, and the place that it copies. -/
structure Candidate where
  length : Nat
  place : Nat

namespace Candidate

/-- No copy. It counts as shorter than every copy. -/
def none : Candidate := ⟨leastCopy - 1, 0⟩

/-- Whether there is a copy. -/
def isCopy (c : Candidate) : Bool := leastCopy ≤ c.length

end Candidate

/-- The places that may be tried. The nearest of them may stand a byte further away than the
others. -/
def triedPlaces (i tries : Nat) (places : List Nat) : List Nat :=
  match places.take tries with
  | [] => []
  | j :: rest =>
    if i - j ≤ copyReach then j :: rest.takeWhile (fun k => i - k < copyReach) else []

/-- The longest copy that is longer than another one, or that one. -/
def longestAmong (data : ByteArray) (i : Nat) (best : Candidate) : List Nat → Candidate
  | [] => best
  | j :: rest =>
    let left := data.size - i
    let length := commonLength data i j (min greatestCopy left)
    if length ≤ best.length then longestAmong data i best rest
    else if min niceCopy left ≤ length then ⟨length, j⟩
    else longestAmong data i ⟨length, j⟩ rest

/-- The longest copy at a place that is longer than the copy at the place before, or that one. -/
def longestCopy (data : ByteArray) (buckets : Buckets) (i : Nat) (before : Candidate) : Candidate :=
  if goodCopy ≤ before.length then before
  else
    let places := triedPlaces i (placesTried before.length) (placesLike data buckets i)
    let found := longestAmong data i before places
    -- A short copy from far away takes more bits than its bytes.
    if found.length = leastCopy && leastCopyReach < i - found.place then
      if before.isCopy then before else .none
    else found

/-- Puts some places in a row into their buckets. -/
def notePlaces (data : ByteArray) (buckets : Buckets) (i count : Nat) : Buckets :=
  (List.range count).foldl (fun buckets (k : Nat) => notePlace data buckets (i + k)) buckets

/-- The pieces from a place on. The byte before it may still wait for a piece; then the copy that
may begin there is known. -/
def piecesFrom (data : ByteArray) (i : Nat) (buckets : Buckets) (waiting : Option Candidate)
    (written : Array Piece) : Array Piece :=
  let before := waiting.getD .none
  if i < data.size then
    let found := longestCopy data buckets i before
    -- The copy of the byte before is at least as long as one from here, and is taken.
    if leastCopy ≤ before.length ∧ found.length ≤ before.length then
      let noted := notePlaces data buckets i (before.length - 1)
      piecesFrom data (i + before.length - 1) noted none
        (written.push (.copy before.length (i - 1 - before.place)))
    else
      -- Otherwise the byte before stands for itself, and the byte here waits.
      let written := if waiting.isSome then written.push (.byte (data.get! (i - 1))) else written
      piecesFrom data (i + 1) (notePlace data buckets i) (some found) written
  else if waiting.isSome then written.push (.byte (data.get! (i - 1)))
  else written
termination_by data.size - i
decreasing_by
  · have long : 3 ≤ before.length := by simp_all [leastCopy]
    change 3 ≤ (waiting.getD .none).length at long
    omega
  · omega

/-- The pieces of bytes. -/
def piecesOf (data : ByteArray) : Array Piece :=
  piecesFrom data 0 (Array.replicate bucketCount []) none #[]

end Darkroom
