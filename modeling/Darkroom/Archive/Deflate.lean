import Darkroom.Archive.CodeLengths
import Darkroom.Archive.Pieces
import Darkroom.Numeric.Power

/-!
# Compressed bytes

Bytes in a compressed form: a row of blocks, each of which holds some pieces. A block is written in
the form that is shortest: with codes of its own, whose lengths stand at its front; with codes that
are fixed once and for all; or with its bytes as they are. When the first two take equally many
bytes the fixed codes win, and bytes as they are win only when they save one.

Bits fill bytes from the lowest on. Numbers stand with their lowest bit first, codes with their
highest.

## Main definitions

* `Codes`: The codes of symbols.
* `Block`: Some pieces with the bytes that they stand for.
* `Block.bits`: A block in its shortest form.
* `deflate`: Bytes in compressed form.
-/

namespace Darkroom

/-- A number as bits, the lowest first. -/
def numberBits : (width : Nat) → Nat → List Bool
  | 0, _ => []
  | width + 1, n => (n % 2 = 1) :: numberBits width (n / 2)

/-- Bits as bytes, the last filled up with zeros. -/
def packBits (bits : List Bool) : List UInt8 :=
  go bits 0 1
where
  /-- Bits as bytes, where the lower bits of the next byte and the weight of the next bit are
  known. -/
  go : List Bool → Nat → Nat → List UInt8
    | [], value, weight => if weight = 1 then [] else [UInt8.ofNat value]
    | bit :: rest, value, weight =>
      let value := if bit then value + weight else value
      if weight = 128 then UInt8.ofNat value :: go rest 0 1 else go rest value (2 * weight)

/-- The codes of symbols: the bits of each. -/
abbrev Codes := Array (List Bool)

namespace Codes

/-- The first code of a length; shorter codes come before longer ones. -/
def firstOf (lengths : List Nat) : Nat → Nat
  | 0 => 0
  | length + 1 =>
    2 * (firstOf lengths length + if length = 0 then 0 else lengths.count length)

/-- The codes of some lengths, in the order of the symbols. -/
def ofLengths (lengths : List Nat) : Codes :=
  let starts := (Array.range 16).map (firstOf lengths)
  let code (taken : Array Nat) (length : Nat) : List Bool :=
    (numberBits length (starts.getD length 0 + taken.getD length 0)).reverse
  (lengths.foldl (fun (codes, taken) length =>
    (codes.push (code taken length), taken.modify length (· + 1)))
    (#[], Array.replicate 16 0)).1

/-- The bits of a symbol. -/
def bits (codes : Codes) (symbol : Nat) : List Bool := codes.getD symbol []

end Codes

/-- Steps that cover the numbers from a first one on: where each begins, and how many bits tell the
numbers in it apart. -/
def stepsFrom (first : Nat) : List Nat → List (Nat × Nat)
  | [] => []
  | width :: rest => (first, width) :: stepsFrom (first + twoTo width) rest

/-- The steps of lengths. The greatest length has one of its own. -/
def lengthSteps : Array (Nat × Nat) :=
  (stepsFrom 3 (List.replicate 4 0 ++ (List.range 6).flatMap fun (n : Nat) => List.replicate 4 n)
    ++ [(greatestCopy, 0)]).toArray

/-- The steps of distances. -/
def distanceSteps : Array (Nat × Nat) :=
  (stepsFrom 1 (List.replicate 2 0 ++ (List.range 14).flatMap fun (n : Nat) => List.replicate 2 n)
    ).toArray

/-- The step of a number. -/
def stepOf (steps : Array (Nat × Nat)) (n : Nat) : Nat :=
  ((List.range steps.size).reverse.find? fun (k : Nat) => (steps.getD k (0, 0)).1 ≤ n).getD 0

/-- The bits that tell a number apart from the others in its step. -/
def stepBits (steps : Array (Nat × Nat)) (step n : Nat) : List Bool :=
  let (first, width) := steps.getD step (0, 0)
  numberBits width (n - first)

/-- The symbol that ends a block. The symbols before it are bytes, those after it lengths. -/
def endSymbol : Nat := 256

namespace Piece

/-- The symbol of a byte or of the length of a copy. -/
def symbol : Piece → Nat
  | byte b => b.toNat
  | copy length _ => endSymbol + 1 + stepOf lengthSteps length

/-- The symbol of the distance of a copy. -/
def distanceSymbol? : Piece → Option Nat
  | byte _ => none
  | copy _ distance => some (stepOf distanceSteps distance)

/-- The bits of a piece. -/
def bits (codes distanceCodes : Codes) (piece : Piece) : List Bool :=
  match piece with
  | byte _ => codes.bits piece.symbol
  | copy length distance =>
    let step := stepOf lengthSteps length
    let distanceStep := stepOf distanceSteps distance
    codes.bits (endSymbol + 1 + step) ++ stepBits lengthSteps step length ++
      distanceCodes.bits distanceStep ++ stepBits distanceSteps distanceStep distance

end Piece

/-- Some pieces, the bytes that they stand for, and whether they are the last ones. -/
structure Block where
  pieces : List Piece
  bytes : List UInt8
  isLast : Bool

/-- How often each of some symbols occurs. -/
def occurrences (count : Nat) (symbols : List Nat) : List Nat :=
  (symbols.foldl (fun counts symbol => counts.modify symbol (· + 1))
    (Array.replicate count 0)).toList

/-- The lengths of the fixed codes. -/
def fixedLengths : List Nat :=
  List.replicate 144 8 ++ List.replicate 112 9 ++ List.replicate 24 7 ++ List.replicate 8 8

/-- The lengths of the fixed codes of distances. -/
def fixedDistanceLengths : List Nat := List.replicate 30 5

/-- A part of a row of lengths: a length, or a number of times that the length before it or zero is
repeated. -/
inductive LengthPart where
  | length (n : Nat)
  | again (count : Nat)
  | zeros (count : Nat)
  deriving DecidableEq, Repr

namespace LengthPart

/-- The symbol of a part. -/
def symbol : LengthPart → Nat
  | length n => n
  | again _ => 16
  | zeros count => if count ≤ 10 then 17 else 18

/-- The bits that follow the symbol. -/
def extraBits : LengthPart → List Bool
  | length _ => []
  | again count => numberBits 2 (count - 3)
  | zeros count => if count ≤ 10 then numberBits 3 (count - 3) else numberBits 7 (count - 11)

/-- The parts of the rest of a row of equal lengths, of which at least one has been written. -/
def ofRest (n : Nat) : (fuel rest : Nat) → List LengthPart
  | 0, _ => []
  | fuel + 1, rest =>
    if rest < 3 then List.replicate rest (length n)
    else again (min 6 rest) :: ofRest n fuel (rest - 6)

/-- The parts of a row of zeros. -/
def ofZeros : (fuel count : Nat) → List LengthPart
  | 0, _ => []
  | fuel + 1, count =>
    if count < 3 then List.replicate count (length 0)
    else zeros (min 138 count) :: ofZeros fuel (count - 138)

/-- The parts of a row of equal lengths. -/
def ofRun (n count : Nat) : List LengthPart :=
  if n = 0 then ofZeros (count + 1) count else length n :: ofRest n count (count - 1)

/-- The parts of a row of lengths. -/
def ofLengths (lengths : List Nat) : List LengthPart :=
  (lengths.splitBy (· == ·)).flatMap fun run => ofRun (run.headD 0) run.length

end LengthPart

/-- The order in which the lengths of the codes of length parts are written. -/
def partOrder : List Nat := [16, 17, 18, 0, 8, 7, 9, 6, 10, 5, 11, 4, 12, 3, 13, 2, 14, 1, 15]

/-- The lengths of two kinds of codes, as they stand at the front of a block. -/
def headerBits (lengths distanceLengths : List Nat) : List Bool :=
  let parts := LengthPart.ofLengths lengths ++ LengthPart.ofLengths distanceLengths
  let partLengths := codeLengths 7 (occurrences 19 (parts.map LengthPart.symbol))
  let codes := Codes.ofLengths partLengths
  let ordered := partOrder.map fun symbol => partLengths.getD symbol 0
  -- Zeros at the end of the order are left out, but four lengths are always written.
  let kept := max 4 (ordered.reverse.dropWhile (· = 0)).length
  numberBits 5 (lengths.length - 257) ++ numberBits 5 (distanceLengths.length - 1) ++
    numberBits 4 (kept - 4) ++ (ordered.take kept).flatMap (numberBits 3) ++
    parts.flatMap fun part => codes.bits part.symbol ++ part.extraBits

namespace Block

/-- The pieces of a block with some codes, and its end. -/
def piecesBits (block : Block) (codes distanceCodes : Codes) : List Bool :=
  block.pieces.flatMap (Piece.bits codes distanceCodes) ++ codes.bits endSymbol

/-- A block with fixed codes. -/
def fixedBits (block : Block) : List Bool :=
  block.piecesBits (.ofLengths fixedLengths) (.ofLengths fixedDistanceLengths)

/-- A block with codes of its own. -/
def ownBits (block : Block) : List Bool :=
  let symbols := block.pieces.map Piece.symbol ++ [endSymbol]
  let lengths := codeLengths 15 (occurrences 286 symbols)
  let distanceSymbols := block.pieces.filterMap Piece.distanceSymbol?
  let distanceLengths := codeLengths 15 (occurrences 30 distanceSymbols)
  headerBits lengths distanceLengths ++
    block.piecesBits (.ofLengths lengths) (.ofLengths distanceLengths)

/-- The bytes of a block as they are, behind a number of bits that have been written. They begin
with a byte of their own. -/
def plainBits (block : Block) (written : Nat) : List Bool :=
  let count := block.bytes.length
  -- The count is followed by the same number with all bits turned over.
  List.replicate ((8 - (written + 3) % 8) % 8) false ++ numberBits 16 count ++
    numberBits 16 (65535 - count) ++ block.bytes.flatMap fun b => numberBits 8 b.toNat

/-- The number of bytes that bits take with the three bits in front of them. -/
def bytesTaken (bits : List Bool) : Nat := (bits.length + 10) / 8

/-- A block in its shortest form, behind a number of bits that have been written. -/
def bits (block : Block) (written : Nat) : List Bool :=
  let own := block.ownBits
  let fixed := block.fixedBits
  let form (kind : Nat) : List Bool := block.isLast :: numberBits 2 kind
  if block.bytes.length + 4 ≤ min (bytesTaken own) (bytesTaken fixed) then
    form 0 ++ block.plainBits written
  else if bytesTaken fixed ≤ bytesTaken own then form 1 ++ fixed
  else form 2 ++ own

/-- The number of pieces in a block that is not the last. -/
def capacity : Nat := 16383

/-- Pieces as blocks. The fuel is greater than the number of blocks. -/
def ofPieces : Nat → List Piece → List UInt8 → List Block
  | 0, _, _ => []
  | fuel + 1, pieces, bytes =>
    if pieces.length < capacity then [⟨pieces, bytes, true⟩]
    else
      let taken := pieces.take capacity
      let count := (taken.map Piece.length).sum
      ⟨taken, bytes.take count, false⟩ :: ofPieces fuel (pieces.drop capacity) (bytes.drop count)

end Block

/-- Bytes in compressed form. -/
def deflate (data : ByteArray) : List UInt8 :=
  let pieces := piecesOf data
  let blocks := Block.ofPieces (pieces.size + 1) pieces.toList data.toList
  packBits (blocks.foldl (fun written block => written ++ block.bits written.length) [])

end Darkroom
