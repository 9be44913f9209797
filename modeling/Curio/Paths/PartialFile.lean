import Curio.GoRuntime

/-! `lib/partialfile/partialfile.go`: an unsealed sector file is the data of the sector and a
trailer with the runs of bytes that are unsealed.

The RLE+ decoder of the trailer is a parameter; closing a file does not fail. -/

namespace Curio.Paths

open GoRuntime

structure Run where
  val : Bool
  len : Nat
  deriving DecidableEq

abbrev Rle := List Run

namespace Rle

/-- `Count` of `Fill`: the index behind the last set bit. -/
def lastSet : Rle → Nat
  | [] => 0
  | run :: rest =>
    if 0 < lastSet rest then run.len + lastSet rest
    else if run.val then run.len else 0

def countWithin : Rle → Nat → Nat → Nat
  | [], _, _ => 0
  | run :: rest, start, stop =>
    (if run.val then min run.len stop - start else 0) +
      countWithin rest (start - run.len) (stop - run.len)

end Rle

def unpadded (size : Nat) : Nat := size - size / 128

def padded (size : Nat) : Nat := size + size / 127

structure PartialFile where
  maxPiece : Nat
  path : String
  allocated : Rle
  file : Bytes

def uint32LE (bytes : Bytes) : Nat := bytes.foldr (fun byte word => byte.toNat + 256 * word) 0

variable (fromBuf : Bytes → Call Rle)

def readTrailer (maxPieceSize : Nat) (path : String) (f : Bytes) : Go Rle :=
  if f.length < 4 then
    fail "reading trailer length: negative offset"
  else do
    let trailerLen := uint32LE (f.drop (f.length - 4))
    let expectLen := trailerLen + 4 + maxPieceSize
    if expectLen ≠ f.length then
      fail s!"file '{path}' has inconsistent length; has {f.length} bytes; expected {expectLen} ({trailerLen + 4} trailer, {maxPieceSize} sector data)"
    else do
      let trailerStart := f.length - 4 - trailerLen
      let rle ← wrap "decoding trailer" (ofCall (fromBuf ((f.drop trailerStart).take trailerLen)))
      if Rle.lastSet rle > maxPieceSize then
        fail s!"last set byte at index higher than sector size: {Rle.lastSet rle} > {maxPieceSize}"
      else .ok rle

def openPartialFile (disk : String → Call Bytes) (maxPieceSize : Nat) (path : String) :
    Go PartialFile := do
  let f ← wrap s!"opening partial file '{path}'" (ofCall (disk path))
  if f.length < maxPieceSize then
    fail s!"sector file '{path}' was smaller than the sector size {f.length} < {maxPieceSize}"
  else if f.length = maxPieceSize then
    -- no trailer: all of it is unsealed
    .ok ⟨maxPieceSize, path, [⟨true, maxPieceSize⟩], f⟩
  else do
    let rle ← readTrailer fromBuf maxPieceSize path f
    .ok ⟨maxPieceSize, path, rle, f⟩

namespace PartialFile

/-- `HasAllocated`, at an unpadded offset and of an unpadded size. -/
def hasAllocated (pf : PartialFile) (offset size : Nat) : Bool :=
  Rle.countWithin pf.allocated (padded offset) (padded offset + padded size) = padded size

def reader (pf : PartialFile) (offset size : Nat) : Bytes := (pf.file.drop offset).take size

end PartialFile

end Curio.Paths
