import Curio.Alignment

/-! `getDealMetadata` of `lib/dealdata/dealdata.go` and `FillersFromRem` of `lib/filler`: the pieces
of a sector with the padding between and behind them, as a list of piece infos and as the stream of
the sector's data.

A reader is given by the bytes it delivers. Closing the readers is left out. -/

namespace Curio.Deal

open GoRuntime Alignment

abbrev Cid := String

structure DealMetadata where
  pieceCID : String
  pieceSize : Nat
  dataUrl : Option String
  dataHeaders : Bytes
  dataRawSize : Nat
  dataDelOnFinalize : Bool
  deriving DecidableEq

structure PieceInfo where
  size : Nat
  pieceCID : Cid
  deriving DecidableEq

structure DealData where
  commD : Cid
  data : Bytes
  isUnpadded : Bool
  pieceInfos : List PieceInfo
  keepUnsealed : Bool
  deriving DecidableEq

/-- `PaddedPieceSize.Unpadded` -/
def unpadded (size : Nat) : Nat := size - size / 128

/-- `UnpaddedPieceSize.Padded` -/
def padded (size : Nat) : Nat := size + size / 127

def fillersFromRem (rem : Nat) : List Nat :=
  let toFill := uint64 (rem + rem / 127 : Nat)
  (lowBits (onesCount toFill) toFill).map unpadded

structure Libraries where
  parseCid : String → Except String Cid
  /-- `proofs.GetRequiredPadding`: the padding before a piece of a size at an offset. -/
  getRequiredPadding : Nat → Nat → List Nat
  zeroPieceCommitment : Nat → Cid
  /-- `commputils.PieceAggregateCommP` for the sector's proof type. -/
  pieceAggregateCommP : List PieceInfo → Except String Cid
  /-- `padreader.PaddedSize` -/
  paddedSize : Nat → Nat
  /-- `url.Parse`: scheme and opaque part. -/
  parseUrl : String → Except String (String × String)
  parseHeaders : Bytes → Except String Unit
  parseInt : String → Except String Int

structure Node where
  /-- `parked_piece_refs`: the pieces of a reference. -/
  parkedPieceRefs : Int → Except String (List Nat)
  pieceReader : Nat → Except String Bytes
  urlReader : String → Bytes → Nat → Bytes

def wrap {α : Type} (context : String) : Except String α → Except String α
  | .error message => .error (context ++ ": " ++ message)
  | .ok value => .ok value

def nullReader (size : Nat) : Bytes := List.replicate size 0

def padReader (lib : Libraries) (source : Bytes) (size : Nat) : Bytes :=
  source.take size ++ nullReader (lib.paddedSize size - size)

def openUrl (lib : Libraries) (node : Node) (p : DealMetadata) (dataUrl : String) :
    Except String Bytes := do
  let (scheme, opaquePart) ← wrap "parsing data URL" (lib.parseUrl dataUrl)
  wrap "parsing data headers" (lib.parseHeaders p.dataHeaders)
  if scheme = "pieceref" then
    let refNum ← wrap "parsing piece reference number" (lib.parseInt opaquePart)
    let pieceID ← wrap "getting pieceID" (node.parkedPieceRefs refNum)
    match pieceID with
    | [id] => wrap "getting piece reader" (node.pieceReader id)
    | other => .error ("expected 1 pieceID, got " ++ toString other.length)
  else pure (node.urlReader dataUrl p.dataHeaders p.dataRawSize)

def openPiece (lib : Libraries) (node : Node) (p : DealMetadata) : Except String Bytes :=
  match p.dataUrl with
  | some dataUrl => do
      let source ← openUrl lib node p dataUrl
      pure (padReader lib source p.dataRawSize)
  | none => pure (nullReader (unpadded p.pieceSize))

structure Progress where
  offset : Nat
  pieceInfos : List PieceInfo
  pieceReaders : List Bytes
  keepUnsealed : Bool
  deriving DecidableEq

def addPiece (lib : Libraries) (node : Node) (commDOnly : Bool) (done : Progress)
    (p : DealMetadata) : Except String Progress := do
  let c ← wrap "parsing piece cid" (lib.parseCid p.pieceCID)
  let pads := lib.getRequiredPadding (padded done.offset) p.pieceSize
  let reader ← if commDOnly then pure [] else (openPiece lib node p).map fun reader => [reader]
  pure {
    offset := done.offset + unpadded pads.sum + unpadded p.pieceSize
    pieceInfos := done.pieceInfos ++
      pads.map (fun pad => ⟨pad, lib.zeroPieceCommitment (unpadded pad)⟩) ++ [⟨p.pieceSize, c⟩]
    pieceReaders := done.pieceReaders ++ pads.map (fun pad => nullReader (unpadded pad)) ++ reader
    keepUnsealed := done.keepUnsealed || !p.dataDelOnFinalize }

def getDealMetadata (lib : Libraries) (node : Node) (ssize : Nat) (pieces : List DealMetadata)
    (commDOnly : Bool) : Except String DealData :=
  if pieces ≠ [] then do
    let done ← pieces.foldlM (addPiece lib node commDOnly) ⟨0, [], [], false⟩
    let fillers := fillersFromRem (uint64 (unpadded ssize - done.offset : Int))
    let pieceInfos := done.pieceInfos ++
      fillers.map fun fil => ⟨padded fil, lib.zeroPieceCommitment fil⟩
    let commD ← wrap "computing CommD" (lib.pieceAggregateCommP pieceInfos)
    pure {
      commD := commD
      data := (done.pieceReaders ++ fillers.map nullReader).flatten
      isUnpadded := true
      pieceInfos := pieceInfos
      keepUnsealed := done.keepUnsealed }
  else
    let commD := lib.zeroPieceCommitment (unpadded ssize)
    pure {
      commD := commD
      data := if commDOnly then [] else nullReader ssize
      isUnpadded := false
      pieceInfos := [⟨ssize, commD⟩]
      keepUnsealed := false }

end Curio.Deal
