import Curio.BlockTree
import Curio.GoRuntime
import Curio.Proof.TreeSize
import Curio.Proof.Verify

/-! The partial top tree of `ProveTask.provePiece` in `tasks/pdpv0/task_prove.go`: the
sub-piece roots of a piece, joined upward until the siblings of a challenged sub-piece
can be read off. -/

namespace Curio.Pdp

open GoRuntime Curio.Proof

def leafSize : Nat := nodeSize

/-- `1 << (64 - bits.LeadingZeros64(n-1))` on 64-bit words. -/
def nextPowerOfTwo (n : Nat) : Nat := (1 <<< ((n + 2 ^ 64 - 1) % 2 ^ 64).size) % 2 ^ 64

/-- A row of the sub-piece query; offsets and sizes are padded bytes, `int64` columns. -/
structure SubPieceMeta where
  pieceRefId : Nat
  cachedProofgenFailureCount : Nat
  piece : String
  subPiece : String
  subPieceOffset : Nat
  subPieceSize : Nat
  removed : Bool
  pieceRawSize : Nat
  offsetFits : subPieceOffset < 2 ^ 63
  sizeFits : subPieceSize < 2 ^ 63
  deriving DecidableEq

structure CidCodec where
  Cid : Type
  parse : String → Call Cid
  cidToPieceCommitmentV1 : Cid → Call Node
  pieceCidV2FromV1 : Cid → Nat → Call Cid
  pieceCidV1FromV2 : Cid → Call (Cid × Nat)

/-- What the task uses of `zerocomm`: the commitments of zero pieces, smallest first. -/
structure ZeroComm where
  skip : Nat
  pieceComms : List Node

def ZeroComm.atLevel (zerocomm : ZeroComm) (level : Nat) : Go Node :=
  if level < zerocomm.skip + 1 then panics "index out of range"
  else readAt zerocomm.pieceComms (level - zerocomm.skip - 1)

structure ElemIndex where
  level : Nat
  elemOffset : Nat
  deriving DecidableEq

/-- Level one is a leaf of `LeafSize` bytes. -/
structure TreeElem where
  level : Nat
  hash : Node
  deriving DecidableEq

abbrev PartialTree := ElemIndex → Option TreeElem

def PartialTree.empty : PartialTree := fun _ => none

def PartialTree.set (tree : PartialTree) (index : ElemIndex) (elem : TreeElem) : PartialTree :=
  fun other => if other = index then some elem else tree other

/-- Indexing a Go map yields the zero value where the key is missing. -/
def PartialTree.get (tree : PartialTree) (index : ElemIndex) : TreeElem :=
  (tree index).getD ⟨0, zeroNode⟩

theorem PartialTree.set_same (tree : PartialTree) (index : ElemIndex) (elem : TreeElem) :
    tree.set index elem index = some elem := by
  simp [PartialTree.set]

namespace SubPieceMeta

def level (subPiece : SubPieceMeta) : Nat := nodeLevel (subPiece.subPieceSize / leafSize) binary

/-- A shift by `uint(level-1)`; level zero wraps around to a shift that leaves nothing. -/
def elemOffset (subPiece : SubPieceMeta) : Nat :=
  if subPiece.level = 0 then 0
  else (subPiece.subPieceOffset / leafSize) >>> (subPiece.level - 1)

def elemIndex (subPiece : SubPieceMeta) : ElemIndex := ⟨subPiece.level, subPiece.elemOffset⟩

end SubPieceMeta

def subPieceCommitment (cids : CidCodec) (subPiece : SubPieceMeta) : Go Node := do
  let unsCid ← wrap "failed to parse subPiece CID" (ofCall (cids.parse subPiece.subPiece))
  wrap "failed to convert CID to piece commitment" (ofCall (cids.cidToPieceCommitmentV1 unsCid))

def prefillStep (cids : CidCodec) (state : PartialTree × Nat) (subPiece : SubPieceMeta) :
    Go (PartialTree × Nat) := do
  let comm ← subPieceCommitment cids subPiece
  .ok (state.1.set subPiece.elemIndex ⟨subPiece.level, comm⟩,
    (state.2 + subPiece.subPieceSize) % 2 ^ 64)

def prefill (cids : CidCodec) (subPieces : List SubPieceMeta) : Go (PartialTree × Nat) :=
  subPieces.foldlM (prefillStep cids) (PartialTree.empty, 0)

def isRight (offset : Nat) : Bool := offset &&& 1 == 1

/-- The right sibling of a left element: from the tree, or a zero commitment that is then kept
in the tree. Nothing for the first sub-piece once its right siblings run out. -/
def rightSibling (zerocomm : ZeroComm) (firstSubPiece : Bool) (tree : PartialTree)
    (level offset : Nat) : Go (Option (TreeElem × PartialTree)) :=
  match tree ⟨level, offset + 1⟩ with
  | some sibling => .ok (some (sibling, tree))
  | none =>
    if firstSubPiece then .ok none
    else do
      let hash ← zerocomm.atLevel level
      .ok (some (⟨level, hash⟩, tree.set ⟨level, offset + 1⟩ ⟨level, hash⟩))

/-- `for !isRight(offset)`: join upward from one element. An `int64` offset is halved to zero
or to an odd number in fewer passes than the fuel its caller gives. -/
def growBranch (sha256 : Bytes → Node) (zerocomm : ZeroComm) (firstSubPiece : Bool) :
    Nat → PartialTree → Nat → Nat → TreeElem → Go PartialTree
  | 0, _, _, _, _ => .error .hang
  | fuel + 1, tree, level, offset, curElem =>
    if isRight offset then .ok tree
    else do
      match ← rightSibling zerocomm firstSubPiece tree level offset with
      | none => .ok tree
      | some (sibling, tree) =>
        let parent := computeBinShaParent sha256 curElem.hash sibling.hash
        let grown := tree.set ⟨level + 1, offset / 2⟩ ⟨level + 1, parent⟩
        growBranch sha256 zerocomm firstSubPiece fuel grown (level + 1) (offset / 2)
          (grown.get ⟨level + 1, offset / 2⟩)

def branchFuel : Nat := 65

def growSubPiece (sha256 : Bytes → Node) (zerocomm : ZeroComm) (tree : PartialTree)
    (numbered : SubPieceMeta × Nat) : Go PartialTree :=
  growBranch sha256 zerocomm (numbered.2 == 0) branchFuel tree numbered.1.level
    numbered.1.elemOffset (tree.get numbered.1.elemIndex)

def growTree (sha256 : Bytes → Node) (zerocomm : ZeroComm) (subPieces : List SubPieceMeta)
    (tree : PartialTree) : Go PartialTree :=
  subPieces.zipIdx.reverse.foldlM (growSubPiece sha256 zerocomm) tree

/-- The siblings on the way from an element to the root, `count` levels above it. -/
def extractPath (tree : PartialTree) : Nat → Nat → Nat → Go (List Node)
  | 0, _, _ => .ok []
  | count + 1, currentLevel, currentOffset =>
    match tree ⟨currentLevel, currentOffset ^^^ 1⟩ with
    | none => fail s!"missing sibling at level {currentLevel}, offset {currentOffset ^^^ 1}"
    | some siblingElem =>
      match tree ⟨currentLevel, currentOffset⟩ with
      | none => fail s!"missing element at level {currentLevel}, offset {currentOffset}"
      | some _ => do
          let rest ← extractPath tree count (currentLevel + 1) (currentOffset / 2)
          .ok (siblingElem.hash :: rest)

structure PdpProof where
  leaf : Node
  proof : List Node
  deriving DecidableEq

def assembleProof (sha256 : Bytes → Node) (cids : CidCodec) (zerocomm : ZeroComm)
    (subPieces : List SubPieceMeta) (challSubPiece : SubPieceMeta)
    (subPieceProof : RawMerkleProof) : Go PdpProof := do
  let (prefilled, subPiecesSize) ← prefill cids subPieces
  let pieceSize := nextPowerOfTwo subPiecesSize
  let rootLevel := nodeLevel (pieceSize / leafSize) binary
  let tree ← growTree sha256 zerocomm subPieces prefilled
  let challSubtreeLeaf := tree.get challSubPiece.elemIndex
  if challSubtreeLeaf.hash ≠ subPieceProof.root then
    fail ("subtree root doesn't match partial tree leaf, " ++
      s!"{hex challSubtreeLeaf.hash} != {hex subPieceProof.root}")
  else do
    let path ← extractPath tree (rootLevel - challSubPiece.level) challSubPiece.level
      challSubPiece.elemOffset
    .ok ⟨subPieceProof.leaf, subPieceProof.proof ++ path⟩

/-- `lo.FindLastIndexOf`: the last sub-piece that starts at or before the challenged byte. -/
def findChallenged (subPieces : List SubPieceMeta) (challengedLeaf : Nat) : Option SubPieceMeta :=
  subPieces.reverse.find? (fun subPiece => subPiece.subPieceOffset ≤ challengedLeaf * leafSize)

end Curio.Pdp
