import Curio.BinaryMerkle

/-! SHA-254 nodes and inclusion proofs: `lib/proof/verify.go` and the parent
function of `lib/proof/merkle_sha254_memtree.go`. SHA-256 itself is a parameter. -/

namespace Curio.Proof

open BinaryMerkle

/-- `NODE_SIZE` bytes. -/
abbrev Node := Vector UInt8 32

def nodeSize : Nat := 32

def zeroNode : Node := Vector.replicate 32 0

instance : Inhabited Node := ⟨zeroNode⟩

def hexBytes (bytes : List UInt8) : String :=
  String.join (bytes.map fun byte =>
    String.ofList [Nat.digitChar (byte.toNat / 16), Nat.digitChar (byte.toNat % 16)])

def hex (node : Node) : String := hexBytes node.toList

/-- The top two bits of the last byte are cleared after every hash. -/
def truncate (digest : Node) : Node := digest.set 31 (digest[31] &&& 0x3F)

variable (sha256 : List UInt8 → Node)

def computeBinShaParent (left right : Node) : Node :=
  truncate (sha256 (left.toList ++ right.toList))

def verifyProofLoop : Nat → Node → List Node → Node
  | _, computed, [] => computed
  | position, computed, sibling :: rest =>
    let hashed :=
      if position % 2 = 0 then sha256 (computed.toList ++ sibling.toList)
      else sha256 (sibling.toList ++ computed.toList)
    verifyProofLoop (position / 2) (truncate hashed) rest

def verifyProof (leaf : Node) (siblings : List Node) (root : Node) (position : Nat) : Bool :=
  verifyProofLoop sha256 position leaf siblings == root

def mixHash (bytes : List UInt8) : Node :=
  Vector.ofFn (fun i => 3 * bytes.getD i.val 0 + 2 * bytes.getD (i.val + 32) 0 + 1)

structure RawMerkleProof where
  leaf : Node
  proof : List Node
  root : Node
  deriving DecidableEq

theorem verifyProofLoop_eq_climb (position : Nat) (leaf : Node) (siblings : List Node) :
    verifyProofLoop sha256 position leaf siblings =
      climb (computeBinShaParent sha256) position leaf siblings := by
  induction siblings generalizing position leaf with
  | nil => rfl
  | cons sibling rest ih =>
    simp only [verifyProofLoop, climb, ih]
    split <;> rfl

theorem verifyProof_iff (leaf : Node) (siblings : List Node) (root : Node) (position : Nat) :
    verifyProof sha256 leaf siblings root position = true ↔
      climb (computeBinShaParent sha256) position leaf siblings = root := by
  rw [verifyProof, beq_iff_eq, verifyProofLoop_eq_climb]

/-- A Merkle proof of one leaf: the root it names, one sibling for each level, and accepted. -/
structure ValidProof (sha256 : List UInt8 → Node) (root : Node) (height position : Nat)
    (proof : RawMerkleProof) : Prop where
  root_eq : proof.root = root
  depth : proof.proof.length = height
  accepted : verifyProof sha256 proof.leaf proof.proof root position = true

end Curio.Proof
