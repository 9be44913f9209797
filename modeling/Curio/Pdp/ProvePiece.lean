import Mathlib
import Curio.Pdp.PieceProof
import Curio.Proof.CacheSafety

/-! `ProveTask.provePiece` as a whole: the cached sub-piece proof, the fallback to the full memtree
and the checks behind them. -/

namespace Curio.Pdp

open GoRuntime Curio.Proof BinaryMerkle BlockTree List

structure CacheRow where
  layerIndex : Int
  leafIndex : Int
  leaf : Node

/-- `idxProofCache` over the index store. Which layer `LIMIT 1` finds is left to the row order;
the rows of a layer come back sorted, and holes close up. -/
def idxProofCache {Cid : Type} (rows : Cid → List CacheRow) : ProofCache Cid where
  getLayerIndex := fun pieceCidV2 => .ok ((rows pieceCidV2).head?.map CacheRow.layerIndex)
  getNode := fun pieceCidV2 layerIdx index =>
    .ok (((rows pieceCidV2).find? (fun row =>
      row.layerIndex == layerIdx && row.leafIndex == index)).map CacheRow.leaf)
  getLayer := fun pieceCidV2 layerIdx =>
    .ok ((((rows pieceCidV2).filter (fun row => row.layerIndex == layerIdx)).mergeSort
      (fun first second => first.leafIndex ≤ second.leafIndex)).map CacheRow.leaf)

def minSizeForCache : Nat := 32 * 1024 * 1024

section Task

variable (ext : Externals) (cids : CidCodec) (zerocomm : ZeroComm)
  (idx : Option (ProofCache cids.Cid)) (cpr : PieceReader cids.Cid)

def cprPieceReader : PieceReader cids.Cid := fun pieceCid =>
  match cids.pieceCidV1FromV2 pieceCid with
  | .error message => .error ("failed to derive v1 CID from v2: " ++ message)
  | .ok (pieceCidV1, _) => cpr pieceCidV1

def genSubPieceMemtree (subPieceCid : String) (subPieceSize : Nat) : Go (List Node) := do
  let subPieceCidObj ← wrap "failed to parse subPiece CID" (ofCall (cids.parse subPieceCid))
  if maxMemtreeSize < subPieceSize then fail s!"subPiece size exceeds maximum: {subPieceSize}"
  else
    let file ← wrap "failed to get subPiece reader" (ofCall (cpr subPieceCidObj))
    let cpsize := ext.paddedSize file.reportedSize
    if ext.padded cpsize ≠ subPieceSize then
      fail s!"subPiece size mismatch: {cpsize} > {subPieceSize}"
    else
      let r : Stream := ⟨file.bytes, file.failure⟩
      let r :=
        if file.reportedSize < ext.unpadded subPieceSize then
          r.append (nullReader (ext.unpadded subPieceSize - file.reportedSize : Nat))
        else r
      buildSha254Memtree ext r (ext.unpadded subPieceSize)

def fullSubPieceProof (challSubPiece : SubPieceMeta) (subPieceChallengedLeaf : Int) :
    Go RawMerkleProof := do
  let memtree ← wrap "failed to generate subPiece memtree"
    (genSubPieceMemtree ext cids cpr challSubPiece.subPiece challSubPiece.subPieceSize)
  wrap "failed to generate subPiece proof" (memtreeProof memtree subPieceChallengedLeaf)

/-- The cached attempt: nothing where it is not tried or its CIDs cannot be made. -/
def cachedSubPieceProof (challSubPiece : SubPieceMeta) (subPieceChallengedLeaf : Int) :
    Go (Option RawMerkleProof) :=
  match idx with
  | none => .ok none
  | some cache =>
    if minSizeForCache < challSubPiece.subPieceSize ∧ 0 < challSubPiece.pieceRawSize then
      match cids.parse challSubPiece.subPiece with
      | .error _ => .ok none
      | .ok spCidV1 =>
        match cids.pieceCidV2FromV1 spCidV1 challSubPiece.pieceRawSize with
        | .error _ => .ok none
        | .ok spCidV2 =>
          generateCachedProof ext (cprPieceReader cids cpr) cache spCidV2 subPieceChallengedLeaf
    else .ok none

/-- A returned error or no proof leads to the full memtree; a panic goes through. -/
def subPieceProof (challSubPiece : SubPieceMeta) (subPieceChallengedLeaf : Int) :
    Go RawMerkleProof :=
  match cachedSubPieceProof ext cids idx cpr challSubPiece subPieceChallengedLeaf with
  | .ok (some proof) => .ok proof
  | .ok none => fullSubPieceProof ext cids cpr challSubPiece subPieceChallengedLeaf
  | .error (.error _) => fullSubPieceProof ext cids cpr challSubPiece subPieceChallengedLeaf
  | .error (.panic message) => .error (.panic message)
  | .error .hang => .error .hang

/-- The commitment of the whole piece, and the final check against it. -/
def checkPieceProof (subPieces : List SubPieceMeta) (challengedLeaf : Nat) (out : PdpProof) :
    Go PdpProof := do
  let first ← readAt (subPieces.map SubPieceMeta.piece) 0
  let pieceCid ← wrap "failed to parse piece CID" (ofCall (cids.parse first))
  let commPiece ← wrap "failed to convert CID to piece commitment"
    (ofCall (cids.cidToPieceCommitmentV1 pieceCid))
  if verifyProof ext.sha256 out.leaf out.proof commPiece challengedLeaf then .ok out
  else fail "proof verification failed"

def provePiece (subPieces : List SubPieceMeta) (challengedLeaf : Nat) : Go PdpProof :=
  match findChallenged subPieces challengedLeaf with
  | none => fail "no subpiece found"
  | some challSubPiece => do
      let subPieceChallengedLeaf : Int :=
        challengedLeaf - (challSubPiece.subPieceOffset / leafSize : Nat)
      let proof ← subPieceProof ext cids idx cpr challSubPiece subPieceChallengedLeaf
      let out ← assembleProof ext.sha256 cids zerocomm subPieces challSubPiece proof
      checkPieceProof ext cids subPieces challengedLeaf out

end Task

variable {first : RawMerkleProof} {leaf : Int} {root : Node}

theorem assembleProof_swap {sha256 : Bytes → Node} {cids : CidCodec} {zerocomm : ZeroComm}
    {subPieces : List SubPieceMeta} {chall : SubPieceMeta} {out : PdpProof}
    (assembled : assembleProof sha256 cids zerocomm subPieces chall first = .ok out) :
    ∃ path, out = ⟨first.leaf, first.proof ++ path⟩ ∧
      ∀ second : RawMerkleProof, second.root = first.root →
        assembleProof sha256 cids zerocomm subPieces chall second =
          .ok ⟨second.leaf, second.proof ++ path⟩ := by
  obtain ⟨⟨prefilled, size⟩, filled, assembled⟩ := bind_eq_ok.mp assembled
  obtain ⟨tree, grown, assembled⟩ := bind_eq_ok.mp assembled
  by_cases matching : (tree.get chall.elemIndex).hash = first.root
  · rw [if_neg (not_not_intro matching)] at assembled
    obtain ⟨path, extracted, returned⟩ := bind_eq_ok.mp assembled
    refine ⟨path, (Except.ok.inj returned).symm, ?_⟩
    intro second same
    unfold assembleProof
    rw [filled, ok_bind]
    simp only
    rw [grown, ok_bind, if_neg (not_not_intro (matching.trans same.symm)), extracted]
    rfl
  · rw [if_pos matching] at assembled
    cases assembled

def pieceCommitment (ext : Externals) (raw : Bytes) (height : Nat) : Node :=
  node ext.parent (cell (pieceLeaves ext raw (height + 5))) height 0

theorem paddedStream_read {bytes : Bytes} {size : Nat} (fits : bytes.length ≤ size) :
    readFull (if bytes.length < size then
        (⟨bytes, none⟩ : Stream).append (nullReader (size - bytes.length : Nat))
      else ⟨bytes, none⟩) size = .ok (zeroExtended bytes size) := by
  by_cases short : bytes.length < size
  · rw [if_pos short]
    simp only [Stream.append, nullReader]
    rw [readFull_of_le (by simp only [length_append, length_replicate]; omega),
      take_of_length_le (by simp only [length_append, length_replicate]; omega)]
    rfl
  · have exact : size - bytes.length = 0 := by omega
    rw [if_neg short, readFull_of_le (by simp only; omega), take_of_length_le fits,
      zeroExtended, exact, replicate_zero, append_nil]

section Fallback

variable {ext : Externals} {cids : CidCodec} {cpr : PieceReader cids.Cid} {chall : SubPieceMeta}
  (documented : ext.Documented) (power : chall.HasPaddedSize)
include documented power

variable {spCidV1 : cids.Cid} {file : PieceFile}

variable (parsed : cids.parse chall.subPiece = .ok spCidV1) (opened : cpr spCidV1 = .ok file)
  (readable : file.failure = none) (reported : file.reportedSize = file.bytes.length)
include parsed opened readable reported

theorem genSubPieceMemtree_builds (small : chall.subPieceSize ≤ maxMemtreeSize)
    (sized : ext.padded (ext.paddedSize file.bytes.length) = chall.subPieceSize) :
    ext.padded (ext.paddedSize file.bytes.length) = 2 ^ (chall.height + 5) ∧
      (pieceLeaves ext file.bytes (chall.height + 5)).length = 2 ^ chall.height ∧
      genSubPieceMemtree ext cids cpr chall.subPiece chall.subPieceSize =
        hashLeaves ext (2 ^ chall.height) (pieceLeaves ext file.bytes (chall.height + 5)) := by
  obtain ⟨k, height⟩ := Nat.exists_eq_add_of_le' (SubPieceMeta.height_large power)
  have size : chall.subPieceSize = 128 * 2 ^ k := by
    rw [SubPieceMeta.size_eq power, height]
    simp only [leafSize, nodeSize]
    ring
  have whole : 128 * 2 ^ k = 2 ^ (chall.height + 5) := by
    grind
  have bound : 128 * 2 ^ k ≤ 2 ^ 30 := size ▸ small
  have padded := (sized.trans size).trans whole
  obtain ⟨_, fits⟩ := documented.paddedSize_holds file.fits padded
  have exponent : chall.height + 5 - 7 = k := by omega
  have leaves := pieceLeaves_length documented (by omega : 7 ≤ chall.height + 5) fits
  rw [exponent] at fits
  have blocks := documented.padded_blocks (2 ^ k) (by omega)
  have count : 128 * 2 ^ k / nodeSize = 2 ^ chall.height := by
    rw [height, pow_add]
    simp only [nodeSize]
    omega
  refine ⟨padded, leaves, ?_⟩
  unfold genSubPieceMemtree
  rw [parsed, ofCall_ok, wrap_ok, ok_bind, if_neg (by omega), opened, ofCall_ok, wrap_ok, ok_bind,
    reported]
  rw [if_neg (not_not_intro sized), readable, size, documented.unpadded_blocks (2 ^ k) (by omega),
    buildSha254Memtree, blocks, if_neg (by simp only [maxMemtreeSize]; omega),
    paddedStream_read fits, wrap_ok, ok_bind, count, pieceLeaves, exponent]

theorem genSubPieceMemtree_eq {memtree : List Node}
    (built : genSubPieceMemtree ext cids cpr chall.subPiece chall.subPieceSize = .ok memtree) :
    ext.padded (ext.paddedSize file.bytes.length) = 2 ^ (chall.height + 5) ∧
      (pieceLeaves ext file.bytes (chall.height + 5)).length = 2 ^ chall.height ∧
      hashLeaves ext (2 ^ chall.height) (pieceLeaves ext file.bytes (chall.height + 5)) =
        .ok memtree := by
  have checked : chall.subPieceSize ≤ maxMemtreeSize ∧
      ext.padded (ext.paddedSize file.bytes.length) = chall.subPieceSize := by
    unfold genSubPieceMemtree at built
    rw [parsed, ofCall_ok, wrap_ok, ok_bind] at built
    by_cases large : maxMemtreeSize < chall.subPieceSize
    · rw [if_pos large] at built
      cases built
    · rw [if_neg large, opened, ofCall_ok, wrap_ok, ok_bind, reported] at built
      by_cases sized : ext.padded (ext.paddedSize file.bytes.length) = chall.subPieceSize
      · exact ⟨Nat.le_of_not_lt large, sized⟩
      · rw [if_pos sized] at built
        cases built
  obtain ⟨padded, leaves, same⟩ := genSubPieceMemtree_builds documented power parsed opened readable
    reported checked.1 checked.2
  exact ⟨padded, leaves, same ▸ built⟩

theorem fullSubPieceProof_spec {proof : RawMerkleProof}
    (returned : fullSubPieceProof ext cids cpr chall leaf = .ok proof) :
    0 ≤ leaf ∧ leaf < 2 ^ chall.height ∧
      ext.padded (ext.paddedSize file.bytes.length) = 2 ^ (chall.height + 5) ∧
      ValidProof ext.sha256 (pieceCommitment ext file.bytes chall.height) chall.height leaf.toNat
        proof := by
  obtain ⟨memtree, generated, proved⟩ := bind_eq_ok.mp returned
  obtain ⟨padded, length, built⟩ := genSubPieceMemtree_eq documented power parsed opened readable
    reported (wrap_eq_ok.mp generated)
  rw [wrap_eq_ok] at proved
  have positive := Nat.two_pow_pos chall.height
  have some : pieceLeaves ext file.bytes (chall.height + 5) ≠ [] :=
    ne_nil_of_length_pos (by omega)
  rw [← length] at built
  by_cases inside : 0 ≤ leaf ∧ leaf < 2 ^ chall.height
  · obtain ⟨index, rfl⟩ := Int.eq_ofNat_of_zero_le inside.1
    have below : index < 2 ^ chall.height := by exact_mod_cast inside.2
    have tree := memtreeProof_tree length built below
    have same := Except.ok.inj (proved.symm.trans tree)
    refine ⟨inside.1, inside.2, padded, ?_⟩
    rw [same]
    refine ⟨rfl, siblings_length _ _ _ _, (verifyProof_iff ..).mpr ?_⟩
    have climbed := climb_node ext.parent (cell (pieceLeaves ext file.bytes (chall.height + 5)))
      index chall.height
    rw [Nat.div_eq_of_lt below] at climbed
    exact climbed
  · obtain ⟨message, failed⟩ := memtreeProof_outside built some (by
      rw [length]
      exact fun facts => inside facts.2)
    rw [failed] at proved
    cases proved

theorem fullSubPieceProof_complete {leaf : Nat} (small : chall.subPieceSize ≤ maxMemtreeSize)
    (sized : ext.padded (ext.paddedSize file.bytes.length) = chall.subPieceSize)
    (inside : leaf < 2 ^ chall.height) :
    fullSubPieceProof ext cids cpr chall leaf =
      .ok ⟨cell (pieceLeaves ext file.bytes (chall.height + 5)) leaf,
        siblings (node ext.parent (cell (pieceLeaves ext file.bytes (chall.height + 5)))) 0 leaf
          chall.height,
        pieceCommitment ext file.bytes chall.height⟩ := by
  obtain ⟨_, leaves, same⟩ := genSubPieceMemtree_builds documented power parsed opened readable
    reported small sized
  obtain ⟨memtree, built, proved⟩ := hashLeaves_proves ext leaves inside
  rw [fullSubPieceProof, same, built]
  exact wrap_eq_ok.mpr proved

end Fallback

section Safety

variable {ext : Externals} {cids : CidCodec} {zerocomm : ZeroComm} {cpr : PieceReader cids.Cid}
  {cache : ProofCache cids.Cid} {subPieces : List SubPieceMeta} {challengedLeaf : Nat}
  {out : PdpProof}
variable {chall : SubPieceMeta}

/-- A valid sub-piece proof in the place of another one leaves the piece proof valid. -/
theorem checkPieceProof_swap {second : RawMerkleProof} {height position : Nat}
    {path : List Node} (firstValid : ValidProof ext.sha256 root height position first)
    (secondValid : ValidProof ext.sha256 root height position second)
    (aligned : challengedLeaf % 2 ^ height = position % 2 ^ height)
    (checked : checkPieceProof ext cids subPieces challengedLeaf
      ⟨first.leaf, first.proof ++ path⟩ = .ok out) :
    checkPieceProof ext cids subPieces challengedLeaf ⟨second.leaf, second.proof ++ path⟩ =
      .ok ⟨second.leaf, second.proof ++ path⟩ := by
  have reach : ∀ proof, ValidProof ext.sha256 root height position proof →
      climb ext.parent challengedLeaf proof.leaf (proof.proof ++ path) =
        climb ext.parent (challengedLeaf / 2 ^ height) root path := by
    intro proof valid
    have climbed := (verifyProof_iff ..).mp valid.accepted
    rw [climb_append, valid.depth, climb_position_congr ext.parent proof.proof challengedLeaf
      position proof.leaf (by rw [valid.depth]; exact aligned)]
    exact congrArg (fun start => climb ext.parent _ start path) climbed
  unfold checkPieceProof at checked ⊢
  obtain ⟨piece, read, checked⟩ := bind_eq_ok.mp checked
  obtain ⟨pieceCid, parsed, checked⟩ := bind_eq_ok.mp checked
  obtain ⟨commPiece, converted, checked⟩ := bind_eq_ok.mp checked
  rw [read, ok_bind, parsed, ok_bind, converted, ok_bind]
  have accepted : verifyProof ext.sha256 first.leaf (first.proof ++ path) commPiece
      challengedLeaf = true := by
    by_contra refused
    rw [if_neg refused] at checked
    cases checked
  have same : verifyProof ext.sha256 second.leaf (second.proof ++ path) commPiece
      challengedLeaf = true := by
    rw [verifyProof_iff] at accepted ⊢
    exact ((reach second secondValid).trans (reach first firstValid).symm).trans accepted
  rw [if_pos same]

theorem findChallenged_mem (found : findChallenged subPieces challengedLeaf = some chall) :
    chall ∈ subPieces :=
  mem_reverse.mp (mem_of_find?_eq_some found)

theorem height_le_of_fits (power : chall.HasPaddedSize) : chall.height ≤ 58 := by
  have size := SubPieceMeta.size_eq power
  have fits := chall.sizeFits
  simp only [leafSize, nodeSize] at size
  exact le_of_lt ((Nat.pow_lt_pow_iff_right (by decide)).mp (by omega : 2 ^ chall.height < 2 ^ 58))

variable {proof : RawMerkleProof}

theorem fullSubPieceProof_opened
    (returned : fullSubPieceProof ext cids cpr chall leaf = .ok proof) :
    ∃ spCidV1 file, cids.parse chall.subPiece = .ok spCidV1 ∧ cpr spCidV1 = .ok file := by
  obtain ⟨memtree, generated, _⟩ := bind_eq_ok.mp returned
  rw [wrap_eq_ok] at generated
  obtain ⟨spCidV1, parsed, generated⟩ := bind_eq_ok.mp generated
  by_cases large : maxMemtreeSize < chall.subPieceSize
  · rw [if_pos large] at generated
    cases generated
  · rw [if_neg large] at generated
    obtain ⟨file, opened, _⟩ := bind_eq_ok.mp generated
    exact ⟨spCidV1, file, ofCall_eq_ok.mp (wrap_eq_ok.mp parsed),
      ofCall_eq_ok.mp (wrap_eq_ok.mp opened)⟩

theorem subPieceProof_valid {spCidV1 : cids.Cid} {leaf : Nat}
    (parsed : cids.parse chall.subPiece = .ok spCidV1)
    (returned : fullSubPieceProof ext cids cpr chall leaf = .ok proof)
    (valid : ValidProof ext.sha256 root chall.height leaf proof)
    (safe : ∀ spCidV2, cids.pieceCidV2FromV1 spCidV1 chall.pieceRawSize = .ok spCidV2 →
      Safe (ValidProof ext.sha256 root chall.height leaf)
        (generateCachedProof ext (cprPieceReader cids cpr) cache spCidV2 leaf)) :
    ∃ used, subPieceProof ext cids (some cache) cpr chall leaf = .ok used ∧
      ValidProof ext.sha256 root chall.height leaf used := by
  have fallback : ∃ used, fullSubPieceProof ext cids cpr chall leaf = .ok used ∧
      ValidProof ext.sha256 root chall.height leaf used := ⟨proof, returned, valid⟩
  unfold subPieceProof cachedSubPieceProof
  simp only
  by_cases tried : minSizeForCache < chall.subPieceSize ∧ 0 < chall.pieceRawSize
  · rw [if_pos tried, parsed]
    simp only
    cases upgraded : cids.pieceCidV2FromV1 spCidV1 chall.pieceRawSize with
    | error message => exact fallback
    | ok spCidV2 =>
      have outcome := safe spCidV2 upgraded
      simp only
      cases attempt : generateCachedProof ext (cprPieceReader cids cpr) cache spCidV2 leaf with
      | ok answer =>
        rw [attempt] at outcome
        cases answer with
        | none => exact fallback
        | some cached => exact ⟨cached, rfl, outcome⟩
      | error fault =>
        rw [attempt] at outcome
        cases fault with
        | error message => exact fallback
        | panic message | hang => exact outcome.elim
  · rw [if_neg tried]
    exact fallback

/-- With a harmless cache a piece is proved whenever it is without a cache. -/
theorem provePiece_of_harmless (documented : ext.Documented) (ordered : WellOrdered subPieces)
    (served : ∀ pieceCid file, cpr pieceCid = .ok file →
      file.failure = none ∧ file.reportedSize = file.bytes.length)
    (harmless : ∀ chall spCidV1 spCidV2 file,
      findChallenged subPieces challengedLeaf = some chall →
      cids.parse chall.subPiece = .ok spCidV1 →
      cids.pieceCidV2FromV1 spCidV1 chall.pieceRawSize = .ok spCidV2 → cpr spCidV1 = .ok file →
      Harmless ext (cprPieceReader cids cpr) cache spCidV2 (challengedLeaf - chall.position)
        (pieceCommitment ext file.bytes chall.height) chall.height)
    (full : provePiece ext cids zerocomm none cpr subPieces challengedLeaf = .ok out) :
    ∃ cached, provePiece ext cids zerocomm (some cache) cpr subPieces challengedLeaf =
      .ok cached := by
  unfold provePiece at full ⊢
  cases found : findChallenged subPieces challengedLeaf with
  | none =>
    rw [found] at full
    cases full
  | some chall =>
    rw [found] at full
    simp only at full ⊢
    obtain ⟨proof, proved, full⟩ := bind_eq_ok.mp full
    obtain ⟨assembled, assembly, checked⟩ := bind_eq_ok.mp full
    have returned : fullSubPieceProof ext cids cpr chall
        (challengedLeaf - (chall.subPieceOffset / leafSize : Nat)) = .ok proof := proved
    have power := ordered.powers chall (findChallenged_mem found)
    obtain ⟨spCidV1, file, parsed, opened⟩ := fullSubPieceProof_opened returned
    obtain ⟨readable, reported⟩ := served spCidV1 file opened
    obtain ⟨low, high, _, valid⟩ := fullSubPieceProof_spec documented power parsed opened readable
      reported returned
    have start : chall.subPieceOffset / leafSize = chall.position := rfl
    have inner : (challengedLeaf : Int) - (chall.subPieceOffset / leafSize : Nat) =
        (challengedLeaf - chall.position : Nat) := by omega
    rw [inner] at returned valid high
    have below : challengedLeaf - chall.position < 2 ^ chall.height := by exact_mod_cast high
    have bounded : challengedLeaf - chall.position < 2 ^ 58 :=
      lt_of_lt_of_le below (Nat.pow_le_pow_right (by decide) (height_le_of_fits power))
    obtain ⟨used, usedProof, usedValid⟩ := subPieceProof_valid parsed returned valid
      (fun spCidV2 upgraded => (generateCachedProof_safe_iff documented bounded _ _).mpr
        (harmless chall spCidV1 spCidV2 file found parsed upgraded opened))
    obtain ⟨path, whole, swap⟩ := assembleProof_swap assembly
    subst whole
    have aligned : challengedLeaf % 2 ^ chall.height =
        (challengedLeaf - chall.position) % 2 ^ chall.height := by
      have blocks := aligned_from_zero (ordered.descending (fun _ => zeroNode))
        (ordered.mem_placed _ (findChallenged_mem found))
      obtain ⟨slot, position⟩ : 2 ^ chall.height ∣ chall.position := blocks
      conv_lhs => rw [show challengedLeaf = 2 ^ chall.height * slot +
        (challengedLeaf - chall.position) by omega]
      exact Nat.mul_add_mod _ _ _
    refine ⟨⟨used.leaf, used.proof ++ path⟩, ?_⟩
    rw [inner, usedProof, ok_bind, swap used (usedValid.root_eq.trans valid.root_eq.symm)]
    exact checkPieceProof_swap valid usedValid aligned checked

/-- A cache of any content spoils no proof exactly if it is harmless: the cached attempt then finds
nothing, fails with an error or gives a valid proof against the root of the full tree, and the
piece is proved whenever it is without the cache. -/
theorem cached_proof_safe_iff (documented : ext.Documented) :
    (∀ (Cid : Type) (reader : PieceReader Cid) (proofCache : ProofCache Cid) (pieceCidV2 : Cid)
        (file : PieceFile) (height leaf : Nat), reader pieceCidV2 = .ok file →
        ext.padded (ext.paddedSize file.bytes.length) = 2 ^ (height + 5) → leaf < 2 ^ height →
      (Safe (ValidProof ext.sha256 (pieceCommitment ext file.bytes height) height leaf)
          (generateCachedProof ext reader proofCache pieceCidV2 leaf) ↔
        Harmless ext reader proofCache pieceCidV2 leaf (pieceCommitment ext file.bytes height)
          height)) ∧
    ∀ (cids : CidCodec) (zerocomm : ZeroComm) (cpr : PieceReader cids.Cid)
        (cache : ProofCache cids.Cid) (subPieces : List SubPieceMeta) (challengedLeaf : Nat),
      WellOrdered subPieces →
      (∀ pieceCid file, cpr pieceCid = .ok file →
        file.failure = none ∧ file.reportedSize = file.bytes.length) →
      (∀ chall spCidV1 spCidV2 file,
        findChallenged subPieces challengedLeaf = some chall →
        cids.parse chall.subPiece = .ok spCidV1 →
        cids.pieceCidV2FromV1 spCidV1 chall.pieceRawSize = .ok spCidV2 → cpr spCidV1 = .ok file →
        Harmless ext (cprPieceReader cids cpr) cache spCidV2 (challengedLeaf - chall.position)
          (pieceCommitment ext file.bytes chall.height) chall.height) →
      (∃ proof, provePiece ext cids zerocomm none cpr subPieces challengedLeaf = .ok proof) →
      ∃ proof, provePiece ext cids zerocomm (some cache) cpr subPieces challengedLeaf =
        .ok proof := by
  constructor
  · intro Cid reader proofCache pieceCidV2 file height leaf opened padded inside
    obtain ⟨k, small, exact, _⟩ := documented.paddedSize_valid _ file.fits
    have blocks : 2 ^ k ≤ 2 ^ 56 := Nat.pow_le_pow_right (by decide) small
    rw [exact, documented.padded_blocks (2 ^ k) (by omega), show 128 = 2 ^ 7 from rfl,
      ← pow_add] at padded
    have exponent : 7 + k = height + 5 := Nat.pow_right_injective (le_refl 2) padded
    have bounded : leaf < 2 ^ 58 :=
      lt_of_lt_of_le inside (Nat.pow_le_pow_right (by decide) (by omega))
    exact generateCachedProof_safe_iff documented bounded _ _
  · rintro cids zerocomm cpr cache subPieces challengedLeaf ordered served harmless ⟨proof, full⟩
    exact provePiece_of_harmless documented ordered served harmless full

end Safety

theorem padBlock_zeros : padBlock (replicate 127 0) = replicate 4 zeroNode := by
  decide +kernel

theorem padBlocks_zeros (blocks : Nat) :
    padBlocks blocks (replicate (127 * blocks) 0) = replicate (4 * blocks) zeroNode := by
  induction blocks with
  | zero => rfl
  | succ blocks ih =>
    rw [padBlocks, take_replicate, drop_replicate,
      show min 127 (127 * (blocks + 1)) = 127 by omega,
      show 127 * (blocks + 1) - 127 = 127 * blocks by omega, ih, padBlock_zeros,
      replicate_append_replicate]
    congr 1
    omega

def zeroFile : PieceFile where
  bytes := replicate (127 * 2 ^ 19) 0
  reportedSize := 127 * 2 ^ 19
  fits := by
    rw [length_replicate]
    decide
  reportedFits := by decide

theorem zeroFile_length : zeroFile.bytes.length = 127 * 2 ^ 19 := length_replicate

theorem zeroFile_leaves :
    pieceLeaves referenceExternals zeroFile.bytes 26 = replicate (4 * 2 ^ 19) zeroNode := by
  have whole : zeroExtended zeroFile.bytes (127 * 2 ^ 19) = replicate (127 * 2 ^ 19) 0 := by
    rw [zeroExtended, zeroFile_length, Nat.sub_self, replicate_zero, append_nil]
    rfl
  have blocks := padBlocks_zeros (2 ^ 19)
  rw [pieceLeaves, whole]
  simp only [referenceExternals, length_replicate]
  exact blocks

abbrev zeroAt (level : Nat) : Node := zeroRoot referenceExternals.parent zeroNode level

theorem zeroFile_node (level index : Nat) :
    node referenceExternals.parent (cell (pieceLeaves referenceExternals zeroFile.bytes 26)) level
      index = zeroAt level := by
  induction level generalizing index with
  | zero =>
    rw [zeroFile_leaves, node, cell, getD_eq_getElem?_getD, getElem?_replicate]
    split <;> rfl
  | succ level ih =>
    rw [node, ih, ih]
    rfl

theorem zeroRoots_differ : zeroAt 17 ≠ zeroAt 21 := by
  decide +kernel

def zeroCids : CidCodec where
  Cid := String
  parse := fun text => .ok text
  cidToPieceCommitmentV1 := fun _ => .ok (zeroRoot referenceExternals.parent zeroNode 21)
  pieceCidV2FromV1 := fun cid _ => .ok cid
  pieceCidV1FromV2 := fun cid => .ok (cid, 127 * 2 ^ 19)

def zeroComms : ZeroComm where
  skip := 2
  pieceComms := (range 19).map
    (fun level => zeroRoot referenceExternals.parent zeroNode (level + 2))

def zeroPiece : SubPieceMeta :=
  ⟨1, 0, "piece", "piece", 0, 2 ^ 26, false, 127 * 2 ^ 19, first_offset_fits, by decide⟩

def zeroReader : PieceReader zeroCids.Cid := fun _ => .ok zeroFile

/-- The first of the sixteen rows of the layer at 4 MiB, as an interrupted `AddPDPLayer` leaves
them. -/
def partialCache : ProofCache zeroCids.Cid :=
  idxProofCache (fun _ => [⟨17, 0, zeroRoot referenceExternals.parent zeroNode 17⟩])

theorem zeroPiece_height : zeroPiece.height = 21 := by
  rw [SubPieceMeta.height, show zeroPiece.subPieceSize / leafSize = 2 ^ 21 from rfl,
    Nat.log_pow (by decide)]

theorem zeroPiece_ordered : WellOrdered [zeroPiece] where
  nonempty := by simp
  powers := by
    intro subPiece member
    rw [mem_singleton.mp member]
    exact ⟨by decide, 26, rfl⟩
  order := by simp
  contiguous := ⟨rfl, trivial⟩

theorem zeroPiece_commitment :
    pieceCommitment referenceExternals zeroFile.bytes 21 = zeroAt 21 :=
  zeroFile_node 21 0

/-- The one row passes for the whole layer, and its root for the root of the piece. -/
theorem partialCache_proof :
    ∃ path, generateCachedProof referenceExternals (cprPieceReader zeroCids zeroReader)
        partialCache "piece" (0 : Nat) =
          .ok (some ⟨zeroNode, path, zeroAt 17⟩) ∧
      climb referenceExternals.parent 0 zeroNode path = zeroAt 17 := by
  have leaf : cell (pieceLeaves referenceExternals zeroFile.bytes 26) 0 = zeroNode :=
    zeroFile_node 0 0
  have params := computeCacheProofParams_eq referenceExternals_documented (by decide : 15 ≤ 56)
    (by decide : 0 < 2 ^ (15 + 2)) (by decide : 0 * 2 ^ (15 + 2) + 0 < 2 ^ 58)
  have proved := sectionProof_eq referenceExternals_documented (by decide : 15 ≤ 23)
    (zeroFile_length.symm : zeroFile.reportedSize = _) rfl (by decide : 7 ≤ 26)
    (le_of_eq zeroFile_length) (by decide : 0 < 2 ^ (15 + 2))
    (by decide : (0 + 1) * 2 ^ (15 + 2) ≤ 2 ^ (26 - 5))
  have climbed := climb_node referenceExternals.parent
    (cell (pieceLeaves referenceExternals zeroFile.bytes 26)) 0 17
  rw [Nat.zero_mul] at params proved
  rw [leaf, zeroFile_node] at proved climbed
  have consulted : Consulted referenceExternals (cprPieceReader zeroCids zeroReader) partialCache
      "piece" 0 17 _ [zeroAt 17] :=
    ⟨rfl, rfl, ⟨_, _, params, rfl, proved⟩, by simp [partialCache, idxProofCache]⟩
  have single : snapshotLayer referenceExternals (pieceLeaves referenceExternals zeroFile.bytes 26)
      17 (2 ^ 0) = [zeroAt 17] := by
    simp [snapshotLayer, zeroFile_node]
  have rows : snapshotProof referenceExternals (snapshotLayer referenceExternals
      (pieceLeaves referenceExternals zeroFile.bytes 26) 17 (2 ^ 0)) (0 : Nat) = .ok ⟨_, [], _⟩ :=
    snapshotProof_eq (by decide) (by decide)
  rw [single, zeroFile_node] at rows
  refine ⟨_, ?_, climbed⟩
  rw [generateCachedProof_consulted consulted referenceExternals_documented (by decide),
    Nat.zero_div, rows, ok_bind, combineSplitProofs, append_nil]

theorem zeroPiece_roots (proof : RawMerkleProof) :
    assembleProof referenceExternals.sha256 zeroCids zeroComms [zeroPiece] zeroPiece proof =
      if zeroAt 21 ≠ proof.root then
        fail ("subtree root doesn't match partial tree leaf, " ++
          s!"{hex (zeroAt 21)} != {hex proof.root}")
      else .ok ⟨proof.leaf, proof.proof⟩ := by
  have leaves (root : SubPieceMeta → Node) :
      total ([zeroPiece].map (SubPieceMeta.block root)) = 2 ^ 21 := by
    simp [total, Block.width, zeroPiece_height]
  have height (root : SubPieceMeta → Node) :
      Nat.clog 2 (total ([zeroPiece].map (SubPieceMeta.block root))) = 21 := by
    rw [leaves, Nat.clog_pow 2 21 (by decide)]
  have zeros : ∀ height, 2 ≤ height → height < 21 → zeroComms.atLevel (height + 1) =
      .ok (zeroRoot (computeBinShaParent referenceExternals.sha256) zeroNode height) := by
    intro height low high
    rw [ZeroComm.atLevel, show zeroComms.skip = 2 from rfl, if_neg (by omega), readAt_eq_ok]
    simp only [zeroComms, getElem?_map, getElem?_range (by omega : height + 1 - 2 - 1 < 19),
      Option.map_some]
    rw [show height + 1 - 2 - 1 + 2 = height by omega]
    rfl
  have committed : ∀ subPiece ∈ [zeroPiece], subPieceCommitment zeroCids subPiece =
      .ok (zeroAt 21) := by
    intro subPiece _
    rfl
  have assembled := assembleProof_spec zeroPiece_ordered
    (zeroPiece_ordered.shape (fun _ => zeroAt 21) (by
      exact zeros))
    (mem_singleton.mpr rfl) (by rw [height]; decide) committed rfl proof
  rw [assembled, height, zeroPiece_height, siblings, append_nil]

theorem zeroPiece_fallback :
    ∃ proof, fullSubPieceProof referenceExternals zeroCids zeroReader zeroPiece (0 : Nat) =
        .ok proof ∧
      ValidProof mixHash (zeroAt 21) 21 0 proof := by
  have power := zeroPiece_ordered.powers zeroPiece (mem_singleton.mpr rfl)
  have sized : referenceExternals.padded (referenceExternals.paddedSize zeroFile.bytes.length) =
      zeroPiece.subPieceSize := by
    rw [zeroFile_length]
    rfl
  have full := fullSubPieceProof_complete referenceExternals_documented power
    (rfl : zeroCids.parse zeroPiece.subPiece = .ok "piece")
    (rfl : zeroReader "piece" = .ok zeroFile) rfl zeroFile_length.symm (by decide) sized
    (Nat.two_pow_pos _)
  obtain ⟨_, _, _, valid⟩ := fullSubPieceProof_spec referenceExternals_documented power
    (rfl : zeroCids.parse zeroPiece.subPiece = .ok "piece")
    (rfl : zeroReader "piece" = .ok zeroFile) rfl zeroFile_length.symm full
  rw [zeroPiece_height, zeroPiece_commitment] at valid full
  exact ⟨_, full, valid⟩

theorem provePiece_zero_piece :
    ∃ proof, provePiece referenceExternals zeroCids zeroComms none zeroReader [zeroPiece] 0 =
      .ok proof := by
  obtain ⟨proof, full, valid⟩ := zeroPiece_fallback
  have used : subPieceProof referenceExternals zeroCids none zeroReader zeroPiece (0 : Nat) =
      .ok proof := full
  have assembled := zeroPiece_roots proof
  rw [if_neg (not_not_intro valid.root_eq.symm)] at assembled
  refine ⟨⟨proof.leaf, proof.proof⟩, ?_⟩
  change (subPieceProof referenceExternals zeroCids none zeroReader zeroPiece (0 : Nat) >>= _) = _
  rw [used, ok_bind, assembled]
  exact if_pos valid.accepted

/-- A wrong row for the short file, and no rows for the zero piece. -/
theorem cached_proof_safe_wrong_row :
    Safe (ValidProof referenceExternals.sha256
          (pieceCommitment referenceExternals shortFile.bytes 2) 2 1)
        (generateCachedProof referenceExternals (fileReader shortFile) (layerCache 2 [zeroNode]) ()
          (1 : Nat)) ∧
      ∃ proof, provePiece referenceExternals zeroCids zeroComms (some (idxProofCache fun _ => []))
        zeroReader [zeroPiece] 0 = .ok proof := by
  obtain ⟨attempt, task⟩ := cached_proof_safe_iff referenceExternals_documented
  constructor
  · have outcome := attempt Unit (fileReader shortFile) (layerCache 2 [zeroNode]) () shortFile 2 1
      rfl (by decide) (by decide)
    rw [outcome]
    intro layerIdx found
    obtain rfl : (2 : Int) = layerIdx := Option.some.inj (Except.ok.inj found)
    refine ⟨by decide, ?_⟩
    intro sub layer consulted
    obtain ⟨params, file, computed, opened, proved⟩ := consulted.proved
    cases opened
    have ordinary := computeCacheProofParams_eq referenceExternals_documented (by decide : 0 ≤ 56)
      (by decide : 1 < 2 ^ (0 + 2)) (by decide : 0 * 2 ^ (0 + 2) + 1 < 2 ^ 58)
    cases ordinary.symm.trans computed
    have whole := sectionProof_eq referenceExternals_documented (by decide : 0 ≤ 23)
      (rfl : shortFile.reportedSize = _) rfl (by decide : 7 ≤ 7) (by decide)
      (by decide : 1 < 2 ^ (0 + 2)) (by decide : (0 + 1) * 2 ^ (0 + 2) ≤ 2 ^ (7 - 5))
    have root : zeroNode = sub.root := Option.some.inj (Except.ok.inj consulted.node)
    have differs : zeroNode ≠ node referenceExternals.parent
        (cell (pieceLeaves referenceExternals shortFile.bytes 7)) (0 + 2) 0 := by decide +kernel
    exact absurd (root.trans (congrArg RawMerkleProof.root
      (Except.ok.inj (proved.symm.trans whole)))) differs
  · refine task zeroCids zeroComms zeroReader _ [zeroPiece] 0 zeroPiece_ordered ?_ ?_
      provePiece_zero_piece
    · intro pieceCid file opened
      have same : zeroFile = file := Except.ok.inj opened
      rw [← same]
      exact ⟨rfl, zeroFile_length.symm⟩
    · intro chall spCidV1 spCidV2 file _ _ _ _ layerIdx found
      cases found

/-- Without the cache the zero piece is proved; with the one row in it, the cached proof ends below
the root of the piece, and the task fails instead of falling back. -/
theorem provePiece_partial_layer_fails :
    (∃ proof, generateCachedProof referenceExternals (cprPieceReader zeroCids zeroReader)
        partialCache "piece" (0 : Nat) = .ok (some proof) ∧
      verifyProof mixHash proof.leaf proof.proof
        (pieceCommitment referenceExternals zeroFile.bytes 21) 0 = false) ∧
    (∃ proof, provePiece referenceExternals zeroCids zeroComms none zeroReader [zeroPiece] 0 =
      .ok proof) ∧
    ∃ message, provePiece referenceExternals zeroCids zeroComms (some partialCache) zeroReader
      [zeroPiece] 0 = fail message := by
  obtain ⟨path, cached, climbed⟩ := partialCache_proof
  refine ⟨⟨_, cached, ?_⟩, provePiece_zero_piece, ?_⟩
  · rw [← Bool.not_eq_true, verifyProof_iff, zeroPiece_commitment]
    intro accepted
    exact zeroRoots_differ (climbed.symm.trans accepted)
  · have used : subPieceProof referenceExternals zeroCids (some partialCache) zeroReader zeroPiece
        (0 : Nat) = .ok ⟨zeroNode, path, zeroAt 17⟩ := by
      have attempt : cachedSubPieceProof referenceExternals zeroCids (some partialCache) zeroReader
          zeroPiece (0 : Nat) = _ := cached
      rw [subPieceProof, attempt]
    have assembled := zeroPiece_roots ⟨zeroNode, path, zeroAt 17⟩
    rw [if_pos zeroRoots_differ.symm] at assembled
    change ∃ message, (subPieceProof referenceExternals zeroCids (some partialCache) zeroReader
      zeroPiece (0 : Nat) >>= _) = fail message
    rw [used, ok_bind, assembled]
    exact ⟨_, rfl⟩

end Curio.Pdp
