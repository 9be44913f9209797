import Curio.Pdp.PartialTreeGrowth

/-! Completeness of the piece proof: for sub-pieces in the order they are added in, the partial
tree yields the siblings up to the piece root, behind any valid proof of a sub-piece. -/

namespace Curio.Pdp

open GoRuntime Curio.Proof BinaryMerkle BlockTree List

variable {subPieces : List SubPieceMeta} {start : Nat} {front back : List SubPieceMeta}
  {tree : PartialTree}

def Contiguous : Nat → List SubPieceMeta → Prop
  | _, [] => True
  | start, subPiece :: rest =>
    subPiece.subPieceOffset = start ∧ Contiguous (start + subPiece.subPieceSize) rest

def SubPieceMeta.HasPaddedSize (subPiece : SubPieceMeta) : Prop :=
  128 ≤ subPiece.subPieceSize ∧ ∃ k, subPiece.subPieceSize = 2 ^ k

structure WellOrdered (subPieces : List SubPieceMeta) : Prop where
  nonempty : subPieces ≠ []
  powers : ∀ subPiece ∈ subPieces, subPiece.HasPaddedSize
  order : subPieces.Pairwise (fun earlier later => later.subPieceSize ≤ earlier.subPieceSize)
  contiguous : Contiguous 0 subPieces

theorem two_pow_eq_leaves {k : Nat} (large : leafSize ≤ 2 ^ k) :
    2 ^ k = leafSize * 2 ^ (k - 5) := by
  have exponent : 5 ≤ k := (Nat.pow_le_pow_iff_right (by decide)).mp (show 2 ^ 5 ≤ 2 ^ k from large)
  rw [show leafSize = 2 ^ 5 by rfl, ← Nat.pow_add, Nat.add_sub_cancel' exponent]

namespace SubPieceMeta

def height (subPiece : SubPieceMeta) : Nat := Nat.log 2 (subPiece.subPieceSize / leafSize)

def position (subPiece : SubPieceMeta) : Nat := subPiece.subPieceOffset / leafSize

def block (root : SubPieceMeta → Node) (subPiece : SubPieceMeta) : Block Node :=
  ⟨subPiece.height, root subPiece⟩

@[simp] theorem block_height (root : SubPieceMeta → Node) (subPiece : SubPieceMeta) :
    (subPiece.block root).height = subPiece.height := rfl

variable {subPiece : SubPieceMeta} (power : subPiece.HasPaddedSize)
include power

theorem size_eq : subPiece.subPieceSize = leafSize * 2 ^ subPiece.height := by
  obtain ⟨large, k, size⟩ := power
  have split : 2 ^ k = leafSize * 2 ^ (k - 5) := by
    apply two_pow_eq_leaves
    simp only [leafSize, nodeSize]
    omega
  have leaves : subPiece.subPieceSize / leafSize = 2 ^ (k - 5) := by
    rw [size, split]
    exact Nat.mul_div_cancel_left _ (by decide)
  rw [height, leaves, Nat.log_pow (by decide), size, split]

theorem leaves_eq : subPiece.subPieceSize / leafSize = 2 ^ subPiece.height := by
  rw [size_eq power]
  exact Nat.mul_div_cancel_left _ (by decide)

theorem height_large : 2 ≤ subPiece.height := by
  have size := size_eq power
  by_contra small
  have bound : 2 ^ subPiece.height ≤ 2 ^ 1 := Nat.pow_le_pow_right (by decide) (by omega)
  have large := power.1
  simp only [leafSize, nodeSize] at size
  omega

theorem level_eq : subPiece.level = subPiece.height + 1 := by
  rw [level, leaves_eq power, nodeLevel_two_pow]

theorem elemIndex_eq :
    subPiece.elemIndex = ⟨subPiece.height + 1, subPiece.position / 2 ^ subPiece.height⟩ := by
  have below : subPiece.level ≠ 0 := by
    rw [level_eq power]
    exact Nat.succ_ne_zero _
  rw [elemIndex, elemOffset, if_neg below, level_eq power, Nat.add_sub_cancel,
    Nat.shiftRight_eq_div_pow]
  rfl

end SubPieceMeta

open SubPieceMeta (block size_eq level_eq elemIndex_eq height_large)

theorem place_blocks (root : SubPieceMeta → Node)
    (powers : ∀ subPiece ∈ subPieces, subPiece.HasPaddedSize)
    (contiguous : Contiguous (leafSize * start) subPieces) :
    place start (subPieces.map (block root)) =
      subPieces.map (fun subPiece => (subPiece.position, subPiece.block root)) := by
  induction subPieces generalizing start with
  | nil => rfl
  | cons subPiece rest ih =>
    obtain ⟨here, behind⟩ := contiguous
    have size := size_eq (powers subPiece mem_cons_self)
    rw [size, ← mul_add] at behind
    have position : subPiece.position = start := by
      rw [SubPieceMeta.position, here]
      exact Nat.mul_div_cancel_left start (by decide)
    simp only [map_cons, position]
    rw [← ih (forall_mem_cons.mp powers).2 behind]
    rfl

theorem contiguous_le (contiguous : Contiguous start subPieces) :
    ∀ subPiece ∈ subPieces, start ≤ subPiece.subPieceOffset := by
  induction subPieces generalizing start with
  | nil => exact fun _ absent => by cases absent
  | cons head rest ih => grind [Contiguous]

theorem contiguous_suffix (contiguous : Contiguous start (front ++ back)) :
    ∃ middle, Contiguous middle back := by
  induction front generalizing start with
  | nil => exact ⟨start, contiguous⟩
  | cons head rest ih => exact ih contiguous.2

section

variable (powers : ∀ subPiece ∈ subPieces, subPiece.HasPaddedSize)
  (contiguous : Contiguous start subPieces)
include powers contiguous

theorem contiguous_aligned (aligned : leafSize ∣ start) :
    ∀ subPiece ∈ subPieces, leafSize ∣ subPiece.subPieceOffset := by
  induction subPieces generalizing start with
  | nil => exact fun _ absent => by cases absent
  | cons head rest ih =>
    have whole : leafSize ∣ head.subPieceSize :=
      ⟨_, size_eq (powers head mem_cons_self)⟩
    intro subPiece member
    rcases mem_cons.mp member with rfl | later
    · rw [contiguous.1]
      exact aligned
    · exact ih (forall_mem_cons.mp powers).2 contiguous.2
        (dvd_add aligned whole) subPiece later

theorem positions_increase :
    subPieces.Pairwise (fun earlier later => earlier.position < later.position) := by
  induction subPieces generalizing start with
  | nil => exact Pairwise.nil
  | cons head rest ih =>
    refine Pairwise.cons ?_
      (ih (forall_mem_cons.mp powers).2 contiguous.2)
    intro later member
    have behind := contiguous_le contiguous.2 later member
    have here := contiguous.1
    have large := (powers head mem_cons_self).1
    simp only [SubPieceMeta.position, leafSize, nodeSize]
    omega

end

theorem sizes_sum (root : SubPieceMeta → Node)
    (powers : ∀ subPiece ∈ subPieces, subPiece.HasPaddedSize) :
    (subPieces.map SubPieceMeta.subPieceSize).sum =
      leafSize * total (subPieces.map (block root)) := by
  induction subPieces with
  | nil => rfl
  | cons subPiece rest ih =>
    have size := size_eq (powers subPiece mem_cons_self)
    rw [map_cons, sum_cons, map_cons, total_cons, mul_add, size,
      ih (forall_mem_cons.mp powers).2]
    rfl

namespace WellOrdered

variable {subPieces : List SubPieceMeta} (ordered : WellOrdered subPieces)
  (root : SubPieceMeta → Node)
include ordered

theorem placed : place 0 (subPieces.map (block root)) =
    subPieces.map (fun subPiece => (subPiece.position, subPiece.block root)) :=
  place_blocks root ordered.powers ordered.contiguous

variable {subPiece : SubPieceMeta}

theorem mem_placed (member : subPiece ∈ subPieces) :
    (subPiece.position, subPiece.block root) ∈ place 0 (subPieces.map (block root)) := by
  rw [ordered.placed root]
  exact mem_map_of_mem member

theorem offset_eq (member : subPiece ∈ subPieces) :
    subPiece.subPieceOffset = leafSize * subPiece.position := by
  have aligned := contiguous_aligned ordered.powers ordered.contiguous (dvd_zero _) subPiece member
  exact (Nat.mul_div_cancel' aligned).symm

theorem descending : Descending (subPieces.map (block root)) := by
  rw [Descending, pairwise_map]
  refine ordered.order.imp ?_
  intro earlier later smaller
  have leaves : later.subPieceSize / leafSize ≤ earlier.subPieceSize / leafSize :=
    Nat.div_le_div_right smaller
  exact Nat.log_mono_right (b := 2) leaves

theorem heights : ∀ block ∈ subPieces.map (SubPieceMeta.block root), 2 ≤ block.height := by
  intro block member
  obtain ⟨subPiece, inside, rfl⟩ := mem_map.mp member
  exact height_large (ordered.powers subPiece inside)

theorem total_pos : 0 < total (subPieces.map (block root)) := by
  obtain ⟨subPiece, member⟩ := exists_mem_of_ne_nil subPieces ordered.nonempty
  exact Nat.lt_of_le_of_lt (Nat.zero_le _) (position_lt (ordered.mem_placed root member))

/-- The last sub-piece starts at an `int64` offset, and that offset is a multiple of its size. -/
theorem total_le : total (subPieces.map (block root)) ≤ 2 ^ 58 := by
  have positive := ordered.total_pos root
  obtain ⟨entry, inside, low, high⟩ := place_cover (Nat.zero_le _)
    (by omega : total (subPieces.map (block root)) - 1 < 0 + total (subPieces.map (block root)))
  have aligned := aligned_from_zero (ordered.descending root) inside
  rw [ordered.placed root] at inside
  obtain ⟨last, member, rfl⟩ := mem_map.mp inside
  have start : last.position < 2 ^ 58 := by
    have fits := last.offsetFits
    simp only [SubPieceMeta.position, leafSize, nodeSize]
    omega
  have small : last.height ≤ 58 := by
    have size := size_eq (ordered.powers last member)
    have fits := last.sizeFits
    simp only [leafSize, nodeSize] at size
    exact le_of_lt ((Nat.pow_lt_pow_iff_right (by decide)).mp (by omega : 2 ^ last.height < 2 ^ 58))
  have room : 2 ^ last.height ≤ 2 ^ 58 - last.position :=
    Nat.le_of_dvd (Nat.sub_pos_of_lt start) (Nat.dvd_sub (pow_dvd_pow 2 small) aligned)
  simp only [Block.width, SubPieceMeta.block] at high
  omega

theorem shape {sha256 : Bytes → Node} {zerocomm : ZeroComm}
    (zeros : ∀ height, 2 ≤ height →
      height < Nat.clog 2 (total (subPieces.map (block root))) →
      zerocomm.atLevel (height + 1) = .ok (pieceZero sha256 height)) :
    PieceShape sha256 zerocomm (subPieces.map (block root))
      (Nat.clog 2 (total (subPieces.map (block root)))) where
  descending := ordered.descending root
  large := ordered.heights root
  fits := Nat.le_pow_clog (by decide) _
  least := fun _ fits => (Nat.clog_le_iff_le_pow (by decide)).mpr fits
  zeros := zeros

end WellOrdered

theorem nextPowerOfTwo_leaves {leaves : Nat} (positive : 0 < leaves) (small : leaves ≤ 2 ^ 58) :
    nextPowerOfTwo (leafSize * leaves) = leafSize * 2 ^ Nat.clog 2 leaves := by
  have before : (leafSize * leaves + 2 ^ 64 - 1) % 2 ^ 64 = leafSize * leaves - 1 := by
    simp only [leafSize, nodeSize]
    omega
  have bits : (leafSize * leaves - 1).size = 5 + Nat.clog 2 leaves := by
    apply le_antisymm
    · have bound := Nat.le_pow_clog (by decide : 1 < 2) leaves
      rw [Nat.size_le, Nat.pow_add]
      simp only [leafSize, nodeSize]
      omega
    · have reach := Nat.lt_size_self (leafSize * leaves - 1)
      generalize (leafSize * leaves - 1).size = bits at reach
      have whole : leafSize * leaves ≤ 2 ^ bits := by omega
      have large : leafSize ≤ 2 ^ bits := le_trans (Nat.le_mul_of_pos_right _ positive) whole
      have exponent : 5 ≤ bits :=
        (Nat.pow_le_pow_iff_right (by decide)).mp (show 2 ^ 5 ≤ 2 ^ bits from large)
      rw [two_pow_eq_leaves large] at whole
      have height : Nat.clog 2 leaves ≤ bits - 5 :=
        (Nat.clog_le_iff_le_pow (by decide)).mpr (le_of_mul_le_mul_left whole (by decide))
      omega
  have exponent : Nat.clog 2 leaves ≤ 58 := (Nat.clog_le_iff_le_pow (by decide)).mpr small
  rw [nextPowerOfTwo, before, bits, Nat.shiftLeft_eq, one_mul, Nat.pow_add, Nat.mod_eq_of_lt]
  · rfl
  · rw [← Nat.pow_add]
    exact Nat.pow_lt_pow_right (by decide) (by omega)

section Assembly

variable {sha256 : Bytes → Node} {cids : CidCodec} {zerocomm : ZeroComm}
  {subPieces : List SubPieceMeta} (ordered : WellOrdered subPieces) {root : SubPieceMeta → Node}

/-- What the tree builder needs of every sub-piece that is already in the tree. -/
def Prefilled (subPieces : List SubPieceMeta) (tree : PartialTree) : Prop :=
  ∀ subPiece ∈ subPieces, (tree subPiece.elemIndex).isSome

include ordered

variable {tree : PartialTree}

section

variable (committed : ∀ subPiece ∈ subPieces, subPieceCommitment cids subPiece = .ok (root subPiece))
include committed

theorem prefill_some {rest : List SubPieceMeta} (size : Nat)
    (inside : ∀ subPiece ∈ rest, subPiece ∈ subPieces)
    (agrees : Agrees sha256 (subPieces.map (block root)) tree) :
    ∃ filled, rest.foldlM (prefillStep cids) (tree, size % 2 ^ 64) =
        .ok (filled, (size + (rest.map SubPieceMeta.subPieceSize).sum) % 2 ^ 64) ∧
      Agrees sha256 (subPieces.map (block root)) filled ∧ Extends tree filled ∧
      Prefilled rest filled := by
  induction rest generalizing tree size with
  | nil => exact ⟨tree, rfl, agrees, Extends.refl tree, fun _ absent => by cases absent⟩
  | cons subPiece rest ih =>
    have member := inside subPiece mem_cons_self
    have placed := ordered.mem_placed root member
    have power := ordered.powers subPiece member
    have aligned := aligned_from_zero (ordered.descending root) placed
    have agreesNext : Agrees sha256 (subPieces.map (block root))
        (tree.set subPiece.elemIndex ⟨subPiece.level, root subPiece⟩) := by
      rw [elemIndex_eq power, level_eq power]
      refine agrees.set (value_block (ordered.descending root) _ _ placed).symm (Or.inl ?_)
      simp only [SubPieceMeta.block] at aligned
      rw [Nat.div_mul_cancel aligned]
      exact position_lt placed
    obtain ⟨filled, returned, filledAgrees, extended, present⟩ :=
      ih (size + subPiece.subPieceSize) (forall_mem_cons.mp inside).2 agreesNext
    refine ⟨filled, ?_, filledAgrees, (Extends.set tree _ _).trans extended, ?_⟩
    · grind [ok_bind, prefillStep]
    · intro other among
      rcases mem_cons.mp among with rfl | later
      · apply extended
        rw [PartialTree.set_same]
        rfl
      · exact present other later

variable (sha256) in
theorem prefill_spec :
    ∃ tree, prefill cids subPieces = .ok (tree, leafSize * total (subPieces.map (block root))) ∧
      Agrees sha256 (subPieces.map (block root)) tree ∧ Prefilled subPieces tree := by
  have emptyAgrees : Agrees sha256 (subPieces.map (block root)) PartialTree.empty := by
    constructor
    · intro index elem found
      cases found
    · intro height offset present
      cases present
  obtain ⟨tree, returned, agrees, _, present⟩ :=
    prefill_some ordered committed 0 (fun _ member => member) emptyAgrees
  refine ⟨tree, ?_, agrees, present⟩
  have bound := ordered.total_le root
  have fits : leafSize * total (subPieces.map (block root)) < 2 ^ 64 := by
    simp only [leafSize, nodeSize]
    omega
  rw [← Nat.mod_eq_of_lt fits, ← sizes_sum root ordered.powers,
    ← zero_add (subPieces.map SubPieceMeta.subPieceSize).sum]
  exact returned

end

omit ordered in
/-- The branch of a sub-piece is in the tree; that of the first one reaches the root. -/
structure Branch (rootHeight : Nat) (tree : PartialTree) (subPiece : SubPieceMeta) : Prop where
  inner : 0 < subPiece.position → Grown tree subPiece.position subPiece.height
  edge : subPiece.position = 0 → ∀ height, subPiece.height ≤ height → height ≤ rootHeight →
    (tree ⟨height + 1, 0⟩).isSome ∧ (height < rootHeight → (tree ⟨height + 1, 1⟩).isSome)

variable {subPiece : SubPieceMeta}

omit ordered in
theorem Branch.extend {rootHeight : Nat} {grown : PartialTree}
    (branch : Branch rootHeight tree subPiece) (extended : Extends tree grown) :
    Branch rootHeight grown subPiece where
  inner := fun later => (branch.inner later).extend extended
  edge := by
    intro start height above below
    obtain ⟨element, sibling⟩ := branch.edge start height above below
    exact ⟨extended _ element, fun strictly => extended _ (sibling strictly)⟩

variable {rootHeight : Nat}
  (shape : PieceShape sha256 zerocomm (subPieces.map (block root)) rootHeight)
  (bounded : rootHeight ≤ 58)
  (agrees : Agrees sha256 (subPieces.map (block root)) tree) (prefilled : Prefilled subPieces tree)
include shape bounded agrees prefilled

theorem growSubPiece_spec {i : Nat} (member : subPiece ∈ subPieces)
    (numbered : i = 0 ↔ subPiece.position = 0)
    (done : ∀ later ∈ subPieces, subPiece.position < later.position →
      Branch rootHeight tree later) :
    ∃ grown, growSubPiece sha256 zerocomm tree (subPiece, i) = .ok grown ∧
      Agrees sha256 (subPieces.map (block root)) grown ∧ Extends tree grown ∧
      Branch rootHeight grown subPiece := by
  have power := ordered.powers subPiece member
  have placed := ordered.mem_placed root member
  have index := elemIndex_eq power
  obtain ⟨curElem, found⟩ := Option.isSome_iff_exists.mp (prefilled subPiece member)
  have aligned : 2 ^ subPiece.height ∣ subPiece.position :=
    aligned_from_zero (ordered.descending root) placed
  have behind : ∀ entry ∈ place 0 (subPieces.map (block root)),
      subPiece.position < entry.1 → Grown tree entry.1 entry.2.height := by
    intro entry among beyond
    rw [ordered.placed root] at among
    obtain ⟨later, inside, rfl⟩ := mem_map.mp among
    exact (done later inside beyond).inner (Nat.zero_lt_of_lt beyond)
  have current : tree.get subPiece.elemIndex = curElem := by
    rw [PartialTree.get, found]
    rfl
  have offset : subPiece.elemOffset = subPiece.position / 2 ^ subPiece.height :=
    congrArg ElemIndex.elemOffset index
  have enough : rootHeight < subPiece.height + branchFuel := by
    simp only [branchFuel]
    omega
  rw [index] at found
  rw [growSubPiece, current, level_eq power, offset]
  by_cases first : subPiece.position = 0
  · have inside := height_le_root shape placed
    rw [first, Nat.zero_div] at found
    rw [first] at placed behind
    obtain ⟨grown, returned, grownAgrees, extended, spine⟩ :=
      growBranch_first shape agrees placed behind (le_refl _) inside found enough
    refine ⟨grown, ?_, grownAgrees, extended, fun later => by omega, fun _ => spine⟩
    simpa [numbered.mpr first, first] using returned
  · have later : 0 < subPiece.position := pos_of_ne_zero first
    obtain ⟨grown, returned, grownAgrees, extended, branch⟩ :=
      growBranch_later shape agrees placed later behind (le_refl _) aligned found enough
    refine ⟨grown, ?_, grownAgrees, extended, fun _ => branch, fun start => absurd start first⟩
    have notFirst : (i == 0) = false := by
      grind
    simpa [notFirst] using returned

/-- Growing from the right: the branches of `back` are in the tree, those of `front` follow. -/
theorem growTree_front (split : subPieces = front ++ back)
    (done : ∀ subPiece ∈ back, Branch rootHeight tree subPiece) :
    ∃ grown, front.zipIdx.reverse.foldlM (growSubPiece sha256 zerocomm) tree = .ok grown ∧
      Agrees sha256 (subPieces.map (block root)) grown ∧ Extends tree grown ∧
      ∀ subPiece ∈ subPieces, Branch rootHeight grown subPiece := by
  induction front using reverseRecOn generalizing back tree with
  | nil =>
    exact ⟨tree, rfl, agrees, Extends.refl tree, split ▸ done⟩
  | append_singleton front subPiece ih =>
    have increase := positions_increase ordered.powers ordered.contiguous
    rw [split, append_assoc] at increase
    obtain ⟨_, tailIncrease, frontBefore⟩ := pairwise_append.mp increase
    have member : subPiece ∈ subPieces := by simp [split]
    have numbered : front.length = 0 ↔ subPiece.position = 0 := by
      constructor
      · intro none
        have start := ordered.contiguous
        rw [split, length_eq_zero_iff.mp none] at start
        simp [SubPieceMeta.position, start.1]
      · intro start
        cases front with
        | nil => rfl
        | cons head rest => grind
    have behind : ∀ later ∈ subPieces, subPiece.position < later.position →
        Branch rootHeight tree later := by
      intro later inside beyond
      rw [split, mem_append] at inside
      rcases inside with before | after
      · grind
      · grind
    obtain ⟨grown, returned, grownAgrees, extended, branch⟩ :=
      growSubPiece_spec ordered shape bounded agrees prefilled member numbered behind
    have shorter : subPieces = front ++ subPiece :: back := by
      rw [split, append_assoc]
      rfl
    have doneNext : ∀ other ∈ subPiece :: back, Branch rootHeight grown other := by
      intro other among
      rcases mem_cons.mp among with rfl | later
      · exact branch
      · exact (done other later).extend extended
    obtain ⟨final, rest, finalAgrees, further, all⟩ := ih grownAgrees
      (fun other inside => extended _ (prefilled other inside)) shorter doneNext
    refine ⟨final, ?_, finalAgrees, extended.trans further, all⟩
    rw [zipIdx_append]
    simpa [returned] using rest

end Assembly

section Path

variable {sha256 : Bytes → Node} {zerocomm : ZeroComm} {subPieces : List SubPieceMeta}
  (ordered : WellOrdered subPieces) {root : SubPieceMeta → Node} {rootHeight : Nat}
  (shape : PieceShape sha256 zerocomm (subPieces.map (block root)) rootHeight)
  {chall : SubPieceMeta} (member : chall ∈ subPieces)
include ordered shape member

variable {height : Nat}

section

variable (above : chall.height ≤ height)
include above

/-- The parent of any node above the challenged sub-piece starts with a sub-piece. -/
theorem path_start :
    ∃ first ∈ subPieces,
      first.position = chall.position / 2 ^ (height + 1) * 2 ^ (height + 1) ∧
        first.height ≤ height := by
  have placed := ordered.mem_placed root member
  have aligned : 2 ^ height ∣ chall.position / 2 ^ (height + 1) * 2 ^ (height + 1) :=
    Dvd.dvd.mul_left (pow_dvd_pow 2 (Nat.le_succ height)) _
  have below := Nat.div_mul_le_self chall.position (2 ^ (height + 1))
  obtain ⟨other, otherPlaced, small⟩ := same_parent_start shape.descending placed above aligned
    (Nat.lt_of_le_of_lt below (position_lt placed))
    (Nat.mul_div_cancel _ (Nat.two_pow_pos (height + 1)))
  rw [ordered.placed root] at otherPlaced
  obtain ⟨first, inside, same⟩ := mem_map.mp otherPlaced
  have kept : first.block root = other := congrArg Prod.snd same
  rw [← kept] at small
  exact ⟨first, inside, congrArg Prod.fst same, small⟩

theorem path_parent :
    pieceNode sha256 (subPieces.map (block root)) (height + 1)
        (chall.position / 2 ^ (height + 1)) =
      computeBinShaParent sha256
        (pieceNode sha256 (subPieces.map (block root)) height
          (2 * (chall.position / 2 ^ (height + 1))))
        (pieceNode sha256 (subPieces.map (block root)) height
          (2 * (chall.position / 2 ^ (height + 1)) + 1)) := by
  obtain ⟨first, inside, start, small⟩ := path_start ordered shape member above
  have placed := ordered.mem_placed root inside
  rw [start] at placed
  exact value_parent (computeBinShaParent sha256) zeroNode placed small

theorem path_present (below : height < rootHeight)
    (branches : ∀ subPiece ∈ subPieces, Branch rootHeight tree subPiece) :
    (tree ⟨height + 1, 2 * (chall.position / 2 ^ (height + 1))⟩).isSome ∧
      (tree ⟨height + 1, 2 * (chall.position / 2 ^ (height + 1)) + 1⟩).isSome := by
  obtain ⟨first, inside, start, small⟩ := path_start ordered shape member above
  generalize chall.position / 2 ^ (height + 1) = slot at start
  have doubled : first.position = 2 ^ height * (2 * slot) := by
    rw [start]
    ring
  have branch := branches first inside
  cases slot with
  | zero =>
    obtain ⟨left, right⟩ := branch.edge (by rw [start, Nat.zero_mul]) height small (le_of_lt below)
    exact ⟨left, right below⟩
  | succ slot =>
    have later : 0 < first.position := by
      grind
    have offset : first.position / 2 ^ height = 2 * (slot + 1) := by
      rw [doubled]
      exact Nat.mul_div_cancel_left _ (Nat.two_pow_pos height)
    obtain ⟨left, right⟩ := branch.inner later height small ⟨_, doubled⟩
    grind

end

theorem extractPath_spec {count : Nat} (agrees : Agrees sha256 (subPieces.map (block root)) tree)
    (branches : ∀ subPiece ∈ subPieces, Branch rootHeight tree subPiece)
    (above : chall.height ≤ height) (reaches : height + count = rootHeight) :
    extractPath tree count (height + 1) (chall.position / 2 ^ height) =
      .ok (siblings (pieceNode sha256 (subPieces.map (block root))) height
        (chall.position / 2 ^ height) count) := by
  induction count generalizing height with
  | zero => rfl
  | succ count ih =>
    have halved : chall.position / 2 ^ height / 2 = chall.position / 2 ^ (height + 1) := by
      rw [Nat.div_div_eq_div_mul, pow_succ]
    obtain ⟨left, right⟩ := path_present ordered shape member above (by omega) branches
    have both : (tree ⟨height + 1, chall.position / 2 ^ height⟩).isSome ∧
        (tree ⟨height + 1, (chall.position / 2 ^ height) ^^^ 1⟩).isSome := by
      rcases Nat.mod_two_eq_zero_or_one (chall.position / 2 ^ height) with even | odd
      · rw [xor_one_even even]
        grind
      · rw [xor_one_odd odd]
        grind
    obtain ⟨⟨element, elementFound⟩, ⟨sibling, siblingFound⟩⟩ :=
      And.imp Option.isSome_iff_exists.mp Option.isSome_iff_exists.mp both
    rw [extractPath, siblingFound, elementFound]
    simp only
    rw [halved, ih (Nat.le_succ_of_le above) (by omega), siblings, halved,
      agrees.at_height siblingFound]
    rfl

theorem climb_path :
    climb (computeBinShaParent sha256) (chall.position / 2 ^ chall.height) (root chall)
        (siblings (pieceNode sha256 (subPieces.map (block root))) chall.height
          (chall.position / 2 ^ chall.height) (rootHeight - chall.height)) =
      rootOver (computeBinShaParent sha256) zeroNode rootHeight (subPieces.map (block root)) := by
  have placed := ordered.mem_placed root member
  have inside : chall.height ≤ rootHeight := height_le_root shape placed
  have own : pieceNode sha256 (subPieces.map (block root)) chall.height
      (chall.position / 2 ^ chall.height) = root chall :=
    value_block shape.descending (computeBinShaParent sha256) zeroNode placed
  have climbed := climb_siblings (computeBinShaParent sha256)
    (pieceNode sha256 (subPieces.map (block root))) chall.height
    (chall.position / 2 ^ chall.height) (rootHeight - chall.height) (by
      intro step _
      rw [Nat.div_div_eq_div_mul, ← Nat.pow_add]
      exact path_parent ordered shape member (Nat.le_add_right _ _))
  have small : ∀ part ∈ subPieces.map (block root), part.height ≤ rootHeight := by
    intro part among
    obtain ⟨subPiece, inside, rfl⟩ := mem_map.mp among
    exact height_le_root shape (ordered.mem_placed root inside)
  rw [rootOver_eq_value shape.descending _ _ rootHeight small]
  rw [own, Nat.div_div_eq_div_mul, ← Nat.pow_add,
    Nat.add_sub_cancel' inside] at climbed
  rw [climbed, Nat.div_eq_of_lt (lt_of_lt_of_le (position_lt placed) shape.fits)]
  rfl

variable {cids : CidCodec} (bounded : rootHeight ≤ 58)
  (committed : ∀ subPiece ∈ subPieces, subPieceCommitment cids subPiece = .ok (root subPiece))
include bounded committed

/-- The tree is built without an error, has the sub-piece root at its place and yields the
siblings above it. -/
theorem builtTree_spec :
    ∃ prefilled tree, prefill cids subPieces =
        .ok (prefilled, leafSize * total (subPieces.map (block root))) ∧
      growTree sha256 zerocomm subPieces prefilled = .ok tree ∧
      (tree.get chall.elemIndex).hash = root chall ∧
      extractPath tree (rootHeight - chall.height) (chall.height + 1)
          (chall.position / 2 ^ chall.height) =
        .ok (siblings (pieceNode sha256 (subPieces.map (block root))) chall.height
          (chall.position / 2 ^ chall.height) (rootHeight - chall.height)) := by
  have placed := ordered.mem_placed root member
  have inside : chall.height ≤ rootHeight := height_le_root shape placed
  obtain ⟨prefilled, filled, filledAgrees, present⟩ := prefill_spec sha256 ordered committed
  obtain ⟨tree, grown, agrees, extended, branches⟩ :=
    growTree_front ordered shape bounded filledAgrees present (append_nil subPieces).symm
      (fun _ absent => by cases absent)
  refine ⟨prefilled, tree, filled, grown, ?_, ?_⟩
  · obtain ⟨elem, found⟩ := Option.isSome_iff_exists.mp (extended _ (present chall member))
    rw [PartialTree.get, found, Option.getD_some]
    rw [elemIndex_eq (ordered.powers chall member)] at found
    rw [agrees.at_height found]
    exact value_block shape.descending (computeBinShaParent sha256) zeroNode placed
  · exact extractPath_spec ordered shape member agrees branches (le_refl _)
      (Nat.add_sub_cancel' inside)

/-- The assembled proof is the sub-piece proof with the siblings of the piece tree behind it,
unless the sub-piece proof has another root. -/
theorem assembleProof_spec (least : rootHeight = Nat.clog 2 (total (subPieces.map (block root))))
    (subPieceProof : RawMerkleProof) :
    assembleProof sha256 cids zerocomm subPieces chall subPieceProof =
      if root chall ≠ subPieceProof.root then
        fail ("subtree root doesn't match partial tree leaf, " ++
          s!"{hex (root chall)} != {hex subPieceProof.root}")
      else
        .ok ⟨subPieceProof.leaf, subPieceProof.proof ++
          siblings (pieceNode sha256 (subPieces.map (block root))) chall.height
            (chall.position / 2 ^ chall.height) (rootHeight - chall.height)⟩ := by
  have power := ordered.powers chall member
  have offset : chall.elemOffset = chall.position / 2 ^ chall.height :=
    congrArg ElemIndex.elemOffset (elemIndex_eq power)
  have rootLevel : nodeLevel (nextPowerOfTwo
      (leafSize * total (subPieces.map (block root))) / leafSize) binary = rootHeight + 1 := by
    rw [nextPowerOfTwo_leaves (ordered.total_pos root) (ordered.total_le root),
      Nat.mul_div_cancel_left _ (by decide), nodeLevel_two_pow, least]
  obtain ⟨prefilled, tree, filled, grown, own, path⟩ :=
    builtTree_spec ordered shape member bounded committed
  rw [assembleProof, filled]
  simp only [ok_bind]
  rw [rootLevel, grown]
  simp only [ok_bind]
  rw [own, level_eq power, offset, Nat.add_sub_add_right, path]
  rfl

end Path

theorem findChallenged_eq (ordered : WellOrdered subPieces) {chall : SubPieceMeta}
    (member : chall ∈ subPieces) {challengedLeaf : Nat}
    (low : chall.subPieceOffset ≤ challengedLeaf * leafSize)
    (high : challengedLeaf * leafSize < chall.subPieceOffset + chall.subPieceSize) :
    findChallenged subPieces challengedLeaf = some chall := by
  obtain ⟨front, back, split⟩ := append_of_mem member
  have behind : ∀ later ∈ back, ¬ later.subPieceOffset ≤ challengedLeaf * leafSize := by
    intro later among
    obtain ⟨middle, here, rest⟩ := contiguous_suffix (split ▸ ordered.contiguous)
    have bound := contiguous_le rest later among
    omega
  rw [findChallenged, split, reverse_append, reverse_cons, append_assoc,
    find?_append, find?_eq_none.mpr]
  · simp [low]
  · grind

theorem assembleProof_complete (sha256 : Bytes → Node) (cids : CidCodec)
    (zerocomm : ZeroComm) {subPieces : List SubPieceMeta} (ordered : WellOrdered subPieces)
    (root : SubPieceMeta → Node)
    (committed : ∀ subPiece ∈ subPieces, subPieceCommitment cids subPiece = .ok (root subPiece))
    (zeros : ∀ height, 2 ≤ height →
      height < Nat.clog 2 (total (subPieces.map (SubPieceMeta.block root))) →
      zerocomm.atLevel (height + 1) = .ok (zeroRoot (computeBinShaParent sha256) zeroNode height))
    {chall : SubPieceMeta} (member : chall ∈ subPieces) {challengedLeaf : Nat}
    (low : chall.subPieceOffset ≤ challengedLeaf * leafSize)
    (high : challengedLeaf * leafSize < chall.subPieceOffset + chall.subPieceSize)
    {subPieceProof : RawMerkleProof}
    (valid : ValidProof sha256 (root chall) chall.height
      (challengedLeaf - chall.subPieceOffset / leafSize) subPieceProof) :
    findChallenged subPieces challengedLeaf = some chall ∧
      ∃ path, assembleProof sha256 cids zerocomm subPieces chall subPieceProof =
          .ok ⟨subPieceProof.leaf, subPieceProof.proof ++ path⟩ ∧
        verifyProof sha256 subPieceProof.leaf (subPieceProof.proof ++ path)
          (rootOver (computeBinShaParent sha256) zeroNode
            (Nat.clog 2 (total (subPieces.map (SubPieceMeta.block root))))
            (subPieces.map (SubPieceMeta.block root)))
          challengedLeaf = true := by
  have bounded : Nat.clog 2 (total (subPieces.map (SubPieceMeta.block root))) ≤ 58 :=
    (Nat.clog_le_iff_le_pow (by decide)).mpr (ordered.total_le root)
  have shape := ordered.shape root zeros
  have assembled := assembleProof_spec ordered shape member bounded committed rfl subPieceProof
  rw [if_neg (not_not_intro valid.root_eq.symm)] at assembled
  refine ⟨findChallenged_eq ordered member low high, _, assembled, ?_⟩
  rw [verifyProof_iff, climb_append, valid.depth]
  have size := SubPieceMeta.size_eq (ordered.powers chall member)
  have aligned : 2 ^ chall.height ∣ chall.position :=
    aligned_from_zero shape.descending (ordered.mem_placed root member)
  -- Split the leaf number into where the sub-piece starts and the leaf inside it.
  have start := ordered.offset_eq member
  simp only [leafSize, nodeSize] at size start low high
  obtain ⟨subLeaf, rfl⟩ := Nat.exists_eq_add_of_le (by omega : chall.position ≤ challengedLeaf)
  have within : subLeaf < 2 ^ chall.height := by omega
  have accepted := (verifyProof_iff ..).mp valid.accepted
  rw [← SubPieceMeta.position, Nat.add_sub_cancel_left] at accepted
  have same : (chall.position + subLeaf) % 2 ^ subPieceProof.proof.length =
      subLeaf % 2 ^ subPieceProof.proof.length := by
    obtain ⟨slot, position⟩ := aligned
    rw [valid.depth, position, Nat.mul_add_mod]
  have slot : (chall.position + subLeaf) / 2 ^ chall.height =
      chall.position / 2 ^ chall.height := by
    rw [Nat.add_div_of_dvd_right aligned, Nat.div_eq_of_lt within, add_zero]
  rw [climb_position_congr (computeBinShaParent sha256) _ _ _ _ same, accepted, slot]
  exact climb_path ordered shape member

def mixCids : CidCodec where
  Cid := String
  parse := fun text => .ok text
  cidToPieceCommitmentV1 := fun cid =>
    .ok (if cid = "small" then climb (computeBinShaParent mixHash) 1 zeroNode [zeroNode, zeroNode]
      else zeroNode)
  pieceCidV2FromV1 := fun cid _ => .ok cid
  pieceCidV1FromV2 := fun cid => .ok (cid, 0)

def mixZeros : ZeroComm where
  skip := 2
  pieceComms := [zeroRoot (computeBinShaParent mixHash) zeroNode 2,
    zeroRoot (computeBinShaParent mixHash) zeroNode 3]

theorem first_offset_fits : 0 < 2 ^ 63 := by decide

def largePiece : SubPieceMeta :=
  ⟨1, 0, "piece", "large", 0, 256, false, 254, first_offset_fits, by decide⟩

def smallPiece : SubPieceMeta :=
  ⟨2, 0, "piece", "small", 256, 128, false, 127, by decide, by decide⟩

def mixRoot (subPiece : SubPieceMeta) : Node :=
  if subPiece.subPiece = "small" then
    climb (computeBinShaParent mixHash) 1 zeroNode [zeroNode, zeroNode]
  else zeroNode

theorem two_pieces_ordered : WellOrdered [largePiece, smallPiece] where
  nonempty := by simp
  powers := by
    intro subPiece member
    simp only [mem_cons, not_mem_nil, or_false] at member
    rcases member with rfl | rfl
    · exact ⟨by decide, 8, by decide⟩
    · exact ⟨by decide, 7, by decide⟩
  order := by simp [largePiece, smallPiece]
  contiguous := ⟨rfl, rfl, trivial⟩

/-- Leaf one of the second of two sub-pieces, in a piece padded to sixteen leaves. -/
theorem assembleProof_complete_two_pieces :
    ∃ path, assembleProof mixHash mixCids mixZeros [largePiece, smallPiece] smallPiece
        ⟨zeroNode, [zeroNode, zeroNode], mixRoot smallPiece⟩ =
          .ok ⟨zeroNode, [zeroNode, zeroNode] ++ path⟩ ∧
      verifyProof mixHash zeroNode ([zeroNode, zeroNode] ++ path)
        (rootOver (computeBinShaParent mixHash) zeroNode
          (Nat.clog 2 (total ([largePiece, smallPiece].map (SubPieceMeta.block mixRoot))))
          ([largePiece, smallPiece].map (SubPieceMeta.block mixRoot))) 9 = true := by
  have committed : ∀ subPiece ∈ [largePiece, smallPiece],
      subPieceCommitment mixCids subPiece = .ok (mixRoot subPiece) := by
    intro subPiece _
    rfl
  have zeros : ∀ height, 2 ≤ height →
      height < Nat.clog 2 (total ([largePiece, smallPiece].map (SubPieceMeta.block mixRoot))) →
      mixZeros.atLevel (height + 1) =
        .ok (zeroRoot (computeBinShaParent mixHash) zeroNode height) := by
    intro height low high
    rw [Nat.lt_clog_iff_pow_lt (by decide)] at high
    have small : height < 4 := (Nat.pow_lt_pow_iff_right (by decide)).mp
      (lt_of_lt_of_le high (by decide : 12 ≤ 2 ^ 4))
    have cases : height = 2 ∨ height = 3 := by omega
    rcases cases with rfl | rfl
    · rfl
    · rfl
  have valid : ValidProof mixHash (mixRoot smallPiece) smallPiece.height
      (9 - smallPiece.subPieceOffset / leafSize)
      ⟨zeroNode, [zeroNode, zeroNode], mixRoot smallPiece⟩ :=
    ⟨rfl, by decide, (verifyProof_iff ..).mpr rfl⟩
  exact (assembleProof_complete mixHash mixCids mixZeros two_pieces_ordered mixRoot committed
    zeros (mem_cons_of_mem _ mem_cons_self) (by decide) (by decide) valid).2

end Curio.Pdp
