import Curio.Pdp.PartialTree

/-! The partial tree holds what a path needs: every branch the task grows carries the values of
the padded piece tree, and together the branches hold each node and sibling above a sub-piece. -/

namespace Curio.Pdp

open GoRuntime Curio.Proof BinaryMerkle BlockTree

variable (sha256 : Bytes → Node) (blocks : List (Block Node)) {height offset fuel : Nat}
  {curElem : TreeElem}

def pieceNode (height offset : Nat) : Node :=
  value (computeBinShaParent sha256) zeroNode (place 0 blocks) height offset

def pieceZero (height : Nat) : Node := zeroRoot (computeBinShaParent sha256) zeroNode height

/-- Entries carry the values of the piece tree. Behind the data there are only right siblings
of elements that are not on the left edge. -/
structure Agrees (tree : PartialTree) : Prop where
  hashes : ∀ index elem, tree index = some elem →
    ∃ height, index.level = height + 1 ∧ elem.hash = pieceNode sha256 blocks height index.elemOffset
  near : ∀ height offset, (tree ⟨height + 1, offset⟩).isSome →
    offset * 2 ^ height < total blocks ∨ 2 ≤ offset

def Extends (tree grown : PartialTree) : Prop := ∀ index, (tree index).isSome → (grown index).isSome

/-- The branch that starts at a leaf position is in the tree from a height on, up to its first
right element, and so are the right siblings of its left elements. -/
def Grown (tree : PartialTree) (position start : Nat) : Prop :=
  ∀ height, start ≤ height → 2 ^ height ∣ position →
    (tree ⟨height + 1, position / 2 ^ height⟩).isSome ∧
      (position / 2 ^ height % 2 = 0 → (tree ⟨height + 1, position / 2 ^ height + 1⟩).isSome)

theorem Extends.refl (tree : PartialTree) : Extends tree tree := fun _ present => present

theorem Extends.trans {first second third : PartialTree} (lower : Extends first second)
    (upper : Extends second third) : Extends first third :=
  fun index present => upper index (lower index present)

theorem Extends.set (tree : PartialTree) (index : ElemIndex) (elem : TreeElem) :
    Extends tree (tree.set index elem) := by
  intro other present
  unfold PartialTree.set
  split
  · rfl
  · exact present

theorem Grown.extend {tree grown : PartialTree} {position start : Nat}
    (held : Grown tree position start) (extended : Extends tree grown) :
    Grown grown position start := by
  intro height above aligned
  obtain ⟨element, sibling⟩ := held height above aligned
  exact ⟨extended _ element, fun left => extended _ (sibling left)⟩

theorem isRight_iff (offset : Nat) : isRight offset = true ↔ offset % 2 = 1 := by
  simp [isRight]

variable {sha256 blocks}

section

variable {tree : PartialTree} (agrees : Agrees sha256 blocks tree)
include agrees

theorem Agrees.set {hash : Node} (matching : hash = pieceNode sha256 blocks height offset)
    (near : offset * 2 ^ height < total blocks ∨ 2 ≤ offset) :
    Agrees sha256 blocks (tree.set ⟨height + 1, offset⟩ ⟨height + 1, hash⟩) := by
  constructor
  · intro index elem found
    unfold PartialTree.set at found
    split at found
    · grind
    · exact agrees.hashes index elem found
  · intro otherHeight otherOffset present
    unfold PartialTree.set at present
    split at present
    · next same =>
        cases same
        exact near
    · exact agrees.near otherHeight otherOffset present

theorem Agrees.at_height {elem : TreeElem} (found : tree ⟨height + 1, offset⟩ = some elem) :
    elem.hash = pieceNode sha256 blocks height offset := by
  obtain ⟨other, level, matching⟩ := agrees.hashes _ _ found
  grind

end

/-- What the proofs below assume of the piece: the shape its sub-pieces were added in, the height
of its root, and a zero commitment for each level below it. -/
structure PieceShape (sha256 : Bytes → Node) (zerocomm : ZeroComm)
    (blocks : List (Block Node)) (rootHeight : Nat) : Prop where
  descending : Descending blocks
  large : ∀ block ∈ blocks, 2 ≤ block.height
  fits : total blocks ≤ 2 ^ rootHeight
  least : ∀ height, total blocks ≤ 2 ^ height → rootHeight ≤ height
  zeros : ∀ height, 2 ≤ height → height < rootHeight →
    zerocomm.atLevel (height + 1) = .ok (pieceZero sha256 height)

variable {zerocomm : ZeroComm} {rootHeight : Nat}
  {block : Block Node} {position height : Nat} {tree : PartialTree}

theorem aligned_succ (aligned : 2 ^ height ∣ position) (even : position / 2 ^ height % 2 = 0) :
    2 ^ (height + 1) ∣ position := by
  obtain ⟨slot, rfl⟩ := aligned
  rw [Nat.mul_div_cancel_left _ (Nat.two_pow_pos _)] at even
  exact Nat.mul_dvd_mul_left _ (Nat.dvd_of_mod_eq_zero even)

theorem even_of_aligned_above {higher : Nat} (above : height < higher)
    (aligned : 2 ^ higher ∣ position) : position / 2 ^ height % 2 = 0 := by
  have dvd : 2 ^ (height + 1) ∣ position := dvd_trans (pow_dvd_pow 2 above) aligned
  obtain ⟨slot, rfl⟩ := dvd
  rw [Nat.pow_succ, Nat.mul_assoc, Nat.mul_div_cancel_left _ (Nat.two_pow_pos _)]
  omega

variable (shape : PieceShape sha256 zerocomm blocks rootHeight)

section

variable (member : (position, block) ∈ place 0 blocks)
include member

theorem position_lt : position < total blocks := by
  have bound := place_end_le member
  have positive := width_pos block
  simp only at bound
  omega

theorem pieceNode_parent (small : block.height ≤ height) (aligned : 2 ^ (height + 1) ∣ position) :
    pieceNode sha256 blocks (height + 1) (position / 2 ^ (height + 1)) =
      computeBinShaParent sha256 (pieceNode sha256 blocks height (position / 2 ^ height))
        (pieceNode sha256 blocks height (position / 2 ^ height + 1)) := by
  have start : position / 2 ^ (height + 1) * 2 ^ (height + 1) = position :=
    Nat.div_mul_cancel aligned
  have doubled : 2 * (position / 2 ^ (height + 1)) = position / 2 ^ height := by
    obtain ⟨slot, rfl⟩ := aligned
    rw [Nat.mul_div_cancel_left _ (Nat.two_pow_pos _), Nat.pow_succ, Nat.mul_assoc,
      Nat.mul_div_cancel_left _ (Nat.two_pow_pos _)]
  have placed : (position / 2 ^ (height + 1) * 2 ^ (height + 1), block) ∈ place 0 blocks := by
    rw [start]
    exact member
  have parent := value_parent (computeBinShaParent sha256) zeroNode placed small
  rw [doubled] at parent
  exact parent

include shape

theorem height_lt_root (later : 0 < position) (aligned : 2 ^ height ∣ position) :
    height < rootHeight := by
  have low : 2 ^ height ≤ position := Nat.le_of_dvd later aligned
  have high := position_lt member
  have fits := shape.fits
  exact (Nat.pow_lt_pow_iff_right (by decide)).mp (by omega : 2 ^ height < 2 ^ rootHeight)

theorem height_le_root : block.height ≤ rootHeight := by
  have bound := place_end_le member
  have fits := shape.fits
  simp only [Block.width] at bound
  exact (Nat.pow_le_pow_iff_right (by decide)).mp (by omega : 2 ^ block.height ≤ 2 ^ rootHeight)

/-- Where the branches to the right are grown, a missing right sibling lies behind the data. -/
theorem missing_beyond (small : block.height ≤ height) (aligned : 2 ^ height ∣ position)
    (even : position / 2 ^ height % 2 = 0)
    (done : ∀ entry ∈ place 0 blocks, position < entry.1 → Grown tree entry.1 entry.2.height)
    (missing : tree ⟨height + 1, position / 2 ^ height + 1⟩ = none) :
    total blocks ≤ (position / 2 ^ height + 1) * 2 ^ height := by
  by_contra inside
  have start : position / 2 ^ height * 2 ^ height = position := Nat.div_mul_cancel aligned
  have target : (position / 2 ^ height + 1) * 2 ^ height = position + 2 ^ height := by
    rw [Nat.add_mul, start, Nat.one_mul]
  have positive := Nat.two_pow_pos height
  have sameParent : (position + 2 ^ height) / 2 ^ (height + 1) = position / 2 ^ (height + 1) := by
    obtain ⟨slot, rfl⟩ := aligned_succ aligned even
    rw [Nat.mul_div_cancel_left _ (Nat.two_pow_pos _),
      Nat.mul_add_div (Nat.two_pow_pos _), Nat.div_eq_of_lt, add_zero]
    exact Nat.pow_lt_pow_right (by decide) (Nat.lt_succ_self height)
  have next : 2 ^ height ∣ position + 2 ^ height := dvd_add aligned dvd_rfl
  obtain ⟨other, otherMember, otherSmall⟩ :=
    same_parent_start shape.descending member small next (by omega) sameParent
  have grown := done _ otherMember (by simp only; omega) height otherSmall next
  have slot : (position + 2 ^ height) / 2 ^ height = position / 2 ^ height + 1 :=
    Nat.add_div_right position positive
  simp only [slot] at grown
  rw [missing] at grown
  exact absurd grown.1 (by simp)

end

variable (agrees : Agrees sha256 blocks tree)
include shape agrees

theorem rightSibling_spec (large : 2 ≤ height) (below : height < rootHeight) (inner : 2 ≤ offset)
    (beyond : tree ⟨height + 1, offset + 1⟩ = none → total blocks ≤ (offset + 1) * 2 ^ height) :
    ∃ sibling grown, rightSibling zerocomm false tree (height + 1) offset =
        .ok (some (sibling, grown)) ∧
      sibling.hash = pieceNode sha256 blocks height (offset + 1) ∧ Agrees sha256 blocks grown ∧
      Extends tree grown ∧ (grown ⟨height + 1, offset + 1⟩).isSome := by
  unfold rightSibling
  cases found : tree ⟨height + 1, offset + 1⟩ with
  | some sibling =>
    refine ⟨sibling, tree, rfl, agrees.at_height found, agrees, Extends.refl tree, ?_⟩
    rw [found]
    rfl
  | none =>
    have zero : pieceZero sha256 height = pieceNode sha256 blocks height (offset + 1) :=
      (value_beyond (computeBinShaParent sha256) zeroNode (beyond found)).symm
    refine ⟨⟨height + 1, pieceZero sha256 height⟩, _, ?_, zero,
      agrees.set zero (Or.inr (by omega)), Extends.set tree _ _, ?_⟩
    · simp [shape.zeros height large below]
    · simp [PartialTree.set]

theorem growBranch_later (member : (position, block) ∈ place 0 blocks) (later : 0 < position)
    (done : ∀ entry ∈ place 0 blocks, position < entry.1 → Grown tree entry.1 entry.2.height)
    (small : block.height ≤ height) (aligned : 2 ^ height ∣ position)
    (present : tree ⟨height + 1, position / 2 ^ height⟩ = some curElem)
    (enough : rootHeight < height + fuel) :
    ∃ grown, growBranch sha256 zerocomm false fuel tree (height + 1) (position / 2 ^ height)
        curElem = .ok grown ∧
      Agrees sha256 blocks grown ∧ Extends tree grown ∧ Grown grown position height := by
  induction fuel generalizing tree height curElem with
  | zero =>
    have below := height_lt_root shape member later aligned
    omega
  | succ fuel ih =>
    have below := height_lt_root shape member later aligned
    rw [growBranch]
    by_cases right : position / 2 ^ height % 2 = 1
    · -- A right element: the loop ends, and no higher node starts at this position.
      rw [if_pos ((isRight_iff _).mpr right)]
      refine ⟨tree, rfl, agrees, Extends.refl tree, ?_⟩
      intro higher above otherAligned
      rcases lt_or_eq_of_le above with strictly | same
      · have even := even_of_aligned_above strictly otherAligned
        omega
      · grind
    · have even : position / 2 ^ height % 2 = 0 := by omega
      have blockLarge := shape.large block (place_mem member)
      have offsetPositive : 0 < position / 2 ^ height :=
        Nat.div_pos (Nat.le_of_dvd later aligned) (Nat.two_pow_pos height)
      rw [if_neg (by rw [isRight_iff]; omega)]
      obtain ⟨sibling, widened, found, siblingHash, widenedAgrees, widens, siblingPresent⟩ :=
        rightSibling_spec shape agrees (by omega) below (by omega)
          (missing_beyond shape member small aligned even done)
      have upper := aligned_succ aligned even
      have halved : position / 2 ^ height / 2 = position / 2 ^ (height + 1) := by
        rw [Nat.div_div_eq_div_mul, Nat.pow_succ]
      have parentHash : computeBinShaParent sha256 curElem.hash sibling.hash =
          pieceNode sha256 blocks (height + 1) (position / 2 ^ (height + 1)) := by
        rw [pieceNode_parent member small upper, siblingHash, agrees.at_height present]
      have parentNear : position / 2 ^ (height + 1) * 2 ^ (height + 1) < total blocks ∨
          2 ≤ position / 2 ^ (height + 1) := by
        rw [Nat.div_mul_cancel upper]
        exact Or.inl (position_lt member)
      rw [found]
      simp only [halved]
      have step := Extends.set widened ⟨height + 1 + 1, position / 2 ^ (height + 1)⟩
        ⟨height + 1 + 1, computeBinShaParent sha256 curElem.hash sibling.hash⟩
      obtain ⟨grown, returned, grownAgrees, extended, branch⟩ := ih
        (widenedAgrees.set parentHash parentNear)
        (fun entry inside behind => ((done entry inside behind).extend widens).extend step)
        (Nat.le_succ_of_le small) upper (PartialTree.set_same _ _ _) (by omega)
      refine ⟨grown, ?_, grownAgrees, (widens.trans step).trans extended, ?_⟩
      · simpa [PartialTree.get, PartialTree.set_same] using returned
      · intro higher above otherAligned
        rcases lt_or_eq_of_le above with strictly | same
        · exact branch higher strictly otherAligned
        · subst same
          refine ⟨?_, fun _ => extended _ (step _ siblingPresent)⟩
          apply extended
          apply step
          apply widens
          rw [present]
          rfl

theorem growBranch_first (member : (0, block) ∈ place 0 blocks)
    (done : ∀ entry ∈ place 0 blocks, 0 < entry.1 → Grown tree entry.1 entry.2.height)
    (small : block.height ≤ height) (inside : height ≤ rootHeight)
    (present : tree ⟨height + 1, 0⟩ = some curElem) (enough : rootHeight < height + fuel) :
    ∃ grown, growBranch sha256 zerocomm true fuel tree (height + 1) 0 curElem = .ok grown ∧
      Agrees sha256 blocks grown ∧ Extends tree grown ∧
      ∀ higher, height ≤ higher → higher ≤ rootHeight → (grown ⟨higher + 1, 0⟩).isSome ∧
        (higher < rootHeight → (grown ⟨higher + 1, 1⟩).isSome) := by
  induction fuel generalizing tree height curElem with
  | zero => omega
  | succ fuel ih =>
    have here : (tree ⟨height + 1, 0⟩).isSome := by
      rw [present]
      rfl
    rw [growBranch, if_neg (by simp [isRight])]
    cases found : tree ⟨height + 1, 1⟩ with
    | none =>
      -- The right siblings ran out: the data ends here, so this is the root.
      have beyond := missing_beyond shape member small (dvd_zero _) (by simp) done
        (by simpa using found)
      have root : rootHeight = height :=
        le_antisymm (shape.least height (by simpa using beyond)) inside
      refine ⟨tree, by simp [rightSibling, found], agrees, Extends.refl tree, ?_⟩
      intro higher above below
      have same : higher = height := by omega
      rw [same]
      exact ⟨here, fun strictly => by omega⟩
    | some sibling =>
      have below : height < rootHeight := by
        have near := agrees.near height 1 (by rw [found]; rfl)
        have fits := shape.fits
        exact (Nat.pow_lt_pow_iff_right (by decide)).mp (by omega : 2 ^ height < 2 ^ rootHeight)
      have parentHash : computeBinShaParent sha256 curElem.hash sibling.hash =
          pieceNode sha256 blocks (height + 1) 0 := by
        rw [agrees.at_height present, agrees.at_height found]
        simpa using (pieceNode_parent member small (dvd_zero _)).symm
      have parentNear : 0 * 2 ^ (height + 1) < total blocks ∨ 2 ≤ 0 := by
        rw [Nat.zero_mul]
        exact Or.inl (position_lt member)
      have step := Extends.set tree ⟨height + 1 + 1, 0⟩
        ⟨height + 1 + 1, computeBinShaParent sha256 curElem.hash sibling.hash⟩
      obtain ⟨grown, returned, grownAgrees, extended, spine⟩ := ih
        (agrees.set parentHash parentNear)
        (fun entry member behind => (done entry member behind).extend step)
        (Nat.le_succ_of_le small) below (PartialTree.set_same _ _ _) (by omega)
      refine ⟨grown, ?_, grownAgrees, step.trans extended, ?_⟩
      · simpa [rightSibling, found, PartialTree.get, PartialTree.set_same] using returned
      · intro higher above limit
        rcases lt_or_eq_of_le above with strictly | same
        · exact spine higher strictly limit
        · subst same
          refine ⟨extended _ (step _ here), fun _ => extended _ (step _ ?_)⟩
          rw [found]
          rfl

end Curio.Pdp
