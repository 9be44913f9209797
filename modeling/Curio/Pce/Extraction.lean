import Mathlib.Data.Nat.Bitwise
import Curio.Pce.Evaluate
import Curio.RowPacking

/-! The extracted circuit against the direct meaning of the calls of the circuit.

A variable of a child means a variable of its parent; the recording system keeps, row by row, the
terms that the calls mean. -/

namespace Curio.Pce

open GoRuntime RowPacking List

section Meaning

variable {F : Type} [Field F] [DecidableEq F]

abbrev Terms (F : Type) := List (Index × F)

def LinearCombination.terms (lc : LinearCombination F) : Terms F :=
  lc.inputTerms.map (fun term => (.input term.1, term.2)) ++
    lc.auxTerms.map fun term => (.aux term.1, term.2)

def Terms.value (assignment : Index → F) (terms : Terms F) : F :=
  (terms.map fun term => term.2 * assignment term.1).sum

structure Constraint (F : Type) where
  a : Terms F
  b : Terms F
  c : Terms F

/-- The variable of the parent that a variable of the child means, where the merge appends the
variables of the child to those of the parent. -/
def place (numInputs numAux : Nat) : Index → Index
  | .input 0 => .input 0
  | .input (i + 1) => .input (numInputs + i)
  | .aux i => .aux (numAux + i)

def Terms.rename (meaning : Index → Index) (terms : Terms F) : Terms F :=
  terms.map fun term => (meaning term.1, term.2)

def Constraint.rename (meaning : Index → Index) (constraint : Constraint F) : Constraint F :=
  ⟨Terms.rename meaning constraint.a, Terms.rename meaning constraint.b,
    Terms.rename meaning constraint.c⟩

def Index.Within (numInputs numAux : Nat) : Index → Prop
  | .input i => i < numInputs
  | .aux i => i < numAux

def Terms.Within (numInputs numAux : Nat) (terms : Terms F) : Prop :=
  ∀ term ∈ terms, Index.Within numInputs numAux term.1

namespace Synthesis

def inputs : Synthesis F → Nat → Nat
  | .done, n => n
  | .alloc rest, n => rest.inputs n
  | .allocInput rest, n => rest.inputs (n + 1)
  | .enforce _ _ _ rest, n => rest.inputs n
  | .extend child rest, n => rest.inputs (n + (child.inputs 1 - 1))

def auxs : Synthesis F → Nat → Nat
  | .done, n => n
  | .alloc rest, n => rest.auxs (n + 1)
  | .allocInput rest, n => rest.auxs n
  | .enforce _ _ _ rest, n => rest.auxs n
  | .extend child rest, n => rest.auxs (n + child.auxs 0)

/-- The constraints in the order in which they are enforced, those of a child where it is merged,
from the numbers of variables before the calls. -/
def constraints : Synthesis F → Nat → Nat → List (Constraint F)
  | .done, _, _ => []
  | .alloc rest, n, m => rest.constraints n (m + 1)
  | .allocInput rest, n, m => rest.constraints (n + 1) m
  | .enforce a b c rest, n, m => ⟨a.terms, b.terms, c.terms⟩ :: rest.constraints n m
  | .extend child rest, n, m =>
    (child.constraints 1 0).map (Constraint.rename (place n m)) ++
      rest.constraints (n + (child.inputs 1 - 1)) (m + child.auxs 0)

/-- A constraint uses variables of its own system that are allocated before it. -/
def Scoped : Synthesis F → Nat → Nat → Prop
  | .done, _, _ => True
  | .alloc rest, n, m => rest.Scoped n (m + 1)
  | .allocInput rest, n, m => rest.Scoped (n + 1) m
  | .enforce a b c rest, n, m =>
    (Terms.Within n m a.terms ∧ Terms.Within n m b.terms ∧ Terms.Within n m c.terms) ∧
      rest.Scoped n m
  | .extend child rest, n, m =>
    child.Scoped 1 0 ∧ rest.Scoped (n + (child.inputs 1 - 1)) (m + child.auxs 0)

def inputConstraint (i : Nat) : Constraint F := ⟨[(.input i, 1)], [], []⟩

def allConstraints (circuit : Synthesis F) : List (Constraint F) :=
  circuit.constraints 1 0 ++ (range (circuit.inputs 1)).map inputConstraint

end Synthesis

def Terms.kept (terms : Terms F) : Terms F := terms.filter (·.2 ≠ 0)

end Meaning

section Columns

variable {i : Nat}

theorem auxFlag_toNat : auxFlag.toNat = 2 ^ 31 := rfl

theorem flagged_iff (col : UInt32) : col &&& auxFlag ≠ 0 ↔ 2 ^ 31 ≤ col.toNat := by
  have small := col.toNat_lt
  rw [ne_eq, ← UInt32.toNat_inj, UInt32.toNat_and, auxFlag_toNat, Nat.and_two_pow]
  by_cases set : col.toNat / 2 ^ 31 % 2 = 1
  · grind
  · grind

theorem unflag_toNat (col : UInt32) : (col &&& ~~~auxFlag).toNat = col.toNat % 2 ^ 31 := by
  have mask : (~~~auxFlag).toNat = 2 ^ 31 - 1 := rfl
  rw [UInt32.toNat_and, mask, Nat.and_two_pow_sub_one_eq_mod]

section

variable (small : i < 2 ^ 31)
include small

theorem tagged_aux_toNat : (tagged (.aux i)).toNat = 2 ^ 31 + i := by
  have word := UInt32.toNat_ofNat_of_lt' (show i < 2 ^ 32 by omega)
  have sum := Nat.two_pow_add_eq_or_of_lt small 1
  rw [mul_one] at sum
  rw [tagged, UInt32.toNat_or, word, auxFlag_toNat, Nat.or_comm, sum]

theorem unflag_tagged : tagged (.aux i) &&& ~~~auxFlag = UInt32.ofNat i := by
  rw [← UInt32.toNat_inj, unflag_toNat, tagged_aux_toNat small,
    UInt32.toNat_ofNat_of_lt' (show i < 2 ^ 32 by omega)]
  omega

theorem flagged_aux : tagged (.aux i) &&& auxFlag ≠ 0 := by
  rw [flagged_iff, tagged_aux_toNat small]
  omega

theorem not_flagged_input : ¬(tagged (.input i) &&& auxFlag ≠ 0) := by
  rw [flagged_iff, tagged, UInt32.toNat_ofNat_of_lt' (show i < 2 ^ 32 by omega)]
  omega

end

variable {index : Index} (small : index.Within (2 ^ 31) (2 ^ 31))
include small

theorem remapCol_tagged {numInputs numAux : Nat} :
    RecordingCS.remapCol numInputs numAux (tagged index) =
      tagged (place numInputs numAux index) := by
  unfold RecordingCS.remapCol
  match index, small with
  | .aux i, small =>
    rw [if_pos (flagged_aux small), unflag_tagged small, ← UInt32.ofNat_add, add_comm]
    rfl
  | .input 0, small =>
    rfl
  | .input (i + 1), small =>
    have positive : tagged (.input (i + 1)) ≠ 0 := by
      rw [ne_eq, ← UInt32.toNat_inj, tagged,
        UInt32.toNat_ofNat_of_lt' (lt_trans (show i + 1 < 2 ^ 31 from small) (by decide))]
      exact Nat.succ_ne_zero i
    rw [if_neg (not_flagged_input small), if_neg positive]
    have one : UInt32.ofNat (i + 1) - 1 = UInt32.ofNat i := by
      rw [UInt32.ofNat_add]
      exact UInt32.add_sub_cancel _ _
    rw [tagged, one, ← UInt32.ofNat_add, add_comm]
    rfl

def position (numInputs : Nat) : Index → Nat
  | .input i => i
  | .aux i => numInputs + i

theorem unifyCol_tagged (numInputs : Nat) :
    unifyCol (UInt32.ofNat numInputs) (tagged index) = UInt32.ofNat (position numInputs index) := by
  unfold unifyCol
  match index, small with
  | .aux i, small => rw [if_pos (flagged_aux small), unflag_tagged small, ← UInt32.ofNat_add]; rfl
  | .input i, small => rw [if_neg (not_flagged_input small)]; rfl

end Columns

variable {index : Index} {n m : Nat}

section Scope

variable {F : Type}
variable {n m n' m' : Nat}

def Constraint.Within (n m : Nat) (constraint : Constraint F) : Prop :=
  Terms.Within n m constraint.a ∧ Terms.Within n m constraint.b ∧ Terms.Within n m constraint.c

theorem Index.Within.mono (within : index.Within n m) (inputs : n ≤ n') (auxs : m ≤ m') :
    index.Within n' m' := by
  cases index with
  | input i => exact lt_of_lt_of_le within inputs
  | aux i => exact lt_of_lt_of_le within auxs

variable {constraint : Constraint F}

theorem Constraint.Within.mono (within : constraint.Within n m) (inputs : n ≤ n') (auxs : m ≤ m') :
    constraint.Within n' m' :=
  ⟨fun term member => (within.1 term member).mono inputs auxs,
    fun term member => (within.2.1 term member).mono inputs auxs,
    fun term member => (within.2.2 term member).mono inputs auxs⟩

theorem le_inputs (s : Synthesis F) (n : Nat) : n ≤ s.inputs n := by
  induction s generalizing n with
  | done => exact le_refl n
  | alloc rest ih => exact ih n
  | allocInput rest ih => exact (Nat.le_succ n).trans (ih (n + 1))
  | enforce a b c rest ih => exact ih n
  | extend child rest _ ih => exact (Nat.le_add_right n _).trans (ih _)

theorem le_auxs (s : Synthesis F) (m : Nat) : m ≤ s.auxs m := by
  induction s generalizing m with
  | done => exact le_refl m
  | alloc rest ih => exact (Nat.le_succ m).trans (ih (m + 1))
  | allocInput rest ih | enforce a b c rest ih => exact ih m
  | extend child rest _ ih => exact (Nat.le_add_right m _).trans (ih _)

theorem place_within (positive : 1 ≤ n) (within : index.Within n' m') :
    (place n m index).Within (n + (n' - 1)) (m + m') := by
  match index, within with
  | .input 0, _ => exact Nat.lt_of_lt_of_le positive (Nat.le_add_right n _)
  | .input (i + 1), within =>
    have inside : i + 1 < n' := within
    show n + i < n + (n' - 1)
    omega
  | .aux i, within => exact Nat.add_lt_add_left within m

theorem rename_within (positive : 1 ≤ n) (within : constraint.Within n' m') :
    (constraint.rename (place n m)).Within (n + (n' - 1)) (m + m') := by
  have placed {terms : Terms F} (inside : terms.Within n' m') :
      (terms.rename (place n m)).Within (n + (n' - 1)) (m + m') := by
    intro term member
    obtain ⟨own, inOwn, rfl⟩ := mem_map.mp member
    exact place_within positive (inside own inOwn)
  exact ⟨placed within.1, placed within.2.1, placed within.2.2⟩

theorem constraints_within (s : Synthesis F) (inScope : s.Scoped n m) (positive : 1 ≤ n) :
    ∀ constraint ∈ s.constraints n m, constraint.Within (s.inputs n) (s.auxs m) := by
  induction s generalizing n m with
  | done =>
    intro constraint member
    cases member
  | alloc rest ih => exact ih inScope positive
  | allocInput rest ih => exact ih inScope (Nat.le_succ_of_le positive)
  | enforce a b c rest ih =>
    intro constraint member
    cases mem_cons.mp member with
    | inl first =>
      subst first
      exact Constraint.Within.mono inScope.1 (le_inputs rest n) (le_auxs rest m)
    | inr later => exact ih inScope.2 positive constraint later
  | extend child rest childIh ih =>
    intro constraint member
    cases mem_append.mp member with
    | inl merged =>
      obtain ⟨own, inChild, rfl⟩ := mem_map.mp merged
      exact (rename_within positive (childIh inScope.1 (le_refl 1) own inChild)).mono
        (le_inputs rest _) (le_auxs rest _)
    | inr later =>
      exact ih inScope.2 (positive.trans (Nat.le_add_right n _)) constraint later

end Scope

section Merged

variable {F : Type}

def encode (column : Index → UInt32) (rows : List (Terms F)) : CsrMatrix F where
  rowPtrs := (offsets rows).map UInt32.ofNat
  cols := rows.flatten.map fun term => column term.1
  vals := rows.flatten.map Prod.snd

theorem extendMatrix_encode {numInputs numAux : Nat} {rows more : List (Terms F)}
    (small : ∀ row ∈ more, Terms.Within (2 ^ 31) (2 ^ 31) row) :
    RecordingCS.extendMatrix (RecordingCS.remapCol numInputs numAux) (encode tagged rows)
        (encode tagged more) =
      encode tagged (rows ++ more.map (Terms.rename (place numInputs numAux))) := by
  have renamed : (more.map (Terms.rename (place numInputs numAux))).flatten =
      Terms.rename (place numInputs numAux) more.flatten := map_flatten.symm
  have starts : offsets (more.map (Terms.rename (place numInputs numAux))) = offsets more := by
    unfold offsets
    rw [length_map]
    refine map_congr_left fun i _ => ?_
    unfold offset
    rw [← map_take]
    simp [Terms.rename, Function.comp_def]
  have columns : (more.flatten.map fun term => tagged term.1).map
        (RecordingCS.remapCol numInputs numAux) =
      (Terms.rename (place numInputs numAux) more.flatten).map fun term => tagged term.1 := by
    unfold Terms.rename
    rw [map_map, map_map]
    refine map_congr_left fun term member => ?_
    obtain ⟨row, inRows, inRow⟩ := mem_flatten.mp member
    exact remapCol_tagged (small row inRows term inRow)
  have values : (Terms.rename (place numInputs numAux) more.flatten).map Prod.snd =
      more.flatten.map Prod.snd := by
    unfold Terms.rename
    rw [map_map]
    rfl
  have pointers : ((((offsets more).map UInt32.ofNat).drop 1).map
        (· + UInt32.ofNat (rows.flatten.map fun term => tagged term.1).length)) =
      (((offsets more).drop 1).map (rows.flatten.length + ·)).map UInt32.ofNat := by
    rw [← map_drop, map_map, map_map, length_map]
    refine map_congr_left fun start _ => ?_
    rw [Function.comp_apply, Function.comp_apply, ← UInt32.ofNat_add, add_comm]
  unfold RecordingCS.extendMatrix encode
  dsimp only
  rw [offsets_append, map_append, flatten_append, map_append, map_append,
    starts, renamed, values, ← columns, pointers]

end Merged

section Recorded

variable {F : Type} [Field F] [DecidableEq F]

theorem pushTerms_eq (index : Nat → Index) (terms : List (Nat × F)) (matrix : CsrMatrix F) :
    pushTerms index terms matrix =
      { matrix with
        cols := matrix.cols ++
          (Terms.kept (terms.map fun term => (index term.1, term.2))).map fun term => tagged term.1
        vals := matrix.vals ++
          (Terms.kept (terms.map fun term => (index term.1, term.2))).map Prod.snd } := by
  induction terms generalizing matrix with
  | nil => simp [pushTerms, Terms.kept]
  | cons term rest ih =>
    obtain ⟨i, coeff⟩ := term
    unfold pushTerms
    by_cases zero : coeff = 0
    · rw [if_pos zero, ih]
      simp [Terms.kept, zero]
    · rw [if_neg zero, ih]
      simp [Terms.kept, zero]

theorem recordRow_encode (lc : LinearCombination F) (rows : List (Terms F)) :
    recordRow lc (encode tagged rows) = encode tagged (rows ++ [lc.terms.kept]) := by
  have parts : lc.terms.kept =
      Terms.kept (lc.inputTerms.map fun term => (Index.input term.1, term.2)) ++
        Terms.kept (lc.auxTerms.map fun term => (Index.aux term.1, term.2)) :=
    filter_append _ _
  have pointers : offsets (rows ++ [lc.terms.kept]) =
      offsets rows ++ [rows.flatten.length + lc.terms.kept.length] := by
    rw [offsets_append]
    simp [offsets, offset, range_succ]
  unfold recordRow
  rw [pushTerms_eq, pushTerms_eq]
  grind [encode]

theorem kept_rename (meaning : Index → Index) (terms : Terms F) :
    (terms.rename meaning).kept = terms.kept.rename meaning := by
  unfold Terms.rename Terms.kept
  rw [filter_map]
  rfl

def recorded (numInputs numAux : Nat) (constraints : List (Constraint F)) : RecordingCS F where
  numInputs := numInputs
  numAux := numAux
  numConstraints := constraints.length
  a := encode tagged (constraints.map (·.a.kept))
  b := encode tagged (constraints.map (·.b.kept))
  c := encode tagged (constraints.map (·.c.kept))

theorem enforce_recorded (n m : Nat) (constraints : List (Constraint F))
    (a b c : LinearCombination F) :
    (recorded n m constraints).enforce a b c =
      recorded n m (constraints ++ [⟨a.terms, b.terms, c.terms⟩]) := by
  unfold RecordingCS.enforce recorded
  simp only [recordRow_encode, map_append, map_cons, map_nil, length_append,
    length_cons, length_nil]

theorem Terms.Within.kept {terms : Terms F} (within : terms.Within n m) :
    terms.kept.Within n m :=
  fun term member => within term (mem_of_mem_filter member)

theorem extend_recorded {n' m' : Nat} {constraints more : List (Constraint F)}
    (small : ∀ constraint ∈ more, constraint.Within (2 ^ 31) (2 ^ 31)) :
    (recorded n m constraints).extend (recorded n' m' more) =
      recorded (n + (n' - 1)) (m + m')
        (constraints ++ more.map (Constraint.rename (place n m))) := by
  have rowsOf (part : Constraint F → Terms F)
      (renamed : ∀ constraint : Constraint F, part (constraint.rename (place n m)) =
        (part constraint).rename (place n m)) :
      (more.map (Constraint.rename (place n m))).map (fun constraint => (part constraint).kept) =
        (more.map fun constraint => (part constraint).kept).map (Terms.rename (place n m)) := by
    rw [map_map, map_map]
    refine map_congr_left fun constraint _ => ?_
    rw [Function.comp_apply, Function.comp_apply, renamed, kept_rename]
  have smallRows (part : Constraint F → Terms F)
      (within : ∀ constraint ∈ more, (part constraint).Within (2 ^ 31) (2 ^ 31)) :
      ∀ row ∈ more.map (fun constraint => (part constraint).kept),
        Terms.Within (2 ^ 31) (2 ^ 31) row := by
    intro row member
    obtain ⟨constraint, inMore, rfl⟩ := mem_map.mp member
    exact (within constraint inMore).kept
  unfold RecordingCS.extend recorded
  simp only [map_append, length_append, length_map]
  rw [extendMatrix_encode (smallRows (·.a) fun constraint member => (small constraint member).1),
    extendMatrix_encode (smallRows (·.b) fun constraint member => (small constraint member).2.1),
    extendMatrix_encode (smallRows (·.c) fun constraint member => (small constraint member).2.2),
    rowsOf (·.a) fun _ => rfl, rowsOf (·.b) fun _ => rfl, rowsOf (·.c) fun _ => rfl]

theorem new_recorded : (RecordingCS.new.allocInput : RecordingCS F) = recorded 1 0 [] := rfl

end Recorded

variable {F : Type} [Field F] [DecidableEq F]

/-- The calls record what they mean. -/
theorem synthesize_recorded (s : Synthesis F) (inScope : s.Scoped n m) (positive : 1 ≤ n)
    (inputs : s.inputs n ≤ 2 ^ 31) (auxs : s.auxs m ≤ 2 ^ 31) (before : List (Constraint F)) :
    RecordingCS.synthesize s (recorded n m before) =
      recorded (s.inputs n) (s.auxs m) (before ++ s.constraints n m) := by
  induction s generalizing n m before with
  | done => rw [Synthesis.constraints, append_nil]; rfl
  | alloc rest ih => exact ih inScope positive inputs auxs before
  | allocInput rest ih => exact ih inScope (Nat.le_succ_of_le positive) inputs auxs before
  | enforce a b c rest ih =>
    rw [RecordingCS.synthesize, enforce_recorded, ih inScope.2 positive inputs auxs, append_assoc]
    rfl
  | extend child rest childIh ih =>
    -- the child has no more variables than its parent in the end
    have childInputs : child.inputs 1 ≤ 2 ^ 31 := by
      have whole := (le_inputs rest (n + (child.inputs 1 - 1))).trans inputs
      omega
    have childAuxs : child.auxs 0 ≤ 2 ^ 31 :=
      (Nat.le_add_left _ m).trans ((le_auxs rest (m + child.auxs 0)).trans auxs)
    have small : ∀ constraint ∈ child.constraints 1 0, constraint.Within (2 ^ 31) (2 ^ 31) :=
      fun constraint member =>
        (constraints_within child inScope.1 (le_refl 1) constraint member).mono childInputs childAuxs
    rw [RecordingCS.synthesize, new_recorded,
      childIh inScope.1 (le_refl 1) childInputs childAuxs, nil_append,
      extend_recorded small,
      ih inScope.2 (positive.trans (Nat.le_add_right n _)) inputs auxs, append_assoc]
    rfl

theorem addInputConstraints_recorded (n m : Nat) (before : List (Constraint F)) :
    addInputConstraints (recorded n m before) =
      recorded n m (before ++ (range n).map Synthesis.inputConstraint) := by
  have each (indices : List Nat) : ∀ recordedBefore : List (Constraint F),
      indices.foldl (fun cs i => cs.enforce (inputCombination i) .zero .zero)
          (recorded n m recordedBefore) =
        recorded n m (recordedBefore ++ indices.map Synthesis.inputConstraint) := by
    induction indices with
    | nil => intro recordedBefore; rw [map_nil, append_nil]; rfl
    | cons i rest ih =>
      intro recordedBefore
      rw [foldl_cons, enforce_recorded, ih, append_assoc]
      rfl
  exact each (range n) before

end Curio.Pce
