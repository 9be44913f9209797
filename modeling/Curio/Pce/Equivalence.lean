import Curio.Pce.Extraction

/-! Evaluating the extracted circuit is evaluating the constraints of the circuit, and its density
bitmaps mark the variables that occur in them. -/

namespace Curio.Pce

open GoRuntime RowPacking List

def wordBit (words : List UInt64) (i : Nat) : Bool := (words.getD (i / 64) 0).toNat.testBit (i % 64)

def bitsValue (bits : List Bool) : Nat := bits.foldr (fun bit high => bit.toNat + 2 * high) 0

theorem bitsValue_lt (bits : List Bool) : bitsValue bits < 2 ^ bits.length := by
  induction bits with
  | nil => decide
  | cons bit rest ih =>
    have low : bit.toNat ≤ 1 := bit.toNat_le
    rw [bitsValue, foldr_cons, ← bitsValue, length_cons]
    omega

theorem bitsValue_testBit (bits : List Bool) (i : Nat) :
    (bitsValue bits).testBit i = bits.getD i false := by
  induction bits generalizing i with
  | nil => simp [bitsValue]
  | cons bit rest ih =>
    have value : bitsValue (bit :: rest) = Nat.bit bit (bitsValue rest) := by
      rw [Nat.bit_val, bitsValue, foldr_cons, ← bitsValue, Nat.add_comm]
    rw [value]
    cases i with
    | zero => rw [Nat.testBit_bit_zero]; rfl
    | succ i => rw [Nat.testBit_bit_succ, ih]; rfl

theorem rawWords_bit (count : Nat) (bits : List Bool) (i : Nat) (inside : i < 64 * count) :
    wordBit (rawWords count bits) i = bits.getD i false := by
  induction count generalizing bits i with
  | zero => omega
  | succ count ih =>
    unfold rawWords wordBit
    by_cases first : i < 64
    · have word : bitsValue (bits.take 64) < 2 ^ 64 :=
        lt_of_lt_of_le (bitsValue_lt _) (Nat.pow_le_pow_right (by decide) (length_take_le _ _))
      rw [Nat.div_eq_of_lt first, Nat.mod_eq_of_lt first, getD_cons_zero, ← bitsValue,
        UInt64.toNat_ofNat', Nat.mod_eq_of_lt word, bitsValue_testBit]
      simp [first]
    · have later := ih (bits.drop 64) (i - 64) (by omega)
      have quotient : i / 64 = (i - 64) / 64 + 1 := by omega
      have remainder : i % 64 = (i - 64) % 64 := by omega
      rw [quotient]
      rw [wordBit] at later
      grind

@[simp] theorem rawWords_length (count : Nat) (bits : List Bool) :
    (rawWords count bits).length = count := by
  induction count generalizing bits with
  | zero => rfl
  | succ count ih => rw [rawWords, length_cons, ih]

theorem asRawSlice_bit (bits : List Bool) (i : Nat) :
    wordBit (asRawSlice bits) i = bits.getD i false := by
  by_cases inside : i < 64 * ((bits.length + 63) / 64)
  · exact rawWords_bit _ bits i inside
  · have beyond : bits.length ≤ i := by omega
    have outside : (bits.length + 63) / 64 ≤ i / 64 := by omega
    rw [wordBit, getD_eq_default _ _ beyond, asRawSlice,
      getD_eq_default _ _ (by rw [rawWords_length]; exact outside)]
    exact Nat.zero_testBit _

theorem count_true (bits : List Bool) : bits.count true = {i | bits.getD i false = true}.ncard := by
  have counted : bits.count true = Nat.count (fun i => bits.getD i false = true) bits.length := by
    induction bits with
    | nil => rfl
    | cons bit rest ih =>
      rw [length_cons, Nat.count_succ', count_cons, ih]
      cases bit <;> simp
  have inside : {i | bits.getD i false = true} =
      ((Finset.range bits.length).filter fun i => bits.getD i false = true : Finset Nat) := by
    grind
  rw [counted, Nat.count_eq_card_filter_range, inside, Set.ncard_coe_finset]

theorem setAll_marks (index : Nat → Option Nat) (cols : List UInt32) (bits : List Bool)
    (inside : ∀ col ∈ cols, ∀ i, index col.toNat = some i → i < bits.length) :
    ∃ marked, setAll index cols bits = .ok marked ∧ marked.length = bits.length ∧
      ∀ i, marked.getD i false = true ↔
        bits.getD i false = true ∨ ∃ col ∈ cols, index col.toNat = some i := by
  induction cols generalizing bits with
  | nil => exact ⟨bits, rfl, rfl, fun i => by simp⟩
  | cons col rest ih =>
    have insideRest (more : List Bool) (same : more.length = bits.length) :
        ∀ later ∈ rest, ∀ i, index later.toNat = some i → i < more.length := by
      intro later member i found
      rw [same]
      exact inside later (mem_cons_of_mem _ member) i found
    unfold setAll
    cases found : index col.toNat with
    | none =>
      obtain ⟨marked, ran, length, marks⟩ := ih bits (insideRest bits rfl)
      grind
    | some at' =>
      have bound := inside col mem_cons_self at' found
      have size : (bits.set at' true).length = bits.length := length_set
      obtain ⟨marked, ran, length, marks⟩ := ih (bits.set at' true) (insideRest _ size)
      refine ⟨marked, ?_, length.trans size, fun i => ?_⟩
      · simp only [writeAt_of_lt true bound, ok_bind, ran]
      · grind

variable {i size : Nat}

section Rows

variable {F : Type} [Field F]

theorem accumulate_row (column : Index → UInt32) (witness : List F) (assignment : Index → F)
    (row : Terms F)
    (found : ∀ term ∈ row, readAt witness (column term.1).toNat = .ok (assignment term.1))
    (acc : F) :
    accumulate witness (row.map fun term => column term.1) (row.map Prod.snd) acc =
      .ok (acc + Terms.value assignment row) := by
  induction row generalizing acc with
  | nil => simp [accumulate, Terms.value]
  | cons term rest ih => grind [accumulate, ok_bind, Terms.value]

theorem sliceBetween_map {α β : Type} (rows : List (List α)) (part : α → β)
    (inside : i < rows.length) :
    sliceBetween (rows.flatten.map part) (offset rows i) (offset rows (i + 1)) =
      .ok (rows[i].map part) := by
  have order : offset rows i ≤ offset rows (i + 1) := by
    rw [offset_succ rows inside]
    exact Nat.le_add_right _ _
  have bound : offset rows (i + 1) ≤ (rows.flatten.map part).length := by
    rw [length_map]
    exact offset_le rows (i + 1)
  rw [sliceBetween, if_pos ⟨order, bound⟩, ← map_take, ← map_drop, slice_row rows inside]

theorem readAt_rowPtrs {F : Type} (column : Index → UInt32) (rows : List (Terms F))
    (inside : i ≤ rows.length) :
    readAt (encode column rows).rowPtrs i = .ok (UInt32.ofNat (offset rows i)) := by
  rw [readAt_eq_ok, encode, getElem?_map, offsets_getElem? rows inside]
  rfl

theorem rowProduct_encode (column : Index → UInt32) (witness : List F) (assignment : Index → F)
    (rows : List (Terms F)) (small : rows.flatten.length < 2 ^ 32)
    (found : ∀ row ∈ rows, ∀ term ∈ row,
      readAt witness (column term.1).toNat = .ok (assignment term.1)) (inside : i < rows.length) :
    rowProduct (encode column rows) witness i = .ok (Terms.value assignment rows[i]) := by
  have word (j : Nat) : (UInt32.ofNat (offset rows j)).toNat = offset rows j :=
    UInt32.toNat_ofNat_of_lt' (lt_of_le_of_lt (offset_le rows j) small)
  have row := accumulate_row column witness assignment rows[i]
    (found rows[i] (getElem_mem inside)) 0
  unfold rowProduct
  rw [readAt_rowPtrs column rows (Nat.le_of_lt inside), ok_bind,
    readAt_rowPtrs column rows inside, ok_bind, word, word]
  unfold encode
  rw [sliceBetween_map rows (fun term => column term.1) inside, ok_bind,
    sliceBetween_map rows Prod.snd inside, ok_bind, row, zero_add]

theorem chunkRows_flatten (numRows : Nat) :
    ((range ((numRows + (chunkSize - 1)) / chunkSize)).map (chunkRows numRows)).flatten =
      range numRows := by
  have upTo (count : Nat) : ((range count).map (chunkRows numRows)).flatten =
      range (min numRows (count * chunkSize)) := by
    induction count with
    | zero => simp
    | succ count ih =>
      have total : min numRows ((count + 1) * chunkSize) =
          min numRows (count * chunkSize) + min chunkSize (numRows - count * chunkSize) := by
        rw [Nat.succ_mul]
        omega
      rw [range_succ, map_append, map_cons, total, range_add, chunkRows]
      grind
  have enough : numRows ≤ (numRows + (chunkSize - 1)) / chunkSize * chunkSize := by
    unfold chunkSize
    omega
  rw [upTo, min_eq_left enough]

theorem mapM_eq_ok {α β : Type} {body : α → Go β} {result : α → β} {items : List α}
    (each : ∀ item ∈ items, body item = .ok (result item)) :
    items.mapM body = .ok (items.map result) := by
  induction items with
  | nil => rfl
  | cons item rest ih =>
    rw [mapM_cons, each item mem_cons_self,
      ih (forall_mem_cons.mp each).2]
    rfl

theorem spmvParallel_encode {column : Index → UInt32} {witness : List F} {assignment : Index → F}
    {rows : List (Terms F)} (small : rows.flatten.length < 2 ^ 32)
    (found : ∀ row ∈ rows, ∀ term ∈ row,
      readAt witness (column term.1).toNat = .ok (assignment term.1)) :
    spmvParallel (encode column rows) witness = .ok (rows.map (Terms.value assignment)) := by
  have numRows : (encode column rows).numRows = rows.length := by
    rw [CsrMatrix.numRows, encode, length_map, offsets_length, Nat.add_sub_cancel]
  have each : ∀ i ∈ range rows.length, rowProduct (encode column rows) witness i =
      .ok (Terms.value assignment (rows.getD i [])) := by
    intro i member
    have inside := mem_range.mp member
    rw [rowProduct_encode column witness assignment rows small found inside,
      getD_eq_getElem _ _ inside]
  have all : (range rows.length).map (fun i => Terms.value assignment (rows.getD i [])) =
      rows.map (Terms.value assignment) := by
    apply ext_getElem
    · simp
    · grind
  unfold spmvParallel
  dsimp only
  rw [numRows, chunkRows_flatten, mapM_eq_ok each, all]

end Rows

section Density

variable {F : Type}

def unified (numInputs : Nat) (index : Index) : UInt32 := UInt32.ofNat (position numInputs index)

variable {index : Index} {n m : Nat}

section

variable (within : index.Within n m)
include within

theorem unified_toNat (inputs : n < 2 ^ 31) (auxs : m < 2 ^ 31) :
    (unified n index).toNat = position n index := by
  refine UInt32.toNat_ofNat_of_lt' ?_
  cases index with
  | input i => exact lt_trans within (lt_trans inputs (by decide))
  | aux i =>
    have inside : i < m := within
    show n + i < 2 ^ 32
    omega

theorem auxIndex_position {i : Nat} : auxIndex n (position n index) = some i ↔ index = .aux i := by
  cases index with
  | input j => simp [auxIndex, position, not_le.mpr (show j < n from within)]
  | aux j => simp [auxIndex, position]

theorem inputIndex_position {i : Nat} :
    inputIndex n (position n index) = some i ↔ index = .input i := by
  cases index with
  | input j => simp [inputIndex, position, show j < n from within]
  | aux j => simp [inputIndex, position]

end

structure Marks (words : List UInt64) (bitLen popcount : UInt64) (size : Nat)
    (occurs : Nat → Prop) : Prop where
  bits : ∀ i, wordBit words i = true ↔ occurs i
  wordCount : words.length = (size + 63) / 64
  bitLen : bitLen.toNat = size
  popcount : popcount.toNat = {i | occurs i}.ncard

theorem Marks.congr {words : List UInt64} {bitLen popcount : UInt64} {occurs occurs' : Nat → Prop}
    (marks : Marks words bitLen popcount size occurs) (same : ∀ i, occurs i ↔ occurs' i) :
    Marks words bitLen popcount size occurs' := by
  obtain rfl : occurs = occurs' := funext fun i => propext (same i)
  exact marks

/-- One pass of `from_csr` over a matrix, for the variables of one kind. -/
theorem setAll_encode (inputs : n < 2 ^ 31) (auxs : m < 2 ^ 31) (small : size < 2 ^ 31)
    {index : Nat → Option Nat} {var : Nat → Index}
    (finds : ∀ v : Index, v.Within n m → ∀ i, index (position n v) = some i ↔ v = var i)
    (bound : ∀ i, (var i).Within n m → i < size) {rows : List (Terms F)}
    (within : ∀ row ∈ rows, Terms.Within n m row) :
    ∃ marked, setAll index (encode (unified n) rows).cols (replicate size false) = .ok marked ∧
      Marks (asRawSlice marked) (UInt64.ofNat size) (countOnes marked) size
        (fun i => ∃ row ∈ rows, ∃ term ∈ row, term.1 = var i) := by
  have withinTerm : ∀ term ∈ rows.flatten, term.1.Within n m := by
    intro term member
    obtain ⟨row, inRows, inRow⟩ := mem_flatten.mp member
    exact within row inRows term inRow
  have found (i : Nat) : (∃ col ∈ (encode (unified n) rows).cols, index col.toNat = some i) ↔
      ∃ row ∈ rows, ∃ term ∈ row, term.1 = var i := by
    simp only [encode, mem_map, exists_exists_and_eq_and]
    constructor
    · rintro ⟨term, member, sets⟩
      rw [unified_toNat (withinTerm term member) inputs auxs,
        finds _ (withinTerm term member)] at sets
      obtain ⟨row, inRows, inRow⟩ := mem_flatten.mp member
      exact ⟨row, inRows, term, inRow, sets⟩
    · rintro ⟨row, inRows, term, inRow, same⟩
      have member : term ∈ rows.flatten := mem_flatten.mpr ⟨row, inRows, inRow⟩
      refine ⟨term, member, ?_⟩
      rw [unified_toNat (withinTerm term member) inputs auxs, finds _ (withinTerm term member)]
      exact same
  have inside : ∀ col ∈ (encode (unified n) rows).cols, ∀ i, index col.toNat = some i →
      i < (replicate size false).length := by
    intro col member i sets
    obtain ⟨row, inRows, term, inRow, same⟩ := (found i).mp ⟨col, member, sets⟩
    rw [length_replicate]
    exact bound i (same ▸ within row inRows term inRow)
  obtain ⟨marked, ran, length, marks⟩ := setAll_marks index _ _ inside
  rw [length_replicate] at length
  have bits (i : Nat) : marked.getD i false = true ↔
      ∃ row ∈ rows, ∃ term ∈ row, term.1 = var i := by
    have unset : ¬(replicate size false).getD i false = true := by
      grind
    rw [marks, found]
    exact or_iff_right unset
  refine ⟨marked, ran, ?_, ?_, ?_, ?_⟩
  · intro i
    rw [asRawSlice_bit, bits]
  · rw [asRawSlice, rawWords_length, length]
  · rw [UInt64.toNat_ofNat', Nat.mod_eq_of_lt (by omega)]
  · have fits : marked.count true < 2 ^ 64 := by
      grind
    rw [countOnes, UInt64.toNat_ofNat', Nat.mod_eq_of_lt fits, count_true]
    simp only [bits]

theorem remapCols_encode {rows : List (Terms F)}
    (small : ∀ row ∈ rows, Terms.Within (2 ^ 31) (2 ^ 31) row) :
    remapCols (UInt32.ofNat n) (encode tagged rows) = encode (unified n) rows := by
  have columns : (rows.flatten.map fun term => tagged term.1).map (unifyCol (UInt32.ofNat n)) =
      rows.flatten.map fun term => unified n term.1 := by
    rw [map_map]
    refine map_congr_left fun term member => ?_
    obtain ⟨row, inRows, inRow⟩ := mem_flatten.mp member
    exact unifyCol_tagged (small row inRows term inRow) n
  unfold remapCols encode
  rw [columns]

end Density

section Assignments

variable {F : Type} [Field F]

theorem allConstraints_within {circuit : Synthesis F} (inScope : circuit.Scoped 1 0) :
    ∀ constraint ∈ circuit.allConstraints,
      constraint.Within (circuit.inputs 1) (circuit.auxs 0) := by
  intro constraint member
  cases mem_append.mp member with
  | inl own => exact constraints_within circuit inScope (le_refl 1) constraint own
  | inr added =>
    obtain ⟨i, inside, rfl⟩ := mem_map.mp added
    refine ⟨?_, ?_, ?_⟩
    · intro term only
      rw [mem_singleton.mp only]
      exact mem_range.mp inside
    · intro term none
      cases none
    · intro term none
      cases none

def assigned (inputs auxs : List F) : Index → F
  | .input i => inputs.getD i 0
  | .aux i => auxs.getD i 0

theorem readAt_assigned {n m : Nat} {inputs auxs : List F} (inputLength : inputs.length = n)
    (auxLength : auxs.length = m) {index : Index} (within : index.Within n m) :
    readAt (inputs ++ auxs) (position n index) = .ok (assigned inputs auxs index) := by
  subst inputLength auxLength
  rw [readAt_eq_ok]
  cases index with
  | input i | aux i => grind [position, assigned, Index.Within]

end Assignments

variable {F : Type} [Field F] [DecidableEq F]

theorem kept_value {assignment : Index → F} {terms : Terms F} :
    Terms.value assignment terms.kept = Terms.value assignment terms := by
  unfold Terms.value Terms.kept
  induction terms with
  | nil => rfl
  | cons term rest ih => grind

def Occurs (side : Constraint F → Terms F) (constraints : List (Constraint F)) (index : Index) :
    Prop :=
  ∃ constraint ∈ constraints, ∃ coeff, coeff ≠ 0 ∧ (index, coeff) ∈ side constraint

theorem occurs_iff {side : Constraint F → Terms F} {constraints : List (Constraint F)}
    {index : Index} :
    (∃ row ∈ constraints.map (fun constraint => (side constraint).kept), ∃ term ∈ row,
      term.1 = index) ↔ Occurs side constraints index := by
  constructor
  · grind [Terms.kept, Occurs]
  · rintro ⟨constraint, member, coeff, nonzero, inSide⟩
    exact ⟨_, mem_map_of_mem member, (index, coeff),
      mem_filter.mpr ⟨inSide, decide_eq_true nonzero⟩, rfl⟩

structure PreComputedDensity.MarksVariables (density : PreComputedDensity)
    (numInputs numAux : Nat) (constraints : List (Constraint F)) : Prop where
  aAux : Marks density.aAuxDensityWords density.aAuxBitLen density.aAuxPopcount numAux
    fun i => Occurs (·.a) constraints (.aux i)
  bInput : Marks density.bInputDensityWords density.bInputBitLen density.bInputPopcount numInputs
    fun i => Occurs (·.b) constraints (.input i)
  bAux : Marks density.bAuxDensityWords density.bAuxBitLen density.bAuxPopcount numAux
    fun i => Occurs (·.b) constraints (.aux i)

abbrev rowsOf (side : Constraint F → Terms F) (constraints : List (Constraint F)) :
    List (Terms F) := constraints.map fun constraint => (side constraint).kept

variable {n m : Nat}

theorem rowsOf_within {side : Constraint F → Terms F} {constraints : List (Constraint F)}
    (within : ∀ constraint ∈ constraints, (side constraint).Within n m) :
    ∀ row ∈ rowsOf side constraints, Terms.Within n m row := by
  intro row member
  obtain ⟨constraint, inside, rfl⟩ := mem_map.mp member
  exact (within constraint inside).kept

theorem fromCsr_marks (inputs : n < 2 ^ 31) (auxs : m < 2 ^ 31) {constraints : List (Constraint F)}
    (within : ∀ constraint ∈ constraints, constraint.Within n m) :
    ∃ density, fromCsr (encode (unified n) (rowsOf (·.a) constraints))
        (encode (unified n) (rowsOf (·.b) constraints)) n m = .ok density ∧
      density.MarksVariables n m constraints := by
  have aWithin := rowsOf_within fun constraint member => (within _ member).1
  have bWithin := rowsOf_within fun constraint member => (within _ member).2.1
  obtain ⟨aAux, aAuxRan, aAuxMarks⟩ := setAll_encode inputs auxs auxs
    (fun v inside i => auxIndex_position inside) (fun i inside => inside) aWithin
  obtain ⟨bInput, bInputRan, bInputMarks⟩ := setAll_encode inputs auxs inputs
    (fun v inside i => inputIndex_position inside) (fun i inside => inside) bWithin
  obtain ⟨bAux, bAuxRan, bAuxMarks⟩ := setAll_encode inputs auxs auxs
    (fun v inside i => auxIndex_position inside) (fun i inside => inside) bWithin
  unfold fromCsr
  rw [aAuxRan, bInputRan, bAuxRan]
  exact ⟨_, rfl, aAuxMarks.congr fun i => occurs_iff,
    bInputMarks.congr fun i => occurs_iff, bAuxMarks.congr fun i => occurs_iff⟩

structure Synthesis.Extractable (circuit : Synthesis F) : Prop where
  inScope : circuit.Scoped 1 0
  inputs : circuit.inputs 1 < 2 ^ 31
  auxs : circuit.auxs 0 < 2 ^ 31
  constraints : circuit.allConstraints.length < 2 ^ 31
  aNonzeros : (rowsOf (·.a) circuit.allConstraints).flatten.length < 2 ^ 32
  bNonzeros : (rowsOf (·.b) circuit.allConstraints).flatten.length < 2 ^ 32
  cNonzeros : (rowsOf (·.c) circuit.allConstraints).flatten.length < 2 ^ 32

theorem extract_eq {circuit : Synthesis F} (extractable : circuit.Extractable) :
    ∃ density : PreComputedDensity,
      extractPrecompiledCircuit circuit = .ok
        { numInputs := UInt32.ofNat (circuit.inputs 1)
          numAux := UInt32.ofNat (circuit.auxs 0)
          numConstraints := UInt32.ofNat circuit.allConstraints.length
          a := encode (unified (circuit.inputs 1)) (rowsOf (·.a) circuit.allConstraints)
          b := encode (unified (circuit.inputs 1)) (rowsOf (·.b) circuit.allConstraints)
          c := encode (unified (circuit.inputs 1)) (rowsOf (·.c) circuit.allConstraints)
          density := density } ∧
        density.MarksVariables (circuit.inputs 1) (circuit.auxs 0) circuit.allConstraints := by
  have within := allConstraints_within extractable.inScope
  have small : ∀ constraint ∈ circuit.allConstraints, constraint.Within (2 ^ 31) (2 ^ 31) :=
    fun constraint member =>
      (within constraint member).mono extractable.inputs.le extractable.auxs.le
  obtain ⟨density, computed, marks⟩ :=
    fromCsr_marks extractable.inputs extractable.auxs within
  refine ⟨density, ?_, marks⟩
  unfold extractPrecompiledCircuit
  rw [new_recorded, synthesize_recorded circuit extractable.inScope (le_refl 1)
    extractable.inputs.le extractable.auxs.le, nil_append, addInputConstraints_recorded,
    ← Synthesis.allConstraints]
  unfold RecordingCS.intoPrecompiled recorded
  dsimp only
  rw [remapCols_encode (rowsOf_within fun constraint member => (small _ member).1),
    remapCols_encode (rowsOf_within fun constraint member => (small _ member).2.1),
    remapCols_encode (rowsOf_within fun constraint member => (small _ member).2.2),
    computed, ok_bind]

theorem side_values (inputs : n < 2 ^ 31) (auxs : m < 2 ^ 31) {side : Constraint F → Terms F}
    {constraints : List (Constraint F)} (small : (rowsOf side constraints).flatten.length < 2 ^ 32)
    (within : ∀ constraint ∈ constraints, (side constraint).Within n m)
    {inputAssignment auxAssignment : List F} (inputLength : inputAssignment.length = n)
    (auxLength : auxAssignment.length = m) :
    spmvParallel (encode (unified n) (rowsOf side constraints))
        (inputAssignment ++ auxAssignment) =
      .ok (constraints.map fun constraint =>
        Terms.value (assigned inputAssignment auxAssignment) (side constraint)) := by
  have found : ∀ row ∈ rowsOf side constraints, ∀ term ∈ row,
      readAt (inputAssignment ++ auxAssignment) (unified n term.1).toNat =
        .ok (assigned inputAssignment auxAssignment term.1) := by
    intro row inRows term inRow
    have inside := rowsOf_within within row inRows term inRow
    rw [unified_toNat inside inputs auxs]
    exact readAt_assigned inputLength auxLength inside
  rw [spmvParallel_encode small found, map_map]
  refine congrArg Except.ok (map_congr_left fun constraint _ => ?_)
  exact kept_value

/-- Extracting a circuit once and evaluating what was extracted gives, for every assignment, the
values of all constraints of the circuit. -/
theorem extracted_evaluates (circuit : Synthesis F) (extractable : circuit.Extractable) :
    ∃ pce, extractPrecompiledCircuit circuit = .ok pce ∧
      (pce.numInputs.toNat = circuit.inputs 1 ∧ pce.numAux.toNat = circuit.auxs 0 ∧
        pce.numConstraints.toNat = circuit.allConstraints.length) ∧
      pce.density.MarksVariables (circuit.inputs 1) (circuit.auxs 0) circuit.allConstraints ∧
      ∀ inputs auxs : List F, inputs.length = circuit.inputs 1 → auxs.length = circuit.auxs 0 →
        evaluatePce pce inputs auxs = .ok
          { a := circuit.allConstraints.map fun constraint =>
              Terms.value (assigned inputs auxs) constraint.a
            b := circuit.allConstraints.map fun constraint =>
              Terms.value (assigned inputs auxs) constraint.b
            c := circuit.allConstraints.map fun constraint =>
              Terms.value (assigned inputs auxs) constraint.c
            inputAssignment := inputs
            auxAssignment := auxs } := by
  obtain ⟨density, extracted, marks⟩ := extract_eq extractable
  have within := allConstraints_within extractable.inScope
  have numInputs : (UInt32.ofNat (circuit.inputs 1)).toNat = circuit.inputs 1 :=
    UInt32.toNat_ofNat_of_lt' (lt_trans extractable.inputs (by decide))
  have numAux : (UInt32.ofNat (circuit.auxs 0)).toNat = circuit.auxs 0 :=
    UInt32.toNat_ofNat_of_lt' (lt_trans extractable.auxs (by decide))
  have numConstraints : (UInt32.ofNat circuit.allConstraints.length).toNat =
      circuit.allConstraints.length :=
    UInt32.toNat_ofNat_of_lt' (lt_trans extractable.constraints (by decide))
  refine ⟨_, extracted, ⟨numInputs, numAux, numConstraints⟩, marks, ?_⟩
  intro inputs auxs inputLength auxLength
  have a := side_values extractable.inputs extractable.auxs
    extractable.aNonzeros (fun constraint member => (within _ member).1) inputLength auxLength
  have b := side_values extractable.inputs extractable.auxs
    extractable.bNonzeros (fun constraint member => (within _ member).2.1) inputLength auxLength
  have c := side_values extractable.inputs extractable.auxs
    extractable.cNonzeros (fun constraint member => (within _ member).2.2) inputLength auxLength
  unfold evaluatePce
  rw [if_neg (not_not.mpr (inputLength.trans numInputs.symm)),
    if_neg (not_not.mpr (auxLength.trans numAux.symm))]
  dsimp only
  rw [a, ok_bind, b, ok_bind, c, ok_bind]

instance sevenPrime : Fact (Nat.Prime 7) := ⟨by decide⟩

/-- A circuit with a child that allocates variables of both kinds; one coefficient is zero. -/
def sampleCircuit : Synthesis (ZMod 7) :=
  .allocInput <| .alloc <| .extend
    (.allocInput <| .alloc <| .enforce ⟨[(0, 1), (1, 2)], []⟩ ⟨[], [(0, 3)]⟩ .zero .done) <|
      .enforce ⟨[(1, 1)], [(0, 0)]⟩ ⟨[], [(1, 5)]⟩ .zero .done

theorem sampleCircuit_extractable : sampleCircuit.Extractable where
  inScope := by
    simp [sampleCircuit, Synthesis.Scoped, Synthesis.inputs, Synthesis.auxs, Terms.Within,
      LinearCombination.terms, LinearCombination.zero, Index.Within]
  inputs := by decide
  auxs := by decide
  constraints := by decide
  aNonzeros := by decide
  bNonzeros := by decide
  cNonzeros := by decide

theorem extracted_evaluates_sample :
    ∃ pce, extractPrecompiledCircuit sampleCircuit = .ok pce ∧
      ∃ result, evaluatePce pce [1, 4, 6] [2, 3] = .ok result ∧
        result.a = [6, 4, 1, 4, 6] ∧ result.b = [2, 1, 0, 0, 0] := by
  obtain ⟨pce, extracted, _, _, evaluates⟩ :=
    extracted_evaluates sampleCircuit sampleCircuit_extractable
  exact ⟨pce, extracted, _, evaluates [1, 4, 6] [2, 3] rfl rfl, by decide, by decide⟩

end Curio.Pce
