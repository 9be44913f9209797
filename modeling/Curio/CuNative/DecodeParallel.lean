import Curio.CuNative.DecodeSdr

/-! The parallel decoder against the sequential reference. -/

namespace Curio.CuNative

open CuNative.Sequential (loop written)
open GoRuntime (Bytes)

open ByteCodec OrderedPipeline List
open Curio.Proof (nodeSize)

variable {len a b shift : Nat} {chunk other : Bytes}

section DecodeBytes

variable {replica key : Bytes}

abbrev decodeNode (_index : Nat) (value k : Bytes) : Fr :=
  blstFrFromUint64 value - blstFrFromUint64 k

@[simp] theorem curioBlstDecode_length (replica key : Bytes) (len : Nat) :
    (curioBlstDecode replica key len).length = len := by
  simp only [curioBlstDecode, length_take, nodeLoop_length, nodeSize]
  omega

theorem curioBlstDecode_add (replica key : Bytes) (count len : Nat) :
    curioBlstDecode replica key (nodeSize * count + len) =
      nodeLoop decodeNode count replica key ++
        curioBlstDecode (replica.drop (nodeSize * count)) (key.drop (nodeSize * count)) len := by
  have nodes : (nodeSize * count + len + (nodeSize - 1)) / nodeSize
      = count + (len + (nodeSize - 1)) / nodeSize := by
    simp only [nodeSize]
    omega
  rw [curioBlstDecode, nodes, nodeLoop_add, ← nodeLoop_length decodeNode count replica key,
    take_length_add_append]
  rfl

@[simp] theorem curioBlstDecode_zero (replica key : Bytes) :
    curioBlstDecode replica key 0 = [] :=
  take_zero

theorem curioBlstDecode_nodes (replica key : Bytes) (count : Nat) :
    curioBlstDecode replica key (nodeSize * count) = nodeLoop decodeNode count replica key := by
  have split := curioBlstDecode_add replica key count 0
  rwa [add_zero, curioBlstDecode_zero, append_nil] at split

theorem curioBlstDecode_split (even : nodeSize ∣ len) (more : Nat) :
    curioBlstDecode replica key (len + more) =
      curioBlstDecode replica key len ++
        curioBlstDecode (replica.drop len) (key.drop len) more := by
  obtain ⟨count, rfl⟩ := even
  rw [curioBlstDecode_add, curioBlstDecode_nodes]

theorem curioBlstDecode_overlay (stale stale' : Bytes) (even : nodeSize ∣ chunk.length)
    (same : other.length = chunk.length) :
    curioBlstDecode (overlay chunk stale) (overlay other stale') chunk.length
      = curioBlstDecode chunk other chunk.length := by
  obtain ⟨count, length⟩ := even
  rw [length, curioBlstDecode_nodes, curioBlstDecode_nodes]
  exact nodeLoop_append _ _ length.ge (same.trans length).ge

end DecodeBytes

theorem fr_sub_val {left right value : Nat} (small : value < frModulus)
    (split : left ≡ right + value [MOD frModulus]) : ((left : Fr) - right).val = value := by
  have equal : (left : Fr) = (right + value : Nat) := (ZMod.natCast_eq_natCast_iff _ _ _).mpr split
  rw [equal, Nat.cast_add, add_sub_cancel_left, ZMod.val_natCast_of_lt small]

theorem leValue_ones (count : Nat) : 255 * leValue (replicate count 1) + 1 = 256 ^ count := by
  induction count with
  | zero => rfl
  | succ count ih =>
    have first : leValue (replicate (count + 1) 1) = 1 + 256 * leValue (replicate count 1) := rfl
    omega

theorem curioBlstDecode_part {replica key : Bytes} (some : 0 < len) (part : len < nodeSize) :
    curioBlstDecode replica key len = leBytes len
      (blstFrFromUint64 (replica.take nodeSize) - blstFrFromUint64 (key.take nodeSize)).val := by
  have single : (len + (nodeSize - 1)) / nodeSize = 1 := by
    unfold nodeSize at part ⊢
    omega
  rw [curioBlstDecode, single, ← leBytes_take _ part.le]
  simp [nodeLoop, nodeAt, blstUint64FromFr]

theorem fr_no_borrow (big : a < shift) (small : b + shift < frModulus) :
    ((a : Fr) - (b + shift : Nat)).val = frModulus + a - (b + shift) := by
  apply fr_sub_val (by omega)
  rw [Nat.add_sub_cancel' (by omega)]
  exact (Nat.ModEq.symm (by simp))

/-- What lies behind a part of a node decides on the borrow, and so on the part's bytes. -/
theorem stale_matters (same : other.length = chunk.length) (some : 0 < chunk.length)
    (part : chunk.length < nodeSize) :
    leBytes chunk.length
        (blstFrFromUint64 (chunk ++ replicate (nodeSize - chunk.length) 1) -
          blstFrFromUint64 (other ++ replicate (nodeSize - chunk.length) 0)).val ≠
      leBytes chunk.length
        (blstFrFromUint64 (chunk ++ replicate (nodeSize - chunk.length) 0) -
          blstFrFromUint64 (other ++ replicate (nodeSize - chunk.length) 1)).val := by
  intro equal
  have low := leValue_lt chunk
  have low' := leValue_lt other
  have ones := leValue_ones (nodeSize - chunk.length)
  rw [same] at low'
  simp only [blstFrFromUint64, leValue_append, leValue_zeros, same, Nat.mul_zero, add_zero] at equal
  generalize leValue chunk = a at low equal
  generalize leValue other = b at low' equal
  generalize leValue (replicate (nodeSize - chunk.length) 1) = high at ones equal
  generalize shifted : 256 ^ chunk.length * high = shift at equal
  -- the stale bytes are above the part, and the two values with them are still below the modulus
  have sum : 255 * shift + 256 ^ chunk.length = 256 ^ nodeSize := by
    calc
      255 * shift + 256 ^ chunk.length = 256 ^ chunk.length * (255 * high + 1) := by
        rw [← shifted]
        ring
      _ = 256 ^ (chunk.length + (nodeSize - chunk.length)) := by rw [ones, pow_add]
      _ = 256 ^ nodeSize := by rw [Nat.add_sub_cancel' part.le]
  have short : 256 ^ chunk.length ≤ 256 ^ (nodeSize - 1) :=
    Nat.pow_le_pow_right (by decide) (Nat.le_sub_one_of_lt part)
  have above : 256 ^ chunk.length ≤ shift := by
    grind [nodeSize]
  have bound : 2 * shift < frModulus := by
    norm_num [nodeSize] at sum
    norm_num [frModulus]
    omega
  rw [fr_sub_val (by omega : a + shift - b < frModulus) (by rw [Nat.add_sub_cancel' (by omega)]),
    fr_no_borrow (by omega) (by omega)] at equal
  have values := congrArg leValue equal
  rw [leValue_leBytes_mod, leValue_leBytes_mod] at values
  have sums : frModulus + (a + shift - b) = frModulus + a - (b + shift) + 2 * shift := by omega
  have divides : 256 ^ chunk.length ∣ 2 * shift := Dvd.dvd.mul_left ⟨high, shifted.symm⟩ 2
  have cancelled : frModulus + (a + shift - b) ≡ 0 + (a + shift - b) [MOD 256 ^ chunk.length] := by
    rw [sums, zero_add]
    calc
      frModulus + a - (b + shift) + 2 * shift ≡ frModulus + a - (b + shift) + 0
          [MOD 256 ^ chunk.length] := (Nat.modEq_zero_iff_dvd.mpr divides).add_left _
      _ ≡ a + shift - b [MOD 256 ^ chunk.length] := Nat.ModEq.symm values
  have power : 256 ^ chunk.length ∣ frModulus :=
    Nat.modEq_zero_iff_dvd.mp (cancelled.add_right_cancel' _)
  have even : 2 ∣ frModulus :=
    ((by decide : 2 ∣ 256).trans (dvd_pow_self 256 some.ne')).trans power
  exact absurd even (by decide)

section Written

variable {bufSz : Nat} {first second : Source} {pairs : List (Bytes × Bytes)}
  {ending : Option IoError}

def decodePair (pair : Bytes × Bytes) : Bytes :=
  curioBlstDecode pair.1 pair.2 pair.1.length

theorem Chunks.decode (chunks : Chunks bufSz first second pairs ending) (positive : 0 < bufSz)
    (divides : nodeSize ∣ bufSz) (even : nodeSize ∣ readTotal bufSz first second) :
    (pairs.map decodePair).flatten
      = curioBlstDecode first.bytes second.bytes (readTotal bufSz first second) := by
  have joined := chunks.nodeLoop positive divides even decodeNode
  rw [← curioBlstDecode_nodes, Nat.mul_div_cancel' even] at joined
  rw [← joined]
  congr 1
  apply ext_getElem (by simp)
  intro index _ inRange
  obtain ⟨nodes, -⟩ := chunks.even positive divides even _ (getElem_mem (by simpa using inRange))
  rw [getElem_map, getElem_mapIdx, chunkLoop, ← curioBlstDecode_nodes,
    Nat.mul_div_cancel' nodes, decodePair]

theorem loop_length (readErr : Option IoError) (chunkID : Nat) (rbuf kbuf : Bytes) :
    (loop (fun _ => none) readErr chunkID rbuf kbuf pairs).1.length
      = (pairs.map fun pair => pair.1.length).sum := by
  induction pairs generalizing chunkID rbuf kbuf with
  | nil => rfl
  | cons pair rest ih => simp [loop, ih]

theorem loop_even (readErr : Option IoError) (chunkID : Nat) (rbuf kbuf : Bytes)
    (even : Even pairs) :
    (loop (fun _ => none) readErr chunkID rbuf kbuf pairs).1 = (pairs.map decodePair).flatten := by
  induction pairs generalizing chunkID rbuf kbuf with
  | nil => rfl
  | cons pair rest ih =>
    obtain ⟨nodes, same⟩ := even pair mem_cons_self
    have later := ih (chunkID + 1) (overlay pair.1 rbuf) (overlay pair.2 kbuf)
      (forall_mem_cons.mp even).2
    rw [map_cons, flatten_cons, ← later, decodePair, ← curioBlstDecode_overlay rbuf kbuf nodes same]
    rfl

def decodedIn (pool : Pool) (pairs : List (Bytes × Bytes)) : Bytes :=
  ((jobsOf pool pairs).mapIdx fun _ j => curioBlstDecode j.rbuf j.kbuf j.size).flatten

theorem decodedIn_length (pool : Pool) (pairs : List (Bytes × Bytes)) :
    (decodedIn pool pairs).length = (pairs.map fun pair => pair.1.length).sum := by
  rw [decodedIn, jobsOf, length_flatten]
  congr 1
  apply ext_getElem (by simp)
  intro index _ _
  simp

theorem decodedIn_even {pool : Pool} (even : Even pairs) :
    decodedIn pool pairs = (pairs.map decodePair).flatten := by
  rw [decodedIn, jobsOf]
  congr 1
  apply ext_getElem (by simp)
  intro index inRange _
  have inside : index < pairs.length := by simpa using inRange
  obtain ⟨nodes, same⟩ := even _ (getElem_mem inside)
  simp only [getElem_mapIdx, getElem_map]
  exact curioBlstDecode_overlay _ _ nodes same

theorem decodedIn_concat (pool : Pool) (front : List (Bytes × Bytes))
    (pair : Bytes × Bytes) :
    decodedIn pool (front ++ [pair]) = decodedIn pool front ++
      curioBlstDecode (overlay pair.1 (pool.get (2 * front.length)))
        (overlay pair.2 (pool.get (2 * front.length + 1))) pair.1.length := by
  simp [decodedIn, jobsOf]

end Written

theorem overlay_last (stale : UInt8) (short : chunk.length < bufSz) :
    ((overlay chunk (replicate bufSz stale)).drop (nodeSize * (chunk.length / nodeSize))).take
        nodeSize =
      chunk.drop (nodeSize * (chunk.length / nodeSize)) ++
        replicate (nodeSize - chunk.length % nodeSize) stale := by
  have divided := Nat.div_add_mod chunk.length nodeSize
  have below : chunk.length % nodeSize < nodeSize := Nat.mod_lt _ (by decide)
  obtain ⟨count, nodes⟩ := even_bufSz
  have room : nodeSize - chunk.length % nodeSize ≤ bufSz - chunk.length := by
    unfold nodeSize at *
    omega
  rw [overlay, drop_append_of_le_length (by omega), take_append, drop_replicate,
    take_replicate, length_drop, take_of_length_le (by rw [length_drop]; omega)]
  congr 2
  omega

/-- With a part of a node at its end, a chunk is decoded differently in different buffers. -/
theorem uneven_differs (short : chunk.length < bufSz) (uneven : ¬ nodeSize ∣ chunk.length)
    (same : other.length = chunk.length) :
    curioBlstDecode (overlay chunk (replicate bufSz 1)) (overlay other (replicate bufSz 0))
        chunk.length ≠
      curioBlstDecode (overlay chunk (replicate bufSz 0))
        (overlay other (replicate bufSz 1)) chunk.length := by
  intro equal
  have divided := Nat.div_add_mod chunk.length nodeSize
  have below : chunk.length % nodeSize < nodeSize := Nat.mod_lt _ (by decide)
  have some : 0 < chunk.length % nodeSize := pos_of_ne_zero fun zero =>
    uneven (Nat.dvd_of_mod_eq_zero zero)
  have whole : nodeSize ∣ nodeSize * (chunk.length / nodeSize) := dvd_mul_right _ _
  -- only the last node is of interest
  rw [← divided, curioBlstDecode_split whole, curioBlstDecode_split whole] at equal
  have last := append_inj_right equal (by simp)
  rw [curioBlstDecode_part some below, curioBlstDecode_part some below] at last
  have chunkLast := fun stale => @overlay_last chunk stale short
  have otherLast := fun stale => @overlay_last other stale (same ▸ short)
  rw [same] at otherLast
  rw [chunkLast, otherLast, chunkLast, otherLast] at last
  have length : (chunk.drop (nodeSize * (chunk.length / nodeSize))).length
      = chunk.length % nodeSize := by
    rw [length_drop]
    omega
  have length' : (other.drop (nodeSize * (chunk.length / nodeSize))).length
      = chunk.length % nodeSize := by
    rw [length_drop]
    omega
  have differs := stale_matters (length'.trans length.symm) (length.symm ▸ some) (length.symm ▸ below)
  rw [length] at differs
  exact differs last

/-- A pool whose buffers for the first stream hold one byte and those for the second another. -/
def filledPool (rbyte kbyte : UInt8) : Pool where
  get := fun count => replicate bufSz (if count % 2 = 0 then rbyte else kbyte)
  length_get := fun _ => length_replicate

variable {numCPU : Nat} {replica key : Source}

/-- `Decode` does what the reference does: in every run, with every content of its buffers and
every writer. -/
def DecodesAsReference (numCPU : Nat) (replica key : Source) : Prop :=
  ∀ pool write, (decode numCPU pool write replica key).Delivers (written replica key)

/-- There are workers, or there is nothing to decode. A replica that is read completely has whole
nodes, and does not break off behind a whole chunk. A replica that is not read completely is cut
off at the same place by both decoders. -/
def SameAsReference (numCPU : Nat) (replica key : Source) : Prop :=
  if numCPU < 2 then
    (replica.ending = .eof ∨ replica.ending = .unexpectedEOF) ∧ replica.bytes = []
  else if Complete replica key then
    nodeSize ∣ replica.bytes.length ∧
      ¬ (replica.ending = .unexpectedEOF ∧ bufSz ∣ replica.bytes.length)
  else min replica.bytes.length key.bytes.length / Sequential.bufSz % 4 = 0

theorem written_length (replica key : Source) :
    (written replica key).length = readTotal Sequential.bufSz replica key := by
  rw [written, Sequential.decode, loop_length]
  exact (readPairs_chunks Sequential.bufSz replica key).sum_lengths (NeZero.pos _)

theorem readTotal_eq (partly : ¬ Complete replica key) :
    readTotal bufSz replica key = readTotal Sequential.bufSz replica key ↔
      min replica.bytes.length key.bytes.length / Sequential.bufSz % 4 = 0 := by
  have large : bufSz = 4194304 := rfl
  have small : Sequential.bufSz = 1048576 := rfl
  rw [readTotal, readTotal, if_neg partly, if_neg partly, large, small]
  omega

theorem decode_roomy (pool : Pool) (write : Nat → Option (Nat × IoError)) :
    (decode numCPU pool write replica key).Roomy :=
  fun staffed => ⟨staffed, staffed⟩

theorem decode_unstaffed (few : numCPU < 2) :
    DecodesAsReference numCPU replica key ↔
      (replica.ending = .eof ∨ replica.ending = .unexpectedEOF) ∧ replica.bytes = [] := by
  have unstaffed : nWorkers numCPU = 0 := Nat.div_eq_of_lt few
  have chunks := readPairs_chunks bufSz replica key
  constructor
  · intro same
    obtain ⟨nothing, quiet⟩ := (same (filledPool 0 0) fun _ => none).unstaffed unstaffed
    have total := written_length replica key
    rw [nothing, length_nil] at total
    by_cases complete : Complete replica key
    · rw [readTotal, if_pos complete] at total
      exact ⟨complete.1, length_eq_zero_iff.mp total.symm⟩
    · -- then nothing is sent to the workers either, and the reader's error has no receiver
      have zero : min replica.bytes.length key.bytes.length / Sequential.bufSz = 0 := by
        rw [readTotal, if_neg complete] at total
        exact (mul_eq_zero.mp total.symm).resolve_left (NeZero.ne _)
      have none : readTotal bufSz replica key = 0 := by
        rw [(readTotal_eq complete).mpr (by rw [zero]), ← total]
      have empty : (readPairs bufSz replica key).1 = [] := by
        rw [← chunks.sum_lengths (NeZero.pos _), sum_eq_zero_iff] at none
        apply eq_nil_iff_forall_not_mem.mpr
        intro pair member
        have short := none _ (mem_map_of_mem member)
        have broken := (chunks.exists_empty (NeZero.pos _)).mp
          ⟨pair, member, length_eq_zero_iff.mp short⟩
        exact complete broken.1
      have jobless : (decode numCPU (filledPool 0 0) (fun _ => Option.none) replica key).jobs = [] := by
        show jobsOf _ (readPairs bufSz replica key).1 = []
        rw [empty]
        rfl
      exact absurd (chunks.ending_eq_none.mp (quiet jobless)) complete
  · rintro ⟨clean, empty⟩
    have complete : Complete replica key := ⟨clean, by simp [empty]⟩
    have nothing : written replica key = [] := by
      rw [← length_eq_zero_iff, written_length, readTotal, if_pos complete, empty]
      rfl
    intro pool write
    rw [nothing]
    exact delivers_nothing (decode_roomy pool write) unstaffed (chunks.ending_eq_none.mpr complete)

theorem worker_jobsOf (pool : Pool) {pairs : List (Bytes × Bytes)}
    (filled : ∀ pair ∈ pairs, pair.1 ≠ []) (chunkID : Nat) (j : Job)
    (found : (jobsOf pool pairs)[chunkID]? = some j) :
    worker chunkID j = some (curioBlstDecode j.rbuf j.kbuf j.size) := by
  grind [worker, jobsOf]

theorem decode_staffed (enough : ¬ numCPU < 2) :
    DecodesAsReference numCPU replica key ↔
      (∀ pair ∈ (readPairs bufSz replica key).1, pair.1 ≠ []) ∧
        ∀ pool, written replica key = decodedIn pool (readPairs bufSz replica key).1 := by
  have staffed : 0 < nWorkers numCPU := Nat.div_pos (Nat.le_of_not_lt enough) (by decide)
  constructor
  · intro same
    have made := fun pool => (same pool fun _ => none).made (decode_roomy pool _) staffed fun _ => rfl
    have filled : ∀ pair ∈ (readPairs bufSz replica key).1, pair.1 ≠ [] := by
      intro pair member empty
      obtain ⟨index, inside, rfl⟩ := mem_iff_getElem.mp member
      obtain ⟨data, j, found, worked⟩ := (made (filledPool 0 0)).1 index (by simpa [decode, jobsOf])
      change (jobsOf _ _)[index]? = some j at found
      rw [jobsOf, getElem?_mapIdx, getElem?_eq_getElem inside] at found
      cases found
      simp [decode, worker, empty] at worked
    refine ⟨filled, fun pool => ?_⟩
    rw [(made pool).2]
    exact Pipeline.output_all (worker_jobsOf pool filled) fun _ _ => rfl
  · rintro ⟨filled, same⟩ pool write
    rw [same pool]
    exact delivers (decode_roomy pool write) staffed (worker_jobsOf pool filled)

theorem written_even (even : nodeSize ∣ readTotal Sequential.bufSz replica key) :
    written replica key
      = curioBlstDecode replica.bytes key.bytes (readTotal Sequential.bufSz replica key) := by
  have chunks := readPairs_chunks Sequential.bufSz replica key
  have divides : nodeSize ∣ Sequential.bufSz := by decide
  rw [written, Sequential.decode,
    loop_even _ _ _ _ (chunks.even (NeZero.pos _) divides even),
    chunks.decode (NeZero.pos _) divides even]

theorem decodedIn_readPairs {pool : Pool} (even : nodeSize ∣ readTotal bufSz replica key) :
    decodedIn pool (readPairs bufSz replica key).1
      = curioBlstDecode replica.bytes key.bytes (readTotal bufSz replica key) := by
  have chunks := readPairs_chunks bufSz replica key
  rw [decodedIn_even (chunks.even (NeZero.pos _) even_bufSz even),
    chunks.decode (NeZero.pos _) even_bufSz even]

/-- A part of a node at the end is not decoded the same way in every buffer. -/
theorem even_of_decodedIn {data : Bytes} (complete : Complete replica key)
    (same : ∀ pool, data = decodedIn pool (readPairs bufSz replica key).1) :
    nodeSize ∣ replica.bytes.length := by
  by_contra uneven
  have chunks := readPairs_chunks bufSz replica key
  have lengths := chunks.lengths
  obtain ⟨front, pair, pairs, short, odd⟩ := chunks.last even_bufSz complete uneven
  rw [pairs] at same lengths
  have equal := (same (filledPool 1 0)).symm.trans (same (filledPool 0 1))
  rw [decodedIn_concat, decodedIn_concat] at equal
  have last := append_inj_right equal (by rw [decodedIn_length, decodedIn_length])
  have differs := uneven_differs short odd (lengths pair (by simp)).1
  simp only [filledPool, Nat.mul_mod_right, Nat.mul_add_mod_self_left] at last
  exact differs last

theorem decodes_as_reference_iff :
    DecodesAsReference numCPU replica key ↔ SameAsReference numCPU replica key := by
  have chunks := readPairs_chunks bufSz replica key
  have broken := chunks.exists_empty (NeZero.pos _)
  unfold SameAsReference
  split
  · rename_i few
    exact decode_unstaffed few
  · rename_i enough
    rw [decode_staffed enough]
    split
    · rename_i complete
      have total : readTotal bufSz replica key = replica.bytes.length := if_pos complete
      have total' : readTotal Sequential.bufSz replica key = replica.bytes.length := if_pos complete
      constructor
      · rintro ⟨filled, same⟩
        refine ⟨even_of_decodedIn complete same, fun cut => ?_⟩
        obtain ⟨pair, member, empty⟩ := broken.mpr ⟨complete, cut⟩
        exact filled pair member empty
      · rintro ⟨even, uncut⟩
        refine ⟨fun pair member empty => uncut (broken.mp ⟨pair, member, empty⟩).2, fun pool => ?_⟩
        rw [written_even (total' ▸ even), decodedIn_readPairs (total ▸ even), total, total']
    · rename_i partly
      rw [← readTotal_eq partly]
      constructor
      · rintro ⟨_, same⟩
        have lengths := congrArg length (same (filledPool 0 0))
        rw [written_length, decodedIn_length, chunks.sum_lengths (NeZero.pos _)] at lengths
        exact lengths.symm
      · intro totals
        have even : nodeSize ∣ readTotal bufSz replica key := by
          rw [readTotal, if_neg partly]
          exact even_bufSz.mul_right _
        refine ⟨fun pair member empty => partly (broken.mp ⟨pair, member, empty⟩).1, fun pool => ?_⟩
        rw [written_even (totals ▸ even), decodedIn_readPairs even, totals]

/-- On a machine with one CPU there are no workers: a node of zeros is lost without an error. -/
theorem single_cpu_loses_node :
    let node : Source := { bytes := replicate 32 0 }
    let pipeline := decode 1 (filledPool 0 0) (fun _ => none) node node
    (∃ actions state, StepMachine.run pipeline.step pipeline.init actions = some state ∧
      state.outcome = .returned none ∧ state.writer.out = []) ∧
    (Sequential.written node node).length = 32 ∧ ¬ DecodesAsReference 1 node node := by
  intro node pipeline
  have length : (Sequential.written node node).length = 32 := by
    rw [written_length]
    rfl
  refine ⟨⟨_, run_idle rfl⟩, length, fun same => ?_⟩
  have nothing := ((same (filledPool 0 0) fun _ => none).unstaffed rfl).1
  rw [nothing] at length
  cases length

end Curio.CuNative
