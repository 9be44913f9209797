import Curio.Proof.TreeD

/-! Every run of `BuildTreeD` over data of the exact size writes the plain tree: what is written
agrees with it at any time, and once the call returns without an error the whole file is it. -/

namespace Curio.Proof

open GoRuntime BinaryMerkle FileWrites StepMachine List

variable {bytes : Bytes} {i count level k layer index : Nat} {jobs : List Job} {job : Job}

section Chunks

variable {Cid : Type} (call : TreeDCall Cid) (height : Nat) (whole : Bytes)

def TreeDCall.rawSize (padded : Nat) : Nat :=
  if call.unpaddedData then call.ext.unpadded padded else padded

/-- A size that is a power of two from 128 on and fits a file, and data of exactly that size. -/
structure TreeDCall.Exact : Prop where
  documented : call.ext.Documented
  size : call.size = 2 ^ (height + 5)
  large : 2 ≤ height
  small : height ≤ 57
  length : whole.length = call.rawSize call.size

def chunkHeight : Nat := min 15 height

theorem chunkHeight_le : chunkHeight height ≤ height := min_le_right _ _

theorem chunks_mul {below : Nat} (inside : below ≤ chunkHeight height) :
    2 ^ (height - chunkHeight height) * 2 ^ (chunkHeight height - below) = 2 ^ (height - below) := by
  have small := chunkHeight_le height
  rw [← Nat.pow_add]
  congr 1
  omega

def TreeDCall.leaf (i : Nat) : Node := cell (call.leaves whole) i

def TreeDCall.chunk (k : Nat) : Bytes :=
  (whole.drop (k * call.rawSize (2 ^ (chunkHeight height + 5)))).take
    (call.rawSize (2 ^ (chunkHeight height + 5)))

def TreeDCall.chunkLevels (k : Nat) : List (List Node) :=
  levels call.ext.parent (fun i => call.leaf whole (k * 2 ^ chunkHeight height + i))
    (chunkHeight height)

variable {call height whole}

theorem toNodes_length (bytes : Bytes) : (toNodes bytes).length = bytes.length / nodeSize := by
  simp [toNodes]

theorem cell_toNodes (inside : i < bytes.length / nodeSize) :
    cell (toNodes bytes) i = Vector.ofFn (fun j => bytes.getD (nodeSize * i + j.val) 0) := by
  simp [cell, toNodes, inside]

theorem cell_toNodes_section {start : Nat} (fits : nodeSize * (start + count) ≤ bytes.length)
    (inside : i < count) :
    cell (toNodes ((bytes.drop (nodeSize * start)).take (nodeSize * count))) i =
      cell (toNodes bytes) (start + i) := by
  simp only [nodeSize] at fits ⊢
  have length : ((bytes.drop (32 * start)).take (32 * count)).length = 32 * count := by
    rw [length_take, length_drop]
    omega
  rw [cell_toNodes (by rw [length]; simp only [nodeSize]; omega),
    cell_toNodes (by simp only [nodeSize]; omega)]
  simp only [nodeSize]
  grind

namespace TreeDCall.Exact

variable (exact : call.Exact height whole)
include exact

theorem chunkHeight_large : 2 ≤ chunkHeight height := by
  have large := exact.large
  simp only [chunkHeight]
  omega

theorem rawSize_eq (large : 2 ≤ level) (small : level ≤ height) :
    call.rawSize (2 ^ (level + 5)) =
      if call.unpaddedData then 127 * 2 ^ (level - 2) else nodeSize * 2 ^ level := by
  obtain ⟨m, rfl⟩ := Nat.exists_eq_add_of_le' large
  have bound : 2 ^ (m + 2) ≤ 2 ^ 57 :=
    Nat.pow_le_pow_right (by decide) (Nat.le_trans small exact.small)
  have quarter : 2 ^ (m + 2) = 4 * 2 ^ m := by
    rw [Nat.pow_add, Nat.mul_comm]
  have blocks : nodeSize * 2 ^ (m + 2) = 128 * 2 ^ m := by
    simp only [nodeSize]
    omega
  rw [TreeDCall.rawSize, two_pow_leaves, Nat.add_sub_cancel]
  by_cases unpadded : call.unpaddedData = true
  · rw [if_pos unpadded, if_pos unpadded, blocks,
      exact.documented.unpadded_blocks (2 ^ m) (by omega)]
  · rw [if_neg unpadded, if_neg unpadded]

theorem rawSize_pos : 0 < call.rawSize (2 ^ (chunkHeight height + 5)) := by
  rw [exact.rawSize_eq exact.chunkHeight_large (chunkHeight_le height)]
  by_cases unpadded : call.unpaddedData = true
  · grind
  · grind [nodeSize]

theorem size_eq : call.size = 2 ^ (height - chunkHeight height) * 2 ^ (chunkHeight height + 5) := by
  rw [exact.size, ← Nat.pow_add, ← Nat.add_assoc, Nat.sub_add_cancel (chunkHeight_le height)]

theorem whole_length :
    whole.length = 2 ^ (height - chunkHeight height) * call.rawSize (2 ^ (chunkHeight height + 5)) := by
  rw [exact.length, exact.size, exact.rawSize_eq exact.large (Nat.le_refl height),
    exact.rawSize_eq exact.chunkHeight_large (chunkHeight_le height)]
  by_cases unpadded : call.unpaddedData = true
  · rw [if_pos unpadded, if_pos unpadded, Nat.mul_left_comm, chunks_mul height exact.chunkHeight_large]
  · have all := chunks_mul height (Nat.zero_le _)
    grind

theorem leaves_chunk (inside : k < 2 ^ (height - chunkHeight height)) :
    (call.leaves (call.chunk height whole k)).length = 2 ^ chunkHeight height ∧
      ∀ i < 2 ^ chunkHeight height, cell (call.leaves (call.chunk height whole k)) i =
        call.leaf whole (k * 2 ^ chunkHeight height + i) := by
  have total := exact.whole_length
  have chunkSize := exact.rawSize_eq exact.chunkHeight_large (chunkHeight_le height)
  have room : (k + 1) * call.rawSize (2 ^ (chunkHeight height + 5)) ≤ whole.length := by
    rw [total]
    exact Nat.mul_le_mul_right _ inside
  have length : (call.chunk height whole k).length =
      call.rawSize (2 ^ (chunkHeight height + 5)) := by
    rw [Nat.add_mul] at room
    rw [TreeDCall.chunk, length_take, length_drop]
    omega
  unfold TreeDCall.leaf TreeDCall.leaves
  by_cases unpadded : call.unpaddedData = true
  · rw [if_pos unpadded, if_pos unpadded]
    rw [if_pos unpadded] at chunkSize
    have quarter : 4 * 2 ^ (chunkHeight height - 2) = 2 ^ chunkHeight height := by
      rw [Nat.mul_comm, show 4 = 2 ^ 2 from rfl, ← Nat.pow_add,
        Nat.sub_add_cancel exact.chunkHeight_large]
    rw [chunkSize] at length total room
    constructor
    · rw [exact.documented.pad_length _ _ length, quarter]
    · intro i within
      have blocks : whole.length = 127 * (2 ^ (height - chunkHeight height) *
          2 ^ (chunkHeight height - 2)) := by
        rw [total]
        ring
      have place := cell_pad_section exact.documented blocks
        (by rw [← Nat.succ_mul]; exact Nat.mul_le_mul_right _ inside :
          k * 2 ^ (chunkHeight height - 2) + 2 ^ (chunkHeight height - 2) ≤ _)
        (by omega : i < 4 * 2 ^ (chunkHeight height - 2))
      rw [TreeDCall.chunk, chunkSize, Nat.mul_left_comm, place, Nat.mul_left_comm, quarter]
  · rw [if_neg unpadded, if_neg unpadded]
    rw [if_neg unpadded] at chunkSize
    rw [chunkSize] at length room
    constructor
    · rw [toNodes_length, length, Nat.mul_div_cancel_left _ (by decide)]
    · intro i within
      rw [TreeDCall.chunk, chunkSize, Nat.mul_left_comm,
        cell_toNodes_section (by rw [← Nat.succ_mul, Nat.mul_left_comm]; exact room) within]

end TreeDCall.Exact

theorem chunkLevels_row (k : Nat) (inside : layer ≤ chunkHeight height) :
    (call.chunkLevels height whole k)[layer]? =
      some (treeNodes call.ext (call.leaf whole) layer (k * 2 ^ (chunkHeight height - layer))
        (2 ^ (chunkHeight height - layer))) := by
  have row : (call.chunkLevels height whole k)[layer]? =
      some ((range (2 ^ (chunkHeight height - layer))).map
        (node call.ext.parent (fun i => call.leaf whole (k * 2 ^ chunkHeight height + i)) layer)) := by
    simp [TreeDCall.chunkLevels, levels, Nat.lt_succ_of_le inside]
  rw [row]
  congr 1
  apply map_congr_left
  intro i _
  rw [node_shift call.ext.parent (call.leaf whole) (chunkHeight height) k layer i inside]

theorem chunkLevels_length (k : Nat) :
    (call.chunkLevels height whole k).length = chunkHeight height + 1 := levels_length _ _ _

end Chunks

section Tasks

variable {Cid : Type} (call : TreeDCall Cid) (height : Nat) (whole : Bytes)

def TreeDCall.chunkWrite (k layer : Nat) : Write UInt8 where
  offset := layerStart height layer + nodeSize * (k * 2 ^ (chunkHeight height - layer))
  data := nodeBytes (treeNodes call.ext (call.leaf whole) layer
    (k * 2 ^ (chunkHeight height - layer)) (2 ^ (chunkHeight height - layer)))

def TreeDCall.layerWrite (layer : Nat) : Write UInt8 where
  offset := layerStart height layer
  data := nodeBytes (treeNodes call.ext (call.leaf whole) layer 0 (2 ^ (height - layer)))

def Job.startOffset : Job → Nat
  | .loaded startOffset _ _ => startOffset
  | .hashed startOffset _ => startOffset
  | .writing startOffset _ _ _ => startOffset

def Job.progress : Job → Nat
  | .loaded _ _ _ => 0
  | .hashed _ _ => 1
  | .writing _ layer _ _ => layer + 2

/-- A worker on one of the first `count` chunks, with what belongs into its buffers. -/
def TreeDCall.JobFits (count : Nat) (job : Job) : Prop :=
  ∃ k < count, job.startOffset = k * 2 ^ (chunkHeight height + 5) ∧
    match job with
    | .loaded _ raw upper => raw = call.chunk height whole k ∧
        ∀ bottom, bottom.length = 2 ^ chunkHeight height →
          Stacked (chunkHeight height) (bottom :: upper)
    | .hashed _ levels => levels = call.chunkLevels height whole k
    | .writing startOffset layer offsetInLayer levels => levels = call.chunkLevels height whole k ∧
        offsetInLayer = startOffset / 2 ^ layer ∧ layer ≤ chunkHeight height + 1

def Pending (jobs : List Job) (k task : Nat) : Prop :=
  ∃ job ∈ jobs, job.startOffset = k * 2 ^ (chunkHeight height + 5) ∧ job.progress ≤ task

def TreeDCall.Done (state : TreeD Cid) (k : Nat) : Nat → Prop
  | 0 => True
  | 1 => cell (cell state.apexBuf 0) k =
      node call.ext.parent (call.leaf whole) (chunkHeight height) k
  | layer + 2 => call.chunkWrite height whole k layer ∈ state.writes

variable {height}
variable {k task : Nat}

theorem Pending.append {more : List Job} (pending : Pending height jobs k task) :
    Pending height (jobs ++ more) k task := by
  grind [Pending]

theorem Pending.set {next : Job} (found : jobs[index]? = some job)
    (start : next.startOffset = job.startOffset) (further : next.progress = job.progress + 1)
    (pending : Pending height jobs k task) :
    Pending height (jobs.set index next) k task ∨
      job.startOffset = k * 2 ^ (chunkHeight height + 5) ∧ task = job.progress := by
  obtain ⟨other, member, own, behind⟩ := pending
  obtain ⟨i, here⟩ := mem_iff_getElem?.mp member
  have bound : index < jobs.length := (List.getElem?_eq_some_iff.mp found).1
  by_cases same : i = index
  · subst same
    cases found.symm.trans here
    by_cases now : task = job.progress
    · exact Or.inr ⟨own, now⟩
    · refine Or.inl ⟨next, mem_set bound _, start.trans own, ?_⟩
      omega
  · refine Or.inl ⟨other, mem_iff_getElem?.mpr ⟨i, ?_⟩, own, behind⟩
    rw [getElem?_set_ne (Ne.symm same)]
    exact here

theorem Pending.erase (found : jobs[index]? = some job) (through : task < job.progress)
    (pending : Pending height jobs k task) :
    Pending height (jobs.eraseIdx index) k task := by
  obtain ⟨other, member, own, behind⟩ := pending
  obtain ⟨i, here⟩ := mem_iff_getElem?.mp member
  refine ⟨other, mem_eraseIdx_iff_getElem?.mpr ⟨i, ?_, here⟩, own, behind⟩
  grind

end Tasks

variable {Cid : Type} (call : TreeDCall Cid) (height : Nat) (whole : Bytes) (threads : Nat)
  {quiet : Prop} {apexLayer : Nat} {move : Move}

def TreeDCall.tree : Bytes := plainTree call.ext (call.leaf whole) height

def TreeDCall.root : Node := node call.ext.parent (call.leaf whole) height 0

structure TreeDCall.Dispatching (state : TreeD Cid) (count : Nat) : Prop where
  few : count ≤ 2 ^ (height - chunkHeight height)
  processed : state.processed = count * 2 ^ (chunkHeight height + 5)
  data : state.data = ⟨whole.drop (count * call.rawSize (2 ^ (chunkHeight height + 5))), none⟩
  buffers : ∀ buffer ∈ state.workerBuffers, Stacked (chunkHeight height) buffer
  apex : Stacked (height - chunkHeight height) state.apexBuf
  fits : ∀ job ∈ state.jobs, call.JobFits height whole count job
  workers : state.oerr = [] → state.workerBuffers.length + state.jobs.length = threads
  tasks : state.oerr = [] → ∀ k < count, ∀ task < chunkHeight height + 3,
    Pending height state.jobs k task ∨ call.Done height whole state k task

def TreeDCall.ChunksWritten (state : TreeD Cid) : Prop :=
  ∀ k < 2 ^ (height - chunkHeight height), ∀ layer ≤ chunkHeight height,
    call.chunkWrite height whole k layer ∈ state.writes

structure TreeDCall.AtApex (state : TreeD Cid) (threadLayers apexLayer : Nat) : Prop where
  layers : threadLayers = chunkHeight height + 1
  hashed : state.apexBuf = levels call.ext.parent
    (node call.ext.parent (call.leaf whole) (chunkHeight height)) (height - chunkHeight height)
  low : 1 ≤ apexLayer
  high : apexLayer ≤ height - chunkHeight height + 1
  chunks : call.ChunksWritten height whole state
  written : ∀ layer, 1 ≤ layer → layer < apexLayer →
    call.layerWrite height whole (chunkHeight height + layer) ∈ state.writes

/-- A returned CID is that of the root, and every layer is written. -/
def TreeDCall.Returned (state : TreeD Cid) (result : Go Cid) : Prop :=
  ∀ commD, result = .ok commD → call.dataCommitmentV1ToCID (call.root height whole) = .ok commD ∧
    call.ChunksWritten height whole state ∧
    ∀ layer, 1 ≤ layer → layer ≤ height - chunkHeight height →
      call.layerWrite height whole (chunkHeight height + layer) ∈ state.writes

/-- What holds in every state of a run; `quiet` says that no write has failed. -/
structure TreeDCall.Runs (quiet : Prop) (state : TreeD Cid) : Prop where
  file : Written (call.tree height whole) state.out state.writes
  clean : quiet → state.oerr = []
  phase : match state.phase with
    | .dispatching => ∃ count, call.Dispatching height whole threads state count
    | .apex threadLayers apexLayer => call.AtApex height whole state threadLayers apexLayer
    | .returned result => call.Returned height whole state result ∧
        (quiet → result = ofCall (call.dataCommitmentV1ToCID (call.root height whole)))

variable {call height whole threads}

theorem chunkWrite_agrees (inside : k < 2 ^ (height - chunkHeight height))
    (below : layer ≤ chunkHeight height) :
    (call.chunkWrite height whole k layer).Agrees (call.tree height whole) := by
  apply treeNodes_agrees (Nat.le_trans below (chunkHeight_le height))
  rw [← chunks_mul height below, ← Nat.succ_mul]
  exact Nat.mul_le_mul_right _ inside

theorem layerWrite_agrees (inside : layer ≤ height) :
    (call.layerWrite height whole layer).Agrees (call.tree height whole) := by
  have agrees : (⟨layerStart height layer + nodeSize * 0, nodeBytes (treeNodes call.ext
      (call.leaf whole) layer 0 (2 ^ (height - layer)))⟩ : Write UInt8).Agrees
        (call.tree height whole) := treeNodes_agrees inside (le_of_eq (zero_add _))
  exact agrees

theorem JobFits.mono {more : Nat} (fits : call.JobFits height whole count job)
    (grown : count ≤ more) : call.JobFits height whole more job := by
  obtain ⟨k, inside, facts⟩ := fits
  exact ⟨k, lt_of_lt_of_le inside grown, facts⟩

variable {state next : TreeD Cid}

theorem Done.mono {task : Nat}
    (apex : call.Done height whole state k 1 → call.Done height whole next k 1)
    (writes : ∀ write ∈ state.writes, write ∈ next.writes)
    (done : call.Done height whole state k task) : call.Done height whole next k task := by
  match task, done with
  | 0, _ => exact trivial
  | 1, done => exact apex done
  | layer + 2, done => exact writes _ done

theorem Runs.stop {fault : Fault} (file : Written (call.tree height whole) state.out state.writes)
    (clean : quiet → state.oerr = []) (loud : ¬ quiet) :
    call.Runs height whole threads quiet (state.stop (.error fault)) where
  file := file
  clean := clean
  phase := ⟨fun _ returned => (by cases returned), fun still => absurd still loud⟩

theorem stacked_head {buffer : List (List Node)} (stacked : Stacked level buffer) :
    ∃ bottom upper, buffer = bottom :: upper ∧ bottom.length = 2 ^ level ∧
      ∀ other : List Node, other.length = 2 ^ level → Stacked level (other :: upper) := by
  have rows := stacked.rows
  match buffer, rows with
  | bottom :: upper, rows =>
    have width : bottom.length = 2 ^ level := stacked.widths 0 (Nat.zero_le level)
    refine ⟨bottom, upper, rfl, width, ?_⟩
    intro other length
    refine ⟨rows, ?_⟩
    intro row inside
    cases row with
    | zero => exact length
    | succ row => exact stacked.widths (row + 1) inside

section Steps

variable (exact : call.Exact height whole) {quiet : Prop} {state : TreeD Cid}
include exact

theorem readChunk_next {buffer : Bytes} (more : count < 2 ^ (height - chunkHeight height))
    (length : buffer.length = call.rawSize (2 ^ (chunkHeight height + 5))) :
    readChunk ⟨whole.drop (count * call.rawSize (2 ^ (chunkHeight height + 5))), none⟩ buffer =
      .ok (call.chunk height whole count,
        ⟨whole.drop ((count + 1) * call.rawSize (2 ^ (chunkHeight height + 5))), none⟩) := by
  have total := exact.whole_length
  have positive := exact.rawSize_pos
  have room : (count + 1) * call.rawSize (2 ^ (chunkHeight height + 5)) ≤ whole.length := by
    rw [total]
    exact Nat.mul_le_mul_right _ more
  rw [Nat.add_mul] at room
  have left : (whole.drop (count * call.rawSize (2 ^ (chunkHeight height + 5)))).length ≥
      call.rawSize (2 ^ (chunkHeight height + 5)) := by
    rw [length_drop]
    omega
  have some : ¬ ((whole.drop (count * call.rawSize (2 ^ (chunkHeight height + 5)))).isEmpty ∧
      (none : Option String).isNone) := by
    grind
  rw [readChunk, if_neg some, readFull_of_le (by rw [length]; exact left), ok_bind, length,
    drop_drop, Nat.add_mul, Nat.one_mul, TreeDCall.chunk]

theorem processed_lt (dispatching : call.Dispatching height whole threads state count)
    (more : state.processed < call.size) : count < 2 ^ (height - chunkHeight height) := by
  rw [dispatching.processed, exact.size_eq] at more
  exact Nat.lt_of_mul_lt_mul_right more

theorem Runs.dispatch {workBuffer : List (List Node)}
    (runs : call.Runs height whole threads quiet state) (phase : state.phase = .dispatching)
    (more : state.processed < call.size) (last : state.workerBuffers.getLast? = some workBuffer) :
    call.Runs height whole threads quiet
      (call.dispatch { state with workerBuffers := state.workerBuffers.dropLast } workBuffer) := by
  obtain ⟨file, clean, now⟩ := runs
  rw [phase] at now
  obtain ⟨count, dispatching⟩ := now
  rw [TreeDCall.dispatch]
  by_cases failed : state.oerr = []
  · have free : state.workerBuffers = state.workerBuffers.dropLast ++ [workBuffer] :=
      (dropLast_append_getLast? workBuffer last).symm
    obtain ⟨bottom, upper, rfl, width, stacked⟩ := stacked_head
      (dispatching.buffers workBuffer (mem_of_getLast? last))
    have count_lt := processed_lt exact dispatching more
    have size : nodeSize * bottom.length = 2 ^ (chunkHeight height + 5) := by
      rw [width, two_pow_leaves]
    have length : ((nodeBytes bottom).take (call.rawSize (2 ^ (chunkHeight height + 5)))).length =
        call.rawSize (2 ^ (chunkHeight height + 5)) := by
      apply length_take_of_le
      rw [nodeBytes_length, size, TreeDCall.rawSize]
      split
      · exact exact.documented.unpadded_le _
      · exact Nat.le_refl _
    rw [if_neg (not_not_intro failed)]
    simp only [headD_cons, size]
    rw [← TreeDCall.rawSize, dispatching.data, readChunk_next exact count_lt length]
    refine ⟨file, clean, ?_⟩
    simp only [phase]
    refine ⟨count + 1, ?_⟩
    exact {
      few := count_lt
      processed := by simp only [dispatching.processed, Nat.add_mul, Nat.one_mul]
      data := rfl
      buffers := fun buffer member =>
        dispatching.buffers buffer (mem_of_mem_dropLast member)
      apex := dispatching.apex
      fits := by
        intro job member
        rcases mem_append.mp member with earlier | new
        · exact JobFits.mono (dispatching.fits job earlier) (Nat.le_succ count)
        · obtain rfl := mem_singleton.mp new
          exact ⟨count, Nat.lt_succ_self count, dispatching.processed, rfl, stacked⟩
      workers := by
        intro none
        have before := dispatching.workers none
        rw [free] at before
        simp only [length_append, length_singleton] at before ⊢
        omega
      tasks := by
        intro none k inside task below
        rcases Nat.lt_succ_iff_lt_or_eq.mp inside with earlier | rfl
        · rcases dispatching.tasks none k earlier task below with pending | done
          · exact Or.inl pending.append
          · exact Or.inr (Done.mono id (fun _ member => member) done)
        · exact Or.inl ⟨_, mem_append_right _ (mem_singleton.mpr rfl),
            dispatching.processed, Nat.zero_le task⟩ }
  · rw [if_pos failed]
    exact Runs.stop file clean (fun still => failed (clean still))

omit exact in
/-- A worker that finishes its next task and changes nothing else than what the task leaves. -/
theorem TreeDCall.Dispatching.advance {later : Job}
    (dispatching : call.Dispatching height whole threads state count)
    (found : state.jobs[k]? = some job) (jobs : next.jobs = state.jobs.set k later)
    (start : later.startOffset = job.startOffset) (further : later.progress = job.progress + 1)
    (fits : call.JobFits height whole count later)
    (same : next.processed = state.processed ∧ next.data = state.data ∧
      next.workerBuffers = state.workerBuffers ∧ next.oerr = state.oerr)
    (stacked : Stacked (height - chunkHeight height) next.apexBuf)
    (apex : ∀ c, call.Done height whole state c 1 → call.Done height whole next c 1)
    (writes : ∀ write ∈ state.writes, write ∈ next.writes)
    (finished : ∀ c, job.startOffset = c * 2 ^ (chunkHeight height + 5) →
      call.Done height whole next c job.progress) :
    call.Dispatching height whole threads next count := by
  obtain ⟨processed, data, buffers, oerr⟩ := same
  exact {
    few := dispatching.few
    processed := processed.trans dispatching.processed
    data := data.trans dispatching.data
    buffers := by rw [buffers]; exact dispatching.buffers
    apex := stacked
    fits := by
      intro other member
      rw [jobs] at member
      rcases mem_or_eq_of_mem_set member with earlier | rfl
      · exact dispatching.fits other earlier
      · exact fits
    workers := by
      rw [oerr, buffers, jobs, length_set]
      exact dispatching.workers
    tasks := by
      intro none c inside task below
      rw [oerr] at none
      rcases dispatching.tasks none c inside task below with pending | done
      · rcases pending.set found start further with still | ⟨own, rfl⟩
        all_goals grind
      · exact Or.inr (Done.mono (apex c) writes done) }

omit exact in
theorem persistApex_eq {c : Nat} {apexBuf : List (List Node)}
    (inside : c < 2 ^ (height - chunkHeight height))
    (stacked : Stacked (height - chunkHeight height) apexBuf) :
    persistApex apexBuf (c * 2 ^ (chunkHeight height + 5)) (call.chunkLevels height whole c) =
      .ok (apexBuf.set 0 ((cell apexBuf 0).set c
        (node call.ext.parent (call.leaf whole) (chunkHeight height) c))) := by
  have bottom : readAt (call.chunkLevels height whole c) 0 = .ok _ :=
    readAt_eq_ok.mpr (chunkLevels_row c (Nat.zero_le (chunkHeight height)))
  have top : readAt (call.chunkLevels height whole c) (chunkHeight height) = .ok _ :=
    readAt_eq_ok.mpr (chunkLevels_row c (Nat.le_refl (chunkHeight height)))
  have row := stacked.widths 0 (Nat.zero_le _)
  have rows := stacked.rows
  rw [Nat.sub_self, Nat.pow_zero, Nat.mul_one] at top
  have single : treeNodes call.ext (call.leaf whole) (chunkHeight height) c 1 =
      [node call.ext.parent (call.leaf whole) (chunkHeight height) c] := rfl
  have width : (treeNodes call.ext (call.leaf whole) 0 (c * 2 ^ (chunkHeight height - 0))
      (2 ^ (chunkHeight height - 0))).length = 2 ^ chunkHeight height := by
    simp [treeNodes]
  have slot : c * 2 ^ (chunkHeight height + 5) / (nodeSize * 2 ^ chunkHeight height) = c := by
    grind [two_pow_leaves, Nat.mul_div_cancel]
  rw [persistApex, bottom, ok_bind, chunkLevels_length, Nat.add_sub_cancel, top, ok_bind, single,
    readAt_of_lt (by simp), ok_bind, readAt_cell (by omega), ok_bind, width, slot,
    writeAt_of_lt _ (by rw [row]; exact inside), ok_bind, writeAt_of_lt _ (by omega)]
  rfl

section Workers

variable {count k startOffset layer offsetInLayer : Nat} {writeError : Option String}
  {buffers : List (List Node)} (file : Written (call.tree height whole) state.out state.writes)
  (clean : quiet → state.oerr = []) (phase : state.phase = .dispatching)
  (dispatching : call.Dispatching height whole threads state count)
include file clean phase dispatching

theorem Runs.hash {raw : Bytes} {upper : List (List Node)}
    (found : state.jobs[k]? = some (.loaded startOffset raw upper)) :
    call.Runs height whole threads quiet
      (call.work state k writeError (.loaded startOffset raw upper)) := by
  obtain ⟨c, inside, start, rfl, stacked⟩ :=
    dispatching.fits _ (mem_of_getElem? found)
  have small : chunkHeight height ≤ 63 := Nat.le_trans (min_le_left _ _) (by decide)
  obtain ⟨width, same⟩ := exact.leaves_chunk (lt_of_lt_of_le inside dispatching.few)
  have hashed : hashChunk call.ext _ = .ok _ := hashChunk_eq small (stacked _ width)
  have levels : levels call.ext.parent
      (cell (cell (call.leaves (call.chunk height whole c) :: upper) 0)) (chunkHeight height) =
        call.chunkLevels height whole c := levels_congr _ same
  rw [levels] at hashed
  rw [TreeDCall.work, hashed]
  refine ⟨file, clean, ?_⟩
  simp only [phase]
  exact ⟨count, dispatching.advance found rfl rfl rfl ⟨c, inside, start, rfl⟩
    ⟨rfl, rfl, rfl, rfl⟩ dispatching.apex (fun _ => id) (fun _ => id) (fun _ _ => trivial)⟩

omit exact in
theorem Runs.persist (found : state.jobs[k]? = some (.hashed startOffset buffers)) :
    call.Runs height whole threads quiet
      (call.work state k writeError (.hashed startOffset buffers)) := by
  obtain ⟨c, inside, start, rfl⟩ := dispatching.fits _ (mem_of_getElem? found)
  have few := lt_of_lt_of_le inside dispatching.few
  have stacked := dispatching.apex
  have rows := stacked.rows
  have width := stacked.widths 0 (Nat.zero_le _)
  rw [Nat.sub_zero] at width
  simp only [Job.startOffset] at start
  rw [TreeDCall.work, start, persistApex_eq few stacked]
  refine ⟨file, clean, ?_⟩
  simp only [phase]
  refine ⟨count, dispatching.advance found rfl start.symm rfl
    ⟨c, inside, rfl, rfl, by simp, Nat.zero_le _⟩ ⟨rfl, rfl, rfl, rfl⟩ ?_ ?_ (fun _ => id) ?_⟩
  · refine ⟨by rw [length_set, rows], ?_⟩
    intro level below
    cases level with
    | zero => rw [cell_set_same _ (by omega), length_set, width, Nat.sub_zero]
    | succ level => rw [cell_set_other _ (Nat.succ_ne_zero level), stacked.widths _ below]
  · intro other done
    simp only [TreeDCall.Done] at done ⊢
    rw [cell_set_same _ (by omega)]
    by_cases here : other = c
    · rw [here, cell_set_same _ (by omega)]
    · rw [cell_set_other _ here, done]
  · intro other own
    have same : other = c :=
      Nat.eq_of_mul_eq_mul_right (Nat.two_pow_pos _) (own.symm.trans start)
    simp only [Job.progress, TreeDCall.Done]
    rw [cell_set_same _ (by omega), same, cell_set_same _ (by omega)]

omit exact in
theorem Runs.giveBack (found : state.jobs[k]? =
      some (.writing startOffset (chunkHeight height + 1) offsetInLayer buffers)) :
    call.Runs height whole threads quiet (call.work state k writeError
      (.writing startOffset (chunkHeight height + 1) offsetInLayer buffers)) := by
  obtain ⟨c, inside, start, rfl, _⟩ := dispatching.fits _ (mem_of_getElem? found)
  have behind : (call.chunkLevels height whole c)[chunkHeight height + 1]? = none :=
    List.getElem?_eq_none (le_of_eq (chunkLevels_length c))
  simp only [TreeDCall.work, behind]
  refine ⟨file, clean, ?_⟩
  simp only [phase]
  refine ⟨count, { dispatching with
    buffers := ?_
    fits := fun job member => dispatching.fits job (mem_of_mem_eraseIdx member)
    workers := ?_
    tasks := ?_ }⟩
  · intro buffer member
    rcases mem_append.mp member with earlier | returned
    · exact dispatching.buffers buffer earlier
    · obtain rfl := mem_singleton.mp returned
      exact stacked_levels _ _ _
  · intro none
    have before := dispatching.workers none
    grind
  · intro none other within task below
    rcases dispatching.tasks none other within task below with pending | done
    · exact Or.inl (pending.erase found below)
    · exact Or.inr (Done.mono id (fun _ => id) done)

theorem Runs.writeLayer (silent : quiet → writeError = none)
    (found : state.jobs[k]? = some (.writing startOffset layer offsetInLayer buffers))
    (below : layer ≤ chunkHeight height) :
    call.Runs height whole threads quiet (call.work state k writeError
      (.writing startOffset layer offsetInLayer buffers)) := by
  obtain ⟨c, inside, start, rfl, offset, _⟩ := dispatching.fits _ (mem_of_getElem? found)
  have few := lt_of_lt_of_le inside dispatching.few
  simp only [Job.startOffset] at start
  have row : (call.chunkLevels height whole c)[layer]? = some _ := chunkLevels_row c below
  have place : layerOffset call.size layer = .ok (layerStart height layer) := by
    rw [exact.size]
    exact layerOffset_eq exact.small (Nat.le_trans below (chunkHeight_le height))
  have width : 2 ^ (chunkHeight height + 5) =
      nodeSize * 2 ^ (chunkHeight height - layer) * 2 ^ layer := by
    rw [two_pow_leaves, Nat.mul_assoc, ← Nat.pow_add, Nat.sub_add_cancel below]
  have shifted : offsetInLayer = nodeSize * (c * 2 ^ (chunkHeight height - layer)) := by
    rw [offset, start, width, ← Nat.mul_assoc, Nat.mul_div_cancel _ (Nat.two_pow_pos layer)]
    ring
  cases writeError with
  | some message =>
    have loud : ¬ quiet := fun still => by cases silent still
    simp only [TreeDCall.work, row, place]
    refine ⟨file, fun still => absurd still loud, ?_⟩
    simp only [phase]
    exact ⟨count, { dispatching with
      fits := fun job member => dispatching.fits job (mem_of_mem_eraseIdx member)
      workers := fun none => absurd none (by simp)
      tasks := fun none => absurd none (by simp) }⟩
  | none =>
    have write : (⟨offsetInLayer + layerStart height layer, nodeBytes (treeNodes call.ext
        (call.leaf whole) layer (c * 2 ^ (chunkHeight height - layer))
          (2 ^ (chunkHeight height - layer)))⟩ : Write UInt8) =
        call.chunkWrite height whole c layer := by
      rw [shifted, add_comm]
      rfl
    have grown := file.write 0 (chunkWrite_agrees few below)
    rw [← write] at grown
    simp only [TreeDCall.work, row, place]
    refine ⟨grown, clean, ?_⟩
    simp only [phase, TreeD.writeAt]
    refine ⟨count, dispatching.advance found rfl rfl rfl ⟨c, inside, start, rfl, ?_, by omega⟩
      ⟨rfl, rfl, rfl, rfl⟩ dispatching.apex (fun _ => id) (fun _ => mem_cons_of_mem _) ?_⟩
    · rw [offset, pow_succ, Nat.div_div_eq_div_mul]
    · intro other own
      have same : other = c :=
        Nat.eq_of_mul_eq_mul_right (Nat.two_pow_pos _) (own.symm.trans start)
      simp only [Job.progress, TreeDCall.Done]
      grind

end Workers

theorem Runs.join (staffed : 1 ≤ threads) (runs : call.Runs height whole threads quiet state)
    (phase : state.phase = .dispatching) (all : call.size ≤ state.processed)
    (idle : state.jobs = []) : call.Runs height whole threads quiet (call.join state) := by
  obtain ⟨file, clean, now⟩ := runs
  rw [phase] at now
  obtain ⟨count, dispatching⟩ := now
  by_cases failed : state.oerr = []
  · have chunks : count = 2 ^ (height - chunkHeight height) := by
      apply le_antisymm dispatching.few
      rw [dispatching.processed, exact.size_eq] at all
      exact le_of_mul_le_mul_right all (Nat.two_pow_pos _)
    have done : ∀ k < count, ∀ task < chunkHeight height + 3,
        call.Done height whole state k task := by
      intro k inside task below
      rcases dispatching.tasks failed k inside task below with ⟨job, member, _⟩ | done
      · rw [idle] at member
        cases member
      · exact done
    have free := dispatching.workers failed
    rw [idle, length_nil] at free
    obtain ⟨first, rest, buffers⟩ := exists_cons_of_length_pos (by omega :
      0 < state.workerBuffers.length)
    obtain ⟨bottom, upper, split, width, _⟩ := stacked_head
      (dispatching.buffers first (by rw [buffers]; exact mem_cons_self))
    have hashed : hashChunk call.ext state.apexBuf = .ok _ :=
      hashChunk_eq (Nat.le_trans (Nat.sub_le _ _) (Nat.le_trans exact.small (by decide)))
        dispatching.apex
    have roots : levels call.ext.parent (cell (cell state.apexBuf 0))
        (height - chunkHeight height) = levels call.ext.parent
          (node call.ext.parent (call.leaf whole) (chunkHeight height))
          (height - chunkHeight height) := by
      apply levels_congr
      intro k inside
      exact done k (chunks ▸ inside) 1 (by omega)
    rw [TreeDCall.join, if_neg (not_not_intro failed), buffers, split]
    simp only [readAt, getElem?_cons_zero, ok_bind, hashed, roots, width, Nat.size_pow]
    refine ⟨file, clean, rfl, rfl, Nat.le_refl 1, by omega, ?_, ?_⟩
    · intro k inside layer below
      exact done k (chunks ▸ inside) (layer + 2) (by omega)
    · intro layer low high
      omega
  · rw [TreeDCall.join, if_pos failed]
    exact Runs.stop file clean (fun still => failed (clean still))

omit exact in
theorem apexLevels_row (inside : apexLayer ≤ height - chunkHeight height) :
    (levels call.ext.parent (node call.ext.parent (call.leaf whole) (chunkHeight height))
        (height - chunkHeight height))[apexLayer]? =
      some (treeNodes call.ext (call.leaf whole) (chunkHeight height + apexLayer) 0
        (2 ^ (height - (chunkHeight height + apexLayer)))) := by
  simp only [levels, getElem?_map, getElem?_range (Nat.lt_succ_of_le inside),
    Option.map_some, treeNodes, Nat.sub_add_eq, zero_add]
  congr 1
  apply map_congr_left
  intro i _
  exact node_node _ _ _ _ _

theorem Runs.writeApex {threadLayers : Nat} {writeError : Option String}
    (runs : call.Runs height whole threads quiet state) (silent : quiet → writeError = none)
    (phase : state.phase = .apex threadLayers apexLayer) :
    call.Runs height whole threads quiet
      (call.writeApex state threadLayers apexLayer writeError) := by
  obtain ⟨file, clean, now⟩ := runs
  rw [phase] at now
  have inner := chunkHeight_le height
  by_cases more : apexLayer ≤ height - chunkHeight height
  · have row : state.apexBuf[apexLayer]? = _ := now.hashed ▸ apexLevels_row more
    have layer : apexLayer + threadLayers - 1 = chunkHeight height + apexLayer := by
      rw [now.layers]
      omega
    have place : layerOffset call.size (apexLayer + threadLayers - 1) =
        .ok (layerStart height (chunkHeight height + apexLayer)) := by
      rw [layer, exact.size]
      exact layerOffset_eq exact.small (by omega)
    simp only [TreeDCall.writeApex, row, place]
    cases writeError with
    | some message => exact Runs.stop file clean (fun still => by cases silent still)
    | none =>
      have grown := file.write 0 (layerWrite_agrees (by omega :
        chunkHeight height + apexLayer ≤ height))
      refine ⟨grown, clean, now.layers, now.hashed, Nat.le_succ_of_le now.low, by omega, ?_, ?_⟩
      · intro k inside other below
        exact mem_cons_of_mem _ (now.chunks k inside other below)
      · intro other low high
        rcases Nat.lt_succ_iff_lt_or_eq.mp high with earlier | rfl
        · exact mem_cons_of_mem _ (now.written other low earlier)
        · exact mem_cons_self
  · have last : apexLayer = height - chunkHeight height + 1 := by
      have high := now.high
      omega
    have length : state.apexBuf.length = height - chunkHeight height + 1 := by
      rw [now.hashed, levels_length]
    have behind : state.apexBuf[apexLayer]? = none :=
      List.getElem?_eq_none (le_of_eq (length.trans last.symm))
    have top : readAt state.apexBuf (height - chunkHeight height) =
        .ok [call.root height whole] := by
      rw [readAt_eq_ok, now.hashed, apexLevels_row (Nat.le_refl _)]
      rw [Nat.add_sub_cancel' inner, Nat.sub_self]
      rfl
    have root : (do
        let top ← readAt state.apexBuf (state.apexBuf.length - 1)
        readAt top 0 : Go Node) = .ok (call.root height whole) := by
      rw [length, Nat.add_sub_cancel, top]
      rfl
    simp only [TreeDCall.writeApex, behind, root]
    refine ⟨file, clean, ?_, fun _ => rfl⟩
    intro commD returned
    refine ⟨ofCall_eq_ok.mp returned, now.chunks, ?_⟩
    intro layer low high
    exact now.written layer low (by omega)

end Steps

def Move.succeeds : Move → Bool
  | .work _ writeError => writeError.isNone
  | .writeApex writeError => writeError.isNone
  | _ => true

def Move.works : Move → Bool
  | .retry => false
  | _ => true

inductive TreeDCall.Stepped (call : TreeDCall Cid) (state : TreeD Cid) : Move → TreeD Cid → Prop
  | retry (phase : state.phase = .dispatching) : Stepped call state .retry state
  | dispatch {workBuffer : List (List Node)} (phase : state.phase = .dispatching)
      (more : state.processed < call.size) (last : state.workerBuffers.getLast? = some workBuffer) :
      Stepped call state .dispatch
        (call.dispatch { state with workerBuffers := state.workerBuffers.dropLast } workBuffer)
  | work {k : Nat} {writeError : Option String} {job : Job} (phase : state.phase = .dispatching)
      (found : state.jobs[k]? = some job) :
      Stepped call state (.work k writeError) (call.work state k writeError job)
  | join (phase : state.phase = .dispatching) (all : call.size ≤ state.processed)
      (idle : state.jobs = []) : Stepped call state .join (call.join state)
  | writeApex {threadLayers apexLayer : Nat} {writeError : Option String}
      (phase : state.phase = .apex threadLayers apexLayer) :
      Stepped call state (.writeApex writeError)
        (call.writeApex state threadLayers apexLayer writeError)

theorem step_stepped (stepped : call.step state move = some next) :
    call.Stepped state move next := by
  unfold TreeDCall.step at stepped
  split at stepped
  case h_1 phase =>
    obtain rfl := Option.some.inj (Option.ite_none_right_eq_some.mp stepped).2
    exact .retry phase
  case h_2 phase =>
    obtain ⟨more, made⟩ := Option.ite_none_right_eq_some.mp stepped
    obtain ⟨workBuffer, last, rfl⟩ := Option.map_eq_some_iff.mp made
    exact .dispatch phase more last
  case h_3 phase =>
    obtain ⟨job, found, rfl⟩ := Option.map_eq_some_iff.mp stepped
    exact .work phase found
  case h_4 phase =>
    obtain ⟨⟨all, idle⟩, made⟩ := Option.ite_none_right_eq_some.mp stepped
    cases made
    exact .join phase all (isEmpty_iff.mp idle)
  case h_5 phase =>
    cases stepped
    exact .writeApex phase
  case h_6 => exact nomatch stepped

/-- Every step keeps the invariant; a write may only fail if the run is not called quiet. -/
theorem Runs.step (exact : call.Exact height whole) (staffed : 1 ≤ threads)
    (runs : call.Runs height whole threads quiet state) (silent : quiet → move.succeeds = true)
    (stepped : call.step state move = some next) :
    call.Runs height whole threads quiet next := by
  cases step_stepped stepped with
  | retry phase => exact runs
  | dispatch phase more last => exact Runs.dispatch exact runs phase more last
  | join phase all idle => exact Runs.join exact staffed runs phase all idle
  | writeApex phase =>
    exact Runs.writeApex exact runs (fun still => Option.isNone_iff_eq_none.mp (silent still)) phase
  | @work k writeError job phase found =>
    obtain ⟨file, clean, now⟩ := runs
    rw [phase] at now
    obtain ⟨count, dispatching⟩ := now
    cases job with
    | loaded startOffset raw upper => exact Runs.hash exact file clean phase dispatching found
    | hashed startOffset buffers => exact Runs.persist file clean phase dispatching found
    | writing startOffset layer offsetInLayer buffers =>
      obtain ⟨_, _, _, _, _, bound⟩ := dispatching.fits _ (mem_of_getElem? found)
      by_cases more : layer ≤ chunkHeight height
      · exact Runs.writeLayer exact file clean phase dispatching
          (fun still => Option.isNone_iff_eq_none.mp (silent still)) found more
      · obtain rfl : layer = chunkHeight height + 1 := by omega
        exact Runs.giveBack file clean phase dispatching found

end Curio.Proof
