import Curio.Proof.TreeDRuns

/-! What a call of `BuildTreeD` leaves behind: the setup starts the invariant, every run stays in
it, does a bounded amount of work and cannot get stuck while its writes succeed. -/

namespace Curio.Proof

open GoRuntime BinaryMerkle FileWrites StepMachine List

theorem levelSizes_two_pow (height : Nat) :
    levelSizes (2 ^ (height + 5)) =
      (range (height + 1)).map (fun level => nodeSize * 2 ^ (height - level)) := by
  induction height with
  | zero =>
    rw [levelSizes]
    rfl
  | succ height ih =>
    have large : 32 < 2 ^ (height + 1 + 5) := by
      grind
    have half : 2 ^ (height + 1 + 5) / 2 = 2 ^ (height + 5) := by
      grind
    rw [levelSizes, dif_pos large, half, ih, two_pow_leaves]
    conv_rhs => rw [range_succ_eq_map]
    simp

theorem poolBuffers_stacked (stale : Nat → Nat → Node) (height : Nat) :
    Stacked height (poolBuffers stale (2 ^ (height + 5))) where
  rows := by simp [poolBuffers, levelSizes_two_pow]
  widths := by
    intro level inside
    simp [poolBuffers, levelSizes_two_pow, cell, Nat.lt_succ_of_le inside, nodeSize]

theorem bottomBufSize_eq (height : Nat) :
    min threadChunkSize (2 ^ (height + 5)) = 2 ^ (chunkHeight height + 5) := by
  have chunk : threadChunkSize = 2 ^ (15 + 5) := by
    rw [threadChunkSize, Nat.shiftLeft_eq, one_mul]
  rw [chunk]
  rcases le_total 15 height with deep | shallow
  · rw [chunkHeight, min_eq_left deep]
    exact min_eq_left (Nat.pow_le_pow_right (by decide) (by omega))
  · rw [chunkHeight, min_eq_right shallow]
    exact min_eq_right (Nat.pow_le_pow_right (by decide) (by omega))

section Setup

variable {Cid : Type} {call : TreeDCall Cid} {height : Nat} {whole : Bytes} {threads : Nat}
  (exact : call.Exact height whole)
include exact

theorem setup_runs (staffed : 1 ≤ threads) (stale : Nat → Nat → Nat → Node) (quiet : Prop) :
    ∃ start, call.setup threads stale ⟨whole, none⟩ = .ok start ∧
      call.Runs height whole threads quiet start := by
  have fits : 2 ^ height ≤ 2 ^ 57 := Nat.pow_le_pow_right (by decide) exact.small
  have size : int64 call.size = (2 ^ (height + 5) : Nat) := by
    rw [exact.size]
    apply int64_of_lt
    rw [two_pow_leaves]
    simp only [nodeSize]
    omega
  have outSize : binTreeSize call.size = (call.tree height whole).length := by
    rw [exact.size, binTreeSize_eq exact.small, TreeDCall.tree, plainTree_length]
  have total : int64 (binTreeSize call.size) = (call.tree height whole).length := by
    rw [outSize]
    apply int64_of_lt
    rw [TreeDCall.tree, plainTree_length, layerStart]
    grind
  have bottom : min (threadChunkSize : Int) (int64 call.size) =
      (2 ^ (chunkHeight height + 5) : Nat) := by
    rw [size, ← Nat.cast_min, bottomBufSize_eq]
  have positive := Nat.two_pow_pos (chunkHeight height + 5)
  have apex : max (call.size / (nodeSize * 2 ^ chunkHeight height)) 1 * nodeSize =
      2 ^ (height - chunkHeight height + 5) := by
    rw [exact.size_eq, two_pow_leaves, Nat.mul_div_cancel _ (by rw [← two_pow_leaves]; exact positive),
      Nat.max_eq_left (Nat.two_pow_pos _), two_pow_leaves, Nat.mul_comm]
  obtain ⟨first, upper, head, width, _⟩ := stacked_head (poolBuffers_stacked (stale 0)
    (chunkHeight height))
  obtain ⟨others, rfl⟩ := Nat.exists_eq_add_of_le' staffed
  unfold TreeDCall.setup
  simp only [total, bottom, Int.toNat_natCast]
  have front : readAt ((range (others + 1)).map
      (fun i => poolBuffers (stale i) (2 ^ (chunkHeight height + 5)))) 0 = .ok (first :: upper) := by
    rw [readAt_eq_ok, getElem?_map, getElem?_range (Nat.succ_pos others), ← head]
    rfl
  rw [front, ok_bind, readAt_of_lt (by simp), ok_bind]
  simp only [getElem_cons_zero, width, apex, outSize]
  rw [if_neg (ne_of_gt (Nat.two_pow_pos _))]
  refine ⟨_, rfl, ⟨by simp, by simp, by simp⟩, fun _ => rfl, 0, ?_⟩
  exact {
    few := Nat.zero_le _
    processed := by simp
    data := by simp
    buffers := by
      intro buffer member
      obtain ⟨i, _, rfl⟩ := mem_map.mp member
      exact poolBuffers_stacked (stale i) (chunkHeight height)
    apex := poolBuffers_stacked _ _
    fits := by simp
    workers := by simp
    tasks := by simp }

end Setup

variable {k layer : Nat} {jobs : List Job} {job : Job} {quiet : Prop} {writeError : Option String}

section Coverage

variable {Cid : Type} {call : TreeDCall Cid} {height : Nat} {whole : Bytes}

theorem chunkWrite_covers {position : Nat}
    (low : layerStart height layer + nodeSize * (k * 2 ^ (chunkHeight height - layer)) ≤ position)
    (high : position < layerStart height layer +
      nodeSize * ((k + 1) * 2 ^ (chunkHeight height - layer))) :
    (call.chunkWrite height whole k layer).Covers position := by
  refine ⟨low, ?_⟩
  simp only [TreeDCall.chunkWrite, nodeBytes_length, treeNodes]
  grind

theorem layerWrite_covers {position : Nat} (low : layerStart height layer ≤ position)
    (high : position < layerStart height layer + nodeSize * 2 ^ (height - layer)) :
    (call.layerWrite height whole layer).Covers position := by
  refine ⟨low, ?_⟩
  simpa only [TreeDCall.layerWrite, nodeBytes_length, treeNodes, length_map,
    length_range] using high

theorem writes_cover {state : TreeD Cid} (chunks : call.ChunksWritten height whole state)
    (apex : ∀ layer, 1 ≤ layer → layer ≤ height - chunkHeight height →
      call.layerWrite height whole (chunkHeight height + layer) ∈ state.writes)
    {position : Nat} (inside : position < (call.tree height whole).length) :
    ∃ write ∈ state.writes, write.Covers position := by
  rw [TreeDCall.tree, plainTree_length] at inside
  obtain ⟨layer, below, low, high⟩ := layer_of_position (le_refl _) inside
  by_cases inChunks : layer ≤ chunkHeight height
  · have width : 0 < nodeSize * 2 ^ (chunkHeight height - layer) :=
      mul_pos (by decide) (Nat.two_pow_pos _)
    have split := Nat.div_add_mod (position - layerStart height layer)
      (nodeSize * 2 ^ (chunkHeight height - layer))
    have rest := Nat.mod_lt (position - layerStart height layer) width
    have few : (position - layerStart height layer) / (nodeSize * 2 ^ (chunkHeight height - layer)) <
        2 ^ (height - chunkHeight height) := by
      apply Nat.div_lt_of_lt_mul
      rw [mul_assoc, Nat.mul_comm (2 ^ _), chunks_mul height inChunks]
      omega
    generalize (position - layerStart height layer) /
      (nodeSize * 2 ^ (chunkHeight height - layer)) = k at split few
    refine ⟨_, chunks k few layer inChunks, chunkWrite_covers ?_ ?_⟩
    all_goals grind
  · obtain ⟨above, rfl⟩ := Nat.exists_eq_add_of_lt (Nat.lt_of_not_le inChunks)
    exact ⟨_, apex (above + 1) (by omega) (by omega), layerWrite_covers low high⟩

end Coverage

section Progress

variable {Cid : Type} {call : TreeDCall Cid} {height : Nat} {whole : Bytes} {threads : Nat}
  {state next : TreeD Cid}

/-- As long as no write fails, a call that has not returned can go on. -/
theorem Runs.progress (staffed : 1 ≤ threads) (runs : call.Runs height whole threads True state)
    (unfinished : ∀ result, state.phase ≠ .returned result) :
    ∃ move, move.works = true ∧ move.succeeds = true ∧ (call.step state move).isSome := by
  obtain ⟨_, clean, now⟩ := runs
  cases phase : state.phase with
  | returned result => exact absurd phase (unfinished result)
  | apex threadLayers apexLayer =>
    refine ⟨.writeApex none, rfl, rfl, ?_⟩
    simp only [TreeDCall.step, phase, Option.isSome_some]
  | dispatching =>
    rw [phase] at now
    obtain ⟨count, dispatching⟩ := now
    have workers := dispatching.workers (clean trivial)
    cases jobs : state.jobs with
    | cons job rest =>
      refine ⟨.work 0 none, rfl, rfl, ?_⟩
      simp only [TreeDCall.step, phase, jobs, getElem?_cons_zero, Option.map_some,
        Option.isSome_some]
    | nil =>
      rw [jobs, length_nil] at workers
      by_cases more : state.processed < call.size
      · have free : state.workerBuffers ≠ [] := ne_nil_of_length_pos (by omega)
        refine ⟨.dispatch, rfl, rfl, ?_⟩
        simp only [TreeDCall.step, phase, if_pos more, getLast?_eq_getLast_of_ne_nil free,
          Option.map_some, Option.isSome_some]
      · refine ⟨.join, rfl, rfl, ?_⟩
        simp only [TreeDCall.step]
        grind

theorem sum_map_set (left : Job → Nat) (later : Job) (found : jobs[k]? = some job) :
    ((jobs.set k later).map left).sum + left job = (jobs.map left).sum + left later := by
  induction jobs generalizing k with
  | nil => simp at found
  | cons first rest ih =>
    cases k with
    | zero | succ k => grind

theorem sum_map_eraseIdx (left : Job → Nat) (found : jobs[k]? = some job) :
    ((jobs.eraseIdx k).map left).sum + left job = (jobs.map left).sum := by
  induction jobs generalizing k with
  | nil => simp at found
  | cons first rest ih => grind [tail_cons]

def Job.left (height : Nat) (job : Job) : Nat := chunkHeight height + 4 - job.progress

def TreeD.left (height : Nat) (state : TreeD Cid) : Nat :=
  match state.phase with
  | .dispatching =>
    (2 ^ (height - chunkHeight height) - state.processed / 2 ^ (chunkHeight height + 5)) *
      (chunkHeight height + 5) + (state.jobs.map (Job.left height)).sum +
      (height - chunkHeight height + 3)
  | .apex _ apexLayer => height - chunkHeight height + 2 - apexLayer
  | .returned _ => 0

theorem JobFits.progress_le {count : Nat} (fits : call.JobFits height whole count job) :
    job.progress ≤ chunkHeight height + 3 := by
  obtain ⟨_, _, _, facts⟩ := fits
  cases job with
  | loaded startOffset raw upper => exact Nat.zero_le _
  | hashed startOffset buffers => exact Nat.le_add_left 1 _
  | writing startOffset layer offsetInLayer buffers =>
    simp only [Job.progress]
    omega

/-- A worker stops the call, goes on to its next task, or ends. -/
theorem work_cases :
    (∃ result, call.work state k writeError job = state.stop result) ∨
      (call.work state k writeError job).phase = state.phase ∧
      (call.work state k writeError job).processed = state.processed ∧
      ((∃ later, later.progress = job.progress + 1 ∧
          (call.work state k writeError job).jobs = state.jobs.set k later) ∨
        (call.work state k writeError job).jobs = state.jobs.eraseIdx k) := by
  cases job with
  | loaded startOffset raw upper =>
    simp only [TreeDCall.work]
    cases hashChunk call.ext (call.leaves raw :: upper) with
    | error fault => exact Or.inl ⟨_, rfl⟩
    | ok buffers => exact Or.inr ⟨rfl, rfl, Or.inl ⟨_, rfl, rfl⟩⟩
  | hashed startOffset buffers =>
    simp only [TreeDCall.work]
    cases persistApex state.apexBuf startOffset buffers with
    | error fault => exact Or.inl ⟨_, rfl⟩
    | ok apexBuf => exact Or.inr ⟨rfl, rfl, Or.inl ⟨_, rfl, rfl⟩⟩
  | writing startOffset layer offsetInLayer buffers =>
    simp only [TreeDCall.work]
    cases buffers[layer]? with
    | none => exact Or.inr ⟨rfl, rfl, Or.inr rfl⟩
    | some layerData =>
      cases layerOffset call.size layer with
      | error fault => exact Or.inl ⟨_, rfl⟩
      | ok layerOff =>
        cases writeError with
        | some message => exact Or.inr ⟨rfl, rfl, Or.inr rfl⟩
        | none => exact Or.inr ⟨rfl, rfl, Or.inl ⟨_, rfl, rfl⟩⟩

theorem dispatch_cases {workBuffer : List (List Node)} :
    (∃ result, call.dispatch state workBuffer = state.stop result) ∨
      (call.dispatch state workBuffer).phase = state.phase ∧
      (call.dispatch state workBuffer).processed =
        state.processed + nodeSize * (workBuffer.headD []).length ∧
      ∃ job, job.progress = 0 ∧ (call.dispatch state workBuffer).jobs = state.jobs ++ [job] := by
  unfold TreeDCall.dispatch
  by_cases failed : state.oerr = []
  · rw [if_neg (not_not_intro failed)]
    simp only
    split
    · exact Or.inl ⟨_, rfl⟩
    · exact Or.inr ⟨rfl, rfl, _, rfl, rfl⟩
  · rw [if_pos failed]
    exact Or.inl ⟨_, rfl⟩

theorem join_cases :
    (∃ result, call.join state = state.stop result) ∨
      ∃ threadLayers, (call.join state).phase = .apex threadLayers 1 := by
  unfold TreeDCall.join
  by_cases failed : state.oerr = []
  · rw [if_neg (not_not_intro failed)]
    simp only
    split
    all_goals grind
  · rw [if_pos failed]
    exact Or.inl ⟨_, rfl⟩

theorem writeApex_cases {threadLayers apexLayer : Nat} :
    (∃ result, call.writeApex state threadLayers apexLayer writeError = state.stop result) ∨
      (call.writeApex state threadLayers apexLayer writeError).phase =
        .apex threadLayers (apexLayer + 1) := by
  grind [TreeDCall.writeApex]

theorem stop_lowers (runs : call.Runs height whole threads quiet state)
    (unfinished : ∀ result, state.phase ≠ .returned result) (result : Go Cid) :
    (state.stop result).left height + 1 ≤ state.left height := by
  have now := runs.phase
  cases phase : state.phase with
  | returned other => exact absurd phase (unfinished other)
  | apex threadLayers apexLayer =>
    rw [phase] at now
    have high := now.high
    simp only [TreeD.left, TreeD.stop, phase]
    omega
  | dispatching =>
    simp only [TreeD.left, TreeD.stop, phase]
    omega

/-- Every step but a vain look for a buffer leaves less to do. -/
theorem Runs.lowers (exact : call.Exact height whole) {move : Move}
    (runs : call.Runs height whole threads quiet state)
    (stepped : call.step state move = some next) :
    next.left height + (if move.works then 1 else 0) ≤ state.left height := by
  have now := runs.phase
  cases step_stepped stepped with
  | retry phase => exact le_refl _
  | @writeApex threadLayers apexLayer writeError phase =>
    rw [phase] at now
    have high := now.high
    rcases writeApex_cases with ⟨result, stops⟩ | later
    · rw [stops]
      exact stop_lowers runs (by simp [phase]) result
    · simp only [TreeD.left, later, phase, Move.works, if_true]
      omega
  | join phase all idle =>
    rcases join_cases with ⟨result, stops⟩ | ⟨threadLayers, later⟩
    · rw [stops]
      exact stop_lowers runs (by simp [phase]) result
    · simp only [TreeD.left, later, phase, Move.works, if_true]
      omega
  | @dispatch workBuffer phase more last =>
    rw [phase] at now
    obtain ⟨count, dispatching⟩ := now
    obtain ⟨bottom, upper, rfl, width, _⟩ := stacked_head
      (dispatching.buffers workBuffer (mem_of_getLast? last))
    have few := processed_lt exact dispatching more
    have positive := Nat.two_pow_pos (chunkHeight height + 5)
    rcases dispatch_cases with
      ⟨result, stops⟩ | ⟨same, processed, job, fresh, jobs⟩
    · rw [stops]
      exact stop_lowers runs (by simp [phase]) result
    · have own : job.left height = chunkHeight height + 4 := by
        rw [Job.left, fresh, Nat.sub_zero]
      have rest : 2 ^ (height - chunkHeight height) - count =
          2 ^ (height - chunkHeight height) - (count + 1) + 1 := by omega
      generalize call.dispatch _ (bottom :: upper) = next at same processed jobs ⊢
      simp only [headD_cons, width, ← two_pow_leaves, dispatching.processed,
        ← Nat.succ_mul, Nat.succ_eq_add_one] at processed
      simp only [TreeD.left, same, phase, processed, jobs, Move.works, if_true,
        dispatching.processed, Nat.mul_div_cancel _ positive, map_append,
        sum_append, map_cons, map_nil, sum_cons, sum_nil]
      rw [rest, Nat.add_mul]
      omega
  | @work k writeError job phase found =>
    rw [phase] at now
    obtain ⟨count, dispatching⟩ := now
    have bound := JobFits.progress_le (dispatching.fits job (mem_of_getElem? found))
    have own : job.left height = chunkHeight height + 4 - job.progress := rfl
    rcases work_cases with ⟨result, stops⟩ | ⟨same, processed, jobs⟩
    · rw [stops]
      exact stop_lowers runs (by simp [phase]) result
    · simp only [TreeD.left, same, phase, processed, Move.works, if_true]
      rcases jobs with ⟨later, further, jobs⟩ | jobs
      · have sum := sum_map_set (Job.left height) later found
        have later_left : later.left height = chunkHeight height + 4 - later.progress := rfl
        rw [jobs]
        omega
      · have sum := sum_map_eraseIdx (Job.left height) found
        rw [jobs]
        omega

end Progress

variable {Cid : Type} {call : TreeDCall Cid} {height : Nat} {whole : Bytes} {threads : Nat}

theorem Runs.run (exact : call.Exact height whole) (staffed : 1 ≤ threads) {start state : TreeD Cid}
    {moves : List Move} (runs : call.Runs height whole threads quiet start)
    (silent : quiet → ∀ move ∈ moves, move.succeeds = true)
    (ran : StepMachine.run call.step start moves = some state) :
    call.Runs height whole threads quiet state ∧ moves.countP Move.works ≤ start.left height := by
  have kept : ∀ state move next, call.Runs height whole threads quiet state →
      (quiet → move.succeeds = true) → call.step state move = some next →
      call.Runs height whole threads quiet next :=
    fun _ _ _ now allowed stepped => Runs.step exact staffed now allowed stepped
  have under : RunsUnder call.step (fun _ move => quiet → move.succeeds = true) start moves :=
    RunsUnder.of_forall (fun move member _ still => silent still move member) start
  refine ⟨run_invariant kept runs under ran, ?_⟩
  have bound := run_measure kept
    (fun _ _ _ now _ stepped => Runs.lowers exact now stepped) runs under ran
  exact Nat.le_trans (Nat.le_add_left _ _) bound

/-- In every run over data of the exact size, whatever the order the workers move in: all writes
agree with the plain tree, and a call that returns a CID returns that of the root and has written
the whole tree. While no write fails the call can go on until it has returned, which takes a
bounded number of steps, and what it returns is the CID of the root. -/
theorem buildTreeD_writes_tree (exact : call.Exact height whole) (staffed : 1 ≤ threads)
    (stale : Nat → Nat → Nat → Node) :
    (call.tree height whole).length = binTreeSize call.size ∧
    ∃ start, call.setup threads stale ⟨whole, none⟩ = .ok start ∧
      ∃ bound, ∀ moves state, run call.step start moves = some state →
        moves.countP Move.works ≤ bound ∧
        Consistent state.writes ∧
        (∀ commD, state.phase = .returned (.ok commD) →
          call.dataCommitmentV1ToCID (call.root height whole) = .ok commD ∧
          state.out = call.tree height whole ∧
          ∀ position < (call.tree height whole).length, ∃ write ∈ state.writes,
            write.Covers position ∧ write.valueAt position = (call.tree height whole)[position]?) ∧
        ((∀ move ∈ moves, move.succeeds = true) →
          (∀ result, state.phase = .returned result →
            result = ofCall (call.dataCommitmentV1ToCID (call.root height whole))) ∧
          ((∀ result, state.phase ≠ .returned result) → ∃ move, move.works = true ∧
            move.succeeds = true ∧ (call.step state move).isSome)) := by
  obtain ⟨start, ready, runs⟩ := setup_runs exact staffed stale False
  obtain ⟨other, again, quietly⟩ := setup_runs exact staffed stale True
  cases ready.symm.trans again
  refine ⟨?_, start, ready, start.left height, ?_⟩
  · rw [TreeDCall.tree, plainTree_length, exact.size, binTreeSize_eq exact.small]
  · intro moves state ran
    obtain ⟨⟨file, _, now⟩, few⟩ := Runs.run exact staffed runs (fun none => none.elim) ran
    refine ⟨few, consistent_of_agrees file.agree, ?_, ?_⟩
    · intro commD phase
      rw [phase] at now
      obtain ⟨cid, chunks, apex⟩ := now.1 commD rfl
      refine ⟨cid, file.complete (fun _ inside => writes_cover chunks apex inside), ?_⟩
      intro position inside
      obtain ⟨write, member, covers⟩ := writes_cover chunks apex inside
      exact ⟨write, member, covers, (file.agree write member).valueAt_eq covers⟩
    · intro silent
      obtain ⟨still, _⟩ := Runs.run exact staffed quietly (fun _ => silent) ran
      refine ⟨?_, Runs.progress staffed still⟩
      intro result phase
      have final := still.phase
      rw [phase] at final
      exact final.2 trivial

theorem maxThreads_pos {size numCPU : Nat} : 1 ≤ maxThreads size numCPU := by
  simp only [maxThreads]
  omega

def paddedCall (size : Nat) : TreeDCall Node where
  ext := referenceExternals
  unpaddedData := false
  size := size
  dataCommitmentV1ToCID := .ok
  multierror := String.join

/-- Two chunks of 1 MiB, on a machine with four processors. -/
theorem buildTreeD_writes_tree_two_chunks :
    let call := paddedCall (2 ^ 21)
    let whole := replicate (2 ^ 21) 7
    ∃ start, call.setup (maxThreads (2 ^ 21) 4) (fun _ _ _ => zeroNode) ⟨whole, none⟩ = .ok start ∧
      ∀ moves state, run call.step start moves = some state → ∀ commD,
        state.phase = .returned (.ok commD) →
          commD = call.root 16 whole ∧ state.out = call.tree 16 whole := by
  intro call whole
  have exact : call.Exact 16 whole :=
    ⟨referenceExternals_documented, rfl, by decide, by decide, length_replicate⟩
  obtain ⟨_, start, ready, _, runs⟩ := buildTreeD_writes_tree exact maxThreads_pos
    (fun _ _ _ => zeroNode)
  refine ⟨start, ready, ?_⟩
  intro moves state ran commD phase
  obtain ⟨_, _, returned, _⟩ := runs moves state ran
  obtain ⟨cid, file, _⟩ := returned commD phase
  exact ⟨(Except.ok.inj cid).symm, file⟩

/-- A size that is negative as an `int64` leaves no nodes for the file and no buffer to read into. -/
theorem setup_negative (negative : int64 call.size < 0) (stale : Nat → Nat → Nat → Node)
    (data : Stream) :
    call.setup threads stale data = panics "makeslice: len out of range" := by
  have leaves : (int64 call.size / nodeSize).toNat = 0 := by
    simp only [nodeSize]
    omega
  have outSize : binTreeSize call.size = 0 := by
    rw [binTreeSize, leaves]
    simp [computeTotalNodes, uint64]
  have bottom : min (threadChunkSize : Int) (int64 call.size) < 0 := by omega
  unfold TreeDCall.setup
  rw [outSize, if_neg (by decide), if_pos bottom]

/-- The largest power of two of a `uint64`. -/
theorem buildTreeD_largest_size_fails :
    (paddedCall (2 ^ 63)).setup (maxThreads (2 ^ 63) 4) (fun _ _ _ => zeroNode)
      ⟨replicate (2 ^ 63) 0, none⟩ = panics "makeslice: len out of range" := by
  apply setup_negative
  decide

end Curio.Proof
