import Curio.CuNative.SnapCodec

/-! Decoding a snap update gives back the data that was encoded. -/

namespace Curio.CuNative

open ByteCodec Entries GoRuntime OrderedPipeline List
open Curio.Proof (nodeSize)

variable {Proof Cid : Type} {lib : SnapLib Proof Cid}

def rhoValue (lib : SnapLib Proof Cid) (phi : Bytes) (high : Nat) : Fr :=
  match rho lib phi (UInt32.ofNat high) with
  | .ok value => value
  | .error _ => 0

theorem rho_eq {phi : Bytes} {high : Nat} {value : Fr}
    (computed : rho lib phi (UInt32.ofNat high) = .ok value) : rhoValue lib phi high = value := by
  rw [rhoValue, computed]

theorem fill_spec {compute : Nat → Go Fr} {value : Nat → Fr} (encode : Fr → Bytes)
    (highs : List Nat) (computed : ∀ high ∈ highs, compute high = .ok (value high))
    (table : KeyMap Nat Bytes) :
    ∃ filled, highs.foldlM (fun rhos high => do
        let rhoVal ← compute high
        return rhos.put high (encode rhoVal)) table = (.ok filled : Go _) ∧
      ∀ high, filled.get high
        = if high ∈ highs then some (encode (value high)) else table.get high := by
  induction highs generalizing table with
  | nil => exact ⟨table, rfl, by simp⟩
  | cons first rest ih =>
    obtain ⟨filled, returned, found⟩ := ih (fun high member =>
      computed high (mem_cons_of_mem _ member)) (table.put first (encode (value first)))
    refine ⟨filled, ?_, ?_⟩
    · rw [foldlM_cons, computed first mem_cons_self]
      exact returned
    · intro high
      rw [found, KeyMap.get_put]
      grind

theorem high_of_node {count high bits : Nat} (positive : 0 < count)
    (inRange : high ≤ (count - 1) >>> bits) : ∃ node < count, node >>> bits = high := by
  refine ⟨high * 2 ^ bits, ?_, ?_⟩
  · rw [Nat.shiftRight_eq_div_pow, Nat.le_div_iff_mul_le (by positivity)] at inRange
    omega
  · rw [Nat.shiftRight_eq_div_pow, Nat.mul_div_cancel _ (by positivity)]

theorem rhoTable_spec {store : Fr → Fr} {phi : Bytes} {h nodesCount : Nat}
    (positive : 0 < nodesCount) (small : nodesCount < 2 ^ 64)
    (computed : ∀ node < nodesCount, ∃ value,
      rho lib phi (UInt32.ofNat (node >>> calcBitsShr h nodesCount)) = .ok value) :
    ∃ table, rhoTable lib store phi h nodesCount 0 nodesCount = .ok table ∧
      table.bitsShr = calcBitsShr h nodesCount ∧
      ∀ node < nodesCount, table.rhos.get (node >>> table.bitsShr)
        = some (ffElementBytesLE (store (rhoValue lib phi (node >>> table.bitsShr)))) := by
  have last : uint64 (((0 : Nat) : Int) + nodesCount - 1) = nodesCount - 1 := by
    unfold uint64
    omega
  have highs : ∀ high ∈ range' 0 ((nodesCount - 1) >>> calcBitsShr h nodesCount + 1 - 0),
      rho lib phi (UInt32.ofNat high) = .ok (rhoValue lib phi high) := by
    intro high member
    have inRange : high ≤ (nodesCount - 1) >>> calcBitsShr h nodesCount := by
      simpa [Nat.lt_succ_iff] using member
    obtain ⟨node, below, rfl⟩ := high_of_node positive inRange
    obtain ⟨value, returned⟩ := computed node below
    rw [returned, rho_eq returned]
  obtain ⟨filled, returned, found⟩ :=
    fill_spec (fun rhoVal => ffElementBytesLE (store rhoVal)) _ highs KeyMap.empty
  refine ⟨⟨filled, calcBitsShr h nodesCount⟩, ?_, rfl, ?_⟩
  · rw [rhoTable]
    simp only [calcHighRange, last, Nat.zero_shiftRight]
    rw [returned]
    rfl
  · intro node below
    have member : node >>> calcBitsShr h nodesCount
        ≤ (nodesCount - 1) >>> calcBitsShr h nodesCount := by
      rw [Nat.shiftRight_eq_div_pow, Nat.shiftRight_eq_div_pow]
      exact Nat.div_le_div_right (by omega)
    grind

section Chunks

variable {rhos : Rhos} {value : Nat → Fr} {nodes : Nat}
  {pairs : List (Bytes × Bytes)} {first second : Source} {ending : Option IoError}

def opLoop (op : Fr → Fr → Fr → Fr) (first second rhos : Bytes) (nodeCount : Nat) :
    Bytes :=
  nodeLoop (fun i left right => op (blstFrFromUint64 left) (blstFrFromUint64 right)
    (blstFrFromUint64 (nodeAt rhos i))) nodeCount first second

def opStream (op : Fr → Fr → Fr → Fr) (value : Nat → Fr) (nodes : Nat)
    (first second : Bytes) : Bytes :=
  nodeLoop (fun node left right => op (blstFrFromUint64 left) (blstFrFromUint64 right)
    (value node)) nodes first second

def Known (rhos : Rhos) (value : Nat → Fr) (nodes : Nat) : Prop :=
  ∀ node < nodes, rhos.get node = ffElementBytesLE (value node)

theorem nodeAt_rhoBytes (known : Known rhos value nodes) (small : nodeSize * nodes < 2 ^ 64)
    {chunkID nodeCount i : Nat} (inside : bufSz / nodeSize * chunkID + nodeCount ≤ nodes)
    (below : i < nodeCount) :
    blstFrFromUint64 (nodeAt (rhoBytes rhos chunkID nodeCount) i)
      = value (bufSz / nodeSize * chunkID + i) := by
  have fits : 131072 * chunkID + nodeCount ≤ nodes := inside
  have bytes : 32 * nodes < 2 ^ 64 := small
  have start : chunkID * bufSz % 2 ^ 64 / nodeSize = bufSz / nodeSize * chunkID := by
    show chunkID * 4194304 % 2 ^ 64 / 32 = 131072 * chunkID
    omega
  have index : ∀ i < nodeCount, rhos.get ((chunkID * bufSz % 2 ^ 64 / nodeSize + i) % 2 ^ 64)
      = ffElementBytesLE (value (bufSz / nodeSize * chunkID + i)) := by
    intro i below
    have word : bufSz / nodeSize * chunkID + i < 2 ^ 64 := by
      show 131072 * chunkID + i < 2 ^ 64
      omega
    rw [start, Nat.mod_eq_of_lt word]
    exact known _ (by omega)
  have length : ∀ i < nodeCount,
      (rhos.get ((chunkID * bufSz % 2 ^ 64 / nodeSize + i) % 2 ^ 64)).length = nodeSize := by
    intro i below
    rw [index i below]
    exact leBytes_length _ _
  rw [rhoBytes, nodeAt_flatMap length below, index i below]
  exact blstFrFromUint64_from _

theorem snapWorker_chunk (op : Fr → Fr → Fr → Fr) (env : SnapEnv) (known : Known rhos value nodes)
    (chunks : Chunks bufSz first second pairs ending)
    (total : readTotal bufSz first second = nodeSize * nodes) (small : nodeSize * nodes < 2 ^ 64)
    {chunkID : Nat} {pair : Bytes × Bytes} (found : pairs[chunkID]? = some pair)
    (filled : pair.1 ≠ []) (stale stale' : Bytes) :
    snapWorker (opLoop op) env.outs rhos chunkID
        ⟨overlay pair.1 stale, overlay pair.2 stale', pair.1.length⟩
      = some (chunkLoop bufSz (fun node left right => op (blstFrFromUint64 left)
          (blstFrFromUint64 right) (value node)) chunkID pair) := by
  have member := mem_of_getElem? found
  obtain ⟨⟨count, length⟩, same⟩ := chunks.even (NeZero.pos _) even_bufSz
    (total ▸ Nat.dvd_mul_right _ _) pair member
  have offset := chunks.offset_le (NeZero.pos _) found
  have positive : 0 < pair.1.length := length_pos_iff.mpr filled
  have divided : pair.1.length / nodeSize = count := by
    rw [length, Nat.mul_div_cancel_left _ (by decide)]
  have some : count ≠ 0 := by
    rintro rfl
    omega
  have inside : bufSz / nodeSize * chunkID + count ≤ nodes := by
    grind [bufSz, nodeSize]
  have worked : opLoop op (overlay pair.1 stale) (overlay pair.2 stale')
      (rhoBytes rhos chunkID count) count
      = chunkLoop bufSz (fun node left right => op (blstFrFromUint64 left)
          (blstFrFromUint64 right) (value node)) chunkID pair := by
    rw [opLoop, overlay, overlay, nodeLoop_append _ _ length.ge (same.trans length).ge, chunkLoop,
      divided]
    apply nodeLoop_congr
    intro i below
    rw [nodeAt_rhoBytes known small inside below]
  simp only [snapWorker, divided, if_neg some, worked]
  have full : (chunkLoop bufSz (fun node left right => op (blstFrFromUint64 left)
      (blstFrFromUint64 right) (value node)) chunkID pair).length = pair.1.length := by
    rw [chunkLoop, nodeLoop_length, divided, length]
  rw [overlay, full, drop_of_length_le (env.outs.length_get _ _).le, append_nil]

end Chunks

section Pipelines

variable {rhos : Rhos} {value : Nat → Fr} {nodes numCPU : Nat} {first second : Bytes}

theorem snapPipeline_workers (env : SnapEnv) (work : Nat → Job → Option Bytes)
    (first second : Source) :
    (snapPipeline numCPU env work first second).workers = numCPU / 2 := by
  show (if numCPU < numCPU / 2 then numCPU else numCPU / 2) = numCPU / 2
  exact if_neg (by omega)

/-- With two CPUs a pipeline over two streams of whole nodes does the operation to every node. -/
theorem snapPipeline_succeeds (op : Fr → Fr → Fr → Fr) (env : SnapEnv) (staffed : 2 ≤ numCPU)
    (known : Known rhos value nodes) (first_length : first.length = nodeSize * nodes)
    (second_length : second.length = nodeSize * nodes) (small : nodeSize * nodes < 2 ^ 64) :
    (snapPipeline numCPU env (snapWorker (opLoop op) env.outs rhos) { bytes := first }
      { bytes := second }).Succeeds (opStream op value nodes first second) := by
  have chunks := readPairs_chunks bufSz { bytes := first } { bytes := second }
  have complete : Complete { bytes := first } { bytes := second } :=
    ⟨.inl rfl, first_length.le.trans second_length.ge⟩
  have total : readTotal bufSz { bytes := first } { bytes := second } = nodeSize * nodes :=
    (if_pos complete).trans first_length
  have filled : ∀ pair ∈ (readPairs bufSz { bytes := first } { bytes := second }).1, pair.1 ≠ [] := by
    intro pair member empty
    have broken := (chunks.exists_empty (NeZero.pos _)).mp ⟨pair, member, empty⟩
    cases broken.2.1
  have worked : ∀ chunkID pair,
      (readPairs bufSz { bytes := first } { bytes := second }).1[chunkID]? = some pair → _ :=
    fun chunkID pair found => snapWorker_chunk op env known chunks total small found
      (filled pair (mem_of_getElem? found)) (env.pool.get (2 * chunkID))
      (env.pool.get (2 * chunkID + 1))
  let made : Nat → Job → Bytes := fun chunkID j =>
    (snapWorker (opLoop op) env.outs rhos chunkID j).getD []
  have works : ∀ chunkID j,
      (jobsOf env.pool (readPairs bufSz { bytes := first } { bytes := second }).1)[chunkID]? =
    some j → snapWorker (opLoop op) env.outs rhos chunkID j = some (made chunkID j) := by
    intro chunkID j found
    rw [jobsOf, getElem?_mapIdx] at found
    obtain ⟨pair, there, rfl⟩ := Option.map_eq_some_iff.mp found
    simp only [made, worked chunkID pair there, Option.getD_some]
  have data : ((jobsOf env.pool (readPairs bufSz { bytes := first } { bytes := second }).1).mapIdx
      made).flatten = opStream op value nodes first second := by
    have joined := chunks.nodeLoop (NeZero.pos _) even_bufSz (total ▸ Nat.dvd_mul_right _ _)
      fun node left right => op (blstFrFromUint64 left) (blstFrFromUint64 right) (value node)
    rw [total, Nat.mul_div_cancel_left _ (by decide)] at joined
    rw [opStream, ← joined, jobsOf]
    congr 1
    apply ext_getElem (by simp)
    intro chunkID inRange _
    have there := getElem?_eq_getElem (by simpa using inRange :
      chunkID < (readPairs bufSz { bytes := first } { bytes := second }).1.length)
    simp only [getElem_mapIdx, made, worked chunkID _ there, Option.getD_some]
  rw [← data]
  exact succeeds (fun staffed => ⟨staffed, Nat.mul_pos staffed (by decide)⟩)
    (by rw [snapPipeline_workers]; omega) works (chunks.ending_eq_none.mpr complete)

end Pipelines

variable {numCPU ssize : Nat} {spt : Proof} {commD commK : Cid} {phiVal key data : Bytes}

def supportedSectorSizes : List Nat := [2 <<< 10, 8 <<< 20, 512 <<< 20, 32 <<< 30, 64 <<< 30]

theorem supported_nodes (supported : ssize ∈ supportedSectorSizes) :
    nodeSize * (ssize / nodeSize) = ssize ∧ 0 < ssize / nodeSize ∧ ssize < 2 ^ 64 := by
  grind [nodeSize, supportedSectorSizes]

/-- A sector that can be encoded: the parameters are there, and no rho is zero. -/
structure SnapReady (lib : SnapLib Proof Cid) (spt : Proof) (commD commK : Cid) (ssize : Nat)
    (phiVal : Bytes) : Prop where
  sectorSize : lib.sectorSize spt = .ok ssize
  supported : ssize ∈ supportedSectorSizes
  phi : ∃ commDNew commROld, lib.cidToDataCommitmentV1 commD = .ok commDNew ∧
    lib.cidToReplicaCommitmentV1 commK = .ok commROld ∧ phi lib commDNew commROld = .ok phiVal
  rho : ∀ node < ssize / nodeSize, ∃ value, value ≠ 0 ∧
    rho lib phiVal (UInt32.ofNat
      (node >>> calcBitsShr (hDefault (ssize / nodeSize)) (ssize / nodeSize))) = .ok value

def nodeRho (lib : SnapLib Proof Cid) (phiVal : Bytes) (ssize node : Nat) : Fr :=
  rhoValue lib phiVal (node >>> calcBitsShr (hDefault (ssize / nodeSize)) (ssize / nodeSize))

/-- The tables of `NewRange` and `NewInvRange` are defined at every node and inverse there. -/
def RhosInverse (lib : SnapLib Proof Cid) (spt : Proof) (commD commK : Cid) : Prop :=
  ∃ nodesCount phiVal rhos rhoInvs,
    snapParams lib spt commD commK = .ok (nodesCount, phiVal) ∧
    new lib phiVal (hDefault nodesCount) nodesCount = .ok rhos ∧
    newInv lib phiVal (hDefault nodesCount) nodesCount = .ok rhoInvs ∧
    ∀ node < nodesCount,
      (rhos.rhos.get (node >>> rhos.bitsShr)).isSome ∧
      (rhoInvs.rhos.get (node >>> rhoInvs.bitsShr)).isSome ∧
      blstFrFromUint64 (rhos.get node) * blstFrFromUint64 (rhoInvs.get node) = 1

/-- `DecodeSnap` of the key and of what `EncodeSnap` puts out gives back the data, in whatever
order their goroutines run and whatever their buffers hold. -/
def SnapRoundTrip (lib : SnapLib Proof Cid) (numCPU : Nat) (spt : Proof) (commD commK : Cid)
    (key data : Bytes) : Prop :=
  ∃ replica,
    (∀ env, ∃ pipeline, encodeSnap lib numCPU env spt commD commK { bytes := key }
      { bytes := data } = .ok pipeline ∧ pipeline.Succeeds replica) ∧
    ∀ env, ∃ pipeline, decodeSnap lib numCPU env spt commD commK { bytes := key }
      { bytes := replica } = .ok pipeline ∧ pipeline.Succeeds data

def encodeOp (key data rho : Fr) : Fr := key + data * rho

def decodeOp (replica key rhoInv : Fr) : Fr := (replica - key) * rhoInv

/-- Node by node the decoding takes the key off again and divides by the rho. -/
theorem decode_encode {nodes : Nat} {value : Nat → Fr} (nonzero : ∀ node < nodes, value node ≠ 0)
    (length : data.length = nodeSize * nodes)
    (canonical : ∀ node < nodes, leValue (nodeAt data node) < frModulus) :
    opStream decodeOp (fun node => (value node)⁻¹) nodes
    (opStream encodeOp value nodes key data) key = data := by
  have each : ∀ node < nodes, blstUint64FromFr (decodeOp
      (blstFrFromUint64 (nodeAt (opStream encodeOp value nodes key data) node))
      (blstFrFromUint64 (nodeAt key node)) (value node)⁻¹) = nodeAt data node := by
    intro node below
    have whole : (nodeAt data node).length = nodeSize := by
      grind [nodeAt, nodeSize]
    rw [opStream, nodeLoop, nodeAt_flatMap (fun _ _ => blstUint64FromFr_length _) below,
      blstFrFromUint64_from, decodeOp, encodeOp, add_sub_cancel_left,
      mul_inv_cancel_right₀ (nonzero node below)]
    exact blstUint64FromFr_of ⟨whole, canonical node below⟩
  calc
    _ = (range nodes).flatMap (nodeAt data) := by
      rw [opStream, nodeLoop, flatMap]
      congr 1
      exact map_congr_left fun node member => each node (mem_range.mp member)
    _ = data := flatMap_nodeAt length

theorem known_of_entries {rhos : Rhos} {value : Nat → Fr} {nodes : Nat}
    (entries : ∀ node < nodes, rhos.rhos.get (node >>> rhos.bitsShr)
      = some (ffElementBytesLE (value node))) : Known rhos value nodes := by
  intro node below
  rw [Rhos.get, entries node below]
  rfl

section

variable (ready : SnapReady lib spt commD commK ssize phiVal)
include ready

theorem SnapReady.nodeRho_ne_zero {node : Nat}
    (below : node < ssize / nodeSize) : nodeRho lib phiVal ssize node ≠ 0 := by
  obtain ⟨value, nonzero, computed⟩ := ready.rho node below
  rw [nodeRho, rho_eq computed]
  exact nonzero

theorem SnapReady.params : snapParams lib spt commD commK = .ok (ssize / nodeSize, phiVal) := by
  obtain ⟨commDNew, commROld, gotD, gotR, gotPhi⟩ := ready.phi
  simp [snapParams, ready.sectorSize, gotD, gotR, gotPhi]

theorem SnapReady.table (store : Fr → Fr) :
    ∃ table, rhoTable lib store phiVal (hDefault (ssize / nodeSize)) (ssize / nodeSize) 0
        (ssize / nodeSize) = .ok table ∧
      ∀ node < ssize / nodeSize, table.rhos.get (node >>> table.bitsShr)
        = some (ffElementBytesLE (store (nodeRho lib phiVal ssize node))) := by
  obtain ⟨whole, positive, small⟩ := supported_nodes ready.supported
  have computed := fun node below => (ready.rho node below).imp fun _ both => both.2
  obtain ⟨table, built, bits, entries⟩ :=
    rhoTable_spec positive (lt_of_le_of_lt (Nat.div_le_self _ _) small) computed
  refine ⟨table, built, fun node below => ?_⟩
  rw [entries node below, nodeRho, bits]

theorem SnapReady.rhosInverse : RhosInverse lib spt commD commK := by
  obtain ⟨rhos, built, entries⟩ := ready.table id
  obtain ⟨rhoInvs, builtInv, entriesInv⟩ := ready.table fun rhoVal => rhoVal⁻¹
  refine ⟨_, phiVal, rhos, rhoInvs, ready.params, built, builtInv, fun node below => ?_⟩
  have nonzero := ready.nodeRho_ne_zero below
  rw [Rhos.get, Rhos.get, entries node below, entriesInv node below]
  refine ⟨rfl, rfl, ?_⟩
  show blstFrFromUint64 (blstUint64FromFr _) * blstFrFromUint64 (blstUint64FromFr _) = 1
  rw [blstFrFromUint64_from, blstFrFromUint64_from]
  exact mul_inv_cancel₀ nonzero

theorem SnapReady.roundTrip (staffed : 2 ≤ numCPU) (key_length : key.length = ssize)
    (data_length : data.length = ssize)
    (canonical : ∀ node < ssize / nodeSize, leValue (nodeAt data node) < frModulus) :
    SnapRoundTrip lib numCPU spt commD commK key data := by
  obtain ⟨whole, positive, small⟩ := supported_nodes ready.supported
  obtain ⟨rhos, built, entries⟩ := ready.table id
  obtain ⟨rhoInvs, builtInv, entriesInv⟩ := ready.table fun rhoVal => rhoVal⁻¹
  have keyNodes : key.length = nodeSize * (ssize / nodeSize) := key_length.trans whole.symm
  have dataNodes : data.length = nodeSize * (ssize / nodeSize) := data_length.trans whole.symm
  refine ⟨opStream encodeOp (nodeRho lib phiVal ssize) (ssize / nodeSize) key data, ?_, ?_⟩
  · intro env
    refine ⟨_, ?_, snapPipeline_succeeds encodeOp env staffed (known_of_entries entries) keyNodes
      dataNodes (whole.symm ▸ small)⟩
    simp only [encodeSnap, ready.params, new, newRange, built, ok_bind]
    rfl
  · intro env
    have decoded := snapPipeline_succeeds decodeOp env staffed (known_of_entries entriesInv)
      (show (opStream encodeOp (nodeRho lib phiVal ssize) _ key data).length = _ from
        nodeLoop_length _ _ _ _) keyNodes (whole.symm ▸ small)
    have nonzero : ∀ node < ssize / nodeSize, nodeRho lib phiVal ssize node ≠ 0 :=
      fun node below => ready.nodeRho_ne_zero below
    rw [decode_encode nonzero dataNodes canonical] at decoded
    refine ⟨_, ?_, decoded⟩
    simp only [decodeSnap, ready.params, newInv, newInvRange, builtInv, ok_bind]
    rfl

end

theorem decodeSnap_eq_ok {env : SnapEnv} {keySource replica : Source}
    {pipeline : Pipeline Job UInt8 IoError}
    (returned : decodeSnap lib numCPU env spt commD commK keySource replica = .ok pipeline) :
    pipeline.workers = numCPU / 2 := by
  rw [decodeSnap, bind_eq_ok] at returned
  obtain ⟨params, -, returned⟩ := returned
  obtain ⟨rhoInvs, -, returned⟩ := bind_eq_ok.mp returned
  cases returned
  exact snapPipeline_workers _ _ _ _

def plainEnv : SnapEnv where
  pool := ⟨fun _ => replicate bufSz 0, fun _ => length_replicate⟩
  outs := ⟨fun _ size => replicate size 0, fun _ _ => length_replicate⟩
  write := fun _ => none

theorem snapRoundTrip_unstaffed (few : numCPU < 2) (some : data ≠ []) :
    ¬ SnapRoundTrip lib numCPU spt commD commK key data := by
  rintro ⟨replica, -, decoded⟩
  obtain ⟨pipeline, returned, succeeds⟩ := decoded plainEnv
  have unstaffed : pipeline.workers = 0 := by
    rw [decodeSnap_eq_ok returned]
    omega
  exact some (succeeds.toDelivers.unstaffed unstaffed).1

theorem snap_round_trip_iff (ready : SnapReady lib spt commD commK ssize phiVal)
    (key_length : key.length = ssize) (data_length : data.length = ssize)
    (canonical : ∀ node < ssize / nodeSize, leValue (nodeAt data node) < frModulus) :
    SnapRoundTrip lib numCPU spt commD commK key data ∧ RhosInverse lib spt commD commK ↔
      2 ≤ numCPU := by
  constructor
  · rintro ⟨roundTrip, -⟩
    by_contra few
    have some : data ≠ [] := by
      rw [← length_pos_iff, data_length]
      have positive := (supported_nodes ready.supported).2.1
      exact Nat.pos_of_ne_zero fun zero => by simp [zero] at positive
    exact snapRoundTrip_unstaffed (Nat.lt_of_not_le few) some roundTrip
  · intro staffed
    exact ⟨ready.roundTrip staffed key_length data_length canonical, ready.rhosInverse⟩

def plainLib : SnapLib Unit Unit where
  sectorSize := fun _ => .ok 2048
  cidToDataCommitmentV1 := fun _ => .ok []
  cidToReplicaCommitmentV1 := fun _ => .ok []
  genPoseidonConstants := .ok ()
  poseidonHash := fun _ _ => .ok 3

theorem three_ne_zero : ((3 : Nat) : Fr) ≠ 0 :=
  (ZMod.natCast_eq_zero_iff 3 frModulus).not.mpr (Nat.not_dvd_of_pos_of_lt (by decide) (by decide))

theorem plainLib_ready : SnapReady plainLib () () () 2048 (ffElementBytesLE ((3 : Nat) : Fr)) where
  sectorSize := rfl
  supported := by decide
  phi := ⟨[], [], rfl, rfl, rfl⟩
  rho := fun _ _ => ⟨((3 : Nat) : Fr), three_ne_zero, rfl⟩

theorem sevens_canonical : ∀ node < 2048 / nodeSize,
    leValue (nodeAt (replicate 2048 7) node) < frModulus := by
  intro node inside
  simp only [nodeSize] at inside
  have whole : min nodeSize (2048 - nodeSize * node) = 32 := by
    simp only [nodeSize]
    omega
  rw [nodeAt, drop_replicate, take_replicate, whole]
  decide

theorem snap_round_trip_two_cpus :
    SnapRoundTrip plainLib 2 () () () (replicate 2048 5) (replicate 2048 7) ∧
      RhosInverse plainLib () () () :=
  (snap_round_trip_iff plainLib_ready length_replicate length_replicate
    sevens_canonical).mpr (by decide)

/-- On a machine with one CPU the round trip of a sector of zeros fails, though the tables are
there. -/
theorem snap_round_trip_one_cpu :
    ¬ SnapRoundTrip plainLib 1 () () () (replicate 2048 0) (replicate 2048 0) ∧
      ∃ pipeline, encodeSnap plainLib 1 plainEnv () () () { bytes := replicate 2048 0 }
          { bytes := replicate 2048 0 } = .ok pipeline ∧
        ∃ actions state, StepMachine.run pipeline.step pipeline.init actions = some state ∧
          state.outcome = .returned none ∧ state.writer.out = [] := by
  refine ⟨snapRoundTrip_unstaffed (by decide) (by decide), ?_⟩
  obtain ⟨rhos, built, -⟩ := plainLib_ready.table id
  refine ⟨snapPipeline 1 plainEnv (workerEnc plainEnv.outs rhos)
    { bytes := replicate 2048 0 } { bytes := replicate 2048 0 }, ?_, _, run_idle rfl⟩
  simp only [encodeSnap, plainLib_ready.params, new, newRange, built, ok_bind]
  rfl

end Curio.CuNative
