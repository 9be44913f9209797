import Curio.GoRuntime
import Curio.Paths.VanillaProof

/-! `tasks/window/compute_do.go`: the window PoSt of a partition. The vanilla proofs of its sectors
are read at the same time, those that are missing are left out of the SNARK, and their sectors are
submitted as skipped. -/

namespace Curio.Window

open GoRuntime Paths List

abbrev SectorNumber := Nat

/-- `bitfield.BitField`: a set of numbers, which is walked through in ascending order. -/
structure BitField where
  ones : List Nat
  ascending : ones.Pairwise (· < ·)

namespace BitField

def new : BitField := ⟨[], Pairwise.nil⟩

def insert (number : Nat) : List Nat → List Nat
  | [] => [number]
  | one :: rest =>
    if number < one then number :: one :: rest
    else if number = one then one :: rest
    else one :: insert number rest

theorem mem_insert {number other : Nat} {ones : List Nat} :
    other ∈ insert number ones ↔ other = number ∨ other ∈ ones := by
  induction ones with
  | nil => simp [insert]
  | cons one rest ih => grind [insert]

theorem insert_ascending (number : Nat) {ones : List Nat} (ascending : ones.Pairwise (· < ·)) :
    (insert number ones).Pairwise (· < ·) := by
  induction ones with
  | nil => exact pairwise_singleton _ _
  | cons one rest ih =>
    obtain ⟨below, tail⟩ := pairwise_cons.mp ascending
    unfold insert
    split
    · rename_i less
      refine pairwise_cons.mpr ⟨fun other member => ?_, ascending⟩
      grind
    · rename_i notLess
      split
      · exact ascending
      · rename_i apart
        refine pairwise_cons.mpr ⟨fun other member => ?_, ih tail⟩
        rcases mem_insert.mp member with rfl | later
        · omega
        · exact below other later

def set (field : BitField) (number : Nat) : BitField :=
  ⟨insert number field.ones, insert_ascending number field.ascending⟩

def subtract (field other : BitField) : BitField :=
  ⟨field.ones.filter fun number => number ∉ other.ones, field.ascending.filter _⟩

def merge (field other : BitField) : BitField := other.ones.foldl set field

end BitField

structure ExtendedSectorInfo where
  sealProof : Int := 0
  sectorNumber : SectorNumber := 0
  sectorKey : Option String := none
  sealedCID : String := ""
  deriving DecidableEq

structure SectorInfo where
  sealProof : Int := 0
  sectorNumber : SectorNumber := 0
  sealedCID : Option String := none
  deriving DecidableEq

def ExtendedSectorInfo.toSectorInfo (xsi : ExtendedSectorInfo) : SectorInfo :=
  ⟨xsi.sealProof, xsi.sectorNumber, some xsi.sealedCID⟩

structure Partition where
  allSectors : BitField
  liveSectors : BitField
  faultySectors : BitField
  recoveringSectors : BitField

structure FallbackChallenges where
  sectors : List SectorNumber
  challenges : SectorNumber → List Nat

/-- What the task gets from the chain, the storage, the prover and the scheduler of Go. -/
structure Env where
  stateMinerSectors : BitField → Except String (List ExtendedSectorInfo)
  rand : Bytes
  maxPartitionSize : Except String Nat
  maxPartitionSize_pos : ∀ size, maxPartitionSize = .ok size → 0 < size
  /-- `ffi.GeneratePoStFallbackSectorChallenges` -/
  fallbackChallenges : (randomness : Bytes) → List SectorNumber → Except String FallbackChallenges
  /-- Sectors that are asked for in ascending order come back in this order. -/
  fallbackChallenges_sectors : ∀ randomness sectorNums challenges,
    sectorNums.Pairwise (· < ·) → fallbackChallenges randomness sectorNums = .ok challenges →
      challenges.sectors = sectorNums
  generateSingleVanillaProof : PostSectorChallenge → Except VanillaError Slice
  /-- The order in which the readers get the mutex. -/
  order : Nat → List Nat
  order_perm : ∀ count, (order count).Perm (range count)
  /-- Why the context has ended while a reader waited for its turn. -/
  throttled : Option String
  snark : (randomness : Bytes) → (vanilla : List Bytes) → Except String Bytes
  mergeProofs : List Bytes → Except String Bytes
  /-- The randomness that the chain has for the challenge at the end. -/
  checkRand : Except String Bytes
  verify : (proofs : List Bytes) → (challengedSectors : List SectorInfo) → Except String Bool

section Vanilla

variable (env : Env)

structure Reading where
  skipped : List SectorNumber
  vproofs : List Bytes

def finishReader (sectors : List PostSectorChallenge) (reading : Reading) (i : Nat) : Reading :=
  match sectors[i]? with
  | none => reading
  | some s =>
    match env.generateSingleVanillaProof s with
    | .ok (some vanilla) => { reading with vproofs := reading.vproofs.set i vanilla }
    | .ok none | .error _ => { reading with skipped := reading.skipped ++ [s.sectorNumber] }

def readVanilla (sectors : List PostSectorChallenge) : Reading :=
  (env.order sectors.length).foldl (finishReader env sectors) ⟨[], replicate sectors.length []⟩

def compactStep (state : List Bytes × Nat) (i : Nat) : List Bytes × Nat :=
  let (vproofs, skippedSoFar) := state
  if (vproofs.getD i []).length = 0 then (vproofs, skippedSoFar + 1)
  else if skippedSoFar > 0 then (vproofs.set (i - skippedSoFar) (vproofs.getD i []), skippedSoFar)
  else (vproofs, skippedSoFar)

def compact (vproofs : List Bytes) : List Bytes :=
  let (out, skippedSoFar) := (range vproofs.length).foldl compactStep (vproofs, 0)
  out.take (out.length - skippedSoFar)

structure WindowPoStResult where
  postProofs : Bytes := []
  skipped : List SectorNumber := []

structure Generated where
  snark : Option (List Bytes) := none
  result : WindowPoStResult := {}
  err : Option String := none

def generateWindowPoStAdv (sectors : List PostSectorChallenge) (randomness : Bytes)
    (allowSkip : Bool) : Generated :=
  match env.throttled with
  | some message => { err := some ("context error waiting on challengeThrottle: " ++ message) }
  | none =>
    let reading := readVanilla env sectors
    if reading.skipped.length > 0 && !allowSkip then { result := { skipped := reading.skipped } }
    else
      let vproofs := compact reading.vproofs
      match env.snark randomness vproofs with
      | .ok res => { snark := some vproofs, result := ⟨res, reading.skipped⟩ }
      | .error message =>
        { snark := some vproofs
          result := { skipped := reading.skipped }
          err := some ("generate window PoSt with vanilla proofs: " ++ message) }

end Vanilla

def maskRandomness (randomness : Bytes) : Bytes := randomness.modify 31 (· &&& 0x3f)

def sortSectors (sectorInfo : List ExtendedSectorInfo) : List ExtendedSectorInfo :=
  sectorInfo.insertionSort fun a b => a.sectorNumber ≤ b.sectorNumber

def sectorOf (sectorInfo : List ExtendedSectorInfo) (snum : SectorNumber) : ExtendedSectorInfo :=
  (sectorInfo.reverse.find? fun s => s.sectorNumber = snum).getD {}

def postSectorChallenge (post : FallbackChallenges) (snum : SectorNumber)
    (sinfo : ExtendedSectorInfo) : PostSectorChallenge :=
  ⟨sinfo.sealProof, snum, sinfo.sealedCID, post.challenges snum, sinfo.sectorKey.isSome⟩

/-- The first part of `generateWindowPoSt`: the challenged sectors of the one partition. -/
def challengedSectors (env : Env) (sectorInfo : List ExtendedSectorInfo) :
    Go (List PostSectorChallenge) :=
  if env.rand.length ≤ 31 then
    panics ("runtime error: index out of range [31] with length " ++ toString env.rand.length)
  else if sectorInfo.length = 0 then fail "generate window post len(sectorInfo)=0"
  else
    match env.maxPartitionSize with
    | .error message => fail ("get sectors count of partition failed:" ++ message)
    | .ok maxPartitionSize =>
      let partitionCount := (sectorInfo.length + maxPartitionSize - 1) / maxPartitionSize
      if partitionCount > 1 then
        fail ("generateWindowPoSt partitionCount:" ++ toString partitionCount ++
          ", only support 1")
      else
        let sectorInfo := sortSectors sectorInfo
        let sectorNums := sectorInfo.map ExtendedSectorInfo.sectorNumber
        match env.fallbackChallenges (maskRandomness env.rand) sectorNums with
        | .error message => fail ("generating fallback challenges: " ++ message)
        | .ok postChallenges =>
          .ok ((postChallenges.sectors.take maxPartitionSize).map fun snum =>
            postSectorChallenge postChallenges snum (sectorOf sectorInfo snum))

/-- What is seen of a run: the input of the SNARK, the sectors that are reported as skipped, and
the sectors that the verifier is given. -/
structure Observed where
  snark : Option (List Bytes) := none
  skipped : List SectorNumber := []
  verified : Option (List SectorInfo) := none

def generateWindowPoSt (env : Env) (sectorInfo : List ExtendedSectorInfo) :
    Observed × Go (List Bytes) :=
  match challengedSectors env sectorInfo with
  | .error fault => ({}, .error fault)
  | .ok sectors =>
    let pr := generateWindowPoStAdv env sectors (maskRandomness env.rand) true
    let observed : Observed := { snark := pr.snark, skipped := pr.result.skipped }
    match env.mergeProofs [pr.result.postProofs] with
    | .error message => (observed, fail ("merge windowPoSt partition proofs: " ++ message))
    | .ok postProofs =>
      match pr.err with
      | some message => (observed, fail ("partitionIndex: 0 err: " ++ message))
      | none => (observed, .ok [postProofs])

def toProve (partition : Partition) (test : Bool) : BitField :=
  let live := if test then partition.liveSectors
    else partition.liveSectors.subtract partition.faultySectors
  live.merge partition.recoveringSectors

def proofSectors (sset : List ExtendedSectorInfo) (allSectors : BitField) :
    List ExtendedSectorInfo :=
  allSectors.ones.filterMap fun sectorNo =>
    sset.reverse.find? fun sector => sector.sectorNumber = sectorNo

def sectorsForProof (env : Env) (goodSectors allSectors : BitField) :
    Except String (List ExtendedSectorInfo) := do
  let sset ← env.stateMinerSectors goodSectors
  if sset.length = 0 then .ok [] else .ok (proofSectors sset allSectors)

def placeSectors (computeSkipped : List SectorNumber) :
    List ExtendedSectorInfo → SectorInfo → List SectorInfo × SectorInfo
  | [], firstStandIn => ([], firstStandIn)
  | xsi :: rest, firstStandIn =>
    if xsi.sectorNumber ∈ computeSkipped then
      let (sinfos, first) := placeSectors computeSkipped rest firstStandIn
      ({} :: sinfos, first)
    else
      let si := xsi.toSectorInfo
      let (sinfos, first) := placeSectors computeSkipped rest
        (if firstStandIn.sealedCID = none then si else firstStandIn)
      (si :: sinfos, first)

def fillStandIns (computeSkipped : List SectorNumber) (xsinfos : List ExtendedSectorInfo) :
    List SectorInfo :=
  let (sinfos, firstStandIn) := placeSectors computeSkipped xsinfos {}
  sinfos.map fun si => if si.sealedCID = none then firstStandIn else si

structure SubmitWindowedPoStParams where
  index : Nat
  skipped : BitField
  proofs : List Bytes

/-- The proofs are there: the skipped sectors, the check of the randomness, the verifier. -/
def checkAndSubmit (env : Env) (partIdx : Nat) (xsinfos : List ExtendedSectorInfo)
    (observed : Observed) (postOut : List Bytes) :
    Observed × Except String SubmitWindowedPoStParams :=
  match env.checkRand with
  | .error message => (observed, .error message)
  | .ok checkRand =>
    if checkRand ≠ env.rand then
      (observed, .error "post generation randomness was different from random beacon")
    else
      let skipped := observed.skipped.foldl BitField.set .new
      let sinfos := fillStandIns observed.skipped xsinfos
      let observed := { observed with verified := some sinfos }
      match env.verify postOut sinfos with
      | .error message => (observed, .error ("failed to verify window post: " ++ message))
      | .ok false => (observed, .error "window post verification failed: proof was invalid")
      | .ok true => (observed, .ok ⟨partIdx, skipped, postOut⟩)

/-- After the sectors of the partition are known; `DoPartition` recovers from a panic. -/
def provePartition (env : Env) (partIdx : Nat) (xsinfos : List ExtendedSectorInfo) :
    Observed × Except String SubmitWindowedPoStParams :=
  if xsinfos.length = 0 then ({}, .error "no sectors to prove")
  else
    match generateWindowPoSt env xsinfos with
    | (observed, .error (.panic message)) => (observed, .error ("panic in doPartition: " ++ message))
    | (observed, .error _) => (observed, .error "failed to generate window post")
    | (observed, .ok postOut) =>
      if postOut.length = 0 then
        (observed, .error "received no proofs back from generate window post")
      else
        -- `generateWindowPoSt` has sorted the slice
        checkAndSubmit env partIdx (sortSectors xsinfos) observed postOut

def doPartition (env : Env) (partIdx : Nat) (partition : Partition) (test : Bool) :
    Observed × Except String SubmitWindowedPoStParams :=
  match sectorsForProof env (toProve partition test) partition.allSectors with
  | .error message => ({}, .error ("getting sorted sector info: " ++ message))
  | .ok xsinfos => provePartition env partIdx xsinfos

end Curio.Window
