import Mathlib.Tactic

/-! `tasks/seal/batch_timeout.go` and the numbering of the candidate queries: rows of sectors are
cut into batches, and a batch is sent when it is full, late or old enough. -/

namespace Curio.Seal

open List

abbrev Time := Int

inductive BatchReason where
  | full (batchSize maxBatch : Nat)
  | slack (minStartEpoch : Int)
  | timeout (earliestReady : Time)
  | none
  deriving DecidableEq

structure BatchEvalResult where
  shouldFire : Bool
  reason : BatchReason
  deriving DecidableEq

def evalBatchTimeout (earliestReady : Time) (timeout minStartEpoch slackEpochs currentHeight : Int)
    (now : Time) (batchSize maxBatch : Nat) : BatchEvalResult :=
  if maxBatch > 0 ∧ batchSize ≥ maxBatch then ⟨true, .full batchSize maxBatch⟩
  else if minStartEpoch - slackEpochs ≤ currentHeight then ⟨true, .slack minStartEpoch⟩
  else if ¬ now < earliestReady + timeout then ⟨true, .timeout earliestReady⟩
  else ⟨false, .none⟩

structure BatchRow where
  spID : Int
  sectorNumber : Int
  startEpoch : Int
  readyAt : Time
  regSealProof : Int
  batchIndex : Int := 0
  deriving DecidableEq

structure BatchCandidate where
  spID : Int
  regSealProof : Int
  sectorNums : List Int
  minStartEpoch : Int
  earliestReady : Time
  deriving DecidableEq

def BatchRow.newBatch (r : BatchRow) : BatchCandidate :=
  ⟨r.spID, r.regSealProof, [], r.startEpoch, r.readyAt⟩

def BatchCandidate.append (cur : BatchCandidate) (r : BatchRow) : BatchCandidate :=
  { cur with
    sectorNums := cur.sectorNums ++ [r.sectorNumber]
    minStartEpoch := if r.startEpoch < cur.minStartEpoch then r.startEpoch else cur.minStartEpoch
    earliestReady := if r.readyAt < cur.earliestReady then r.readyAt else cur.earliestReady }

def groupLoop (cur : BatchCandidate) (curIdx : Int) : List BatchRow → List BatchCandidate
  | [] => [cur]
  | r :: rest =>
    if r.spID = cur.spID ∧ r.regSealProof = cur.regSealProof ∧ r.batchIndex = curIdx then
      groupLoop (cur.append r) curIdx rest
    else cur :: groupLoop (r.newBatch.append r) r.batchIndex rest

def groupBatchRows : List BatchRow → List BatchCandidate
  | [] => []
  | r :: rest => groupLoop r.newBatch r.batchIndex (r :: rest)

def BatchRow.sector (r : BatchRow) : Int × Int × Int := (r.spID, r.regSealProof, r.sectorNumber)

def BatchCandidate.sectors (batch : BatchCandidate) : List (Int × Int × Int) :=
  batch.sectorNums.map fun number => (batch.spID, batch.regSealProof, number)

variable {cur : BatchCandidate}

theorem BatchCandidate.append_sectors {r : BatchRow} (sameSp : r.spID = cur.spID)
    (sameProof : r.regSealProof = cur.regSealProof) :
    (cur.append r).sectors = cur.sectors ++ [r.sector] := by
  simp [BatchCandidate.sectors, BatchCandidate.append, BatchRow.sector, sameSp, sameProof]

theorem groupLoop_sectors {curIdx : Int} {rows : List BatchRow} :
    (groupLoop cur curIdx rows).flatMap BatchCandidate.sectors
      = cur.sectors ++ rows.map BatchRow.sector := by
  induction rows generalizing cur curIdx with
  | nil => simp [groupLoop]
  | cons r rest ih =>
    unfold groupLoop
    split
    · rename_i same
      rw [ih, BatchCandidate.append_sectors same.1 same.2.1, append_assoc]
      rfl
    · rw [flatMap_cons, ih]
      rfl

theorem groupBatchRows_sectors (rows : List BatchRow) :
    (groupBatchRows rows).flatMap BatchCandidate.sectors = rows.map BatchRow.sector := by
  cases rows with
  | nil => rfl
  | cons r rest => exact groupLoop_sectors

variable (order : BatchRow → Int) (maxBatch : Nat) {initial : List BatchRow}

/-- `ORDER BY sp_id, reg_seal_proof, batch_index, …` -/
def BatchRow.before (a b : BatchRow) : Prop :=
  toLex (a.spID, toLex (a.regSealProof, toLex (a.batchIndex, order a)))
    ≤ toLex (b.spID, toLex (b.regSealProof, toLex (b.batchIndex, order b)))

instance : DecidableRel (BatchRow.before order) := fun _ _ => inferInstanceAs (Decidable (_ ≤ _))

/-- `FLOOR((rn - 1)::NUMERIC / max)`, where the rows that come first are known. -/
def numberFrom (first : List BatchRow) : List BatchRow → List BatchRow
  | [] => []
  | r :: rest =>
    let rows := first.countP fun other =>
      other.spID = r.spID && other.regSealProof = r.regSealProof
    { r with batchIndex := (rows / maxBatch : Nat) } :: numberFrom (r :: first) rest

/-- The end of a candidate query: `ROW_NUMBER() OVER (PARTITION BY sp_id, reg_seal_proof ORDER BY …)`
gives the batches, by which the rows are sorted. -/
def numbered (initial : List BatchRow) : List BatchRow :=
  (numberFrom maxBatch [] (initial.insertionSort (BatchRow.before order))).insertionSort
    (BatchRow.before order)

theorem numberFrom_sectors (first rows : List BatchRow) :
    (numberFrom maxBatch first rows).map BatchRow.sector = rows.map BatchRow.sector := by
  induction rows generalizing first with
  | nil => rfl
  | cons r rest ih => simp [numberFrom, ih, BatchRow.sector]

theorem numbered_sectors :
    ((numbered order maxBatch initial).map BatchRow.sector).Perm (initial.map BatchRow.sector) := by
  refine ((perm_insertionSort _ _).map _).trans ?_
  rw [numberFrom_sectors]
  exact (perm_insertionSort _ _).map _

theorem mem_sectors_of_batch {batch : BatchCandidate}
    (made : batch ∈ groupBatchRows (numbered order maxBatch initial)) {sector : Int × Int × Int}
    (member : sector ∈ batch.sectors) : sector ∈ initial.map BatchRow.sector := by
  apply (numbered_sectors order maxBatch).mem_iff.mp
  rw [← groupBatchRows_sectors]
  exact mem_flatMap.mpr ⟨batch, made, member⟩

end Curio.Seal
