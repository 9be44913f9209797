import Curio.GoRuntime

/-! `market/storageingest`: how the ingesters for new sectors and for sector upgrades give a piece
to a sector.

The table `open_sector_pieces` is that of one miner. A query answers with its rows in some order,
and Go ranges over the map of open sectors in some order. Sizes and epochs do not wrap: the sizes of
a sector's pieces add up to less than `2 ^ 64`, and epochs are less than `2 ^ 62` from zero. -/

namespace Curio.StorageIngest

open GoRuntime

abbrev Epoch := Int

abbrev SectorNumber := Nat

structure OpenPiece where
  sectorNumber : SectorNumber
  pieceIndex : Int
  pieceCid : String
  pieceSize : Nat
  directStartEpoch : Option Epoch
  directEndEpoch : Option Epoch
  f05DealStartEpoch : Option Epoch
  f05DealEndEpoch : Option Epoch
  isSnap : Bool
  deriving DecidableEq

def OpenPiece.dealStartEpoch (row : OpenPiece) : Epoch :=
  (row.directStartEpoch <|> row.f05DealStartEpoch).getD 0

def OpenPiece.dealEndEpoch (row : OpenPiece) : Epoch :=
  (row.directEndEpoch <|> row.f05DealEndEpoch).getD 0

structure PieceInfo where
  cid : String
  size : Nat
  deriving DecidableEq

structure OpenSector where
  number : SectorNumber
  currentSize : Nat
  earliestStartEpoch : Epoch
  index : Int
  latestEndEpoch : Epoch
  pieces : List PieceInfo
  deriving DecidableEq

def getStartEpoch (new cur : Epoch) : Epoch := if 0 < cur ∧ cur < new then cur else new

def getEndEpoch (new cur : Epoch) : Epoch := if 0 < cur ∧ new < cur then cur else new

/-- The entry of a sector that is not in the map. -/
def OpenSector.first (pi : OpenPiece) : OpenSector where
  number := pi.sectorNumber
  currentSize := pi.pieceSize
  earliestStartEpoch := getStartEpoch pi.dealStartEpoch 0
  index := pi.pieceIndex
  latestEndEpoch := getEndEpoch pi.dealEndEpoch 0
  pieces := [⟨pi.pieceCid, pi.pieceSize⟩]

/-- The latest end epoch is computed from the earliest start epoch. -/
def OpenSector.add (sector : OpenSector) (pi : OpenPiece) : OpenSector :=
  let earliestStartEpoch := getStartEpoch pi.dealStartEpoch sector.earliestStartEpoch
  { sector with
    currentSize := sector.currentSize + pi.pieceSize
    earliestStartEpoch := earliestStartEpoch
    latestEndEpoch := getEndEpoch pi.dealEndEpoch earliestStartEpoch
    index := if sector.index < pi.pieceIndex then pi.pieceIndex else sector.index
    pieces := sector.pieces ++ [⟨pi.pieceCid, pi.pieceSize⟩] }

def addRow (sectorMap : List OpenSector) (pi : OpenPiece) : List OpenSector :=
  if sectorMap.any (·.number == pi.sectorNumber) then
    sectorMap.map fun sector => if sector.number = pi.sectorNumber then sector.add pi else sector
  else sectorMap ++ [OpenSector.first pi]

def getOpenSectors (rows : List OpenPiece) : List OpenSector := rows.foldl addRow []

structure DealProposal where
  pieceCID : String
  pieceSize : Nat
  verifiedDeal : Bool
  client : String
  deriving DecidableEq

structure PieceActivationManifest where
  cid : String
  size : Nat
  /-- Client and id of the allocation. -/
  verifiedAllocationKey : Option (Nat × Nat)
  deriving DecidableEq

inductive Deal where
  | market (dealID : Nat) (proposal : DealProposal)
  | direct (manifest : PieceActivationManifest)
  deriving DecidableEq

structure PieceDealInfo where
  deal : Deal
  startEpoch : Epoch
  endEpoch : Epoch
  deriving DecidableEq

def PieceDealInfo.pieceCID (piece : PieceDealInfo) : String :=
  match piece.deal with
  | .market _ proposal => proposal.pieceCID
  | .direct manifest => manifest.cid

def PieceDealInfo.size (piece : PieceDealInfo) : Nat :=
  match piece.deal with
  | .market _ proposal => proposal.pieceSize
  | .direct manifest => manifest.size

structure VerifiedDeal where
  isVerified : Bool
  tmin : Epoch := 0
  tmax : Epoch := 0
  deriving DecidableEq

structure Allocation where
  termMin : Epoch
  termMax : Epoch
  deriving DecidableEq

structure SectorOnChainInfo where
  expiration : Epoch
  sealProof : Nat
  deriving DecidableEq

structure Deadline where
  index : Nat
  currentEpoch : Epoch
  opened : Epoch
  wPoStPeriodDeadlines : Nat
  wPoStProvingPeriod : Epoch

/-- What the node answers. The two heads are those that are read before and in
`allocateToExisting`. -/
structure Chain where
  getAllocationForPendingDeal : Nat → Call (Option Allocation)
  getAllocationIdForPendingDeal : Nat → Call Nat
  lookupID : String → Call Nat
  getAllocation : Nat → Nat → Call (Option Allocation)
  chainHead : Call Epoch
  laterHead : Call Epoch
  sectorGetInfo : SectorNumber → Call (Option SectorOnChainInfo)
  minerProvingDeadline : Call Deadline
  sectorPartition : SectorNumber → Call (Nat × Nat)
  /-- The active sectors of the partitions of a deadline. -/
  minerPartitions : Nat → Call (List (SectorNumber → Call Bool))
  allocateSectorNumbers : Call (List SectorNumber)

structure MinerDetails where
  sectorSize : Nat
  sealProof : Nat

structure Placement where
  sector : SectorNumber
  sealProof : Nat
  existing : Bool
  table : List OpenPiece

/-- `insert_sector_market_piece`, `insert_sector_ddo_piece` and `insert_snap_ddo_piece` -/
def insertPiece (snap : Bool) (sector : SectorNumber) (index : Int) (piece : PieceDealInfo)
    (table : List OpenPiece) : Go (List OpenPiece) :=
  if table.any (fun row => row.sectorNumber == sector && row.pieceIndex == index) then
    fail ("Conflict detected for piece_index " ++ toString index)
  else
    .ok (table ++ [{
      sectorNumber := sector
      pieceIndex := index
      pieceCid := piece.pieceCID
      pieceSize := piece.size
      directStartEpoch := match piece.deal with
        | .market _ _ => none
        | .direct _ => some piece.startEpoch
      directEndEpoch := match piece.deal with
        | .market _ _ => none
        | .direct _ => some piece.endEpoch
      f05DealStartEpoch := match piece.deal with
        | .market _ _ => some piece.startEpoch
        | .direct _ => none
      f05DealEndEpoch := match piece.deal with
        | .market _ _ => some piece.endEpoch
        | .direct _ => none
      isSnap := snap }])

def OpenSector.has (sec : OpenSector) (piece : PieceDealInfo) : Bool :=
  sec.pieces.any fun found => found.cid == piece.pieceCID && found.size == piece.size

/-- The test of the two `allocateToExisting` for which a sector is passed over. -/
def outsideTerm (vd : VerifiedDeal) (sectorLifeTime : Epoch) : Bool :=
  sectorLifeTime ≤ vd.tmin ∧ vd.tmax ≤ sectorLifeTime

abbrev PaddedSize := Int → Nat

namespace PieceIngester

variable (chain : Chain)

def verifiedDeal (piece : PieceDealInfo) : Go VerifiedDeal :=
  match piece.deal with
  | .market dealID proposal =>
    if proposal.verifiedDeal then do
      let alloc ← wrap ("getting pending allocation for deal " ++ toString dealID)
        (ofCall (chain.getAllocationForPendingDeal dealID))
      match alloc with
      | none => fail ("no allocation found for deal " ++ toString dealID ++ ": %!w(<nil>)")
      | some alloc => .ok ⟨true, alloc.termMin, alloc.termMax⟩
    else .ok { isVerified := false }
  | .direct manifest =>
    match manifest.verifiedAllocationKey with
    | none => .ok { isVerified := false }
    | some (client, id) => do
        let alloc ← wrap ("getting allocation details for " ++ toString id)
          (ofCall (chain.getAllocation client id))
        match alloc with
        | none => fail ("no allocation found for ID " ++ toString id ++ ": %!w(<nil>)")
        | some alloc => .ok ⟨true, alloc.termMin, alloc.termMax⟩

def allocateToExisting (sectorSize psize : Nat) (piece : PieceDealInfo) (vd : VerifiedDeal)
    (table : List OpenPiece) : List OpenSector → Go (Option (SectorNumber × List OpenPiece))
  | [] => .ok none
  | sec :: rest =>
    if sec.has piece then allocateToExisting sectorSize psize piece vd table rest
    else if sec.currentSize + psize ≤ sectorSize then
      if vd.isVerified = true ∧ outsideTerm vd (sec.latestEndEpoch - sec.earliestStartEpoch) then
        allocateToExisting sectorSize psize piece vd table rest
      else do
        let updated ← wrap "adding deal to sector"
          (insertPiece false sec.number (sec.index + 1) piece table)
        .ok (some (sec.number, updated))
    else allocateToExisting sectorSize psize piece vd table rest

/-- `openSectors` are those of the table, in the order of the loop. -/
def AllocatePieceToSector (paddedSize : PaddedSize) (miner : Option MinerDetails)
    (openSectors : List OpenSector) (table : List OpenPiece) (piece : PieceDealInfo)
    (rawSize : Int) : Go Placement :=
  if piece.size ≠ paddedSize rawSize then fail "raw size doesn't match padded piece size"
  else do
    let vd ← verifiedDeal chain piece
    match miner with
    | none => fail "miner not found"
    | some miner =>
      match ← allocateToExisting miner.sectorSize piece.size piece vd table openSectors with
      | some (sector, updated) => .ok ⟨sector, miner.sealProof, true, updated⟩
      | none => do
          let num ← wrap "allocating new sector" (ofCall chain.allocateSectorNumbers)
          match num with
          | [n] => do
              let updated ← wrap "adding deal to sector" (insertPiece false n 0 piece table)
              .ok ⟨n, miner.sealProof, false, updated⟩
          | _ => fail "expected one sector number"

end PieceIngester

namespace PieceIngesterSnap

def epochsInDay : Epoch := 2880

def idealEndEpochBuffer : Epoch := 2 * epochsInDay

def maxEndEpochBufferUnverified : Epoch := 180 * epochsInDay

def snapImmutableDeadlineEpochsBuffer : Epoch := 59

variable (chain : Chain)

/-- A deal of the market becomes a direct one. -/
def toDirect (piece : PieceDealInfo) : Go (PieceDealInfo × PieceActivationManifest) :=
  match piece.deal with
  | .direct manifest => .ok (piece, manifest)
  | .market dealID proposal => do
      let alloc ← wrap ("getting allocation for deal " ++ toString dealID)
        (ofCall (chain.getAllocationIdForPendingDeal dealID))
      let clientId ← wrap ("getting client address for deal " ++ toString dealID)
        (ofCall (chain.lookupID proposal.client))
      let manifest : PieceActivationManifest :=
        ⟨proposal.pieceCID, proposal.pieceSize, if alloc = 0 then none else some (clientId, alloc)⟩
      .ok ({ piece with deal := .direct manifest }, manifest)

def verifiedDeal (manifest : PieceActivationManifest) : Go VerifiedDeal :=
  match manifest.verifiedAllocationKey with
  | none => .ok { isVerified := false }
  | some (client, id) => do
      let alloc ← wrap ("getting allocation details for " ++ toString id)
        (ofCall (chain.getAllocation client id))
      match alloc with
      | none => fail ("no allocation found for ID " ++ toString id ++ ": %!w(<nil>)")
      | some alloc => .ok ⟨true, alloc.termMin, alloc.termMax⟩

def maxExpiration (head : Epoch) (vd : VerifiedDeal) (piece : PieceDealInfo) : Epoch :=
  if vd.isVerified then head + vd.tmax else piece.endEpoch + maxEndEpochBufferUnverified

def existingSector (head : Epoch) (sectorSize psize : Nat) (piece : PieceDealInfo)
    (vd : VerifiedDeal) (table : List OpenPiece) :
    List OpenSector → Go (Option (SectorNumber × Nat × List OpenPiece))
  | [] => .ok none
  | sec :: rest =>
    if sec.has piece then existingSector head sectorSize psize piece vd table rest
    else if sec.currentSize + psize ≤ sectorSize then
      match chain.sectorGetInfo sec.number with
      | .error _ => existingSector head sectorSize psize piece vd table rest
      -- the node does not know the sector
      | .ok none => panics "invalid memory address or nil pointer dereference"
      | .ok (some si) =>
        if vd.isVerified = true ∧ (si.expiration - head < 0 ∨
            outsideTerm vd (si.expiration - head) = true) then
          existingSector head sectorSize psize piece vd table rest
        else do
          let updated ← wrap "adding deal to sector"
            (insertPiece true sec.number (sec.index + 1) piece table)
          .ok (some (sec.number, si.sealProof, updated))
    else existingSector head sectorSize psize piece vd table rest

def allocateToExisting (sectorSize psize : Nat) (piece : PieceDealInfo) (vd : VerifiedDeal)
    (table : List OpenPiece) (openSectors : List OpenSector) :
    Go (Option (SectorNumber × Nat × List OpenPiece)) := do
  let head ← ofCall chain.laterHead
  existingSector chain head sectorSize psize piece vd table openSectors

structure SectorMeta where
  sectorNum : SectorNumber
  regSealProof : Nat
  expirationEpoch : Option Epoch
  isCC : Bool
  isLive : Bool
  isFaulty : Bool
  deadline : Option Nat

def immutableDeadlines (cur : Deadline) : List Nat :=
  let next := (cur.index + 1) % cur.wPoStPeriodDeadlines
  let epochsInDeadline := cur.currentEpoch - cur.opened
  let epochsPerDeadline := cur.wPoStProvingPeriod.tdiv cur.wPoStPeriodDeadlines
  let nextNext :=
    if epochsPerDeadline - snapImmutableDeadlineEpochsBuffer ≤ epochsInDeadline then
      (next + 1) % cur.wPoStPeriodDeadlines
    else next
  [cur.index, next, nextNext]

/-- The query for the sectors that can be upgraded, nearest to the ideal expiration first. -/
def candidateSectors (sectorsMeta : List SectorMeta) (snapPipeline : List SectorNumber)
    (table : List OpenPiece) (endEpoch maxExpiration : Epoch) (avoided : List Nat) :
    List SectorMeta :=
  let selected (sm : SectorMeta) : Bool :=
    sm.isCC && sm.isLive && !sm.isFaulty &&
      sm.expirationEpoch.any (fun expiration => endEpoch < expiration ∧ expiration < maxExpiration) &&
      sm.deadline.any (fun deadline => deadline ∉ avoided) &&
      !snapPipeline.contains sm.sectorNum &&
      !table.any (fun osp => osp.sectorNumber == sm.sectorNum && osp.pieceIndex == 0)
  let distance (sm : SectorMeta) : Nat :=
    (sm.expirationEpoch.getD 0 - (endEpoch + idealEndEpochBuffer)).natAbs
  (sectorsMeta.filter selected).mergeSort fun left right => distance left ≤ distance right

def bestCandidate : List SectorMeta → Go (Option SectorMeta)
  | [] => .ok none
  | candidate :: rest => do
      let (deadline, part) ← wrap "getting sector locations"
        (ofCall (chain.sectorPartition candidate.sectorNum))
      let dl ← wrap "getting partitions" (ofCall (chain.minerPartitions deadline))
      match dl[part]? with
      | none => fail ("partition " ++ toString part ++ " not found in deadline " ++ toString deadline)
      | some activeSectors => do
          let active ← wrap "checking active sectors" (ofCall (activeSectors candidate.sectorNum))
          if active then .ok (some candidate) else bestCandidate rest

def checkFresh (head : Epoch) (maxExpiration endEpoch : Epoch) (si : SectorOnChainInfo) : Go Unit :=
  if si.expiration - head < 0 then fail "sector lifetime is negative!?"
  else if si.expiration < endEpoch then
    fail ("sector expiration is too soon: " ++ toString si.expiration ++ " < " ++ toString endEpoch)
  else if maxExpiration ≠ 0 ∧ maxExpiration < si.expiration then
    fail ("sector expiration is too late: " ++ toString si.expiration ++ " > " ++
      toString maxExpiration)
  else .ok ()

def AllocatePieceToSector (paddedSize : PaddedSize) (miner : MinerDetails)
    (sectorsMeta : List SectorMeta) (snapPipeline : List SectorNumber)
    (openSectors : List OpenSector) (table : List OpenPiece) (piece : PieceDealInfo)
    (rawSize : Int) : Go Placement :=
  if piece.size ≠ paddedSize rawSize then fail "raw size doesn't match padded piece size"
  else do
    let (piece, manifest) ← toDirect chain piece
    let head ← wrap "getting chain head" (ofCall chain.chainHead)
    let vd ← verifiedDeal chain manifest
    match ← allocateToExisting chain miner.sectorSize piece.size piece vd table openSectors with
    | some (sector, sealProof, updated) => .ok ⟨sector, sealProof, true, updated⟩
    | none => do
        let curDeadline ← wrap "getting proving deadline" (ofCall chain.minerProvingDeadline)
        let candidates := candidateSectors sectorsMeta snapPipeline table piece.endEpoch
          (maxExpiration head vd piece) (immutableDeadlines curDeadline)
        match ← bestCandidate chain candidates with
        | none => fail "no suitable sectors found"
        | some candidate => do
            let si ← wrap "getting sector info" (ofCall (chain.sectorGetInfo candidate.sectorNum))
            match si with
            | none => panics "invalid memory address or nil pointer dereference"
            | some si => do
                checkFresh head (maxExpiration head vd piece) piece.endEpoch si
                let updated ← wrap "adding deal to sector"
                  (insertPiece true candidate.sectorNum 0 piece table)
                .ok ⟨candidate.sectorNum, candidate.regSealProof, false, updated⟩

end PieceIngesterSnap

end Curio.StorageIngest
