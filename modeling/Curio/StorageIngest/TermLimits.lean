import Curio.StorageIngest.OpenSectors

/-! Which open sectors a piece can join, against the term of its allocation.

The test of the lifetime passes over a sector only if its lifetime and both ends of the term are the
same epoch count, so a piece joins whatever sector has room for it. -/

namespace Curio.StorageIngest

open GoRuntime List

variable {sector : OpenSector} {miner : Option MinerDetails} {placement : Placement}
  {sealProof : Nat} {rest : List OpenSector}

section Summary

variable {rows : List OpenPiece}

def rowsOf (rows : List OpenPiece) (number : SectorNumber) : List OpenPiece :=
  rows.filter fun row => row.sectorNumber = number

def summarize : List OpenPiece → Option OpenSector
  | [] => none
  | first :: rest => some (rest.foldl OpenSector.add (OpenSector.first first))

theorem summarize_append {row : OpenPiece} (summary : summarize rows = some sector) :
    summarize (rows ++ [row]) = some (sector.add row) := by
  cases rows with
  | nil => cases summary
  | cons first rest => grind [summarize]

@[simp] theorem add_number (sector : OpenSector) (row : OpenPiece) :
    (sector.add row).number = sector.number := rfl

theorem rowsOf_append (rows : List OpenPiece) (row : OpenPiece) (number : SectorNumber) :
    rowsOf (rows ++ [row]) number =
      if row.sectorNumber = number then rowsOf rows number ++ [row] else rowsOf rows number := by
  grind [rowsOf]

/-- The map has one entry for each sector of the rows, and the entry is made of its rows. -/
structure Summarizes (rows : List OpenPiece) (sectors : List OpenSector) : Prop where
  once : (sectors.map OpenSector.number).Nodup
  entry : ∀ sector ∈ sectors, summarize (rowsOf rows sector.number) = some sector
  listed : ∀ number, rowsOf rows number ≠ [] → ∃ sector ∈ sectors, sector.number = number

theorem Summarizes.addRow {sectors : List OpenSector} (before : Summarizes rows sectors)
    (row : OpenPiece) :
    Summarizes (rows ++ [row]) (StorageIngest.addRow sectors row) := by
  unfold StorageIngest.addRow
  by_cases known : sectors.any (fun sector => sector.number == row.sectorNumber) = true
  · rw [if_pos known]
    have numbers : (sectors.map fun sector =>
        if sector.number = row.sectorNumber then sector.add row else sector).map
          OpenSector.number = sectors.map OpenSector.number := by
      rw [map_map]
      apply map_congr_left
      intro sector _
      rw [Function.comp_apply]
      split <;> rfl
    refine ⟨numbers ▸ before.once, ?_, ?_⟩
    · intro updated member
      obtain ⟨sector, old, rfl⟩ := mem_map.mp member
      have summary := before.entry sector old
      by_cases same : sector.number = row.sectorNumber
      · rw [if_pos same, add_number, rowsOf_append, if_pos same.symm]
        exact summarize_append summary
      · grind [rowsOf_append]
    · intro number nonempty
      have inMap : number ∈ sectors.map OpenSector.number := by
        by_cases same : row.sectorNumber = number
        · grind
        · rw [rowsOf_append, if_neg same] at nonempty
          obtain ⟨sector, member, equal⟩ := before.listed number nonempty
          exact mem_map.mpr ⟨sector, member, equal⟩
      grind
  · rw [if_neg known]
    have absent : ∀ sector ∈ sectors, sector.number ≠ row.sectorNumber := by
      grind
    have empty : rowsOf rows row.sectorNumber = [] := by
      by_contra nonempty
      obtain ⟨sector, member, same⟩ := before.listed _ nonempty
      exact absent sector member same
    refine ⟨?_, ?_, ?_⟩
    · rw [map_append, nodup_append]
      refine ⟨before.once, nodup_singleton _, ?_⟩
      intro number member other last same
      obtain ⟨sector, inside, rfl⟩ := mem_map.mp member
      rw [mem_singleton.mp last] at same
      exact absent sector inside same
    · intro sector member
      rcases mem_append.mp member with old | new
      · rw [rowsOf_append, if_neg (Ne.symm (absent sector old))]
        exact before.entry sector old
      · grind [summarize, rowsOf, OpenSector.first]
    · intro number nonempty
      by_cases same : row.sectorNumber = number
      · exact ⟨_, mem_append_right _ (mem_singleton_self _), same⟩
      · rw [rowsOf_append, if_neg same] at nonempty
        obtain ⟨sector, member, equal⟩ := before.listed number nonempty
        exact ⟨sector, mem_append_left _ member, equal⟩

theorem getOpenSectors_summarizes (rows : List OpenPiece) :
    Summarizes rows (getOpenSectors rows) := by
  induction rows using reverseRecOn with
  | nil => exact ⟨nodup_nil, by simp [getOpenSectors], by simp [rowsOf]⟩
  | append_singleton rows row ih =>
    rw [getOpenSectors, foldl_append]
    exact ih.addRow row

theorem foldl_add_size (sector : OpenSector) (rows : List OpenPiece) :
    (rows.foldl OpenSector.add sector).currentSize =
      sector.currentSize + (rows.map OpenPiece.pieceSize).sum := by
  induction rows generalizing sector with
  | nil => rfl
  | cons row rest ih => grind [OpenSector.add]

theorem foldl_add_pieces (sector : OpenSector) (rows : List OpenPiece) :
    (rows.foldl OpenSector.add sector).pieces =
      sector.pieces ++ rows.map fun row => ⟨row.pieceCid, row.pieceSize⟩ := by
  induction rows generalizing sector with
  | nil => simp
  | cons row rest ih => grind [OpenSector.add]

theorem summarize_spec (summary : summarize rows = some sector) :
    sector.currentSize = (rows.map OpenPiece.pieceSize).sum ∧
      sector.pieces = rows.map fun row => ⟨row.pieceCid, row.pieceSize⟩ := by
  cases rows with
  | nil => cases summary
  | cons first rest =>
    cases summary
    rw [foldl_add_size, foldl_add_pieces]
    exact ⟨rfl, rfl⟩

end Summary

section Lifetimes

/-- From the earliest start to the latest end of the pieces of a sector. -/
def lifetime (rows : List OpenPiece) : Epoch :=
  (rows.map OpenPiece.dealEndEpoch).max?.getD 0 - (rows.map OpenPiece.dealStartEpoch).min?.getD 0

def InTerm (vd : VerifiedDeal) (lifetime : Epoch) : Prop := vd.tmin ≤ lifetime ∧ lifetime ≤ vd.tmax

instance (vd : VerifiedDeal) (lifetime : Epoch) : Decidable (InTerm vd lifetime) :=
  inferInstanceAs (Decidable (_ ∧ _))

theorem outsideTerm_iff {vd : VerifiedDeal} (term : vd.tmin ≤ vd.tmax) {sectorLifeTime : Epoch} :
    outsideTerm vd sectorLifeTime = true ↔ sectorLifeTime = vd.tmin ∧ vd.tmin = vd.tmax := by
  grind [outsideTerm]

/-- An open sector that has room for the piece and does not have it, with the index behind its
pieces still free. -/
structure Candidate (rows table : List OpenPiece) (sectorSize : Nat) (piece : PieceDealInfo)
    (sector : OpenSector) : Prop where
  opened : summarize (rowsOf rows sector.number) = some sector
  distinct : ∀ row ∈ rowsOf rows sector.number,
    ¬ (row.pieceCid = piece.pieceCID ∧ row.pieceSize = piece.size)
  room : ((rowsOf rows sector.number).map OpenPiece.pieceSize).sum + piece.size ≤ sectorSize
  free : ∀ row ∈ table, row.sectorNumber = sector.number → row.pieceIndex ≠ sector.index + 1

variable {rows table : List OpenPiece} {sectorSize : Nat} {piece : PieceDealInfo}
  {sector : OpenSector}

theorem Candidate.mem (candidate : Candidate rows table sectorSize piece sector) :
    sector ∈ getOpenSectors rows := by
  have summary := getOpenSectors_summarizes rows
  have nonempty : rowsOf rows sector.number ≠ [] := by
    intro empty
    have opened := candidate.opened
    rw [empty] at opened
    cases opened
  obtain ⟨other, listed, same⟩ := summary.listed sector.number nonempty
  have entry := summary.entry other listed
  rw [same, candidate.opened] at entry
  rwa [Option.some.inj entry]

theorem Candidate.of_same {other : PieceDealInfo} (cid : other.pieceCID = piece.pieceCID)
    (size : other.size = piece.size) (candidate : Candidate rows table sectorSize other sector) :
    Candidate rows table sectorSize piece sector := by
  obtain ⟨opened, distinct, room, free⟩ := candidate
  rw [cid, size] at distinct
  rw [size] at room
  exact ⟨opened, distinct, room, free⟩

variable {number : SectorNumber} {snap : Bool}

theorem insertPiece_ok_iff {index : Int} :
    (∃ updated, insertPiece snap number index piece table = .ok updated) ↔
      ∀ row ∈ table, row.sectorNumber = number → row.pieceIndex ≠ index := by
  unfold insertPiece
  split
  · next taken =>
    obtain ⟨row, member, same⟩ := any_eq_true.mp taken
    simp only [Bool.and_eq_true, beq_iff_eq] at same
    refine ⟨fun ⟨_, failed⟩ => ?_, fun free => (free row member same.1 same.2).elim⟩
    cases failed
  · next free =>
    refine ⟨fun _ row member same equal => free ?_, fun _ => ⟨_, rfl⟩⟩
    exact any_eq_true.mpr ⟨row, member, by simp [same, equal]⟩

theorem candidate_iff (summary : summarize (rowsOf rows sector.number) = some sector) :
    Candidate rows table sectorSize piece sector ↔
      sector.has piece = false ∧ sector.currentSize + piece.size ≤ sectorSize ∧
        ∃ updated, insertPiece snap sector.number (sector.index + 1) piece table = .ok updated := by
  obtain ⟨size, pieces⟩ := summarize_spec summary
  have distinct : sector.has piece = false ↔ ∀ row ∈ rowsOf rows sector.number,
      ¬ (row.pieceCid = piece.pieceCID ∧ row.pieceSize = piece.size) := by
    rw [OpenSector.has, pieces]
    simp
  rw [distinct, insertPiece_ok_iff, size]
  exact ⟨fun ⟨_, distinct, room, free⟩ => ⟨distinct, room, free⟩,
    fun ⟨distinct, room, free⟩ => ⟨summary, distinct, room, free⟩⟩

end Lifetimes

namespace PieceIngester

variable {rows table : List OpenPiece} {sectorSize : Nat} {piece : PieceDealInfo}
  {vd : VerifiedDeal}
variable {openSectors : List OpenSector}

variable {updated : List OpenPiece} {number : SectorNumber} {paddedSize : PaddedSize}
  {chain : Chain} {rawSize : Int}

theorem allocateToExisting_placed
    (entries : ∀ sector ∈ openSectors, summarize (rowsOf rows sector.number) = some sector)
    (placed : allocateToExisting sectorSize piece.size piece vd table openSectors =
      .ok (some (number, updated))) :
    ∃ sector ∈ openSectors, sector.number = number ∧
      Candidate rows table sectorSize piece sector ∧
      ¬ (vd.isVerified = true ∧
        outsideTerm vd (sector.latestEndEpoch - sector.earliestStartEpoch) = true) := by
  induction openSectors with
  | nil => cases placed
  | cons sec rest ih =>
    have summary := entries sec mem_cons_self
    rw [allocateToExisting] at placed
    split at placed
    · grind
    · next distinct =>
      split at placed
      · next room =>
        split at placed
        · grind
        · next inside =>
          obtain ⟨inserted, wrapped, returned⟩ := bind_eq_ok.mp placed
          obtain rfl : sec.number = number := by
            grind
          refine ⟨sec, mem_cons_self, rfl, ?_, inside⟩
          exact (candidate_iff summary).mpr
            ⟨by simpa using distinct, room, _, wrap_eq_ok.mp wrapped⟩
      · grind

theorem allocateToExisting_first
    (candidate : Candidate rows table sectorSize piece sector)
    (inside : ¬ (vd.isVerified = true ∧
      outsideTerm vd (sector.latestEndEpoch - sector.earliestStartEpoch) = true)) :
    ∃ updated, allocateToExisting sectorSize piece.size piece vd table (sector :: rest) =
      .ok (some (sector.number, updated)) := by
  obtain ⟨distinct, room, updated, inserted⟩ := (candidate_iff candidate.opened).mp candidate
  refine ⟨updated, ?_⟩
  rw [allocateToExisting, if_neg (by simp [distinct]), if_pos room, if_neg inside, inserted]
  rfl

theorem AllocatePieceToSector_existing
    (placed : AllocatePieceToSector chain paddedSize miner openSectors table piece rawSize =
      .ok placement) (existing : placement.existing = true) :
    piece.size = paddedSize rawSize ∧ ∃ vd found updated, verifiedDeal chain piece = .ok vd ∧
      miner = some found ∧
      allocateToExisting found.sectorSize piece.size piece vd table openSectors =
        .ok (some (placement.sector, updated)) := by
  unfold AllocatePieceToSector at placed
  split at placed
  · cases placed
  · next sized =>
    obtain ⟨vd, verified, placed⟩ := bind_eq_ok.mp placed
    cases miner with
    | none => cases placed
    | some found =>
      obtain ⟨answer, allocated, placed⟩ := bind_eq_ok.mp placed
      refine ⟨not_ne_iff.mp sized, vd, found, ?_⟩
      cases answer with
      | some pair => grind
      | none =>
        obtain ⟨num, -, placed⟩ := bind_eq_ok.mp placed
        split at placed
        · obtain ⟨updated, -, placed⟩ := bind_eq_ok.mp placed
          grind
        · cases placed

theorem AllocatePieceToSector_of_existing {miner : MinerDetails}
    (sized : piece.size = paddedSize rawSize) (verified : verifiedDeal chain piece = .ok vd)
    (allocated : allocateToExisting miner.sectorSize piece.size piece vd table openSectors =
      .ok (some (number, updated))) :
    AllocatePieceToSector chain paddedSize (some miner) openSectors table piece rawSize =
      .ok ⟨number, miner.sealProof, true, updated⟩ := by
  unfold AllocatePieceToSector
  rw [if_neg (not_not_intro sized), verified]
  simp only [ok_bind, allocated]

/-- A verified piece joins an open sector only if the lifetime of the sector's pieces is in its
term, in whatever order the sectors come. -/
def RespectsTerm (chain : Chain) (paddedSize : PaddedSize) (miner : Option MinerDetails)
    (rows table : List OpenPiece) (piece : PieceDealInfo) (rawSize : Int) : Prop :=
  ∀ openSectors, openSectors.Perm (getOpenSectors rows) → ∀ vd,
    verifiedDeal chain piece = .ok vd → vd.isVerified = true → vd.tmin ≤ vd.tmax →
    ∀ placement,
      AllocatePieceToSector chain paddedSize miner openSectors table piece rawSize =
        .ok placement →
      placement.existing = true → InTerm vd (lifetime (rowsOf rows placement.sector))

/-- No sector that has room for the piece is outside of its term, but for those that the code passes
over: the lifetime that it computes is both ends of the term. -/
def RoomInTerm (chain : Chain) (paddedSize : PaddedSize) (miner : Option MinerDetails)
    (rows table : List OpenPiece) (piece : PieceDealInfo) (rawSize : Int) : Prop :=
  piece.size = paddedSize rawSize → ∀ vd, verifiedDeal chain piece = .ok vd →
    vd.isVerified = true → vd.tmin ≤ vd.tmax → ∀ found, miner = some found →
    ∀ sector, Candidate rows table found.sectorSize piece sector →
      ¬ (sector.latestEndEpoch - sector.earliestStartEpoch = vd.tmin ∧ vd.tmin = vd.tmax) →
      InTerm vd (lifetime (rowsOf rows sector.number))

theorem respectsTerm_iff :
    RespectsTerm chain paddedSize miner rows table piece rawSize ↔
      RoomInTerm chain paddedSize miner rows table piece rawSize := by
  have summary := getOpenSectors_summarizes rows
  constructor
  · rintro respects sized vd verified isVerified term found rfl sector candidate inside
    have member := candidate.mem
    have skipped : ¬ (vd.isVerified = true ∧
        outsideTerm vd (sector.latestEndEpoch - sector.earliestStartEpoch) = true) := by
      rw [outsideTerm_iff term]
      exact fun ⟨_, excluded⟩ => inside excluded
    obtain ⟨updated, allocated⟩ :=
      allocateToExisting_first candidate skipped
    exact respects _ (perm_cons_erase member).symm vd verified isVerified term _
      (AllocatePieceToSector_of_existing sized verified allocated) rfl
  · intro room openSectors order vd verified isVerified term placement placed existing
    obtain ⟨sized, deal, found, updated, same, known, allocated⟩ :=
      AllocatePieceToSector_existing placed existing
    cases verified.symm.trans same
    obtain ⟨sector, -, number, candidate, inside⟩ := allocateToExisting_placed
      (fun sector member => summary.entry sector (order.mem_iff.mp member)) allocated
    rw [← number]
    refine room sized vd verified isVerified term found known sector candidate ?_
    rw [outsideTerm_iff term] at inside
    exact fun excluded => inside ⟨isVerified, excluded⟩

end PieceIngester

namespace PieceIngesterSnap

variable {chain : Chain} {rows table : List OpenPiece} {sectorSize : Nat} {piece : PieceDealInfo}
  {vd : VerifiedDeal} {head : Epoch}
variable {openSectors : List OpenSector}

/-- A verified piece passes over an expired sector, and one that the test excludes. -/
def PassesOver (vd : VerifiedDeal) (head : Epoch) (si : SectorOnChainInfo) : Prop :=
  vd.isVerified = true ∧ (si.expiration - head < 0 ∨ outsideTerm vd (si.expiration - head) = true)

variable {number : SectorNumber} {updated : List OpenPiece} {manifest : PieceActivationManifest}
  {direct : PieceDealInfo} {paddedSize : PaddedSize} {miner : MinerDetails}
  {sectorsMeta : List SectorMeta} {snapPipeline : List SectorNumber} {rawSize : Int}

theorem existingSector_placed
    (entries : ∀ sector ∈ openSectors, summarize (rowsOf rows sector.number) = some sector)
    (placed : existingSector chain head sectorSize piece.size piece vd table openSectors =
      .ok (some (number, sealProof, updated))) :
    ∃ sector ∈ openSectors, sector.number = number ∧
      Candidate rows table sectorSize piece sector ∧
      ∃ si, chain.sectorGetInfo number = .ok (some si) ∧ ¬ PassesOver vd head si := by
  induction openSectors with
  | nil => cases placed
  | cons sec rest ih =>
    have summary := entries sec mem_cons_self
    rw [existingSector] at placed
    split at placed
    · grind
    · next distinct =>
      split at placed
      · next room =>
        split at placed
        · grind
        · cases placed
        · next si info =>
          split at placed
          · grind
          · next inside =>
            obtain ⟨inserted, wrapped, returned⟩ := bind_eq_ok.mp placed
            obtain rfl : sec.number = number := by
              grind
            refine ⟨sec, mem_cons_self, rfl, ?_, si, info, inside⟩
            exact (candidate_iff summary).mpr
              ⟨by simpa using distinct, room, _, wrap_eq_ok.mp wrapped⟩
      · grind

theorem existingSector_first {si : SectorOnChainInfo}
    (candidate : Candidate rows table sectorSize piece sector)
    (info : chain.sectorGetInfo sector.number = .ok (some si)) (inside : ¬ PassesOver vd head si) :
    ∃ updated, existingSector chain head sectorSize piece.size piece vd table (sector :: rest) =
      .ok (some (sector.number, si.sealProof, updated)) := by
  obtain ⟨distinct, room, updated, inserted⟩ := (candidate_iff candidate.opened).mp candidate
  refine ⟨updated, ?_⟩
  unfold PassesOver at inside
  rw [existingSector, if_neg (by simp [distinct]), if_pos room]
  simp only [info]
  rw [if_neg inside, inserted]
  rfl

theorem toDirect_keeps (converted : toDirect chain piece = .ok (direct, manifest)) :
    direct.pieceCID = piece.pieceCID ∧ direct.size = piece.size ∧
      direct.endEpoch = piece.endEpoch := by
  unfold toDirect at converted
  split at converted
  · grind
  · next dealID proposal isMarket =>
    obtain ⟨alloc, -, converted⟩ := bind_eq_ok.mp converted
    obtain ⟨clientId, -, converted⟩ := bind_eq_ok.mp converted
    cases converted
    simp only [PieceDealInfo.pieceCID, PieceDealInfo.size, isMarket, and_self]

theorem AllocatePieceToSector_existing
    (placed : AllocatePieceToSector chain paddedSize miner sectorsMeta snapPipeline openSectors
      table piece rawSize = .ok placement) (existing : placement.existing = true) :
    piece.size = paddedSize rawSize ∧ ∃ direct manifest vd first head sealProof updated,
      toDirect chain piece = .ok (direct, manifest) ∧ verifiedDeal chain manifest = .ok vd ∧
      chain.chainHead = .ok first ∧ chain.laterHead = .ok head ∧
      existingSector chain head miner.sectorSize direct.size direct vd table openSectors =
        .ok (some (placement.sector, sealProof, updated)) := by
  unfold AllocatePieceToSector at placed
  split at placed
  · cases placed
  · next sized =>
    obtain ⟨⟨direct, manifest⟩, converted, placed⟩ := bind_eq_ok.mp placed
    obtain ⟨first, readFirst, placed⟩ := bind_eq_ok.mp placed
    obtain ⟨vd, verified, placed⟩ := bind_eq_ok.mp placed
    obtain ⟨answer, allocated, placed⟩ := bind_eq_ok.mp placed
    obtain ⟨head, read, found⟩ := bind_eq_ok.mp allocated
    refine ⟨not_ne_iff.mp sized, direct, manifest, vd, first, head, ?_⟩
    cases answer with
    | some triple =>
      cases placed
      exact ⟨triple.2.1, triple.2.2, converted, verified,
        ofCall_eq_ok.mp (wrap_eq_ok.mp readFirst), ofCall_eq_ok.mp read, found⟩
    | none =>
      obtain ⟨curDeadline, -, placed⟩ := bind_eq_ok.mp placed
      obtain ⟨best, -, placed⟩ := bind_eq_ok.mp placed
      cases best with
      | none => cases placed
      | some candidate =>
        obtain ⟨si, -, placed⟩ := bind_eq_ok.mp placed
        cases si with
        | none => cases placed
        | some si =>
          obtain ⟨_, -, placed⟩ := bind_eq_ok.mp placed
          obtain ⟨updated, -, placed⟩ := bind_eq_ok.mp placed
          grind

theorem AllocatePieceToSector_of_existing (sized : piece.size = paddedSize rawSize) {first : Epoch}
    (converted : toDirect chain piece = .ok (direct, manifest))
    (readFirst : chain.chainHead = .ok first) (verified : verifiedDeal chain manifest = .ok vd)
    (read : chain.laterHead = .ok head)
    (allocated : existingSector chain head miner.sectorSize direct.size direct vd table
      openSectors = .ok (some (number, sealProof, updated))) :
    AllocatePieceToSector chain paddedSize miner sectorsMeta snapPipeline openSectors table piece
      rawSize = .ok ⟨number, sealProof, true, updated⟩ := by
  unfold AllocatePieceToSector
  rw [if_neg (not_not_intro sized), converted]
  simp only [ok_bind, readFirst, ofCall_ok, wrap_ok, verified, allocateToExisting, read, allocated]

/-- A piece joins an open sector only if the sector does not expire before the piece ends, and a
verified piece only if what is left of the sector is in its term. -/
def RespectsTerm (chain : Chain) (paddedSize : PaddedSize) (miner : MinerDetails)
    (sectorsMeta : List SectorMeta) (snapPipeline : List SectorNumber)
    (rows table : List OpenPiece) (piece : PieceDealInfo) (rawSize : Int) : Prop :=
  ∀ openSectors, openSectors.Perm (getOpenSectors rows) → ∀ placement,
    AllocatePieceToSector chain paddedSize miner sectorsMeta snapPipeline openSectors table piece
      rawSize = .ok placement → placement.existing = true →
    ∀ head si, chain.laterHead = .ok head →
      chain.sectorGetInfo placement.sector = .ok (some si) →
      piece.endEpoch ≤ si.expiration ∧
        ∀ direct manifest vd, toDirect chain piece = .ok (direct, manifest) →
          verifiedDeal chain manifest = .ok vd → vd.isVerified = true → vd.tmin ≤ vd.tmax →
          InTerm vd (si.expiration - head)

/-- No sector that has room for the piece is outside of its bounds, but for those that a verified
piece passes over. -/
def RoomInTerm (chain : Chain) (paddedSize : PaddedSize) (miner : MinerDetails)
    (rows table : List OpenPiece) (piece : PieceDealInfo) (rawSize : Int) : Prop :=
  piece.size = paddedSize rawSize → ∀ direct manifest vd first head,
    toDirect chain piece = .ok (direct, manifest) → verifiedDeal chain manifest = .ok vd →
    chain.chainHead = .ok first → chain.laterHead = .ok head →
    ∀ sector si, Candidate rows table miner.sectorSize piece sector →
      chain.sectorGetInfo sector.number = .ok (some si) → ¬ PassesOver vd head si →
      piece.endEpoch ≤ si.expiration ∧
        (vd.isVerified = true → vd.tmin ≤ vd.tmax → InTerm vd (si.expiration - head))

theorem snap_respectsTerm_iff :
    RespectsTerm chain paddedSize miner sectorsMeta snapPipeline rows table piece rawSize ↔
      RoomInTerm chain paddedSize miner rows table piece rawSize := by
  have summary := getOpenSectors_summarizes rows
  constructor
  · intro respects sized direct manifest vd first head converted verified readFirst read sector si
      candidate info inside
    obtain ⟨cid, size, -⟩ := toDirect_keeps converted
    have joins : Candidate rows table miner.sectorSize direct sector :=
      candidate.of_same cid.symm size.symm
    obtain ⟨updated, allocated⟩ :=
      existingSector_first joins info inside
    obtain ⟨ends, inTerm⟩ := respects _ (perm_cons_erase candidate.mem).symm _
      (AllocatePieceToSector_of_existing sized converted readFirst verified read allocated) rfl head
      si read info
    exact ⟨ends, inTerm direct manifest vd converted verified⟩
  · intro room openSectors order placement placed existing head si read info
    obtain ⟨sized, direct, manifest, vd, first, now, sealProof, updated, converted, verified,
      readFirst, readNow, allocated⟩ := AllocatePieceToSector_existing placed existing
    cases read.symm.trans readNow
    obtain ⟨sector, -, number, candidate, found, known, inside⟩ := existingSector_placed
      (fun sector member => summary.entry sector (order.mem_iff.mp member)) allocated
    cases info.symm.trans known
    obtain ⟨cid, size, -⟩ := toDirect_keeps converted
    obtain ⟨ends, inTerm⟩ := room sized direct manifest vd first head converted verified readFirst
      read sector si (candidate.of_same cid size) (number ▸ info) inside
    grind

end PieceIngesterSnap

/-- Both ingesters respect the term of a piece exactly if no open sector with room for it is outside
of the term. -/
theorem term_limits_iff (chain : Chain) (paddedSize : PaddedSize) (rows table : List OpenPiece)
    (piece : PieceDealInfo) (rawSize : Int) :
    (∀ miner, PieceIngester.RespectsTerm chain paddedSize miner rows table piece rawSize ↔
      PieceIngester.RoomInTerm chain paddedSize miner rows table piece rawSize) ∧
    (∀ miner sectorsMeta snapPipeline,
      PieceIngesterSnap.RespectsTerm chain paddedSize miner sectorsMeta snapPipeline rows table
          piece rawSize ↔
        PieceIngesterSnap.RoomInTerm chain paddedSize miner rows table piece rawSize) := by
  constructor
  · intro miner
    exact PieceIngester.respectsTerm_iff
  · intro miner sectorsMeta snapPipeline
    exact PieceIngesterSnap.snap_respectsTerm_iff

def sampleChain : Chain where
  getAllocationForPendingDeal _ := .ok (some ⟨2000, 3000⟩)
  getAllocationIdForPendingDeal _ := .ok 1
  lookupID _ := .ok 1000
  getAllocation _ _ := .ok (some ⟨2000, 3000⟩)
  chainHead := .ok 100
  laterHead := .ok 100
  sectorGetInfo _ := .ok (some ⟨5000, 8⟩)
  minerProvingDeadline := .ok ⟨0, 100, 90, 48, 2880⟩
  sectorPartition _ := .ok (0, 0)
  minerPartitions _ := .ok []
  allocateSectorNumbers := .ok [9]

def sampleRow (snap : Bool) : OpenPiece :=
  ⟨3, 0, "first", 256, some 100, some 1000, none, none, snap⟩

def samplePiece : PieceDealInfo := ⟨.direct ⟨"second", 256, some (1000, 1)⟩, 200, 6000⟩

/-- The piece joins a new sector that is too short for it and an upgraded sector that is too long,
and that expires before the piece ends. -/
theorem term_limits_ignored :
    (∃ placement, PieceIngester.AllocatePieceToSector sampleChain (fun _ => 256)
        (some ⟨2048, 8⟩) (getOpenSectors [sampleRow false]) [sampleRow false] samplePiece 254 =
          .ok placement ∧
      placement.existing = true ∧ placement.sector = 3 ∧
      ¬ InTerm ⟨true, 2000, 3000⟩ (lifetime (rowsOf [sampleRow false] 3))) ∧
    (∃ placement, PieceIngesterSnap.AllocatePieceToSector sampleChain (fun _ => 256) ⟨2048, 8⟩ []
        [] (getOpenSectors [sampleRow true]) [sampleRow true] samplePiece 254 = .ok placement ∧
      placement.existing = true ∧ placement.sector = 3 ∧
      sampleChain.sectorGetInfo 3 = .ok (some ⟨5000, 8⟩) ∧
      ¬ InTerm ⟨true, 2000, 3000⟩ (5000 - 100) ∧ 5000 < samplePiece.endEpoch) := by
  refine ⟨⟨_, rfl, rfl, rfl, ?_⟩, ⟨_, rfl, rfl, rfl, rfl, ?_⟩⟩
  · decide
  · decide

end Curio.StorageIngest
