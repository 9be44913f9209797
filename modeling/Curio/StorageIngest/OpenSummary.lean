import Curio.StorageIngest.TermLimits

/-! What both `getOpenSectors` of `market/storageingest` tell of the pieces of a sector. -/

namespace Curio.StorageIngest

open List

/-- A row of `open_sector_pieces` with its `created_at`. -/
abbrev CreatedPiece := OpenPiece × Nat

def getOpenedAt (createdAt : Nat) (cur : Option Nat) : Option Nat :=
  if cur.all (createdAt < ·) then some createdAt else cur

/-- The field `openedAt` of the entry of a sector, which the loop computes besides the others. -/
def openedAt (number : SectorNumber) (rows : List CreatedPiece) (cur : Option Nat) : Option Nat :=
  rows.foldl (fun cur row =>
    if row.1.sectorNumber = number then getOpenedAt row.2 cur else cur) cur

structure TrueSummary (own : List CreatedPiece) (sector : OpenSector) (opened : Option Nat) :
    Prop where
  size : sector.currentSize = (own.map (·.1.pieceSize)).sum
  start : (own.map (·.1.dealStartEpoch)).min? = some sector.earliestStartEpoch
  ends : (own.map (·.1.dealEndEpoch)).max? = some sector.latestEndEpoch
  index : (own.map (·.1.pieceIndex)).max? = some sector.index
  opened : (own.map Prod.snd).min? = opened
  pieces : sector.pieces = own.map fun row => ⟨row.1.pieceCid, row.1.pieceSize⟩

/-- Of several rows the last one ends last, or the latest end is the earliest start. -/
def EndsLast (own : List CreatedPiece) : Prop :=
  own.length = 1 ∨ ∀ last ∈ own.getLast?, ∀ start ∈ (own.map (·.1.dealStartEpoch)).min?,
    (own.map (·.1.dealEndEpoch)).max? = some (max last.1.dealEndEpoch start)

def createdOf (rows : List CreatedPiece) (number : SectorNumber) : List CreatedPiece :=
  rows.filter fun row => row.1.sectorNumber = number

variable {rows : List CreatedPiece} {sector : OpenSector} {pieces : List OpenPiece}

theorem openedAt_eq (number : SectorNumber) (cur : Option Nat) :
    openedAt number rows cur = (cur.toList ++ (createdOf rows number).map Prod.snd).min? := by
  induction rows generalizing cur with
  | nil => cases cur <;> rfl
  | cons row rest ih =>
    rw [openedAt, foldl_cons, ← openedAt, ih, createdOf, createdOf, filter_cons]
    by_cases same : row.1.sectorNumber = number
    · have next : getOpenedAt row.2 cur = some (cur.elim row.2 (min · row.2)) := by
        cases cur <;> grind [getOpenedAt]
      rw [if_pos same, if_pos (decide_eq_true same), next]
      cases cur <;> rfl
    · rw [if_neg same, if_neg (by simpa using same)]

theorem foldl_add_start (positive : ∀ piece ∈ pieces, 0 < piece.dealStartEpoch)
    (begun : 0 < sector.earliestStartEpoch) :
    (pieces.foldl OpenSector.add sector).earliestStartEpoch =
      (pieces.map OpenPiece.dealStartEpoch).foldl min sector.earliestStartEpoch ∧
    0 < (pieces.foldl OpenSector.add sector).earliestStartEpoch := by
  induction pieces generalizing sector with
  | nil => exact ⟨rfl, begun⟩
  | cons piece rest ih =>
    have next : (sector.add piece).earliestStartEpoch =
        min sector.earliestStartEpoch piece.dealStartEpoch := by
      grind [OpenSector.add, getStartEpoch]
    simp only [foldl_cons]
    grind

theorem add_latestEndEpoch {piece : OpenPiece}
    (begun : 0 < (sector.add piece).earliestStartEpoch) :
    (sector.add piece).latestEndEpoch =
      max piece.dealEndEpoch (sector.add piece).earliestStartEpoch := by
  grind [OpenSector.add, getEndEpoch]

theorem foldl_add_index :
    (pieces.foldl OpenSector.add sector).index =
      (pieces.map OpenPiece.pieceIndex).foldl max sector.index := by
  induction pieces generalizing sector with
  | nil => rfl
  | cons piece rest ih => grind [OpenSector.add]

theorem trueSummary_iff {first : CreatedPiece} {rest : List CreatedPiece}
    (positive : ∀ row ∈ first :: rest, 0 < row.1.dealStartEpoch) :
    TrueSummary (first :: rest) ((rest.map Prod.fst).foldl OpenSector.add (OpenSector.first first.1))
      ((first :: rest).map Prod.snd).min? ↔ EndsLast (first :: rest) := by
  obtain ⟨begun, positive⟩ := forall_mem_cons.mp positive
  have first_start : (OpenSector.first first.1).earliestStartEpoch = first.1.dealStartEpoch := by
    simp [OpenSector.first, getStartEpoch]
  rw [← first_start] at begun
  obtain ⟨start, after⟩ := foldl_add_start (forall_mem_map.mpr positive) begun
  rw [map_map] at start
  have least : ((first :: rest).map (·.1.dealStartEpoch)).min? = some _ := congrArg some start.symm
  have ends : EndsLast (first :: rest) ↔ ((first :: rest).map (·.1.dealEndEpoch)).max? =
      some ((rest.map Prod.fst).foldl OpenSector.add (OpenSector.first first.1)).latestEndEpoch := by
    rw [EndsLast, least]
    rcases eq_nil_or_concat rest with rfl | ⟨front, last, rfl⟩
    · simp [OpenSector.first, getEndEpoch]
    · rw [concat_eq_append, map_append, foldl_append] at after ⊢
      rw [map_singleton, foldl_cons, foldl_nil] at after ⊢
      rw [add_latestEndEpoch after, ← cons_append, getLast?_concat]
      simp
  rw [ends]
  refine ⟨TrueSummary.ends, fun ends => ⟨?_, least, ends, ?_, rfl, ?_⟩⟩
  · rw [foldl_add_size, map_map]
    rfl
  · rw [foldl_add_index, map_map]
    rfl
  · rw [foldl_add_pieces, map_map]
    rfl

theorem getOpenSectors_true_iff (rows : List CreatedPiece)
    (positive : ∀ row ∈ rows, 0 < row.1.dealStartEpoch ∧ 0 < row.1.dealEndEpoch) :
    (((getOpenSectors (rows.map Prod.fst)).map OpenSector.number).Nodup ∧
      (∀ number, number ∈ (getOpenSectors (rows.map Prod.fst)).map OpenSector.number ↔
        createdOf rows number ≠ []) ∧
      ∀ sector ∈ getOpenSectors (rows.map Prod.fst),
        TrueSummary (createdOf rows sector.number) sector (openedAt sector.number rows none)) ↔
      ∀ number, createdOf rows number ≠ [] → EndsLast (createdOf rows number) := by
  obtain ⟨once, entry, listed⟩ := getOpenSectors_summarizes (rows.map Prod.fst)
  have own (number : SectorNumber) :
      rowsOf (rows.map Prod.fst) number = (createdOf rows number).map Prod.fst := by
    rw [rowsOf, filter_map]
    rfl
  simp only [own] at entry listed
  have summary {sector : OpenSector} (member : sector ∈ getOpenSectors (rows.map Prod.fst)) :
      createdOf rows sector.number ≠ [] ∧
        (TrueSummary (createdOf rows sector.number) sector (openedAt sector.number rows none) ↔
          EndsLast (createdOf rows sector.number)) := by
    have entry := entry sector member
    rw [openedAt_eq]
    cases inside : createdOf rows sector.number with
    | nil => simp [inside, summarize] at entry
    | cons first rest =>
      rw [inside] at entry
      rw [← trueSummary_iff, Option.some.inj entry]
      · simp
      · intro row member
        rw [← inside] at member
        exact (positive row (mem_of_mem_filter member)).1
  constructor
  · rintro ⟨-, -, exact⟩ number nonempty
    obtain ⟨sector, member, rfl⟩ := listed number (by simpa using nonempty)
    exact (summary member).2.mp (exact sector member)
  · intro ends
    refine ⟨once, fun number => ⟨fun member => ?_, fun nonempty => ?_⟩, fun sector member => ?_⟩
    · obtain ⟨sector, listed, rfl⟩ := mem_map.mp member
      exact (summary listed).1
    · exact mem_map.mpr (listed number (by simpa using nonempty))
    · exact (summary member).2.mpr (ends _ (summary member).1)

def endingRow (index endEpoch : Int) : CreatedPiece :=
  (⟨1, index, "a", 8, some 100, some endEpoch, none, none, false⟩, 5)

theorem getOpenSectors_true_ascending :
    (getOpenSectors ([endingRow 1 200, endingRow 0 300].map Prod.fst)).length = 1 ∧
    ∀ sector ∈ getOpenSectors ([endingRow 1 200, endingRow 0 300].map Prod.fst), TrueSummary
      (createdOf [endingRow 1 200, endingRow 0 300] sector.number) sector
      (openedAt sector.number [endingRow 1 200, endingRow 0 300] none) := by
  refine ⟨by decide,
    ((getOpenSectors_true_iff _ (by decide)).mpr fun number nonempty => Or.inr ?_).2.2⟩
  by_cases own : number = 1
  · subst own
    decide
  · exact absurd (by simp [createdOf, endingRow, Ne.symm own]) nonempty

theorem getOpenSectors_last_end : ∃ sector ∈
    getOpenSectors ([endingRow 1 300, endingRow 0 200].map Prod.fst), sector.latestEndEpoch = 200 ∧
      ((createdOf [endingRow 1 300, endingRow 0 200] sector.number).map
        (·.1.dealEndEpoch)).max? = some 300 := by
  decide

end Curio.StorageIngest
