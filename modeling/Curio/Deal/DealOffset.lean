import Curio.Deal.SectorLayout

/-! The sector offset of a deal: the searches of `processMk12Deal` and `addDealOffset` in
`tasks/storage-market` against the place that `getDealMetadata` gives the piece.

Both markets search the initial pieces of the sector in the order of their index. -/

namespace Curio.Deal

open GoRuntime Alignment List

section Searches

/-- A row of `sectors_sdr_initial_pieces` or `sectors_snap_initial_pieces`. -/
structure InitialPiece where
  cid : String
  size : Nat
  deriving DecidableEq

/-- A row of `market_mk12_deal_pipeline` or `market_mk20_pipeline`. It is ready after the deal was
found on chain, or when its sector has a seal proof. -/
structure PipelineRow where
  id : String
  pieceCid : String
  pieceSize : Nat
  ready : Bool
  sector : Option Int
  sectorOffset : Option Nat
  deriving DecidableEq

/-- `UPDATE … SET sector_offset = $1 WHERE … AND sector_offset IS NULL`, with the rows affected. -/
def setSectorOffset (offset : Nat) (id : String) (sector : Int) (table : List PipelineRow) :
    List PipelineRow × Nat :=
  let selected (row : PipelineRow) : Bool :=
    row.id = id ∧ row.sector = some sector ∧ row.sectorOffset = none
  (table.map fun row => if selected row then { row with sectorOffset := some offset } else row,
    table.countP selected)

variable (lib : Libraries)

/-- The offset, and with it the padded offset of the piece where it is found. -/
def searchMk12 (deal : PipelineRow) : Nat → List InitialPiece → Option Nat
  | _, [] => none
  | offset, p :: rest =>
    let offset := offset + unpadded (lib.getRequiredPadding (padded offset) p.size).sum
    if p.cid = deal.pieceCid ∧ p.size = deal.pieceSize then some (padded offset)
    else searchMk12 deal (offset + unpadded p.size) rest

/-- The last part of `processMk12Deal`. -/
def processMk12Deal (pieceList : List InitialPiece) (table : List PipelineRow)
    (deal : PipelineRow) : List PipelineRow × Except String Unit :=
  match deal.sector with
  | none => (table, .ok ())
  | some sector =>
    if deal.ready = true ∧ deal.sectorOffset = none then
      if pieceList.length = 0 then
        (table, .error ("UUID: " ++ deal.id ++ ": no pieces found for the sector " ++
          toString sector))
      else
        match searchMk12 lib deal 0 pieceList with
        | none => (table, .ok ())
        | some offset =>
          let (updated, n) := setSectorOffset offset deal.id sector table
          if n ≠ 1 then
            (updated, .error ("UUID: " ++ deal.id ++
              ": expected 1 row for sector offset update in DB but found " ++ toString n))
          else (updated, .ok ())
    else (table, .ok ())

/-- The offset grows by the size of a piece only where the piece is found. -/
def searchMk20 (piece : PipelineRow) : Nat → List InitialPiece → Option Nat
  | _, [] => none
  | offset, p :: rest =>
    let offset := offset + unpadded (lib.getRequiredPadding (padded offset) p.size).sum
    if p.cid = piece.pieceCid ∧ p.size = piece.pieceSize then some (padded offset)
    else searchMk20 piece offset rest

/-- The table is as it was where the transaction fails. -/
def addDealOffset (pieceList : List InitialPiece) (table : List PipelineRow)
    (piece : PipelineRow) : List PipelineRow × Except String Unit :=
  match piece.sector with
  | none => (table, .ok ())
  | some sector =>
    if piece.ready = true ∧ piece.sectorOffset = none then
      if pieceList.length = 0 then (table, .ok ())
      else
        match searchMk20 lib piece 0 pieceList with
        | none =>
          (table, .error ("failed to get deal offset: failed to find deal offset for piece " ++
            piece.pieceCid))
        | some offset =>
          let (updated, n) := setSectorOffset offset piece.id sector table
          if n ≠ 1 then
            (table, .error ("failed to get deal offset: expected to update 1 deal, updated " ++
              toString n))
          else (updated, .ok ())
    else (table, .ok ())

inductive Market where
  | mk12
  | mk20
  deriving DecidableEq

def recordOffset : Market → List InitialPiece → List PipelineRow → PipelineRow →
    List PipelineRow × Except String Unit
  | .mk12 => processMk12Deal lib
  | .mk20 => addDealOffset lib

end Searches

variable {offset upTo start k : Nat} {done : Progress} {pieces : List DealMetadata}
  {deal : PipelineRow}

section Places

variable (lib : Libraries)

/-- What `GetRequiredPadding` documents: the padding up to the next multiple of the piece's size, in
whole blocks. -/
structure PadsToNext : Prop where
  total : ∀ offset bit, 128 ∣ offset → 7 ≤ bit → bit < 64 →
    (lib.getRequiredPadding offset (2 ^ bit)).sum = (2 ^ bit - offset % 2 ^ bit) % 2 ^ bit

def PowerSize (size : Nat) : Prop := ∃ bit, 7 ≤ bit ∧ bit < 64 ∧ size = 2 ^ bit

def paddedStart (infos : List PieceInfo) (place : Nat) : Nat :=
  ((infos.take place).map PieceInfo.size).sum

def initialPiece (p : DealMetadata) : InitialPiece := ⟨p.pieceCID, p.pieceSize⟩

def layoutStarts : Nat → List DealMetadata → List Nat
  | _, [] => []
  | upTo, p :: rest =>
    let here := upTo + (lib.getRequiredPadding upTo p.pieceSize).sum
    here :: layoutStarts (here + p.pieceSize) rest

variable {lib}

theorem PadsToNext.whole (pads : PadsToNext lib) {size : Nat} (whole : 128 ∣ offset)
    (power : PowerSize size) : 128 ∣ (lib.getRequiredPadding offset size).sum := by
  obtain ⟨bit, large, small, rfl⟩ := power
  have block : 128 ∣ 2 ^ bit := pow_dvd_pow 2 large
  rw [pads.total offset bit whole large small]
  apply (Nat.dvd_mod_iff block).mpr
  exact Nat.dvd_sub block ((Nat.dvd_mod_iff block).mpr whole)

variable {size : Nat} {pieces : List DealMetadata}

theorem PadsToNext.at_zero (pads : PadsToNext lib) (power : PowerSize size) :
    (lib.getRequiredPadding 0 size).sum = 0 := by
  obtain ⟨bit, large, small, rfl⟩ := power
  rw [pads.total 0 bit (Nat.dvd_zero _) large small, Nat.zero_mod, Nat.sub_zero, Nat.mod_self]

theorem PowerSize.whole (power : PowerSize size) : 128 ∣ size := by
  obtain ⟨bit, large, -, rfl⟩ := power
  exact pow_dvd_pow 2 large

theorem PowerSize.pos (power : PowerSize size) : 0 < size := by
  obtain ⟨bit, -, -, rfl⟩ := power
  exact Nat.two_pow_pos bit

theorem layoutStarts_ge (member : start ∈ layoutStarts lib upTo pieces) : upTo ≤ start := by
  induction pieces generalizing upTo with
  | nil => cases member
  | cons p rest ih => grind [layoutStarts]

theorem layoutStarts_eq_zero (pads : PadsToNext lib) (sizes : ∀ p ∈ pieces, PowerSize p.pieceSize)
    (here : (layoutStarts lib 0 pieces)[k]? = some start) : start = 0 ↔ k = 0 := by
  cases pieces with
  | nil => cases here
  | cons p rest =>
    have power := sizes p mem_cons_self
    cases k with
    | zero =>
      rw [layoutStarts, pads.at_zero power] at here
      simpa using (Option.some.inj here).symm
    | succ k =>
      rw [layoutStarts] at here
      have after := layoutStarts_ge (mem_of_getElem? here)
      have positive := power.pos
      omega

end Places

section Loop

variable {lib : Libraries} {node : Node} {commDOnly : Bool}

theorem addPiece_eq_ok {next : Progress} {p : DealMetadata}
    (added : addPiece lib node commDOnly done p = .ok next) :
    next.offset = done.offset +
        unpadded (lib.getRequiredPadding (padded done.offset) p.pieceSize).sum +
        unpadded p.pieceSize ∧
      next.pieceInfos = done.pieceInfos ++
        (lib.getRequiredPadding (padded done.offset) p.pieceSize).map
          (fun pad => ⟨pad, lib.zeroPieceCommitment (unpadded pad)⟩) ++ [infoOf lib p] := by
  unfold addPiece at added
  cases parsed : lib.parseCid p.pieceCID with
  | error message =>
    rw [parsed] at added
    cases added
  | ok c =>
    rw [parsed] at added
    have info : infoOf lib p = ⟨p.pieceSize, c⟩ := by simp only [infoOf, parsed]
    cases commDOnly with
    | true =>
      cases added
      exact ⟨rfl, by rw [info]⟩
    | false =>
      cases opened : openPiece lib node p with
      | error message =>
        rw [opened] at added
        cases added
      | ok reader =>
        rw [opened] at added
        cases added
        exact ⟨rfl, by rw [info]⟩

theorem addPieces_places (pads : PadsToNext lib) (sizes : ∀ p ∈ pieces, PowerSize p.pieceSize)
    {final : Progress} (whole : 128 ∣ upTo) (offset : done.offset = unpadded upTo)
    (total : (done.pieceInfos.map PieceInfo.size).sum = upTo)
    (folded : pieces.foldlM (addPiece lib node commDOnly) done = .ok final) :
    done.pieceInfos <+: final.pieceInfos ∧
      ∃ places, (∀ place ∈ places, done.pieceInfos.length ≤ place) ∧
        places.Pairwise (· < ·) ∧
        Forall₂ (fun place p => final.pieceInfos[place]? = some (infoOf lib p)) places pieces ∧
        places.map (paddedStart final.pieceInfos) = layoutStarts lib upTo pieces := by
  induction pieces generalizing done upTo with
  | nil =>
    cases folded
    exact ⟨prefix_rfl, [], by simp, Pairwise.nil, .nil, rfl⟩
  | cons p rest ih =>
    rw [foldlM_cons] at folded
    cases added : addPiece lib node commDOnly done p with
    | error message =>
      rw [added] at folded
      cases folded
    | ok next =>
      rw [added] at folded
      obtain ⟨nextOffset, nextInfos⟩ := addPiece_eq_ok added
      have power := sizes p mem_cons_self
      have here : padded done.offset = upTo := by rw [offset, padded_unpadded whole]
      have gap := pads.whole whole power
      rw [here] at nextOffset nextInfos
      have paddedInfos : ((lib.getRequiredPadding upTo p.pieceSize).map (fun pad =>
          (⟨pad, lib.zeroPieceCommitment (unpadded pad)⟩ : PieceInfo))).map PieceInfo.size =
            lib.getRequiredPadding upTo p.pieceSize := by
        simp [Function.comp_def]
      generalize (lib.getRequiredPadding upTo p.pieceSize).map (fun pad =>
        (⟨pad, lib.zeroPieceCommitment (unpadded pad)⟩ : PieceInfo)) = padding at *
      have nextTotal : (next.pieceInfos.map PieceInfo.size).sum =
          upTo + (lib.getRequiredPadding upTo p.pieceSize).sum + p.pieceSize := by
        rw [nextInfos, map_append, map_append, paddedInfos, sum_append, sum_append, total]
        simp [infoOf]
      have nextWhole : 128 ∣ upTo + (lib.getRequiredPadding upTo p.pieceSize).sum :=
        dvd_add whole gap
      have nextUnpadded : next.offset =
          unpadded (upTo + (lib.getRequiredPadding upTo p.pieceSize).sum + p.pieceSize) := by
        rw [unpadded_add nextWhole power.whole, unpadded_add whole gap, nextOffset, offset]
      obtain ⟨extends_, places, after, ordered, found, starts⟩ :=
        ih (forall_mem_cons.mp sizes).2
          (dvd_add nextWhole power.whole) nextUnpadded nextTotal folded
      -- the piece is the last of the infos so far
      have kept : done.pieceInfos ++ padding <+: final.pieceInfos := by
        refine List.IsPrefix.trans ?_ extends_
        grind
      refine ⟨(prefix_append _ _).trans kept,
        (done.pieceInfos ++ padding).length :: places, ?_, ?_, ?_, ?_⟩
      · grind
      · refine Pairwise.cons ?_ ordered
        grind
      · refine Forall₂.cons ?_ found
        obtain ⟨behind, same⟩ := extends_
        grind
      · rw [map_cons, starts, layoutStarts]
        obtain ⟨behind, same⟩ := kept
        rw [paddedStart, ← same, take_left' rfl, map_append, paddedInfos, sum_append, total]

end Loop

section Found

variable {lib : Libraries}

variable {pieces : List DealMetadata}

variable (pads : PadsToNext lib) (sizes : ∀ p ∈ pieces, PowerSize p.pieceSize)
include pads sizes

/-- No other piece before the one that is searched has its commitment and size. -/
theorem searchMk12_eq (distinct : (pieces.map initialPiece).Nodup) (whole : 128 ∣ upTo)
    (here : (pieces.map initialPiece)[k]? = some ⟨deal.pieceCid, deal.pieceSize⟩) :
    searchMk12 lib deal (unpadded upTo) (pieces.map initialPiece) =
      (layoutStarts lib upTo pieces)[k]? := by
  induction pieces generalizing upTo k with
  | nil => cases here
  | cons p rest ih =>
    have power := sizes p mem_cons_self
    have gap := pads.whole whole power
    have nextWhole := dvd_add whole gap
    have next : unpadded upTo + unpadded (lib.getRequiredPadding upTo p.pieceSize).sum =
        unpadded (upTo + (lib.getRequiredPadding upTo p.pieceSize).sum) :=
      (unpadded_add whole gap).symm
    rw [map_cons, nodup_cons] at distinct
    simp only [map_cons, initialPiece] at here
    rw [map_cons, searchMk12, layoutStarts]
    simp only [initialPiece, padded_unpadded whole, next, padded_unpadded nextWhole]
    cases k with
    | zero => grind
    | succ k =>
      have other : ¬ (p.pieceCID = deal.pieceCid ∧ p.pieceSize = deal.pieceSize) := by
        grind [initialPiece]
      rw [if_neg other, ← unpadded_add nextWhole power.whole]
      exact ih (forall_mem_cons.mp sizes).2 distinct.2
        (dvd_add nextWhole power.whole) here

theorem searchMk20_eq {piece : PipelineRow}
    (listed : ⟨piece.pieceCid, piece.pieceSize⟩ ∈ pieces.map initialPiece) :
    searchMk20 lib piece 0 (pieces.map initialPiece) = some 0 := by
  induction pieces with
  | nil => cases listed
  | cons p rest ih =>
    have zero := pads.at_zero (sizes p mem_cons_self)
    rw [map_cons, searchMk20]
    simp only [initialPiece, padded, unpadded, zero]
    split
    · rfl
    · grind [initialPiece]

end Found

section Stored

structure Waiting (table : List PipelineRow) (deal : PipelineRow) : Prop where
  ready : deal.ready = true
  sector : deal.sector ≠ none
  unset : deal.sectorOffset = none
  alone : table.filter (fun row => row.id = deal.id) = [deal]

def storedOffset (table : List PipelineRow) (id : String) : Option Nat :=
  (table.find? fun row => row.id = id).bind PipelineRow.sectorOffset

variable {table : List PipelineRow} {pieceList : List InitialPiece}

theorem setSectorOffset_stored {sector : Int} (waiting : Waiting table deal)
    (inSector : deal.sector = some sector) (offset : Nat) :
    (setSectorOffset offset deal.id sector table).2 = 1 ∧
      storedOffset (setSectorOffset offset deal.id sector table).1 deal.id = some offset := by
  constructor
  · have selected : (setSectorOffset offset deal.id sector table).2 =
        ((table.filter fun row => row.id = deal.id).countP fun row =>
          row.sector = some sector ∧ row.sectorOffset = none) := by
      rw [countP_filter]
      apply countP_congr
      simp only [Bool.and_eq_true, decide_eq_true_eq]
      tauto
    rw [selected, waiting.alone]
    simp [inSector, waiting.unset]
  · have first : table.find? (fun row => row.id = deal.id) = some deal := by
      rw [← head?_filter, waiting.alone]
      rfl
    have sameId (row : PipelineRow) : (if (row.id = deal.id ∧ row.sector = some sector ∧
        row.sectorOffset = none) then { row with sectorOffset := some offset } else row).id =
          row.id := by
      split <;> rfl
    rw [storedOffset, setSectorOffset, find?_map]
    simp only [Function.comp_def, decide_eq_true_eq, sameId, first, Option.map_some,
      Option.bind_some, inSector, waiting.unset, and_self, if_true]

variable (lib : Libraries)

def search : Market → PipelineRow → Nat → List InitialPiece → Option Nat
  | .mk12 => searchMk12 lib
  | .mk20 => searchMk20 lib

variable {lib}

theorem recordOffset_stored {market : Market} (waiting : Waiting table deal)
    (found : search lib market deal 0 pieceList = some offset) :
    (recordOffset lib market pieceList table deal).2 = .ok () ∧
      storedOffset (recordOffset lib market pieceList table deal).1 deal.id = some offset := by
  obtain ⟨sector, inSector⟩ := Option.ne_none_iff_exists'.mp waiting.sector
  obtain ⟨once, stored⟩ := setSectorOffset_stored waiting inSector offset
  cases market <;>
  · simp only [search] at found
    have nonempty : pieceList.length ≠ 0 := by
      grind [searchMk12, searchMk20]
    simp only [recordOffset, processMk12Deal, addDealOffset, inSector, waiting.ready,
      waiting.unset, and_self, if_true, if_neg nonempty, found, once, ne_eq, not_true_eq_false,
      if_false]
    exact ⟨trivial, stored⟩

end Stored

section Metadata

variable {lib : Libraries} {node : Node} {ssize : Nat} {commDOnly : Bool}

theorem getDealMetadata_places (pads : PadsToNext lib) {out : DealData}
    (sizes : ∀ p ∈ pieces, PowerSize p.pieceSize)
    (returned : getDealMetadata lib node ssize pieces commDOnly = .ok out) :
    ∃ places : List Nat, places.Pairwise (· < ·) ∧
      Forall₂ (fun place p => out.pieceInfos[place]? = some (infoOf lib p)) places pieces ∧
      places.map (paddedStart out.pieceInfos) = layoutStarts lib 0 pieces := by
  by_cases empty : pieces = []
  · subst empty
    exact ⟨[], .nil, .nil, rfl⟩
  rw [getDealMetadata, if_pos empty] at returned
  cases folded : pieces.foldlM (addPiece lib node commDOnly) ⟨0, [], [], false⟩ with
  | error message =>
    rw [folded] at returned
    cases returned
  | ok done =>
    obtain ⟨-, places, -, ordered, found, starts⟩ :=
      addPieces_places pads sizes (Nat.dvd_zero 128) rfl rfl folded
    have behind : ∃ fillers, out.pieceInfos = done.pieceInfos ++ fillers := by
      simp only [folded, bind, Except.bind] at returned
      split at returned <;> cases returned
      · exact ⟨_, rfl⟩
    obtain ⟨fillers, infos⟩ := behind
    have inside (place : Nat) (p : DealMetadata)
        (here : done.pieceInfos[place]? = some (infoOf lib p)) :
        place < done.pieceInfos.length := (List.getElem?_eq_some_iff.mp here).1
    refine ⟨places, ordered, ?_, ?_⟩
    · refine found.imp ?_
      grind
    · rw [← starts]
      apply map_congr_left
      intro place member
      obtain ⟨index, bound, rfl⟩ := getElem_of_mem member
      have here := inside _ _ (found.get bound (found.length_eq ▸ bound))
      rw [paddedStart, paddedStart]
      grind

end Metadata

theorem sampleLibraries_pads : PadsToNext sampleLibraries where
  total offset bit _ _ small := by
    have below : (2 ^ bit - offset % 2 ^ bit) % 2 ^ bit < 2 ^ 64 :=
      (Nat.mod_lt _ (Nat.two_pow_pos bit)).trans (Nat.pow_lt_pow_right (by decide) small)
    exact lowBits_sum below

def samplePieces : List DealMetadata :=
  [⟨"first", 256, none, [], 0, false⟩, ⟨"second", 512, none, [], 0, false⟩]

def sampleDeal : PipelineRow := ⟨"deal", "second", 512, true, some 7, none⟩

theorem sampleDeal_waiting : Waiting [sampleDeal] sampleDeal := ⟨rfl, by decide, rfl, rfl⟩

/-- `getDealMetadata` lays out the pieces of a sector in their order, and the offset that is stored
for a deal is where its piece starts exactly if the deal is an Mk12 deal or its piece is the first. -/
theorem deal_offset_iff {lib : Libraries} (pads : PadsToNext lib) {node : Node} {ssize : Nat}
    {pieces : List DealMetadata} {commDOnly : Bool} {out : DealData}
    (sizes : ∀ p ∈ pieces, PowerSize p.pieceSize) (distinct : (pieces.map initialPiece).Nodup)
    (returned : getDealMetadata lib node ssize pieces commDOnly = .ok out) :
    ∃ places : List Nat, places.Pairwise (· < ·) ∧
      Forall₂ (fun place p => out.pieceInfos[place]? = some (infoOf lib p)) places pieces ∧
      ∀ (k : Nat) (p : DealMetadata) (place : Nat), pieces[k]? = some p → places[k]? = some place →
        ∀ (market : Market) (table : List PipelineRow) (deal : PipelineRow), Waiting table deal →
          deal.pieceCid = p.pieceCID → deal.pieceSize = p.pieceSize →
          ((recordOffset lib market (pieces.map initialPiece) table deal).2 = .ok () ∧
            storedOffset (recordOffset lib market (pieces.map initialPiece) table deal).1 deal.id =
              some (paddedStart out.pieceInfos place) ↔
            market = .mk12 ∨ k = 0) := by
  obtain ⟨places, ordered, found, starts⟩ := getDealMetadata_places pads sizes returned
  refine ⟨places, ordered, found, ?_⟩
  intro k p place isPiece isPlace market table deal waiting sameCid sameSize
  have start : (layoutStarts lib 0 pieces)[k]? = some (paddedStart out.pieceInfos place) := by
    rw [← starts, getElem?_map, isPlace, Option.map_some]
  have here : (pieces.map initialPiece)[k]? = some ⟨deal.pieceCid, deal.pieceSize⟩ := by
    grind [initialPiece]
  cases market with
  | mk12 =>
    have searched := (searchMk12_eq pads sizes distinct (Nat.dvd_zero 128) here).trans start
    exact ⟨fun _ => .inl rfl, fun _ => recordOffset_stored waiting searched⟩
  | mk20 =>
    have searched : search lib .mk20 deal 0 (pieces.map initialPiece) = some 0 :=
      searchMk20_eq pads sizes (mem_of_getElem? here)
    obtain ⟨ok, stored⟩ := recordOffset_stored waiting searched
    have first := layoutStarts_eq_zero pads sizes start
    constructor
    · rintro ⟨-, right⟩
      exact .inr (first.mp (Option.some.inj (stored.symm.trans right)).symm)
    · rintro (other | zero)
      · cases other
      · exact ⟨ok, stored.trans (congrArg some (first.mpr zero).symm)⟩

theorem deal_offset_second :
    ∃ out, getDealMetadata sampleLibraries sampleNode 2048 samplePieces true = .ok out ∧
      ∃ place, out.pieceInfos[place]? = some ⟨512, "second"⟩ ∧
        storedOffset (recordOffset sampleLibraries .mk12 (samplePieces.map initialPiece)
          [sampleDeal] sampleDeal).1 "deal" = some (paddedStart out.pieceInfos place) := by
  obtain ⟨out, returned⟩ : ∃ out,
      getDealMetadata sampleLibraries sampleNode 2048 samplePieces true = .ok out := ⟨_, rfl⟩
  have sizes : ∀ p ∈ samplePieces, PowerSize p.pieceSize := by
    simp only [samplePieces, forall_mem_cons]
    exact ⟨⟨8, by decide, by decide, rfl⟩, ⟨9, by decide, by decide, rfl⟩, by simp⟩
  obtain ⟨places, -, found, iff⟩ :=
    deal_offset_iff sampleLibraries_pads sizes (by decide) returned
  have bound : 1 < places.length := by
    rw [found.length_eq]
    decide
  have stored := (iff 1 ⟨"second", 512, none, [], 0, false⟩ places[1] rfl
    (getElem?_eq_getElem bound) .mk12 [sampleDeal] sampleDeal sampleDeal_waiting rfl
    rfl).mpr (.inl rfl)
  exact ⟨out, returned, places[1], found.get bound (by decide), stored.2⟩

/-- The second piece of an Mk20 deal starts at 512, and zero is stored for it. -/
theorem mk20_offset_zero :
    (∃ out, getDealMetadata sampleLibraries sampleNode 2048 samplePieces true = .ok out ∧
      out.pieceInfos[2]? = some ⟨512, "second"⟩ ∧ paddedStart out.pieceInfos 2 = 512) ∧
    addDealOffset sampleLibraries (samplePieces.map initialPiece) [sampleDeal] sampleDeal =
      ([{ sampleDeal with sectorOffset := some 0 }], .ok ()) := by
  refine ⟨⟨_, rfl, ?_⟩, ?_⟩
  · decide +kernel
  · decide +kernel

end Curio.Deal
