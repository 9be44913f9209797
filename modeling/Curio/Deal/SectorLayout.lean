import Curio.Deal.SectorData

/-! The stream of a sector's data against its piece infos: the two agree exactly when the raw data of
every piece, rounded up to a piece size, fills its piece. -/

namespace Curio.Deal

open GoRuntime Alignment List

theorem unpadded_add {left right : Nat} (first : 128 ∣ left) (second : 128 ∣ right) :
    unpadded (left + right) = unpadded left + unpadded right := by
  unfold unpadded
  omega

theorem padded_unpadded {size : Nat} (whole : 128 ∣ size) : padded (unpadded size) = size := by
  unfold padded unpadded
  omega

theorem unpadded_mono {small large : Nat} (le : small ≤ large) :
    unpadded small ≤ unpadded large := by
  unfold unpadded
  omega

section

variable {sizes : List Nat} (whole : ∀ size ∈ sizes, 128 ∣ size)
include whole

theorem unpadded_sum : unpadded sizes.sum = (sizes.map unpadded).sum := by
  induction sizes with
  | nil => rfl
  | cons size rest ih =>
    have later : ∀ size ∈ rest, 128 ∣ size :=
      (forall_mem_cons.mp whole).2
    rw [sum_cons, unpadded_add (whole size mem_cons_self) (dvd_sum later), ih later,
      map_cons, sum_cons]

end

def start (infos : List PieceInfo) (place : Nat) : Nat :=
  unpadded ((infos.take place).map PieceInfo.size).sum

@[simp] theorem start_zero (infos : List PieceInfo) : start infos 0 = 0 := by
  simp [start, unpadded]

structure Placed (infos : List PieceInfo) (pieces : List (PieceInfo × Bytes))
    (data : Bytes) (places : List Nat) : Prop where
  ordered : places.Pairwise (· < ·)
  each : Forall₂ (fun place piece => infos[place]? = some piece.1 ∧
    piece.2 <+: data.drop (start infos place)) places pieces
  zero : ∀ position byte, data[position]? = some byte → byte ≠ 0 →
    ∃ entry ∈ places.zip pieces, start infos entry.1 ≤ position ∧
      position < start infos entry.1 + entry.2.2.length

/-- The data area by area: padding is zero, a piece is its raw bytes and zeros. -/
inductive Laid : List PieceInfo → List (PieceInfo × Bytes) → Bytes → Prop where
  | nil : Laid [] [] []
  | pad (info : PieceInfo) {infos : List PieceInfo} {pieces : List (PieceInfo × Bytes)}
      {data : Bytes} (rest : Laid infos pieces data) :
      Laid (info :: infos) pieces (nullReader (unpadded info.size) ++ data)
  | piece (info : PieceInfo) (raw : Bytes) (fits : raw.length ≤ unpadded info.size)
      {infos : List PieceInfo} {pieces : List (PieceInfo × Bytes)} {data : Bytes}
      (rest : Laid infos pieces data) :
      Laid (info :: infos) ((info, raw) :: pieces)
        (raw ++ nullReader (unpadded info.size - raw.length) ++ data)

namespace Laid

variable {infos later : List PieceInfo} {pieces others : List (PieceInfo × Bytes)}
  {data more : Bytes}

theorem append (front : Laid infos pieces data) (back : Laid later others more) :
    Laid (infos ++ later) (pieces ++ others) (data ++ more) := by
  induction front with
  | nil => exact back
  | pad info rest ih =>
    rw [append_assoc]
    exact .pad info ih
  | piece info raw fits rest ih =>
    rw [append_assoc]
    exact .piece info raw fits ih

theorem pads (infos : List PieceInfo) :
    Laid infos [] (infos.map fun info => nullReader (unpadded info.size)).flatten := by
  induction infos with
  | nil => exact .nil
  | cons info rest ih => exact .pad info ih

end Laid

variable {infos : List PieceInfo} {pieces : List (PieceInfo × Bytes)} {data : Bytes}
  {done : Progress} {upTo rem : Nat}

section

variable {info : PieceInfo} (whole : ∀ other ∈ info :: infos, 128 ∣ other.size)
include whole

theorem start_cons (place : Nat) :
    start (info :: infos) (place + 1) = unpadded info.size + start infos place := by
  grind [start, unpadded]

theorem Placed.shift {area : Bytes} {places : List Nat}
    (size : area.length = unpadded info.size) (placed : Placed infos pieces data places) :
    (places.map (· + 1)).Pairwise (· < ·) ∧
    Forall₂ (fun place piece => (info :: infos)[place]? = some piece.1 ∧
      piece.2 <+: (area ++ data).drop (start (info :: infos) place)) (places.map (· + 1)) pieces ∧
    ∀ position byte, (area ++ data)[position]? = some byte → area.length ≤ position → byte ≠ 0 →
      ∃ entry ∈ (places.map (· + 1)).zip pieces, start (info :: infos) entry.1 ≤ position ∧
        position < start (info :: infos) entry.1 + entry.2.2.length := by
  refine ⟨?_, ?_, ?_⟩
  · rw [pairwise_map]
    exact placed.ordered.imp fun lower => Nat.succ_lt_succ lower
  · rw [forall₂_map_left_iff]
    refine placed.each.imp ?_
    rintro place piece ⟨here, sound⟩
    refine ⟨by rw [getElem?_cons_succ]; exact here, ?_⟩
    rw [start_cons whole, ← size, ← drop_drop, drop_left]
    exact sound
  · intro position byte here behind nonzero
    rw [getElem?_append_right behind] at here
    obtain ⟨entry, member, low, high⟩ := placed.zero _ byte here nonzero
    refine ⟨(entry.1 + 1, entry.2), ?_, ?_⟩
    · grind [zip_map_left]
    · rw [start_cons whole]
      simp only
      omega

end

theorem Laid.placed (laid : Laid infos pieces data) (whole : ∀ info ∈ infos, 128 ∣ info.size) :
    ∃ places, Placed infos pieces data places := by
  induction laid with
  | nil => exact ⟨[], Pairwise.nil, Forall₂.nil, by simp⟩
  | pad info rest ih =>
    obtain ⟨places, placed⟩ := ih (forall_mem_cons.mp whole).2
    obtain ⟨ordered, each, zero⟩ := placed.shift whole length_replicate
    refine ⟨_, ordered, each, ?_⟩
    intro position byte here nonzero
    by_cases inside : position < (nullReader (unpadded info.size)).length
    · grind [nullReader]
    · exact zero position byte here (Nat.le_of_not_lt inside) nonzero
  | @piece info raw fits infos pieces data rest ih =>
    obtain ⟨places, placed⟩ := ih (forall_mem_cons.mp whole).2
    have size : (raw ++ nullReader (unpadded info.size - raw.length)).length =
        unpadded info.size := by
      rw [length_append, nullReader, length_replicate]
      omega
    obtain ⟨ordered, each, zero⟩ := placed.shift whole size
    refine ⟨0 :: places.map (· + 1), ?_, ?_, ?_⟩
    · refine pairwise_cons.mpr ⟨?_, ordered⟩
      grind
    · refine Forall₂.cons ⟨rfl, ?_⟩ each
      rw [start_zero, append_assoc]
      exact prefix_append _ _
    · intro position byte here nonzero
      by_cases own : position < raw.length
      · exact ⟨(0, (info, raw)), mem_cons_self, by simp, by simpa using own⟩
      · grind [nullReader]

section Pieces

variable (lib : Libraries) (node : Node)

/-- What the libraries document: padding leads to a multiple of the next piece's size, rounding up
covers the raw size, and a complete sector has a commitment. -/
structure Documented (ssize : Nat) : Prop where
  padding : ∀ offset bit, 128 ∣ offset → 7 ≤ bit → bit < 64 →
    Aligned offset (lib.getRequiredPadding offset (2 ^ bit)) ∧
    2 ^ bit ∣ offset + (lib.getRequiredPadding offset (2 ^ bit)).sum ∧
    ∀ pad ∈ lib.getRequiredPadding offset (2 ^ bit), 128 ∣ pad
  rounded : ∀ size ≤ unpadded (2 ^ 63), size ≤ lib.paddedSize size
  aggregates : ∀ infos : List PieceInfo, Aligned 0 (infos.map PieceInfo.size) →
    (∀ info ∈ infos, 128 ∣ info.size) → (infos.map PieceInfo.size).sum = ssize →
      ∃ commD, lib.pieceAggregateCommP infos = .ok commD

/-- Pieces that the commp task accepts, with data that can be read. -/
structure Accepted (p : DealMetadata) : Prop where
  power : ∃ bit, 7 ≤ bit ∧ bit < 64 ∧ p.pieceSize = 2 ^ bit
  parsed : ∃ c, lib.parseCid p.pieceCID = .ok c
  source : ∀ dataUrl, p.dataUrl = some dataUrl → ∃ source,
    openUrl lib node p dataUrl = .ok source ∧ p.dataRawSize ≤ source.length ∧
      p.dataRawSize ≤ unpadded p.pieceSize ∧ lib.paddedSize p.dataRawSize ≤ unpadded p.pieceSize

def rawBytes (p : DealMetadata) : Bytes :=
  match p.dataUrl with
  | none => []
  | some dataUrl =>
    match openUrl lib node p dataUrl with
    | .error _ => []
    | .ok source => source.take p.dataRawSize

def infoOf (p : DealMetadata) : PieceInfo :=
  ⟨p.pieceSize, match lib.parseCid p.pieceCID with
    | .error _ => ""
    | .ok c => c⟩

def readerSize (p : DealMetadata) : Nat :=
  if p.dataUrl = none then unpadded p.pieceSize else lib.paddedSize p.dataRawSize

def Filled (p : DealMetadata) : Prop :=
  p.dataUrl ≠ none → lib.paddedSize p.dataRawSize = unpadded p.pieceSize

def layoutEnd : Nat → List DealMetadata → Nat
  | offset, [] => offset
  | offset, p :: rest =>
    layoutEnd (offset + (lib.getRequiredPadding offset p.pieceSize).sum + p.pieceSize) rest

variable {lib node} {p : DealMetadata}

theorem Accepted.readerSize_le (accepted : Accepted lib node p) :
    readerSize lib p ≤ unpadded p.pieceSize := by
  unfold readerSize
  split
  · exact le_rfl
  · next some =>
    obtain ⟨dataUrl, here⟩ := Option.ne_none_iff_exists'.mp some
    obtain ⟨source, -, -, -, fits⟩ := accepted.source dataUrl here
    exact fits

theorem Filled.readerSize_eq (filled : Filled lib p) : readerSize lib p = unpadded p.pieceSize := by
  unfold readerSize
  split
  · rfl
  · next some => exact filled some

theorem Accepted.openPiece_ok {ssize : Nat} (documented : Documented lib ssize)
    (accepted : Accepted lib node p) :
    (rawBytes lib node p).length ≤ readerSize lib p ∧
      openPiece lib node p = .ok (rawBytes lib node p ++
        nullReader (readerSize lib p - (rawBytes lib node p).length)) := by
  unfold openPiece rawBytes readerSize
  cases here : p.dataUrl with
  | none => exact ⟨Nat.zero_le _, rfl⟩
  | some dataUrl =>
    obtain ⟨source, opened, long, fits, -⟩ := accepted.source dataUrl here
    obtain ⟨bit, -, small, power⟩ := accepted.power
    have largest : p.pieceSize ≤ 2 ^ 63 := power ▸ Nat.pow_le_pow_right two_pos (by omega)
    have size : (source.take p.dataRawSize).length = p.dataRawSize := by
      rw [length_take]
      omega
    simp only [opened, size]
    exact ⟨documented.rounded _ (by grind [unpadded]), rfl⟩

end Pieces

section Loop

variable {lib : Libraries} {node : Node} {ssize : Nat}

/-- What the loop has after some pieces: the infos and the readers both end at the offset, where the
readers lack what the pieces' data does not fill. -/
structure Tracks (lib : Libraries) (node : Node) (done : Progress) (upTo : Nat)
    (pieces : List DealMetadata) : Prop where
  whole : 128 ∣ upTo
  offset : done.offset = unpadded upTo
  aligned : Aligned 0 (done.pieceInfos.map PieceInfo.size)
  total : (done.pieceInfos.map PieceInfo.size).sum = upTo
  blocks : ∀ info ∈ done.pieceInfos, 128 ∣ info.size
  length : done.pieceReaders.flatten.length +
    (pieces.map fun p => unpadded p.pieceSize - readerSize lib p).sum = done.offset
  laid : (∀ p ∈ pieces, Filled lib p) →
    Laid done.pieceInfos (pieces.map fun p => (infoOf lib p, rawBytes lib node p))
      done.pieceReaders.flatten

theorem Tracks.start (lib : Libraries) (node : Node) : Tracks lib node ⟨0, [], [], false⟩ 0 [] where
  whole := dvd_zero _
  offset := rfl
  aligned := trivial
  total := rfl
  blocks := by simp
  length := rfl
  laid := fun _ => .nil

@[simp] theorem nullReader_length (size : Nat) : (nullReader size).length = size :=
  length_replicate

theorem nullReaders_length (sizes : List Nat) :
    (sizes.map fun size => nullReader (unpadded size)).flatten.length =
      (sizes.map unpadded).sum := by
  induction sizes with
  | nil => rfl
  | cons size rest ih => grind [nullReader]

variable {pieces : List DealMetadata}

theorem Tracks.addPiece (documented : Documented lib ssize)
    (tracks : Tracks lib node done upTo pieces) {p : DealMetadata}
    (accepted : Accepted lib node p) :
    ∃ next, Deal.addPiece lib node false done p = .ok next ∧
      Tracks lib node next
        (upTo + (lib.getRequiredPadding upTo p.pieceSize).sum + p.pieceSize) (pieces ++ [p]) := by
  obtain ⟨bit, large, small, power⟩ := accepted.power
  obtain ⟨c, parsed⟩ := accepted.parsed
  obtain ⟨short, opened⟩ := accepted.openPiece_ok documented
  have fits := accepted.readerSize_le
  obtain ⟨padded, multiple, blocks⟩ := documented.padding upTo bit tracks.whole large small
  rw [← power] at padded multiple blocks
  have here : Deal.padded done.offset = upTo := by rw [tracks.offset, padded_unpadded tracks.whole]
  have info : infoOf lib p = ⟨p.pieceSize, c⟩ := by simp only [infoOf, parsed]
  have block : 128 ∣ p.pieceSize := power ▸ (pow_dvd_pow 2 large : 2 ^ 7 ∣ 2 ^ bit)
  have gap := dvd_sum blocks
  generalize required : lib.getRequiredPadding upTo p.pieceSize = pads at *
  refine ⟨⟨done.offset + unpadded pads.sum + unpadded p.pieceSize,
    done.pieceInfos ++ pads.map (fun pad => ⟨pad, lib.zeroPieceCommitment (unpadded pad)⟩) ++
      [⟨p.pieceSize, c⟩],
    done.pieceReaders ++ pads.map (fun pad => nullReader (unpadded pad)) ++
      [rawBytes lib node p ++ nullReader (readerSize lib p - (rawBytes lib node p).length)],
    done.keepUnsealed || !p.dataDelOnFinalize⟩, ?_, ?_⟩
  · simp only [Deal.addPiece, parsed, here, required, opened]
    rfl
  · refine ⟨?_, ?_, ?_, ?_, ?_, ?_, ?_⟩
    · exact dvd_add (dvd_add tracks.whole gap) block
    · grind [unpadded, padded]
    · simp only [map_append, map_map, Function.comp_def, map_id']
      rw [aligned_append, aligned_append, sum_append, tracks.total, zero_add, zero_add]
      refine ⟨⟨tracks.aligned, padded⟩, ?_⟩
      rw [power] at multiple ⊢
      exact ⟨⟨_, rfl⟩, multiple, trivial⟩
    · simp only [map_append, map_map, Function.comp_def, map_id', map_cons,
        map_nil, sum_append, sum_cons, sum_nil, tracks.total, add_zero]
    · intro info member
      simp only [mem_append, mem_map, mem_singleton] at member
      rcases member with (old | ⟨pad, inside, rfl⟩) | rfl
      · exact tracks.blocks info old
      · exact blocks pad inside
      · exact block
    · have before := tracks.length
      simp only [flatten_append, flatten_singleton, length_append,
        nullReaders_length, map_append, sum_append, map_cons, map_nil,
        sum_cons, sum_nil, nullReader_length]
      rw [unpadded_sum blocks]
      omega
    · intro filled
      have own : Filled lib p := filled p (by simp)
      have earlier := tracks.laid fun q member => filled q (mem_append_left _ member)
      have padding := Laid.pads (pads.map fun pad => ⟨pad, lib.zeroPieceCommitment (unpadded pad)⟩)
      simp only [map_map, Function.comp_def] at padding
      have piece := Laid.piece (infoOf lib p) (rawBytes lib node p) (own.readerSize_eq ▸ short) .nil
      have joined := (earlier.append padding).append piece
      rw [own.readerSize_eq]
      grind

theorem Tracks.addPieces (documented : Documented lib ssize)
    (accepted : ∀ p ∈ pieces, Accepted lib node p) {earlier : List DealMetadata}
    (tracks : Tracks lib node done upTo earlier) :
    ∃ final, pieces.foldlM (Deal.addPiece lib node false) done = .ok final ∧
      Tracks lib node final (layoutEnd lib upTo pieces) (earlier ++ pieces) := by
  induction pieces generalizing done upTo earlier with
  | nil => exact ⟨done, rfl, by simpa [layoutEnd] using tracks⟩
  | cons p rest ih =>
    obtain ⟨next, added, after⟩ := tracks.addPiece documented (accepted p mem_cons_self)
    obtain ⟨final, folded, complete⟩ :=
      ih (forall_mem_cons.mp accepted).2 after
    refine ⟨final, ?_, ?_⟩
    · rw [foldlM_cons, added]
      exact folded
    · rw [append_assoc] at complete
      exact complete

end Loop

theorem fillersFromRem_unpadded (whole : 128 ∣ rem) (small : rem < 2 ^ 64) :
    fillersFromRem (unpadded rem) = (lowBits (onesCount rem) rem).map unpadded := by
  have filled : unpadded rem + unpadded rem / 127 = rem := padded_unpadded whole
  unfold fillersFromRem
  rw [filled, uint64_of_lt small]

theorem lowBits_blocks (whole : 128 ∣ rem) : ∀ size ∈ lowBits (onesCount rem) rem, 128 ∣ size := by
  intro size member
  obtain ⟨bit, rfl, set⟩ := lowBits_mem member
  apply pow_dvd_pow 2 (m := 7)
  by_contra low
  obtain ⟨half, rfl⟩ := whole
  have clear : (128 * half).testBit bit = false := by
    rw [show 128 = 2 ^ 7 from rfl, Nat.testBit_two_pow_mul]
    simp [low]
  rw [clear] at set
  cases set

theorem lowBits_fill {top : Nat} (fits : upTo ≤ 2 ^ top) :
    Aligned upTo (lowBits (onesCount (2 ^ top - upTo)) (2 ^ top - upTo)) := by
  apply lowBits_aligned (Nat.add_sub_of_le fits)
  intro bit set
  apply pow_dvd_pow
  by_contra large
  have below : 2 ^ top - upTo < 2 ^ bit :=
    lt_of_le_of_lt (Nat.sub_le _ _) (Nat.pow_lt_pow_right (by decide) (Nat.lt_of_not_le large))
  rw [Nat.testBit_lt_two_pow below] at set
  cases set

/-- What is left of a sector is filled up to its end by aligned pieces. -/
theorem fillersFromRem_fills (k top : Nat) (word : top < 64) (fits : 128 * k ≤ 2 ^ top) :
    (∀ size ∈ fillersFromRem (127 * k), ∃ j, size = 127 * 2 ^ j) ∧
      (fillersFromRem (127 * k)).sum = 127 * k ∧
      Aligned (2 ^ top - 128 * k) ((fillersFromRem (127 * k)).map padded) ∧
      2 ^ top - 128 * k + ((fillersFromRem (127 * k)).map padded).sum = 2 ^ top := by
  have whole : 128 ∣ 128 * k := Nat.dvd_mul_right 128 k
  have small : 128 * k < 2 ^ 64 := lt_of_le_of_lt fits (Nat.pow_lt_pow_right (by decide) word)
  have plain : unpadded (128 * k) = 127 * k := by
    unfold unpadded
    omega
  have fillers := fillersFromRem_unpadded whole small
  have blocks := lowBits_blocks whole
  have filling := lowBits_sum small
  have aligned := lowBits_fill (Nat.sub_le (2 ^ top) (128 * k))
  have back : ((fillersFromRem (127 * k)).map padded) =
      lowBits (onesCount (128 * k)) (128 * k) := by
    rw [← plain, fillers, map_map, map_congr_left (g := id), map_id]
    exact fun size member => padded_unpadded (blocks size member)
  rw [back, filling]
  refine ⟨?_, ?_, ?_, Nat.sub_add_cancel fits⟩
  · rw [← plain, fillers]
    intro size member
    obtain ⟨piece, inside, rfl⟩ := mem_map.mp member
    obtain ⟨bit, rfl, -⟩ := lowBits_mem inside
    have high : 7 ≤ bit := (Nat.pow_dvd_pow_iff_le_right (by decide)).mp (blocks _ inside)
    obtain ⟨j, rfl⟩ := Nat.exists_eq_add_of_le high
    refine ⟨j, ?_⟩
    rw [pow_add, unpadded]
    omega
  · rw [← plain, fillers, ← unpadded_sum blocks, filling]
  · rw [Nat.sub_sub_self fits] at aligned
    exact aligned

theorem fillersFromRem_fills_three :
    (fillersFromRem 381).sum = 381 ∧ Aligned 128 ((fillersFromRem 381).map padded) :=
  have fills := fillersFromRem_fills 3 9 (by decide) (by decide)
  ⟨fills.2.1, fills.2.2.1⟩

structure Matches (lib : Libraries) (node : Node) (ssize : Nat) (pieces : List DealMetadata)
    (out : DealData) : Prop where
  aligned : Aligned 0 (out.pieceInfos.map PieceInfo.size)
  total : (out.pieceInfos.map PieceInfo.size).sum = ssize
  commD : lib.pieceAggregateCommP out.pieceInfos = .ok out.commD
  length : out.data.length = unpadded ssize
  placed : ∃ places, Placed out.pieceInfos
    (pieces.map fun p => (infoOf lib p, rawBytes lib node p)) out.data places

def samplePadding (offset size : Nat) : List Nat :=
  let toFill := (size - offset % size) % size
  lowBits (onesCount toFill) toFill

def samplePaddedSize (size : Nat) : Nat :=
  if size ≤ 127 then 127
  else
    let blocks := (size + 126) / 127 * 128
    unpadded (if 2 ^ blocks.log2 = blocks then blocks else 2 ^ (blocks.log2 + 1))

def sampleLibraries : Libraries where
  parseCid text := .ok text
  getRequiredPadding := samplePadding
  zeroPieceCommitment size := "zero" ++ toString size
  pieceAggregateCommP infos := .ok (infos.foldl (fun text info => text ++ info.pieceCID) "")
  paddedSize := samplePaddedSize
  parseUrl text := .ok ("https", text)
  parseHeaders _ := .ok ()
  parseInt _ := .ok 0

def sampleNode : Node where
  parkedPieceRefs _ := .ok []
  pieceReader _ := .ok []
  urlReader _ _ size := replicate size 1

theorem samplePadding_spec {offset bit : Nat} (whole : 128 ∣ offset) (large : 7 ≤ bit)
    (small : bit < 64) :
    Aligned offset (samplePadding offset (2 ^ bit)) ∧
      2 ^ bit ∣ offset + (samplePadding offset (2 ^ bit)).sum ∧
      ∀ pad ∈ samplePadding offset (2 ^ bit), 128 ∣ pad := by
  have positive := Nat.two_pow_pos bit
  have block : 128 ∣ 2 ^ bit := pow_dvd_pow 2 large
  have below : 2 ^ bit < 2 ^ 64 := Nat.pow_lt_pow_right (by decide) small
  have gap : (2 ^ bit - offset % 2 ^ bit) % 2 ^ bit < 2 ^ bit := Nat.mod_lt _ positive
  have multiple : 2 ^ bit ∣ offset + (2 ^ bit - offset % 2 ^ bit) % 2 ^ bit := by
    apply Nat.dvd_of_mod_eq_zero
    rw [Nat.add_mod, Nat.mod_mod, ← Nat.add_mod]
    have back := Nat.div_add_mod offset (2 ^ bit)
    have next : offset + (2 ^ bit - offset % 2 ^ bit) = 2 ^ bit * (offset / 2 ^ bit + 1) := by
      rw [mul_add]
      omega
    rw [next]
    exact Nat.mul_mod_right _ _
  have divides : 128 ∣ (2 ^ bit - offset % 2 ^ bit) % 2 ^ bit :=
    (Nat.dvd_add_right whole).mp (block.trans multiple)
  unfold samplePadding
  generalize (2 ^ bit - offset % 2 ^ bit) % 2 ^ bit = toFill at gap multiple divides
  refine ⟨?_, ?_, lowBits_blocks divides⟩
  · apply lowBits_aligned rfl
    intro other set
    have lower : other < bit := by
      by_contra high
      rw [Nat.testBit_lt_two_pow (lt_of_lt_of_le gap
        (Nat.pow_le_pow_right (by decide) (Nat.le_of_not_lt high)))] at set
      cases set
    exact (pow_dvd_pow 2 lower.le).trans multiple
  · rw [lowBits_sum (gap.trans below)]
    exact multiple

theorem samplePaddedSize_le (size : Nat) : size ≤ samplePaddedSize size := by
  unfold samplePaddedSize
  split
  · assumption
  · have blocks : size ≤ unpadded ((size + 126) / 127 * 128) := by
      unfold unpadded
      omega
    refine blocks.trans (unpadded_mono ?_)
    split
    · exact le_rfl
    · exact Nat.lt_log2_self.le

theorem sampleLibraries_documented (ssize : Nat) : Documented sampleLibraries ssize where
  padding _ _ := samplePadding_spec
  rounded size _ := samplePaddedSize_le size
  aggregates _ _ _ _ := ⟨_, rfl⟩

def samplePiece (rawSize : Nat) : DealMetadata := ⟨"piece", 256, some "data", [], rawSize, false⟩

theorem samplePiece_accepted {rawSize : Nat} (fits : samplePaddedSize rawSize ≤ unpadded 256) :
    Accepted sampleLibraries sampleNode (samplePiece rawSize) where
  power := ⟨8, by decide, by decide, rfl⟩
  parsed := ⟨_, rfl⟩
  source dataUrl _ := ⟨replicate rawSize 1, rfl, by simp [samplePiece],
    (samplePaddedSize_le rawSize).trans fits, fits⟩

/-- Pieces that fit into the sector are laid out in it, and the data matches the layout exactly when
the raw data of every piece, rounded up by itself, has the size of the piece. -/
theorem sector_data_iff (lib : Libraries) (node : Node) (top : Nat) (large : 7 ≤ top)
    (small : top < 64) (documented : Documented lib (2 ^ top)) (pieces : List DealMetadata)
    (nonempty : pieces ≠ []) (accepted : ∀ p ∈ pieces, Accepted lib node p)
    (fits : layoutEnd lib 0 pieces ≤ 2 ^ top) :
    ∃ out, getDealMetadata lib node (2 ^ top) pieces false = .ok out ∧
      (Matches lib node (2 ^ top) pieces out ↔ ∀ p ∈ pieces, Filled lib p) := by
  obtain ⟨done, folded, tracks⟩ :=
    (Tracks.start lib node).addPieces documented accepted
  rw [nil_append] at tracks
  generalize layoutEnd lib 0 pieces = upTo at fits tracks
  have whole : 128 ∣ 2 ^ top := pow_dvd_pow 2 large
  have left : 128 ∣ 2 ^ top - upTo := Nat.dvd_sub whole tracks.whole
  have below : 2 ^ top < 2 ^ 64 := Nat.pow_lt_pow_right (by decide) small
  have split : unpadded (2 ^ top) = done.offset + unpadded (2 ^ top - upTo) := by
    rw [tracks.offset, ← unpadded_add tracks.whole left, Nat.add_sub_of_le fits]
  have rest : uint64 (unpadded (2 ^ top) - done.offset : Int) = unpadded (2 ^ top - upTo) := by
    have bound : unpadded (2 ^ top - upTo) ≤ 2 ^ top - upTo := Nat.sub_le _ _
    rw [split, Nat.cast_add, add_sub_cancel_left]
    exact uint64_of_lt (by omega)
  have blocks := lowBits_blocks left
  have filling := lowBits_sum (lt_of_le_of_lt (Nat.sub_le (2 ^ top) upTo) below)
  have aligned := lowBits_fill fits
  have fillers := fillersFromRem_unpadded left (lt_of_le_of_lt (Nat.sub_le (2 ^ top) upTo) below)
  generalize lowBits (onesCount (2 ^ top - upTo)) (2 ^ top - upTo) = sizes at *
  have sized : ((sizes.map unpadded).map fun fil =>
      (⟨padded fil, lib.zeroPieceCommitment fil⟩ : PieceInfo)) =
      sizes.map fun size => ⟨size, lib.zeroPieceCommitment (unpadded size)⟩ := by
    rw [map_map]
    apply map_congr_left
    intro size member
    simp only [Function.comp_apply, padded_unpadded (blocks size member)]
  let infos := done.pieceInfos ++
    sizes.map fun size => (⟨size, lib.zeroPieceCommitment (unpadded size)⟩ : PieceInfo)
  have infoSizes : infos.map PieceInfo.size = done.pieceInfos.map PieceInfo.size ++ sizes := by
    simp [infos, Function.comp_def]
  have ordered : Aligned 0 (infos.map PieceInfo.size) := by
    rw [infoSizes, aligned_append, tracks.total, zero_add]
    exact ⟨tracks.aligned, aligned⟩
  have total : (infos.map PieceInfo.size).sum = 2 ^ top := by
    rw [infoSizes, sum_append, tracks.total, filling]
    exact Nat.add_sub_of_le fits
  have blockwise : ∀ info ∈ infos, 128 ∣ info.size := by
    intro info member
    rcases mem_append.mp member with old | new
    · exact tracks.blocks info old
    · grind
  obtain ⟨commD, aggregated⟩ := documented.aggregates infos ordered blockwise total
  have stream : ((sizes.map unpadded).map nullReader).flatten.length =
      unpadded (2 ^ top - upTo) := by
    rw [map_map, ← filling, unpadded_sum blocks]
    exact nullReaders_length sizes
  refine ⟨⟨commD, (done.pieceReaders ++ (sizes.map unpadded).map nullReader).flatten, true, infos,
    done.keepUnsealed⟩, ?_, ?_⟩
  · rw [getDealMetadata, if_pos nonempty, folded]
    simp only [bind, Except.bind, rest, fillers, sized]
    rw [show lib.pieceAggregateCommP _ = _ from aggregated]
    rfl
  · constructor
    · intro agree
      have lacking := tracks.length
      have exact := agree.length
      rw [flatten_append, length_append] at exact
      have none : (pieces.map fun p => unpadded p.pieceSize - readerSize lib p).sum = 0 := by omega
      intro p member
      have own := sum_eq_zero_iff.mp none _ (mem_map_of_mem member)
      have most := (accepted p member).readerSize_le
      grind [Filled, readerSize]
    · intro filled
      have laid := (tracks.laid filled).append (Laid.pads
        (sizes.map fun size => ⟨size, lib.zeroPieceCommitment (unpadded size)⟩))
      have none : (pieces.map fun p => unpadded p.pieceSize - readerSize lib p).sum = 0 := by
        apply sum_eq_zero
        intro gap member
        obtain ⟨p, inside, rfl⟩ := mem_map.mp member
        rw [(filled p inside).readerSize_eq, Nat.sub_self]
      have lacking := tracks.length
      refine ⟨ordered, total, aggregated, ?_, ?_⟩
      · grind
      · rw [append_nil, map_map] at laid
        rw [flatten_append, map_map]
        exact laid.placed blockwise

theorem sector_data_filled :
    ∃ out, getDealMetadata sampleLibraries sampleNode 2048 [samplePiece 200, samplePiece 254] false =
        .ok out ∧
      Matches sampleLibraries sampleNode 2048 [samplePiece 200, samplePiece 254] out := by
  obtain ⟨out, returned, iff⟩ := sector_data_iff sampleLibraries sampleNode 11 (by decide)
    (by decide) (sampleLibraries_documented _) [samplePiece 200, samplePiece 254] (by decide)
    (by simp only [forall_mem_cons]
        exact ⟨samplePiece_accepted (by decide +kernel), samplePiece_accepted (by decide +kernel),
          by simp⟩)
    (by decide +kernel)
  refine ⟨out, returned, iff.mpr ?_⟩
  simp only [forall_mem_cons]
  exact ⟨fun _ => by decide +kernel, fun _ => by decide +kernel, by simp⟩

/-- The data of a piece of 256 bytes with 100 raw bytes is rounded up to 127 bytes only, so the next
piece starts early and the stream is too short. -/
theorem short_piece_shifts :
    (∀ p ∈ [samplePiece 100, samplePiece 254], Accepted sampleLibraries sampleNode p) ∧
      layoutEnd sampleLibraries 0 [samplePiece 100, samplePiece 254] ≤ 2048 ∧
      ∃ out, getDealMetadata sampleLibraries sampleNode 2048
          [samplePiece 100, samplePiece 254] false = .ok out ∧
        out.data.length = 1905 ∧ unpadded 2048 = 2032 ∧
        ¬ Matches sampleLibraries sampleNode 2048 [samplePiece 100, samplePiece 254] out := by
  refine ⟨?_, by decide +kernel, _, rfl, by decide +kernel, by decide, ?_⟩
  · simp only [forall_mem_cons]
    exact ⟨samplePiece_accepted (by decide +kernel), samplePiece_accepted (by decide +kernel),
      by simp⟩
  · intro agree
    exact absurd agree.length (by decide +kernel)

end Curio.Deal
