import Curio.Ipni.ChunkChain

/-! The recorded rows of a chain of chunks, and what serving them gives back. -/

namespace Curio.Ipni

open GoRuntime List

variable {rows old : List ChunkRow} {chunk : EntryChunk} {fuel : Nat}

section Recorded

variable {cids : PieceCids} {table : IndexTable} {piece : String}
  {nodeToLink : EntryChunk → Link} {c : InitialChunker} {chunks : List EntryChunk}
variable {isPdp : Bool} {mhs : List Multihash} {row : ChunkRow}

/-- The row records a chunk of the chain for the piece. -/
structure RowOf (nodeToLink : EntryChunk → Link) (piece : String) (chunks : List EntryChunk)
    (row : ChunkRow) (chunk : EntryChunk) : Prop where
  ofPiece : row.pieceCid = piece
  there : chunks[row.chunkNum]? = some chunk
  cid : row.cid = nodeToLink chunk
  head : chunk.entries.head? = some row.firstCid
  blocks : row.numBlocks = chunk.entries.length

theorem Made.rowOf (made : Made nodeToLink c chunks) (recorded : row ∈ c.chunkRows piece isPdp) :
    ∃ chunk, RowOf nodeToLink piece chunks row chunk := by
  obtain ⟨⟨info, i⟩, numbered, rfl⟩ := mem_map.mp recorded
  have listed : c.prevChunks[i]? = some info := mem_zipIdx_iff_getElem?.mp numbered
  obtain ⟨inside, rfl⟩ := List.getElem?_eq_some_iff.mp listed
  have chunkInside : i < chunks.length := made.metas.length_eq.symm ▸ inside
  obtain ⟨link, start, nodes⟩ := made.metas.get chunkInside inside
  exact ⟨chunks[i], rfl, List.getElem?_eq_getElem chunkInside, link, start, nodes⟩

theorem Made.recorded (made : Made nodeToLink c chunks) {i : Nat} (there : chunks[i]? = some chunk) :
    ∃ row ∈ c.chunkRows piece isPdp, row.chunkNum = i := by
  obtain ⟨inside, -⟩ := List.getElem?_eq_some_iff.mp there
  rw [made.metas.length_eq] at inside
  have numbered : (c.prevChunks[i], i) ∈ c.prevChunks.zipIdx :=
    mem_zipIdx_iff_getElem?.mpr (List.getElem?_eq_getElem inside)
  exact ⟨_, mem_map_of_mem numbered, rfl⟩

theorem links_nodup (injective : Function.Injective nodeToLink)
    (filled : ∀ chunk ∈ chunks, chunk.entries ≠ [])
    (nodup : (chunks.map EntryChunk.entries).flatten.Nodup) : (chunks.map nodeToLink).Nodup := by
  have disjoint := pairwise_map.mp (nodup_flatten.mp nodup).2
  refine pairwise_map.mpr (disjoint.imp_of_mem ?_)
  intro first second member _ apart same
  obtain ⟨mh, inside⟩ := exists_mem_of_ne_nil _ (filled first member)
  exact apart inside (injective same ▸ inside)

/-- The rows of the piece record chunks of the chain, and no other row has a CID of one. -/
structure Fits (nodeToLink : EntryChunk → Link) (piece : String) (chunks : List EntryChunk)
    (rows : List ChunkRow) : Prop where
  own : ∀ row ∈ rows, row.pieceCid = piece → ∃ chunk, RowOf nodeToLink piece chunks row chunk
  foreign : ∀ row ∈ rows, row.pieceCid ≠ piece → ∀ chunk ∈ chunks, row.cid ≠ nodeToLink chunk

theorem Fits.insertChunk (links : (chunks.map nodeToLink).Nodup)
    (fits : Fits nodeToLink piece chunks rows) (recorded : RowOf nodeToLink piece chunks row chunk) :
    Fits nodeToLink piece chunks (insertChunk rows row) ∧
      (∃ mine ∈ insertChunk rows row, mine.pieceCid = piece ∧ mine.chunkNum = row.chunkNum) ∧
      rows ⊆ insertChunk rows row := by
  unfold Ipni.insertChunk
  split
  case isTrue conflict =>
    refine ⟨fits, ?_, Subset.refl _⟩
    obtain ⟨before, member, clash⟩ := any_eq_true.mp conflict
    rcases of_decide_eq_true clash with sameCid | ⟨samePiece, _, sameNum⟩
    · rw [recorded.cid] at sameCid
      have ours : before.pieceCid = piece := by
        by_contra other
        exact fits.foreign before member other chunk (mem_of_getElem? recorded.there) sameCid
      obtain ⟨earlier, known⟩ := fits.own before member ours
      have links_eq : (chunks.map nodeToLink)[before.chunkNum]? =
          (chunks.map nodeToLink)[row.chunkNum]? := by
        rw [getElem?_map, getElem?_map, known.there, recorded.there, Option.map_some,
          Option.map_some, ← known.cid, sameCid]
      have inside := (List.getElem?_eq_some_iff.mp known.there).1
      exact ⟨before, member, ours,
        (List.getElem?_inj (by rwa [length_map]) links).mp links_eq⟩
    · exact ⟨before, member, samePiece.trans recorded.ofPiece, sameNum⟩
  case isFalse =>
    refine ⟨⟨?_, ?_⟩, ⟨row, mem_append_right _ mem_cons_self, recorded.ofPiece, rfl⟩,
      subset_append_left _ _⟩
    · exact forall_mem_append.mpr ⟨fits.own, forall_mem_singleton.mpr fun _ => ⟨chunk, recorded⟩⟩
    · exact forall_mem_append.mpr ⟨fits.foreign,
        forall_mem_singleton.mpr fun other => absurd recorded.ofPiece other⟩

theorem Fits.insertAll (links : (chunks.map nodeToLink).Nodup) {new : List ChunkRow}
    (recorded : ∀ row ∈ new, ∃ chunk, RowOf nodeToLink piece chunks row chunk)
    (fits : Fits nodeToLink piece chunks rows) :
    Fits nodeToLink piece chunks (new.foldl Ipni.insertChunk rows) ∧
      (∀ row ∈ new, ∃ mine ∈ new.foldl Ipni.insertChunk rows,
        mine.pieceCid = piece ∧ mine.chunkNum = row.chunkNum) ∧
      rows ⊆ new.foldl Ipni.insertChunk rows := by
  induction new generalizing rows with
  | nil => exact ⟨fits, nofun, Subset.refl _⟩
  | cons row rest ih =>
    obtain ⟨⟨chunk, here⟩, later⟩ := forall_mem_cons.mp recorded
    obtain ⟨kept, ⟨mine, inserted, same⟩, grown⟩ := fits.insertChunk links here
    obtain ⟨all, covered, more⟩ := ih later kept
    exact ⟨all, forall_mem_cons.mpr ⟨⟨mine, more inserted, same⟩, covered⟩, Subset.trans grown more⟩

theorem range_of_chunk {i : Nat} {first : Multihash}
    (entries : (chunks.map EntryChunk.entries).flatten = listed cids table piece)
    (there : chunks[i]? = some chunk) (head : chunk.entries.head? = some first) :
    getPieceHashRange cids table piece first chunk.entries.length true = .ok chunk.entries := by
  obtain ⟨rest, chunk_eq⟩ := head?_eq_some_iff.mp head
  obtain ⟨before, after, split⟩ := append_of_mem (mem_of_getElem? there)
  have listed_eq : listed cids table piece =
      (before.map EntryChunk.entries).flatten ++
        first :: (rest ++ (after.map EntryChunk.entries).flatten) := by
    grind
  have window := filter_ge_of_split (listed_sorted cids table piece) listed_eq
  rw [getPieceHashRange_eq, window, chunk_eq, ← cons_append, take_left]
  · rw [chunk_eq]
    exact Nat.succ_pos _
  · rw [window]
    exact cons_ne_nil _ _
  · grind

theorem serveChunk_made (linked : Linked nodeToLink chunks)
    (entries : (chunks.map EntryChunk.entries).flatten = listed cids table piece)
    (fits : Fits nodeToLink piece chunks rows)
    (covered : ∀ i chunk, chunks[i]? = some chunk →
      ∃ mine ∈ rows, mine.pieceCid = piece ∧ mine.chunkNum = i)
    (recorded : RowOf nodeToLink piece chunks row chunk) :
    serveChunk cids nodeToLink table rows row = .ok chunk := by
  have prev : (rows.find? fun prev => decide (prev.pieceCid = piece ∧
      row.chunkNum = prev.chunkNum + 1)).map ChunkRow.cid = chunk.next := by
    rw [linked _ _ recorded.there]
    cases found : rows.find? fun prev => decide (prev.pieceCid = piece ∧
        row.chunkNum = prev.chunkNum + 1) with
    | some prev =>
      have matched := find?_some found
      obtain ⟨ofPiece, next⟩ := of_decide_eq_true matched
      obtain ⟨before, known⟩ := fits.own prev (mem_of_find?_eq_some found) ofPiece
      rw [next, if_neg (Nat.succ_ne_zero _), Nat.add_sub_cancel, known.there, Option.map_some,
        Option.map_some, known.cid]
    | none =>
      have missing := find?_eq_none.mp found
      rcases num : row.chunkNum with _ | i
      · rfl
      · have inside := (List.getElem?_eq_some_iff.mp recorded.there).1
        obtain ⟨mine, member, ofPiece, before⟩ := covered i chunks[i]
          (List.getElem?_eq_getElem (by omega))
        exact absurd (decide_eq_true ⟨ofPiece, by omega⟩) (missing mine member)
  unfold serveChunk reconstructChunkFromDB
  simp only [recorded.ofPiece, prev, recorded.blocks, recorded.cid]
  by_cases single : chunk.entries.length = 1
  · obtain ⟨only, chunk_eq⟩ := length_eq_one_iff.mp single
    have head := recorded.head
    rw [chunk_eq] at head
    obtain rfl := Option.some.inj head
    rw [if_pos single, ← chunk_eq, ok_bind, if_neg (not_not.mpr rfl)]
  · rw [if_neg single, range_of_chunk entries recorded.there recorded.head, wrap_ok, ok_bind,
      if_neg (not_not.mpr rfl)]

/-- The multihashes of a piece are chained, every chunk of the chain is recorded, and every
recorded row of the piece is served as its chunk. -/
def ServedBack (cids : PieceCids) (nodeToLink : EntryChunk → Link) (table : IndexTable)
    (piece : String) (fuel : Nat) (old : List ChunkRow) : Prop :=
  ∃ chunks link rows, advertise cids nodeToLink table piece fuel old = .ok (link, rows) ∧
    (chunks.map EntryChunk.entries).flatten = (indexed cids table piece).sort (· ≤ ·) ∧
    Linked nodeToLink chunks ∧ chunks.getLast?.map nodeToLink = some link ∧
    (∀ chunk ∈ chunks, ∃ row ∈ rows, row.cid = nodeToLink chunk) ∧
    ∀ row ∈ rows, row.pieceCid = piece → ∃ chunk, chunks[row.chunkNum]? = some chunk ∧
      row.cid = nodeToLink chunk ∧ serveChunk cids nodeToLink table rows row = .ok chunk

theorem finishDB_rows (made : Made nodeToLink c chunks) (some : chunks ≠ []) (rows : List ChunkRow)
    (piece : String) (isPdp : Bool) :
    ∃ link, chunks.getLast?.map nodeToLink = .some link ∧ c.finishDB rows piece isPdp =
      .ok (link, (c.chunkRows piece isPdp).foldl insertChunk rows) := by
  have last := made.lastLink
  rw [getLast?_eq_getLast_of_ne_nil some] at last
  obtain ⟨info, info_eq, link_eq⟩ := Option.map_eq_some_iff.mp last
  refine ⟨nodeToLink (chunks.getLast some), ?_, ?_⟩
  · rw [getLast?_eq_getLast_of_ne_nil some, Option.map_some]
  · rw [InitialChunker.finishDB, info_eq, ← link_eq]

theorem Chain.nonempty (chain : Chain nodeToLink c chunks mhs) (some : mhs ≠ []) : chunks ≠ [] := by
  rintro rfl
  exact some chain.entries.symm

def plainLink (chunk : EntryChunk) : Link :=
  String.ofList (replicate (Encodable.encode (chunk.entries.map Subtype.val,
    chunk.next.map fun link => link.toList.map Char.toNat)) '1')

theorem plainLink_injective : Function.Injective plainLink := by
  rintro ⟨entries, next⟩ ⟨others, otherNext⟩ same
  have digits := congrArg List.length (String.ofList_injective same)
  rw [length_replicate, length_replicate] at digits
  obtain ⟨sameEntries, sameNext⟩ := Prod.mk.inj (Encodable.encode_injective digits)
  have toNat : Function.Injective fun link : Link => link.toList.map Char.toNat := by
    intro first second equal
    exact String.toList_injective (map_injective_iff.mpr (fun _ _ h => Char.toNat_inj.mp h) equal)
  have entries_eq : entries = others :=
    map_injective_iff.mpr Subtype.val_injective sameEntries
  have next_eq : next = otherNext := Option.map_injective toNat sameNext
  rw [entries_eq, next_eq]

def onlyV1 : PieceCids := ⟨fun _ => false, fun _ => .error "not a v2 piece cid"⟩

def twoHashes : Finset Multihash := {⟨[18, 1], by simp⟩, ⟨[18, 2], by simp⟩}

/-- The rows that a piece gets in an empty table. -/
def ownRows (cids : PieceCids) (nodeToLink : EntryChunk → Link) (table : IndexTable)
    (piece : String) (fuel : Nat) : List ChunkRow :=
  match advertise cids nodeToLink table piece fuel [] with
  | .ok (_, rows) => rows
  | .error _ => []

theorem Chain.first (chain : Chain nodeToLink c chunks mhs) (some : mhs ≠ []) :
    ∃ rest, chunks = ⟨mhs.take entriesChunkSize, none⟩ :: rest ∧
      (rest.map EntryChunk.entries).flatten = mhs.drop entriesChunkSize := by
  obtain ⟨⟨entries, next⟩, rest, rfl⟩ := exists_cons_of_ne_nil (chain.nonempty some)
  obtain rfl : next = none := chain.made.linked 0 _ rfl
  refine ⟨rest, ?_⟩
  have split : entries ++ (rest.map EntryChunk.entries).flatten = mhs := chain.entries
  rw [← split]
  cases rest with
  | nil =>
    have fits : entries.length ≤ entriesChunkSize := chain.fits _ mem_cons_self
    simp [take_of_length_le fits, drop_of_length_le fits]
  | cons second later =>
    have whole : entries.length = entriesChunkSize := chain.whole _ mem_cons_self
    grind

theorem chunks_eq_nil (filled : ∀ chunk ∈ chunks, chunk.entries ≠ [])
    (entries : (chunks.map EntryChunk.entries).flatten = []) : chunks = [] := by
  cases chunks with
  | nil => rfl
  | cons chunk rest =>
    exact absurd (append_eq_nil_iff.mp entries).1 (filled chunk mem_cons_self)

theorem Chain.two (chain : Chain nodeToLink c chunks mhs)
    (length : mhs.length = entriesChunkSize + 1) :
    ∃ last, chunks = [⟨mhs.take entriesChunkSize, none⟩,
      ⟨[last], some (nodeToLink ⟨mhs.take entriesChunkSize, none⟩)⟩] := by
  have some : mhs ≠ [] := by
    rintro rfl
    cases length
  obtain ⟨rest, rfl, entries⟩ := chain.first some
  obtain ⟨last, behind⟩ : ∃ last, mhs.drop entriesChunkSize = [last] :=
    length_eq_one_iff.mp (by rw [length_drop]; omega)
  rw [behind] at entries
  cases rest with
  | nil => cases entries
  | cons second later =>
    obtain ⟨secondEntries, next⟩ := second
    have filled : secondEntries ≠ [] :=
      chain.filled _ (mem_cons_of_mem _ mem_cons_self)
    have linked : next = _ := chain.made.linked 1 _ rfl
    obtain ⟨front, others, rfl⟩ := exists_cons_of_ne_nil filled
    obtain ⟨rfl, ends⟩ := cons_eq_cons.mp entries
    obtain ⟨rfl, ends⟩ := append_eq_nil_iff.mp ends
    obtain rfl := chunks_eq_nil (fun chunk member => chain.filled chunk
      (mem_cons_of_mem _ (mem_cons_of_mem _ member))) ends
    exact ⟨front, by rw [linked]; rfl⟩

theorem advertise_one (nodeToLink : EntryChunk → Link) (some : indexed cids table piece ≠ ∅)
    (fits : (indexed cids table piece).card ≤ entriesChunkSize)
    (enough : (indexed cids table piece).card < fuel) :
    ∃ link row, advertise cids nodeToLink table piece fuel [] = .ok (link, [row]) ∧
      row.pieceCid = piece ∧ row.cid = nodeToLink ⟨listed cids table piece, none⟩ := by
  obtain ⟨finished, chunks, chain, computed⟩ := advertise_chain nodeToLink some enough
  obtain ⟨rest, rfl, entries⟩ := chain.first (listed_nonempty some)
  have short : (listed cids table piece).length ≤ entriesChunkSize :=
    (Finset.length_sort _).trans_le fits
  rw [drop_of_length_le short] at entries
  obtain rfl := chunks_eq_nil (fun chunk member => chain.filled chunk
    (mem_cons_of_mem _ member)) entries
  obtain ⟨link, _, finish⟩ := finishDB_rows chain.made (cons_ne_nil _ _) [] piece false
  obtain ⟨first, infos, firstMeta, secondOn, infos_eq⟩ :=
    forall₂_cons_left_iff.mp chain.made.metas
  obtain rfl := forall₂_nil_left_iff.mp secondOn
  refine ⟨link, ⟨first.link, piece, 0, first.start, first.nodes, false⟩, ?_, rfl, ?_⟩
  · rw [computed, finish]
    simp [InitialChunker.chunkRows, infos_eq, insertChunk]
  · rw [firstMeta.1, take_of_length_le short]

/-- A second piece that starts with the same full chunk: the row of that chunk stays with the
first piece, and the chunk after it is served without its link. -/
theorem shared_first_chunk (injective : Function.Injective nodeToLink)
    (length : (indexed cids table piece).card = entriesChunkSize + 1)
    (enough : (indexed cids table piece).card < fuel) {row : ChunkRow}
    (other : row.pieceCid ≠ piece)
    (shared : row.cid = nodeToLink ⟨(listed cids table piece).take entriesChunkSize, none⟩) :
    ¬ ServedBack cids nodeToLink table piece fuel [row] := by
  rintro ⟨_, link, rows, advertised, _, _, _, _, served⟩
  have some : indexed cids table piece ≠ ∅ := by
    intro empty
    rw [empty] at length
    cases length
  obtain ⟨finished, chunks, chain, computed⟩ := advertise_chain nodeToLink some enough
  obtain ⟨last, rfl⟩ := chain.two ((Finset.length_sort _).trans length)
  obtain ⟨_, _, finish⟩ := finishDB_rows chain.made (cons_ne_nil _ _) [row] piece false
  obtain ⟨first, infos, firstMeta, secondOn, infos_eq⟩ :=
    forall₂_cons_left_iff.mp chain.made.metas
  obtain ⟨second, infosLeft, secondMeta, thirdOn, rfl⟩ := forall₂_cons_left_iff.mp secondOn
  obtain rfl := forall₂_nil_left_iff.mp thirdOn
  have different : row.cid ≠ second.link := by
    rw [secondMeta.1]
    grind
  have inserted : (finished.chunkRows piece false).foldl insertChunk [row] =
      [row, ⟨second.link, piece, 1, second.start, second.nodes, false⟩] := by
    simp [InitialChunker.chunkRows, infos_eq, insertChunk, shared, firstMeta.1, other,
      shared ▸ different]
  rw [computed, finish, inserted] at advertised
  cases advertised
  obtain ⟨chunk, _, cid, answer⟩ := served _ (mem_cons_of_mem _ mem_cons_self) rfl
  have alone : second.nodes = 1 := secondMeta.2.2
  have unlinked : nodeToLink ⟨[second.start], none⟩ ≠ second.link := by
    rw [secondMeta.1]
    intro same
    cases injective same
  simp [serveChunk, reconstructChunkFromDB, other, alone, unlinked, fail] at answer

end Recorded

def manyHashes : Finset Multihash :=
  (Finset.range (entriesChunkSize + 1)).image fun i =>
    ⟨[Fin.ofNat 256 (i / 256), Fin.ofNat 256 (i % 256)], by simp⟩

theorem manyHashes_card : manyHashes.card = entriesChunkSize + 1 := by
  rw [manyHashes, Finset.card_image_of_injOn, Finset.card_range]
  intro i inside j insideLater same
  simp only [Finset.coe_range, Set.mem_Iio, entriesChunkSize] at inside insideLater
  simp only [Subtype.mk.injEq, cons.injEq, Fin.ext_iff, Fin.val_ofNat] at same
  omega

def sharedHashes : List Multihash := (manyHashes.sort (· ≤ ·)).take entriesChunkSize

theorem sharedHashes_sorted : sharedHashes.Pairwise (· < ·) :=
  (Finset.sortedLT_sort _).pairwise.sublist (take_sublist _ _)

theorem sharedHashes_card : sharedHashes.toFinset.card = entriesChunkSize := by
  rw [toFinset_card_of_nodup (sharedHashes_sorted.imp ne_of_lt), sharedHashes,
    length_take, Finset.length_sort, manyHashes_card]
  exact Nat.min_eq_left (Nat.le_succ _)

def sharedTable : IndexTable := fun piece =>
  if piece = "bagb" then manyHashes else sharedHashes.toFinset

theorem indexed_own {table : IndexTable} {hashes : Finset Multihash} {size : Nat}
    (own : table piece = hashes) (card : hashes.card = size) (positive : 0 < size) :
    indexed onlyV1 table piece = hashes := by
  grind [indexed]

theorem indexed_bagb : indexed onlyV1 sharedTable "bagb" = manyHashes :=
  indexed_own rfl manyHashes_card (Nat.succ_pos _)

theorem indexed_baga : indexed onlyV1 sharedTable "baga" = sharedHashes.toFinset :=
  indexed_own rfl sharedHashes_card entriesChunkSize_pos

theorem listed_baga : listed onlyV1 sharedTable "baga" =
    (listed onlyV1 sharedTable "bagb").take entriesChunkSize := by
  rw [listed, listed, indexed_baga, indexed_bagb]
  exact (toFinset_sort (· ≤ ·) (sharedHashes_sorted.imp ne_of_lt)).mpr
    (sharedHashes_sorted.imp le_of_lt)

end Curio.Ipni
