import Mathlib
import Curio.Ipni.Chunker

/-! The chain of entry chunks of a piece, and that every recorded chunk is served again. -/

namespace Curio.Ipni

open GoRuntime List

section Sorted

variable {α : Type} [LinearOrder α] {xs front back : List α} {x : α}

theorem filter_ge_of_split (sorted : xs.Pairwise (· < ·)) (split : xs = front ++ x :: back) :
    (xs.filter fun y => x ≤ y) = x :: back := by
  subst split
  obtain ⟨_, tail, across⟩ := pairwise_append.mp sorted
  obtain ⟨later, _⟩ := pairwise_cons.mp tail
  have below : front.filter (fun y => decide (x ≤ y)) = [] := by
    refine filter_eq_nil_iff.mpr fun y member => ?_
    simpa using across y member x mem_cons_self
  have above : (x :: back).filter (fun y => decide (x ≤ y)) = x :: back := by
    refine filter_eq_self.mpr fun y member => ?_
    grind
  rw [filter_append, below, above, nil_append]

end Sorted

variable {mhs rest : List Multihash}

theorem dropDuplicates_sorted {prev : Option Multihash} (sorted : mhs.Pairwise (· < ·))
    (before : ∀ last, prev = some last → ∀ mh ∈ mhs, last < mh) :
    dropDuplicates prev mhs = mhs := by
  induction mhs generalizing prev with
  | nil => rfl
  | cons mh rest ih =>
    obtain ⟨later, sorted⟩ := pairwise_cons.mp sorted
    have new : prev ≠ some mh := fun same => lt_irrefl mh (before mh same mh mem_cons_self)
    rw [dropDuplicates, if_neg new]
    grind

theorem firstOffset_le (mh : Multihash) : firstOffset ≤ mh := by
  obtain ⟨bytes, nonempty⟩ := mh
  cases bytes with
  | nil => exact absurd rfl nonempty
  | cons byte rest =>
    refine not_lt.mp fun below => ?_
    have bytesBelow : byte :: rest < [0] := below
    rcases cons_lt_cons_iff.mp bytesBelow with less | ⟨_, shorter⟩
    · exact absurd less (Nat.not_lt_zero _)
    · exact absurd shorter (by simp)

section Chunks

variable (nodeToLink : EntryChunk → Link)

def Remembers (chunk : EntryChunk) (info : ChunkMeta) : Prop :=
  info.link = nodeToLink chunk ∧ chunk.entries.head? = some info.start ∧
    info.nodes = chunk.entries.length

def Linked (chunks : List EntryChunk) : Prop :=
  ∀ (i : Nat) chunk, chunks[i]? = some chunk →
    chunk.next = if i = 0 then none else chunks[i - 1]?.map nodeToLink

structure Made (c : InitialChunker) (chunks : List EntryChunk) : Prop where
  metas : Forall₂ (Remembers nodeToLink) chunks c.prevChunks
  linked : Linked nodeToLink chunks

variable {nodeToLink} {c : InitialChunker} {chunks : List EntryChunk}

theorem Linked.append {chunk : EntryChunk} (linked : Linked nodeToLink chunks)
    (next : chunk.next = chunks.getLast?.map nodeToLink) :
    Linked nodeToLink (chunks ++ [chunk]) := by
  grind [Linked]

theorem links_eq {infos : List ChunkMeta} (metas : Forall₂ (Remembers nodeToLink) chunks infos) :
    infos.map ChunkMeta.link = chunks.map nodeToLink := by
  induction metas with
  | nil => rfl
  | cons remembered _ ih => rw [map_cons, map_cons, ih, remembered.1]

variable (made : Made nodeToLink c chunks)
include made

theorem Made.lastLink :
    c.prevChunks.getLast?.map ChunkMeta.link = chunks.getLast?.map nodeToLink := by
  rw [← getLast?_map, ← getLast?_map, links_eq made.metas]

theorem chunk_sorted (buffer : c.dbMultihashes = mhs ++ rest) (sorted : mhs.Pairwise (· < ·))
    (some : mhs ≠ []) (cut : mhs.length = min c.dbMultihashes.length c.chunkSize) :
    ∃ info, c.chunk nodeToLink =
        .ok { c with prevChunks := c.prevChunks ++ [info], dbMultihashes := rest } ∧
      Made nodeToLink { c with prevChunks := c.prevChunks ++ [info], dbMultihashes := rest }
        (chunks ++ [⟨mhs, chunks.getLast?.map nodeToLink⟩]) := by
  obtain ⟨first, others, rfl⟩ := exists_cons_of_ne_nil some
  refine ⟨⟨nodeToLink ⟨first :: others, chunks.getLast?.map nodeToLink⟩, first,
    (first :: others).length⟩, ?_, ?_, ?_⟩
  · have front : c.dbMultihashes.take (min c.dbMultihashes.length c.chunkSize) =
        first :: others := by
      rw [← cut, buffer, take_left]
    have behind : c.dbMultihashes.drop (min c.dbMultihashes.length c.chunkSize) = rest := by
      rw [← cut, buffer, drop_left]
    have unique : dropDuplicates none (first :: others) = first :: others :=
      dropDuplicates_sorted sorted fun _ none => by cases none
    unfold InitialChunker.chunk
    simp only [front, behind, mergeSort_eq_self (· ≤ ·) (sorted.imp le_of_lt), unique, ne_eq,
      made.lastLink]
    rfl
  · refine rel_append made.metas (.cons ⟨rfl, rfl, rfl⟩ .nil)
  · exact made.linked.append rfl

theorem accept_sorted (buffer : c.dbMultihashes = []) (sorted : mhs.Pairwise (· < ·))
    (some : mhs ≠ []) (fits : mhs.length ≤ c.chunkSize) :
    ∃ accepted more, c.accept nodeToLink mhs = .ok accepted ∧
      accepted.chunkSize = c.chunkSize ∧ Made nodeToLink accepted (chunks ++ more) ∧
      (more.map EntryChunk.entries).flatten ++ accepted.dbMultihashes = mhs ∧
      (∀ chunk ∈ more, chunk.entries.length = c.chunkSize) ∧
      (mhs.length = c.chunkSize → accepted.dbMultihashes = []) := by
  have positive : 0 < mhs.length := length_pos_iff.mpr some
  have held : Made nodeToLink { c with dbMultihashes := mhs } chunks := ⟨made.metas, made.linked⟩
  simp only [InitialChunker.accept, buffer, nil_append]
  rw [InitialChunker.chunkWhile]
  by_cases full : mhs.length = c.chunkSize
  · obtain ⟨info, cut, next⟩ := chunk_sorted held (append_nil mhs).symm sorted some
      (by simp [full])
    rw [if_neg (by simp [full]), cut]
    refine ⟨⟨c.chunkSize, c.ingestedSoFar + mhs.length, [], c.prevChunks ++ [info]⟩,
      [⟨mhs, chunks.getLast?.map nodeToLink⟩], ?_, rfl, ⟨next.metas, next.linked⟩,
      by simp, by simpa using full, fun _ => rfl⟩
    obtain ⟨fuel, many⟩ := Nat.exists_eq_succ_of_ne_zero positive.ne'
    rw [many, ok_bind, InitialChunker.chunkWhile, if_pos (by simp only [length_nil]; omega)]
    rfl
  · rw [if_pos (by simp only; omega)]
    refine ⟨⟨c.chunkSize, c.ingestedSoFar + mhs.length, mhs, c.prevChunks⟩, [], rfl, rfl, ?_,
      by simp, by simp, fun same => absurd same full⟩
    rw [append_nil]
    exact ⟨made.metas, made.linked⟩

end Chunks

section Index

variable (cids : PieceCids) (table : IndexTable) (piece : String)

/-- The multihashes indexed for a piece: those of its v1 CID where it has none of its own. -/
def indexed : Finset Multihash :=
  if table piece ≠ ∅ then table piece
  else if cids.isPieceCidV2 piece then
    match cids.pieceCidV1FromV2 piece with
    | .ok pcid1 => table pcid1
    | .error _ => ∅
  else ∅

def listed : List Multihash := (indexed cids table piece).sort (· ≤ ·)

theorem listed_sorted : (listed cids table piece).Pairwise (· < ·) :=
  (Finset.sortedLT_sort _).pairwise

variable {cids table piece}

theorem getPieceHashRange_eq {start : Multihash} {num : Nat} {strictCheck : Bool}
    (positive : 0 < num)
    (found : ((listed cids table piece).filter fun mh => start ≤ mh) ≠ [])
    (enough : strictCheck = true →
      num ≤ ((listed cids table piece).filter fun mh => start ≤ mh).length) :
    getPieceHashRange cids table piece start num strictCheck =
      .ok (((listed cids table piece).filter fun mh => start ≤ mh).take num) := by
  have checked : ¬ (strictCheck = true ∧
      (((listed cids table piece).filter fun mh => start ≤ mh).take num).length ≠ num) := by
    grind
  have some : (((listed cids table piece).filter fun mh => start ≤ mh).take num).length ≠ 0 := by
    grind
  unfold getPieceHashRange
  by_cases own : table piece = ∅
  · have nothing : getHashes table piece start num = [] := by simp [getHashes, own]
    cases v2 : cids.isPieceCidV2 piece with
    | false =>
      simp [listed, indexed, own, v2] at found
    | true =>
      cases converted : cids.pieceCidV1FromV2 piece with
      | error message => simp [listed, indexed, own, converted] at found
      | ok pcid1 =>
        have same : getHashes table pcid1 start num =
            ((listed cids table piece).filter fun mh => start ≤ mh).take num := by
          simp [getHashes, listed, indexed, own, v2, converted]
        simp only [nothing, length_nil, and_self, if_true, ofCall_ok, wrap_ok, ok_bind,
          same, if_neg checked]
  · have same : getHashes table piece start num =
        ((listed cids table piece).filter fun mh => start ≤ mh).take num := by
      simp [getHashes, listed, indexed, own]
    simp only [same, some, false_and, if_false, ok_bind, if_neg checked]

end Index

variable {cids : PieceCids} {table : IndexTable} {piece : String} {nodeToLink : EntryChunk → Link}
  {front : List Multihash}
variable {c : InitialChunker} {chunks : List EntryChunk}

structure TakenIn (nodeToLink : EntryChunk → Link) (c : InitialChunker) (chunks : List EntryChunk)
    (mhs : List Multihash) : Prop where
  size : c.chunkSize = entriesChunkSize
  made : Made nodeToLink c chunks
  entries : (chunks.map EntryChunk.entries).flatten ++ c.dbMultihashes = mhs
  whole : ∀ chunk ∈ chunks, chunk.entries.length = entriesChunkSize
  short : c.dbMultihashes.length ≤ entriesChunkSize

theorem TakenIn.accept (taken : TakenIn nodeToLink c chunks front) (buffer : c.dbMultihashes = [])
    (sorted : mhs.Pairwise (· < ·)) (some : mhs ≠ []) (fits : mhs.length ≤ entriesChunkSize) :
    ∃ accepted more, c.accept nodeToLink mhs = .ok accepted ∧
      TakenIn nodeToLink accepted more (front ++ mhs) ∧
      (mhs.length = entriesChunkSize → accepted.dbMultihashes = []) := by
  have front_eq : (chunks.map EntryChunk.entries).flatten = front := by
    rw [← taken.entries, buffer, append_nil]
  obtain ⟨accepted, more, returned, size, made, entries, whole, full⟩ :=
    accept_sorted taken.made buffer sorted some (taken.size ▸ fits)
  refine ⟨accepted, chunks ++ more, returned, ⟨size.trans taken.size, made, ?_, ?_, ?_⟩,
    fun filled => full (filled.trans taken.size.symm)⟩
  · grind
  · intro chunk member
    rcases mem_append.mp member with old | new
    · exact taken.whole chunk old
    · exact (whole chunk new).trans taken.size
  · grind

theorem entriesChunkSize_pos : 0 < entriesChunkSize := by decide

theorem chunkPages_taken (fuel : Nat) {offset : Multihash}
    (all : listed cids table piece = front ++ rest) (enough : rest.length < fuel) (some : rest ≠ [])
    (window : ((listed cids table piece).filter fun mh => offset ≤ mh) = rest)
    (taken : TakenIn nodeToLink c chunks front) (buffer : c.dbMultihashes = []) :
    ∃ chunker more, chunkPages cids nodeToLink table piece fuel offset c = .ok chunker ∧
      TakenIn nodeToLink chunker more (listed cids table piece) := by
  have positive : 0 < rest.length := length_pos_iff.mpr some
  have sorted : rest.Pairwise (· < ·) := by
    have whole := listed_sorted cids table piece
    rw [all] at whole
    exact (pairwise_append.mp whole).2.1
  have size := entriesChunkSize_pos
  induction fuel generalizing offset front rest c chunks with
  | zero => omega
  | succ fuel ih =>
    have queried : getPieceHashRange cids table piece offset (entriesChunkSize + 1) false =
        .ok (rest.take (entriesChunkSize + 1)) := by
      rw [getPieceHashRange_eq (Nat.succ_pos _) (window.symm ▸ some) (fun no => by cases no),
        window]
    unfold chunkPages
    rw [queried, wrap_ok, ok_bind]
    have nonempty : ¬ (offset = firstOffset ∧ (rest.take (entriesChunkSize + 1)).length = 0) := by
      rintro ⟨_, none⟩
      rw [length_take] at none
      omega
    rw [if_neg nonempty]
    rcases Nat.lt_or_ge entriesChunkSize rest.length with long | short
    · have length : (rest.take (entriesChunkSize + 1)).length = entriesChunkSize + 1 :=
        length_take_of_le long
      have window_eq : (rest.take (entriesChunkSize + 1)).dropLast =
          rest.take entriesChunkSize := by
        rw [dropLast_eq_take, length, Nat.add_sub_cancel, take_take,
          Nat.min_eq_left (Nat.le_succ _)]
      have chunkLength : (rest.take entriesChunkSize).length = entriesChunkSize :=
        length_take_of_le long.le
      obtain ⟨accepted, more, returned, next, full⟩ := taken.accept buffer
        (sorted.sublist (take_sublist _ _))
        (length_pos_iff.mp (chunkLength.symm ▸ size)) chunkLength.le
      have last : (rest.take (entriesChunkSize + 1))[entriesChunkSize]? =
          rest[entriesChunkSize]? := getElem?_take_of_lt (Nat.lt_succ_self _)
      rw [if_neg (by omega), if_pos length, window_eq, returned, wrap_ok, ok_bind, length,
        Nat.add_sub_cancel]
      have there : readAt (rest.take (entriesChunkSize + 1)) entriesChunkSize =
          .ok (rest[entriesChunkSize]) := by
        rw [readAt_eq_ok, last, getElem?_eq_getElem long]
      have tail : rest.drop entriesChunkSize =
          rest[entriesChunkSize] :: rest.drop (entriesChunkSize + 1) :=
        drop_eq_getElem_cons long
      have split : listed cids table piece =
          (front ++ rest.take entriesChunkSize) ++ rest.drop entriesChunkSize := by
        rw [append_assoc, take_append_drop, all]
      rw [there]
      refine ih split ?_ ?_ ?_ next (full chunkLength) ?_ (sorted.sublist (drop_sublist _ _))
      · rw [length_drop]
        omega
      · rw [tail]
        exact cons_ne_nil _ _
      · rw [tail]
        exact filter_ge_of_split (listed_sorted cids table piece) (tail ▸ split)
      · rw [length_drop]
        omega
    · have whole : rest.take (entriesChunkSize + 1) = rest := take_of_length_le (by omega)
      obtain ⟨accepted, more, returned, next, _⟩ := taken.accept buffer sorted some short
      rw [whole, if_pos ⟨short, positive⟩, returned]
      exact ⟨accepted, more, rfl, all ▸ next⟩

/-- The finished chain over the multihashes: only its last chunk may be short. -/
structure Chain (nodeToLink : EntryChunk → Link) (c : InitialChunker) (chunks : List EntryChunk)
    (mhs : List Multihash) : Prop where
  made : Made nodeToLink c chunks
  entries : (chunks.map EntryChunk.entries).flatten = mhs
  filled : ∀ chunk ∈ chunks, chunk.entries ≠ []
  fits : ∀ chunk ∈ chunks, chunk.entries.length ≤ entriesChunkSize
  whole : ∀ chunk ∈ chunks.dropLast, chunk.entries.length = entriesChunkSize

theorem TakenIn.finish (taken : TakenIn nodeToLink c chunks mhs) (sorted : mhs.Pairwise (· < ·)) :
    ∃ finished more,
      InitialChunker.chunkWhile nodeToLink 1 (c.dbMultihashes.length + 1) c = .ok finished ∧
      Chain nodeToLink finished more mhs := by
  have size := entriesChunkSize_pos
  have filled : ∀ chunk ∈ chunks, chunk.entries ≠ [] := fun chunk member =>
    length_pos_iff.mp ((taken.whole chunk member).symm ▸ size)
  have entries := taken.entries
  rw [InitialChunker.chunkWhile]
  by_cases empty : c.dbMultihashes = []
  · rw [empty, append_nil] at entries
    rw [if_pos (by rw [empty]; decide)]
    exact ⟨c, chunks, rfl, taken.made, entries, filled, fun chunk member =>
      (taken.whole chunk member).le, fun chunk member =>
      taken.whole chunk (mem_of_mem_dropLast member)⟩
  · have positive : 0 < c.dbMultihashes.length := length_pos_iff.mpr empty
    have ascending : c.dbMultihashes.Pairwise (· < ·) := by
      grind
    have short : c.dbMultihashes.length ≤ c.chunkSize := taken.size ▸ taken.short
    obtain ⟨info, cut, made⟩ := chunk_sorted taken.made (append_nil _).symm ascending empty
      (Nat.min_eq_left short).symm
    obtain ⟨fuel, many⟩ := Nat.exists_eq_succ_of_ne_zero positive.ne'
    rw [if_neg (by omega), cut, ok_bind, many, InitialChunker.chunkWhile, if_pos (by simp)]
    refine ⟨_, _, rfl, made, by simpa using entries, ?_, ?_, ?_⟩
    · grind
    · intro chunk member
      rcases mem_append.mp member with old | new
      · exact (taken.whole chunk old).le
      · rw [mem_singleton.mp new]
        exact taken.short
    · rw [dropLast_concat]
      exact taken.whole

theorem listed_nonempty (some : indexed cids table piece ≠ ∅) : listed cids table piece ≠ [] := by
  grind [listed, Finset.length_sort]

/-- What `advertise` does for a piece that has multihashes. -/
theorem advertise_chain (nodeToLink : EntryChunk → Link) {fuel : Nat}
    (some : indexed cids table piece ≠ ∅) (enough : (indexed cids table piece).card < fuel) :
    ∃ finished chunks, Chain nodeToLink finished chunks (listed cids table piece) ∧
      ∀ rows, advertise cids nodeToLink table piece fuel rows =
        wrap "chunking CAR multihash iterator" (finished.finishDB rows piece false) := by
  have length : (listed cids table piece).length = (indexed cids table piece).card :=
    Finset.length_sort _
  have nonempty := listed_nonempty some
  have window : ((listed cids table piece).filter fun mh => firstOffset ≤ mh) =
      listed cids table piece :=
    filter_eq_self.mpr fun mh _ => decide_eq_true (firstOffset_le mh)
  have start : TakenIn nodeToLink newInitialChunker [] [] :=
    ⟨rfl, ⟨.nil, fun i chunk there => by simp at there⟩, rfl, by simp, Nat.zero_le _⟩
  obtain ⟨chunker, taken, paged, all⟩ := chunkPages_taken fuel (nil_append _).symm
    (length ▸ enough) nonempty window start rfl
  obtain ⟨finished, chunks, looped, chain⟩ := all.finish (listed_sorted cids table piece)
  refine ⟨finished, chunks, chain, fun rows => ?_⟩
  rw [advertise, paged, ok_bind, InitialChunker.finish, looped, wrap_ok, ok_bind]

end Curio.Ipni
