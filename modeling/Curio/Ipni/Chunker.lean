import Curio.GoRuntime

/-! IPNI entry chunks: `InitialChunker` of `market/ipni/chunker/initial-chunker.go`, the paging loop
of `IPNITask.Do` in `tasks/indexing/task_ipni.go`, `GetPieceHashRange` of
`market/indexstore/indexstore.go`, and `reconstructChunkFromDB` of
`market/ipni/chunker/serve-chunker.go`.

The link of a node is a parameter. A query of the index store returns. -/

namespace Curio.Ipni

open GoRuntime

/-- The bytes of a multihash, in the order of `bytes.Compare`; there is at least its code. -/
abbrev Multihash := { bytes : List (Fin 256) // bytes ≠ [] }

scoped instance byteRange : NeZero 256 := ⟨by decide⟩

scoped instance multihashTrans : IsTrans Multihash (· ≤ ·) := inferInstance

scoped instance multihashAntisymm : Std.Antisymm (α := Multihash) (· ≤ ·) := inferInstance

scoped instance multihashTotal : Std.Total (α := Multihash) (· ≤ ·) := inferInstance

abbrev Link := String

structure EntryChunk where
  entries : List Multihash
  next : Option Link
  deriving DecidableEq

def entriesChunkSize : Nat := 16384

structure ChunkMeta where
  link : Link
  start : Multihash
  nodes : Nat
  deriving DecidableEq

structure InitialChunker where
  chunkSize : Nat
  ingestedSoFar : Nat
  dbMultihashes : List Multihash
  prevChunks : List ChunkMeta

def newInitialChunker : InitialChunker := ⟨entriesChunkSize, 0, [], []⟩

def dropDuplicates (prev : Option Multihash) : List Multihash → List Multihash
  | [] => []
  | mh :: rest =>
    if prev = some mh then dropDuplicates prev rest else mh :: dropDuplicates (some mh) rest

namespace InitialChunker

variable (nodeToLink : EntryChunk → Link)

/-- `InitialChunker.chunk`: cut a chunk off the buffer, or only take duplicates out of it. -/
def chunk (c : InitialChunker) : Go InitialChunker :=
  let l := min c.dbMultihashes.length c.chunkSize
  let mhs := (c.dbMultihashes.take l).mergeSort fun first second => decide (first ≤ second)
  let unique := dropDuplicates none mhs
  if mhs.length ≠ unique.length then
    .ok { c with dbMultihashes := unique ++ c.dbMultihashes.drop l }
  else do
    let node : EntryChunk := ⟨mhs, c.prevChunks.getLast?.map ChunkMeta.link⟩
    let start ← readAt mhs 0
    .ok { c with
      prevChunks := c.prevChunks ++ [⟨nodeToLink node, start, mhs.length⟩]
      dbMultihashes := c.dbMultihashes.drop l }

/-- `for len(c.dbMultihashes) >= least`: every pass makes the buffer shorter. -/
def chunkWhile (least : Nat) : Nat → InitialChunker → Go InitialChunker
  | 0, _ => .error .hang
  | fuel + 1, c =>
    if c.dbMultihashes.length < least then .ok c
    else do
      let c ← c.chunk nodeToLink
      chunkWhile least fuel c

def accept (c : InitialChunker) (mhs : List Multihash) : Go InitialChunker := do
  let buffered := c.dbMultihashes ++ mhs
  let c ← wrap "chunking failed" (chunkWhile nodeToLink c.chunkSize (buffered.length + 1)
    { c with dbMultihashes := buffered })
  .ok { c with ingestedSoFar := c.ingestedSoFar + mhs.length }

end InitialChunker

/-- A row of `ipni_chunks`. The hex text of the first multihash and its bytes determine each
other. -/
structure ChunkRow where
  cid : Link
  pieceCid : String
  chunkNum : Nat
  firstCid : Multihash
  numBlocks : Nat
  isPdp : Bool
  deriving DecidableEq

def insertChunk (rows : List ChunkRow) (row : ChunkRow) : List ChunkRow :=
  if rows.any fun old => old.cid = row.cid ∨
      (old.pieceCid = row.pieceCid ∧ old.isPdp = row.isPdp ∧ old.chunkNum = row.chunkNum) then rows
  else rows ++ [row]

namespace InitialChunker

def chunkRows (c : InitialChunker) (pieceCid : String) (isPdp : Bool) : List ChunkRow :=
  c.prevChunks.zipIdx.map fun numbered =>
    ⟨numbered.1.link, pieceCid, numbered.2, numbered.1.start, numbered.1.nodes, isPdp⟩

def finishDB (c : InitialChunker) (rows : List ChunkRow) (pieceCid : String) (isPdp : Bool) :
    Go (Link × List ChunkRow) :=
  match c.prevChunks.getLast? with
  | none => panics "index out of range [-1]"
  | some last => .ok (last.link, (c.chunkRows pieceCid isPdp).foldl insertChunk rows)

def finish (nodeToLink : EntryChunk → Link) (c : InitialChunker) (rows : List ChunkRow)
    (pieceCid : String) (isPdp : Bool) : Go (Link × List ChunkRow) := do
  let c ← wrap "chunking failed during finish"
    (chunkWhile nodeToLink 1 (c.dbMultihashes.length + 1) c)
  c.finishDB rows pieceCid isPdp

end InitialChunker

/-- What the index store uses of `commcidv2` and `go-fil-commcid`. -/
structure PieceCids where
  isPieceCidV2 : String → Bool
  pieceCidV1FromV2 : String → Call String

abbrev IndexTable := String → Finset Multihash

def getHashes (table : IndexTable) (pieceCid : String) (start : Multihash) (num : Nat) :
    List Multihash :=
  (((table pieceCid).sort (· ≤ ·)).filter fun mh => start ≤ mh).take num

def getPieceHashRange (cids : PieceCids) (table : IndexTable) (piecev2 : String)
    (start : Multihash) (num : Nat) (strictCheck : Bool) : Go (List Multihash) := do
  let found := getHashes table piecev2 start num
  let hashes ←
    if found.length = 0 ∧ cids.isPieceCidV2 piecev2 = true then do
      let pcid1 ← wrap "getting piece cid v1 from v2" (ofCall (cids.pieceCidV1FromV2 piecev2))
      .ok (getHashes table pcid1 start num)
    else .ok found
  if strictCheck = true ∧ hashes.length ≠ num then
    fail s!"expected {num} hashes, got {hashes.length} (possibly missing indexes)"
  else .ok hashes

def firstOffset : Multihash := ⟨[0], by simp⟩

/-- The paging loop of `IPNITask.Do`. Each pass but the last leaves fewer multihashes at or after
the offset. -/
def chunkPages (cids : PieceCids) (nodeToLink : EntryChunk → Link) (table : IndexTable)
    (pcid2 : String) : Nat → Multihash → InitialChunker → Go InitialChunker
  | 0, _, _ => .error .hang
  | fuel + 1, offset, chk => do
      let mhs ← wrap "getting piece hashes"
        (getPieceHashRange cids table pcid2 offset (entriesChunkSize + 1) false)
      if offset = firstOffset ∧ mhs.length = 0 then
        fail s!"no index record found for piece {pcid2}"
      else if mhs.length ≤ entriesChunkSize ∧ mhs.length > 0 then
        wrap "adding index to chunk" (chk.accept nodeToLink mhs)
      else if mhs.length = entriesChunkSize + 1 then do
        let chk ← wrap "adding index to chunk" (chk.accept nodeToLink mhs.dropLast)
        let offset ← readAt mhs (mhs.length - 1)
        chunkPages cids nodeToLink table pcid2 fuel offset chk
      else fail s!"number of index records is not expected: {mhs.length}"

def advertise (cids : PieceCids) (nodeToLink : EntryChunk → Link) (table : IndexTable)
    (pcid2 : String) (fuel : Nat) (rows : List ChunkRow) : Go (Link × List ChunkRow) := do
  let chk ← chunkPages cids nodeToLink table pcid2 fuel firstOffset newInitialChunker
  wrap "chunking CAR multihash iterator" (chk.finish nodeToLink rows pcid2 false)

def hexString (mh : Multihash) : String :=
  String.join (mh.val.map fun byte =>
    String.ofList [Nat.digitChar (byte.val / 16), Nat.digitChar (byte.val % 16)])

/-- `%s` of a link that may be nil. -/
def linkText : Option Link → String
  | none => "%!s(<nil>)"
  | some link => link

def reconstructChunkFromDB (cids : PieceCids) (nodeToLink : EntryChunk → Link)
    (table : IndexTable) (chunk : Link) (piecev2 : String) (firstHash : Multihash)
    (next : Option Link) (numBlocks : Nat) : Go EntryChunk := do
  let mhs ← if numBlocks = 1 then .ok [firstHash] else
    wrap "getting piece hash range"
      (getPieceHashRange cids table piecev2 firstHash numBlocks true)
  let chunkNode : EntryChunk := ⟨mhs, next⟩
  if nodeToLink chunkNode ≠ chunk then
    fail ("db chunk node does not match the expected chunk CID, " ++
      s!"got {nodeToLink chunkNode}, expected {chunk}, mhs {mhs.length}/{numBlocks}, " ++
      s!"first {hexString firstHash}, nextL {linkText next}")
  else .ok chunkNode

def serveChunk (cids : PieceCids) (nodeToLink : EntryChunk → Link) (table : IndexTable)
    (rows : List ChunkRow) (row : ChunkRow) : Go EntryChunk :=
  let prev := rows.find? fun prev =>
    prev.pieceCid = row.pieceCid ∧ row.chunkNum = prev.chunkNum + 1
  reconstructChunkFromDB cids nodeToLink table row.cid row.pieceCid row.firstCid
    (prev.map ChunkRow.cid) row.numBlocks

end Curio.Ipni
