import Curio.ByteCodec
import Curio.Pce.Csr

/-! The file of a pre-compiled circuit: `cuzk-pce/src/disk.rs`.

The words are little-endian, a scalar is any value of fixed size. The file operations around the
writes and reads succeed, and so does an allocation that is small enough to be asked for. -/

namespace Curio.Pce

open GoRuntime ByteCodec
open List hiding Vector
open FixedSize (put_length get_put put)

section Vectors

variable {T : Type} [FixedSize T]

/-- `write_vec_u32`, `write_vec_u64` and `write_vec_scalar`: the count, then the memory of the
items. -/
def writeVec (v : List T) : Writer Unit := do
  writeLE (UInt64.ofNat v.length)
  write (v.flatMap put)

def itemsIn (T : Type) [FixedSize T] : Nat → Bytes → List T
  | 0, _ => []
  | count + 1, bytes =>
    FixedSize.get (bytes.take (FixedSize.size T)) :: itemsIn T count (bytes.drop (FixedSize.size T))

/-- `Vec::with_capacity`, which panics where the bytes are more than an `isize` counts. -/
def withCapacity (T : Type) [FixedSize T] (count : Nat) : Go Unit :=
  if count * FixedSize.size T < 2 ^ 63 then .ok () else panics "capacity overflow"

def readWord (T : Type) [FixedSize T] : Reader T := do
  let buffer ← Reader.exact (FixedSize.size T)
  pure (FixedSize.get buffer)

def readVec (T : Type) [FixedSize T] : Reader (List T) := do
  let count ← readWord UInt64
  Reader.lift (withCapacity T count.toNat)
  let bytes ← Reader.exact (count.toNat * FixedSize.size T)
  pure (itemsIn T count.toNat bytes)

end Vectors

def pceMagic : Vector UInt8 4 := #v[0x50, 0x43, 0x45, 0x02]

def pceVersion : UInt32 := 2

def headerSize : Nat := 32

structure PceFileHeader where
  magic : Vector UInt8 4
  version : UInt32
  numInputs : UInt32
  numAux : UInt32
  numConstraints : UInt32
  totalNnz : UInt64
  reserved : UInt32
  deriving DecidableEq

namespace PceFileHeader

def fromPce {Scalar : Type} (pce : PreCompiledCircuit Scalar) : PceFileHeader where
  magic := pceMagic
  version := pceVersion
  numInputs := pce.numInputs
  numAux := pce.numAux
  numConstraints := pce.numConstraints
  totalNnz := UInt64.ofNat pce.totalNnz
  reserved := 0

def writeTo (header : PceFileHeader) : Writer Unit := do
  writeLE header.magic
  writeLE header.version
  writeLE header.numInputs
  writeLE header.numAux
  writeLE header.numConstraints
  writeLE header.totalNnz
  writeLE header.reserved

def field (T : Type) [FixedSize T] (offset : Nat) (buf : Bytes) : T :=
  FixedSize.get ((buf.drop offset).take (FixedSize.size T))

def fromBuffer (buf : Bytes) : PceFileHeader where
  magic := field (Vector UInt8 4) 0 buf
  version := field UInt32 4 buf
  numInputs := field UInt32 8 buf
  numAux := field UInt32 12 buf
  numConstraints := field UInt32 16 buf
  totalNnz := field UInt64 20 buf
  reserved := field UInt32 28 buf

def readFrom : Reader PceFileHeader := do
  let buf ← (Reader.exact headerSize).within "failed to read PCE file header"
  pure (fromBuffer buf)

def validate (header : PceFileHeader) : Go Unit :=
  if header.magic ≠ pceMagic then
    fail s!"invalid PCE file magic: expected {pceMagic.toList}, got {header.magic.toList}"
  else if header.version ≠ pceVersion then
    fail s!"incompatible PCE file version: expected {pceVersion}, got {header.version}"
  else .ok ()

end PceFileHeader

section Parts

variable {Scalar : Type} [FixedSize Scalar]

def writeCsr (csr : CsrMatrix Scalar) : Writer Unit := do
  writeVec csr.rowPtrs
  writeVec csr.cols
  writeVec csr.vals

def readCsr (Scalar : Type) [FixedSize Scalar] : Reader (CsrMatrix Scalar) := do
  let rowPtrs ← readVec UInt32
  let cols ← readVec UInt32
  let vals ← readVec Scalar
  pure ⟨rowPtrs, cols, vals⟩

def writeU64Pair (a b : UInt64) : Writer Unit := do
  writeLE a
  writeLE b

def readU64Pair : Reader (UInt64 × UInt64) := do
  let buf ← Reader.exact 16
  pure (FixedSize.get (buf.take 8), FixedSize.get (buf.drop 8))

def writeDensity (d : PreComputedDensity) : Writer Unit := do
  writeVec d.aAuxDensityWords
  writeU64Pair d.aAuxBitLen d.aAuxPopcount
  writeVec d.bInputDensityWords
  writeU64Pair d.bInputBitLen d.bInputPopcount
  writeVec d.bAuxDensityWords
  writeU64Pair d.bAuxBitLen d.bAuxPopcount

def readDensity : Reader PreComputedDensity := do
  let aAuxWords ← readVec UInt64
  let aAux ← readU64Pair
  let bInputWords ← readVec UInt64
  let bInput ← readU64Pair
  let bAuxWords ← readVec UInt64
  let bAux ← readU64Pair
  pure ⟨aAuxWords, aAux.1, aAux.2, bInputWords, bInput.1, bInput.2, bAuxWords, bAux.1, bAux.2⟩

end Parts

section Files

variable {Scalar : Type} [FixedSize Scalar]

def writeCircuit (pce : PreCompiledCircuit Scalar) : Writer Unit := do
  (PceFileHeader.fromPce pce).writeTo
  writeCsr pce.a
  writeCsr pce.b
  writeCsr pce.c
  writeDensity pce.density

def saveToDisk (pce : PreCompiledCircuit Scalar) : Go Bytes := do
  let written ← writeCircuit pce []
  .ok written.2

def checkNnz (header : PceFileHeader) (pce : PreCompiledCircuit Scalar) : Go Unit :=
  if UInt64.ofNat pce.totalNnz ≠ header.totalNnz then
    fail (s!"PCE total_nnz mismatch: header says {header.totalNnz}, " ++
      s!"loaded data has {pce.totalNnz}")
  else .ok ()

def readCircuit (Scalar : Type) [FixedSize Scalar] : Reader (PreCompiledCircuit Scalar) := do
  let header ← PceFileHeader.readFrom
  Reader.lift header.validate
  let a ← (readCsr Scalar).within "failed to read A matrix"
  let b ← (readCsr Scalar).within "failed to read B matrix"
  let c ← (readCsr Scalar).within "failed to read C matrix"
  let density ← readDensity.within "failed to read density"
  let pce := ⟨header.numInputs, header.numAux, header.numConstraints, a, b, c, density⟩
  Reader.lift (checkNnz header pce)
  pure pce

/-- Bytes behind the circuit are not looked at. -/
def loadFromDisk (Scalar : Type) [FixedSize Scalar] (file : Bytes) :
    Go (PreCompiledCircuit Scalar) := do
  let taken ← (readCircuit Scalar).run file
  .ok taken.1

end Files

section Memory

variable {T : Type} [FixedSize T]

structure Allocated (v : List T) : Prop where
  bytes : v.length * FixedSize.size T < 2 ^ 63
  count : v.length < 2 ^ 64

structure CsrMatrix.InMemory {Scalar : Type} [FixedSize Scalar] (csr : CsrMatrix Scalar) :
    Prop where
  rowPtrs : Allocated csr.rowPtrs
  cols : Allocated csr.cols
  vals : Allocated csr.vals

structure PreComputedDensity.InMemory (d : PreComputedDensity) : Prop where
  aAux : Allocated d.aAuxDensityWords
  bInput : Allocated d.bInputDensityWords
  bAux : Allocated d.bAuxDensityWords

/-- A circuit as a Rust value: every vector of it has been allocated. -/
structure CircuitValue (Scalar : Type) [FixedSize Scalar] extends PreCompiledCircuit Scalar where
  aInMemory : a.InMemory
  bInMemory : b.InMemory
  cInMemory : c.InMemory
  densityInMemory : density.InMemory

end Memory

section RoundTrip

variable {T Scalar : Type} [FixedSize T] [FixedSize Scalar]

theorem flatMap_put_length {v : List T} : (v.flatMap put).length = v.length * FixedSize.size T := by
  induction v with
  | nil => simp
  | cons item rest ih =>
    rw [flatMap_cons, length_append, put_length, ih, length_cons]
    ring

theorem itemsIn_put (v : List T) : itemsIn T v.length (v.flatMap put) = v := by
  induction v with
  | nil => rfl
  | cons item rest ih =>
    have size : (put item).length = FixedSize.size T := put_length item
    rw [length_cons, itemsIn, flatMap_cons, take_left' size, drop_left' size,
      get_put, ih]

theorem carries_word {value : T} : CarriesWhole (writeLE value) (readWord T) value := by
  refine (CarriesWhole.exact (writes_write _) (put_length value)).last ?_
  rw [get_put]
  exact reads_pure.mpr ⟨rfl, rfl⟩

theorem carries_vec {v : List T} (allocated : Allocated v) :
    CarriesWhole (writeVec v) (readVec T) v := by
  have count : (UInt64.ofNat v.length).toNat = v.length := by
    rw [UInt64.toNat_ofNat', Nat.mod_eq_of_lt allocated.count]
  refine carries_word.bind ?_
  rw [count]
  have room : Reads (Reader.lift (withCapacity T v.length)) [] () :=
    reads_lift.mpr ⟨rfl, if_pos allocated.bytes⟩
  refine CarriesWhole.after room ((CarriesWhole.exact (writes_write _) flatMap_put_length).last ?_)
  rw [itemsIn_put]
  exact reads_pure.mpr ⟨rfl, rfl⟩

theorem carries_csr {csr : CsrMatrix Scalar} (inMemory : csr.InMemory) :
    CarriesWhole (writeCsr csr) (readCsr Scalar) csr :=
  (carries_vec inMemory.rowPtrs).bind <|
    (carries_vec inMemory.cols).bind <| (carries_vec inMemory.vals).last (reads_pure.mpr ⟨rfl, rfl⟩)

theorem carries_u64Pair {a b : UInt64} : CarriesWhole (writeU64Pair a b) readU64Pair (a, b) := by
  have size (word : UInt64) : (put word).length = 8 := put_length word
  have wrote : Writes (writeU64Pair a b) (put a ++ put b) :=
    (writes_write _).bind (writes_write _)
  refine (CarriesWhole.exact wrote (by rw [length_append, size, size])).last ?_
  rw [take_left' (size a), drop_left' (size a), get_put, get_put]
  exact reads_pure.mpr ⟨rfl, rfl⟩

theorem carries_density {d : PreComputedDensity} (inMemory : d.InMemory) :
    CarriesWhole (writeDensity d) readDensity d :=
  (carries_vec inMemory.aAux).bind <|
    carries_u64Pair.bind <|
      (carries_vec inMemory.bInput).bind <|
        carries_u64Pair.bind <|
          (carries_vec inMemory.bAux).bind <| carries_u64Pair.last (reads_pure.mpr ⟨rfl, rfl⟩)

namespace PceFileHeader

theorem field_append {offset : Nat} {front : Bytes} (position : front.length = offset)
    {value : T} {back : Bytes} :
    field T offset (front ++ (put value ++ back)) = value := by
  rw [field, drop_left' position, take_left' (put_length value), get_put]

def bytes (header : PceFileHeader) : Bytes :=
  put header.magic ++ (put header.version ++
    (put header.numInputs ++ (put header.numAux ++
      (put header.numConstraints ++ (put header.totalNnz ++ put header.reserved)))))

theorem writes_writeTo (header : PceFileHeader) : Writes header.writeTo header.bytes :=
  (writes_write _).bind <| (writes_write _).bind <| (writes_write _).bind <|
    (writes_write _).bind <| (writes_write _).bind <| (writes_write _).bind (writes_write _)

theorem put32_length (word : UInt32) : (put word).length = 4 := put_length word

theorem put64_length (word : UInt64) : (put word).length = 8 := put_length word

theorem magic_length {magic : Vector UInt8 4} : (put magic).length = 4 :=
  put_length magic

theorem bytes_length (header : PceFileHeader) : header.bytes.length = headerSize := by
  simp only [bytes, length_append, magic_length]
  rfl

/-- Each field lies behind those that were written before it. -/
theorem fromBuffer_bytes (header : PceFileHeader) : fromBuffer header.bytes = header := by
  have magic : field (Vector UInt8 4) 0 header.bytes = header.magic :=
    field_append length_nil
  have version : field UInt32 4 header.bytes = header.version :=
    field_append magic_length
  have numInputs : field UInt32 8 header.bytes = header.numInputs := by
    rw [bytes, ← append_assoc]
    refine field_append ?_
    simp only [length_append, put32_length, magic_length]
  have numAux : field UInt32 12 header.bytes = header.numAux := by
    rw [bytes, ← append_assoc, ← append_assoc]
    refine field_append ?_
    simp only [length_append, put32_length, magic_length]
  have numConstraints : field UInt32 16 header.bytes = header.numConstraints := by
    rw [bytes, ← append_assoc, ← append_assoc, ← append_assoc]
    refine field_append ?_
    simp only [length_append, put32_length, magic_length]
  have totalNnz : field UInt64 20 header.bytes = header.totalNnz := by
    rw [bytes, ← append_assoc, ← append_assoc, ← append_assoc, ← append_assoc]
    refine field_append ?_
    simp only [length_append, put32_length, magic_length]
  have reserved : field UInt32 28 header.bytes = header.reserved := by
    rw [bytes, ← append_assoc,
      ← append_assoc, ← append_assoc, ← append_assoc, ← append_assoc]
    refine field_append ?_
    simp only [length_append, put32_length, put64_length, magic_length]
  unfold fromBuffer
  rw [magic, version, numInputs, numAux, numConstraints, totalNnz, reserved]

end PceFileHeader

theorem carries_header {header : PceFileHeader} :
    CarriesWhole header.writeTo PceFileHeader.readFrom header := by
  refine ((CarriesWhole.exact header.writes_writeTo header.bytes_length).within _).last ?_
  rw [header.fromBuffer_bytes]
  exact reads_pure.mpr ⟨rfl, rfl⟩

theorem carries_circuit (pce : CircuitValue Scalar) :
    CarriesWhole (writeCircuit pce.toPreCompiledCircuit) (readCircuit Scalar)
      pce.toPreCompiledCircuit := by
  have valid : Reads (Reader.lift (PceFileHeader.fromPce pce.toPreCompiledCircuit).validate) [] () :=
    reads_lift.mpr ⟨rfl, rfl⟩
  have counted : Reads (do
      Reader.lift (checkNnz (PceFileHeader.fromPce pce.toPreCompiledCircuit) pce.toPreCompiledCircuit)
      pure pce.toPreCompiledCircuit) [] pce.toPreCompiledCircuit :=
    reads_bind.mpr ⟨(), [], [], rfl, reads_lift.mpr ⟨rfl, if_neg (not_not.mpr rfl)⟩,
      reads_pure.mpr ⟨rfl, rfl⟩⟩
  exact carries_header.bind <| CarriesWhole.after valid <|
    ((carries_csr pce.aInMemory).within _).bind <|
      ((carries_csr pce.bInMemory).within _).bind <|
        ((carries_csr pce.cInMemory).within _).bind <|
          ((carries_density pce.densityInMemory).within _).last counted

/-- The file gives the circuit back, and every file that ends too early is refused. -/
theorem saved_circuit_loads (pce : CircuitValue Scalar) :
    ∃ file, saveToDisk pce.toPreCompiledCircuit = .ok file ∧
      loadFromDisk Scalar file = .ok pce.toPreCompiledCircuit ∧
      ∀ cut, cut <+: file → cut ≠ file → ∃ message, loadFromDisk Scalar cut = fail message := by
  obtain ⟨file, wrote, took, refused⟩ := carries_circuit pce
  refine ⟨file, ?_, ?_, ?_⟩
  · rw [saveToDisk, wrote, ok_bind, nil_append]
  · have whole := took []
    rw [append_nil] at whole
    rw [loadFromDisk, whole, ok_bind]
  · rintro cut ⟨missing, split⟩ proper
    have left : missing ≠ [] := by
      grind
    obtain ⟨message, failed⟩ := refused cut missing split.symm left
    exact ⟨message, by rw [loadFromDisk, failed, fail_bind]⟩

/-- Two constraints over an input and two auxiliary variables. -/
def smallCircuit : CircuitValue UInt64 where
  numInputs := 1
  numAux := 2
  numConstraints := 2
  a := ⟨[0, 1, 2], [1, 2], [1, 3]⟩
  b := ⟨[0, 1, 2], [0, 1], [1, 5]⟩
  c := ⟨[0, 1, 2], [2, 0], [7, 1]⟩
  density := ⟨[3], 2, 2, [1], 1, 1, [1], 2, 1⟩
  aInMemory := ⟨⟨by decide, by decide⟩, ⟨by decide, by decide⟩, ⟨by decide, by decide⟩⟩
  bInMemory := ⟨⟨by decide, by decide⟩, ⟨by decide, by decide⟩, ⟨by decide, by decide⟩⟩
  cInMemory := ⟨⟨by decide, by decide⟩, ⟨by decide, by decide⟩, ⟨by decide, by decide⟩⟩
  densityInMemory := ⟨⟨by decide, by decide⟩, ⟨by decide, by decide⟩, ⟨by decide, by decide⟩⟩

theorem saved_circuit_loads_small :
    ∃ file, saveToDisk smallCircuit.toPreCompiledCircuit = .ok file ∧
      loadFromDisk UInt64 file = .ok smallCircuit.toPreCompiledCircuit := by
  obtain ⟨file, saved, loaded, -⟩ := saved_circuit_loads smallCircuit
  exact ⟨file, saved, loaded⟩

end RoundTrip

variable {T Scalar : Type} [FixedSize T] [FixedSize Scalar]

def CsrMatrix.memoryBytes (csr : CsrMatrix Scalar) : Nat :=
  csr.rowPtrs.length * 4 + csr.cols.length * 4 + csr.vals.length * FixedSize.size Scalar

def PreComputedDensity.memoryBytes (d : PreComputedDensity) : Nat :=
  (d.aAuxDensityWords.length + d.bInputDensityWords.length + d.bAuxDensityWords.length) * 8 + 6 * 8

def PreCompiledCircuit.memoryBytes (pce : PreCompiledCircuit Scalar) : Nat :=
  pce.a.memoryBytes + pce.b.memoryBytes + pce.c.memoryBytes + pce.density.memoryBytes + 12

theorem writesSize_word {value : T} : WritesSize (writeLE value) (FixedSize.size T) :=
  ⟨_, writes_write _, put_length value⟩

theorem writesSize_vec (v : List T) :
    WritesSize (writeVec v) (8 + v.length * FixedSize.size T) :=
  writesSize_word.bind ⟨_, writes_write _, flatMap_put_length⟩

theorem writesSize_csr (csr : CsrMatrix Scalar) :
    WritesSize (writeCsr csr) (csr.memoryBytes + 24) := by
  have parts := (writesSize_vec csr.rowPtrs).bind
    ((writesSize_vec csr.cols).bind (writesSize_vec csr.vals))
  have sizes : 8 + csr.rowPtrs.length * 4 + (8 + csr.cols.length * 4 +
      (8 + csr.vals.length * FixedSize.size Scalar)) = csr.memoryBytes + 24 := by
    rw [CsrMatrix.memoryBytes]
    omega
  rw [← sizes]
  exact parts

theorem writesSize_u64Pair (a b : UInt64) : WritesSize (writeU64Pair a b) 16 :=
  writesSize_word.bind writesSize_word

theorem writesSize_density (d : PreComputedDensity) :
    WritesSize (writeDensity d) (d.memoryBytes + 24) := by
  have parts := (writesSize_vec d.aAuxDensityWords).bind <|
    (writesSize_u64Pair d.aAuxBitLen d.aAuxPopcount).bind <|
      (writesSize_vec d.bInputDensityWords).bind <|
        (writesSize_u64Pair d.bInputBitLen d.bInputPopcount).bind <|
          (writesSize_vec d.bAuxDensityWords).bind <| writesSize_u64Pair d.bAuxBitLen d.bAuxPopcount
  have sizes : 8 + d.aAuxDensityWords.length * 8 + (16 + (8 + d.bInputDensityWords.length * 8 +
      (16 + (8 + d.bAuxDensityWords.length * 8 + 16)))) = d.memoryBytes + 24 := by
    rw [PreComputedDensity.memoryBytes]
    omega
  rw [← sizes]
  exact parts

/-- The file is larger than what the circuit counts as in memory: by its header and the counts of
its vectors, less the dimensions. -/
theorem saveToDisk_length (pce : PreCompiledCircuit Scalar) :
    ∃ file, saveToDisk pce = .ok file ∧ file.length = pce.memoryBytes + 116 := by
  have header : WritesSize (PceFileHeader.fromPce pce).writeTo headerSize :=
    ⟨_, PceFileHeader.writes_writeTo _, PceFileHeader.bytes_length _⟩
  obtain ⟨file, wrote, length⟩ := header.bind <| (writesSize_csr pce.a).bind <|
    (writesSize_csr pce.b).bind <| (writesSize_csr pce.c).bind (writesSize_density pce.density)
  refine ⟨file, ?_, ?_⟩
  · rw [saveToDisk, writeCircuit, wrote, ok_bind, nil_append]
  · rw [length, headerSize, PreCompiledCircuit.memoryBytes]
    omega

end Curio.Pce
