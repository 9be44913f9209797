import Curio.Paths.FileType
import Curio.Paths.PartialFile
import Curio.Paths.FileGetter

/-! `Remote.Reader`, `Remote.ReaderPiece` and `ReadRemote` of `lib/paths/remote.go`, and the
handlers of `lib/paths/http_handler.go` that serve them.

A getter reads a range of a piece from a file of this machine, or asks another machine for a range
of its file. The handlers get the parts of the URL parsed. -/

namespace Curio.Paths.PieceRead

open GoRuntime List

structure SectorRef where
  id : SectorId
  proofType : Int
  deriving DecidableEq

inductive Stored where
  | file (bytes : Bytes)
  | directory (tar : Bytes)
  deriving DecidableEq

structure Externals where
  sectorSize : Int → Call Nat
  fromBuf : Bytes → Call Rle

structure Machine where
  acquireSector : SectorId → SectorFileType → Call SectorPaths
  disk : String → Call Stored

def Machine.openFile (machine : Machine) (path : String) : Call Bytes :=
  match machine.disk path with
  | .error message => .error message
  | .ok (.directory _) => .error s!"open {path}: is a directory"
  | .ok (.file bytes) => .ok bytes

inductive ByteRange where
  | span (first last : Int)
  | onward (first : Int)
  deriving DecidableEq

structure Response where
  status : Nat
  body : Bytes
  deriving DecidableEq

/-- What `parseRange` of `net/http` finds in the header for a file of the given size. -/
inductive Parsed where
  | invalid
  | noOverlap
  | range (start length : Nat)
  deriving DecidableEq

def parseRange (size : Nat) : ByteRange → Parsed
  | .span first last =>
    if first < 0 then .invalid
    else if (size : Int) ≤ first then .noOverlap
    else if last < first then .invalid
    else .range first.toNat (min last.toNat (size - 1) - first.toNat + 1)
  | .onward first =>
    if first < 0 then .invalid
    else if (size : Int) ≤ first then .noOverlap
    else .range first.toNat (size - first.toNat)

/-- `http.ServeFile` of a file, for a request with at most a `Range` header. -/
def serveFile (bytes : Bytes) : Option ByteRange → Response
  | none => ⟨200, bytes⟩
  | some header =>
    match parseRange bytes.length header with
    | .invalid => ⟨416, []⟩
    | .noOverlap => if bytes.length = 0 then ⟨200, bytes⟩ else ⟨416, []⟩
    | .range start length => ⟨206, (bytes.drop start).take length⟩

def remoteGetSector (machine : Machine) (id : SectorId) (fileType : FileType)
    (header : Option ByteRange) : Response :=
  match machine.acquireSector id fileType.bit with
  | .error _ => ⟨500, []⟩
  | .ok paths =>
    let path := pathByType paths fileType
    if path = "" then ⟨500, []⟩
    else
      match machine.disk path with
      | .error _ => ⟨500, []⟩
      | .ok (.directory tar) => if header.isSome then ⟨500, []⟩ else ⟨200, tar⟩
      | .ok (.file bytes) => serveFile bytes header

/-- The numbers of the URL are parsed as `int64`. -/
def remoteGetAllocated (ext : Externals) (machine : Machine) (id : SectorId) (fileType : FileType)
    (spt : Int) (offset size : Nat) : Response :=
  if fileType ≠ .unsealed then ⟨500, []⟩
  else
    match ext.sectorSize spt with
    | .error _ => ⟨500, []⟩
    | .ok ssize =>
      if 2 ^ 63 ≤ offset ∨ 2 ^ 63 ≤ size then ⟨500, []⟩
      else
        match machine.acquireSector id fileType.bit with
        | .error _ => ⟨500, []⟩
        | .ok paths =>
          let path := pathByType paths fileType
          if path = "" then ⟨500, []⟩
          else
            match openPartialFile ext.fromBuf machine.openFile ssize path with
            | .error _ => ⟨500, []⟩
            | .ok pf => if pf.hasAllocated offset size then ⟨200, []⟩ else ⟨416, []⟩

structure StorageInfo where
  urls : List String
  weight : Nat
  deriving DecidableEq

/-- `sort.Slice` by weight, the highest first; what has the same weight keeps its order. -/
def byWeight (si : List StorageInfo) : List StorageInfo :=
  si.mergeSort fun first second => second.weight ≤ first.weight

structure Remote where
  ext : Externals
  machine : Machine
  /-- `Local.ExistingLocalFile` -/
  existingLocalFile : SectorId → FileType → Option String
  storageFindSector : SectorId → FileType → Call (List StorageInfo)
  /-- Waiting for a place in `limit`, until the context ends. -/
  limit : Call Unit
  newRequest : String → Call Unit
  get : String → Option ByteRange → Call Response

inductive Getter where
  /-- Reads the file behind a path; the readers start from the given state. -/
  | ofFile (path : String) (offset : Nat) (readers : FileGetter)
  | ofRemote (url : String) (offset : Nat)

namespace Remote

def rangeHeader (offset size : Int) : Option ByteRange :=
  if offset ≠ 0 ∨ size ≠ 0 then
    if size = 0 then some (.onward offset)
    else some (.span offset (int64 (offset + size - 1)))
  else none

variable (r : Remote)

def readRemote (url : String) (offset size : Int) : Go Bytes := do
  wrap "context error while waiting for fetch limiter" (ofCall r.limit)
  wrap "request" (ofCall (r.newRequest url))
  let resp ← wrap "do request" (ofCall (r.get url (rangeHeader offset size)))
  if resp.status ≠ 200 ∧ resp.status ≠ 206 then fail s!"non-200 code: {resp.status}"
  else .ok resp.body

def allocatedUrl (url : String) (spt : Int) (offset size : Nat) : String :=
  s!"{url}/{spt}/allocated/{unpadded offset}/{unpadded size}"

def checkAllocated (url : String) (spt : Int) (offset size : Nat) : Go Bool := do
  let url := allocatedUrl url spt offset size
  wrap "request" (ofCall (r.newRequest url))
  let resp ← wrap "do request" (ofCall (r.get url none))
  if resp.status = 200 then .ok true
  else if resp.status = 416 then .ok false
  else fail s!"unexpected http response: {resp.status}"

/-- The loop of `Reader` over the URLs: one that fails is passed over. -/
def firstAllocated (spt : Int) (offset size : Nat) : List String → Option String
  | [] => none
  | url :: rest =>
    match r.checkAllocated url spt offset size with
    | .ok true => some url
    | _ => firstAllocated spt offset size rest

def findUrls (s : SectorRef) (fileType : FileType) : Go (List String) := do
  let si ← ofCall (r.storageFindSector s.id fileType)
  if si.length = 0 then
    fail s!"failed to read sector \x7b\x7b{s.id.miner} {s.id.number}\x7d {s.proofType}\x7d from remote({fileType.bit}): sector not found"
  else .ok ((byWeight si).flatMap StorageInfo.urls)

def acquireLocal (s : SectorRef) (fileType : FileType) : Go String := do
  let paths ← wrap "acquire local" (ofCall (r.machine.acquireSector s.id fileType.bit))
  .ok (pathByType paths fileType)

def hasLocal (s : SectorRef) (path : String) (offset size : Nat) : Go Bool := do
  let ssize ← ofCall (r.ext.sectorSize s.proofType)
  let pf ← wrap "opening partial file"
    (openPartialFile r.ext.fromBuf r.machine.openFile ssize path)
  .ok (pf.hasAllocated (unpadded offset) (unpadded size))

/-- `Reader`: nil where no machine has the piece. -/
def reader (s : SectorRef) (offset size : Nat) : Go (Option Getter) := do
  let path ← r.acquireLocal s .unsealed
  let has ← if path ≠ "" then r.hasLocal s path offset size else .ok false
  if has then .ok (some (.ofFile path offset .kept))
  else do
    let urls ← r.findUrls s .unsealed
    .ok ((r.firstAllocated s.proofType offset size urls).map fun url => .ofRemote url offset)

/-- `ReaderPiece`; the size of the piece is only logged. -/
def readerPiece (s : SectorRef) (fileType : FileType) (offset : Nat) : Go (Option Getter) :=
  match r.existingLocalFile s.id fileType with
  | some path => .ok (some (.ofFile path offset .unopened))
  | none => do
      let path ← r.acquireLocal s fileType
      if path ≠ "" then .ok (some (.ofFile path offset .unopened))
      else do
        let urls ← r.findUrls s fileType
        .ok (urls.head?.map fun url => .ofRemote url offset)

end Remote

/-- A reader that the getter returns for a range gives the bytes. Of a local file, that is any call,
and any time after it until the reader is closed. -/
def Getter.Yields (r : Remote) (start stop : Nat) (bytes : Bytes) : Getter → Prop
  | .ofFile path offset readers =>
    ∃ file, r.machine.disk path = .ok (.file file) ∧
      ∀ uses g next later, StepMachine.run FileGetter.step readers uses = some g →
        StepMachine.run FileGetter.step (g.read start stop) next = some later →
        later.isClosed g.readers.length = false →
        later.readAll file offset g.readers.length = some bytes
  | .ofRemote url offset =>
    r.readRemote url (int64 (offset + start)) (int64 (offset + stop)) = .ok bytes

def pieceBytes (file : Bytes) (offset start stop : Nat) : Bytes :=
  (file.drop (offset + start)).take (stop - start)

/-- The range that is asked for at another machine is the wanted one: both start at the first byte
of the file, or the wanted one ends with the file. -/
def RangeExact (length offset start stop : Nat) : Prop :=
  (offset + start = 0 ∧ (0 < stop ∨ length = 0)) ∨
    (0 < offset + start ∧ offset + start < length ∧ offset + stop = length ∧
      offset + start + length ≤ 2 ^ 63)

instance (length offset start stop : Nat) : Decidable (RangeExact length offset start stop) :=
  inferInstanceAs (Decidable (_ ∨ _))

def Response.Gives (resp : Response) (bytes : Bytes) : Prop :=
  (resp.status = 200 ∨ resp.status = 206) ∧ resp.body = bytes

variable {file : Bytes} {size offset start stop : Nat} {id : SectorId} {fileType : FileType}
  {r : Remote} {url : String}

theorem serveFile_span {first last : Nat} (inside : first < file.length) (ordered : first ≤ last)
    (bytes : Bytes) :
    (serveFile file (some (.span first last))).Gives bytes ↔
      (file.drop first).take (last + 1 - first) = bytes := by
  have cut : (file.drop first).take (min last (file.length - 1) - first + 1) =
      (file.drop first).take (last + 1 - first) := by
    rw [take_eq_take_iff, length_drop]
    omega
  have parsed : parseRange file.length (.span first last) =
      .range first (min last (file.length - 1) - first + 1) := by
    simp only [parseRange, Int.toNat_natCast]
    rw [if_neg (by omega), if_neg (by omega), if_neg (by omega)]
  simp [serveFile, parsed, cut, Response.Gives]

theorem serveFile_refuses (file bytes : Bytes) (first : Nat) (last : Int)
    (some : 0 < file.length) (outside : file.length ≤ first ∨ last < first) :
    ¬(serveFile file (.some (.span first last))).Gives bytes := by
  have parsed : parseRange file.length (.span first last) = .invalid ∨
      parseRange file.length (.span first last) = .noOverlap := by
    simp only [parseRange]
    split
    · exact .inl rfl
    · grind
  rcases parsed with bad | beyond
  · simp [serveFile, bad, Response.Gives]
  · simp [serveFile, beyond, Response.Gives, ne_of_gt some]

theorem rangeHeader_start (some : 0 < size) (fits : size < 2 ^ 63) :
    Remote.rangeHeader 0 size = .some (.span (0 : Nat) (size - 1 : Nat)) := by
  have last : ((0 : Int) + size - 1) = ((size - 1 : Nat) : Int) := by omega
  rw [Remote.rangeHeader, if_pos (by omega), if_neg (by omega), last, int64_of_lt (by omega)]
  rfl

theorem rangeHeader_later (later : 0 < offset) (some : 0 < size) :
    Remote.rangeHeader offset size = .some (.span offset (int64 (offset + size - 1 : Nat))) := by
  have last : ((offset : Int) + size - 1) = ((offset + size - 1 : Nat) : Int) := by omega
  rw [Remote.rangeHeader, if_pos (by omega), if_neg (by omega), last]

/-- What another machine answers is the wanted range exactly where the condition holds. -/
theorem serveFile_wanted_iff (fits : file.length < 2 ^ 63) (inside : offset + stop ≤ file.length)
    (ordered : start ≤ stop) :
    (serveFile file (Remote.rangeHeader (offset + start : Nat) (offset + stop : Nat))).Gives
        (pieceBytes file offset start stop) ↔ RangeExact file.length offset start stop := by
  rcases eq_zero_or_pos (offset + start) with first | later
  · obtain ⟨rfl, rfl⟩ : offset = 0 ∧ start = 0 := by omega
    rcases eq_zero_or_pos stop with none | some
    · -- without a header the whole file is sent
      subst none
      have header : Remote.rangeHeader ((0 + 0 : Nat) : Int) ((0 + 0 : Nat) : Int) = none := rfl
      rw [header]
      simp [serveFile, Response.Gives, pieceBytes, RangeExact]
    · have header := rangeHeader_start some (by omega)
      rw [zero_add, zero_add, Nat.cast_zero, header, serveFile_span (by omega) (by omega)]
      simp only [RangeExact, pieceBytes, some, true_or, and_self, iff_true]
      rw [take_eq_take_iff]
      omega
  · rw [rangeHeader_later later (by omega)]
    by_cases within : offset + start < file.length
    · by_cases large : 2 ^ 63 ≤ offset + start + (offset + stop) - 1
      · have negative := int64_neg large (by omega)
        have refused := serveFile_refuses file (pieceBytes file offset start stop) (offset + start)
          (int64 (offset + start + (offset + stop) - 1 : Nat)) (by omega) (.inr (by omega))
        simp only [refused, false_iff, RangeExact]
        omega
      · rw [int64_of_lt (by omega), serveFile_span within (by omega), pieceBytes,
          take_eq_take_iff, length_drop]
        simp only [RangeExact]
        omega
    · have refused := serveFile_refuses file (pieceBytes file offset start stop) (offset + start)
        (int64 (offset + start + (offset + stop) - 1 : Nat)) (by omega) (.inl (by omega))
      simp only [refused, false_iff, RangeExact]
      omega

def Machine.Stores (machine : Machine) (id : SectorId) (fileType : FileType) (file : Bytes) :
    Prop :=
  ∃ paths, machine.acquireSector id fileType.bit = .ok paths ∧ pathByType paths fileType ≠ "" ∧
    machine.disk (pathByType paths fileType) = .ok (.file file)

theorem remoteGetSector_stored {machine : Machine} (stores : machine.Stores id fileType file)
    (header : Option ByteRange) :
    remoteGetSector machine id fileType header = serveFile file header := by
  obtain ⟨paths, acquired, named, stored⟩ := stores
  simp only [remoteGetSector, acquired, if_neg named, stored]

namespace Remote

/-- Behind the URL is a machine that stores the file, and requests get through to it. -/
def Serves (r : Remote) (id : SectorId) (fileType : FileType) (url : String) (file : Bytes) :
    Prop :=
  r.limit = .ok () ∧ r.newRequest url = .ok () ∧
    ∃ machine : Machine, machine.Stores id fileType file ∧
      ∀ header, r.get url header = .ok (remoteGetSector machine id fileType header)

theorem readRemote_served (serves : r.Serves id fileType url file) (offset size : Int)
    (bytes : Bytes) :
    r.readRemote url offset size = .ok bytes ↔
      (serveFile file (rangeHeader offset size)).Gives bytes := by
  obtain ⟨placed, requested, machine, stores, answers⟩ := serves
  simp only [readRemote, placed, requested, answers, remoteGetSector_stored stores, ofCall_ok,
    wrap_ok, ok_bind, Response.Gives]
  split
  · rename_i refused
    simp [fail, refused.1, refused.2]
  · grind

end Remote

inductive Place where
  | here
  | there
  deriving DecidableEq

namespace Remote

def HoldsPiece (r : Remote) (s : SectorRef) (fileType : FileType) (file : Bytes) :
    Place → Prop
  | .here =>
    ∃ path, r.machine.disk path = .ok (.file file) ∧
      (r.existingLocalFile s.id fileType = some path ∨
        (r.existingLocalFile s.id fileType = none ∧
          r.acquireLocal s fileType = .ok path ∧ path ≠ ""))
  | .there =>
    r.existingLocalFile s.id fileType = none ∧ r.acquireLocal s fileType = .ok "" ∧
      ∃ url rest, r.findUrls s fileType = .ok (url :: rest) ∧ r.Serves s.id fileType url file

/-- The unsealed file with the piece that `Reader` finds, and where. -/
def HoldsUnsealed (r : Remote) (s : SectorRef) (offset size : Nat) (file : Bytes) :
    Place → Prop
  | .here =>
    ∃ path, r.machine.disk path = .ok (.file file) ∧ r.acquireLocal s .unsealed = .ok path ∧
      path ≠ "" ∧ r.hasLocal s path offset size = .ok true
  | .there =>
    (∃ path, r.acquireLocal s .unsealed = .ok path ∧
      (path = "" ∨ r.hasLocal s path offset size = .ok false)) ∧
    ∃ urls url, r.findUrls s .unsealed = .ok urls ∧
      r.firstAllocated s.proofType offset size urls = some url ∧
      r.Serves s.id .unsealed url file

end Remote

theorem yields_ofFile {path : String} (stored : r.machine.disk path = .ok (.file file))
    {readers : FileGetter} (tended : readers.Tended) :
    (Getter.ofFile path offset readers).Yields r start stop (pieceBytes file offset start stop) := by
  refine ⟨file, stored, ?_⟩
  intro uses g next later ran ranOn used
  exact FileGetter.reader_reads tended ran start stop ranOn used file offset

theorem yields_ofRemote_iff (serves : r.Serves id fileType url file) (fits : file.length < 2 ^ 63)
    (inside : offset + stop ≤ file.length) (ordered : start ≤ stop) :
    (Getter.ofRemote url offset).Yields r start stop (pieceBytes file offset start stop) ↔
      RangeExact file.length offset start stop := by
  have first : int64 (offset + start) = ((offset + start : Nat) : Int) := by
    rw [← Nat.cast_add, int64_of_lt (by omega)]
  have last : int64 (offset + stop) = ((offset + stop : Nat) : Int) := by
    rw [← Nat.cast_add, int64_of_lt (by omega)]
  rw [Getter.Yields, first, last, Remote.readRemote_served serves,
    serveFile_wanted_iff fits inside ordered]

section Getters

variable {r : Remote} {s : SectorRef} {fileType : FileType} {file : Bytes}

theorem readerPiece_here (holds : r.HoldsPiece s fileType file .here) :
    ∃ path, r.machine.disk path = .ok (.file file) ∧
      r.readerPiece s fileType offset = .ok (some (.ofFile path offset .unopened)) := by
  obtain ⟨path, stored, found | ⟨unfound, acquired, named⟩⟩ := holds
  · exact ⟨path, stored, by rw [Remote.readerPiece, found]⟩
  · refine ⟨path, stored, ?_⟩
    rw [Remote.readerPiece, unfound]
    simp only [acquired, ok_bind, if_pos named]

theorem readerPiece_there (offset : Nat) (holds : r.HoldsPiece s fileType file .there) :
    ∃ url, r.Serves s.id fileType url file ∧
      r.readerPiece s fileType offset = .ok (some (.ofRemote url offset)) := by
  obtain ⟨unfound, acquired, url, rest, urls, serves⟩ := holds
  refine ⟨url, serves, ?_⟩
  rw [Remote.readerPiece, unfound]
  simp [acquired, urls]

variable {offset size : Nat}

theorem reader_here (holds : r.HoldsUnsealed s offset size file .here) :
    ∃ path, r.machine.disk path = .ok (.file file) ∧
      r.reader s offset size = .ok (some (.ofFile path offset .kept)) := by
  obtain ⟨path, stored, acquired, named, has⟩ := holds
  refine ⟨path, stored, ?_⟩
  simp [Remote.reader, acquired, named, has]

theorem reader_there (holds : r.HoldsUnsealed s offset size file .there) :
    ∃ url, r.Serves s.id .unsealed url file ∧
      r.reader s offset size = .ok (some (.ofRemote url offset)) := by
  obtain ⟨⟨path, acquired, lacking⟩, urls, url, found, allocated, serves⟩ := holds
  refine ⟨url, serves, ?_⟩
  by_cases named : path = ""
  · simp [Remote.reader, acquired, named, found, allocated]
  · have without := lacking.resolve_left named
    simp [Remote.reader, acquired, without, found, allocated]

end Getters

def sampleSector : SectorRef := ⟨⟨1000, 7⟩, 5⟩

def sampleBytes : Bytes := [10, 11, 12, 13]

def farMachine : Machine where
  acquireSector := fun _ _ => .ok { unsealed := "/far/unsealed", piece := "/far/piece" }
  disk := fun _ => .ok (.file sampleBytes)

def farExternals : Externals := ⟨fun _ => .ok 4, fun _ => .error "no trailer"⟩

def nearRemote : Remote where
  ext := farExternals
  machine := ⟨fun _ _ => .ok {}, fun _ => .error "no such file or directory"⟩
  existingLocalFile := fun _ _ => none
  storageFindSector := fun _ fileType => .ok [⟨["http://far/remote/" ++ fileType.name], 10⟩]
  limit := .ok ()
  newRequest := fun _ => .ok ()
  get := fun url header =>
    if url = Remote.allocatedUrl "http://far/remote/unsealed" 5 1 2 then
      .ok (remoteGetAllocated farExternals farMachine sampleSector.id .unsealed 5 (unpadded 1)
        (unpadded 2))
    else if url = "http://far/remote/piece" then
      .ok (remoteGetSector farMachine sampleSector.id .piece header)
    else .ok (remoteGetSector farMachine sampleSector.id .unsealed header)

theorem nearRemote_findUrls :
    nearRemote.findUrls sampleSector fileType = .ok ["http://far/remote/" ++ fileType.name] := by
  simp [Remote.findUrls, nearRemote, byWeight]

theorem nearRemote_holdsPiece : nearRemote.HoldsPiece sampleSector .piece sampleBytes .there := by
  refine ⟨rfl, rfl, "http://far/remote/piece", [], nearRemote_findUrls, rfl, rfl,
    farMachine, ⟨_, rfl, by decide, rfl⟩, ?_⟩
  intro header
  simp only [nearRemote]
  rw [if_neg (by decide), if_pos trivial]

theorem nearRemote_holdsUnsealed :
    nearRemote.HoldsUnsealed sampleSector 1 2 sampleBytes .there := by
  refine ⟨⟨"", rfl, .inl rfl⟩, ["http://far/remote/unsealed"], "http://far/remote/unsealed",
    nearRemote_findUrls, by decide, rfl, rfl, farMachine, ⟨_, rfl, by decide, rfl⟩, ?_⟩
  intro header
  simp only [nearRemote]
  rw [if_neg (by decide), if_neg (by decide)]

/-- A getter of the file gives the wanted range, where it is local or the range at the other machine
is exact. -/
theorem piece_read_iff (r : Remote) (s : SectorRef) (fileType : FileType) (file : Bytes)
    (place : Place) (offset size start stop : Nat) (fits : file.length < 2 ^ 63)
    (inside : offset + size ≤ file.length) (ordered : start ≤ stop) (within : stop ≤ size) :
    (r.HoldsUnsealed s offset size file place →
      ((∃ getter, r.reader s offset size = .ok (some getter) ∧
          getter.Yields r start stop (pieceBytes file offset start stop)) ↔
        place = .here ∨ RangeExact file.length offset start stop)) ∧
    (r.HoldsPiece s fileType file place →
      ((∃ getter, r.readerPiece s fileType offset = .ok (some getter) ∧
          getter.Yields r start stop (pieceBytes file offset start stop)) ↔
        place = .here ∨ RangeExact file.length offset start stop)) := by
  have reached : offset + stop ≤ file.length := by omega
  cases place with
  | here =>
    constructor
    · intro holds
      obtain ⟨path, stored, found⟩ := reader_here holds
      simp only [true_or, iff_true]
      exact ⟨_, found, yields_ofFile stored FileGetter.tended_kept⟩
    · intro holds
      obtain ⟨path, stored, found⟩ := readerPiece_here holds
      simp only [true_or, iff_true]
      exact ⟨_, found, yields_ofFile stored FileGetter.tended_unopened⟩
  | there =>
    constructor
    · intro holds
      obtain ⟨url, serves, found⟩ := reader_there holds
      simp [found, yields_ofRemote_iff serves fits reached ordered]
    · intro holds
      obtain ⟨url, serves, found⟩ := readerPiece_there offset holds
      simp [found, yields_ofRemote_iff serves fits reached ordered]

/-- The last byte of the file is read right. -/
theorem piece_read_last_byte :
    ∃ getter, nearRemote.readerPiece sampleSector .piece 1 = .ok (some getter) ∧
      getter.Yields nearRemote 2 3 [13] :=
  ((piece_read_iff nearRemote sampleSector .piece sampleBytes .there 1 3 2 3 (by decide) (by decide)
    (by decide) (by decide)).2 nearRemote_holdsPiece).mpr (.inr (by decide))

/-- One byte is asked for, and two are read. -/
theorem remote_read_too_long :
    nearRemote.HoldsUnsealed sampleSector 1 2 sampleBytes .there ∧
      nearRemote.reader sampleSector 1 2 = .ok (some (.ofRemote "http://far/remote/unsealed" 1)) ∧
      nearRemote.readRemote "http://far/remote/unsealed" (int64 (1 + 0)) (int64 (1 + 1)) =
        .ok [11, 12] ∧
      nearRemote.HoldsPiece sampleSector .piece sampleBytes .there ∧
      nearRemote.readerPiece sampleSector .piece 1 =
        .ok (some (.ofRemote "http://far/remote/piece" 1)) ∧
      nearRemote.readRemote "http://far/remote/piece" (int64 (1 + 0)) (int64 (1 + 1)) =
        .ok [11, 12] ∧
      pieceBytes sampleBytes 1 0 1 = [11] := by
  refine ⟨nearRemote_holdsUnsealed, ?_, by decide, nearRemote_holdsPiece, ?_, by decide, by decide⟩
  · simp only [Remote.reader, nearRemote_findUrls]
    rfl
  · simp only [Remote.readerPiece, nearRemote_findUrls]
    rfl

end Curio.Paths.PieceRead
