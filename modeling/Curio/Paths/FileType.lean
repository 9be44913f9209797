import Mathlib.Tactic

/-! Sector file types and sector names: `lib/storiface/filetype.go`. -/

namespace Curio.Paths

/-- `PathTypes`: the single types. -/
inductive FileType where
  | unsealed
  | sealed
  | cache
  | update
  | updateCache
  | piece
  | key
  deriving DecidableEq

abbrev SectorFileType := Nat

namespace FileType

def pathTypes : List FileType := [unsealed, sealed, cache, update, updateCache, piece, key]

def bit : FileType → SectorFileType
  | unsealed => 1
  | sealed => 2
  | cache => 4
  | update => 8
  | updateCache => 16
  | piece => 32
  | key => 64

def name : FileType → String
  | unsealed => "unsealed"
  | sealed => "sealed"
  | cache => "cache"
  | update => "update"
  | updateCache => "update-cache"
  | piece => "piece"
  | key => "key"

end FileType

def SectorFileType.allSet (types : SectorFileType) : List FileType :=
  FileType.pathTypes.filter fun fileType => fileType.bit &&& types ≠ 0

theorem SectorFileType.allSet_nodup (types : SectorFileType) : types.allSet.Nodup :=
  List.Nodup.filter _ (by decide)

theorem SectorFileType.mem_allSet {types : SectorFileType} {fileType : FileType} :
    fileType ∈ types.allSet ↔ fileType.bit &&& types ≠ 0 := by
  have listed : fileType ∈ FileType.pathTypes := by cases fileType <;> decide
  simp [SectorFileType.allSet, listed]

@[simp] theorem FileType.allSet_bit (fileType : FileType) :
    SectorFileType.allSet fileType.bit = [fileType] := by
  cases fileType <;> decide

structure SectorId where
  miner : Nat
  number : Nat
  deriving DecidableEq

def sectorName (sid : SectorId) : String := s!"s-t0{sid.miner}-{sid.number}"

structure SectorPaths where
  unsealed : String := ""
  sealed : String := ""
  cache : String := ""
  update : String := ""
  updateCache : String := ""
  piece : String := ""
  key : String := ""
  deriving DecidableEq

def pathByType (sps : SectorPaths) : FileType → String
  | .unsealed => sps.unsealed
  | .sealed => sps.sealed
  | .cache => sps.cache
  | .update => sps.update
  | .updateCache => sps.updateCache
  | .piece => sps.piece
  | .key => sps.key

def fsOverheadDen : Nat := 10

def fsOverheadSeal : FileType → Nat
  | .unsealed => fsOverheadDen
  | .sealed => fsOverheadDen
  | .update => fsOverheadDen
  | .updateCache => fsOverheadDen * 2 + 1
  | .cache => 141
  | .piece => fsOverheadDen
  | .key => fsOverheadDen * 11 + 1

end Curio.Paths
