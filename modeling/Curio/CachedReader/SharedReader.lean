import Curio.Entries
import Curio.StepMachine

/-! Shared piece readers: `GetSharedPieceReader`, `cachedSectionReader.Close` and the expiry
callback of `lib/cachedreader/cachedreader.go`, over the cache of `lib/cachedreader/cache.go`.

The cache may drop a key at any moment, because its time has passed or the cache is full. It then
starts the callback, which runs later under `pieceReaderCacheMu`. -/

namespace Curio.CachedReader

open Entries

/-- A piece CID by its text; the v1 CID of a v2 CID is missing where it cannot be computed. -/
inductive PieceCid where
  | v1 (text : String)
  | v2 (text : String) (pcid1 : Option String)
  | other (text : String)
  deriving DecidableEq

/-- An undefined CID has the empty text. -/
def getCacheKeys : PieceCid → List String
  | .v2 text pcid1 => [text, pcid1.getD ""]
  | .v1 text => [text]
  | .other _ => []

/-- `pieceCidKeyCache.Get`: the first key that is cached. -/
def cacheGet {α : Type} (cache : KeyMap String α) (pieceCid : PieceCid) : Option α :=
  (getCacheKeys pieceCid).findSome? cache.get

def cacheSet {α : Type} (cache : KeyMap String α) (pieceCid : PieceCid) (data : α) :
    KeyMap String α :=
  (getCacheKeys pieceCid).foldl (fun cache key => cache.put key data) cache

/-- `cachedSectionReader`; `closes` counts the calls of `reader.Close`. Until `reader` is set,
`cancel` is nil as well. -/
structure SectionReader where
  pieceCid : PieceCid
  reader : Bool := false
  ready : Bool := false
  err : Option String := none
  refs : Int
  expired : Bool := false
  closes : Nat := 0

namespace SectionReader

/-- Calling a nil `cancel` panics. -/
def closeUnderlying (r : SectionReader) : Option SectionReader :=
  if r.reader then some { r with closes := r.closes + 1 } else none

/-- `cachedSectionReader.Close` -/
def close (r : SectionReader) : Option SectionReader :=
  if r.refs - 1 = 0 ∧ r.expired = true then closeUnderlying { r with refs := r.refs - 1 }
  else some { r with refs := r.refs - 1 }

/-- `expireCallback` -/
def expire (r : SectionReader) : Option SectionReader :=
  if r.refs ≤ 0 then closeUnderlying { r with expired := true }
  else some { r with expired := true }

end SectionReader

/-- Where a call of `GetSharedPieceReader` is; readers are numbered as they are made. -/
inductive CallState where
  | creating (id : Nat)
  | failing (id : Nat) (finalErr : String)
  | abandoned (id : Nat)
  | waiting (id : Nat)
  | handle (id : Nat)
  | ended
  deriving DecidableEq

def CallState.reader : CallState → Option Nat
  | .creating id => some id
  | .failing id _ => some id
  | .abandoned id => some id
  | .waiting id => some id
  | .handle id => some id
  | .ended => none

structure State where
  readers : List SectionReader
  pieceReaderCache : KeyMap String Nat
  pieceErrorCache : KeyMap String String
  callbacks : List Nat
  calls : List CallState

inductive Action where
  | get (pieceCid : PieceCid)
  | created (index : Nat)
  | createFailed (index : Nat) (finalErr : String)
  | removeFailed (index : Nat)
  | wake (index : Nat)
  | cancel (index : Nat)
  | close (index : Nat)
  | evict (key : String)
  | callback (id : Nat)
  | evictError (key : String)

namespace State

def setReader (state : State) (id : Nat) (r : SectionReader) : State :=
  { state with readers := state.readers.set id r }

def setCall (state : State) (index : Nat) (call : CallState) : State :=
  { state with calls := state.calls.set index call }

def dropKey (state : State) (key : String) : State :=
  match state.pieceReaderCache.get key with
  | none => state
  | some id => { state with
      pieceReaderCache := state.pieceReaderCache.remove key
      callbacks := state.callbacks ++ [id] }

/-- `pieceCidKeyCache.Remove` on the cache of readers. -/
def removeKeys (state : State) (pieceCid : PieceCid) : State :=
  (getCacheKeys pieceCid).foldl dropKey state

/-- `GetSharedPieceReader` up to the point where it creates a reader or waits for one. -/
def get (state : State) (pieceCid : PieceCid) : Option State :=
  match cacheGet state.pieceErrorCache pieceCid with
  | some _ => some { state with calls := state.calls ++ [.ended] }
  | none =>
    match cacheGet state.pieceReaderCache pieceCid with
    | none => some { state with
        readers := state.readers ++ [{ pieceCid := pieceCid, refs := 1 }]
        pieceReaderCache := cacheSet state.pieceReaderCache pieceCid state.readers.length
        calls := state.calls ++ [.creating state.readers.length] }
    | some id =>
      match state.readers[id]? with
      | none => none
      | some r => some { state.setReader id { r with refs := r.refs + 1 } with
          calls := state.calls ++ [.waiting id] }

def giveBack (state : State) (index id : Nat) : Option State :=
  match state.readers[id]? with
  | none => none
  | some r => r.close.map fun closed => (state.setReader id closed).setCall index .ended

def step (state : State) : Action → Option State
  | .get pieceCid => state.get pieceCid
  | .created index =>
    match state.calls[index]? with
    | some (.creating id) =>
      match state.readers[id]? with
      | some r => some
          ((state.setReader id { r with reader := true, ready := true }).setCall index
            (.handle id))
      | none => none
    | _ => none
  | .createFailed index finalErr =>
    match state.calls[index]? with
    | some (.creating id) =>
      match state.readers[id]? with
      | some r => some { state.setCall index (.failing id finalErr) with
          pieceErrorCache := cacheSet state.pieceErrorCache r.pieceCid finalErr }
      | none => none
    | _ => none
  | .removeFailed index =>
    match state.calls[index]? with
    | some (.failing id finalErr) =>
      match state.readers[id]? with
      | some r => some
          (((state.removeKeys r.pieceCid).setReader id
            { r with err := some finalErr, ready := true }).setCall index (.abandoned id))
      | none => none
    | _ => none
  | .wake index =>
    match state.calls[index]? with
    | some (.waiting id) =>
      match state.readers[id]? with
      | some r =>
        if r.ready then
          match r.err with
          | none => some (state.setCall index (.handle id))
          | some _ => state.giveBack index id
        else none
      | none => none
    | _ => none
  | .cancel index =>
    match state.calls[index]? with
    | some (.waiting id) => state.giveBack index id
    | _ => none
  | .close index =>
    match state.calls[index]? with
    | some (.handle id) => state.giveBack index id
    | _ => none
  | .evict key =>
    match state.pieceReaderCache.get key with
    | some _ => some (state.dropKey key)
    | none => none
  | .callback id =>
    if id ∈ state.callbacks then
      match state.readers[id]? with
      | some r => r.expire.map fun expired =>
        { state.setReader id expired with callbacks := state.callbacks.erase id }
      | none => none
    else none
  | .evictError key => some { state with pieceErrorCache := state.pieceErrorCache.remove key }

def initial : State := ⟨[], .empty, .empty, [], []⟩

end State

end Curio.CachedReader
