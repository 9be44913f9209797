import Mathlib.Tactic

/-! `expireStalePullItems` of `tasks/pdpv0/task_pull_piece.go`: its transaction may be tried several
times, each time on the database as it is then. Times are in seconds. -/

namespace Curio.Pdp.Pull

structure Item where
  createdAt : Nat
  (complete failed : Bool := false)
  (taskId parkedPieceRef pullParkedPieceId : Option Nat := none)

structure ParkedPiece where
  id : Nat
  (complete skip : Bool)

/-- `refs` are the rows of `parked_piece_refs` with their pieces, `pdpRefs` the references in
`pdp_piecerefs`. -/
structure Database where
  items : List Item
  pieces : List ParkedPiece
  refs : List (Nat × Nat) := []
  pdpRefs : List Nat := []

variable (now : Nat)

namespace Item

variable (item : Item)

def isOpen : Bool := !item.complete && !item.failed

def stale : Bool := item.isOpen && item.taskId.isNone && decide (item.createdAt + 1800 < now)

/-- A failed item that still has references. -/
def orphaned : Bool := !item.complete && item.failed && item.taskId.isNone &&
  (item.parkedPieceRef.isSome || item.pullParkedPieceId.isSome)

end Item

namespace Database

variable (db : Database)

/-- The rows of the two queries. -/
def expiring : List Item := db.items.filter fun item => item.stale now || item.orphaned

def pieceIDs : List Nat := (db.expiring now).filterMap Item.pullParkedPieceId

/-- After the two updates and the deletion of the references. -/
def detached : Database :=
  let items := db.items.map fun item =>
    if item.stale now then
      { item with failed := true, taskId := none, parkedPieceRef := none, pullParkedPieceId := none }
    else if item.orphaned then { item with parkedPieceRef := none, pullParkedPieceId := none }
    else item
  { db with
    items
    refs := db.refs.filter fun ref =>
      ¬ (ref.1 ∈ (db.expiring now).filterMap Item.parkedPieceRef ∧ ref.1 ∉ db.pdpRefs ∧
        ∀ item ∈ items, item.isOpen → item.parkedPieceRef ≠ some ref.1) }

/-- The condition of the last `DELETE`. -/
def deletable (piece : ParkedPiece) : Bool :=
  piece.id ∈ db.pieceIDs now ∧ ¬ piece.complete ∧ piece.skip ∧
    ∀ ref ∈ (db.detached now).refs, ref.2 ≠ piece.id

/-- The transaction, with the ids that the last `DELETE` returns if it gets there. -/
def expireStalePullItems : Database × Option (List Nat) :=
  if db.pieceIDs now = [] then (db.detached now, none)
  else
    ({ db.detached now with
       pieces := (db.pieces.filter fun piece => ¬ db.deletable now piece).map fun piece =>
         if piece.id ∈ db.pieceIDs now ∧ ¬ piece.complete ∧ piece.skip
         then { piece with skip := false } else piece },
     some ((db.pieces.filter (db.deletable now)).map ParkedPiece.id))

end Database

open Database

/-- An attempt that is retried: `read` rows of its last `DELETE` are scanned if it gets there. -/
structure Attempt where
  now : Nat
  db : Database
  read : Option Nat

def Attempt.reaches (attempt : Attempt) : Bool :=
  attempt.read.isSome && attempt.db.pieceIDs attempt.now ≠ []

/-- The last `DELETE` gives the attempt no row. -/
def Attempt.Empty (attempt : Attempt) : Prop :=
  attempt.read = some 0 ∨ ∀ piece ∈ attempt.db.pieces, ¬ attempt.db.deletable attempt.now piece

section

variable (select : List Nat → List Nat → List Nat)

/-- What `removedPieces` holds after some attempts: it is declared outside of the closure. `select` is
what `tx.Select` makes of a slice and the rows that it scans into it. -/
def removedPieces (attempts : List Attempt) : List Nat :=
  attempts.foldl (fun removed attempt =>
    match attempt.read, (attempt.db.expireStalePullItems attempt.now).2 with
    | some read, some ids => select removed (ids.take read)
    | _, _ => removed) []

/-- The files removed when an attempt on `db` commits. -/
def removedFiles (earlier : List Attempt) (now : Nat) (db : Database) : List Nat :=
  match (db.expireStalePullItems now).2 with
  | some ids => select (removedPieces select earlier) ids
  | none => removedPieces select earlier

end

variable {select : List Nat → List Nat → List Nat}

theorem removedPieces_concat (replaces : ∀ slice rows, select slice rows = rows)
    {attempts : List Attempt} {attempt : Attempt} :
    removedPieces select (attempts ++ [attempt]) = [] ↔
      if attempt.reaches then attempt.Empty else removedPieces select attempts = [] := by
  rw [removedPieces, List.foldl_append, ← removedPieces, List.foldl_cons, List.foldl_nil]
  cases reads : attempt.read with
  | none => simp [Attempt.reaches, reads]
  | some read =>
    by_cases nothing : attempt.db.pieceIDs attempt.now = []
    · simp [Attempt.reaches, expireStalePullItems, nothing]
    · simp [Attempt.reaches, Attempt.Empty, expireStalePullItems, nothing, reads, replaces]

theorem removedPieces_eq_nil (replaces : ∀ slice rows, select slice rows = rows)
    {attempts : List Attempt} : removedPieces select attempts = [] ↔
      ∀ last, attempts.reverse.find? Attempt.reaches = some last → last.Empty := by
  induction attempts using List.reverseRecOn with
  | nil => simp [removedPieces]
  | append_singleton rest attempt ih =>
    rw [removedPieces_concat replaces, List.reverse_append, List.reverse_singleton,
      List.singleton_append, List.find?_cons]
    cases attempt.reaches with
    | true => simp
    | false => simpa using ih

/-- For a `tx.Select` that replaces what the slice held. -/
theorem removed_files_iff (replaces : ∀ slice rows, select slice rows = rows)
    (earlier : List Attempt) (now : Nat) (db : Database) :
    removedFiles select earlier now db = (db.expireStalePullItems now).2.getD [] ↔
      db.pieceIDs now ≠ [] ∨
        ∀ last, earlier.reverse.find? Attempt.reaches = some last → last.Empty := by
  rw [← removedPieces_eq_nil replaces]
  by_cases nothing : db.pieceIDs now = []
  · simp [removedFiles, expireStalePullItems, nothing]
  · simp [removedFiles, expireStalePullItems, nothing, replaces]

/-- Between two attempts the failed item is gone and its piece has become complete. -/
theorem removed_files_retried :
    let first : Database := ⟨[⟨0, false, true, none, none, some 5⟩], [⟨5, false, true⟩], [], []⟩
    let second : Database := ⟨[], [⟨5, true, true⟩], [], []⟩
    let files := removedFiles (fun _ rows => rows) [⟨8, first, some 1⟩] 9 second
    files = [5] ∧ files ≠ (second.expireStalePullItems 9).2.getD [] ∧
      ∃ last, [⟨8, first, some 1⟩].reverse.find? Attempt.reaches = some last ∧ ¬ last.Empty := by
  intro first second files
  have differ : files ≠ (second.expireStalePullItems 9).2.getD [] := by decide
  refine ⟨by decide, differ, ?_⟩
  have reached := mt (removed_files_iff (fun _ _ => rfl) [⟨8, first, some 1⟩] 9 second).mpr differ
  push Not at reached
  exact reached.2

end Curio.Pdp.Pull
