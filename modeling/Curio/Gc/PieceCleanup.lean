import Curio.Entries

/-! Cleaning up one deal of a piece: `PieceCleanupTask.Do` of `tasks/gc/task_cleanup_piece.go`, with
`UniqNoAllocByteArray` of `lib/lists/lists.go` as it is, and when no other deal on the piece loses
what it needs by it. -/

namespace Curio.Gc.PieceCleanup

open Entries List

def less (list : List Nat) (i j : Nat) : Bool := list.getD i 0 < list.getD j 0

/-- The loop that cleans up the end; `true` where it breaks out of the loop around it. -/
def cleanEnd (list : List Nat) (i : Nat) : Nat → Nat × Bool
  | 0 => (0, true)
  | j + 1 => if less list j (j + 1) then (j + 1, false)
      else if j ≤ i then (j, true) else cleanEnd list i j

def uniqLoop : Nat → List Nat → Nat → Nat → Nat → List Nat × Nat
  | 0, list, _, _, j => (list, j)
  | fuel + 1, list, matchTarget, i, j =>
    if j < i then (list, j)
    else if !less list matchTarget i && !less list i matchTarget then
      match cleanEnd list i j with
      | (j, true) => (list, j)
      | (j, false) => uniqLoop fuel (list.set i (list.getD j 0)) matchTarget (i + 1) (j - 1)
    else uniqLoop fuel list i (i + 1) j

def trimEnd (list : List Nat) : Nat → Nat
  | 0 => 0
  | j + 1 => if less list j (j + 1) then j + 1 else trimEnd list j

/-- `UniqNoAllocByteArray`, on the ids as numbers. -/
def uniq (list : List Nat) : List Nat :=
  if list.length < 2 then list
  else
    let (list, j) := uniqLoop list.length (list.mergeSort (· ≤ ·)) 0 1 (list.length - 1)
    list.take (trimEnd list j + 1)

section Model

inductive DealId where
  | mk12 (uuid : Nat)
  | mk20 (ulid : Nat)
  | other (text : String)
  deriving DecidableEq

structure Retrieval where
  indexing : Bool
  announcePiece : Bool
  announcePayload : Bool

structure Deal where
  ddoV1 : Bool
  pdpV1 : Bool
  retrievalV1 : Option Retrieval

structure PieceDeal where
  id : DealId
  spId : Int
  deriving DecidableEq

/-- A row of `piece_cleanup` behind its key, the deal id and `pdp`. -/
structure CleanupRow where
  spId : Int
  pieceRef : Option Nat
  cleanupTaskId : Option Nat
  afterCleanup : Bool
  announce : Bool := false
  announcePayload : Bool := false

structure Task where
  id : DealId
  pdp : Bool
  spId : Int
  pieceRef : Option Nat
  deriving DecidableEq

inductive Op where
  | ipniRemoval (rmPiece rmPayload : Bool)
  | removeIndexes (v2 : Bool)
  | removeAggregateIndex
  | deletePDPLayer
  | commit
  deriving DecidableEq

structure World where
  pieceDeals : List PieceDeal
  cleanup : KeyMap (DealId × Bool) CleanupRow
  pieceRefs : List Nat
  performed : List Op

variable (deals : Nat → Option Deal)

/-- A loop over other deals: the flags, and where it stops. -/
def scan (stop first second : Deal → Bool) : List Nat → Bool × Bool → Option (Bool × Bool)
  | [], flags => some flags
  | ulid :: rest, (a, b) => (deals ulid).bind fun deal =>
    if stop deal then some (a && !first deal, b && !second deal)
    else scan stop first second rest (a && !first deal, b && !second deal)

def Deal.retrieves (deal : Deal) (wants : Retrieval → Bool) : Bool := deal.retrievalV1.any wants

def Deal.ddo (wants : Retrieval → Bool) (deal : Deal) : Bool := deal.ddoV1 && deal.retrieves wants

def Deal.pdp (wants : Retrieval → Bool) (deal : Deal) : Bool := deal.pdpV1 && deal.retrieves wants

inductive Decision where
  | failed
  | wait
  | finished
  | clean (removal : Option (Bool × Bool)) (dropIndex : Bool)

def mk12? : DealId → Option Nat
  | .mk12 uuid => some uuid
  | _ => none

def mk20? : DealId → Option Nat
  | .mk20 ulid => some ulid
  | _ => none

def others (task : Task) (pieceDeals : List PieceDeal) : List DealId :=
  (pieceDeals.map PieceDeal.id).filter (· ≠ task.id)

def decideSingle (task : Task) (pieceDeal : PieceDeal) : Decision :=
  if task.id ≠ pieceDeal.id then .failed
  else match task.id with
    | .other _ => .failed
    | .mk12 _ => .clean (some (false, true)) true
    | .mk20 ulid => match deals ulid with
        | none => .failed
        | some deal => match deal.retrievalV1 with
            | none => .finished
            | some retv =>
              .clean (some (if task.pdp then (retv.announcePiece, retv.announcePayload)
                else (false, true))) true

def decideMany (task : Task) (mk12List mk20List : List Nat) : Decision :=
  match task.id with
  | .other _ => .failed
  | .mk12 _ =>
    let alone := decide (mk12List.length ≤ 1)
    match scan deals (Deal.ddo (·.announcePayload)) (Deal.ddo (·.indexing))
        (Deal.ddo (·.announcePayload)) mk20List (alone, alone) with
    | none => .failed
    | some (dropIndex, rmAnnounce) =>
      .clean (if rmAnnounce then some (false, true) else none) dropIndex
  | .mk20 _ =>
    if task.pdp then
      match scan deals (fun _ => false) (Deal.pdp (·.announcePiece))
          (Deal.pdp (·.announcePayload)) mk20List (true, true) with
      | none => .failed
      | some flags => .clean (some flags) true
    else
      match scan deals (fun _ => false) (Deal.ddo (!·.indexing)) (Deal.ddo (!·.announcePayload))
          mk20List (true, mk12List.isEmpty) with
      | none => .failed
      | some (dropIndex, rmAnnounce) =>
        .clean (if rmAnnounce then some (false, true) else none) dropIndex

/-- The part of `Do` that decides, on the rows of the piece. -/
def decision (task : Task) : List PieceDeal → Decision
  | [] => .wait
  | [pieceDeal] => decideSingle deals task pieceDeal
  | pieceDeals =>
    if (others task pieceDeals).any (fun id => (mk12? id).isNone && (mk20? id).isNone) then
      .failed
    else decideMany deals task (uniq ((others task pieceDeals).filterMap mk12?))
      (uniq ((others task pieceDeals).filterMap mk20?))

def Task.ownRow (task : Task) : PieceDeal := ⟨task.id, if task.pdp then -1 else task.spId⟩

namespace World

def apply (w : World) (taskId : Nat) (task : Task) : Op → Option World
  | .ipniRemoval rmPiece rmPayload => (w.cleanup.get (task.id, task.pdp)).map fun row =>
    { w with
      cleanup := w.cleanup.put (task.id, task.pdp)
        ({ row with announce := rmPiece, announcePayload := rmPayload }) }
  | .commit =>
    if task.ownRow ∈ w.pieceDeals then
      some { w with
        pieceDeals := w.pieceDeals.filter (· ≠ task.ownRow)
        pieceRefs := w.pieceRefs.filter fun ref => task.pieceRef ≠ some ref
        cleanup := w.cleanup.update fun _ row =>
          if row.cleanupTaskId = some taskId then
            { row with cleanupTaskId := none, afterCleanup := true }
          else row }
    else none
  | _ => some w

def perform (failing : Option Op) (taskId : Nat) (task : Task) : List Op → World → Bool × World
  | [], w => (true, w)
  | op :: rest, w =>
    if failing = some op then (false, w)
    else match w.apply taskId task op with
      | none => (false, w)
      | some next => perform failing taskId task rest
          { next with performed := next.performed ++ [op] }

def shouldDropCache (w : World) (task : Task) : Bool :=
  !w.pieceDeals.any fun row => row.id ≠ task.id && row.spId == -1

def operations (w : World) (task : Task) (removal : Option (Bool × Bool)) (dropIndex : Bool) :
    List Op :=
  (removal.map fun flags => Op.ipniRemoval flags.1 flags.2).toList ++
    (if dropIndex then [.removeIndexes true, .removeIndexes false, .removeAggregateIndex]
      else []) ++
    (if w.shouldDropCache task then [.deletePDPLayer] else []) ++ [.commit]

def tasks (w : World) (taskId : Nat) : List Task :=
  (w.cleanup.entries.filter fun entry =>
    entry.2.cleanupTaskId = some taskId && !entry.2.afterCleanup).map fun entry =>
      ⟨entry.1.1, entry.1.2, entry.2.spId, entry.2.pieceRef⟩

/-- `PieceCleanupTask.Do`, where one operation may fail. -/
def Do (w : World) (taskId : Nat) (failing : Option Op) : Bool × World :=
  let w := { w with performed := [] }
  match w.tasks taskId with
  | [task] => match decision deals task w.pieceDeals with
      | .failed | .wait => (false, w)
      | .finished => (true, w)
      | .clean removal dropIndex =>
        w.perform failing taskId task (w.operations task removal dropIndex)
  | _ => (false, w)

end World

end Model

variable (deals : Nat → Option Deal)

/-- Another deal needs the index: an MK12 deal, or an MK20 deal that asks for indexing. -/
def NeedsIndex : DealId → Prop
  | .mk12 _ => True
  | .mk20 ulid => ∃ deal, deals ulid = some deal ∧ deal.retrieves (·.indexing) = true
  | .other _ => False

/-- Another deal of the same kind announces the payload; MK12 deals are PoRep deals. -/
def NeedsPayload (pdp : Bool) : DealId → Prop
  | .mk12 _ => pdp = false
  | .mk20 ulid => ∃ deal, deals ulid = some deal ∧
      (if pdp then deal.pdp (·.announcePayload) else deal.ddo (·.announcePayload)) = true
  | .other _ => False

def NeedsPiece : DealId → Prop
  | .mk20 ulid => ∃ deal, deals ulid = some deal ∧ deal.pdp (·.announcePiece) = true
  | _ => False

/-- No other deal loses what it needs, and a cleanup that is done has removed its own rows. -/
structure Lawful (rows : List PieceDeal) (task : Task) (result : Bool × World) : Prop where
  index : (∃ v2, .removeIndexes v2 ∈ result.2.performed) ∨
    .removeAggregateIndex ∈ result.2.performed → ∀ id ∈ others task rows, ¬ NeedsIndex deals id
  payload : ∀ rmPiece, .ipniRemoval rmPiece true ∈ result.2.performed →
    ∀ id ∈ others task rows, ¬ NeedsPayload deals task.pdp id
  piece : ∀ rmPayload, .ipniRemoval true rmPayload ∈ result.2.performed →
    ∀ id ∈ others task rows, ¬ NeedsPiece deals id
  cache : .deletePDPLayer ∈ result.2.performed → ∀ row ∈ rows, row.id ≠ task.id → row.spId ≠ -1
  ended : result.1 = true → task.ownRow ∉ result.2.pieceDeals ∧
    ∀ row, result.2.cleanup.get (task.id, task.pdp) = some row → row.afterCleanup = true

def seen (stop : Deal → Bool) : List Nat → List Nat
  | [] => []
  | ulid :: rest => if (deals ulid).any stop then [ulid] else ulid :: seen stop rest

def Has (list : List Nat) (wants : Deal → Bool) : Prop :=
  ∃ ulid ∈ list, (deals ulid).any wants = true

theorem scan_eq (stop first second : Deal → Bool) (list : List Nat) (a b : Bool) :
    scan deals stop first second list (a, b) =
      if (seen deals stop list).all (fun ulid => (deals ulid).isSome) then
        some (a && !(seen deals stop list).any (fun ulid => (deals ulid).any first),
          b && !(seen deals stop list).any (fun ulid => (deals ulid).any second))
      else none := by
  induction list generalizing a b with
  | nil => simp [scan, seen]
  | cons ulid rest ih => cases found : deals ulid <;> grind [scan, seen]

/-- What the piece's rows must be like for the cleanup to be lawful. -/
def SafeMany (task : Task) (ids : List DealId) (mk12List mk20List : List Nat) : Prop :=
  match task.id with
  | .other _ => True
  | .mk12 _ =>
    let read := seen deals (Deal.ddo (·.announcePayload)) mk20List
    (∀ ulid ∈ read, (deals ulid).isSome) →
      ((∃ id ∈ ids, NeedsIndex deals id) →
        1 < mk12List.length ∨ Has deals read (Deal.ddo (·.indexing))) ∧
      ((∃ id ∈ ids, NeedsPayload deals task.pdp id) →
        1 < mk12List.length ∨ Has deals read (Deal.ddo (·.announcePayload)))
  | .mk20 _ => (∀ ulid ∈ mk20List, (deals ulid).isSome) →
      if task.pdp then
        (∀ id ∈ ids, ¬ NeedsIndex deals id) ∧
        ((∃ id ∈ ids, NeedsPayload deals true id) →
          Has deals mk20List (Deal.pdp (·.announcePayload))) ∧
        ((∃ id ∈ ids, NeedsPiece deals id) → Has deals mk20List (Deal.pdp (·.announcePiece)))
      else
        ((∃ id ∈ ids, NeedsIndex deals id) → Has deals mk20List (Deal.ddo (!·.indexing))) ∧
        ((∃ id ∈ ids, NeedsPayload deals false id) →
          mk12List ≠ [] ∨ Has deals mk20List (Deal.ddo (!·.announcePayload)))

def Safe (task : Task) : List PieceDeal → Prop
  | [] => True
  | [pieceDeal] => ∀ ulid deal, task.id = .mk20 ulid → pieceDeal.id = task.id →
      deals ulid = some deal → deal.retrievalV1 ≠ none
  | pieceDeals => (∀ id ∈ others task pieceDeals, (mk12? id).isSome ∨ (mk20? id).isSome) →
      SafeMany deals task (others task pieceDeals)
        (uniq ((others task pieceDeals).filterMap mk12?))
        (uniq ((others task pieceDeals).filterMap mk20?))

variable {deals} {w : World} {taskId : Nat} {task : Task} {failing : Option Op} {ops : List Op}

theorem mem_performed {op : Op} (member : op ∈ (w.perform failing taskId task ops).2.performed) :
    op ∈ w.performed ∨ op ∈ ops := by
  induction ops generalizing w with
  | nil => exact .inl member
  | cons first rest ih =>
    have kept : ∀ next, w.apply taskId task first = some next → next.performed = w.performed := by
      cases first <;> grind [World.apply, Option.map_eq_some_iff]
    grind [World.perform]

def Owned (w : World) (taskId : Nat) (task : Task) : Prop :=
  ∃ row, w.cleanup.get (task.id, task.pdp) = some row ∧ row.cleanupTaskId = some taskId

section

variable (owned : Owned w taskId task)
include owned

theorem apply_owned {op : Op} (before : op ≠ .commit) :
    ∃ next, w.apply taskId task op = some next ∧ Owned next taskId task ∧
      next.performed = w.performed := by
  obtain ⟨row, present, number⟩ := owned
  cases op <;> simp_all [World.apply, Owned, KeyMap.get_put]

theorem performed_before (before : .commit ∉ ops) :
    (w.perform (some .commit) taskId task (ops ++ [.commit])).2.performed = w.performed ++ ops := by
  induction ops generalizing w with
  | nil => simp [World.perform]
  | cons op rest ih =>
    rw [mem_cons, not_or] at before
    obtain ⟨next, applied, kept, same⟩ := apply_owned owned (Ne.symm before.1)
    have later := ih (w := { next with performed := next.performed ++ [op] }) kept before.2
    simpa [World.perform, applied, before.1, same] using later

theorem perform_done (before : .commit ∉ ops)
    (done : (w.perform failing taskId task (ops ++ [.commit])).1 = true) :
    task.ownRow ∉ (w.perform failing taskId task (ops ++ [.commit])).2.pieceDeals ∧
      ∀ row, (w.perform failing taskId task (ops ++ [.commit])).2.cleanup.get (task.id, task.pdp) =
        some row → row.afterCleanup = true := by
  induction ops generalizing w with
  | nil =>
    obtain ⟨row, present, number⟩ := owned
    by_cases works : failing = some .commit
    · simp [World.perform, works] at done
    · by_cases own : task.ownRow ∈ w.pieceDeals
      · simp only [nil_append, World.perform, if_neg works, World.apply, if_pos own]
        refine ⟨by simp, fun after got => ?_⟩
        obtain ⟨old, member, rfl⟩ := KeyMap.mem_update.mp (KeyMap.get_eq_some.mp got)
        cases present.symm.trans (KeyMap.get_eq_some.mpr member)
        simp [number]
      · simp [World.perform, World.apply, own] at done
  | cons op rest ih =>
    rw [mem_cons, not_or] at before
    obtain ⟨next, applied, kept, -⟩ := apply_owned owned (Ne.symm before.1)
    by_cases works : failing = some op
    · simp [World.perform, works] at done
    · grind [World.perform, Owned]

end

theorem operations_eq (w : World) (task : Task) (removal : Option (Bool × Bool)) (dropIndex : Bool) :
    ∃ ops, w.operations task removal dropIndex = ops ++ [.commit] ∧
      .commit ∉ ops ∧
      (∀ rmPiece rmPayload, .ipniRemoval rmPiece rmPayload ∈ ops ↔
        removal = some (rmPiece, rmPayload)) ∧
      ((∃ v2, .removeIndexes v2 ∈ ops) ∨ .removeAggregateIndex ∈ ops ↔ dropIndex = true) ∧
      (.deletePDPLayer ∈ ops ↔ w.shouldDropCache task = true) := by
  refine ⟨_, rfl, ?_⟩
  cases removal <;> cases dropIndex <;> cases w.shouldDropCache task <;> simp <;> grind

theorem clean_lawful_iff (owned : Owned w taskId task) (fresh : w.performed = [])
    (removal : Option (Bool × Bool)) (dropIndex : Bool) :
    (∀ failing, Lawful deals w.pieceDeals task (w.perform failing taskId task
      (w.operations task removal dropIndex))) ↔
      (dropIndex = true → ∀ id ∈ others task w.pieceDeals, ¬ NeedsIndex deals id) ∧
      (∀ rmPiece rmPayload, removal = some (rmPiece, rmPayload) →
        (rmPayload = true → ∀ id ∈ others task w.pieceDeals, ¬ NeedsPayload deals task.pdp id) ∧
        (rmPiece = true → ∀ id ∈ others task w.pieceDeals, ¬ NeedsPiece deals id)) := by
  obtain ⟨ops, isOps, before, removes, drops, caches⟩ := operations_eq w task removal dropIndex
  rw [isOps]
  constructor
  · intro lawful
    obtain ⟨index, payload, piece, -, -⟩ := lawful (some .commit)
    rw [performed_before owned before] at index payload piece
    grind
  · rintro ⟨index, announced⟩ failing
    have performed (op : Op) (member : op ∈ (w.perform failing taskId task
        (ops ++ [.commit])).2.performed) : op ∈ ops ∨ op = .commit := by
      simpa [fresh] using mem_performed member
    refine ⟨by grind, by grind, by grind, ?_, perform_done owned before⟩
    grind [World.shouldDropCache]

theorem row_of_tasks (selected : w.tasks taskId = [task]) :
    ∃ row, w.cleanup.get (task.id, task.pdp) = some row ∧ row.cleanupTaskId = some taskId ∧
      row.afterCleanup = false := by
  have member : task ∈ w.tasks taskId := by simp [selected]
  obtain ⟨entry, kept, rfl⟩ := mem_map.mp member
  obtain ⟨inside, owned⟩ := mem_filter.mp kept
  exact ⟨entry.2, KeyMap.get_eq_some.mpr inside, by simpa using owned⟩

def Decision.Spares (deals : Nat → Option Deal) (task : Task) (ids : List DealId) : Decision → Prop
  | .failed | .wait => True
  | .finished => False
  | .clean removal dropIndex =>
    (dropIndex = true → ∀ id ∈ ids, ¬ NeedsIndex deals id) ∧
    (∀ rmPiece rmPayload, removal = some (rmPiece, rmPayload) →
      (rmPayload = true → ∀ id ∈ ids, ¬ NeedsPayload deals task.pdp id) ∧
      (rmPiece = true → ∀ id ∈ ids, ¬ NeedsPiece deals id))

theorem Do_lawful_iff (selected : w.tasks taskId = [task]) :
    (∀ failing, Lawful deals w.pieceDeals task (w.Do deals taskId failing)) ↔
      (decision deals task w.pieceDeals).Spares deals task (others task w.pieceDeals) := by
  obtain ⟨row, present, number, unfinished⟩ := row_of_tasks selected
  have start : ({ w with performed := [] } : World).tasks taskId = [task] := selected
  unfold World.Do
  simp only [start]
  cases decision deals task w.pieceDeals with
  | failed | wait => exact iff_of_true (fun _ => by constructor <;> simp) trivial
  | finished =>
    refine iff_of_false (fun lawful => ?_) id
    have marked := ((lawful none).ended rfl).2 row present
    simp [unfinished] at marked
  | clean removal dropIndex =>
    exact clean_lawful_iff (w := { w with performed := [] }) ⟨row, present, number⟩ rfl _ _

theorem any_eq_true {list : List Nat} {wants : Deal → Bool} :
    list.any (fun ulid => (deals ulid).any wants) = true ↔ Has deals list wants := by
  simp [Has]

theorem spares_many_iff {ids : List DealId} {mk12List mk20List : List Nat} :
    (decideMany deals task mk12List mk20List).Spares deals task ids ↔
      SafeMany deals task ids mk12List mk20List := by
  have all (list : List Nat) : seen deals (fun _ => false) list = list := by
    induction list with
    | nil => rfl
    | cons ulid rest ih => simp [seen, ih]
  unfold decideMany SafeMany
  split
  · simp [Decision.Spares]
  · dsimp only
    rw [scan_eq]
    simp only [all_eq_true]
    split_ifs with known
    · grind [Decision.Spares, any_eq_true]
    · simp [Decision.Spares, known]
  · simp only [scan_eq, all, all_eq_true]
    split_ifs with pdp known known
    · grind [Decision.Spares, any_eq_true]
    · simp [Decision.Spares, known]
    · grind [Decision.Spares, any_eq_true]
    · simp [Decision.Spares, known]

/-- A cleanup that fails anywhere or nowhere is lawful exactly if the rows of the piece are safe. -/
theorem cleanup_lawful_iff (deals : Nat → Option Deal) (w : World) (taskId : Nat) :
    (∀ task, w.tasks taskId = [task] → ∀ failing,
      Lawful deals w.pieceDeals task (w.Do deals taskId failing)) ↔
      ∀ task, w.tasks taskId = [task] → Safe deals task w.pieceDeals := by
  refine forall₂_congr fun task selected => ?_
  rw [Do_lawful_iff selected]
  match w.pieceDeals with
  | [] => simp [decision, Decision.Spares, Safe]
  | [pieceDeal] =>
    have alone : pieceDeal.id = task.id → others task [pieceDeal] = [] := by simp [others]
    simp only [decision, decideSingle, Safe]
    grind [Decision.Spares]
  | first :: second :: rest =>
    have kinds (id : DealId) : (mk12? id).isNone = true ∧ (mk20? id).isNone = true ↔
        ¬ ((mk12? id).isSome = true ∨ (mk20? id).isSome = true) := by
      cases id <;> simp
    simp only [decision, Safe]
    split
    · simp only [Decision.Spares]
      grind
    · rw [spares_many_iff]
      grind

def sharedPiece : World where
  pieceDeals := [⟨.mk12 1, 5⟩, ⟨.mk12 2, 5⟩]
  cleanup := KeyMap.empty.put (.mk12 1, false) ⟨5, none, some 7, false, false, false⟩
  pieceRefs := []
  performed := []

/-- The index of the second deal is gone. -/
theorem shared_index_dropped :
    sharedPiece.tasks 7 = [⟨.mk12 1, false, 5, none⟩] ∧
      .removeIndexes true ∈ (sharedPiece.Do (fun _ => none) 7 none).2.performed ∧
      ¬ Lawful (fun _ => none) sharedPiece.pieceDeals ⟨.mk12 1, false, 5, none⟩
        (sharedPiece.Do (fun _ => none) 7 none) := by
  have dropped : .removeIndexes true ∈ (sharedPiece.Do (fun _ => none) 7 none).2.performed := by
    decide
  exact ⟨by decide, dropped,
    fun lawful => lawful.index (.inl ⟨true, dropped⟩) (.mk12 2) (by decide) trivial⟩

end Curio.Gc.PieceCleanup
