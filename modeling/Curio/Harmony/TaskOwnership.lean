import Curio.Harmony.TaskTable

/-! Who owns a task while it runs. -/

namespace Curio.Harmony

open Entries GoRuntime StepMachine List

def Alive (db : Database) (machine : MachineId) : Prop :=
  ∃ row, (machine, row) ∈ db.machines.entries

def Owns (db : Database) (machine : MachineId) (task : TaskId) : Prop :=
  ∃ row, (task, row) ∈ db.tasks.entries ∧ row.ownerId = some machine

variable {failedTIDs tIDs locked accepted : List TaskId} {ownerID machine : MachineId}
  {h : TaskType} {tID task : TaskId} {done : Bool} {attempt : Attempt}

section Statements

variable {db after : Database} {machine : MachineId} {task : TaskId}
variable {now : Nat} {hostAndPort : String}

theorem Owns.update {change : TaskId → TaskRow → TaskRow} (owns : Owns db machine task)
    (tasks : after.tasks = db.tasks.update change)
    (kept : ∀ row, (task, row) ∈ db.tasks.entries → row.ownerId = some machine →
      (change task row).ownerId = row.ownerId) :
    Owns after machine task := by
  obtain ⟨row, member, owner⟩ := owns
  refine ⟨change task row, ?_, (kept row member owner).trans owner⟩
  rw [tasks]
  exact SerialTable.mem_update.mpr ⟨row, member, rfl⟩

theorem Alive.of_cleanup (alive : Alive (db.cleanupMachines now) machine) : Alive db machine := by
  obtain ⟨row, member⟩ := alive
  exact ⟨row, (SerialTable.mem_removeWhere.mp member).1⟩

theorem Owns.cleanup (owns : Owns db machine task)
    (alive : Alive (db.cleanupMachines now) machine) :
    Owns (db.cleanupMachines now) machine task := by
  obtain ⟨row, member⟩ := alive
  refine owns.update rfl fun task _ owner => ?_
  have present := SerialTable.get_eq_some.mpr member
  simp only [owner, Option.filter_some]
  rw [if_pos]
  exact Option.isSome_iff_exists.mpr ⟨row, present⟩

theorem upsertMachine_tasks (db : Database) (now : Nat) (hostAndPort : String) :
    (db.upsertMachine now hostAndPort).2.tasks = db.tasks := by
  unfold Database.upsertMachine
  split <;> rfl

theorem Alive.of_upsertMachine (alive : Alive (db.upsertMachine now hostAndPort).2 machine)
    (other : machine ≠ (db.upsertMachine now hostAndPort).1) : Alive db machine := by
  unfold Database.upsertMachine at alive other
  split at alive
  · obtain ⟨row, member⟩ := alive
    obtain ⟨old, present, _⟩ := SerialTable.mem_update.mp member
    exact ⟨old, present⟩
  · rename_i unknown
    rw [unknown] at other
    obtain ⟨row, member⟩ := alive
    rcases SerialTable.mem_insert.mp member with ⟨new, _⟩ | present
    · exact absurd new other
    · exact ⟨row, present⟩

theorem Alive.of_keepalive {refreshed : MachineId}
    (alive : Alive (db.keepalive now refreshed) machine) : Alive db machine := by
  obtain ⟨row, member⟩ := alive
  obtain ⟨old, present, _⟩ := SerialTable.mem_update.mp member
  exact ⟨old, present⟩

section

variable (owns : Owns db machine task)
include owns

theorem Owns.addTask {name : String} {addedBy : MachineId} :
    Owns (db.addTask now name addedBy) machine task := by
  obtain ⟨row, member, owner⟩ := owns
  exact ⟨row, SerialTable.mem_insert.mpr (.inr member), owner⟩

theorem Owns.resetOwner (other : task ∉ failedTIDs) :
    Owns (db.resetOwner failedTIDs) machine task :=
  owns.update rfl fun _ _ _ => by rw [if_neg other]

theorem Owns.removeSelfFromOwner {id : TaskId} (other : task = id → machine ≠ ownerID) :
    Owns (db.removeSelfFromOwner id ownerID) machine task := by
  refine owns.update rfl fun row _ owner => ?_
  grind

end

/-- What a claim that returned has done: each accepted task had no owner, and has this one now. -/
structure Claimed (db after : Database) (ownerID : MachineId) (accepted : List TaskId) : Prop where
  machines : after.machines = db.machines
  distinct : accepted.Nodup
  alive : accepted ≠ [] → Alive db ownerID
  free : ∀ task ∈ accepted, ∀ machine, ¬ Owns db machine task
  owns : ∀ task ∈ accepted, Owns after ownerID task
  kept : ∀ machine task, Owns db machine task → Owns after machine task

theorem candidates_free {limit : Nat} (accepted : task ∈ db.candidates tIDs locked limit) :
    ∃ row, (task, row) ∈ db.tasks.entries ∧ row.ownerId = none := by
  have sorted := mem_of_mem_take accepted
  have filtered := (mem_filter.mp ((mem_insertionSort _).mp sorted)).2
  rw [Bool.and_eq_true, Option.any_eq_true] at filtered
  obtain ⟨⟨row, got, free⟩, _⟩ := filtered
  exact ⟨row, SerialTable.get_eq_some.mp got, Option.isNone_iff_eq_none.mp free⟩

theorem claim_claimed
    {maxAcceptable : Nat} (returned : db.claim ownerID tIDs locked maxAcceptable =
      .ok (accepted, after)) : Claimed db after ownerID accepted := by
  simp only [Database.claim] at returned
  split at returned <;> cases returned
  · rename_i referenced
    have free : ∀ task ∈ (db.candidates tIDs locked maxAcceptable).dedup, ∀ machine,
        ¬ Owns db machine task := by
      rintro task member machine ⟨row, present, owner⟩
      obtain ⟨same, found, none⟩ := candidates_free (mem_dedup.mp member)
      rw [SerialTable.unique present found, none] at owner
      cases owner
    refine ⟨rfl, nodup_dedup _, fun some => ?_, free, fun task member => ?_, ?_⟩
    · obtain ⟨row, got⟩ := Option.ne_none_iff_exists'.mp fun gone => referenced ⟨some, gone⟩
      exact ⟨row, SerialTable.get_eq_some.mp got⟩
    · obtain ⟨row, found, _⟩ := candidates_free (mem_dedup.mp member)
      refine ⟨_, SerialTable.mem_update.mpr ⟨row, found, rfl⟩, ?_⟩
      rw [if_pos member]
    · intro machine task owns
      refine owns.update rfl fun _ _ _ => ?_
      grind

variable {workStart workEnd : Nat} {doErr : Option String}

theorem Owns.recordCompletion (owns : Owns db machine task)
    (returned : db.recordCompletion now h hostAndPort tID workStart workEnd done doErr = .ok after)
    (other : task ≠ tID) : Owns after machine task := by
  unfold Database.recordCompletion at returned
  split at returned <;> cases returned
  · rename_i row _
    by_cases drops : Database.dropsTask h done row.retries
    · obtain ⟨own, member, owner⟩ := owns
      refine ⟨own, ?_, owner⟩
      simp only [if_pos drops]
      exact SerialTable.mem_removeWhere.mpr ⟨member, decide_eq_false other⟩
    · exact owns.update (if_neg drops) fun _ _ _ => by rw [if_neg other]

theorem recordCompletion_machines
    (returned : db.recordCompletion now h hostAndPort tID workStart workEnd done doErr = .ok after) :
    after.machines = db.machines := by
  unfold Database.recordCompletion at returned
  split at returned <;> cases returned
  · rfl

end Statements

/-- A machine writes a row by its id only while no other machine owns it. -/
def FreeFor (db : Database) (machine : MachineId) (task : TaskId) : Prop :=
  ∀ row, (task, row) ∈ db.tasks.entries → row.ownerId = none ∨ row.ownerId = some machine

def OnlyOwnersWrite (state : Cluster) : ClusterAction → Prop
  | .complete machine task .. => FreeFor state.db machine task
  | .backOut machine failedTIDs _ => ∀ task ∈ failedTIDs, FreeFor state.db machine task
  | _ => True

instance (db : Database) (machine : MachineId) (task : TaskId) :
    Decidable (FreeFor db machine task) :=
  decidable_of_iff (∀ entry ∈ db.tasks.entries, entry.1 = task →
      entry.2.ownerId = none ∨ entry.2.ownerId = some machine)
    ⟨fun each row member => each (task, row) member rfl,
      fun free ⟨_, row⟩ member same => free row (same ▸ member)⟩

instance (state : Cluster) : (action : ClusterAction) → Decidable (OnlyOwnersWrite state action)
  | .complete machine task .. => inferInstanceAs (Decidable (FreeFor state.db machine task))
  | .backOut machine failedTIDs _ =>
    inferInstanceAs (Decidable (∀ task ∈ failedTIDs, FreeFor state.db machine task))
  | .tick _ | .start _ | .keepalive _ | .cleanup | .addTask .. | .claim .. | .doTask .. |
    .giveUp .. => isTrue trivial

theorem FreeFor.eq {db : Database} {other : MachineId} (free : FreeFor db machine task)
    (owns : Owns db other task) : other = machine := by
  grind [FreeFor, Owns]

def Attempt.key (attempt : Attempt) : MachineId × TaskId := (attempt.machine, attempt.task)

/-- Every machine that is alive owns the tasks it has claimed and not finished, and tries each of
them once. -/
structure RunsOwned (state : Cluster) : Prop where
  owns : ∀ attempt ∈ state.attempts, Alive state.db attempt.machine →
    Owns state.db attempt.machine attempt.task
  once : (state.attempts.map Attempt.key).Nodup

section Steps

variable {state next : Cluster}

theorem findAttempt_eq {ready : Stage → Bool}
    (found : state.findAttempt machine task ready = some attempt) :
    attempt ∈ state.attempts ∧ attempt.machine = machine ∧ attempt.task = task ∧
      ready attempt.stage = true := by
  grind [Cluster.findAttempt]

variable (sound : RunsOwned state)
include sound

theorem RunsOwned.other_of_erase {other : Attempt} (member : attempt ∈ state.attempts)
    (left : other ∈ state.attempts.erase attempt) :
    other.key ≠ attempt.key := by
  have split := (perm_cons_erase member).map Attempt.key
  have nodup := nodup_cons.mp (split.nodup_iff.mp sound.once)
  exact fun same => nodup.1 (same ▸ mem_map_of_mem left)

theorem RunsOwned.shrink (attempts : next.attempts.Sublist state.attempts)
    (alive : ∀ machine, Alive next.db machine → Alive state.db machine)
    (kept : ∀ attempt ∈ next.attempts, Alive next.db attempt.machine →
      Owns state.db attempt.machine attempt.task → Owns next.db attempt.machine attempt.task) :
    RunsOwned next where
  owns attempt member living := kept attempt member living
    (sound.owns attempt (attempts.subset member) (alive _ living))
  once := (attempts.map Attempt.key).nodup sound.once

theorem RunsOwned.start (hostAndPort : String) : RunsOwned (state.start hostAndPort) := by
  have tasks := upsertMachine_tasks state.db state.now hostAndPort
  unfold Cluster.start
  generalize upserted : state.db.upsertMachine state.now hostAndPort = registered at tasks ⊢
  obtain ⟨id, db⟩ := registered
  constructor
  · intro attempt member alive
    rcases mem_append.mp member with old | own
    · obtain ⟨present, different⟩ := mem_filter.mp old
      have registered : Alive (state.db.upsertMachine state.now hostAndPort).2 attempt.machine := by
        rw [upserted]
        exact alive.of_cleanup
      have before : Alive state.db attempt.machine := by
        refine registered.of_upsertMachine ?_
        grind
      obtain ⟨row, found, owner⟩ := sound.owns attempt present before
      exact Owns.cleanup ⟨row, tasks.symm ▸ found, owner⟩ alive
    · obtain ⟨⟨task, row⟩, listed, rfl⟩ := mem_map.mp own
      obtain ⟨found, owner⟩ := mem_filter.mp listed
      exact ⟨row, found, of_decide_eq_true owner⟩
  · rw [map_append]
    refine Nodup.append ?_ ?_ ?_
    · exact (filter_sublist.map Attempt.key).nodup sound.once
    · have keys := (db.cleanupMachines state.now).tasks.rows.unique
      refine Nodup.of_map Prod.snd ?_
      rw [map_map, map_map]
      exact (filter_sublist.map Prod.fst).nodup keys
    · intro key old own
      obtain ⟨attempt, kept, rfl⟩ := mem_map.mp old
      obtain ⟨recovered, listed, same⟩ := mem_map.mp own
      obtain ⟨task, _, rfl⟩ := mem_map.mp listed
      exact of_decide_eq_true (mem_filter.mp kept).2 (congrArg Prod.fst same).symm

theorem RunsOwned.claim {engine : Engine} {after : Database}
    (claimed : Claimed state.db after engine.ownerID accepted) :
    RunsOwned { state with
      db := after
      attempts := state.attempts ++ accepted.map fun task => ⟨engine, task, .claimed⟩ } := by
  have machines : ∀ machine, Alive after machine → Alive state.db machine := by
    intro machine alive
    unfold Alive at alive
    rwa [claimed.machines] at alive
  constructor
  · intro attempt member alive
    rcases mem_append.mp member with old | new
    · exact claimed.kept _ _ (sound.owns attempt old (machines _ alive))
    · obtain ⟨task, inside, rfl⟩ := mem_map.mp new
      exact claimed.owns task inside
  · rw [map_append, map_map]
    refine Nodup.append sound.once ?_ ?_
    · exact claimed.distinct.map fun first second same => congrArg Prod.snd same
    · intro key old new
      obtain ⟨attempt, member, rfl⟩ := mem_map.mp old
      obtain ⟨task, inside, same⟩ := mem_map.mp new
      have sameMachine : engine.ownerID = attempt.machine := congrArg Prod.fst same
      have sameTask : task = attempt.task := congrArg Prod.snd same
      have alive := claimed.alive (ne_nil_of_mem inside)
      rw [sameMachine] at alive
      exact claimed.free task inside _ (sameTask ▸ sound.owns attempt member alive)

theorem RunsOwned.backOut {reset : Bool}
    (waiting : failedTIDs.all (fun task =>
      (state.findAttempt machine task Cluster.isWaiting).isSome) = true)
    (allowed : ∀ task ∈ failedTIDs, FreeFor state.db machine task) :
    RunsOwned { state with
      db := if reset then state.db.resetOwner failedTIDs else state.db
      attempts := Cluster.withoutAttempts state.attempts machine failedTIDs } := by
  refine sound.shrink filter_sublist (fun other alive => ?_) fun other left _ owns => ?_
  · cases reset with
    | false | true => exact alive
  · cases reset with
    | false => exact owns
    | true =>
      refine owns.resetOwner fun failed => ?_
      -- the owner is the machine itself, so its one attempt at the task is the waiting one
      have same := (allowed other.task failed).eq owns
      obtain ⟨attempt, found⟩ := Option.isSome_iff_exists.mp
        (all_eq_true.mp waiting other.task failed)
      obtain ⟨member, ofMachine, ofTask, isWaiting⟩ := findAttempt_eq found
      obtain ⟨present, stays⟩ := mem_filter.mp left
      obtain rfl : attempt = other := inj_on_of_nodup_map sound.once member present
        (Prod.ext (ofMachine.trans same.symm) ofTask)
      simp [ofMachine, failed, isWaiting] at stays

theorem RunsOwned.step {action : ClusterAction} (allowed : OnlyOwnersWrite state action)
    (stepped : state.step action = some next) :
    RunsOwned next := by
  cases action with
  | tick duration =>
    cases stepped
    exact sound.shrink (Sublist.refl _) (fun _ => id) fun _ _ _ => id
  | start hostAndPort =>
    cases stepped
    exact sound.start hostAndPort
  | keepalive machine =>
    cases stepped
    exact sound.shrink (Sublist.refl _) (fun _ => Alive.of_keepalive) fun _ _ _ => id
  | cleanup =>
    cases stepped
    exact sound.shrink (Sublist.refl _) (fun _ => Alive.of_cleanup)
      fun _ _ alive owns => owns.cleanup alive
  | addTask machine name =>
    cases stepped
    exact sound.shrink (Sublist.refl _) (fun _ => id) fun _ _ _ owns => owns.addTask
  | claim engine tIDs locked maxAcceptable =>
    simp only [Cluster.step] at stepped
    split at stepped <;> cases stepped
    · rename_i accepted after returned
      exact sound.claim (claim_claimed returned)
  | doTask machine task =>
    obtain ⟨attempt, found, rfl⟩ := Option.map_eq_some_iff.mp stepped
    obtain ⟨member, -, -, -⟩ := findAttempt_eq found
    have moved := perm_cons_erase member
    constructor
    · intro other inside alive
      rcases mem_cons.mp inside with rfl | left
      · exact sound.owns attempt member alive
      · exact sound.owns other (mem_of_mem_erase left) alive
    · exact (moved.map Attempt.key).nodup_iff.mp sound.once
  | backOut machine failedTIDs reset =>
    simp only [Cluster.step] at stepped
    split at stepped <;> cases stepped
    · rename_i waiting
      exact sound.backOut waiting allowed
  | giveUp machine task =>
    obtain ⟨attempt, found, rfl⟩ := Option.map_eq_some_iff.mp stepped
    obtain ⟨member, ofMachine, ofTask, -⟩ := findAttempt_eq found
    refine sound.shrink erase_sublist (fun _ => id) fun other left _ owns => ?_
    refine owns.removeSelfFromOwner fun sameTask sameMachine => ?_
    refine sound.other_of_erase member left (Prod.ext ?_ ?_)
    · exact sameMachine.trans ofMachine.symm
    · exact sameTask.trans ofTask.symm
  | complete machine task h workEnd done doErr =>
    obtain ⟨attempt, found, recorded⟩ := Option.bind_eq_some_iff.mp stepped
    obtain ⟨member, ofMachine, ofTask, -⟩ := findAttempt_eq found
    obtain ⟨workStart, -, recorded⟩ := Option.bind_eq_some_iff.mp recorded
    split at recorded <;> cases recorded
    · rename_i after returned
      have machines := recordCompletion_machines returned
      refine sound.shrink erase_sublist ?_ ?_
      · grind [Alive]
      · intro other left alive owns
        refine owns.recordCompletion returned fun sameTask => ?_
        -- the only owner there may be is the machine that completes
        have sameMachine := FreeFor.eq (sameTask ▸ allowed) owns
        refine sound.other_of_erase member left (Prod.ext ?_ ?_)
        · exact sameMachine.trans ofMachine.symm
        · exact sameTask.trans ofTask.symm

end Steps

/-- Where no machine writes a row that another one owns, every machine that is alive owns the tasks
it has claimed and not finished. -/
theorem owner_kept {actions : List ClusterAction} {final : Cluster}
    (under : RunsUnder Cluster.step OnlyOwnersWrite Cluster.empty actions)
    (ran : StepMachine.run Cluster.step Cluster.empty actions = some final) (attempt : Attempt)
    (running : attempt ∈ final.attempts) (alive : Alive final.db attempt.machine) :
    Owns final.db attempt.machine attempt.task := by
  have initial : RunsOwned Cluster.empty := ⟨fun _ member => (by cases member), nodup_nil⟩
  have sound : RunsOwned final := run_invariant (fun _ _ _ before => before.step) initial under ran
  exact sound.owns attempt running alive

/-- Three engines and a task. The first engine takes it, falls silent for eleven minutes and
expires; the second one takes over. -/
def secondTakesOver : List ClusterAction :=
  [.start "a:1", .start "b:1", .start "c:1", .addTask 1 "SDR", .claim ⟨1, "a:1"⟩ [1] [] 1,
    .doTask 1 1, .tick (11 * 60 * 1000), .keepalive 2, .keepalive 3, .cleanup,
    .claim ⟨2, "b:1"⟩ [1] [] 1, .doTask 2 1]

def sdr : TaskType := ⟨"SDR", 0⟩

/-- The second engine fails, the third one finds no storage, and the second one tries again. -/
def ownFailures : List ClusterAction :=
  [.complete 2 1 sdr 660000 false (some "out of memory"), .claim ⟨3, "c:1"⟩ [1] [] 1,
    .backOut 3 [1] true, .claim ⟨2, "b:1"⟩ [1] [] 1]

theorem owner_kept_second_engine :
    ∃ final, StepMachine.run Cluster.step Cluster.empty (secondTakesOver ++ ownFailures) =
        some final ∧
      ⟨⟨2, "b:1"⟩, 1, .claimed⟩ ∈ final.attempts ∧ Alive final.db 2 ∧ Owns final.db 2 1 := by
  have under : RunsUnder Cluster.step OnlyOwnersWrite Cluster.empty
      (secondTakesOver ++ ownFailures) := by decide
  refine ⟨_, rfl, by decide, ?_, ?_⟩
  · exact ⟨⟨"b:1", 660000⟩, SerialTable.get_eq_some.mp rfl⟩
  · exact owner_kept under rfl ⟨⟨2, "b:1"⟩, 1, .claimed⟩ (by decide)
      ⟨⟨"b:1", 660000⟩, SerialTable.get_eq_some.mp rfl⟩

/-- The failure that the first engine reports late takes the task from the second engine, which is
alive and still at work, and the third engine gets it. -/
theorem stale_failure_disowns :
    ∃ final, StepMachine.run Cluster.step Cluster.empty
        (secondTakesOver ++
          [.complete 1 1 sdr 660000 false none, .claim ⟨3, "c:1"⟩ [1] [] 1]) = some final ∧
      ⟨⟨2, "b:1"⟩, 1, .started 660000⟩ ∈ final.attempts ∧ Alive final.db 2 ∧
      Owns final.db 3 1 := by
  refine ⟨_, rfl, by decide, ⟨⟨"b:1", 660000⟩, SerialTable.get_eq_some.mp rfl⟩, ?_⟩
  exact ⟨⟨"SDR", some 3, 1, 0, 660000, 1⟩, SerialTable.get_eq_some.mp rfl, rfl⟩

/-- No two live machines are at work on one task. -/
theorem one_live_attempt {actions : List ClusterAction} {final : Cluster}
    (under : RunsUnder Cluster.step OnlyOwnersWrite Cluster.empty actions)
    (ran : StepMachine.run Cluster.step Cluster.empty actions = some final) {first second : Attempt}
    (one : first ∈ final.attempts) (two : second ∈ final.attempts)
    (same : first.task = second.task) (alive : Alive final.db first.machine)
    (aliveToo : Alive final.db second.machine) : first = second := by
  have initial : RunsOwned Cluster.empty := ⟨fun _ member => (by cases member), nodup_nil⟩
  have sound : RunsOwned final := run_invariant (fun _ _ _ before => before.step) initial under ran
  obtain ⟨row, listed, owned⟩ := sound.owns first one alive
  obtain ⟨other, listedToo, ownedToo⟩ := sound.owns second two aliveToo
  rw [← same] at listedToo
  cases SerialTable.unique listed listedToo
  have machines : first.machine = second.machine := Option.some.inj (owned.symm.trans ownedToo)
  exact inj_on_of_nodup_map sound.once one two (by simp [Attempt.key, same, machines])

/-- Both engines are at work, but the first one has expired. -/
theorem one_live_attempt_taken_over :
    ∃ final, StepMachine.run Cluster.step Cluster.empty secondTakesOver = some final ∧
      final.attempts.length = 2 ∧ ∀ attempt ∈ final.attempts, attempt.task = 1 →
        Alive final.db attempt.machine → attempt.machine = 2 := by
  have under : RunsUnder Cluster.step OnlyOwnersWrite Cluster.empty secondTakesOver := by decide
  refine ⟨_, rfl, by decide, fun attempt member task alive => ?_⟩
  rw [one_live_attempt under rfl member
    (by decide : (⟨⟨2, "b:1"⟩, 1, .started 660000⟩ : Attempt) ∈ _) task alive
    ⟨⟨"b:1", 660000⟩, SerialTable.get_eq_some.mp rfl⟩]
  rfl

end Curio.Harmony
