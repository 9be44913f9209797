import Curio.Entries
import Curio.StepMachine

/-! What the expiration manager knows of its own messages: `ExpMgrTask.Do` of
`tasks/expmgr/task_expmgr.go` with the send-and-record ends of `handleExtend` and `handleTopUp`, the
landing trigger of `20251125-sector-ext-mgr.sql`, and the metadata refresh of
`tasks/metadata/task_sector_expirations.go`, which reads the chain when it starts and writes its
time when it ends. -/

namespace Curio.ExpMgr.MessageTracking

open Entries StepMachine List

/-- A row of `sectors_exp_manager_sp` behind its key, the provider and the preset. -/
structure Row where
  enabled : Bool
  lastMessageCid : Option Nat
  lastMessageLandedAt : Option Nat
  deriving DecidableEq

/-- An extension message. One call of a handler sends `tracked` last, from one worker. -/
structure Message where
  cid : Nat
  spId : Nat
  preset : String
  tracked : Nat
  landedAt : Option Nat := none
  waited : Bool
  executed : Bool := false
  deriving DecidableEq

structure Run where
  assignments : List (Nat × String)
  processedSPs : List Nat

structure State where
  now : Nat
  rows : KeyMap (Nat × String) Row
  messages : List Message
  nextCid : Nat
  lastRefreshAt : Option Nat
  /-- When the chain state in the metadata tables was current. -/
  metadataAt : Nat
  refreshing : Option Nat
  running : Option Run

def initial : State := ⟨1, .empty, [], 0, none, 0, none, none⟩

/-- What a handler gets done: the messages sent, whether the row is updated, and the messages
inserted into `message_waits`. No message is sent where the condition does not hold, the preset
lacks a field, no sector qualifies or the handler fails before. -/
structure Outcome where
  sent : Nat
  recorded : Bool
  waits : Nat

inductive Action where
  | add (spId : Nat) (preset : String)
  | toggle (spId : Nat) (preset : String) (enabled : Bool)
  | delete (spId : Nat) (preset : String)
  | refreshStart
  | refreshEnd
  | lands (cid : Nat)
  | executed (cid : Nat)
  | start
  | handle (outcome : Outcome)
  | stop

namespace State

def pending (row : Row) : Bool := row.lastMessageCid.isSome && row.lastMessageLandedAt.isNone

/-- The query of `Do`: no enabled row of the provider is pending, and the latest landing of them is
before the refresh. -/
def eligible (st : State) (refreshAt spId : Nat) : Bool :=
  st.rows.entries.all fun (key, row) => key.1 = spId && row.enabled →
    !pending row && row.lastMessageLandedAt.all (· < refreshAt)

def assignments (st : State) (refreshAt : Nat) : List (Nat × String) :=
  ((st.rows.entries.filter fun (key, row) => row.enabled && st.eligible refreshAt key.1).map
    Prod.fst).insertionSort fun a b => a.1 < b.1 ∨ a.1 = b.1 ∧ a.2 ≤ b.2

def batch (st : State) (spId : Nat) (preset : String) (outcome : Outcome) : List Message :=
  (range outcome.sent).map fun i =>
    { cid := st.nextCid + i, spId, preset, tracked := st.nextCid + outcome.sent - 1
      waited := outcome.recorded && decide (i < outcome.waits) }

def handle (st : State) (outcome : Outcome) (spId : Nat) (preset : String)
    (rest : List (Nat × String)) (processedSPs : List Nat) : State :=
  if spId ∈ processedSPs then { st with running := some ⟨rest, processedSPs⟩ }
  else
    let processed := 0 < outcome.sent ∧ outcome.recorded ∧ outcome.sent ≤ outcome.waits
    { st with
      messages := st.messages ++ st.batch spId preset outcome
      nextCid := st.nextCid + outcome.sent
      rows := st.rows.update fun key row =>
        if key = (spId, preset) ∧ 0 < outcome.sent ∧ outcome.recorded then
          { row with lastMessageCid := some (st.nextCid + outcome.sent - 1) }
        else row
      running := some ⟨rest, if processed then spId :: processedSPs else processedSPs⟩ }

def act (st : State) : Action → Option State
  | .add spId preset => some <| match st.rows.get (spId, preset) with
      | none => { st with rows := st.rows.put (spId, preset) ⟨false, none, none⟩ }
      | some _ => st
  | .toggle spId preset enabled => some { st with
      rows := st.rows.update fun key row =>
        if key = (spId, preset) then { row with enabled } else row }
  | .delete spId preset => some { st with rows := st.rows.remove (spId, preset) }
  | .refreshStart => some { st with refreshing := some st.now }
  | .refreshEnd => st.refreshing.map fun head =>
    { st with metadataAt := head, lastRefreshAt := some st.now, refreshing := none }
  | .lands cid =>
    -- the messages of one worker land in the order of their nonces
    if ∀ m ∈ st.messages, m.cid = cid → m.landedAt = none ∧ ∀ before ∈ st.messages,
        before.tracked = m.tracked → before.cid < cid → before.landedAt ≠ none then
      some { st with messages := st.messages.map fun m =>
        if m.cid = cid then { m with landedAt := some st.now } else m }
    else none
  | .executed cid =>
    if ∃ m ∈ st.messages, m.cid = cid ∧ m.waited ∧ m.landedAt ≠ none ∧ !m.executed then
      some { st with
        messages := st.messages.map fun m =>
          if m.cid = cid then { m with executed := true } else m
        rows := st.rows.update fun _ row =>
          if row.lastMessageCid = some cid then { row with lastMessageLandedAt := some st.now }
          else row }
    else none
  | .start => match st.running, st.lastRefreshAt with
      | none, some refreshAt => some { st with running := some ⟨st.assignments refreshAt, []⟩ }
      | none, none => some st
      | some _, _ => none
  | .handle outcome => match st.running with
      | some ⟨(spId, preset) :: rest, processedSPs⟩ =>
        some (st.handle outcome spId preset rest processedSPs)
      | _ => none
  | .stop => some { st with running := none }

def step (st : State) (action : Action) : Option State :=
  (st.act action).map fun next => { next with now := st.now + 1 }

def sending (st : State) : Action → Option (Nat × String)
  | .handle outcome => match st.running with
      | some ⟨(spId, preset) :: _, processedSPs⟩ =>
        if spId ∉ processedSPs ∧ 0 < outcome.sent then some (spId, preset) else none
      | _ => none
  | _ => none

end State

def Fresh (st : State) (spId : Nat) : Prop :=
  ∀ m ∈ st.messages, m.spId = spId → ∃ t ∈ m.landedAt, t < st.metadataAt

def Settled (st : State) (row : Row) : Prop :=
  row.lastMessageCid = none ∨
    ∃ landed ∈ row.lastMessageLandedAt, ∃ refreshed ∈ st.lastRefreshAt, landed < refreshed

/-- A handler sends the first messages of an enabled row and records all of them, a row with an
unsettled message stays enabled, and no landing is recorded while the metadata is refreshed. -/
def Careful (st : State) : Action → Prop
  | .toggle spId preset false => ∀ row ∈ st.rows.get (spId, preset), Settled st row
  | .delete spId preset => ∀ row ∈ st.rows.get (spId, preset), Settled st row
  | .refreshEnd => ∀ head ∈ st.refreshing, ∀ entry ∈ st.rows.entries,
      ∀ t ∈ entry.2.lastMessageLandedAt, t < head
  | .handle outcome => ∀ key ∈ st.sending (.handle outcome),
      outcome.recorded ∧ outcome.sent ≤ outcome.waits ∧
        ∃ row ∈ st.rows.get key, row.enabled ∧ row.lastMessageLandedAt = none
  | _ => True

instance Fresh.decidable (st : State) (spId : Nat) : Decidable (Fresh st spId) :=
  inferInstanceAs (Decidable (∀ _ ∈ _, _))

instance Settled.decidable (st : State) (row : Row) : Decidable (Settled st row) :=
  inferInstanceAs (Decidable (_ ∨ _))

instance Careful.decidable (st : State) : (action : Action) → Decidable (Careful st action)
  | .toggle _ _ false | .delete .. | .refreshEnd | .handle _ =>
    inferInstanceAs (Decidable (∀ _ ∈ _, _))
  | .toggle _ _ true | .add .. | .refreshStart | .lands _ | .executed _ | .start | .stop =>
    inferInstanceAs (Decidable True)

/-- The message is older than the metadata, or an enabled row tells of it. -/
def Known (st : State) (m : Message) : Prop :=
  (∃ t, m.landedAt = some t ∧ t < st.metadataAt) ∨
    ∃ row, ((m.spId, m.preset), row) ∈ st.rows.entries ∧ row.enabled ∧
      row.lastMessageCid = some m.tracked ∧
      ∀ u, row.lastMessageLandedAt = some u → ∃ t, m.landedAt = some t ∧ t ≤ u

structure Sound (st : State) : Prop where
  cids : ∀ m ∈ st.messages, m.cid ≤ m.tracked ∧ m.tracked < st.nextCid
  last : ∀ m ∈ st.messages, ∀ other ∈ st.messages, m.tracked = other.cid → other.tracked = other.cid
  ordered : ∀ m ∈ st.messages, ∀ other ∈ st.messages, m.tracked = other.tracked →
    m.cid ≤ other.cid → other.landedAt ≠ none → m.landedAt ≠ none
  times : ∀ m ∈ st.messages, ∀ t, m.landedAt = some t → t < st.now
  begun : ∀ head, st.refreshing = some head → st.metadataAt ≤ head ∧ head < st.now
  metadata : st.metadataAt < st.now ∧ ∀ f, st.lastRefreshAt = some f → f < st.now
  known : ∀ m ∈ st.messages, Known st m
  refreshed : ∀ entry ∈ st.rows.entries, ∀ t, entry.2.lastMessageLandedAt = some t →
    t < st.now ∧ ∀ f, st.lastRefreshAt = some f → t < f → t < st.metadataAt
  fresh : ∀ run, st.running = some run → ∀ key ∈ run.assignments,
    key.1 ∉ run.processedSPs → Fresh st key.1

theorem initial_sound : Sound initial := by
  constructor <;> simp [initial, KeyMap.empty]

variable {st next : State} {action : Action} {spId : Nat} {preset : String} {outcome : Outcome}

theorem Sound.eligible (sound : Sound st) {refreshAt : Nat}
    (refresh : st.lastRefreshAt = some refreshAt) (eligible : st.eligible refreshAt spId = true) :
    Fresh st spId := by
  intro m member same
  rcases sound.known m member with old | ⟨row, present, enabled, tells, landed⟩
  · exact old
  · have quiet := all_eq_true.mp eligible _ present
    have := sound.refreshed _ present
    simp only [Option.mem_def]
    cases recorded : row.lastMessageLandedAt <;> grind [State.pending]

theorem mem_batch {m : Message} :
    m ∈ st.batch spId preset outcome ↔ ∃ i < outcome.sent,
      { cid := st.nextCid + i, spId, preset, tracked := st.nextCid + outcome.sent - 1
        waited := outcome.recorded && decide (i < outcome.waits) } = m := by
  simp [State.batch]

section

variable (sound : Sound st)
include sound

theorem Sound.later : Sound { st with now := st.now + 1 } := by
  refine { sound with times := ?_, begun := ?_, metadata := ?_, refreshed := ?_ }
  · exact fun m member t landed => Nat.lt_succ_of_lt (sound.times m member t landed)
  · exact fun head started => (sound.begun head started).imp_right Nat.lt_succ_of_lt
  · exact ⟨Nat.lt_succ_of_lt sound.metadata.1, fun f done =>
      Nat.lt_succ_of_lt (sound.metadata.2 f done)⟩
  · exact fun entry member t landed =>
      (sound.refreshed entry member t landed).imp_left Nat.lt_succ_of_lt

/-- Messages that are changed in place, and whose landings come in the order of their numbers. -/
theorem Sound.messages {f : Message → Message}
    (place : ∀ m, (f m).cid = m.cid ∧ (f m).tracked = m.tracked ∧ (f m).spId = m.spId ∧
      (f m).preset = m.preset)
    (kept : ∀ m ∈ st.messages, ∀ t, m.landedAt = some t → (f m).landedAt = some t)
    (new : ∀ m ∈ st.messages, ∀ t, (f m).landedAt = some t → t ≤ st.now)
    (ordered : ∀ m ∈ st.messages, ∀ other ∈ st.messages, m.tracked = other.tracked →
      m.cid ≤ other.cid → (f other).landedAt ≠ none → (f m).landedAt ≠ none) :
    Sound { st with messages := st.messages.map f, now := st.now + 1 } := by
  refine { sound.later with
    cids := ?_, last := ?_, ordered := ?_, times := ?_, known := ?_, fresh := ?_ }
  · rw [forall_mem_map]
    intro m member
    rw [(place m).1, (place m).2.1]
    exact sound.cids m member
  · simp only [forall_mem_map]
    intro m member other present
    rw [(place m).2.1, (place other).1, (place other).2.1]
    exact sound.last m member other present
  · simp only [forall_mem_map]
    intro m member other present
    rw [(place m).1, (place m).2.1, (place other).1, (place other).2.1]
    exact ordered m member other present
  · rw [forall_mem_map]
    exact fun m member t landed => Nat.lt_succ_of_le (new m member t landed)
  · rw [forall_mem_map]
    intro m member
    obtain ⟨-, tracked, spId, preset⟩ := place m
    rcases sound.known m member with ⟨t, landed, old⟩ | ⟨row, present, enabled, tells, landed⟩
    · exact .inl ⟨t, kept m member t landed, old⟩
    · rw [← spId, ← preset] at present
      refine .inr ⟨row, present, enabled, tracked ▸ tells, fun u told => ?_⟩
      obtain ⟨t, earlier, least⟩ := landed u told
      exact ⟨t, kept m member t earlier, least⟩
  · intro run running key left free
    simp only [Fresh, forall_mem_map]
    intro m member same
    obtain ⟨t, landed, old⟩ :=
      sound.fresh run running key left free m member ((place m).2.2.1 ▸ same)
    exact ⟨t, kept m member t landed, old⟩

theorem Sound.rows (rows : KeyMap (Nat × String) Row)
    (kept : ∀ key row, (key, row) ∈ st.rows.entries → row.enabled → Settled st row ∨
      ∃ new, (key, new) ∈ rows.entries ∧ new.enabled ∧ new.lastMessageCid = row.lastMessageCid ∧
        new.lastMessageLandedAt = row.lastMessageLandedAt)
    (refreshed : ∀ entry ∈ rows.entries, entry.2.lastMessageLandedAt = none ∨
      ∃ old ∈ st.rows.entries, old.2.lastMessageLandedAt = entry.2.lastMessageLandedAt) :
    Sound { st with rows, now := st.now + 1 } := by
  have same := sound.later.refreshed
  refine { sound.later with known := fun m member => ?_, refreshed := by grind }
  rcases sound.known m member with old | ⟨row, present, enabled, tells, landed⟩
  · exact .inl old
  · rcases kept _ row present enabled with settled | ⟨new, inside, on, cid, landing⟩
    · have := sound.refreshed _ present
      simp only [Settled, Option.mem_def] at settled
      exact .inl (by grind)
    · exact .inr ⟨new, inside, on, cid.trans tells, landing ▸ landed⟩

theorem Sound.sent {rest : List (Nat × String)} {processedSPs : List Nat}
    (running : st.running = some ⟨(spId, preset) :: rest, processedSPs⟩)
    (careful : Careful st (.handle outcome)) :
    Sound { st.handle outcome spId preset rest processedSPs with now := st.now + 1 } := by
  obtain ⟨cids, last, ordered, times, begun, metadata, known, refreshed, fresh⟩ := id sound
  have here := fresh _ running
  unfold State.handle
  split
  · refine { sound.later with fresh := ?_ }
    rintro run ⟨⟩ key member
    exact here key (mem_cons_of_mem _ member)
  · rename_i free
    have now : Fresh st spId := here (spId, preset) (by simp) free
    have careful (sends : 0 < outcome.sent) :=
      careful (spId, preset) (by simp [State.sending, running, free, sends])
    refine ⟨?_, ?_, ?_, ?_, by grind, by grind, ?_, by grind [KeyMap.mem_update], ?_⟩
    all_goals try simp only [forall_mem_append, mem_batch]
    · grind
    · grind
    · grind
    · grind
    · constructor
      · intro m member
        rcases known m member with old | ⟨row, present, isEnabled, tells, landed⟩
        · exact .inl old
        · by_cases same : m.spId = spId
          · exact .inl (now m member same)
          · exact .inr ⟨_, KeyMap.mem_update.mpr ⟨row, present, rfl⟩, by grind⟩
      · rintro _ ⟨i, below, rfl⟩
        obtain ⟨recorded, waits, row, got, enabled, unlanded⟩ := careful (by omega)
        refine .inr ⟨_, KeyMap.mem_update.mpr ⟨row, KeyMap.get_eq_some.mp got, rfl⟩, by grind⟩
    · grind [State.batch, Fresh]

theorem Sound.step (careful : Careful st action) (stepped : st.step action = some next) :
    Sound next := by
  obtain ⟨after, acted, rfl⟩ := Option.map_eq_some_iff.mp stepped
  unfold State.act at acted
  cases action with dsimp only at acted
  | add spId preset =>
    cases acted
    split
    · rename_i absent
      have := KeyMap.get_eq_none.mp absent
      refine sound.rows _ (fun key row present enabled => .inr ⟨row, ?_⟩) ?_
      all_goals grind [KeyMap.mem_put]
    · exact sound.later
  | toggle spId preset enabled =>
    cases acted
    refine sound.rows _ (fun key row present on => ?_) (by grind [KeyMap.mem_update])
    by_cases same : key = (spId, preset) ∧ enabled = false
    · obtain ⟨rfl, rfl⟩ := same
      exact .inl (careful row (KeyMap.get_eq_some.mpr present))
    · exact .inr ⟨_, KeyMap.mem_update.mpr ⟨row, present, rfl⟩, by grind⟩
  | delete spId preset =>
    cases acted
    refine sound.rows _ (fun key row present on => ?_) (by grind [KeyMap.mem_remove])
    by_cases same : key = (spId, preset)
    · exact .inl (careful row (same ▸ KeyMap.get_eq_some.mpr present))
    · exact .inr ⟨row, KeyMap.mem_remove.mpr ⟨present, same⟩, on, rfl, rfl⟩
  | refreshStart =>
    cases acted
    have begun := sound.metadata
    exact { sound.later with begun := by grind }
  | refreshEnd =>
    obtain ⟨head, started, rfl⟩ := Option.map_eq_some_iff.mp acted
    obtain ⟨cids, last, ordered, times, begun, metadata, known, refreshed, fresh⟩ := sound
    refine ⟨cids, last, ordered, by grind, by grind, by grind, fun m member => ?_, ?_, ?_⟩
    · grind [Known]
    · have early := careful head started
      simp only [Option.mem_def] at early
      grind
    · grind [Fresh]
  | lands cid =>
    split at acted <;> cases acted
    rename_i guard
    refine sound.messages (fun m => ?_) ?_ ?_ ?_
    · split <;> exact ⟨rfl, rfl, rfl, rfl⟩
    · intro m member t landed
      have other : m.cid ≠ cid := by
        intro same
        cases (guard m member same).1.symm.trans landed
      rwa [if_neg other]
    · intro m member t landed
      split at landed
      · cases landed
        exact le_rfl
      · exact (sound.times m member t landed).le
    · intro m member other present same before landed
      split
      · exact Option.some_ne_none _
      rename_i unlanded
      split at landed
      · rename_i last
        exact (guard other present last).2 m member same (by omega)
      · exact sound.ordered m member other present same before landed
  | executed cid =>
    split at acted <;> cases acted
    rename_i done
    obtain ⟨seen, present, rfl, -, lands, -⟩ := done
    have marked : Sound { st with
        messages := st.messages.map fun m =>
          if m.cid = seen.cid then { m with executed := true } else m
        now := st.now + 1 } := by
      refine sound.messages (fun m => ?_) ?_ ?_ ?_
      · split <;> exact ⟨rfl, rfl, rfl, rfl⟩
      · exact fun m _ t landed => by split <;> exact landed
      · exact fun m member t landed =>
          (sound.times m member t (by split at landed <;> exact landed)).le
      · intro m member other inside same before landed
        have landed : other.landedAt ≠ none := by split at landed <;> exact landed
        split <;> exact sound.ordered m member other inside same before landed
    have inside : { seen with executed := true } ∈ st.messages.map fun m =>
        if m.cid = seen.cid then { m with executed := true } else m :=
      mem_map.mpr ⟨seen, present, if_pos rfl⟩
    refine { marked with known := ?_, refreshed := ?_ }
    · intro m member
      rcases marked.known m member with old | ⟨row, stored, enabled, tells, landed⟩
      · exact .inl old
      refine .inr ⟨_, KeyMap.mem_update.mpr ⟨row, stored, rfl⟩, ?_⟩
      split
      · rename_i own
        refine ⟨enabled, tells, fun u told => ?_⟩
        cases told
        -- the last message of a call has landed, and so have those before it
        have last : m.tracked = seen.cid := Option.some.inj (tells.symm.trans own)
        have tracked := (marked.last m member _ inside last).symm
        have below := (marked.cids m member).1.trans_eq last
        obtain ⟨t, landed⟩ := Option.ne_none_iff_exists'.mp
          (marked.ordered m member _ inside (last.trans tracked) below lands)
        exact ⟨t, landed, Nat.le_of_lt_succ (marked.times m member t landed)⟩
      · exact ⟨enabled, tells, landed⟩
    · intro entry member t landed
      obtain ⟨row, stored, same⟩ := KeyMap.mem_update.mp member
      rw [← same] at landed
      split at landed
      · cases landed
        refine ⟨Nat.lt_succ_self _, fun f refreshed before => ?_⟩
        exact absurd (sound.metadata.2 f refreshed) before.asymm
      · exact marked.refreshed _ stored t landed
  | start =>
    split at acted <;> cases acted
    · refine { sound.later with fresh := ?_ }
      rintro run ⟨⟩ key member -
      obtain ⟨entry, kept, rfl⟩ := mem_map.mp ((mem_insertionSort _).mp member)
      exact sound.eligible ‹_› (by grind)
    · exact sound.later
  | handle outcome =>
    split at acted <;> cases acted
    exact sound.sent ‹_› careful
  | stop =>
    cases acted
    exact { sound.later with fresh := by simp }

end

def round : List Action :=
  [.add 7 "a", .toggle 7 "a" true, .refreshStart, .refreshEnd, .start, .handle ⟨1, true, 1⟩, .stop,
    .lands 0, .executed 0, .refreshStart, .refreshEnd, .start]

def otherPreset : List Action :=
  round ++ [.stop, .add 7 "b", .toggle 7 "b" true, .start, .handle ⟨0, false, 0⟩]

end Curio.ExpMgr.MessageTracking
