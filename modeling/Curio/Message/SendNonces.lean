import Curio.Message.SendTask

/-! Nonces over all runs of the senders: a message is pushed in one signed form only, no nonce is
recorded as sent twice, and the nonces that the node accepted have no gap. -/

namespace Curio.Message

open Entries StepMachine List

variable {Key Request Unsigned : Type} [DecidableEq Key] [DecidableEq Unsigned]
  {chain : Chain Key Request Unsigned} {start : Key → Nat}
  {rows rows' : SerialTable (SendRow Key Unsigned)} {accepted : List (Signed Key Unsigned)}
  {state next : SendState Key Unsigned} {key : Key} {nonce : Nat} {message : Signed Key Unsigned}

section

omit [DecidableEq Unsigned]

theorem lt_nextNonce :
    nonce < nextNonce start accepted key ↔
      nonce < start key ∨ ∃ message ∈ accepted, message.sender = key ∧ nonce ≤ message.nonce := by
  unfold nextNonce
  induction accepted with
  | nil => simp
  | cons message rest ih => grind

def Contiguous (start : Key → Nat) (accepted : List (Signed Key Unsigned)) : Prop :=
  ∀ key nonce, start key ≤ nonce → nonce < nextNonce start accepted key →
    ∃ message ∈ accepted, message.sender = key ∧ message.nonce = nonce

def Due (start : Key → Nat) (accepted : List (Signed Key Unsigned)) (key : Key) (nonce : Nat) :
    Prop :=
  start key ≤ nonce ∧ nonce ≤ nextNonce start accepted key

theorem start_le_nextNonce :
    start key ≤ nextNonce start accepted key := by
  by_contra less
  exact absurd (lt_nextNonce.mpr (.inl (Nat.lt_of_not_le less))) (lt_irrefl _)

theorem nextNonce_append :
    nextNonce start accepted key ≤ nextNonce start (accepted ++ [message]) key := by
  by_contra less
  have below := lt_nextNonce.mp (Nat.lt_of_not_le less)
  refine lt_irrefl _ (lt_nextNonce.mpr (below.imp_right ?_))
  rintro ⟨other, member, rest⟩
  exact ⟨other, mem_append_left _ member, rest⟩

theorem Due.append (due : Due start accepted key nonce) (message : Signed Key Unsigned) :
    Due start (accepted ++ [message]) key nonce :=
  ⟨due.1, due.2.trans nextNonce_append⟩

/-- The node can only take a message that is due if its nonce is the next one. -/
theorem Contiguous.append (contiguous : Contiguous start accepted)
    (due : Due start accepted message.sender message.nonce)
    (taken : takes start accepted message = true) :
    Contiguous start (accepted ++ [message]) := by
  have free : ∀ other ∈ accepted,
      ¬ (other.sender = message.sender ∧ other.nonce = message.nonce) := by
    simpa [imp_iff_not_or] using (Bool.and_eq_true_iff.mp taken).2
  have isNext : message.nonce = nextNonce start accepted message.sender := by
    apply le_antisymm due.2
    by_contra less
    obtain ⟨other, member, same⟩ := contiguous _ _ due.1 (Nat.lt_of_not_le less)
    exact free other member same
  intro key nonce from_start below
  have earlier : nonce < nextNonce start accepted key →
      ∃ other ∈ accepted ++ [message], other.sender = key ∧ other.nonce = nonce := by
    intro before
    obtain ⟨other, member, same⟩ := contiguous key nonce from_start before
    exact ⟨other, mem_append_left _ member, same⟩
  rcases lt_nextNonce.mp below with outside | ⟨other, member, rfl, upTo⟩
  · exact absurd from_start (Nat.not_le_of_lt outside)
  · rcases mem_append.mp member with old | new
    · exact earlier (lt_nextNonce.mpr (.inr ⟨other, old, rfl, upTo⟩))
    · grind

def Updated (rows : SerialTable (SendRow Key Unsigned)) (task : TaskId)
    (change : SendRow Key Unsigned → SendRow Key Unsigned)
    (rows' : SerialTable (SendRow Key Unsigned)) : Prop :=
  (∀ row, rows.get task = some row → duplicates rows task (change row) = false) ∧
    rows' = rows.update fun id old => if id = task then change old else old

theorem updateRow_cases (rows : SerialTable (SendRow Key Unsigned)) (task : TaskId)
    (change : SendRow Key Unsigned → SendRow Key Unsigned) (answer : Answer) :
    (∃ message, updateRow rows task change answer = (rows, .error message)) ∨
      ∃ result, updateRow rows task change answer
          = (rows.update fun id old => if id = task then change old else old, result) ∧
        Updated rows task change
          (rows.update fun id old => if id = task then change old else old) := by
  unfold updateRow
  cases there : rows.get task with
  | none =>
    cases answer with
    | failed message => exact .inl ⟨message, rfl⟩
    | lost message => exact .inr ⟨.error message, rfl, by simp [there], rfl⟩
    | ok => exact .inr ⟨.ok 0, rfl, by simp [there], rfl⟩
  | some row =>
    cases taken : duplicates rows task (change row) with
    | true =>
      left
      cases answer with
      | failed message => exact ⟨message, rfl⟩
      | lost _ | ok => exact ⟨duplicateKey, by simp [taken]⟩
    | false =>
      have within : ∀ found, rows.get task = some found →
          duplicates rows task (change found) = false := by
        intro found same
        cases there.symm.trans same
        exact taken
      cases answer with
      | failed message => exact .inl ⟨message, rfl⟩
      | lost message =>
        exact .inr ⟨.error message, by simp [taken], within, rfl⟩
      | ok => exact .inr ⟨.ok 1, by simp [taken], within, rfl⟩

end

section Steps

variable {task : TaskId}

inductive Stepped (chain : Chain Key Request Unsigned) (start : Key → Nat)
    (state : SendState Key Unsigned) : SendState Key Unsigned → Prop
  | send (request : Request) :
      Stepped chain start state { state with
        rows := state.rows.insert
          { fromKey := chain.sendKey request, unsigned := chain.sendData request } }
  | run {task : TaskId} (idle : state.runs.get task = none) :
      Stepped chain start state (state.enter task .reading)
  | waits : Stepped chain start state state
  | ends {task : TaskId} {locks : KeyMap Key TaskId}
      {returns : List (TaskId × Bool × Option String)} :
      Stepped chain start state { state with locks, runs := state.runs.remove task, returns }
  | reads {task : TaskId} {row : SendRow Key Unsigned} (found : state.rows.get task = some row) :
      Stepped chain start state (state.enter task (.locking row))
  | locks {task : TaskId} {dbMsg : SendRow Key Unsigned} {locks : KeyMap Key TaskId}
      (phase : state.runs.get task = some (.locking dbMsg))
      (got : SendState.acquire state.locks dbMsg.fromKey task = some locks) :
      Stepped chain start state
        ({ state with locks }.enter task (SendState.afterLock chain.texts dbMsg))
  | asks {task : TaskId} {dbMsg : SendRow Key Unsigned}
      (phase : state.runs.get task = some (.asking dbMsg)) :
      Stepped chain start state (state.enter task (.counting dbMsg
        (nextNonce start state.accepted (chain.account dbMsg.fromKey dbMsg.unsigned))))
  | counts {task : TaskId} {dbMsg : SendRow Key Unsigned} {msgNonce nonce : Nat}
      (phase : state.runs.get task = some (.counting dbMsg msgNonce))
      (either : nonce = msgNonce ∨ ∃ dbNonce,
        maxNonce state.rows (chain.account dbMsg.fromKey dbMsg.unsigned) = some dbNonce ∧
          nonce = dbNonce + 1) :
      Stepped chain start state (state.enter task (.signing dbMsg nonce))
  | signs {task : TaskId} {dbMsg : SendRow Key Unsigned} {msgNonce : Nat} {bytes : List UInt8}
      (phase : state.runs.get task = some (.signing dbMsg msgNonce)) :
      Stepped chain start state (state.enter task (.persisting dbMsg
        ⟨chain.account dbMsg.fromKey dbMsg.unsigned, dbMsg.unsigned, msgNonce, bytes⟩))
  | persists {task : TaskId} {dbMsg : SendRow Key Unsigned} {sigMsg : Signed Key Unsigned}
      {rows : SerialTable (SendRow Key Unsigned)} {after : Phase Key Unsigned}
      (phase : state.runs.get task = some (.persisting dbMsg sigMsg))
      (updated : Updated state.rows task (fun row =>
        { row with nonce := some sigMsg.nonce, signed := some sigMsg }) rows)
      (goesOn : after = .pushing dbMsg sigMsg ∨ ∃ err, after = .releasing dbMsg false err) :
      Stepped chain start state ({ state with rows }.enter task after)
  | pushes {task : TaskId} {dbMsg : SendRow Key Unsigned} {sigMsg : Signed Key Unsigned}
      {accepted : List (Signed Key Unsigned)} {reply : Option String}
      (phase : state.runs.get task = some (.pushing dbMsg sigMsg))
      (answer : accepted = state.accepted ∨
        takes start state.accepted sigMsg = true ∧ accepted = state.accepted ++ [sigMsg])
      (has : reply = none → sigMsg ∈ accepted) :
      Stepped chain start state
        ({ state with accepted, pushed := state.pushed ++ [(task, sigMsg)] }.enter task
          (.recording dbMsg reply))
  | records {task : TaskId} {dbMsg : SendRow Key Unsigned} {sendError : Option String}
      {rows : SerialTable (SendRow Key Unsigned)} {done : Bool} {err : Option String}
      (phase : state.runs.get task = some (.recording dbMsg sendError))
      (updated : Updated state.rows task (fun row =>
        { row with sendSuccess := some sendError.isNone, sendError := some (sendError.getD "") })
          rows) :
      Stepped chain start state ({ state with rows }.enter task (.releasing dbMsg done err))
  | fails {task : TaskId} {dbMsg : SendRow Key Unsigned} {done : Bool} {err : Option String} :
      Stepped chain start state (state.enter task (.releasing dbMsg done err))

variable {action : SendAction Request}

theorem stepRun_stepped {phase : Phase Key Unsigned} (there : state.runs.get task = some phase)
    (stepped : state.stepRun chain start task action phase = some next) :
    Stepped chain start state next := by
  unfold SendState.stepRun at stepped
  split at stepped
  · split at stepped <;> cases stepped
    · exact .reads ‹_›
    all_goals exact .ends
  · cases stepped
    exact .ends
  · rename_i dbMsg
    split at stepped <;> cases stepped
    · exact .locks there ‹_›
    · exact .waits
    all_goals exact .ends
  · split at stepped <;> cases stepped
    · exact .asks there
    all_goals exact .fails
  · split at stepped
    · split at stepped <;> cases stepped
      · rename_i found
        split
        · exact .counts there (.inr ⟨_, found, rfl⟩)
        · exact .counts there (.inl rfl)
      · exact .counts there (.inl rfl)
    all_goals
      cases stepped
      exact .fails
  · split at stepped <;> cases stepped
    · exact .signs there
    · exact .fails
  · rename_i dbMsg sigMsg
    rcases updateRow_cases state.rows task (fun row =>
      { row with nonce := some sigMsg.nonce, signed := some sigMsg }) ‹Answer› with
      ⟨message, unchanged⟩ | ⟨result, changed, updated⟩
    · simp only [unchanged] at stepped
      cases stepped
      exact .fails
    · simp only [changed] at stepped
      cases result with
      | error message =>
        cases stepped
        exact .persists there updated (.inr ⟨_, rfl⟩)
      | ok count =>
        simp only at stepped
        split at stepped <;> cases stepped
        · exact .persists there updated (.inl rfl)
        · exact .persists there updated (.inr ⟨_, rfl⟩)
  · rename_i accept reply dbMsg sigMsg
    generalize chosen : (if accept && takes start state.accepted sigMsg then
      state.accepted ++ [sigMsg] else state.accepted) = accepted at stepped
    have either : accepted = state.accepted ∨
        takes start state.accepted sigMsg = true ∧ accepted = state.accepted ++ [sigMsg] := by
      rw [← chosen]
      split
      · grind
      · exact .inl rfl
    simp only at stepped
    split at stepped <;> cases stepped
    · rename_i possible
      refine .pushes there either fun told => ?_
      by_contra absent
      exact possible ⟨told, absent⟩
  · rename_i dbMsg sendError
    rcases updateRow_cases state.rows task (fun row =>
      { row with sendSuccess := some sendError.isNone, sendError := some (sendError.getD "") })
        ‹Answer› with ⟨message, unchanged⟩ | ⟨result, changed, updated⟩
    · simp only [unchanged] at stepped
      cases stepped
      exact .fails
    · simp only [changed] at stepped
      cases result with
      | error message | ok count =>
        cases stepped
        exact .records there updated
  · simp only at stepped
    split at stepped <;> cases stepped <;> exact .ends
  · cases stepped
    exact .ends
  · cases stepped

theorem step_stepped (stepped : state.step chain start action = some next) :
    Stepped chain start state next := by
  unfold SendState.step at stepped
  split at stepped
  · cases stepped
    exact .send _
  · split at stepped <;> cases stepped
    exact .run ‹_›
  · obtain ⟨task, -, stepped⟩ := Option.bind_eq_some_iff.mp stepped
    obtain ⟨phase, there, stepped⟩ := Option.bind_eq_some_iff.mp stepped
    exact stepRun_stepped there stepped

end Steps

section Invariant

omit [DecidableEq Unsigned]

variable {task : TaskId} {phase : Phase Key Unsigned}
  {change : SendRow Key Unsigned → SendRow Key Unsigned}

structure RowSound (chain : Chain Key Request Unsigned) (start : Key → Nat)
    (accepted : List (Signed Key Unsigned)) (row : SendRow Key Unsigned) : Prop where
  account : chain.account row.fromKey row.unsigned = row.fromKey
  nonce : row.nonce = row.signed.map Signed.nonce
  signed : ∀ sigMsg, row.signed = some sigMsg →
    sigMsg.sender = row.fromKey ∧ Due start accepted sigMsg.sender sigMsg.nonce
  success : row.sendSuccess = some true → ∃ sigMsg ∈ accepted, row.signed = some sigMsg

def Unique (rows : SerialTable (SendRow Key Unsigned)) : Prop :=
  ∀ task row other row', rows.get task = some row → rows.get other = some row' → task ≠ other →
    row.fromKey = row'.fromKey → row.nonce = row'.nonce → row.nonce.isSome →
      row.sendSuccess = some false ∨ row'.sendSuccess = some false

def PhaseSound (start : Key → Nat) (rows : SerialTable (SendRow Key Unsigned))
    (accepted : List (Signed Key Unsigned)) (task : TaskId) : Phase Key Unsigned → Prop
  | .reading | .releasing .. => True
  | .locking dbMsg => rows.get task = some dbMsg
  | .asking dbMsg => rows.get task = some dbMsg ∧ dbMsg.nonce = none
  | .counting dbMsg nonce | .signing dbMsg nonce =>
    (rows.get task = some dbMsg ∧ dbMsg.nonce = none) ∧ Due start accepted dbMsg.fromKey nonce
  | .persisting dbMsg sigMsg =>
    (rows.get task = some dbMsg ∧ dbMsg.nonce = none) ∧ sigMsg.sender = dbMsg.fromKey ∧
      Due start accepted sigMsg.sender sigMsg.nonce
  | .pushing _ sigMsg => ∃ row, rows.get task = some row ∧ row.signed = some sigMsg
  | .recording _ sendError => ∃ row sigMsg, rows.get task = some row ∧ row.signed = some sigMsg ∧
      (sendError = none → sigMsg ∈ accepted)

structure Sound (chain : Chain Key Request Unsigned) (start : Key → Nat)
    (state : SendState Key Unsigned) : Prop where
  row : ∀ task row, state.rows.get task = some row → RowSound chain start state.accepted row
  unique : Unique state.rows
  pushed : ∀ entry ∈ state.pushed, ∃ row, state.rows.get entry.1 = some row ∧
    row.signed = some entry.2
  phase : ∀ task phase, state.runs.get task = some phase →
    PhaseSound start state.rows state.accepted task phase
  contiguous : Contiguous start state.accepted

theorem Sound.init : Sound chain start SendState.init where
  row := nofun
  unique := nofun
  pushed := nofun
  phase := nofun
  contiguous := by
    intro key nonce from_start below
    exact absurd from_start (Nat.not_le_of_lt below)

theorem Sound.enter (sound : Sound chain start state)
    (known : PhaseSound start state.rows state.accepted task phase) :
    Sound chain start (state.enter task phase) := by
  refine { sound with phase := fun other found there => ?_ }
  rw [SendState.enter, KeyMap.get_put] at there
  split at there
  · grind [SendState.enter]
  · exact sound.phase other found there

theorem PhaseSound.append (known : PhaseSound start rows accepted task phase)
    (message : Signed Key Unsigned) :
    PhaseSound start rows (accepted ++ [message]) task phase := by
  cases phase with
  | reading | locking | asking | pushing | releasing => exact known
  | counting dbMsg nonce | signing dbMsg nonce => exact ⟨known.1, known.2.append message⟩
  | persisting dbMsg sigMsg => exact ⟨known.1, known.2.1, known.2.2.append message⟩
  | recording dbMsg sendError => grind [PhaseSound]

theorem RowSound.append {row : SendRow Key Unsigned} (sound : RowSound chain start accepted row)
    (message : Signed Key Unsigned) : RowSound chain start (accepted ++ [message]) row where
  __ := sound
  signed := fun sigMsg signed =>
    ⟨(sound.signed sigMsg signed).1, (sound.signed sigMsg signed).2.append message⟩
  success := by
    intro success
    obtain ⟨sigMsg, member, signed⟩ := sound.success success
    exact ⟨sigMsg, mem_append_left _ member, signed⟩

theorem Updated.get (updated : Updated rows task change rows') (id : TaskId) :
    rows'.get id = if id = task then (rows.get task).map change else rows.get id := by
  rw [updated.2, SerialTable.get_update]
  split
  · rename_i same
    simp [same]
  · simp

theorem Unique.update (unique : Unique rows) (updated : Updated rows task change rows') :
    Unique rows' := by
  -- the changed row against another one
  have changed : ∀ row other row', rows.get task = some row → rows.get other = some row' →
      task ≠ other → (change row).fromKey = row'.fromKey → (change row).nonce = row'.nonce →
      (change row).nonce.isSome →
        (change row).sendSuccess = some false ∨ row'.sendSuccess = some false := by
    intro row other row' found found' apart sameKey sameNonce isSome
    by_contra neither
    have duplicate : duplicates rows task (change row) = true := by
      simp only [not_or] at neither
      simp only [duplicates, isSome, Bool.and_eq_true, bne_iff_ne, ne_eq,
        neither.1, not_false_eq_true, true_and, any_eq_true]
      refine ⟨(other, row'), SerialTable.get_eq_some.mp found', ?_⟩
      simp [neither.2, sameKey, sameNonce, Ne.symm apart]
    rw [updated.1 row found] at duplicate
    cases duplicate
  intro first row second row' found found' apart sameKey sameNonce isSome
  rw [updated.get] at found found'
  split at found
  · rename_i same
    subst same
    obtain ⟨old, there, rfl⟩ := Option.map_eq_some_iff.mp found
    rw [if_neg (Ne.symm apart)] at found'
    exact changed old second row' there found' apart sameKey sameNonce isSome
  · split at found'
    · rename_i same
      subst same
      obtain ⟨old, there, rfl⟩ := Option.map_eq_some_iff.mp found'
      exact (changed old first row there found (Ne.symm apart) sameKey.symm sameNonce.symm
        (sameNonce ▸ isSome)).symm
    · grind [Unique]

theorem PhaseSound.congr (same : rows'.get task = rows.get task)
    (known : PhaseSound start rows accepted task phase) :
    PhaseSound start rows' accepted task phase := by
  unfold PhaseSound at known ⊢
  rw [same]
  exact known

variable {dbMsg : SendRow Key Unsigned}

variable (sound : Sound chain start state)
include sound

theorem Sound.update {after : Phase Key Unsigned} (there : state.rows.get task = some dbMsg)
    (updated : Updated state.rows task change rows)
    (row : RowSound chain start state.accepted (change dbMsg))
    (pushed : ∀ sigMsg, dbMsg.signed = some sigMsg → (change dbMsg).signed = some sigMsg)
    (known : PhaseSound start rows state.accepted task after) :
    Sound chain start ({ state with rows }.enter task after) where
  row := by
    intro id found same
    rw [SendState.enter, updated.get, there] at same
    split at same
    · cases same
      exact row
    · exact sound.row id found same
  unique := sound.unique.update updated
  pushed := by
    intro entry member
    obtain ⟨found, old, signed⟩ := sound.pushed entry member
    rw [SendState.enter, updated.get]
    split
    · grind
    · exact ⟨found, old, signed⟩
  phase := by
    intro other found same
    rw [SendState.enter, KeyMap.get_put] at same
    split at same
    · grind [SendState.enter]
    · rename_i apart
      refine (sound.phase other found same).congr ?_
      show rows.get other = state.rows.get other
      rw [updated.get, if_neg apart]
  contiguous := sound.contiguous

theorem Sound.maxNonce {dbNonce : Nat} (found : Message.maxNonce state.rows key = some dbNonce) :
    Due start state.accepted key (dbNonce + 1) := by
  have member := max?_mem found
  obtain ⟨⟨task, row⟩, present, selected⟩ := mem_filterMap.mp member
  split at selected
  · rename_i sent
    obtain ⟨rfl, success⟩ := sent
    have rowSound := sound.row task row (SerialTable.get_eq_some.mpr present)
    obtain ⟨sigMsg, has, signed⟩ := rowSound.success success
    obtain ⟨sender, due⟩ := rowSound.signed sigMsg signed
    have nonce : sigMsg.nonce = dbNonce := by
      have same := rowSound.nonce.symm.trans selected
      rw [signed] at same
      exact Option.some.inj same
    subst nonce
    rw [sender] at due
    exact ⟨due.1.trans (Nat.le_succ _), lt_nextNonce.mpr (.inr ⟨sigMsg, has, sender, le_rfl⟩)⟩
  · cases selected

theorem Sound.push {sigMsg : Signed Key Unsigned} {reply : Option String}
    (phase : state.runs.get task = some (.pushing dbMsg sigMsg))
    (answer : accepted = state.accepted ∨
      takes start state.accepted sigMsg = true ∧ accepted = state.accepted ++ [sigMsg])
    (has : reply = none → sigMsg ∈ accepted) :
    Sound chain start
      ({ state with accepted, pushed := state.pushed ++ [(task, sigMsg)] }.enter task
        (.recording dbMsg reply)) := by
  obtain ⟨row, found, signed⟩ := sound.phase task _ phase
  have due := ((sound.row task row found).signed sigMsg signed).2
  have pushed : ∀ entry ∈ state.pushed ++ [(task, sigMsg)], ∃ row,
      state.rows.get entry.1 = some row ∧ row.signed = some entry.2 := by
    intro entry member
    rcases mem_append.mp member with old | new
    · exact sound.pushed entry old
    · grind
  have after : Sound chain start
      { state with accepted, pushed := state.pushed ++ [(task, sigMsg)] } := by
    rcases answer with rfl | ⟨taken, rfl⟩
    · exact { sound with pushed := pushed }
    · exact
        { row := fun id other there => (sound.row id other there).append sigMsg
          unique := sound.unique
          pushed := pushed
          phase := fun id other there => (sound.phase id other there).append sigMsg
          contiguous := sound.contiguous.append due taken }
  exact after.enter ⟨row, sigMsg, found, signed, has⟩

theorem Sound.send (request : Request) :
    Sound chain start { state with
      rows := state.rows.insert
        { fromKey := chain.sendKey request, unsigned := chain.sendData request } } := by
  have old : ∀ task row, state.rows.get task = some row → task ≠ state.rows.next := by
    intro task row found
    exact (state.rows.below _ (SerialTable.get_eq_some.mp found)).ne
  have kept : ∀ task row, state.rows.get task = some row →
      (state.rows.insert { fromKey := chain.sendKey request, unsigned := chain.sendData request }).get
        task = some row := by
    intro task row found
    rw [SerialTable.get_insert, if_neg (old task row found)]
    exact found
  refine { sound with row := ?_, unique := ?_, pushed := ?_, phase := ?_ }
  · intro task row found
    rw [SerialTable.get_insert] at found
    split at found
    · cases found
      refine ⟨chain.account_send request, rfl, ?_, ?_⟩
      · intro _ signed
        cases signed
      · intro success
        cases success
    · exact sound.row task row found
  · intro task row other row' found found' apart sameKey sameNonce isSome
    rw [SerialTable.get_insert] at found found'
    split at found
    · cases found
      cases isSome
    · split at found'
      · grind
      · exact sound.unique task row other row' found found' apart sameKey sameNonce isSome
  · intro entry member
    obtain ⟨row, found, signed⟩ := sound.pushed entry member
    exact ⟨row, kept _ row found, signed⟩
  · intro task phase there
    have known := sound.phase task phase there
    cases phase with
    | reading | releasing => trivial
    | locking dbMsg => exact kept _ _ known
    | asking dbMsg => exact ⟨kept _ _ known.1, known.2⟩
    | counting dbMsg nonce | signing dbMsg nonce | persisting dbMsg sigMsg =>
      exact ⟨⟨kept _ _ known.1.1, known.1.2⟩, known.2⟩
    | pushing dbMsg sigMsg | recording dbMsg sendError => grind [PhaseSound]

theorem Sound.step (stepped : Stepped chain start state next) : Sound chain start next := by
  cases stepped with
  | send request => exact sound.send request
  | run idle => exact sound.enter trivial
  | waits => exact sound
  | ends =>
    refine { sound with phase := fun other phase there => ?_ }
    rw [KeyMap.get_remove] at there
    split at there
    · cases there
    · exact sound.phase other phase there
  | reads found => exact sound.enter found
  | @locks task dbMsg locks phase got =>
    have found : state.rows.get task = some dbMsg := sound.phase task _ phase
    have unlocked : Sound chain start { state with locks } := { sound with }
    apply unlocked.enter
    unfold SendState.afterLock
    split
    · rename_i unsigned
      exact ⟨found, unsigned⟩
    · rename_i signed
      exact ⟨dbMsg, found, signed⟩
    · trivial
  | @asks task dbMsg phase =>
    have known := sound.phase task _ phase
    rw [(sound.row task dbMsg known.1).account]
    exact sound.enter ⟨known, start_le_nextNonce, le_refl _⟩
  | @counts task dbMsg msgNonce nonce phase either =>
    have known := sound.phase task _ phase
    rw [(sound.row task dbMsg known.1.1).account] at either
    rcases either with rfl | ⟨dbNonce, found, rfl⟩
    · exact sound.enter known
    · exact sound.enter ⟨known.1, sound.maxNonce found⟩
  | @signs task dbMsg msgNonce bytes phase =>
    have known := sound.phase task _ phase
    rw [(sound.row task dbMsg known.1.1).account]
    exact sound.enter ⟨known.1, rfl, known.2⟩
  | @persists task dbMsg sigMsg rows after phase updated goesOn =>
    obtain ⟨⟨found, unsigned⟩, sender, due⟩ := sound.phase task _ phase
    have before := sound.row task dbMsg found
    have none : dbMsg.signed = none := by
      have same := before.nonce.symm.trans unsigned
      exact Option.map_eq_none_iff.mp same
    refine sound.update found updated ⟨before.account, rfl, ?_, ?_⟩ ?_ ?_
    · grind
    · intro success
      obtain ⟨other, _, signed⟩ := before.success success
      rw [none] at signed
      cases signed
    · intro other signed
      rw [none] at signed
      cases signed
    · rcases goesOn with rfl | ⟨err, rfl⟩
      · refine ⟨{ dbMsg with nonce := some sigMsg.nonce, signed := some sigMsg }, ?_, rfl⟩
        rw [updated.get, if_pos rfl, found]
        rfl
      · trivial
  | pushes phase answer has => exact sound.push phase answer has
  | @records task dbMsg sendError rows done err phase updated =>
    obtain ⟨row, sigMsg, found, signed, has⟩ := sound.phase task _ phase
    have before := sound.row task row found
    refine sound.update found updated ⟨before.account, before.nonce, before.signed, ?_⟩
      (fun _ same => same) trivial
    intro success
    have told : sendError = none := Option.isNone_iff_eq_none.mp (Option.some.inj success)
    exact ⟨sigMsg, has told, signed⟩
  | fails => exact sound.enter trivial

end Invariant

variable {actions : List (SendAction Request)}

theorem sound_of_run (ran : run (SendState.step chain start) SendState.init actions = some state) :
    Sound chain start state :=
  run_keeps (fun _ _ _ sound stepped => sound.step (step_stepped stepped)) Sound.init ran

/-- In every reached state a message was only pushed in one signed form, no two messages of a
sender that are recorded as sent have the same nonce, and the accepted nonces of a sender have no
gap. -/
theorem nonces_sound (chain : Chain Key Request Unsigned) (start : Key → Nat)
    (ran : run (SendState.step chain start) SendState.init actions = some state) :
    (∀ task sigMsg other, (task, sigMsg) ∈ state.pushed → (task, other) ∈ state.pushed →
      sigMsg = other) ∧
    (∀ task row other row', state.rows.get task = some row → state.rows.get other = some row' →
      task ≠ other → row.fromKey = row'.fromKey → row.sendSuccess = some true →
        row'.sendSuccess = some true → row.nonce ≠ row'.nonce) ∧
    (∀ message ∈ state.accepted, ∀ nonce, start message.sender ≤ nonce → nonce < message.nonce →
      ∃ other ∈ state.accepted, other.sender = message.sender ∧ other.nonce = nonce) := by
  have sound := sound_of_run ran
  refine ⟨?_, ?_, ?_⟩
  · intro task sigMsg other first second
    obtain ⟨row, found, signed⟩ := sound.pushed _ first
    obtain ⟨row', found', signed'⟩ := sound.pushed _ second
    cases found.symm.trans found'
    exact Option.some.inj (signed.symm.trans signed')
  · intro task row other row' found found' apart sameKey success success' sameNonce
    obtain ⟨sigMsg, _, signed⟩ := (sound.row task row found).success success
    have isSome : row.nonce.isSome = true := by
      rw [(sound.row task row found).nonce, signed]
      rfl
    have failed := sound.unique task row other row' found found' apart sameKey sameNonce isSome
    simp [success, success'] at failed
  · intro message member nonce from_start before
    have below : nonce < nextNonce start state.accepted message.sender :=
      lt_nextNonce.mpr (.inr ⟨message, member, rfl, before.le⟩)
    exact sound.contiguous _ nonce from_start below

/-- Two transactions of one account. The first run crashes after its push and is repeated while the
second one waits for the lock. -/
def crashAfterPush : List (SendAction (Nat × Nat)) :=
  [.send (0, 10), .send (0, 20), .run 1, .run 2, .read 1 .ok, .read 2 .ok, .lock 1 .ok,
    .getNonce 1 .ok, .maxNonce 1 .ok, .sign 1 (.ok [1]), .persist 1 .ok, .push 1 true none,
    .crash 1, .lock 2 .ok, .run 1, .read 1 .ok, .lock 1 .ok, .push 1 false none, .record 1 .ok,
    .release 1 .ok, .lock 2 .ok, .getNonce 2 .ok, .maxNonce 2 .ok, .sign 2 (.ok [2]),
    .persist 2 .ok, .push 2 true none, .record 2 .ok, .release 2 .ok]

theorem nonces_sound_crash :
    ∃ state, run (SendState.step (eth Nat Nat) fun _ => 7) SendState.init crashAfterPush
        = some state ∧
      state.pushed.map (fun entry => (entry.1, entry.2.nonce)) = [(1, 7), (1, 7), (2, 8)] ∧
      (∀ task sigMsg other, (task, sigMsg) ∈ state.pushed → (task, other) ∈ state.pushed →
        sigMsg = other) ∧
      (∀ task row other row', state.rows.get task = some row → state.rows.get other = some row' →
        task ≠ other → row.fromKey = row'.fromKey → row.sendSuccess = some true →
          row'.sendSuccess = some true → row.nonce ≠ row'.nonce) ∧
      ∀ message ∈ state.accepted, ∀ nonce, 7 ≤ nonce → nonce < message.nonce →
        ∃ other ∈ state.accepted, other.sender = message.sender ∧ other.nonce = nonce :=
  ⟨_, rfl, rfl, nonces_sound (eth Nat Nat) (fun _ => 7) (show run _ _ crashAfterPush = _ from rfl)⟩

end Curio.Message
