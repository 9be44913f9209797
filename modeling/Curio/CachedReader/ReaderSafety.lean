import Curio.CachedReader.SharedReader

/-! When shared readers stay open: the references of a reader against the calls that hold it, and
its cache keys against its callbacks. -/

namespace Curio.CachedReader

open Entries StepMachine List

def referring (calls : List CallState) (id : Nat) : Nat :=
  calls.countP fun call => call.reader = some id

/-- The keys of a reader, and the callbacks that still have to run for keys it has lost. -/
def tokens (state : State) (id : Nat) : Nat :=
  state.pieceReaderCache.entries.countP (fun entry => entry.2 = id) + state.callbacks.count id

structure ReaderSound (state : State) (id : Nat) (r : SectionReader) : Prop where
  refs : r.refs = referring state.calls id
  once : tokens state id + (if r.expired then 1 else 0) ≤ 1
  closed : r.closes = 0 ∨ r.closes = 1 ∧ r.expired = true ∧ r.refs = 0
  resolved : r.ready = true → r.err = none → r.reader = true
  handled : .handle id ∈ state.calls → r.reader = true

structure InRange (state : State) : Prop where
  calls : ∀ call ∈ state.calls, ∀ id, call.reader = some id → id < state.readers.length
  cache : ∀ entry ∈ state.pieceReaderCache.entries, entry.2 < state.readers.length
  callbacks : ∀ id ∈ state.callbacks, id < state.readers.length

structure Sound (state : State) : Prop where
  range : InRange state
  readers : ∀ id r, state.readers[id]? = some r → ReaderSound state id r

theorem referring_append (calls : List CallState) (call : CallState) (id : Nat) :
    referring (calls ++ [call]) id =
      referring calls id + if call.reader = some id then 1 else 0 := by
  simp [referring]

variable {calls : List CallState} {index : Nat} {pieceCid : PieceCid} {id : Nat} {key : String}

theorem referring_set {old : CallState} (there : calls[index]? = some old) (call : CallState)
    (id : Nat) :
    referring (calls.set index call) id + (if old.reader = some id then 1 else 0) =
      referring calls id + if call.reader = some id then 1 else 0 := by
  grind [referring]

theorem referring_pos {call : CallState} (there : calls[index]? = some call)
    (refers : call.reader = some id) :
    0 < referring calls id :=
  countP_pos_iff.mpr ⟨call, mem_of_getElem? there, by simpa using refers⟩

theorem tokens_dropKey {state : State} :
    tokens (state.dropKey key) id = tokens state id := by
  unfold State.dropKey
  split
  · rfl
  · rename_i owner got
    have perm := (KeyMap.entries_perm got).countP_eq (fun entry => decide (entry.2 = id))
    simp only [countP_cons, decide_eq_true_eq] at perm
    simp only [tokens, count_append, count_singleton, perm, beq_iff_eq]
    split <;> omega

theorem tokens_cacheSet (state : State) (oneKey : (getCacheKeys pieceCid).length ≤ 1)
    (fresh id : Nat) :
    (cacheSet state.pieceReaderCache pieceCid fresh).entries.countP (fun entry => entry.2 = id) ≤
      state.pieceReaderCache.entries.countP (fun entry => entry.2 = id) +
        if fresh = id then 1 else 0 := by
  unfold cacheSet
  match keys : getCacheKeys pieceCid, oneKey with
  | [], _ => exact Nat.le_add_right _ _
  | [key], _ =>
    simp only [foldl_cons, foldl_nil, KeyMap.put, countP_cons, decide_eq_true_eq]
    have fewer : (KeyMap.without state.pieceReaderCache.entries key).countP
        (fun entry => decide (entry.2 = id)) ≤
          state.pieceReaderCache.entries.countP (fun entry => decide (entry.2 = id)) :=
      filter_sublist.countP_le
    split <;> omega

section Steps

variable {state next : State} {id index : Nat} {r after : SectionReader} {old call : CallState}

attribute [local grind] CallState.reader State.setReader State.setCall

theorem ReaderSound.open (sound : ReaderSound state id r)
    (referred : 0 < referring state.calls id) :
    r.closes = 0 := by
  rcases sound.closed with unclosed | ⟨_, _, unreferred⟩
  · exact unclosed
  · have refs := sound.refs
    omega

theorem ReaderSound.unexpired (sound : ReaderSound state id r) (kept : 0 < tokens state id) :
    r.expired = false ∧ r.closes = 0 := by
  have once := sound.once
  have closed := sound.closed
  grind

theorem inRange_iff : InRange state ↔ ∀ id, state.readers.length ≤ id →
    referring state.calls id = 0 ∧ tokens state id = 0 := by
  simp only [referring, tokens, Nat.add_eq_zero_iff, countP_eq_zero, count_eq_zero,
    decide_eq_true_eq]
  constructor
  · intro range id beyond
    refine ⟨fun call member refers => ?_, fun entry member => ?_, fun member => ?_⟩
    · exact absurd (range.calls call member id refers) (not_lt.mpr beyond)
    · have inside := range.cache entry member
      omega
    · exact absurd (range.callbacks id member) (not_lt.mpr beyond)
  · intro unused
    refine ⟨fun call member id refers => ?_, fun entry member => ?_, fun id member => ?_⟩
    all_goals grind

/-- What a step leaves as it was of a reader: its references, and no key is new. -/
structure Untouched (state next : State) (id : Nat) : Prop where
  calls : referring next.calls id = referring state.calls id
  keys : tokens next id ≤ tokens state id
  handles : .handle id ∈ next.calls → .handle id ∈ state.calls

theorem ReaderSound.untouched (sound : ReaderSound state id r) (same : Untouched state next id) :
    ReaderSound next id r where
  __ := sound
  refs := by rw [sound.refs, same.calls]
  once := le_trans (Nat.add_le_add_right same.keys _) sound.once
  handled member := sound.handled (same.handles member)

theorem close_eq_some (returned : r.close = some after) : after = { r with
    refs := r.refs - 1
    closes := r.closes + if r.refs - 1 = 0 ∧ r.expired = true then 1 else 0 } := by
  grind [SectionReader.close, SectionReader.closeUnderlying]

theorem expire_eq_some (returned : r.expire = some after) : after = { r with
    expired := true
    closes := r.closes + if r.refs ≤ 0 then 1 else 0 } := by
  grind [SectionReader.expire, SectionReader.closeUnderlying]

theorem mem_set_handle {other : Nat} (plain : call ≠ .handle other)
    (member : .handle other ∈ calls.set index call) : .handle other ∈ calls := by
  grind

theorem removeKeys_frame (state : State) (pieceCid : PieceCid) :
    (state.removeKeys pieceCid).readers = state.readers ∧
      (state.removeKeys pieceCid).calls = state.calls := by
  unfold State.removeKeys
  induction getCacheKeys pieceCid generalizing state with
  | nil => exact ⟨rfl, rfl⟩
  | cons key rest ih => grind [State.dropKey]

theorem tokens_of_get (got : state.pieceReaderCache.get key = some id) :
    0 < tokens state id := by
  have counted : 0 < state.pieceReaderCache.entries.countP (fun entry => decide (entry.2 = id)) :=
    countP_pos_iff.mpr ⟨(key, id), KeyMap.get_eq_some.mp got, by simp⟩
  unfold tokens
  omega

/-- A call that creates a reader puts it under one key at most. -/
def OneKey (state : State) : Action → Prop
  | .get pieceCid => cacheGet state.pieceErrorCache pieceCid = none →
      cacheGet state.pieceReaderCache pieceCid = none → (getCacheKeys pieceCid).length ≤ 1
  | _ => True

variable (sound : Sound state)
include sound

theorem Sound.unused (beyond : state.readers.length ≤ id) :
    referring state.calls id = 0 ∧ tokens state id = 0 :=
  inRange_iff.mp sound.range id beyond

theorem Sound.same (readers : next.readers = state.readers) (same : ∀ id, Untouched state next id) :
    Sound next := by
  refine ⟨inRange_iff.mpr fun id beyond => ?_, fun id r seen => ?_⟩
  · have unused := sound.unused (readers ▸ beyond)
    have kept := same id
    exact ⟨kept.calls.trans unused.1, Nat.le_zero.mp (unused.2 ▸ kept.keys)⟩
  · exact (sound.readers id r (readers ▸ seen)).untouched (same id)

theorem Sound.replaced (found : state.readers[id]? = some r)
    (readers : next.readers = state.readers.set id after)
    (others : ∀ other, other ≠ id → Untouched state next other)
    (here : ReaderSound state id r → ReaderSound next id after) : Sound next := by
  have inside := (List.getElem?_eq_some_iff.mp found).1
  refine ⟨inRange_iff.mpr fun other beyond => ?_, fun other q seen => ?_⟩
  · rw [readers, length_set] at beyond
    have unused := sound.unused beyond
    have kept := others other (by omega)
    exact ⟨kept.calls.trans unused.1, Nat.le_zero.mp (unused.2 ▸ kept.keys)⟩
  · rw [readers] at seen
    by_cases same : other = id
    · subst same
      rw [getElem?_set_self inside] at seen
      cases seen
      exact here (sound.readers other r found)
    · rw [getElem?_set_ne (Ne.symm same)] at seen
      exact (sound.readers other q seen).untouched (others other same)

theorem Sound.moved (there : state.calls[index]? = some old) (refers : old.reader = some id)
    (still : call.reader = some id)
    (ready : call = .handle id → ∀ r, state.readers[id]? = some r → r.reader = true) :
    Sound (state.setCall index call) := by
  have count (other : Nat) : referring (state.calls.set index call) other =
      referring state.calls other := by
    have set := referring_set there call other
    rw [refers, still] at set
    exact add_right_cancel set
  have inside := sound.range.calls old (mem_of_getElem? there) id refers
  have found := getElem?_eq_getElem inside
  refine sound.replaced found (set_getElem_self inside).symm ?_ fun here => ?_
  · intro other differ
    have plain : call ≠ .handle other := by grind
    exact ⟨count other, le_refl _, mem_set_handle plain⟩
  · refine ⟨here.refs.trans (by rw [← count]; rfl), here.once, here.closed, here.resolved, ?_⟩
    intro member
    rcases mem_or_eq_of_mem_set member with kept | same
    · exact here.handled kept
    · exact ready same.symm _ found

theorem Sound.changed (found : state.readers[id]? = some r) (refs : after.refs = r.refs)
    (expired : after.expired = r.expired) (closes : after.closes = r.closes)
    (made : r.reader = true → after.reader = true)
    (resolved : after.ready = true → after.err = none → after.reader = true) :
    Sound (state.setReader id after) := by
  refine sound.replaced found rfl (fun _ _ => ⟨rfl, le_refl _, fun member => member⟩) fun here => ?_
  refine ⟨refs ▸ here.refs, expired ▸ here.once, ?_, resolved,
    fun member => made (here.handled member)⟩
  rw [refs, expired, closes]
  exact here.closed

theorem Sound.giveBack (there : state.calls[index]? = some old) (refers : old.reader = some id)
    (returned : state.giveBack index id = some next) : Sound next := by
  unfold State.giveBack at returned
  split at returned
  · cases returned
  · rename_i r found
    obtain ⟨closed, done, rfl⟩ := Option.map_eq_some_iff.mp returned
    obtain rfl := close_eq_some done
    have count := fun other => referring_set there .ended other
    refine sound.replaced found rfl (fun other differ => ⟨?_, le_refl _, mem_set_handle (by simp)⟩)
      fun here => ?_
    · grind
    · have unclosed := here.open (referring_pos there refers)
      have refs := here.refs
      exact ⟨by grind, here.once, by grind, here.resolved,
        fun member => here.handled (mem_set_handle (by simp) member)⟩

theorem Sound.dropKey (key : String) : Sound (state.dropKey key) := by
  have frame : (state.dropKey key).readers = state.readers ∧
      (state.dropKey key).calls = state.calls := by
    unfold State.dropKey
    split <;> exact ⟨rfl, rfl⟩
  obtain ⟨readers, calls⟩ := frame
  refine sound.same readers fun id => ⟨by rw [calls], tokens_dropKey.le, ?_⟩
  rw [calls]
  exact fun member => member

theorem Sound.removeKeys (pieceCid : PieceCid) : Sound (state.removeKeys pieceCid) := by
  unfold State.removeKeys
  induction getCacheKeys pieceCid generalizing state with
  | nil => exact sound
  | cons key rest ih => exact ih (sound.dropKey key)

theorem Sound.callback (pending : id ∈ state.callbacks) (found : state.readers[id]? = some r)
    (returned : r.expire = some after) :
    Sound { state.setReader id after with callbacks := state.callbacks.erase id } := by
  obtain rfl := expire_eq_some returned
  have waiting : 0 < state.callbacks.count id := count_pos_iff.mpr pending
  refine sound.replaced found rfl (fun other differ => ⟨rfl, ?_, fun member => member⟩)
    fun here => ?_
  · simp [tokens, State.setReader, count_erase_of_ne differ]
  · have once := here.once
    have refs := here.refs
    obtain ⟨unexpired, unclosed⟩ :=
      here.unexpired (Nat.lt_of_lt_of_le waiting (Nat.le_add_left _ _))
    refine ⟨here.refs, ?_, by grind, here.resolved, here.handled⟩
    simp only [tokens] at once ⊢
    grind

theorem Sound.hit (found : state.readers[id]? = some r) (cached : 0 < tokens state id) :
    Sound { state.setReader id { r with refs := r.refs + 1 } with
      calls := state.calls ++ [.waiting id] } := by
  have count := referring_append state.calls (.waiting id)
  refine sound.replaced found rfl (fun other differ => ⟨?_, le_refl _, by simp⟩) fun here => ?_
  · grind
  · have unclosed := (here.unexpired cached).2
    have refs := here.refs
    exact ⟨by grind, here.once, .inl unclosed, here.resolved,
      fun member => here.handled (by simpa using member)⟩

theorem Sound.miss (oneKey : (getCacheKeys pieceCid).length ≤ 1) :
    Sound { state with
      readers := state.readers ++ [{ pieceCid := pieceCid, refs := 1 }]
      pieceReaderCache := cacheSet state.pieceReaderCache pieceCid state.readers.length
      calls := state.calls ++ [.creating state.readers.length] } := by
  have count := referring_append state.calls (.creating state.readers.length)
  have keys := tokens_cacheSet state oneKey state.readers.length
  have others (other : Nat) (differ : other ≠ state.readers.length) :
      Untouched state { state with
        readers := state.readers ++ [{ pieceCid := pieceCid, refs := 1 }]
        pieceReaderCache := cacheSet state.pieceReaderCache pieceCid state.readers.length
        calls := state.calls ++ [.creating state.readers.length] } other := by
    refine ⟨by grind, ?_, by simp⟩
    have fewer := keys other
    rw [if_neg (Ne.symm differ)] at fewer
    exact Nat.add_le_add_right fewer _
  refine ⟨inRange_iff.mpr fun other beyond => ?_, fun other q seen => ?_⟩
  · simp only [length_append, length_singleton] at beyond
    have unused := sound.unused (by omega : state.readers.length ≤ other)
    have kept := others other (by omega)
    exact ⟨kept.calls.trans unused.1, Nat.le_zero.mp (unused.2 ▸ kept.keys)⟩
  · rcases lt_or_ge other state.readers.length with before | new
    · rw [getElem?_append_left before] at seen
      exact (sound.readers other q seen).untouched (others other before.ne)
    · obtain ⟨rfl, rfl⟩ : other = state.readers.length ∧
          (⟨pieceCid, false, false, none, 1, false, 0⟩ : SectionReader) = q := by grind
      obtain ⟨unreferred, unkeyed⟩ := sound.unused new
      have fewer := keys state.readers.length
      refine ⟨by grind, ?_, .inl rfl, fun ready => (by cases ready), fun member => ?_⟩
      · unfold tokens at unkeyed ⊢
        grind
      · grind [referring]

theorem Sound.get (oneKey : OneKey state (.get pieceCid))
    (returned : state.get pieceCid = some next) :
    Sound next := by
  unfold State.get at returned
  split at returned
  · cases returned
    refine sound.same rfl fun id => ⟨?_, le_refl _, by simp⟩
    rw [referring_append, if_neg (by simp [CallState.reader]), add_zero]
  · rename_i failed
    split at returned
    · rename_i missed
      cases returned
      exact sound.miss (oneKey failed missed)
    · rename_i id cached
      obtain ⟨key, _, got⟩ := exists_of_findSome?_eq_some cached
      split at returned <;> cases returned
      · rename_i r found
        exact sound.hit found (tokens_of_get got)

theorem Sound.step {action : Action} (oneKey : OneKey state action)
    (stepped : state.step action = some next) : Sound next := by
  cases action with
  | get pieceCid => exact sound.get oneKey stepped
  | created index =>
    simp only [State.step] at stepped
    split at stepped <;> try cases stepped
    rename_i id there
    split at stepped <;> cases stepped
    rename_i r found
    have made : Sound (state.setReader id { r with reader := true, ready := true }) :=
      sound.changed found rfl rfl rfl (fun _ => rfl) fun _ _ => rfl
    exact made.moved there rfl rfl (by grind)
  | createFailed index finalErr =>
    simp only [State.step] at stepped
    split at stepped <;> try cases stepped
    rename_i id there
    split at stepped <;> cases stepped
    have moved : Sound (state.setCall index (.failing id finalErr)) :=
      sound.moved there rfl rfl (by simp)
    exact moved.same rfl fun _ => ⟨rfl, le_refl _, fun member => member⟩
  | removeFailed index =>
    simp only [State.step] at stepped
    split at stepped <;> try cases stepped
    rename_i id finalErr there
    split at stepped <;> cases stepped
    rename_i r found
    obtain ⟨readers, calls⟩ := removeKeys_frame state r.pieceCid
    have kept : (state.removeKeys r.pieceCid).readers[id]? = some r := readers ▸ found
    have marked : Sound ((state.removeKeys r.pieceCid).setReader id
        { r with err := some finalErr, ready := true }) :=
      (sound.removeKeys r.pieceCid).changed kept rfl rfl rfl (fun made => made) (by simp)
    exact marked.moved (calls ▸ there) rfl rfl (by simp)
  | wake index =>
    simp only [State.step] at stepped
    split at stepped <;> try cases stepped
    rename_i id there
    split at stepped <;> try cases stepped
    rename_i r found
    split at stepped <;> try cases stepped
    rename_i ready
    split at stepped
    · rename_i fine
      cases stepped
      refine sound.moved there rfl rfl fun _ q seen => ?_
      cases found.symm.trans seen
      exact (sound.readers id r found).resolved ready fine
    · exact sound.giveBack there rfl stepped
  | cancel index | close index =>
    simp only [State.step] at stepped
    split at stepped <;> try cases stepped
    rename_i id there
    exact sound.giveBack there rfl stepped
  | evict key =>
    simp only [State.step] at stepped
    split at stepped <;> cases stepped
    exact sound.dropKey key
  | callback id =>
    simp only [State.step] at stepped
    split at stepped <;> try cases stepped
    rename_i pending
    split at stepped <;> try cases stepped
    rename_i r found
    obtain ⟨expired, returned, rfl⟩ := Option.map_eq_some_iff.mp stepped
    exact sound.callback pending found returned
  | evictError key =>
    cases stepped
    exact sound.same rfl fun _ => ⟨rfl, le_refl _, fun member => member⟩

end Steps

theorem sound_initial : Sound State.initial where
  range := ⟨fun _ member => (by cases member), fun _ member => (by cases member),
    fun _ member => by cases member⟩
  readers := fun _ _ found => by cases found

end Curio.CachedReader
