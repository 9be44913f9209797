import Curio.Window.Compute

/-! Window PoSt and the sectors of a partition: which vanilla proofs go into the SNARK, which sectors
are submitted as skipped, and which ones the verifier is given. -/

namespace Curio.Window

open GoRuntime Paths List

variable {i : Nat} {s : ExtendedSectorInfo} {allSectors : BitField}

/-- After the places before `i` their proofs stand in front, and the rest is untouched. -/
theorem compactLoop_spec (vproofs : List Bytes) (inside : i ≤ vproofs.length) :
    ∃ left, (range i).foldl compactStep (vproofs, 0) =
        ((vproofs.take i).filter (fun proof => proof.length ≠ 0) ++ (left ++ vproofs.drop i),
          left.length) ∧
      ((vproofs.take i).filter fun proof => proof.length ≠ 0).length + left.length = i := by
  induction i with
  | zero => exact ⟨[], rfl, rfl⟩
  | succ i ih =>
    obtain ⟨left, ran, places⟩ := ih (by omega)
    rw [drop_eq_getElem_cons inside] at ran
    rw [range_succ, foldl_append, foldl_cons, ran, take_succ_eq_append_getElem inside,
      filter_append]
    generalize (vproofs.take i).filter _ = front at places
    generalize vproofs[i] = proof
    generalize vproofs.drop (i + 1) = rest
    have here : (front ++ (left ++ proof :: rest)).getD i [] = proof := by
      grind
    have free : i - left.length = front.length := by omega
    simp only [compactStep, here, free]
    by_cases empty : proof = []
    · refine ⟨left ++ [proof], ?_, ?_⟩
      · simp [empty]
      · grind
    · cases left with
      | nil => exact ⟨[], by simp [empty], by grind⟩
      | cons first others =>
        -- the proof is copied over the first of the places that are left
        refine ⟨others ++ [proof], ?_, ?_⟩
        · simp [empty]
        · grind

theorem compact_eq (vproofs : List Bytes) :
    compact vproofs = vproofs.filter fun proof => proof.length ≠ 0 := by
  obtain ⟨left, ran, places⟩ := compactLoop_spec vproofs (Nat.le_refl _)
  simp [compact, ran]

section Readers

variable (env : Env) (sectors : List PostSectorChallenge)

def Env.vanilla (env : Env) (challenge : PostSectorChallenge) : Slice :=
  match env.generateSingleVanillaProof challenge with
  | .ok vanilla => vanilla
  | .error _ => none

variable {s : PostSectorChallenge}

theorem finishReader_some {reading : Reading} (there : sectors[i]? = some s) :
    finishReader env sectors reading i = match env.vanilla s with
      | some vanilla => { reading with vproofs := reading.vproofs.set i vanilla }
      | none => { reading with skipped := reading.skipped ++ [s.sectorNumber] } := by
  simp only [finishReader, Env.vanilla]
  grind

theorem mem_skipped_foldl (order : List Nat) (reading : Reading) (number : SectorNumber) :
    number ∈ (order.foldl (finishReader env sectors) reading).skipped ↔
      number ∈ reading.skipped ∨ ∃ i ∈ order, ∃ s, sectors[i]? = some s ∧ env.vanilla s = none ∧
        s.sectorNumber = number := by
  induction order generalizing reading with
  | nil => simp
  | cons i rest ih =>
    rw [foldl_cons, ih]
    have first : number ∈ (finishReader env sectors reading i).skipped ↔
        number ∈ reading.skipped ∨ ∃ s, sectors[i]? = some s ∧ env.vanilla s = none ∧
          s.sectorNumber = number := by
      cases there : sectors[i]? with
      | none => simp [finishReader, there]
      | some s => grind [finishReader, Env.vanilla]
    rw [first, exists_mem_cons_iff, or_assoc]

theorem foldl_finishReader_length (order : List Nat) (reading : Reading) :
    (order.foldl (finishReader env sectors) reading).vproofs.length = reading.vproofs.length := by
  induction order generalizing reading with
  | nil => rfl
  | cons i rest ih =>
    grind [finishReader]

theorem getElem?_foldl_finishReader {order : List Nat} {j : Nat} (there : sectors[j]? = some s)
    (reading : Reading) {old : Bytes} (before : reading.vproofs[j]? = some old) :
    (order.foldl (finishReader env sectors) reading).vproofs[j]?
      = some (if j ∈ order then (env.vanilla s).getD old else old) := by
  induction order generalizing reading old with
  | nil => simpa using before
  | cons i rest ih =>
    rw [foldl_cons]
    by_cases same : i = j
    · subst same
      have now : (finishReader env sectors reading i).vproofs[i]?
          = some ((env.vanilla s).getD old) := by
        rw [finishReader_some env sectors there]
        cases env.vanilla s with
        | none => exact before
        | some vanilla => grind
      rw [ih _ now, if_pos mem_cons_self]
      cases env.vanilla s with
      | none | some vanilla => simp
    · have unchanged : (finishReader env sectors reading i).vproofs[j]? = some old := by
        unfold finishReader
        split
        · exact before
        · grind
      rw [ih _ unchanged]
      simp [Ne.symm same]

theorem readVanilla_vproofs :
    (readVanilla env sectors).vproofs = sectors.map fun s => (env.vanilla s).getD [] := by
  apply ext_getElem?
  intro j
  unfold readVanilla
  by_cases inside : j < sectors.length
  · have there : sectors[j]? = some sectors[j] := getElem?_eq_getElem inside
    have before : (replicate sectors.length ([] : Bytes))[j]? = some [] := by simp [inside]
    have ended : j ∈ env.order sectors.length :=
      (env.order_perm _).mem_iff.mpr (mem_range.mpr inside)
    rw [getElem?_foldl_finishReader env sectors there _ before, if_pos ended, getElem?_map, there]
    rfl
  · grind [foldl_finishReader_length]

theorem mem_readVanilla_skipped (number : SectorNumber) :
    number ∈ (readVanilla env sectors).skipped ↔
      ∃ s ∈ sectors, env.vanilla s = none ∧ s.sectorNumber = number := by
  unfold readVanilla
  rw [mem_skipped_foldl]
  simp only [not_mem_nil, false_or]
  constructor
  · grind
  · rintro ⟨s, member, rest⟩
    obtain ⟨i, there⟩ := mem_iff_getElem?.mp member
    have inside := (List.getElem?_eq_some_iff.mp there).1
    exact ⟨i, (env.order_perm _).mem_iff.mpr (mem_range.mpr inside), s, there, rest⟩

theorem Env.vanilla_eq_some {env : Env} {challenge : PostSectorChallenge} {proof : Bytes} :
    env.vanilla challenge = some proof ↔
      env.generateSingleVanillaProof challenge = .ok (some proof) := by
  grind [Env.vanilla]

end Readers

section Sectors

variable {env : Env} {sectors : List ExtendedSectorInfo}

def Ascending (sectors : List ExtendedSectorInfo) : Prop :=
  (sectors.map ExtendedSectorInfo.sectorNumber).Pairwise (· < ·)

theorem Ascending.eq_of_number (ascending : Ascending sectors) {other : ExtendedSectorInfo}
    (member : s ∈ sectors) (member' : other ∈ sectors) (same : s.sectorNumber = other.sectorNumber) :
    s = other :=
  inj_on_of_nodup_map (ascending.imp Nat.ne_of_lt) member member' same

theorem proofSectors_ascending {sset : List ExtendedSectorInfo} :
    Ascending (proofSectors sset allSectors) := by
  refine Pairwise.sublist ?_ allSectors.ascending
  unfold proofSectors
  induction allSectors.ones with
  | nil => exact .slnil
  | cons sectorNo rest ih =>
    cases found : sset.reverse.find? fun sector => sector.sectorNumber = sectorNo with
    | none | some sector => grind

theorem sectorsForProof_ascending {goodSectors : BitField}
    (found : sectorsForProof env goodSectors allSectors = .ok sectors) : Ascending sectors := by
  unfold sectorsForProof at found
  cases read : env.stateMinerSectors goodSectors with
  | error message =>
    rw [read] at found
    cases found
  | ok sset =>
    rw [read] at found
    change (if sset.length = 0 then _ else _) = _ at found
    split at found <;> cases found
    · exact Pairwise.nil
    · exact proofSectors_ascending

variable (ascending : Ascending sectors)
include ascending

theorem sortSectors_of_ascending : sortSectors sectors = sectors := by
  apply Pairwise.insertionSort_eq
  exact (pairwise_map.mp ascending).imp Nat.le_of_lt

theorem sectorOf_of_mem (member : s ∈ sectors) : sectorOf sectors s.sectorNumber = s := by
  unfold sectorOf
  cases found : sectors.reverse.find? fun other => other.sectorNumber = s.sectorNumber with
  | none =>
    have missing := find?_eq_none.mp found s (mem_reverse.mpr member)
    simp at missing
  | some other =>
    have same : other.sectorNumber = s.sectorNumber := by simpa using find?_some found
    have there := mem_reverse.mp (mem_of_find?_eq_some found)
    exact ascending.eq_of_number there member same

def sectorProof (env : Env) (sectors : List ExtendedSectorInfo) (s : ExtendedSectorInfo) : Slice :=
  match env.fallbackChallenges (maskRandomness env.rand)
    (sectors.map ExtendedSectorInfo.sectorNumber) with
  | .ok post => env.vanilla (postSectorChallenge post s.sectorNumber s)
  | .error _ => none

theorem challengedSectors_eq {challenged : List PostSectorChallenge}
    (made : challengedSectors env sectors = .ok challenged) :
    ∃ post, (∀ s, sectorProof env sectors s
        = env.vanilla (postSectorChallenge post s.sectorNumber s)) ∧
      challenged = sectors.map fun s => postSectorChallenge post s.sectorNumber s := by
  unfold challengedSectors at made
  split at made
  · cases made
  · split at made
    · cases made
    · split at made
      · cases made
      · rename_i size sized
        simp only at made
        split at made
        · cases made
        · rename_i one
          rw [sortSectors_of_ascending ascending] at made
          split at made <;> cases made
          · rename_i post answered
            have positive := env.maxPartitionSize_pos size sized
            have fits : sectors.length ≤ size := by
              have less : sectors.length + size - 1 < 2 * size :=
                (Nat.div_lt_iff_lt_mul positive).mp (by omega)
              omega
            have order := env.fallbackChallenges_sectors _ _ _ ascending answered
            refine ⟨post, fun s => by rw [sectorProof, answered], ?_⟩
            rw [order, take_of_length_le (by simpa using fits), map_map]
            apply map_congr_left
            intro s member
            exact congrArg _ (sectorOf_of_mem ascending member)

end Sectors

section StandIns

variable (skipped : List SectorNumber)

def firstProven (sectors : List ExtendedSectorInfo) : Option SectorInfo :=
  (sectors.filter fun s => s.sectorNumber ∉ skipped).head?.map ExtendedSectorInfo.toSectorInfo

theorem placeSectors_eq (sectors : List ExtendedSectorInfo) (first : SectorInfo) :
    placeSectors skipped sectors first =
      (sectors.map fun s => if s.sectorNumber ∈ skipped then {} else s.toSectorInfo,
        if first.sealedCID = none then (firstProven skipped sectors).getD first else first) := by
  induction sectors generalizing first with
  | nil => simp [placeSectors, firstProven]
  | cons s rest ih => grind [placeSectors, ExtendedSectorInfo.toSectorInfo, firstProven]

theorem fillStandIns_eq (sectors : List ExtendedSectorInfo) :
    fillStandIns skipped sectors = sectors.map fun s =>
      if s.sectorNumber ∈ skipped then (firstProven skipped sectors).getD {}
      else s.toSectorInfo := by
  simp only [fillStandIns, placeSectors_eq, map_map]
  apply map_congr_left
  intro s _
  by_cases isSkipped : s.sectorNumber ∈ skipped
  · simp [isSkipped]
  · simp [isSkipped, ExtendedSectorInfo.toSectorInfo]

theorem BitField.mem_foldl_set (field : BitField) (number : Nat) :
    number ∈ (skipped.foldl BitField.set field).ones ↔ number ∈ skipped ∨ number ∈ field.ones := by
  induction skipped generalizing field with
  | nil => simp
  | cons first rest ih =>
    rw [foldl_cons, ih, BitField.set, BitField.mem_insert, mem_cons]
    tauto

end StandIns

section Runs

variable {env : Env} {sectors : List ExtendedSectorInfo} {partIdx : Nat}

structure Snarked (env : Env) (sectors : List ExtendedSectorInfo) (observed : Observed)
    (proofs : List Bytes) : Prop where
  proofs : proofs = (sectors.map fun s => (sectorProof env sectors s).getD []).filter
    fun proof => proof.length ≠ 0
  skipped : ∀ number, number ∈ observed.skipped ↔
    ∃ s ∈ sectors, sectorProof env sectors s = none ∧ s.sectorNumber = number

theorem generateWindowPoStAdv_snark (challenged : List PostSectorChallenge) (randomness : Bytes)
    (running : env.throttled = none) :
    (generateWindowPoStAdv env challenged randomness true).snark
        = some (compact (readVanilla env challenged).vproofs) ∧
      (generateWindowPoStAdv env challenged randomness true).result.skipped
        = (readVanilla env challenged).skipped := by
  grind [generateWindowPoStAdv]

variable {challenged : List PostSectorChallenge}

theorem generateWindowPoSt_observed (made : challengedSectors env sectors = .ok challenged) :
    (generateWindowPoSt env sectors).1 =
      { snark := (generateWindowPoStAdv env challenged (maskRandomness env.rand) true).snark
        skipped :=
          (generateWindowPoStAdv env challenged (maskRandomness env.rand) true).result.skipped } := by
  grind [generateWindowPoSt]

theorem started_of_snark {proofs : List Bytes}
    (called : (generateWindowPoSt env sectors).1.snark = some proofs) :
    env.throttled = none ∧ ∃ challenged, challengedSectors env sectors = .ok challenged := by
  cases made : challengedSectors env sectors with
  | error fault =>
    simp only [generateWindowPoSt, made] at called
    cases called
  | ok challenged =>
    rw [generateWindowPoSt_observed made] at called
    refine ⟨?_, challenged, rfl⟩
    by_contra ended
    obtain ⟨message, throttled⟩ := Option.ne_none_iff_exists'.mp ended
    simp [generateWindowPoStAdv, throttled] at called

theorem generateWindowPoSt_snarked (ascending : Ascending sectors)
    (made : challengedSectors env sectors = .ok challenged) (running : env.throttled = none) :
    ∃ proofs, (generateWindowPoSt env sectors).1.snark = some proofs ∧
      Snarked env sectors (generateWindowPoSt env sectors).1 proofs := by
  obtain ⟨post, read, rfl⟩ := challengedSectors_eq ascending made
  obtain ⟨called, reported⟩ := generateWindowPoStAdv_snark
    (sectors.map fun s => postSectorChallenge post s.sectorNumber s) (maskRandomness env.rand) running
  rw [generateWindowPoSt_observed made]
  refine ⟨_, called, ⟨?_, fun number => ?_⟩⟩
  · rw [compact_eq, readVanilla_vproofs, map_map]
    simp only [read]
    rfl
  · show number ∈ WindowPoStResult.skipped _ ↔ _
    rw [reported, mem_readVanilla_skipped]
    simp only [read]
    constructor
    · rintro ⟨challenge, member, missing, same⟩
      obtain ⟨s, there, rfl⟩ := mem_map.mp member
      exact ⟨s, there, missing, same⟩
    · rintro ⟨s, there, missing, same⟩
      exact ⟨_, mem_map_of_mem there, missing, same⟩

structure Followed (env : Env) (sectors : List ExtendedSectorInfo) (observed : Observed)
    (run : Observed × Except String SubmitWindowedPoStParams) : Prop where
  snark : run.1.snark = observed.snark
  skipped : run.1.skipped = observed.skipped
  verified : ∀ sinfos, run.1.verified = some sinfos →
    sinfos = fillStandIns observed.skipped (sortSectors sectors)
  submitted : ∀ params, run.2 = .ok params →
    params.skipped = observed.skipped.foldl BitField.set .new

section

variable {observed : Observed} (unverified : observed.verified = none)
include unverified

theorem Followed.of_error {message : String} :
    Followed env sectors observed (observed, .error message) := by
  refine ⟨rfl, rfl, fun sinfos found => ?_, fun params returned => ?_⟩
  all_goals grind

theorem checkAndSubmit_followed {postOut : List Bytes} :
    Followed env sectors observed
      (checkAndSubmit env partIdx (sortSectors sectors) observed postOut) := by
  unfold checkAndSubmit
  split
  · exact .of_error unverified
  · split
    · exact .of_error unverified
    · have seen : ∀ sinfos,
          some (fillStandIns observed.skipped (sortSectors sectors)) = some sinfos →
            sinfos = fillStandIns observed.skipped (sortSectors sectors) :=
        fun _ same => (Option.some.inj same).symm
      simp only
      split
      · exact ⟨rfl, rfl, seen, fun _ returned => by cases returned⟩
      · exact ⟨rfl, rfl, seen, fun _ returned => by cases returned⟩
      · refine ⟨rfl, rfl, seen, fun params returned => ?_⟩
        cases returned
        rfl

end

theorem provePartition_followed :
    Followed env sectors (generateWindowPoSt env sectors).1
      (provePartition env partIdx sectors) := by
  have unverified : (generateWindowPoSt env sectors).1.verified = none := by
    grind [generateWindowPoSt]
  unfold provePartition
  split
  · rename_i empty
    have nothing : (generateWindowPoSt env sectors).1 = {} := by
      unfold generateWindowPoSt challengedSectors
      by_cases short : env.rand.length ≤ 31
      · simp only [short]
        rfl
      · simp only [short, empty]
        rfl
    rw [nothing]
    exact .of_error rfl
  · split
    · rename_i observed message generated
      rw [generated] at unverified ⊢
      exact .of_error unverified
    · rename_i observed fault _ generated
      rw [generated] at unverified ⊢
      exact .of_error unverified
    · rename_i observed postOut generated
      rw [generated] at unverified ⊢
      split
      · exact .of_error unverified
      · exact checkAndSubmit_followed unverified

end Runs

variable {env : Env} {sectors proven : List ExtendedSectorInfo} {proofs : List Bytes}
  {run : Observed × Except String SubmitWindowedPoStParams}

/-- The SNARK is computed over the vanilla proofs of the sectors in `proven`, in ascending order.
The other sectors are those that were reported, those that are submitted as skipped, and those that
the verifier sees the first proven sector for. -/
structure Accounted (env : Env) (sectors : List ExtendedSectorInfo) (proofs : List Bytes)
    (run : Observed × Except String SubmitWindowedPoStParams) (proven : List ExtendedSectorInfo) :
    Prop where
  sublist : proven.Sublist sectors
  ascending : Ascending proven
  proofs : proofs.map some = proven.map (sectorProof env sectors)
  reported : ∀ s ∈ sectors, s.sectorNumber ∈ run.1.skipped ↔ s ∉ proven
  submitted : ∀ params, run.2 = .ok params → ∀ number, number ∈ params.skipped.ones ↔
    ∃ s ∈ sectors, s ∉ proven ∧ s.sectorNumber = number
  verified : ∀ sinfos, run.1.verified = some sinfos → sinfos.length = sectors.length ∧
    ∀ (i : Nat) s, sectors[i]? = some s →
      (s ∈ proven → sinfos[i]? = some s.toSectorInfo) ∧
      (s ∉ proven → ∀ first, proven.head? = some first → sinfos[i]? = some first.toSectorInfo)

/-- Every sector that a partition has to prove is accounted for, once the SNARK is computed. -/
def Accounts (env : Env) (partition : Partition) (test : Bool)
    (run : Observed × Except String SubmitWindowedPoStParams) : Prop :=
  ∀ sectors proofs,
    sectorsForProof env (toProve partition test) partition.allSectors = .ok sectors →
      run.1.snark = some proofs → ∃ proven, Accounted env sectors proofs run proven

/-- No vanilla proof that is read comes back as an empty slice that is not nil. -/
def NoEmptyProof (env : Env) (partition : Partition) (test : Bool) : Prop :=
  ∀ sectors challenged,
    sectorsForProof env (toProve partition test) partition.allSectors = .ok sectors →
      env.throttled = none → challengedSectors env sectors = .ok challenged →
        ∀ challenge ∈ challenged, env.generateSingleVanillaProof challenge ≠ .ok (some [])

theorem filter_proofs {read : ExtendedSectorInfo → Slice} (full : ∀ s ∈ sectors, read s ≠ some []) :
    ((sectors.map fun s => (read s).getD []).filter fun proof => proof.length ≠ 0).map some
      = (sectors.filter fun s => (read s).isSome).map read := by
  induction sectors with
  | nil => rfl
  | cons s rest ih =>
    have tail := ih (forall_mem_cons.mp full).2
    cases found : read s with
    | none => simpa [found] using tail
    | some proof => grind

section

variable {observed : Observed} (ascending : Ascending sectors)
  (snarked : Snarked env sectors observed proofs) (followed : Followed env sectors observed run)
include ascending snarked followed

theorem Snarked.accounted (full : ∀ s ∈ sectors, sectorProof env sectors s ≠ some []) :
    Accounted env sectors proofs run
      (sectors.filter fun s => (sectorProof env sectors s).isSome) := by
  have reported : ∀ s ∈ sectors, s.sectorNumber ∈ observed.skipped ↔
      s ∉ sectors.filter fun s => (sectorProof env sectors s).isSome := by
    intro s member
    rw [snarked.skipped, mem_filter, Option.isSome_iff_ne_none]
    constructor
    · rintro ⟨other, there, missing, same⟩ ⟨-, found⟩
      obtain rfl := ascending.eq_of_number there member same
      exact found missing
    · grind
  have kept : (sectors.filter fun s => s.sectorNumber ∉ observed.skipped)
      = sectors.filter fun s => (sectorProof env sectors s).isSome := by
    apply filter_congr
    intro s member
    have same := reported s member
    by_cases found : (sectorProof env sectors s).isSome = true
    · simp [same, found, member]
    · simp [same, found]
  refine ⟨filter_sublist, ?_, ?_, ?_, ?_, ?_⟩
  · exact ascending.sublist (filter_sublist.map _)
  · rw [snarked.proofs]
    exact filter_proofs full
  · intro s member
    rw [followed.skipped]
    exact reported s member
  · intro params returned number
    rw [followed.submitted params returned, BitField.mem_foldl_set, snarked.skipped]
    simp only [BitField.new, not_mem_nil, or_false]
    constructor
    · grind
    · rintro ⟨s, member, absent, same⟩
      refine ⟨s, member, ?_, same⟩
      by_contra found
      exact absent (mem_filter.mpr ⟨member, Option.isSome_iff_ne_none.mpr found⟩)
  · intro sinfos given
    rw [followed.verified sinfos given, sortSectors_of_ascending ascending, fillStandIns_eq]
    refine ⟨length_map _, fun i s there => ⟨fun isProven => ?_, fun missing first isFirst => ?_⟩⟩
    · grind
    · grind [firstProven]

theorem Accounted.full (accounted : Accounted env sectors proofs run proven) :
    ∀ s ∈ sectors, sectorProof env sectors s ≠ some [] := by
  intro s member empty
  have isProven : s ∈ proven := by
    by_contra missing
    have skipped := (accounted.reported s member).mpr missing
    rw [followed.skipped, snarked.skipped] at skipped
    obtain ⟨other, there, none, same⟩ := skipped
    obtain rfl := ascending.eq_of_number there member same
    rw [none] at empty
    cases empty
  have inSnark : some [] ∈ proofs.map some := by
    rw [accounted.proofs, ← empty]
    exact mem_map_of_mem isProven
  obtain ⟨proof, there, same⟩ := mem_map.mp inSnark
  cases same
  rw [snarked.proofs] at there
  simpa using (mem_filter.mp there).2

end

/-- Every sector is accounted for exactly if no vanilla proof comes back empty. -/
theorem window_post_accounts_iff (env : Env) (partIdx : Nat) (partition : Partition) (test : Bool) :
    Accounts env partition test (doPartition env partIdx partition test) ↔
      NoEmptyProof env partition test := by
  have entered : ∀ sectors,
      sectorsForProof env (toProve partition test) partition.allSectors = .ok sectors →
        Followed env sectors (generateWindowPoSt env sectors).1
          (doPartition env partIdx partition test) := by
    intro sectors found
    simp only [doPartition, found]
    exact provePartition_followed
  constructor
  · intro accounts sectors challenged found running made challenge member
    have ascending := sectorsForProof_ascending found
    obtain ⟨proofs, called, snarked⟩ := generateWindowPoSt_snarked ascending made running
    have followed := entered sectors found
    obtain ⟨proven, accounted⟩ := accounts sectors proofs found (followed.snark.trans called)
    obtain ⟨post, read, rfl⟩ := challengedSectors_eq ascending made
    obtain ⟨s, there, rfl⟩ := mem_map.mp member
    have full := accounted.full ascending snarked followed s there
    rw [read, Ne, Env.vanilla_eq_some] at full
    exact full
  · intro noEmpty sectors proofs found called
    have ascending := sectorsForProof_ascending found
    have followed := entered sectors found
    rw [followed.snark] at called
    obtain ⟨running, challenged, made⟩ := started_of_snark called
    obtain ⟨proofs', called', snarked⟩ := generateWindowPoSt_snarked ascending made running
    cases called.symm.trans called'
    refine ⟨_, snarked.accounted ascending followed fun s there empty => ?_⟩
    obtain ⟨post, read, rfl⟩ := challengedSectors_eq ascending made
    rw [read, Env.vanilla_eq_some] at empty
    exact noEmpty sectors _ found running made _ (mem_map_of_mem there) empty

def silentHost : LocalStore where
  acquireSector := fun _ _ => .ok { sealed := "/s", cache := "/c" }
  prove := fun _ _ _ => .ok (.ok none)

def twoMachines : Remote where
  localStore :=
    { acquireSector := fun si _ =>
        .ok (if si.sectorNumber = 1 then { sealed := "/s", cache := "/c" } else {})
      prove := fun _ _ _ => .ok (.ok (some [7])) }
  storageFindSector := fun _ _ => .ok [["http://silent"]]
  post := fun _ si => .ok (FetchHandler.generateSingleVanillaProof silentHost (fun _ => []) si)

def storedSectors : List ExtendedSectorInfo :=
  [{ sectorNumber := 1, sealedCID := "a" }, { sectorNumber := 2, sealedCID := "b" }]

def twoMachinesEnv : Env where
  stateMinerSectors := fun _ => .ok storedSectors
  rand := replicate 32 0
  maxPartitionSize := .ok 2349
  maxPartitionSize_pos := by
    rintro size same
    cases same
    decide
  fallbackChallenges := fun _ sectorNums => .ok ⟨sectorNums, fun _ => [0]⟩
  fallbackChallenges_sectors := by
    rintro _ sectorNums challenges - same
    cases same
    rfl
  generateSingleVanillaProof := twoMachines.generateSingleVanillaProof
  order := range
  order_perm := fun _ => .rfl
  throttled := none
  snark := fun _ _ => .ok [9]
  mergeProofs := fun proofs => .ok proofs.flatten
  checkRand := .ok (replicate 32 0)
  verify := fun _ _ => .ok true

def twoSectors : Partition where
  allSectors := ⟨[1, 2], by decide⟩
  liveSectors := ⟨[1, 2], by decide⟩
  faultySectors := .new
  recoveringSectors := .new

/-- The second sector's proof is nil where it is stored. It is not in the SNARK, but it is not
skipped either, and the verifier is given the sector itself. -/
theorem silent_host_unaccounted :
    silentHost.generateSingleVanillaProof ⟨0, 2, "b", [0], false⟩ = .ok none ∧
      (doPartition twoMachinesEnv 0 twoSectors false).1 =
        { snark := some [[7]]
          skipped := []
          verified := some [⟨0, 1, some "a"⟩, ⟨0, 2, some "b"⟩] } ∧
      (doPartition twoMachinesEnv 0 twoSectors false).2.map (fun params => params.skipped.ones)
        = .ok [] ∧
      ¬ Accounts twoMachinesEnv twoSectors false (doPartition twoMachinesEnv 0 twoSectors false) := by
  refine ⟨rfl, rfl, rfl, fun accounts => ?_⟩
  obtain ⟨proven, accounted⟩ := accounts storedSectors [[7]] rfl rfl
  have isProven : ({ sectorNumber := 2, sealedCID := "b" } : ExtendedSectorInfo) ∈ proven := by
    by_contra missing
    have skipped := (accounted.reported _ (by decide)).mpr missing
    cases skipped
  have inSnark := mem_map_of_mem (f := sectorProof twoMachinesEnv storedSectors) isProven
  rw [← accounted.proofs] at inSnark
  exact absurd inSnark (by decide)

end Curio.Window
