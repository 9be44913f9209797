import Curio.GoRuntime

/-! `createCommitMessage` in `tasks/seal/task_submit_commit.go`: one message with an aggregated proof
or with the proofs of the single sectors, whichever is estimated to be cheaper. -/

namespace Curio.Seal.CommitMessage

open GoRuntime List

structure Message where
  params : Bytes
  gasPremium : Int
  gasLimit : Int

structure Params where
  sectorProofs : List Bytes
  aggregateProof : Bytes := []
  aggregateProofType : Option Nat := none

/-- The answers of the libraries and of the node, and `miner.MinAggregatedSectors`. -/
structure Env where
  minAggregatedSectors : Nat
  positive : 0 < minAggregatedSectors
  stateNetworkVersion : Call Nat
  aggregateProofType : Nat → Call Nat
  aggregateSealProofs : Nat → List Nat → List Bytes → Call Bytes
  marshalCBOR : Params → Call Bytes
  gasEstimateCommit : Bytes → Call Message
  parentBaseFee : Int

variable (env : Env) (infos : List Nat) (params : Params)

def cost (msg : Message) : Int := (env.parentBaseFee + msg.gasPremium) * msg.gasLimit

def ranOutOfGas (err : String) : Bool := "call ran out of gas".toList <:+: err.toList

/-- The aggregate, which is left out below the minimum of sectors. -/
def aggregate (nv : Nat) : Go (Option Message) :=
  if infos.length < env.minAggregatedSectors then .ok none
  else do
    let arp ← wrap "getting aggregate proof type" (ofCall (env.aggregateProofType nv))
    if params.sectorProofs.length ≠ infos.length then
      fail "mismatched number of proofs and infos"
    else
      let aggregateProof ← wrap "aggregating proofs"
        (ofCall (env.aggregateSealProofs arp infos params.sectorProofs))
      let aggEnc ← wrap "could not serialize commit params"
        (ofCall (env.marshalCBOR ⟨[], aggregateProof, some arp⟩))
      let aggMsg ← wrap "gas estimate aggregate commit" (ofCall (env.gasEstimateCommit aggEnc))
      .ok (some aggMsg)

/-- The sector numbers of `infos` are read for the logs. -/
def createCommitMessage : Go Message := do
  let nv ← wrap "getting network version" (ofCall env.stateNetworkVersion)
  let aggMsg ← aggregate env infos params nv
  let enc ← wrap "could not serialize commit params" (ofCall (env.marshalCBOR params))
  match env.gasEstimateCommit enc, aggMsg with
  | .error err, some aggMsg =>
    if ranOutOfGas err then do
      let _ ← readAt infos 0
      .ok aggMsg
    else fail ("gas estimate individual commit: " ++ err)
  | .error err, none =>
    if ranOutOfGas err then do
      let _ ← readAt infos 0
      panics "invalid memory address or nil pointer dereference"
    else fail ("gas estimate individual commit: " ++ err)
  | .ok msg, none => do
    let _ ← readAt infos 0
    .ok msg
  | .ok msg, some aggMsg => do
    let _ ← readAt infos 0
    if cost env msg < cost env aggMsg then .ok msg else .ok aggMsg

/-- A message or an error is returned, a message was estimated, and of two it is the cheaper. -/
structure Selects : Prop where
  returns : Returns (createCommitMessage env infos params)
  estimated : ∀ msg, createCommitMessage env infos params = .ok msg →
    ∃ enc, env.gasEstimateCommit enc = .ok msg
  cheaper : ∀ nv aggMsg enc msg, env.stateNetworkVersion = .ok nv →
    aggregate env infos params nv = .ok (some aggMsg) → env.marshalCBOR params = .ok enc →
    env.gasEstimateCommit enc = .ok msg →
    ∃ sent, createCommitMessage env infos params = .ok sent ∧ (sent = msg ∨ sent = aggMsg) ∧
      cost env sent ≤ cost env msg ∧ cost env sent ≤ cost env aggMsg

/-- Below the minimum for an aggregate, the estimate runs out of gas, or there is no sector. -/
def NoAlternative : Prop :=
  infos.length < env.minAggregatedSectors ∧ (∃ nv, env.stateNetworkVersion = .ok nv) ∧
    ∃ enc, env.marshalCBOR params = .ok enc ∧
      match env.gasEstimateCommit enc with
      | .ok _ => infos = []
      | .error err => ranOutOfGas err = true

variable {env infos params}

theorem aggregate_returns (nv : Nat) : Returns (aggregate env infos params nv) := by
  unfold aggregate
  split
  · exact .inl ⟨_, rfl⟩
  refine (returns_wrap_ofCall _ _).bind fun arp _ => ?_
  split
  · exact .inr ⟨_, rfl⟩
  refine (returns_wrap_ofCall _ _).bind fun aggregateProof _ => ?_
  refine (returns_wrap_ofCall _ _).bind fun aggEnc _ => ?_
  exact (returns_wrap_ofCall _ _).bind fun aggMsg _ => .inl ⟨_, rfl⟩

theorem aggregate_ok {nv : Nat} {answer : Option Message}
    (aggregated : aggregate env infos params nv = .ok answer) :
    (answer = none ∧ infos.length < env.minAggregatedSectors) ∨ infos ≠ [] ∧
      ∃ aggMsg enc, answer = some aggMsg ∧ env.gasEstimateCommit enc = .ok aggMsg := by
  unfold aggregate at aggregated
  split at aggregated
  · next few => exact .inl ⟨(Except.ok.inj aggregated).symm, few⟩
  · next many =>
    obtain ⟨arp, _, aggregated⟩ := bind_eq_ok.mp aggregated
    split at aggregated
    · cases aggregated
    obtain ⟨aggregateProof, _, aggregated⟩ := bind_eq_ok.mp aggregated
    obtain ⟨aggEnc, _, aggregated⟩ := bind_eq_ok.mp aggregated
    obtain ⟨aggMsg, estimated, same⟩ := bind_eq_ok.mp aggregated
    refine .inr ⟨?_, aggMsg, aggEnc, (Except.ok.inj same).symm, ?_⟩
    · rintro rfl
      exact many env.positive
    · exact ofCall_eq_ok.mp (wrap_eq_ok.mp estimated)

/-- The selection is as it should be unless it is left without an alternative. -/
theorem selects_iff (env : Env) (infos : List Nat) (params : Params) :
    Selects env infos params ↔ ¬NoAlternative env infos params := by
  constructor
  · rintro selects ⟨few, ⟨nv, version⟩, enc, encoded, estimate⟩
    have returns := selects.returns
    have left : aggregate env infos params nv = .ok none := if_pos few
    simp only [createCommitMessage, version, left, encoded, ofCall_ok, wrap_ok, ok_bind] at returns
    cases estimated : env.gasEstimateCommit enc <;> simp only [estimated] at returns estimate
    · rw [if_pos estimate] at returns
      cases infos <;> exact not_returns_panics _ returns
    · subst estimate
      exact not_returns_panics _ returns
  · intro alternative
    refine ⟨?_, ?_, ?_⟩
    · refine (returns_wrap_ofCall _ _).bind fun nv version => ?_
      refine (aggregate_returns nv).bind fun answer aggregated => ?_
      refine (returns_wrap_ofCall _ _).bind fun enc encoded => ?_
      rw [wrap_eq_ok, ofCall_eq_ok] at version encoded
      rcases aggregate_ok aggregated with ⟨rfl, few⟩ | ⟨some, aggMsg, _, rfl, -⟩
      · have usable := fun bad => alternative ⟨few, ⟨nv, version⟩, enc, encoded, bad⟩
        cases estimate : env.gasEstimateCommit enc with simp only [estimate] at usable ⊢
        | error err => exact .inr ⟨_, if_neg usable⟩
        | ok msg =>
          obtain ⟨info, rest, rfl⟩ := exists_cons_of_ne_nil usable
          exact .inl ⟨_, rfl⟩
      · obtain ⟨info, rest, rfl⟩ := exists_cons_of_ne_nil some
        cases env.gasEstimateCommit enc <;> dsimp only <;> split <;>
          first | exact .inl ⟨_, rfl⟩ | exact .inr ⟨_, rfl⟩
    · intro msg created
      obtain ⟨nv, version, created⟩ := bind_eq_ok.mp created
      obtain ⟨answer, aggregated, created⟩ := bind_eq_ok.mp created
      obtain ⟨enc, encoded, created⟩ := bind_eq_ok.mp created
      have estimated := aggregate_ok aggregated
      cases here : env.gasEstimateCommit enc <;> cases answer <;> grind [bind_eq_ok, panics, fail]
    · intro nv aggMsg enc msg version aggregated encoded estimate
      obtain ⟨info, rest, rfl⟩ : ∃ info rest, infos = info :: rest :=
        exists_cons_of_ne_nil (by grind [aggregate_ok aggregated])
      simp only [createCommitMessage, version, aggregated, encoded, estimate, ofCall_ok, wrap_ok,
        ok_bind]
      split
      · next less => exact ⟨msg, rfl, .inl rfl, le_rfl, less.le⟩
      · next more => exact ⟨aggMsg, rfl, .inr rfl, not_lt.mp more, le_rfl⟩

/-- A single sector whose message runs out of gas. -/
theorem estimate_panics :
    createCommitMessage ⟨4, by decide, .ok 27, fun _ => .ok 1, fun _ _ _ => .ok [], fun _ => .ok [],
      fun _ => .error "call ran out of gas", 0⟩ [7] ⟨[[0]], [], none⟩ =
        panics "invalid memory address or nil pointer dereference" := by
  have contains : ranOutOfGas "call ran out of gas" = true := decide_eq_true infix_rfl
  simp [createCommitMessage, aggregate, contains, readAt]

end Curio.Seal.CommitMessage
