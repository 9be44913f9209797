import Mathlib.Tactic

/-! `PDPV0IPNITask.Do` of `tasks/indexing/task_pdp_v0_ipni.go` over the table `ipni`, which all
providers of the cluster share. Other tasks add rows between its statements. -/

namespace Curio.Ipni

open List

structure Advertisement where
  adCid : String
  provider : String
  contextID : String
  pieceCID : String
  pieceSize : Nat
  isRm : Bool
  deriving DecidableEq

/-- The rows of `ipni` by falling `order_number`. -/
abbrev Adverts := List Advertisement

/-- `adLink` is the link of the signed advertisement that follows a head. -/
structure IpniTask where
  pieceCID : String
  size : Nat
  prov : String
  iContext : String
  adLink : Option String → String

def ipniHeadCASRetries : Nat := 16

/-- `ipni_head`, which `insert_ad_and_update_head_checked` sets with every row. -/
def head (provider : String) (ads : Adverts) : Option String :=
  (ads.find? (·.provider = provider)).map Advertisement.adCid

variable (task : IpniTask)

/-- `exists && !isRm` of the newest row of the piece. -/
def IpniTask.alreadyPublished (ads : Adverts) : Bool :=
  (ads.find? fun ad => ad.pieceCID = task.pieceCID ∧ ad.pieceSize = task.size).any (!·.isRm)

def IpniTask.adv (prev : Option String) : Advertisement :=
  ⟨task.adLink prev, task.prov, task.iContext, task.pieceCID, task.size, false⟩

/-- What others add before an attempt reads the head and then before its transaction, and whether
`recordCompletion` succeeds in it. -/
structure Attempt where
  before : Adverts
  during : Adverts
  recorded : Bool

/-- The loop. One that an error or a lost task leaves has fewer attempts. -/
def IpniTask.publish : List Attempt → Adverts → Bool × Adverts
  | [], ads => (false, ads)
  | attempt :: rest, ads =>
    let prev := head task.prov (attempt.before ++ ads)
    let now := attempt.during ++ attempt.before ++ ads
    if head task.prov now = prev then
      if attempt.recorded then (true, task.adv prev :: now) else (false, now)
    else publish rest now

/-- Whether the reference is marked, and the rows then. For a piece that is found to be published,
`between` are the rows added before its completion is `recorded` or not. -/
def IpniTask.do (ads between : Adverts) (recorded : Bool) (attempts : List Attempt) :
    Bool × Adverts :=
  if task.alreadyPublished ads then (recorded, between ++ ads)
  else task.publish (attempts.take ipniHeadCASRetries) ads

def IpniTask.own (ad : Advertisement) : Bool :=
  ad.provider = task.prov ∧ ad.contextID = task.iContext

/-- The latest advertisement of the provider's own chain for the context is an addition. -/
def IpniTask.Advertised (ads : Adverts) : Prop :=
  ∃ ad ∈ ads.find? task.own, ad.isRm = false

/-- The newest row of the piece is an addition, but the provider has no row for the context, or the
newest of them is a removal. -/
def IpniTask.Misled (ads between : Adverts) : Prop :=
  task.alreadyPublished ads = true ∧
    ∀ ad ∈ (between.find? task.own).or (ads.find? task.own), ad.isRm = true

theorem publish_advertised {task : IpniTask} {attempts : List Attempt} {ads : Adverts}
    (marked : (task.publish attempts ads).1 = true) :
    task.Advertised (task.publish attempts ads).2 := by
  induction attempts generalizing ads with
  | nil => simp [IpniTask.publish] at marked
  | cons attempt rest ih =>
    simp only [IpniTask.publish] at marked ⊢
    split_ifs at marked ⊢
    · exact ⟨_, find?_cons_of_pos (by simp [IpniTask.own, IpniTask.adv]), rfl⟩
    · exact ih marked

theorem not_advertised_iff {task : IpniTask} {ads between : Adverts} :
    ¬ task.Advertised (between ++ ads) ↔
      ∀ ad ∈ (between.find? task.own).or (ads.find? task.own), ad.isRm = true := by
  simp [IpniTask.Advertised, find?_append]

theorem do_advertised_iff (task : IpniTask) (ads between : Adverts) (recorded : Bool)
    (attempts : List Attempt) :
    ((task.do ads between recorded attempts).1 = true →
      task.Advertised (task.do ads between recorded attempts).2) ↔
        ¬ (recorded = true ∧ task.Misled ads between) := by
  rw [IpniTask.Misled, ← not_advertised_iff, IpniTask.do]
  by_cases published : task.alreadyPublished ads = true
  · simp [published]
  · rw [if_neg published]
    exact iff_of_true publish_advertised fun misled => published misled.2.1

/-- Another provider of the cluster has advertised the same piece. -/
theorem do_foreign_advertisement :
    let task : IpniTask := ⟨"piece", 128, "pdp", "context", fun _ => "ad"⟩
    let ads := [⟨"other", "miner", "deal", "piece", 128, false⟩]
    task.do ads [] true [] = (true, ads) ∧ ¬ task.Advertised ads := by
  refine ⟨by decide, ?_⟩
  rintro ⟨ad, found, -⟩
  simp [IpniTask.own] at found

end Curio.Ipni
