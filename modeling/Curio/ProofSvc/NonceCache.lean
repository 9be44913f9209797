import Curio.GoRuntime
import Curio.StepMachine

/-! `lib/proofsvc/sigs.go`: signed requests, and the cache of the nonces that were used.

Times are nanoseconds since 1970. The resolver and the wallet are what they answer to a call. -/

namespace Curio.ProofSvc

open GoRuntime List

def second : Int := 1000000000

def nonceExpiry : Int := 60 * second

def skewAllowance : Int := 5 * second

/-- `int64` of a `uint64`. -/
def signedWord (word : Nat) : Int := if word < 2 ^ 63 then word else word - 2 ^ 64

/-- `time.Unix(sec, 0)`; the seconds are kept in an `int64` that counts from the year 1. -/
def unixTime (sec : Int) : Int :=
  (if sec + 62135596800 < 2 ^ 63 then sec else sec - 2 ^ 64) * second

def Acceptable (nonceTime now : Int) : Prop :=
  nonceTime ≤ now + skewAllowance ∧ now - nonceTime ≤ nonceExpiry

instance (nonceTime now : Int) : Decidable (Acceptable nonceTime now) :=
  inferInstanceAs (Decidable (_ ∧ _))

structure NonceKey where
  accountKey : String
  nonceID : Nat
  deriving DecidableEq

structure NonceCache where
  even : List NonceKey
  odd : List NonceKey
  lastCleanup : Int
  deriving DecidableEq

namespace NonceCache

def getBucketIndex (t : Int) : Int := ((t / second).tdiv 60).tmod 2

def bucket (nc : NonceCache) (index : Int) : List NonceKey := if index = 0 then nc.even else nc.odd

def setBucket (nc : NonceCache) (index : Int) (keys : List NonceKey) : NonceCache :=
  if index = 0 then { nc with even := keys } else { nc with odd := keys }

/-- The other bucket is emptied when the window is not that of the last cleanup. -/
def cleanup (nc : NonceCache) (now : Int) : NonceCache :=
  if getBucketIndex now ≠ getBucketIndex nc.lastCleanup then
    { nc.setBucket (1 - getBucketIndex now) [] with lastCleanup := now }
  else nc

def addNonce (nc : NonceCache) (key : NonceKey) (nonceTime now : Int) : NonceCache × Bool :=
  if nonceTime > now + skewAllowance then (nc, false)
  else if now - nonceTime > nonceExpiry then (nc, false)
  else
    let currentBucket := getBucketIndex now
    let oldBucket := 1 - currentBucket
    if key ∈ nc.bucket currentBucket then (nc, false)
    else if key ∈ nc.bucket oldBucket then (nc, false)
    else
      let cleaned := nc.cleanup now
      (cleaned.setBucket currentBucket (key :: cleaned.bucket currentBucket), true)

end NonceCache

structure Signature where
  nonceTime : Nat
  nonceID : Nat
  sig : Bytes
  deriving DecidableEq

/-- A call of `Verify`: its signature, what the resolver and the wallet answer, and the times that
it and `AddNonce` read. -/
structure VerifyCall where
  sig : Option Signature
  accountKey : Call String
  walletVerify : Call Bool
  now : Nat
  later : Nat

def Signature.sigTime (sig : Signature) : Int := unixTime (signedWord sig.nonceTime)

def checkTimestamp (sigTime now : Int) : Go Unit :=
  if sigTime > now + skewAllowance then fail "signature timestamp too far in future"
  else if now - sigTime > nonceExpiry then fail "signature has expired"
  else .ok ()

def useNonce (nonceCache : NonceCache) (key : NonceKey) (sigTime now : Int) :
    NonceCache × Go Bool :=
  match nonceCache.addNonce key sigTime now with
  | (added, true) => (added, .ok true)
  | (added, false) => (added, fail "nonce already used or expired (replay attack)")

def verify (nonceCache : NonceCache) (call : VerifyCall) : NonceCache × Go Bool :=
  match call.sig with
  | none => (nonceCache, fail "signature is nil")
  | some sig =>
    match call.accountKey with
    | .error message => (nonceCache, fail message)
    | .ok accountKey =>
      match checkTimestamp sig.sigTime call.now with
      | .error fault => (nonceCache, .error fault)
      | .ok () =>
        if sig.sig.length < 1 then (nonceCache, fail "invalid signature: too short")
        else
          match call.walletVerify with
          | .error message =>
            (nonceCache, fail s!"failed to verify signature with key {accountKey}: {message}")
          | .ok false => (nonceCache, .ok false)
          | .ok true => useNonce nonceCache ⟨accountKey, sig.nonceID⟩ sig.sigTime call.later

variable {nc next : NonceCache} {key : NonceKey} {nonceTime : Int} {now : Nat} {call : VerifyCall}

namespace NonceCache

def Remembers (nc : NonceCache) (key : NonceKey) : Prop := key ∈ nc.even ∨ key ∈ nc.odd

instance (nc : NonceCache) (key : NonceKey) : Decidable (nc.Remembers key) :=
  inferInstanceAs (Decidable (_ ∨ _))

/-- The window of a time is not that of the last cleanup, so that `AddNonce` cleans up. -/
def NewWindow (nc : NonceCache) (now : Int) : Prop :=
  getBucketIndex now ≠ getBucketIndex nc.lastCleanup

instance (nc : NonceCache) (now : Int) : Decidable (nc.NewWindow now) :=
  inferInstanceAs (Decidable (_ ≠ _))

theorem getBucketIndex_cases (now : Nat) : getBucketIndex now = 0 ∨ getBucketIndex now = 1 := by
  have seconds : ((now : Int) / second) = ((now / 1000000000 : Nat) : Int) := by
    simp [second]
  rw [getBucketIndex, seconds, Int.tdiv_eq_ediv_of_nonneg (Int.natCast_nonneg _),
    Int.tmod_eq_emod_of_nonneg (by omega)]
  omega

theorem remembers_iff (nc : NonceCache) (key : NonceKey) (now : Nat) :
    nc.Remembers key ↔
      key ∈ nc.bucket (getBucketIndex now) ∨ key ∈ nc.bucket (1 - getBucketIndex now) := by
  rcases getBucketIndex_cases now with here | here
  · rw [here]
    exact Iff.rfl
  · rw [here]
    exact or_comm

theorem addNonce_true :
    nc.addNonce key nonceTime now = (next, true) ↔
      Acceptable nonceTime now ∧ ¬nc.Remembers key ∧
        next = (nc.cleanup now).setBucket (getBucketIndex now)
          (key :: (nc.cleanup now).bucket (getBucketIndex now)) := by
  rw [remembers_iff nc key now, addNonce, Acceptable]
  split
  · grind
  · grind

/-- What is remembered after a nonce was added: it, and the nonces of this bucket, but those of the
other one only within a window. -/
theorem remembers_added (nc : NonceCache) (key other : NonceKey) (now : Nat) :
    ((nc.cleanup now).setBucket (getBucketIndex now)
        (key :: (nc.cleanup now).bucket (getBucketIndex now))).Remembers other ↔
      other = key ∨ other ∈ nc.bucket (getBucketIndex now) ∨
        (¬nc.NewWindow now ∧ other ∈ nc.bucket (1 - getBucketIndex now)) := by
  by_cases moved : nc.NewWindow now
  · have cleaned : nc.cleanup now =
        { nc.setBucket (1 - getBucketIndex now) [] with lastCleanup := now } := if_pos moved
    rw [cleaned]
    rcases getBucketIndex_cases now with here | here
    · simp [here, setBucket, bucket, Remembers, moved]
    · simp [here, setBucket, bucket, Remembers, moved]
  · have kept : nc.cleanup now = nc := if_neg moved
    rw [kept]
    rcases getBucketIndex_cases now with here | here
    · simp [here, setBucket, bucket, Remembers, moved, or_assoc]
    · simp only [here, setBucket, Remembers, moved, one_ne_zero, if_false,
        not_false_iff, true_and, mem_cons]
      exact or_left_comm.trans (or_congr_right or_comm)

end NonceCache

theorem useNonce_cases {sigTime now : Int} :
    (∃ result, useNonce nc key sigTime now = (nc, result) ∧ result ≠ .ok true) ∨
      ∃ next, nc.addNonce key sigTime now = (next, true) ∧
        useNonce nc key sigTime now = (next, .ok true) := by
  rw [useNonce]
  split
  · rename_i next added
    exact .inr ⟨next, added, rfl⟩
  · rename_i next refused
    obtain rfl : next = nc := by grind [NonceCache.addNonce]
    exact .inl ⟨_, rfl, by simp [fail]⟩

theorem checkTimestamp_ok {sigTime now : Int} (checked : checkTimestamp sigTime now = .ok ()) :
    Acceptable sigTime now := by
  unfold checkTimestamp at checked
  split_ifs at checked with future expired
  · cases checked
  · cases checked
  · exact ⟨not_lt.mp future, not_lt.mp expired⟩

/-- `Verify` returns true only through `AddNonce`. -/
theorem verify_cases (nc : NonceCache) (call : VerifyCall) :
    (∃ result, verify nc call = (nc, result) ∧ result ≠ .ok true) ∨
      ∃ sig accountKey next, call.sig = some sig ∧ call.accountKey = .ok accountKey ∧
        Acceptable sig.sigTime call.now ∧ call.walletVerify = .ok true ∧
        nc.addNonce ⟨accountKey, sig.nonceID⟩ sig.sigTime call.later = (next, true) ∧
        verify nc call = (next, .ok true) := by
  rw [verify]
  split
  · exact .inl ⟨_, rfl, by simp [fail]⟩
  rename_i sig given
  split
  · exact .inl ⟨_, rfl, by simp [fail]⟩
  rename_i accountKey resolved
  split
  · exact .inl ⟨_, rfl, by simp⟩
  rename_i checked
  have checked := checkTimestamp_ok checked
  split
  · exact .inl ⟨_, rfl, by simp [fail]⟩
  split
  · exact .inl ⟨_, rfl, by simp [fail]⟩
  · exact .inl ⟨_, rfl, by simp⟩
  · rename_i valid
    rcases useNonce_cases with
      refused | ⟨next, added, accepted⟩
    · exact .inl refused
    · grind

structure Accepted where
  key : NonceKey
  nonceTime : Int
  time : Nat
  deriving DecidableEq

structure Service where
  cache : NonceCache
  clock : Nat
  accepted : List Accepted
  deriving DecidableEq

def Service.new (created : Int) : Service := ⟨⟨[], [], created⟩, 0, []⟩

def VerifyCall.entry (call : VerifyCall) : Option Accepted :=
  match call.sig, call.accountKey with
  | some sig, .ok accountKey => some ⟨⟨accountKey, sig.nonceID⟩, sig.sigTime, call.later⟩
  | _, _ => none

/-- Calls in the order in which they come to `AddNonce`; the clock does not go back. -/
def Service.step (st : Service) (call : VerifyCall) : Option Service :=
  if call.later < call.now ∨ call.later < st.clock then none
  else
    match verify st.cache call with
    | (cache, result) =>
      some { cache := cache, clock := call.later,
             accepted :=
              if result = .ok true then st.accepted ++ call.entry.toList else st.accepted }

/-- No call that returned true uses the nonce of an earlier one whose timestamp is acceptable. -/
def NoReplay (accepted : List Accepted) : Prop :=
  accepted.Pairwise fun earlier later =>
    earlier.key = later.key → ¬Acceptable earlier.nonceTime later.time

/-- When a valid signature with an acceptable timestamp and a nonce that is not remembered comes in a
new window, the bucket that is emptied holds no nonce whose timestamp is acceptable. -/
def ForgetsExpired (st : Service) (call : VerifyCall) : Prop :=
  st.cache.NewWindow call.later → call.walletVerify = .ok true →
    ∀ used ∈ call.entry, Acceptable used.nonceTime call.now → Acceptable used.nonceTime call.later →
      ¬st.cache.Remembers used.key →
      ∀ entry ∈ st.accepted,
        entry.key ∈ st.cache.bucket (1 - NonceCache.getBucketIndex call.later) →
        ¬Acceptable entry.nonceTime call.later

instance (st : Service) (call : VerifyCall) : Decidable (ForgetsExpired st call) :=
  inferInstanceAs (Decidable (_ → _))

/-- Nonces are remembered as long as their timestamps are acceptable. -/
structure Guarded (st : Service) : Prop where
  inTime : ∀ entry ∈ st.accepted, entry.nonceTime ≤ st.clock + skewAllowance
  remembered : ∀ entry ∈ st.accepted, Acceptable entry.nonceTime st.clock →
    st.cache.Remembers entry.key
  noReplay : NoReplay st.accepted

variable {st : Service}

theorem step_cases {next : Service} (stepped : st.step call = some next) :
    st.clock ≤ call.later ∧
      (next = { st with clock := call.later } ∨
        ∃ key nonceTime, call.walletVerify = .ok true ∧
          call.entry = some ⟨key, nonceTime, call.later⟩ ∧ Acceptable nonceTime call.now ∧
          Acceptable nonceTime call.later ∧ ¬st.cache.Remembers key ∧ next.clock = call.later ∧
          next.accepted = st.accepted ++ [⟨key, nonceTime, call.later⟩] ∧
          ∀ other, next.cache.Remembers other ↔
            other = key ∨ other ∈ st.cache.bucket (NonceCache.getBucketIndex call.later) ∨
              (¬st.cache.NewWindow call.later ∧
                other ∈ st.cache.bucket (1 - NonceCache.getBucketIndex call.later))) := by
  simp only [Service.step] at stepped
  split at stepped
  · cases stepped
  · rename_i inOrder
    refine ⟨by omega, ?_⟩
    rcases verify_cases st.cache call with ⟨result, same, refused⟩ | ⟨sig, accountKey, cache, given,
      resolved, checked, valid, added, accepted⟩
    · grind
    · obtain ⟨acceptable, unknown, rfl⟩ := NonceCache.addNonce_true.mp added
      rw [accepted] at stepped
      cases stepped
      have entry : call.entry = some ⟨⟨accountKey, sig.nonceID⟩, sig.sigTime, call.later⟩ := by
        simp [VerifyCall.entry, given, resolved]
      refine .inr ⟨_, _, valid, entry, checked, acceptable, unknown, rfl, ?_, ?_⟩
      · simp [entry]
      · exact fun other => NonceCache.remembers_added st.cache _ other call.later

theorem Acceptable.earlier {later : Nat} (notFuture : nonceTime ≤ now + skewAllowance)
    (ordered : now ≤ later) (acceptable : Acceptable nonceTime later) :
    Acceptable nonceTime now := by
  refine ⟨notFuture, ?_⟩
  have := acceptable.2
  omega

theorem Guarded.step {next : Service} (guarded : Guarded st) (forgets : ForgetsExpired st call)
    (stepped : st.step call = some next) : Guarded next := by
  obtain ⟨ordered, rfl | ⟨key, nonceTime, valid, used, checked, acceptable, unknown, clock,
    logged, remembers⟩⟩ := step_cases stepped
  · constructor
    · intro entry member
      have bound := guarded.inTime entry member
      simp only
      omega
    · intro entry member live
      exact guarded.remembered entry member (live.earlier (guarded.inTime entry member) ordered)
    · exact guarded.noReplay
  · constructor
    · intro entry member
      rw [clock]
      rw [logged, mem_append, mem_singleton] at member
      rcases member with earlier | rfl
      · have bound := guarded.inTime entry earlier
        omega
      · exact acceptable.1
    · intro entry member live
      rw [clock] at live
      rw [remembers]
      rw [logged, mem_append, mem_singleton] at member
      rcases member with earlier | rfl
      · have known := guarded.remembered entry earlier
          (live.earlier (guarded.inTime entry earlier) ordered)
        rcases (NonceCache.remembers_iff _ _ call.later).mp known with current | old
        · exact .inr (.inl current)
        · -- the old bucket was kept, for it holds a live nonce
          refine .inr (.inr ⟨?_, old⟩)
          intro moved
          exact forgets moved valid _ used checked acceptable unknown entry earlier old live
      · exact .inl rfl
    · rw [logged, NoReplay, pairwise_append]
      refine ⟨guarded.noReplay, pairwise_singleton _ _, ?_⟩
      intro earlier member last same sameKey live
      rw [mem_singleton.mp same] at sameKey live
      have known := guarded.remembered earlier member
        (live.earlier (guarded.inTime earlier member) ordered)
      rw [sameKey] at known
      exact unknown known

/-- In every run whose cleanups forget only expired nonces, no nonce is accepted twice while the
timestamp of the first signature is acceptable. -/
theorem no_replay (created : Int) (calls : List VerifyCall) (final : Service)
    (forgets : StepMachine.RunsUnder Service.step ForgetsExpired (Service.new created) calls)
    (ran : StepMachine.run Service.step (Service.new created) calls = some final) :
    NoReplay final.accepted := by
  have guarded : Guarded final := by
    refine StepMachine.run_invariant (fun _ _ _ held allowed stepped => held.step allowed stepped)
      ?_ forgets ran
    exact ⟨by simp [Service.new], by simp [Service.new], Pairwise.nil⟩
  exact guarded.noReplay

def sampleCall (nonceTime nonceID now : Nat) : VerifyCall :=
  ⟨some ⟨nonceTime, nonceID, [1]⟩, .ok "f1signer", .ok true, now * 1000000000, now * 1000000000⟩

/-- A signature is refused when it comes again, and its nonce is forgotten after it has expired. -/
theorem no_replay_expired :
    ∃ final, StepMachine.run Service.step (Service.new 30000000000)
        [sampleCall 59 1 59, sampleCall 59 1 60, sampleCall 181 2 181] = some final ∧
      final.accepted.length = 2 ∧ NoReplay final.accepted :=
  ⟨_, rfl, rfl, no_replay 30000000000
    [sampleCall 59 1 59, sampleCall 59 1 60, sampleCall 181 2 181] _ (by decide +kernel) rfl⟩

/-- The first nonce of the next window makes the cache forget one of two seconds ago. -/
theorem replay_in_next_window :
    ∃ final, StepMachine.run Service.step (Service.new 30000000000)
        [sampleCall 59 1 59, sampleCall 60 2 60, sampleCall 59 1 61] = some final ∧
      final.accepted.map (fun entry => (entry.key.nonceID, entry.nonceTime, entry.time)) =
        [(1, 59000000000, 59000000000), (2, 60000000000, 60000000000),
          (1, 59000000000, 61000000000)] ∧
      Acceptable 59000000000 61000000000 :=
  ⟨_, rfl, rfl, by decide⟩

end Curio.ProofSvc
