import Mathlib
import Curio.Proof.Commit1Bincode

/-! Encoding and decoding of `Commit1OutRaw` undo each other: the decoder reads back what was
written with `nil` slices filled in, and what it accepts is written again unless it holds no
partition. -/

namespace Curio.Proof

open GoRuntime ByteCodec List

variable {c : Commit1OutRaw} {bytes : Bytes}

section Filled

variable {H : Type}

def Column.filled (c : Column H) : Column H := { c with rows := c.rows.filled id }

def ColumnProof.filled (cp : ColumnProof H) : ColumnProof H :=
  ⟨cp.column.filled, cp.inclusionProof.filled⟩

def ReplicaColumnProof.filled (rcp : ReplicaColumnProof H) : ReplicaColumnProof H :=
  ⟨rcp.cX.filled, rcp.drgParents.filled ColumnProof.filled,
    rcp.expParents.filled ColumnProof.filled⟩

def LabelingProof.filled (lp : LabelingProof H) : LabelingProof H :=
  { lp with parents := lp.parents.filled id }

def VanillaStackedProof.filled (v : VanillaStackedProof) : VanillaStackedProof :=
  ⟨v.commDProofs.filled, v.commRLastProof.filled, v.replicaColumnProofs.filled,
    v.labelingProofs.filled LabelingProof.filled, v.encodingProof.filled⟩

def Commit1OutRaw.filled (c : Commit1OutRaw) : Commit1OutRaw :=
  { c with
    vanillaProofs := fun key =>
      (c.vanillaProofs key).map (Slice.filled (Slice.filled VanillaStackedProof.filled)) }

/-- One pointer set in the proof and no `H` in the column. -/
structure ColumnProof.Sound (cp : ColumnProof H) : Prop where
  noH : cp.column.h = none
  oneSet : cp.inclusionProof.data.OneSet

structure ReplicaColumnProof.Sound (rcp : ReplicaColumnProof H) : Prop where
  cX : rcp.cX.Sound
  drgParents : ∀ cp ∈ rcp.drgParents.items, cp.Sound
  expParents : ∀ cp ∈ rcp.expParents.items, cp.Sound

/-- At every depth one pointer is set and no column has an `H`. -/
structure VanillaStackedProof.Sound (v : VanillaStackedProof) : Prop where
  commDProofs : v.commDProofs.data.OneSet
  commRLastProof : v.commRLastProof.data.OneSet
  replicaColumnProofs : v.replicaColumnProofs.Sound

end Filled

section Fields

variable {H : Type} [FixedSize H]

theorem column_roundTrip :
    RoundTrip encodeColumn (decodeColumn H) (fun c => c.h = none) Column.filled where
  carries c noH := by
    obtain ⟨index, rows, h⟩ := c
    cases noH
    exact (Carries.word index).within.bind
      (hasherDomain_roundTrip.within.slice.carries rows (fun _ _ => trivial)).last
  rewrites bytes c reads := by
    obtain ⟨index, _, _, rfl, tookIndex, reads⟩ := reads_bind.mp reads
    obtain ⟨rows, tookRows, rfl⟩ := reads_bind_pure.mp reads
    exact (RoundTrip.word.within.rewrites _ _ tookIndex).bind
      (hasherDomain_roundTrip.within.slice.rewrites _ _ tookRows)

theorem columnProof_roundTrip :
    RoundTrip encodeColumnProof (decodeColumnProof H) ColumnProof.Sound ColumnProof.filled :=
  .ofFields <| .field column_roundTrip.within (fun _ sound => sound.noH) fun _ =>
    .last merkleProof_roundTrip.within (fun _ sound => sound.oneSet)

theorem replicaColumnProof_roundTrip :
    RoundTrip encodeReplicaColumnProof (decodeReplicaColumnProof H) ReplicaColumnProof.Sound
      ReplicaColumnProof.filled :=
  .ofFields <| .field columnProof_roundTrip.within (fun _ sound => sound.cX) fun _ =>
    .field columnProof_roundTrip.within.slice (fun _ sound => sound.drgParents) fun _ =>
    .last columnProof_roundTrip.within.slice (fun _ sound => sound.expParents)

theorem nodeProof_roundTrip {name : String} :
    RoundTrip (encodeNodeProof name) (decodeLabelingProof H) (fun _ => True)
      LabelingProof.filled :=
  .ofFields <| .field hasherDomain_roundTrip.within.slice (fun _ _ _ _ => trivial) fun _ =>
    .field RoundTrip.word.within (fun _ _ => trivial) fun _ =>
    .last RoundTrip.word.within (fun _ _ => trivial)

end Fields

theorem vanillaStackedProof_roundTrip :
    RoundTrip encodeVanillaStackedProof decodeVanillaStackedProof VanillaStackedProof.Sound
      VanillaStackedProof.filled :=
  .ofFields <| .field merkleProof_roundTrip.within (fun _ sound => sound.commDProofs) fun _ =>
    .field merkleProof_roundTrip.within (fun _ sound => sound.commRLastProof) fun _ =>
    .field replicaColumnProof_roundTrip.within (fun _ sound => sound.replicaColumnProofs) fun _ =>
    .field nodeProof_roundTrip.within.slice (fun _ _ _ _ => trivial) fun _ =>
    .last nodeProof_roundTrip.within (fun _ _ => trivial)

theorem partition_roundTrip :
    RoundTrip encodePartition decodePartition (fun inner => ∀ p ∈ inner.items, p.Sound)
      (Slice.filled VanillaStackedProof.filled) :=
  vanillaStackedProof_roundTrip.within.slice

def VanillaProofs.only (partitions : Slice (Slice VanillaStackedProof)) : VanillaProofs :=
  VanillaProofs.empty.set vanillaKey partitions

theorem VanillaProofs.only_key (partitions : Slice (Slice VanillaStackedProof)) :
    VanillaProofs.only partitions vanillaKey = some partitions := rfl

theorem VanillaProofs.only_set (before after : Slice (Slice VanillaStackedProof)) :
    (VanillaProofs.only before).set vanillaKey after = VanillaProofs.only after := by
  funext key
  simp only [VanillaProofs.only, VanillaProofs.set]
  split <;> rfl

theorem reads_decodePartitions {count : Nat} {start final : VanillaProofs} :
    Reads (decodePartitions count start) bytes final ↔
      ∃ inners, Reads (readItems decodePartition count) bytes inners ∧
        inners.1.foldlM appendPartition start = .ok final := by
  induction count generalizing start bytes with
  | zero =>
    constructor
    · intro reads
      obtain ⟨rfl, rfl⟩ := reads_pure.mp reads
      exact ⟨⟨[], rfl⟩, reads_pure.mpr ⟨rfl, rfl⟩, rfl⟩
    · rintro ⟨inners, reads, grown⟩
      obtain ⟨rfl, rfl⟩ := reads_pure.mp reads
      cases grown
      exact reads_pure.mpr ⟨rfl, rfl⟩
  | succ count ih =>
    constructor
    · intro reads
      obtain ⟨inner, front, _, rfl, tookInner, reads⟩ := reads_bind.mp reads
      obtain ⟨grown, _, back, rfl, lifted, tookOthers⟩ := reads_bind.mp reads
      obtain ⟨rfl, appended⟩ := reads_lift.mp lifted
      obtain ⟨rest, tookRest, folded⟩ := ih.mp tookOthers
      refine ⟨⟨inner :: rest.1, congrArg (· + 1) rest.2⟩, ?_, ?_⟩
      · exact reads_bind.mpr ⟨inner, front, back, rfl, tookInner,
          reads_bind_pure.mpr ⟨rest, tookRest, rfl⟩⟩
      · rw [foldlM_cons, appended]
        exact folded
    · rintro ⟨inners, reads, folded⟩
      obtain ⟨inner, front, back, rfl, tookInner, reads⟩ := reads_bind.mp reads
      obtain ⟨rest, tookRest, rfl⟩ := reads_bind_pure.mp reads
      obtain ⟨grown, appended, folded⟩ := bind_eq_ok.mp folded
      exact reads_bind.mpr ⟨inner, front, back, rfl, tookInner,
        reads_bind.mpr ⟨grown, [], back, rfl, reads_lift.mpr ⟨rfl, appended⟩,
          ih.mpr ⟨rest, tookRest, folded⟩⟩⟩

theorem appendPartition_only (items : List (Slice VanillaStackedProof))
    (fits : items.length < 2 ^ 63) (inner : Slice VanillaStackedProof) :
    appendPartition (.only ⟨some items, fits⟩) inner =
      if grown : (items ++ [inner]).length < 2 ^ 63 then
        .ok (.only ⟨some (items ++ [inner]), grown⟩)
      else panics "growslice: len out of range" := by
  rw [appendPartition, VanillaProofs.only_key, Option.getD_some, Slice.append, Slice.items_some]
  split
  · rw [ok_bind, VanillaProofs.only_set]
  · rfl

theorem appendPartitions_only (inners items : List (Slice VanillaStackedProof))
    (fits : items.length < 2 ^ 63) (final : VanillaProofs) :
    inners.foldlM appendPartition (.only ⟨some items, fits⟩) = .ok final ↔
      ∃ grown, final = .only ⟨some (items ++ inners), grown⟩ := by
  induction inners generalizing items with
  | nil =>
    simp only [append_nil]
    constructor
    · intro same
      exact ⟨fits, (Except.ok.inj same).symm⟩
    · rintro ⟨grown, rfl⟩
      rfl
  | cons inner rest ih =>
    rw [foldlM_cons, appendPartition_only]
    split
    · rename_i grown
      rw [ok_bind, ih _ grown, append_assoc, singleton_append]
    · rename_i tooLong
      constructor
      · intro impossible
        cases impossible
      · grind

theorem appendPartitions_empty {inners : List (Slice VanillaStackedProof)}
    (some_inner : inners ≠ []) {final : VanillaProofs} :
    inners.foldlM appendPartition .empty = .ok final ↔
      ∃ grown, final = .only ⟨some inners, grown⟩ := by
  obtain ⟨inner, rest, rfl⟩ := exists_cons_of_ne_nil some_inner
  have first : appendPartition .empty inner = .ok (.only ⟨some [inner], by simp⟩) := rfl
  rw [foldlM_cons, first, ok_bind, appendPartitions_only]
  rfl

theorem commitment_roundTrip :
    RoundTrip encodeCommitment decodeCommitment (fun _ => True) id := RoundTrip.word.within

theorem ticket_roundTrip : RoundTrip encodeTicket decodeTicket (fun _ => True) id :=
  RoundTrip.word.within

variable {partitions : Slice (Slice VanillaStackedProof)}

theorem Commit1OutRaw.filled_only (only : c.vanillaProofs = .only partitions) :
    c.filled = { c with
      vanillaProofs := .only (partitions.filled (Slice.filled VanillaStackedProof.filled)) } := by
  rw [Commit1OutRaw.filled, only, Commit1OutRaw.mk.injEq]
  refine ⟨rfl, rfl, rfl, rfl, rfl, rfl, funext fun key => ?_⟩
  simp only [VanillaProofs.only, VanillaProofs.set]
  split <;> rfl

/-- What is written for a value of the 32 GiB type is read back with its slices filled in. -/
theorem commit1_carries (registered : c.registeredProof = "StackedDrg32GiBV1_1")
    (only : c.vanillaProofs = .only partitions) (some_partition : partitions.items ≠ [])
    (sound : ∀ inner ∈ partitions.items, ∀ p ∈ inner.items, p.Sound) :
    Carries (encodeCommit1OutRaw c) decodeCommit1Fields c.filled := by
  have proofs : Carries (writeItems encodePartition partitions.items)
      (decodePartitions (UInt64.ofNat partitions.items.length).toNat .empty)
      (.only (partitions.filled (Slice.filled VanillaStackedProof.filled))) := by
    rw [length_word]
    obtain ⟨bytes, wrote, took⟩ := partition_roundTrip.carries_items partitions.items sound
    refine ⟨bytes, wrote, reads_decodePartitions.mpr ⟨_, took, ?_⟩⟩
    exact (appendPartitions_empty (by simpa using some_partition)).mpr ⟨_, rfl⟩
  rw [Commit1OutRaw.filled_only only, encodeCommit1OutRaw, only, VanillaProofs.only_key,
    encodeVanillaProofs, writeSlice, bind_assoc, registered]
  exact (Carries.word _).within.bind <|
    proofs.bind <|
    (commitment_roundTrip.carries c.commR trivial).within.bind <|
    (commitment_roundTrip.carries c.commD trivial).within.bind <|
    (commitment_roundTrip.carries c.replicaId trivial).within.bind <|
    (ticket_roundTrip.carries c.seed trivial).within.bind <|
    (ticket_roundTrip.carries c.ticket trivial).within.last

theorem decodeCommit1OutRaw_eq_ok {input : Bytes} :
    decodeCommit1OutRaw input = .ok c ↔ Reads decodeCommit1Fields input c := by
  constructor
  · intro decoded
    obtain ⟨⟨out, rest⟩, ran, ended⟩ := bind_eq_ok.mp decoded
    cases rest with
    | nil =>
      cases ended
      obtain ⟨used, split, reads⟩ := Reader.reads_of_run ran
      rwa [split, append_nil]
    | cons byte more => cases ended
  · intro reads
    have ran := reads []
    rw [append_nil] at ran
    rw [decodeCommit1OutRaw, ran]
    rfl

/-- Of the bytes that are written, no proper prefix and no proper extension is accepted. -/
theorem decodeCommit1OutRaw_nothing_more {front back : Bytes} {d : Commit1OutRaw}
    (short : decodeCommit1OutRaw front = .ok c) (long : decodeCommit1OutRaw (front ++ back) = .ok d) :
    back = [] :=
  (decodeCommit1OutRaw_eq_ok.mp short).nothing_more (decodeCommit1OutRaw_eq_ok.mp long)

/-- Encoding succeeds and decoding reads the value back with `nil` slices filled in, up to the
last byte; no proper prefix and no proper extension of the bytes is accepted. -/
theorem commit1_decode_encode (c : Commit1OutRaw) (partitions : Slice (Slice VanillaStackedProof))
    (registered : c.registeredProof = "StackedDrg32GiBV1_1")
    (only : c.vanillaProofs = .only partitions) (some_partition : partitions.items ≠ [])
    (sound : ∀ inner ∈ partitions.items, ∀ p ∈ inner.items, p.Sound) :
    ∃ bytes, encodeCommit1OutRaw c [] = .ok ((), bytes) ∧
      decodeCommit1OutRaw bytes = .ok c.filled ∧
      decodeCommit1Fields.run bytes = .ok (c.filled, []) ∧
      (∀ front back, bytes = front ++ back → back ≠ [] →
        ∀ d, decodeCommit1OutRaw front ≠ .ok d) ∧
      ∀ more, more ≠ [] → ∀ d, decodeCommit1OutRaw (bytes ++ more) ≠ .ok d := by
  obtain ⟨bytes, wrote, took⟩ := commit1_carries registered only some_partition sound
  have decoded := decodeCommit1OutRaw_eq_ok.mpr took
  refine ⟨bytes, wrote [], decoded, ?_, ?_, ?_⟩
  · have ran := took []
    rwa [append_nil] at ran
  · intro front back split proper d accepted
    rw [split] at decoded
    exact proper (decodeCommit1OutRaw_nothing_more accepted decoded)
  · intro more proper d accepted
    exact proper (decodeCommit1OutRaw_nothing_more decoded accepted)

def oneItem {α : Type} (item : α) : Slice α := ⟨some [item], by simp⟩

def samplePath : InclusionPath Node := ⟨oneItem ⟨oneItem zeroNode, 1⟩⟩

def sampleSingle : MerkleProof Node := ⟨{ single := some ⟨zeroNode, zeroNode, samplePath⟩ }⟩

def sampleSub : MerkleProof Node :=
  ⟨{ sub := some ⟨samplePath, samplePath, zeroNode, zeroNode⟩ }⟩

def sampleTop : MerkleProof Node :=
  ⟨{ top := some ⟨samplePath, samplePath, samplePath, zeroNode, zeroNode⟩ }⟩

def sampleProof : VanillaStackedProof where
  commDProofs := sampleSingle
  commRLastProof := sampleTop
  replicaColumnProofs :=
    ⟨⟨⟨7, oneItem zeroNode, none⟩, sampleSub⟩, oneItem ⟨⟨8, oneItem zeroNode, none⟩, sampleSub⟩,
      .empty⟩
  labelingProofs := oneItem ⟨oneItem zeroNode, 1, 2⟩
  encodingProof := ⟨oneItem zeroNode, 11, 2⟩

def sampleCommit1 (partitions : Slice (Slice VanillaStackedProof)) : Commit1OutRaw :=
  ⟨zeroNode, zeroNode, "StackedDrg32GiBV1_1", zeroNode, zeroNode, zeroNode, .only partitions⟩

theorem sampleProof_sound : sampleProof.Sound where
  commDProofs := rfl
  commRLastProof := rfl
  replicaColumnProofs :=
    { cX := ⟨rfl, rfl⟩
      drgParents := by
        intro cp member
        obtain rfl := mem_singleton.mp member
        exact ⟨rfl, rfl⟩
      expParents := by
        intro cp member
        cases member }

def oneChallenge : Slice (Slice VanillaStackedProof) := oneItem (oneItem sampleProof)

theorem oneChallenge_sound : ∀ inner ∈ oneChallenge.items, ∀ p ∈ inner.items, p.Sound := by
  intro inner member p inside
  obtain rfl := mem_singleton.mp member
  obtain rfl := mem_singleton.mp inside
  exact sampleProof_sound

/-- A value without `nil` slices comes back as it was. -/
theorem commit1_decode_encode_sample :
    ∃ bytes, encodeCommit1OutRaw (sampleCommit1 oneChallenge) [] = .ok ((), bytes) ∧
      decodeCommit1OutRaw bytes = .ok (sampleCommit1 oneChallenge) := by
  have only : (sampleCommit1 oneChallenge).vanillaProofs = .only oneChallenge := rfl
  obtain ⟨bytes, wrote, decoded, _⟩ :=
    commit1_decode_encode (sampleCommit1 oneChallenge) _ rfl only (cons_ne_nil _ _)
      oneChallenge_sound
  exact ⟨bytes, wrote, decoded.trans (congrArg Except.ok (Commit1OutRaw.filled_only only))⟩

def nilPartition : Slice (Slice VanillaStackedProof) := oneItem .nil

/-- A partition that is a `nil` slice comes back as an empty one. -/
theorem commit1_nil_partition_changes :
    (sampleCommit1 nilPartition).registeredProof = "StackedDrg32GiBV1_1" ∧
      (sampleCommit1 nilPartition).vanillaProofs = .only nilPartition ∧
      nilPartition.items ≠ [] ∧
      (∀ inner ∈ nilPartition.items, ∀ p ∈ inner.items, p.Sound) ∧
      ∃ bytes c, encodeCommit1OutRaw (sampleCommit1 nilPartition) [] = .ok ((), bytes) ∧
        decodeCommit1OutRaw bytes = .ok c ∧ c ≠ sampleCommit1 nilPartition := by
  have only : (sampleCommit1 nilPartition).vanillaProofs = .only nilPartition := rfl
  have some_partition : nilPartition.items ≠ [] := cons_ne_nil _ _
  have sound : ∀ inner ∈ nilPartition.items, ∀ p ∈ inner.items, p.Sound := by
    intro inner member p inside
    obtain rfl := mem_singleton.mp member
    cases inside
  obtain ⟨bytes, wrote, took⟩ := commit1_carries rfl only some_partition sound
  refine ⟨rfl, only, some_partition, sound, bytes, _, wrote [],
    decodeCommit1OutRaw_eq_ok.mpr took, fun same => ?_⟩
  have key := congrFun (congrArg Commit1OutRaw.vanillaProofs same) vanillaKey
  cases key

/-- Fields that were read are written again, unless the outer length was zero: the key is then
missing from the map. -/
theorem commit1_rewrites (reads : Reads decodeCommit1Fields bytes c) :
    (leValue (bytes.take 8) = 0 ∧ c.vanillaProofs vanillaKey = none) ∨
      (leValue (bytes.take 8) ≠ 0 ∧ Writes (encodeCommit1OutRaw c) bytes) := by
  obtain ⟨length, front, _, rfl, tookLength, reads⟩ := reads_bind.mp reads
  obtain ⟨proofs, middle, _, rfl, tookProofs, reads⟩ := reads_bind.mp reads
  obtain ⟨commR, _, _, rfl, tookCommR, reads⟩ := reads_bind.mp reads
  obtain ⟨commD, _, _, rfl, tookCommD, reads⟩ := reads_bind.mp reads
  obtain ⟨replicaId, _, _, rfl, tookReplicaId, reads⟩ := reads_bind.mp reads
  obtain ⟨seed, _, _, rfl, tookSeed, reads⟩ := reads_bind.mp reads
  obtain ⟨ticket, tookTicket, rfl⟩ := reads_bind_pure.mp reads
  rw [reads_within, reads_readLE] at tookLength
  rw [tookLength, leValue_take_put]
  obtain ⟨inners, tookInners, folded⟩ := reads_decodePartitions.mp tookProofs
  have count := inners.2
  by_cases none : length.toNat = 0
  · left
    rw [length_eq_zero_iff.mp (count.trans none)] at folded
    cases folded
    exact ⟨none, rfl⟩
  · right
    have some_inner : inners.1 ≠ [] := fun empty => none (by simpa [empty] using count.symm)
    obtain ⟨fits, rfl⟩ := (appendPartitions_empty some_inner).mp folded
    have outer : Writes (encodeVanillaProofs (some ⟨some inners.1, fits⟩))
        (FixedSize.put length ++ middle) := by
      refine Writes.bind (Writes.within _ ?_) (partition_roundTrip.rewrites_items _ _ _ tookInners)
      rw [Slice.items_some, count, UInt64.ofNat_toNat]
      exact writes_write _
    refine ⟨none, ?_⟩
    exact outer.bind <|
      (commitment_roundTrip.within.rewrites _ _ tookCommR).bind <|
      (commitment_roundTrip.within.rewrites _ _ tookCommD).bind <|
      (commitment_roundTrip.within.rewrites _ _ tookReplicaId).bind <|
      (ticket_roundTrip.within.rewrites _ _ tookSeed).bind <|
      ticket_roundTrip.within.rewrites _ _ tookTicket

/-- What the decoder accepts is encoded to the same bytes exactly when the outer length, its
first word, is not zero. -/
theorem commit1_encode_decode_iff (input : Bytes) (c : Commit1OutRaw)
    (accepted : decodeCommit1OutRaw input = .ok c) :
    encodeCommit1OutRaw c [] = .ok ((), input) ↔ leValue (input.take 8) ≠ 0 := by
  obtain ⟨zero, missing⟩ | ⟨several, writes⟩ :=
    commit1_rewrites (decodeCommit1OutRaw_eq_ok.mp accepted)
  · have refused : ∃ text, encodeCommit1OutRaw c [] = fail text := by
      rw [encodeCommit1OutRaw, missing]
      exact ⟨_, rfl⟩
    obtain ⟨text, refused⟩ := refused
    simp [refused, zero, fail]
  · exact ⟨fun _ => several, fun _ => writes []⟩

/-- What is written for a partition with a challenge is accepted, and its first word is not zero. -/
theorem commit1_encode_decode_challenge :
    ∃ bytes, decodeCommit1OutRaw bytes = .ok (sampleCommit1 oneChallenge) ∧
      encodeCommit1OutRaw (sampleCommit1 oneChallenge) [] = .ok ((), bytes) ∧
      leValue (bytes.take 8) ≠ 0 := by
  have only : (sampleCommit1 oneChallenge).vanillaProofs = .only oneChallenge := rfl
  obtain ⟨bytes, wrote, took⟩ := commit1_carries rfl only (cons_ne_nil _ _) oneChallenge_sound
  rw [Commit1OutRaw.filled_only only] at took
  have accepted := decodeCommit1OutRaw_eq_ok.mpr took
  exact ⟨bytes, accepted, wrote [], (commit1_encode_decode_iff _ _ accepted).mp (wrote [])⟩

set_option maxRecDepth 8000 in
/-- Zero partitions are accepted, and the encoder then fails on the missing key. -/
theorem commit1_no_partition_fails :
    ∃ c, decodeCommit1OutRaw (replicate 168 0) = .ok c ∧
      encodeCommit1OutRaw c [] = fail ("writing 0 for proofs outer length: " ++
        "binary.Write: some values are not fixed-sized in type int") :=
  ⟨⟨zeroNode, zeroNode, "StackedDrg32GiBV1_1", zeroNode, zeroNode, zeroNode, .empty⟩, rfl, rfl⟩

end Curio.Proof
