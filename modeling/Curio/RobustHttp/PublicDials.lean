import Curio.RobustHttp.Ssrf

/-! No address that the client dials is internal, whatever the resolver and the servers answer. -/

namespace Curio.RobustHttp

open GoRuntime NetAddr List

/-- The first bits of an address of the given width are those of the block. -/
def InBlock (width bits : Nat) (block : Nat × Nat) : Prop :=
  bits / 2 ^ (width - block.2) = block.1 / 2 ^ (width - block.2)

instance (width bits : Nat) (block : Nat × Nat) : Decidable (InBlock width bits block) :=
  inferInstanceAs (Decidable (_ = _))

def quad (a b c d : Nat) : Nat := a * 2 ^ 24 + b * 2 ^ 16 + c * 2 ^ 8 + d

def classBlocks4 : List (Nat × Nat) := [
  (quad 127 0 0 0, 8), (quad 10 0 0 0, 8), (quad 172 16 0 0, 12), (quad 192 168 0 0, 16),
  (quad 169 254 0 0, 16), (quad 224 0 0 0, 4), (quad 0 0 0 0, 32)]

def specialBlocks4 : List (Nat × Nat) := [
  (quad 0 0 0 0, 8), (quad 100 64 0 0, 10), (quad 169 254 0 0, 16), (quad 192 0 0 0, 24),
  (quad 192 0 2 0, 24), (quad 198 18 0 0, 15), (quad 198 51 100 0, 24), (quad 203 0 113 0, 24),
  (quad 240 0 0 0, 4), (quad 255 255 255 255, 32)]

def Internal4 (bits : BitVec 32) : Prop :=
  ∃ block ∈ classBlocks4 ++ specialBlocks4, InBlock 32 bits.toNat block

def groups (first second third : Nat) : Nat :=
  first * 2 ^ 112 + second * 2 ^ 96 + third * 2 ^ 80

def internalBlocks6 : List (Nat × Nat) := [
  (1, 128), (groups 0xfc00 0 0, 7), (groups 0xfe80 0 0, 10), (groups 0xff00 0 0, 8), (0, 128),
  (0, 96), (groups 0x64 0xff9b 0, 96), (groups 0x64 0xff9b 1, 48), (groups 0x100 0 0, 64),
  (groups 0x2001 0 0, 23), (groups 0x2001 0xdb8 0, 32), (groups 0x2002 0 0, 16)]

/-- The IPv4 addresses that an IPv6 address stands for: mapped, compatible, 6to4 and NAT64. -/
def Embeds (bits : BitVec 128) (inner : BitVec 32) : Prop :=
  let low := inner.toNat = bits.toNat % 2 ^ 32
  (bits.toNat / 2 ^ 32 = 0xffff ∧ low) ∨ (bits.toNat / 2 ^ 32 = 0 ∧ low) ∨
    (bits.toNat / 2 ^ 112 = 0x2002 ∧ inner.toNat = bits.toNat / 2 ^ 80 % 2 ^ 32) ∨
    (bits.toNat / 2 ^ 32 = 0x64ff9b * 2 ^ 64 ∧ low) ∨
    -- in the local prefix the place of the IPv4 address is up to the network
    bits.toNat / 2 ^ 80 = 0x64ff9b * 2 ^ 16 + 1

def Internal : Addr → Prop
  | .invalid => True
  | .v4 bits => Internal4 bits
  | .v6 bits _ =>
    (∃ block ∈ internalBlocks6, InBlock 128 bits.toNat block) ∨
      ∃ inner, Embeds bits inner ∧ Internal4 inner

structure SSRFPolicy.Strict (policy : SSRFPolicy) : Prop where
  disabled : policy.disabled = false
  allowedHosts : policy.allowedHosts = []
  loopback : policy.allowLoopbackIPs = false
  priv : policy.allowPrivateIPs = false
  names : policy.allowLocalHostnames = false

theorem strict_defaults : (withSSRFDefaults none none).Strict := ⟨rfl, rfl, rfl, rfl, rfl⟩

theorem specialBlocks4_forbidden :
    ∀ block ∈ specialBlocks4, block.1 < 2 ^ 32 ∧
      ⟨.v4 (BitVec.ofNat 32 block.1), block.2⟩ ∈ forbiddenFetchPrefixes := by
  decide

theorem internalBlocks6_forbidden :
    ∀ block ∈ internalBlocks6, block.1 < 2 ^ 128 ∧
      ⟨.v6 (BitVec.ofNat 128 block.1) "", block.2⟩ ∈ forbiddenFetchPrefixes := by
  decide

/-- What passes under a strict policy is in no class and no range that is refused. -/
structure Passes (ip : Addr) : Prop where
  valid : ip.isValid = true
  loopback : ip.isLoopback = false
  priv : ip.isPrivate = false
  linkLocal : ip.isLinkLocalUnicast = false
  multicast : ip.isMulticast = false
  forbidden : ∀ p ∈ forbiddenFetchPrefixes, p.contains ip = false

variable {ip : Addr} {policy : SSRFPolicy} {bits : BitVec 128} {host : String} {answer : Lookup}
  {ips : List Addr} {connects : Addr → Bool}

theorem validateFetchIP_passes (strict : policy.Strict) (ok : validateFetchIP ip policy = .ok ()) :
    Passes ip.unmap := by
  simp only [validateFetchIP, strict.loopback, strict.priv] at ok
  split at ok
  · cases ok
  split at ok
  · cases ok
  split at ok
  · cases ok
  split at ok
  · cases ok
  split at ok
  · cases ok
  rename_i valid loopback priv linkLocal special
  have each := forEach_eq_ok.mp ok
  simp only [Bool.or_eq_true, not_or] at special
  constructor
  · simpa using valid
  · simpa using loopback
  · simpa using priv
  · simpa using linkLocal
  · simpa using special.2
  · intro p member
    have passed := each p member
    split at passed
    · cases passed
    · rename_i outside
      simpa using outside

theorem Passes.public4 {bits : BitVec 32} (passes : Passes (.v4 bits)) : ¬Internal4 bits := by
  have loopback := passes.loopback
  have priv := passes.priv
  have linkLocal := passes.linkLocal
  have multicast := passes.multicast
  simp only [Addr.isLoopback, Addr.isPrivate, Addr.isLinkLocalUnicast, Addr.isMulticast,
    Addr.unmap_v4, decide_eq_false_iff_not] at loopback priv linkLocal multicast
  have special (block : Nat × Nat) (member : block ∈ specialBlocks4) :
      ¬InBlock 32 bits.toNat block := by
    obtain ⟨small, listed⟩ := specialBlocks4_forbidden block member
    have base : block.1 % 2 ^ 32 = block.1 := Nat.mod_eq_of_lt small
    have outside := passes.forbidden _ listed
    simpa only [Prefix.contains, InBlock, BitVec.toNat_ofNat, base,
      decide_eq_false_iff_not] using outside
  have zero := special (quad 0 0 0 0, 8) (by decide)
  rintro ⟨block, member, inside⟩
  rcases mem_append.mp member with classed | ranged
  · simp only [classBlocks4, mem_cons, not_mem_nil, or_false] at classed
    simp only [InBlock, quad] at zero
    rcases classed with rfl | rfl | rfl | rfl | rfl | rfl | rfl
    all_goals
      simp only [InBlock, quad] at inside
      omega
  · exact special block ranged inside

/-- Every form of an embedded address but the mapped one is in a range of its own. -/
theorem embeds_inBlock {inner : BitVec 32} (embeds : Embeds bits inner)
    (own : bits.toNat / 2 ^ 32 ≠ 0xffff) :
    ∃ block ∈ internalBlocks6, InBlock 128 bits.toNat block := by
  rcases embeds with ⟨mapped, _⟩ | ⟨compatible, _⟩ | ⟨sixToFour, _⟩ | ⟨nat64, _⟩ | localNat64
  · exact absurd mapped own
  · exact ⟨(0, 96), by decide, by simpa [InBlock] using compatible⟩
  · exact ⟨(groups 0x2002 0 0, 16), by decide, by simpa [InBlock, groups] using sixToFour⟩
  · exact ⟨(groups 0x64 0xff9b 0, 96), by decide, by simpa [InBlock, groups] using nat64⟩
  · exact ⟨(groups 0x64 0xff9b 1, 48), by decide, by simpa [InBlock, groups] using localNat64⟩

theorem Passes.public6 (passes : Passes (.v6 bits "")) (own : bits.toNat / 2 ^ 32 ≠ 0xffff) :
    ¬Internal (.v6 bits "") := by
  have outside (block : Nat × Nat) (member : block ∈ internalBlocks6) :
      ¬InBlock 128 bits.toNat block := by
    obtain ⟨small, listed⟩ := internalBlocks6_forbidden block member
    have base : block.1 % 2 ^ 128 = block.1 := Nat.mod_eq_of_lt small
    have apart := passes.forbidden _ listed
    simpa only [Prefix.contains, InBlock, BitVec.toNat_ofNat, base, true_and,
      decide_eq_false_iff_not] using apart
  rintro (⟨block, member, inside⟩ | ⟨inner, embeds, _⟩)
  · exact outside block member inside
  · obtain ⟨block, member, inside⟩ := embeds_inBlock embeds own
    exact outside block member inside

theorem Passes.public (passes : Passes ip) (unmapped : ip.unmap = ip) (unscoped : ip.zone = "") :
    ¬Internal ip := by
  cases ip with
  | invalid => cases passes.valid
  | v4 bits => exact passes.public4
  | v6 bits zone =>
    obtain rfl : zone = "" := unscoped
    apply passes.public6
    intro mapped
    rw [Addr.unmap_mapped mapped] at unmapped
    cases unmapped

theorem validateFetchIP_public (strict : policy.Strict) (unscoped : ip.zone = "")
    (ok : validateFetchIP ip policy = .ok ()) : ¬Internal ip.unmap :=
  (validateFetchIP_passes strict ok).public ip.unmap_unmap (Addr.zone_unmap unscoped)

theorem validateFetchHostSyntax_unscoped (ok : validateFetchHostSyntax host policy = .ok ()) :
    '%' ∉ host.toList := by
  intro zoned
  have found : containsAny host ['%'] = true := by
    grind [containsAny]
  simp only [validateFetchHostSyntax] at ok
  split at ok <;> cases ok

theorem resolveFetchHost_plain (unscoped : '%' ∉ host.toList)
    (resolved : resolveFetchHost answer host = .ok ips) :
    ∀ ip ∈ ips, ip.unmap = ip ∧ ip.zone = "" := by
  intro ip member
  simp only [resolveFetchHost] at resolved
  split at resolved
  · rename_i parsed literal
    cases resolved
    obtain rfl := mem_singleton.mp member
    exact ⟨parsed.unmap_unmap, Addr.zone_unmap (parseAddr_zone unscoped literal)⟩
  · obtain ⟨answered, _, made⟩ := bind_eq_ok.mp resolved
    cases made
    obtain ⟨raw, found, rfl⟩ := mem_map.mp member
    obtain ⟨bytes, _, sliced⟩ := mem_filterMap.mp found
    exact ⟨raw.unmap_unmap, Addr.zone_unmap (Addr.zone_ofSlice sliced)⟩

theorem mem_dialEach (member : ip ∈ dialEach connects ips) : ip ∈ ips := by
  induction ips with
  | nil => exact member
  | cons first rest ih => grind [dialEach]

def Dialled.Public (dialled : Dialled) : Prop :=
  ∃ ips, dialled = .addrs ips ∧ ∀ ip ∈ ips, ¬Internal ip

theorem ssrfSafeDial_public {lib : NetLib} (strict : policy.Strict) {network addr : String}
    {dialled : Dialled} (ok : ssrfSafeDial lib policy answer connects network addr = .ok dialled) :
    dialled.Public := by
  simp only [ssrfSafeDial, strict.disabled, strict.allowedHosts] at ok
  split at ok
  · cases ok
  obtain ⟨⟨host, port⟩, _, rest⟩ := bind_eq_ok.mp ok
  obtain ⟨_, _, rest⟩ := bind_eq_ok.mp rest
  obtain ⟨_, named, rest⟩ := bind_eq_ok.mp rest
  obtain ⟨ips, resolved, rest⟩ := bind_eq_ok.mp rest
  have plain := resolveFetchHost_plain (validateFetchHostSyntax_unscoped named) resolved
  split at rest
  · cases rest
  obtain ⟨_, checked, made⟩ := bind_eq_ok.mp rest
  cases made
  refine ⟨_, rfl, ?_⟩
  intro ip member
  have among := mem_dialEach member
  have passed := wrap_eq_ok.mp (forEach_eq_ok.mp checked ip among)
  have outside := validateFetchIP_public strict (plain ip among).2 passed
  rwa [(plain ip among).1] at outside

theorem step_public {client : Client} (strict : client.policy.Strict) {st next : Fetching}
    {event : Event} (before : ∀ dialled ∈ st.dialled, dialled.Public)
    (stepped : client.step st event = some next) : ∀ dialled ∈ next.dialled, dialled.Public := by
  cases event with
  | start u =>
    cases stepped
    exact before
  | dial answer connects =>
    obtain ⟨⟨u, via⟩, _, rest⟩ := Option.bind_eq_some_iff.mp stepped
    dsimp only at rest
    split at rest <;> cases rest
    · exact before
    · rename_i made ok
      intro dialled member
      rcases mem_append.mp member with earlier | last
      · exact before dialled earlier
      · rw [mem_singleton.mp last]
        exact ssrfSafeDial_public strict ok
  | redirect location =>
    obtain ⟨⟨u, via⟩, _, rest⟩ := Option.bind_eq_some_iff.mp stepped
    grind

/-- Whatever is fetched and whatever the resolver and the servers answer, nothing internal is
dialled. -/
theorem client_dials_public (lib : NetLib) (globalOverride policy : Option SSRFPolicy)
    (strict : (withSSRFDefaults globalOverride policy).Strict) (headers : Header)
    (events : List Event) (final : Fetching)
    (ran : StepMachine.run (Client.step ⟨lib, withSSRFDefaults globalOverride policy, headers⟩)
      Client.idle events = some final) :
    ∀ dialled ∈ final.dialled, ∃ ips, dialled = .addrs ips ∧ ∀ ip ∈ ips, ¬Internal ip := by
  refine StepMachine.run_keeps (fun _ _ _ before stepped => step_public strict before stepped) ?_ ran
  intro dialled member
  cases member

/-- A name that is bound to another address after the redirect: the second dial is refused. -/
def rebindingEvents : List Event := [
  .start ⟨"https", false, "example.org", "", "/piece"⟩,
  .dial (.ok [[93, 184, 216, 34]]) (fun _ => true),
  .redirect "/moved",
  .dial (.ok [[0, 0, 0, 0, 0, 0, 0, 0, 0, 0, 255, 255, 127, 0, 0, 1]]) (fun _ => true)]

def sampleLib : NetLib where
  parse := fun _ => .ok ⟨"https", false, "example.org", "", "/moved"⟩
  urlString := fun u => u.scheme ++ "://" ++ u.hostname ++ u.rest
  resolveReference := fun u location => .ok { u with rest := location }
  canonicalAddr := fun u => u.hostname ++ ":443"
  splitHostPort := fun addr => .ok (String.ofList (addr.toList.takeWhile (· ≠ ':')), "443")

theorem client_dials_public_rebinding :
    ∃ final, StepMachine.run (Client.step ⟨sampleLib, withSSRFDefaults none none, []⟩)
        Client.idle rebindingEvents = some final ∧
      final.dialled = [.addrs [.v4 (BitVec.ofNat 32 (quad 93 184 216 34))]] ∧
      ∀ dialled ∈ final.dialled, ∃ ips, dialled = .addrs ips ∧ ∀ ip ∈ ips, ¬Internal ip :=
  ⟨⟨none, [.addrs [.v4 (BitVec.ofNat 32 (quad 93 184 216 34))]]⟩, rfl, rfl,
    client_dials_public sampleLib none none strict_defaults [] rebindingEvents _ rfl⟩

end Curio.RobustHttp
