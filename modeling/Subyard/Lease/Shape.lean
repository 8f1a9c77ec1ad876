import Subyard.Lease.Grants

/-!
The shape of a slot: a free slot carries nothing of a lease, a leased slot carries all of it.

* `LeaseSlot.Shaped`: the two halves of the invariant.
* `Shaped.evolves`: every call keeps it.
* `SlotChange.available`: a slot becomes free only by the final steps of a drain, of a recovery,
  of a legacy retirement, or by the abort of its provisioning.
* `slots_shaped`: both, for every run.
* `LeaseSlot.Timed`, `leases_expire`: every lease in use has a deadline and is fenced from there on.
-/

namespace Subyard.Lease

open Text

/-- Free slots are bare and leased slots are complete. -/
structure LeaseSlot.Shaped (s : LeaseSlot) : Prop where
  free : s.state = .available → s.leaseID = [] ∧ s.capabilityHash = [] ∧ s.environment = none
    ∧ s.acquireOwner = none ∧ s.reserved = false ∧ s.expiresAt = 0
  leased : s.state = .provisioning ∨ s.state = .held → s.leaseID ≠ [] ∧ s.capabilityHash ≠ []
    ∧ 1 ≤ s.leaseEpoch ∧ s.expiresAt ≠ 0

namespace LeaseSlot.Shaped

variable {s s' : LeaseSlot}

/-- In every other state there is nothing to check. -/
lemma of_state (hfree : s.state ≠ .available) (hprov : s.state ≠ .provisioning)
    (hheld : s.state ≠ .held) : s.Shaped :=
  ⟨fun h => absurd h hfree, fun h => absurd h (not_or.mpr ⟨hprov, hheld⟩)⟩

lemma fresh (number : ℕ) : (freshSlot number).Shaped :=
  ⟨fun _ => ⟨rfl, rfl, rfl, rfl, rfl, rfl⟩, fun h => by simp [freshSlot] at h⟩

/-- A cleared slot may be freed. -/
lemma cleared (s : LeaseSlot) (hs : s'.leaseID = (clearLease s).leaseID)
    (hcap : s'.capabilityHash = (clearLease s).capabilityHash)
    (henv : s'.environment = (clearLease s).environment)
    (howner : s'.acquireOwner = (clearLease s).acquireOwner)
    (hres : s'.reserved = (clearLease s).reserved) (hexp : s'.expiresAt = (clearLease s).expiresAt)
    (hstate : s'.state = .available) : s'.Shaped :=
  ⟨fun _ => ⟨hs, hcap, henv, howner, hres, hexp⟩, fun h => by simp [hstate] at h⟩

lemma reloaded (h : s.Shaped) (hre : Reloaded s s') : s'.Shaped := by
  obtain ⟨recovery, legacy, rfl⟩ := hre
  exact ⟨h.free, h.leased⟩

lemma expired (h : s.Shaped) (hexp : Expired s s') : s'.Shaped := by
  cases hexp with
  | kept => exact h
  | fenced => exact of_state (by simp) (by simp) (by simp)

lemma image (h : s.Shaped) : s.image.Shaped := by
  refine ⟨fun hstate => ?_, fun hstate => ?_⟩
  · obtain ⟨hid, hcap, henv, howner, hres, hexp⟩ := h.free hstate
    exact ⟨by simp [LeaseSlot.image, hid], by simp [LeaseSlot.image, hcap],
      by simp [LeaseSlot.image, henv], by simp [LeaseSlot.image, howner], hres, hexp⟩
  · obtain ⟨hid, hcap, hepoch, hexp⟩ := h.leased hstate
    exact ⟨by simpa [LeaseSlot.image] using hid, by simpa [LeaseSlot.image] using hcap, hepoch,
      hexp⟩

/-- **No body breaks the shape.** -/
lemma body {store : LeaseStore} {op : Op} (h : s.Shaped) (hbody : BodyMove store op s s') :
    s'.Shaped := by
  cases hbody with
  | acquire hop hname hclean hstate hid hcap =>
    refine ⟨fun h => by simp [LeaseSlot.provision] at h, fun _ => ⟨?_, ?_, ?_, ?_⟩⟩
    · exact randomToken_ne_nil (by norm_num) hid
    · exact capabilityDigest_ne_nil _
    · exact Nat.le_add_left 1 s.leaseEpoch
    · exact Nat.ne_of_gt (Nat.add_pos_right _ (by decide))
  | markHeld hname howned hstate =>
    obtain ⟨hid, hcap, hepoch, _⟩ := h.leased (.inl hstate)
    exact ⟨fun h => by simp at h,
      fun _ => ⟨hid, hcap, hepoch, Nat.ne_of_gt (Nat.add_pos_right _ (by decide))⟩⟩
  | renew hname howned hstate =>
    obtain ⟨hid, hcap, hepoch, _⟩ := h.leased hstate.symm
    refine ⟨fun h => ?_, fun _ => ⟨hid, hcap, hepoch, Nat.ne_of_gt (Nat.add_pos_right _ (by decide))⟩⟩
    rcases hstate with hstate | hstate <;> simp [hstate] at h
  | reserve hname hstate => exact ⟨fun h => by simp [hstate] at h, h.leased⟩
  | pinBase | clearLegacy => exact ⟨h.free, h.leased⟩
  | handoff hname howned hstate => exact ⟨fun h => by simp [hstate] at h, h.leased⟩
  | abort | finishDrain | legacyFinish | recovered =>
    exact cleared s rfl rfl rfl rfl rfl rfl rfl
  | setIncident => exact ⟨h.free, h.leased⟩
  | beginDrain | quarantine | drainFor | drainFailed | interrupt | recover | recoveryFailed | retire
    | legacyBegin =>
      exact of_state (fun h => by cases h) (fun h => by cases h) (fun h => by cases h)

/-- **Every call keeps the shape.** -/
lemma evolves {call : Call} (h : s.Shaped) (hev : Evolves call s s') : s'.Shaped := by
  obtain ⟨loaded, changed, hre, hchange, rfl⟩ := hev
  have hloaded := h.reloaded hre
  refine Shaped.image ?_
  cases hchange with
  | expired hexp => exact hloaded.expired hexp
  | body hexp hbody => exact (hloaded.expired hexp).body hbody

end LeaseSlot.Shaped

/-- The call is one of the four that free a slot, and finds the slot in the state it needs. -/
def Frees (call : Call) (s : LeaseSlot) : Prop :=
  match call.op with
  | .finishDrain id none => s.slotID = id ∧ s.state = .draining
  | .finishRecovery id none _ _ => s.slotID = id ∧ s.state = .recovering
  | .abortProvisioning grant => s.slotID = grant.slotID ∧ s.state = .provisioning
  | .retireLegacyFinish expected => s.slotID = expected.slotID ∧ s.state = .draining
  | _ => False

/-- **A slot becomes free only by one of the four calls**, as their body finds it. -/
lemma SlotChange.available {call : Call} {s s' : LeaseSlot} (h : SlotChange call s s')
    (hfree : s'.state = .available) :
    s.state = .available ∨ ∃ found, Expired s found ∧ Frees call found := by
  have of_expired : ∀ {found : LeaseSlot}, Expired s found → found.state = .available →
      s.state = .available := by
    intro found hexp hstate
    cases hexp with
    | kept => exact hstate
    | fenced => cases hstate
  cases h with
  | expired hexp => exact .inl (of_expired hexp hfree)
  | body hexp hbody =>
    rename_i found
    obtain ⟨store, op⟩ := call
    cases hbody with
    | reserve | pinBase | clearLegacy | handoff | renew | setIncident =>
      exact .inl (of_expired hexp hfree)
    | abort hname _ hstate => exact .inr ⟨found, hexp, hname, hstate⟩
    | finishDrain hname hstate => exact .inr ⟨found, hexp, hname, hstate⟩
    | legacyFinish hname hstate => exact .inr ⟨found, hexp, hname, hstate⟩
    | recovered hname hstate => exact .inr ⟨found, hexp, hname, hstate⟩
    | acquire | markHeld | beginDrain | quarantine | drainFor | drainFailed | interrupt | recover
      | recoveryFailed | retire | legacyBegin => cases hfree

/-- While its requester lives, the lease is fenced from `ttl` after the last heartbeat on. -/
def LeaseSlot.ExpiresAfter (s : LeaseSlot) (ttl : Time) : Prop :=
  ∀ reading : Reading, (∀ owner ∈ s.acquireOwner, reading.alive owner) →
    ((s.expire reading).state = .draining ↔ s.lastHeartbeatAt + ttl ≤ reading.now)

/-- The deadline of a lease in use. -/
structure LeaseSlot.Timed (s : LeaseSlot) : Prop where
  held : s.state = .held → s.expiresAt = s.lastHeartbeatAt + leaseTTL
  provisioning : s.state = .provisioning → s.expiresAt = s.lastHeartbeatAt + leaseTTL
    ∨ s.expiresAt = s.lastHeartbeatAt + provisioningTTL

namespace LeaseSlot.Timed

variable {s s' : LeaseSlot}

lemma of_state (hprov : s.state ≠ .provisioning) (hheld : s.state ≠ .held) : s.Timed :=
  ⟨fun h => absurd h hheld, fun h => absurd h hprov⟩

lemma expired (h : s.Timed) (hexp : Expired s s') : s'.Timed := by
  cases hexp with
  | kept => exact h
  | fenced => exact of_state (by simp) (by simp)

lemma body {store : LeaseStore} {op : Op} (h : s.Timed) (hbody : BodyMove store op s s') :
    s'.Timed := by
  cases hbody with
  | acquire => exact ⟨fun h => by simp [LeaseSlot.provision] at h, fun _ => .inr rfl⟩
  | markHeld => exact ⟨fun _ => rfl, fun _ => .inl rfl⟩
  | renew => exact ⟨fun _ => rfl, fun _ => .inl rfl⟩
  | reserve | pinBase | clearLegacy | handoff | setIncident => exact ⟨h.held, h.provisioning⟩
  | abort | finishDrain | legacyFinish | recovered | beginDrain | quarantine | drainFor | drainFailed
    | interrupt | recover | recoveryFailed | retire | legacyBegin =>
    exact of_state (fun h => by cases h) (fun h => by cases h)

lemma evolves {call : Call} (h : s.Timed) (hev : Evolves call s s') : s'.Timed := by
  obtain ⟨loaded, changed, ⟨recovery, legacy, rfl⟩, hchange, rfl⟩ := hev
  have hloaded : LeaseSlot.Timed { s.withRecovery recovery with legacyRetained := legacy } :=
    ⟨h.held, h.provisioning⟩
  have hchanged : changed.Timed := by
    cases hchange with
    | expired hexp => exact hloaded.expired hexp
    | body hexp hbody => exact (hloaded.expired hexp).body hbody
  exact ⟨hchanged.held, hchanged.provisioning⟩

end LeaseSlot.Timed

lemma LeaseSlot.ExpiresAfter.of_expiresAt {s : LeaseSlot} {ttl : Time}
    (hleased : s.state = .provisioning ∨ s.state = .held) (hpos : 0 < ttl)
    (h : s.expiresAt = s.lastHeartbeatAt + ttl) : s.ExpiresAfter ttl := by
  intro reading halive
  have hlives : ¬ s.acquireOwner.any fun owner => !reading.alive owner := by
    simpa [Option.any_eq_true] using halive
  have hne : s.expiresAt ≠ 0 := by
    rw [h]
    exact Nat.ne_of_gt (Nat.add_pos_right _ hpos)
  rw [LeaseSlot.expire, if_neg fun hlost => hlives hlost.2, ← h]
  split_ifs with hearly
  · have hearly := hearly.resolve_left hne
    rcases hleased with hstate | hstate <;> simp [hstate, hearly]
  · have hlate := not_lt.mp (not_or.mp hearly).2
    rcases hleased with hstate | hstate <;> simp [hstate, hlate]

/-- **Leases in use expire.**  In every reachable state a lease that is held is fenced exactly from
`leaseTTL` after its last heartbeat on, if its requester lives, and one that is provisioned from
there or from `provisioningTTL` after it on. -/
theorem leases_expire (calls : List Call) : ∀ s ∈ storedSlots (reached calls),
    (s.state = .held → s.ExpiresAfter leaseTTL)
      ∧ (s.state = .provisioning → s.ExpiresAfter leaseTTL ∨ s.ExpiresAfter provisioningTTL) := by
  intro s hs
  have htimed : s.Timed := slots_invariant (I := LeaseSlot.Timed)
    (fun _ => .of_state (by simp [freshSlot]) (by simp [freshSlot]))
    (fun _ _ _ => .of_state (by simp [rebuiltSlot, LeaseSlot.image])
      (by simp [rebuiltSlot, LeaseSlot.image])) (fun _ _ _ h hev => h.evolves hev) calls s hs
  exact ⟨fun hheld => .of_expiresAt (.inr hheld) (by decide) (htimed.held hheld), fun hprov =>
    (htimed.provisioning hprov).imp (.of_expiresAt (.inl hprov) (by decide))
      (.of_expiresAt (.inl hprov) (by decide))⟩

/-- A lease that has just been acquired. -/
theorem acquired_lease_expires : ∃ s ∈ storedSlots (reached [secondSlotAcquire 7]),
    s.state = .provisioning ∧ (s.ExpiresAfter leaseTTL ∨ s.ExpiresAfter provisioningTTL) := by
  have hsome : ((storedSlots (reached [secondSlotAcquire 7])).find?
      (·.state = .provisioning)).isSome := by decide +kernel
  obtain ⟨s, hfind⟩ := Option.isSome_iff_exists.mp hsome
  have hs := List.mem_of_find?_eq_some hfind
  have hstate : s.state = .provisioning := by simpa using List.find?_some hfind
  exact ⟨s, hs, hstate, (leases_expire _ s hs).2 hstate⟩

end Subyard.Lease
