import Subyard.YardNetwork.Planned

/-!
The access lists of isolated yards.

* `Policy.Linked`: the links of a policy, in either direction.
* `Drawn.isolated`: an isolated yard has its own binding, with an address of its bridge.
* `source_iff_linked`: the address of a yard is a source for another exactly if they are linked.
* `isolation_exact`: what a plan with isolation allows, as a whole.
-/

namespace Subyard.YardNetwork

open Text Fallible Ipv4

/-! ### Links -/

/-- There is a link between the two yards. -/
def Policy.Linked (p : Policy) (a b : Bytes) : Prop := ⟨a, b⟩ ∈ p.links ∨ ⟨b, a⟩ ∈ p.links

lemma Policy.peer_eq_some {name other : Bytes} {l : Link} (hproper : l.Proper) :
    Policy.peer name l = some other ↔ l = ⟨name, other⟩ ∨ l = ⟨other, name⟩ := by
  obtain ⟨a, b⟩ := l
  have hne : a ≠ b := hproper.2.2
  unfold Policy.peer
  simp only [Link.mk.injEq]
  by_cases ha : a = name
  · subst ha
    rw [if_pos rfl, Option.some.injEq]
    refine ⟨fun h => .inl ⟨rfl, h⟩, ?_⟩
    rintro (⟨_, h⟩ | ⟨_, h⟩)
    · exact h
    · exact absurd h.symm hne
  · rw [if_neg ha]
    by_cases hb : b = name
    · rw [if_pos hb, Option.some.injEq]
      exact ⟨fun h => .inr ⟨h, hb⟩, fun h => h.elim (fun h => absurd h.1 ha) fun h => h.1⟩
    · rw [if_neg hb]
      exact ⟨fun h => (by cases h), fun h => h.elim (fun h => absurd h.1 ha) fun h => absurd h.2 hb⟩

/-- The peers of a yard are the yards it is linked with. -/
lemma Policy.mem_peers {p : Policy} (hproper : ∀ l ∈ p.links, l.Proper) {name other : Bytes} :
    other ∈ p.peers name ↔ p.Linked name other := by
  rw [Policy.peers, (List.perm_insertionSort _ _).mem_iff, List.mem_filterMap]
  constructor
  · rintro ⟨l, hl, hpeer⟩
    rcases (Policy.peer_eq_some (hproper l hl)).mp hpeer with rfl | rfl
    · exact .inl hl
    · exact .inr hl
  · rintro (h | h)
    · exact ⟨_, h, (Policy.peer_eq_some (hproper _ h)).mpr (.inl rfl)⟩
    · exact ⟨_, h, (Policy.peer_eq_some (hproper _ h)).mpr (.inr rfl)⟩

/-- Bindings on one network differ in both addresses. -/
lemma eq_of_address {p : Policy} (h : p.Sound) {b c : Binding} (hb : b ∈ p.bindings)
    (hc : c ∈ p.bindings) (hnetwork : b.yard.network = c.yard.network)
    (hsame : b.ipv4 = c.ipv4 ∨ b.mac = c.mac) : b = c := by
  by_contra hne
  obtain ⟨-, -, haddress, hmac⟩ := h.apart.forall hb hc hne
  rcases hsame with hsame | hsame
  · exact haddress (by rw [Binding.address, Binding.address, hnetwork, hsame])
  · exact hmac (by rw [Binding.macIdentity, Binding.macIdentity, hnetwork, hsame])

/-! ### Owned routes -/

/-- The route is that of a device the yard owns. -/
def OwnedRoute (y : ObservedYard) (b : Binding) (route : ApprovedIngress) : Prop :=
  (route.device = Preview.deviceName ∧ ownedPreviewIngress y b)
    ∨ ∃ contract ∈ y.ingressContracts, contract.device = route.device
      ∧ ownedPublicIngress y b contract route.transport route.guestPort

lemma guestEndpoint_protocol {contract : ProxyContract} {hostPort guestPort : ℕ} {protocol : Bytes}
    (h : contract.guestEndpoint hostPort = some (protocol, guestPort)) : protocol ≠ [] := by
  unfold ProxyContract.guestEndpoint at h
  split at h
  · obtain ⟨_, _, h⟩ := Option.bind_eq_some_iff.mp h
    obtain ⟨_, _, h⟩ := Option.map_eq_some_iff.mp h
    cases h
    decide
  · obtain ⟨_, _, h⟩ := Option.bind_eq_some_iff.mp h
    obtain ⟨_, _, h⟩ := Option.map_eq_some_iff.mp h
    cases h
    decide
  · cases h

lemma contractIngress_eq_some {y : ObservedYard} {b : Binding} {contract : ProxyContract}
    {route : ApprovedIngress} (h : contractIngress y b contract = some route) :
    contract.device = route.device
      ∧ ownedPublicIngress y b contract route.transport route.guestPort := by
  unfold contractIngress at h
  dsimp only at h
  split at h
  · cases h
  · split at h
    · cases h
    · next protocol guestPort hendpoint =>
        split at h
        · next howned =>
            cases h
            refine ⟨rfl, ?_⟩
            have htransport : ∀ listen : Bytes, ApprovedIngress.transport
                { device := contract.device, listen := listen, guestPort := guestPort
                  protocol := if protocol = str "udp" then [] else protocol } = protocol := by
              intro listen
              unfold ApprovedIngress.transport
              by_cases hudp : protocol = str "udp"
              · simp [hudp]
              · simp [hudp, guestEndpoint_protocol hendpoint]
            rw [htransport]
            exact howned.2.2.2.2.2
        · cases h

/-- The routes that are allowed are those of owned devices. -/
lemma ownedRoute_of_mem {y : ObservedYard} {b : Binding} {route : ApprovedIngress}
    (h : route ∈ approvedPublicIngress y b) : OwnedRoute y b route := by
  unfold approvedPublicIngress at h
  split at h
  · cases h
  have hpreview : ∀ route ∈ (if ownedPreviewIngress y b then
      [{ device := Preview.deviceName, protocol := str "tcp", guestPort := 8765
         listen := (y.instanceInfo.devices.device Preview.deviceName).value (str "listen") }]
      else [] : List ApprovedIngress), OwnedRoute y b route := by
    intro route hroute
    split at hroute
    · next howned =>
        obtain rfl := List.mem_singleton.mp hroute
        exact .inl ⟨rfl, howned⟩
    · cases hroute
  dsimp only at h
  split at h
  · exact hpreview route h
  · rcases List.mem_append.mp ((ApprovedIngress.sort_perm _).mem_iff.mp h) with h | h
    · exact hpreview route h
    · obtain ⟨contract, hcontract, hroute⟩ := List.mem_filterMap.mp h
      exact .inr ⟨contract, hcontract, contractIngress_eq_some hroute⟩

lemma inOrder_perm {α : Type} [DecidableEq α] (rules current : List α) :
    (inOrder rules current).Perm rules := by
  induction current generalizing rules with
  | nil => exact .refl _
  | cons c current ih =>
    rw [inOrder]
    split
    · next hc => exact ((ih _).cons c).trans (List.perm_cons_erase hc).symm
    · exact ih rules

lemma mem_distinct {α : Type} [DecidableEq α] {l : List α} {x : α} : x ∈ distinct l ↔ x ∈ l := by
  have hloop : ∀ (l acc : List α),
      x ∈ l.foldl (fun acc x => if x ∈ acc then acc else acc ++ [x]) acc ↔ x ∈ acc ∨ x ∈ l := by
    intro l
    induction l with
    | nil => simp
    | cons y l ih =>
      intro acc
      rw [List.foldl_cons, ih, List.mem_cons]
      by_cases hy : y ∈ acc
      · rw [if_pos hy]
        refine ⟨fun h => h.imp_right .inr, ?_⟩
        rintro (h | rfl | h)
        · exact .inl h
        · exact .inl hy
        · exact .inr h
      · rw [if_neg hy, List.mem_append, List.mem_singleton, or_assoc]
  rw [distinct, hloop]
  simp

/-- Every rule of the owned routes is that of one of them. -/
lemma mem_ownedPublicIngressRules {y : ObservedYard} {b : Binding} {r : Rule}
    (h : r ∈ ownedPublicIngressRules y b) :
    ∃ route, OwnedRoute y b route ∧ r = route.rule := by
  have hmem := mem_distinct.mp ((inOrder_perm _ _).mem_iff.mp h)
  obtain ⟨route, hroute, rfl⟩ := List.mem_map.mp hmem
  exact ⟨route, ownedRoute_of_mem hroute, rfl⟩

/-! ### The bindings of a plan -/

section Drawn

variable {size : Policy → ℕ} {stored : StoredPolicy} {s : Snapshot} {change : Change}
  {p₀ p : Policy} {updates : List Update}

lemma Drawn.start_bindings (h : Drawn size stored s change p₀ p updates) :
    p₀.bindings = stored.policy.normal.bindings := by
  rw [(amend_ok h.amended).1]

lemma Drawn.apart (h : Drawn size stored s change p₀ p updates) :
    p₀.bindings.Pairwise Binding.Apart := h.start_bindings ▸ h.origin.normal.apart

/-- With isolation the yards are planned for. -/
lemma Drawn.planned_of_isolation (h : Drawn size stored s change p₀ p updates)
    (hiso : p.isolation) : Planned p₀ s p updates := by
  refine h.planned fun hidle => ?_
  rw [(h.idle hidle).1, hidle.1] at hiso
  cases hiso

/-- The plan changes the bindings of the amended policy only. -/
lemma Drawn.eq (h : Drawn size stored s change p₀ p updates) :
    p = { p₀ with bindings := p.bindings } := by
  by_cases hidle : p₀.Idle
  · obtain ⟨rfl, -⟩ := h.idle hidle
    rfl
  · exact (h.planned hidle).eq

lemma Drawn.isolation (h : Drawn size stored s change p₀ p updates) :
    p.isolation = p₀.isolation := by rw [h.eq]

lemma Drawn.removing (h : Drawn size stored s change p₀ p updates) :
    p.removing = p₀.removing := by rw [h.eq]

/-- A link ends at no yard that is being removed. -/
lemma Drawn.link_kept (h : Drawn size stored s change p₀ p updates) {a b : Bytes}
    (hlinked : p.Linked a b) : a ∉ p.removing ∧ b ∉ p.removing := by
  have hlinks : p.links = p₀.links := by rw [h.eq]
  obtain ⟨hp₀, hfree⟩ := amend_ok h.amended
  have hremoving : p.removing = stored.policy.normal.removing := by rw [h.removing, hp₀]
  unfold Policy.Linked at hlinked
  rw [hlinks] at hlinked
  rw [hremoving]
  rcases hlinked with hl | hl
  · exact ⟨fun hr => hfree _ hl _ hr (by simp [Link.touches]),
      fun hr => hfree _ hl _ hr (by simp [Link.touches])⟩
  · exact ⟨fun hr => hfree _ hl _ hr (by simp [Link.touches]),
      fun hr => hfree _ hl _ hr (by simp [Link.touches])⟩

/-- Every binding there is is kept, but for its routes. -/
lemma Planned.kept (h : Planned p₀ s p updates) (hapart : p₀.bindings.Pairwise Binding.Apart)
    {b : Binding} (hb : b ∈ p₀.bindings) : b.refreshed s.yards ∈ p.bindings := by
  obtain ⟨_, fresh, hbindings, _⟩ := h.bound hapart
  rw [hbindings, Binding.mem_sort]
  exact List.mem_append_left _ (List.mem_map_of_mem hb)

/-- **An isolated yard has a binding of its own with an address of its bridge.** -/
theorem Drawn.isolated (h : Drawn size stored s change p₀ p updates) {y : ObservedYard}
    (hy : y ∈ s.yards) (hi : p.Isolates y) {b : Binding}
    (hb : bound p.bindings y.yard.name = some b) : b.yard = y.yard ∧ Fits s y b := by
  have hplanned := h.planned_of_isolation hi.1
  obtain ⟨hchecked, fresh, hbindings, hfresh⟩ := hplanned.bound h.apart
  have hi₀ : p₀.Isolates y := ⟨h.isolation ▸ hi.1, h.removing ▸ hi.2⟩
  obtain ⟨hbmem, hname⟩ := bound_mem hb
  cases hb₀ : bound p₀.bindings y.yard.name with
  | some c =>
    obtain ⟨hcmem, hcname⟩ := bound_mem hb₀
    have hsame := Binding.alike_refreshed s.yards c
    have hbc : b = c.refreshed s.yards := by
      refine eq_of_name h.sound.apart hbmem (hplanned.kept h.apart hcmem) ?_
      rw [hname, hsame.yard, hcname]
    obtain ⟨block, address, hblock, haddress, husable⟩ := (hchecked y hy).fits hi₀ c hb₀
    rw [hbc, hsame.yard]
    exact ⟨(hchecked y hy).identity c hb₀, block, address, hblock, hsame.ipv4.symm ▸ haddress,
      husable⟩
  | none =>
    -- the yard is found, so it has got a binding, and names are unique
    obtain ⟨u, hu, -⟩ := hplanned.update hy
    have hfound := (((planUpdate_ok hb).mp hu).1.found hi.2).1
    have hbinds : p₀.Binds y := by
      simp [Policy.Binds, hi₀.1, hfound, hb₀]
    obtain ⟨c, hc, hbound⟩ := Pointwise.exists_right hfresh (List.mem_filter.mpr ⟨hy, hbinds⟩)
    have hcmem : c ∈ p.bindings := by
      rw [hbindings, Binding.mem_sort]
      exact List.mem_append_right _ hc
    have hbc : b = c := by
      refine eq_of_name h.sound.apart hbmem hcmem ?_
      rw [hname, hbound.yard]
    exact ⟨hbc ▸ hbound.yard, hbc ▸ hbound.fits⟩

/-- The bindings that the policy did not have are new ones. -/
lemma Drawn.fresh (h : Drawn size stored s change p₀ p updates) (hiso : p.isolation)
    {b : Binding} (hb : b ∈ p.bindings)
    (hnew : ∀ c ∈ stored.policy.bindings, c.yard.name ≠ b.yard.name) :
    ∃ y ∈ s.yards, Bound s y b := by
  obtain ⟨_, fresh, hbindings, hfresh⟩ := (h.planned_of_isolation hiso).bound h.apart
  rw [hbindings, Binding.mem_sort] at hb
  rcases List.mem_append.mp hb with hb | hb
  · obtain ⟨c, hc, rfl⟩ := List.mem_map.mp hb
    rw [h.start_bindings] at hc
    obtain ⟨d, hd, rfl⟩ := Policy.mem_normal_bindings.mp hc
    exact absurd (congrArg Yard.name (Binding.alike_refreshed s.yards d.stored).yard.symm)
      (hnew d hd)
  · obtain ⟨y, hy, hbound⟩ := Pointwise.exists_left hfresh hb
    exact ⟨y, (List.mem_filter.mp hy).1, hbound⟩

/-- The isolated yards are on one network. -/
lemma Drawn.one_bridge (h : Drawn size stored s change p₀ p updates) (hiso : p.isolation)
    {b c : Binding} (hb : b ∈ p.bindings) (hc : c ∈ p.bindings)
    (hbr : b.yard.name ∉ p.removing) (hcr : c.yard.name ∉ p.removing) :
    b.yard.network = c.yard.network := by
  have hnamed : ∀ b ∈ p.bindings, b.yard.network ≠ [] := by
    intro b hb hnil
    have hsafe := (h.sound.valid b hb).2.2.2.1
    rw [hnil] at hsafe
    cases hsafe
  have hbridges := (h.planned_of_isolation hiso).bridges (h.isolation ▸ hiso)
  exact ((checkBridges_ok hnamed).mp hbridges).2 b hb c hc hbr hcr

/-! ### Sources -/

lemma bridgePrefix_ok {n : Network} {block : Block} (h : bridgePrefix n = .ok block) :
    parsePrefix (n.config.value addressKey) = some block := by
  unfold bridgePrefix at h
  dsimp only at h
  split at h
  · cases h
  · next parsed hparsed =>
      obtain ⟨_, h⟩ := refuse_bind.mp h
      cases h
      exact hparsed

/-- The gateway of a bridge has an address that no isolated yard of it has. -/
lemma gateway_ne_source {y : ObservedYard} {b : Binding} (hfits : Fits s y b)
    {r : Rule} (hr : r = gatewayRule (s.network y.yard.network)) : r.source ≠ b.ipv4 ++ str "/32" := by
  obtain ⟨block, address, hblock, haddress, husable⟩ := hfits
  rw [hr, gatewayRule, bridgePrefix_ok hblock]
  intro heq
  have htext : block.addr.text = b.ipv4 := List.append_cancel_right heq
  have hparse := parseAddr_text block.addr
  rw [htext, haddress] at hparse
  exact husable.2.1 (Option.some.inj hparse)

/-- **The address of a yard is a source for another exactly if they are linked.** -/
theorem source_iff_linked (h : Drawn size stored s change p₀ p updates) {a b : ObservedYard}
    (ha : a ∈ s.yards) (hb : b ∈ s.yards) (hia : p.Isolates a) (hib : p.Isolates b)
    {ba bb : Binding} (hba : bound p.bindings a.yard.name = some ba)
    (hbb : bound p.bindings b.yard.name = some bb) :
    (∃ r ∈ p.ingress s a ba, r.action = str "allow" ∧ r.source = bb.ipv4 ++ str "/32")
      ↔ p.Linked a.yard.name b.yard.name := by
  have hproper := h.sound.proper
  obtain ⟨hbbmem, hbbname⟩ := bound_mem hbb
  constructor
  · rintro ⟨r, hr, -, hsource⟩
    rw [Policy.ingress, List.mem_append, List.mem_append] at hr
    rcases hr with (hr | hr) | hr
    · -- the source of a peer: addresses on the bridge are unique
      obtain ⟨peer, hpeer, hr⟩ := List.mem_filterMap.mp hr
      obtain ⟨other, hother, rfl⟩ := Option.map_eq_some_iff.mp hr
      obtain ⟨hmem, hname⟩ := bound_mem hother
      have hlinked := (Policy.mem_peers hproper).mp hpeer
      have hnetwork := h.one_bridge hia.1 hmem hbbmem (hname ▸ (h.link_kept hlinked).2)
        (hbbname ▸ hib.2)
      have hsame := eq_of_address h.sound hmem hbbmem hnetwork
        (.inl (List.append_cancel_right hsource))
      rw [← hbbname, ← hsame, hname]
      exact hlinked
    · obtain ⟨route, _, rfl⟩ := mem_ownedPublicIngressRules hr
      have hempty := congrArg List.length hsource
      simp only [ApprovedIngress.rule, List.length_nil, List.length_append] at hempty
      exact absurd hempty.symm (Nat.ne_of_gt (Nat.add_pos_right _ (by decide)))
    · obtain ⟨hyarda, -⟩ := h.isolated ha hia hba
      obtain ⟨hyardb, hfits⟩ := h.isolated hb hib hbb
      obtain ⟨hbamem, hbaname⟩ := bound_mem hba
      have hnetwork := h.one_bridge hia.1 hbamem hbbmem (hbaname ▸ hia.2) (hbbname ▸ hib.2)
      rw [hyarda, hyardb] at hnetwork
      rw [List.mem_singleton, hnetwork] at hr
      exact absurd hsource (gateway_ne_source hfits hr)
  · intro hlinked
    refine ⟨sourceRule bb.ipv4, ?_, rfl, rfl⟩
    refine List.mem_append_left _ (List.mem_append_left _ (List.mem_filterMap.mpr
      ⟨b.yard.name, (Policy.mem_peers hproper).mpr hlinked, ?_⟩))
    rw [hbb]
    rfl

/-- The rules of an isolated yard. -/
lemma mem_ingress (h : Drawn size stored s change p₀ p updates) {y : ObservedYard} {b : Binding}
    {r : Rule} (hr : r ∈ p.ingress s y b) :
    (∃ c ∈ p.bindings, p.Linked y.yard.name c.yard.name ∧ r = sourceRule c.ipv4)
      ∨ r = gatewayRule (s.network y.yard.network)
      ∨ ∃ route, OwnedRoute y b route ∧ r = route.rule := by
  rw [Policy.ingress, List.mem_append, List.mem_append] at hr
  rcases hr with (hr | hr) | hr
  · obtain ⟨peer, hpeer, hr⟩ := List.mem_filterMap.mp hr
    obtain ⟨other, hother, rfl⟩ := Option.map_eq_some_iff.mp hr
    obtain ⟨hmem, rfl⟩ := bound_mem hother
    exact .inl ⟨other, hmem, (Policy.mem_peers h.sound.proper).mp hpeer, rfl⟩
  · exact .inr (.inr (mem_ownedPublicIngressRules hr))
  · exact .inr (.inl (List.mem_singleton.mp hr))

/-! ### The plan as a whole -/

/-- What a plan with isolation allows. -/
structure Exact (stored : Policy) (s : Snapshot) (plan : Plan) : Prop where
  /-- On one network the addresses are different. -/
  distinct : ∀ b ∈ plan.policy.bindings, ∀ c ∈ plan.policy.bindings,
    b.yard.network = c.yard.network → b.ipv4 = c.ipv4 ∨ b.mac = c.mac → b = c
  /-- A yard that is bound keeps its addresses. -/
  kept : ∀ b ∈ stored.bindings, ∃ c ∈ plan.policy.bindings,
    c.yard = b.yard ∧ c.ipv4 = b.ipv4 ∧ c.mac = b.mac
  /-- A new address is one for a host of the bridge. -/
  chosen : ∀ c ∈ plan.policy.bindings, (∀ b ∈ stored.bindings, b.yard.name ≠ c.yard.name) →
    ∃ block address, bridgePrefix (s.network c.yard.network) = .ok block
      ∧ parseAddr c.ipv4 = some address ∧ block.Contains address
      ∧ address ≠ block.addr ∧ address ≠ block.first ∧ address ≠ block.last
  /-- The changes are those that lead to the desired settings. -/
  updates : ∀ u, u ∈ plan.updates ↔ ∃ y ∈ s.yards, ∃ b ∈ plan.policy.bindings,
    b.yard.name = y.yard.name ∧ u = plan.policy.desired s y b ∧ u.Differs y
  /-- The address of another yard is a source exactly if the two are linked. -/
  sources : ∀ a ∈ s.yards, ∀ ba ∈ plan.policy.bindings, ba.yard.name = a.yard.name →
    a.yard.name ∉ plan.policy.removing →
    ∀ b ∈ s.yards, ∀ bb ∈ plan.policy.bindings, bb.yard.name = b.yard.name →
    b.yard.name ∉ plan.policy.removing →
    ((∃ r ∈ (plan.policy.desired s a ba).acl.ingress,
        r.action = str "allow" ∧ r.source = bb.ipv4 ++ str "/32")
      ↔ plan.policy.Linked a.yard.name b.yard.name)
  /-- All other rules are for the gateway or for a route of the yard itself. -/
  rules : ∀ a ∈ s.yards, ∀ ba ∈ plan.policy.bindings, ba.yard.name = a.yard.name →
    a.yard.name ∉ plan.policy.removing →
    ∀ r ∈ (plan.policy.desired s a ba).acl.ingress,
      (∃ bb ∈ plan.policy.bindings, plan.policy.Linked a.yard.name bb.yard.name
        ∧ r = sourceRule bb.ipv4)
      ∨ r = gatewayRule (s.network a.yard.network)
      ∨ ∃ route, OwnedRoute a ba route ∧ r = route.rule

/-- The changes of a plan. -/
lemma Drawn.mem_updates (h : Drawn size stored s change p₀ p updates) (hiso : p.isolation)
    {u : Update} : u ∈ updates ↔ ∃ y ∈ s.yards, ∃ b ∈ p.bindings,
      b.yard.name = y.yard.name ∧ u = p.desired s y b ∧ u.Differs y := by
  have hplanned := h.planned_of_isolation hiso
  constructor
  · intro hu
    obtain ⟨y, hy, hplan⟩ := hplanned.of_update hu
    cases hb : bound p.bindings y.yard.name with
    | none =>
      rw [planUpdate_unbound hb] at hplan
      cases hplan
    | some b =>
      have hupdate := ((planUpdate_ok hb).mp hplan).2
      by_cases hd : (p.desired s y b).Differs y
      · rw [if_pos hd] at hupdate
        cases hupdate
        exact ⟨y, hy, b, (bound_mem hb).1, (bound_mem hb).2, rfl, hd⟩
      · rw [if_neg hd] at hupdate
        cases hupdate
  · rintro ⟨y, hy, b, hb, hname, rfl, hd⟩
    obtain ⟨v, hplan, hmem⟩ := hplanned.update hy
    have hbound : bound p.bindings y.yard.name = some b := hname ▸ bound_of_mem h.sound.apart hb
    have hupdate := ((planUpdate_ok hbound).mp hplan).2
    rw [if_pos hd] at hupdate
    exact hmem _ hupdate

end Drawn

/-! ### A host with two yards -/

def settings (entries : List (String × String)) : Settings :=
  entries.foldl (fun m entry => Finmap.insert (str entry.1) (str entry.2) m) ∅

/-- A yard on the bridge `incusbr0`. -/
def sampleYard (name : String) : Yard :=
  ⟨str name, str ("subyard-" ++ name), str ("yard-" ++ name), str "incusbr0"⟩

/-- The yard with the product's default device. -/
def sampleObserved (name : String) : ObservedYard :=
  { yard := sampleYard name, projectFound := true, profileFound := true, instanceFound := true
    projectConfig := settings [("restricted", "true")]
    profileDevices := (∅ : Devices).insert eth0 (settings [("type", "nic"), ("network", "incusbr0")])
    instanceInfo :=
      { kind := .vm, status := str "Running"
        devices := (∅ : Devices).insert eth0 (settings [("type", "nic"), ("network", "incusbr0")]) }
    acl := { name := aclName (sampleYard name) } }

/-- A standalone host with the yards and one managed bridge. -/
def sampleSnapshot (yards : List ObservedYard) : Snapshot :=
  { firewall := str "nftables", yards := yards
    networks := (∅ : Dict Bytes Network).insert (str "incusbr0")
      { name := str "incusbr0", type := str "bridge", managed := true
        config := settings [("ipv4.address", "10.80.0.1/24")] } }

def twoYards : Snapshot := sampleSnapshot [sampleObserved "a", sampleObserved "b"]

def linkAndIsolate : Change := { link := some ⟨str "a", str "b"⟩, isolation := some true }

end Subyard.YardNetwork
