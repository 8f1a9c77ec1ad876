import Mathlib.Data.List.ReduceOption
import Subyard.Library.Pointwise
import Subyard.YardNetwork.Normal

/-!
What a plan consists of.

* `Binding.refreshed`: the routes of a binding after the loop over the yards.
* `bindYards_ok`: the loop keeps the bindings there are and appends new ones.
* `checkBridges_ok`: the isolated yards share a bridge and own their addresses.
* `planUpdate_ok`: the checks of a bound yard and its change.
* `buildPlan_ok`: the planner as a whole.
-/

namespace Subyard.YardNetwork

open Text Fallible Ipv4
open Config (safeName)

/-! ### The binding of a name -/

lemma bound_mem {bindings : List Binding} {name : Bytes} {b : Binding}
    (h : bound bindings name = some b) : b ∈ bindings ∧ b.yard.name = name :=
  ⟨List.mem_of_find?_eq_some h, by simpa using List.find?_some h⟩

lemma bound_eq_none {bindings : List Binding} {name : Bytes} :
    bound bindings name = none ↔ ∀ b ∈ bindings, b.yard.name ≠ name := by
  rw [bound, List.find?_eq_none]
  simp

/-- Bindings without anything in common are found by their names. -/
lemma bound_of_mem {bindings : List Binding} (hapart : bindings.Pairwise Binding.Apart)
    {b : Binding} (hb : b ∈ bindings) : bound bindings b.yard.name = some b := by
  cases hfound : bound bindings b.yard.name with
  | none => exact absurd rfl (bound_eq_none.mp hfound b hb)
  | some c =>
    obtain ⟨hc, hname⟩ := bound_mem hfound
    by_contra hne
    have hcb : c ≠ b := fun h => hne (congrArg some h)
    exact (hapart.forall hc hb hcb).1 hname

lemma eq_of_name {bindings : List Binding} (hapart : bindings.Pairwise Binding.Apart)
    {b c : Binding} (hb : b ∈ bindings) (hc : c ∈ bindings) (hname : b.yard.name = c.yard.name) :
    b = c :=
  Option.some.inj ((bound_of_mem hapart hb).symm.trans (hname ▸ bound_of_mem hapart hc))

/-! ### Routes of a binding -/

/-- The routes depend on the address of a binding only. -/
lemma approvedPublicIngress_congr (y : ObservedYard) {b c : Binding} (h : b.ipv4 = c.ipv4) :
    approvedPublicIngress y b = approvedPublicIngress y c := by
  have hpreview : ownedPreviewIngress y b = ownedPreviewIngress y c := by
    unfold ownedPreviewIngress
    rw [h]
  have howned : ownedPublicIngress y b = ownedPublicIngress y c := by
    funext contract protocol guestPort
    unfold ownedPublicIngress
    rw [h]
  have hcontract : contractIngress y b = contractIngress y c := by
    funext contract
    unfold contractIngress
    rw [howned]
  rw [approvedPublicIngress, approvedPublicIngress, hpreview, hcontract]

namespace Binding

/-- The routes of a binding as they are at a yard, if it is the one that is bound. -/
def refresh (b : Binding) (y : ObservedYard) : Binding :=
  if b.yard = y.yard then { b with approvedIngress := approvedPublicIngress y b } else b

/-- The routes after the loop over the yards. -/
def refreshed (yards : List ObservedYard) (b : Binding) : Binding := yards.foldl refresh b

/-- The same binding but for its routes. -/
def Alike (b c : Binding) : Prop := { b with approvedIngress := c.approvedIngress } = c

lemma Alike.trans {b c d : Binding} (h : b.Alike c) (h' : c.Alike d) : b.Alike d := by
  unfold Alike at *
  rw [← h', ← h]

lemma Alike.yard {b c : Binding} (h : b.Alike c) : c.yard = b.yard := by rw [← h]

lemma Alike.ipv4 {b c : Binding} (h : b.Alike c) : c.ipv4 = b.ipv4 := by rw [← h]

lemma Alike.mac {b c : Binding} (h : b.Alike c) : c.mac = b.mac := by rw [← h]

lemma alike_refresh (b : Binding) (y : ObservedYard) : b.Alike (b.refresh y) := by
  unfold refresh
  split <;> rfl

lemma alike_refreshed (yards : List ObservedYard) (b : Binding) : b.Alike (b.refreshed yards) := by
  induction yards generalizing b with
  | nil => rfl
  | cons y yards ih => exact (alike_refresh b y).trans (ih (b.refresh y))

lemma refreshed_append (yards yards' : List ObservedYard) (b : Binding) :
    b.refreshed (yards ++ yards') = (b.refreshed yards).refreshed yards' := List.foldl_append

end Binding

/-! ### The loop over the yards -/

/-- The address of a binding is one that a host of the yard's bridge can have. -/
def Fits (s : Snapshot) (y : ObservedYard) (b : Binding) : Prop :=
  ∃ block address, bridgePrefix (s.network y.yard.network) = .ok block
    ∧ parseAddr b.ipv4 = some address ∧ block.Usable address

/-- What the loop asks of a yard. -/
structure Checked (p : Policy) (s : Snapshot) (y : ObservedYard) : Prop where
  namespace_ : p.Isolates y → y.projectConfig.value (str "features.networks") ≠ str "true"
  identity : ∀ b, bound p.bindings y.yard.name = some b → b.yard = y.yard
  fits : p.Isolates y → ∀ b, bound p.bindings y.yard.name = some b → Fits s y b

/-- The yard gets a binding of its own. -/
def Policy.Binds (p : Policy) (y : ObservedYard) : Bool :=
  p.isolation && y.projectFound && (bound p.bindings y.yard.name).isNone

/-- What is known of a new binding. -/
structure Bound (s : Snapshot) (y : ObservedYard) (b : Binding) : Prop where
  yard : b.yard = y.yard
  fits : Fits s y b
  profile : y.profileFound
  detached : y.nic.value aclKey = []
  nic : b.originalNIC = y.nic
  access : b.originalAccess = y.access
  routes : b.approvedIngress = approvedPublicIngress y b
  valid : validateYard y b = .ok ()

lemma usable_iff {block : Block} {ip : Bytes} :
    ((parseAddr ip).any fun address => decide (block.Usable address)) = true ↔
      ∃ address, parseAddr ip = some address ∧ block.Usable address := by
  simp [Option.any_eq_true]

lemma newBinding_ok {s : Snapshot} {bindings : List Binding} {y : ObservedYard} {b : Binding}
    (h : newBinding s bindings y = .ok b) : Bound s y b := by
  unfold newBinding at h
  obtain ⟨block, hblock, h⟩ := of_bind_ok h
  obtain ⟨hprofile, h⟩ := refuse_bind.mp h
  obtain ⟨hdetached, h⟩ := refuse_bind.mp h
  obtain ⟨husable, h⟩ := refuse_bind.mp h
  obtain ⟨_, h⟩ := refuse_bind.mp h
  obtain ⟨hvalid, h⟩ := check_bind.mp h
  obtain ⟨address, haddress, husable⟩ := usable_iff.mp (not_not.mp husable)
  split at h
  · cases h
  · cases h
    exact ⟨rfl, ⟨block, address, mapError_eq_ok.mp hblock, haddress, husable⟩, not_not.mp hprofile,
      not_not.mp hdetached, rfl, rfl, approvedPublicIngress_congr y rfl, hvalid⟩

lemma approve_append {yard : Yard} {routes : List ApprovedIngress} {news : List Binding}
    (hnews : ∀ b ∈ news, b.yard ≠ yard) (olds : List Binding) :
    approve yard routes (olds ++ news) = approve yard routes olds ++ news := by
  induction olds with
  | nil =>
    induction news with
    | nil => rfl
    | cons b news ih =>
      have ih := ih fun c hc => hnews c (by simp [hc])
      simp only [List.nil_append, approve] at ih ⊢
      rw [if_neg (hnews b (by simp)), ih]
  | cons b olds ih =>
    rw [List.cons_append, approve, approve]
    split
    · rfl
    · rw [ih, List.cons_append]

/-- The only binding of a yard is refreshed. -/
lemma approve_eq_map {yard : Yard} {routes : List ApprovedIngress} {bindings : List Binding}
    (hnodup : (bindings.map Binding.yard).Nodup) :
    approve yard routes bindings = bindings.map fun b =>
      if b.yard = yard then { b with approvedIngress := routes } else b := by
  induction bindings with
  | nil => rfl
  | cons b bindings ih =>
    obtain ⟨hb, hrest⟩ := List.nodup_cons.mp hnodup
    rw [approve, List.map_cons]
    split
    · next heq =>
        congr 1
        refine (List.map_id _).symm.trans (List.map_congr_left fun c hc => ?_)
        refine (if_neg fun hyard => hb ?_).symm
        exact List.mem_map.mpr ⟨c, hc, hyard.trans heq.symm⟩
    · rw [ih hrest]

lemma bindYard_ok {p : Policy} {s : Snapshot} {bindings r : List Binding} {y : ObservedYard}
    (h : bindYard p s bindings y = .ok r) : Checked p s y
      ∧ ((∃ b, bound p.bindings y.yard.name = some b
            ∧ r = approve y.yard (approvedPublicIngress y b) bindings)
        ∨ (bound p.bindings y.yard.name = none
            ∧ if p.Binds y then ∃ b, Bound s y b ∧ r = bindings ++ [b] else r = bindings)) := by
  unfold bindYard at h
  obtain ⟨hspace, h⟩ := refuse_bind.mp h
  have hspace : p.Isolates y → y.projectConfig.value (str "features.networks") ≠ str "true" :=
    fun hi hf => hspace ⟨hi.1, hi.2, hf⟩
  split at h
  · next b hb =>
      obtain ⟨hyard, h⟩ := refuse_bind.mp h
      have hidentity : ∀ c, bound p.bindings y.yard.name = some c → c.yard = y.yard := by
        intro c hc
        rw [hb] at hc
        cases hc
        exact not_not.mp hyard
      by_cases hi : p.isolation ∧ y.yard.name ∉ p.removing
      · rw [if_pos hi] at h
        obtain ⟨block, hblock, h⟩ := of_bind_ok h
        obtain ⟨hfits, h⟩ := refuse_bind.mp h
        obtain ⟨address, haddress, husable⟩ := usable_iff.mp (not_not.mp hfits)
        refine ⟨⟨hspace, hidentity, fun _ c hc => ?_⟩, .inl ⟨b, hb, (Except.ok.inj h).symm⟩⟩
        rw [hb] at hc
        cases hc
        exact ⟨block, address, mapError_eq_ok.mp hblock, haddress, husable⟩
      · rw [if_neg hi] at h
        exact ⟨⟨hspace, hidentity, fun hi' => absurd hi' hi⟩, .inl ⟨b, hb, (Except.ok.inj h).symm⟩⟩
  · next hb =>
      have hnone : ∀ c, ¬ bound p.bindings y.yard.name = some c := fun c hc =>
        nomatch hb.symm.trans hc
      refine ⟨⟨hspace, fun c hc => absurd hc (hnone c), fun _ c hc => absurd hc (hnone c)⟩,
        .inr ⟨hb, ?_⟩⟩
      by_cases hnew : p.isolation ∧ y.projectFound
      · rw [if_pos hnew] at h
        obtain ⟨b, hbinding, h⟩ := of_bind_ok h
        rw [if_pos (show p.Binds y = true by simp [Policy.Binds, hnew.1, hnew.2, hb])]
        exact ⟨b, newBinding_ok hbinding, (Except.ok.inj h).symm⟩
      · rw [if_neg hnew] at h
        rw [if_neg (show ¬ p.Binds y = true by simpa [Policy.Binds, hb] using hnew)]
        exact (Except.ok.inj h).symm

section Loop

variable {p : Policy} {s : Snapshot}

lemma nodup_yard {bindings : List Binding} (hapart : bindings.Pairwise Binding.Apart)
    (f : Binding → Binding) (hf : ∀ b, (f b).yard = b.yard) :
    ((bindings.map f).map Binding.yard).Nodup := by
  rw [List.map_map, List.Nodup, List.pairwise_map]
  refine hapart.imp fun {b c} h heq => h.1 ?_
  rw [← hf b, ← hf c]
  exact congrArg Yard.name heq

/-- The routes of the one binding that a yard has. -/
lemma approve_refreshed (hapart : p.bindings.Pairwise Binding.Apart) {y : ObservedYard} {b : Binding}
    (hb : bound p.bindings y.yard.name = some b) (hyard : b.yard = y.yard)
    (done : List ObservedYard) :
    approve y.yard (approvedPublicIngress y b) (p.bindings.map (Binding.refreshed done))
      = p.bindings.map (Binding.refreshed (done ++ [y])) := by
  rw [approve_eq_map (nodup_yard hapart _ fun c => (Binding.alike_refreshed done c).yard),
    List.map_map]
  refine List.map_congr_left fun c hc => ?_
  have hsame := Binding.alike_refreshed done c
  rw [Binding.refreshed_append]
  show (if (c.refreshed done).yard = y.yard then _ else _) = (c.refreshed done).refresh y
  rw [Binding.refresh]
  by_cases heq : (c.refreshed done).yard = y.yard
  · rw [if_pos heq, if_pos heq]
    have hcb : c = b := by
      refine eq_of_name hapart hc (bound_mem hb).1 ?_
      rw [hyard, ← heq, hsame.yard]
    rw [approvedPublicIngress_congr y (show b.ipv4 = (c.refreshed done).ipv4 by
      rw [hsame.ipv4, hcb])]
  · rw [if_neg heq, if_neg heq]

/-- The routes of other bindings. -/
lemma refreshed_unbound {y : ObservedYard} (hb : bound p.bindings y.yard.name = none)
    (done : List ObservedYard) :
    p.bindings.map (Binding.refreshed (done ++ [y])) = p.bindings.map (Binding.refreshed done) := by
  refine List.map_congr_left fun c hc => ?_
  rw [Binding.refreshed_append]
  refine if_neg fun heq => bound_eq_none.mp hb c hc ?_
  rw [← heq, (Binding.alike_refreshed done c).yard]

/-- **The loop keeps the bindings there are, with their routes, and appends one for each yard that
gets a binding of its own.** -/
theorem bindYards_ok (hapart : p.bindings.Pairwise Binding.Apart) {yards : List ObservedYard}
    {r : List Binding} (h : yards.foldlM (bindYard p s) p.bindings = .ok r) :
    (∀ y ∈ yards, Checked p s y) ∧ ∃ fresh, r = p.bindings.map (Binding.refreshed yards) ++ fresh
      ∧ List.Forall₂ (Bound s) (yards.filter p.Binds) fresh := by
  have hloop : ∀ (yards done : List ObservedYard) (news : List Binding),
      (∀ b ∈ news, bound p.bindings b.yard.name = none) →
      yards.foldlM (bindYard p s) (p.bindings.map (Binding.refreshed done) ++ news) = .ok r →
      (∀ y ∈ yards, Checked p s y) ∧ ∃ fresh,
        r = p.bindings.map (Binding.refreshed (done ++ yards)) ++ news ++ fresh
        ∧ List.Forall₂ (Bound s) (yards.filter p.Binds) fresh := by
    intro yards
    induction yards with
    | nil =>
      intro done news _ h
      refine ⟨fun y hy => (by cases hy), [], ?_, .nil⟩
      rw [List.append_nil, List.append_nil]
      exact (Except.ok.inj h).symm
    | cons y yards ih =>
      intro done news hnews h
      rw [List.foldlM_cons] at h
      obtain ⟨r', hy, h⟩ := of_bind_ok h
      obtain ⟨hchecked, ⟨b, hb, rfl⟩ | ⟨hb, hbinds⟩⟩ := bindYard_ok hy
      · -- a bound yard: only the routes of its binding change
        have hyard := hchecked.identity b hb
        have hother : ∀ c ∈ news, c.yard ≠ y.yard := fun c hc heq => by
          have hnone := hnews c hc
          rw [heq, hb] at hnone
          cases hnone
        rw [approve_append hother, approve_refreshed hapart hb hyard] at h
        obtain ⟨hrest, fresh, rfl, hfresh⟩ := ih _ _ hnews h
        refine ⟨List.forall_mem_cons.mpr ⟨hchecked, hrest⟩, fresh, by simp, ?_⟩
        rwa [List.filter_cons_of_neg (by simp [Policy.Binds, hb])]
      · by_cases hp : p.Binds y
        · rw [if_pos hp] at hbinds
          obtain ⟨b, hbound, rfl⟩ := hbinds
          rw [List.append_assoc, ← refreshed_unbound hb done] at h
          have hunbound : ∀ c ∈ news ++ [b], bound p.bindings c.yard.name = none := by
            intro c hc
            rcases List.mem_append.mp hc with hc | hc
            · exact hnews c hc
            · rw [List.mem_singleton.mp hc, hbound.yard]
              exact hb
          obtain ⟨hrest, fresh, rfl, hfresh⟩ := ih _ _ hunbound h
          refine ⟨List.forall_mem_cons.mpr ⟨hchecked, hrest⟩, b :: fresh, by simp, ?_⟩
          rw [List.filter_cons_of_pos hp]
          exact .cons hbound hfresh
        · rw [if_neg hp] at hbinds
          subst hbinds
          rw [← refreshed_unbound hb done] at h
          obtain ⟨hrest, fresh, rfl, hfresh⟩ := ih _ _ hnews h
          refine ⟨List.forall_mem_cons.mpr ⟨hchecked, hrest⟩, fresh, by simp, ?_⟩
          rwa [List.filter_cons_of_neg hp]
  have hid : p.bindings.map (Binding.refreshed []) = p.bindings := List.map_id _
  obtain ⟨hchecked, fresh, rfl, hfresh⟩ := hloop yards [] [] (by simp)
    (by rw [hid, List.append_nil]; exact h)
  exact ⟨hchecked, fresh, by simp, hfresh⟩

end Loop

/-! ### The bridge -/

/-- The bound address of a yard is claimed by nobody else. -/
def Unclaimed (s : Snapshot) (b : Binding) : Prop :=
  ∀ claim ∈ s.claims b.yard.network b.ipv4, claim.Own b ∧ (claim.mac = [] ∨ claim.mac = b.mac)

/-- **The isolated yards share a bridge and own their addresses.** -/
theorem checkBridges_ok {p : Policy} {s : Snapshot} {bindings : List Binding}
    (hnamed : ∀ b ∈ bindings, b.yard.network ≠ []) :
    (∃ bridge, bindings.foldlM (checkBridge p s) [] = .ok bridge) ↔
      (∀ b ∈ bindings, b.yard.name ∉ p.removing → Unclaimed s b)
      ∧ ∀ b ∈ bindings, ∀ c ∈ bindings, b.yard.name ∉ p.removing → c.yard.name ∉ p.removing →
        b.yard.network = c.yard.network := by
  have hloop : ∀ (bindings : List Binding) (bridge : Bytes), (∀ b ∈ bindings, b.yard.network ≠ []) →
      ((∃ last, bindings.foldlM (checkBridge p s) bridge = .ok last) ↔
        (∀ b ∈ bindings, b.yard.name ∉ p.removing → Unclaimed s b)
        ∧ (∀ b ∈ bindings, b.yard.name ∉ p.removing → bridge ≠ [] → b.yard.network = bridge)
        ∧ ∀ b ∈ bindings, ∀ c ∈ bindings, b.yard.name ∉ p.removing → c.yard.name ∉ p.removing →
          b.yard.network = c.yard.network) := by
    intro bindings
    induction bindings with
    | nil => exact fun bridge _ => ⟨fun _ => by simp, fun _ => ⟨bridge, rfl⟩⟩
    | cons b bindings ih =>
      intro bridge hnamed
      obtain ⟨hb, hnamed⟩ := List.forall_mem_cons.mp hnamed
      rw [List.foldlM_cons]
      by_cases hr : b.yard.name ∈ p.removing
      · have hskip : checkBridge p s bridge b = .ok bridge := if_pos hr
        rw [hskip]
        refine (ih bridge hnamed).trans ?_
        simp [hr]
      · have hstep : ∀ next, checkBridge p s bridge b = .ok next ↔
            (bridge ≠ [] → b.yard.network = bridge) ∧ Unclaimed s b ∧ next = b.yard.network := by
          intro next
          unfold checkBridge
          rw [if_neg hr, refuse_bind, refuse_bind]
          refine and_congr ?_ (and_congr ?_ ?_)
          · rw [not_and, not_not]
            exact ⟨fun h hne => (h hne).symm, fun h hne => (h hne).symm⟩
          · push Not
            exact forall₂_congr fun claim _ => by rw [or_iff_not_imp_left]
          · exact ⟨fun h => (Except.ok.inj h).symm, fun h => congrArg _ h.symm⟩
        constructor
        · rintro ⟨last, h⟩
          obtain ⟨next, hnext, h⟩ := of_bind_ok h
          obtain ⟨hbridge, hclaims, rfl⟩ := (hstep next).mp hnext
          obtain ⟨hrest, hsame, hall⟩ := (ih _ hnamed).mp ⟨last, h⟩
          refine ⟨List.forall_mem_cons.mpr ⟨fun _ => hclaims, hrest⟩,
            List.forall_mem_cons.mpr ⟨fun _ => hbridge, fun c hc hrc hne => ?_⟩,
            List.forall_mem_cons.mpr ⟨fun c hc _ hrc => ?_, fun c hc d hd hrc hrd => ?_⟩⟩
          · rw [hsame c hc hrc hb, hbridge hne]
          · rcases List.mem_cons.mp hc with rfl | hc
            · rfl
            · exact (hsame c hc hrc hb).symm
          · rcases List.mem_cons.mp hd with rfl | hd
            · exact hsame c hc hrc hb
            · exact hall c hc d hd hrc hrd
        · rintro ⟨hclaims, hbridge, hall⟩
          rw [(hstep _).mpr ⟨hbridge b (by simp) hr, hclaims b (by simp) hr, rfl⟩]
          refine (ih _ hnamed).mpr ⟨fun c hc => hclaims c (by simp [hc]), fun c hc hrc _ => ?_,
            fun c hc d hd => hall c (by simp [hc]) d (by simp [hd])⟩
          exact hall c (by simp [hc]) b (by simp) hrc hr
  rw [hloop bindings [] hnamed]
  simp

/-! ### The change of a yard -/

/-- What is asked of a bound yard. -/
structure Kept (p : Policy) (y : ObservedYard) (b : Binding) : Prop where
  owner : validateACLOwner y = .ok ()
  gone : y.yard.name ∈ p.removing → ¬ y.instanceFound
  found : y.yard.name ∉ p.removing → y.projectFound ∧ y.profileFound
  valid : y.profileFound → validateYard y b = .ok ()

lemma planUpdate_unbound {p : Policy} {s : Snapshot} {y : ObservedYard}
    (h : bound p.bindings y.yard.name = none) : planUpdate p s y = .ok none := by
  unfold planUpdate
  rw [h]
  rfl

lemma planUpdate_ok {p : Policy} {s : Snapshot} {y : ObservedYard} {b : Binding}
    (hb : bound p.bindings y.yard.name = some b) {u : Option Update} :
    planUpdate p s y = .ok u ↔ Kept p y b
      ∧ u = if (p.desired s y b).Differs y then some (p.desired s y b) else none := by
  unfold planUpdate
  rw [hb]
  show (validateACLOwner y >>= _) = _ ↔ _
  rw [check_bind, refuse_bind, refuse_bind]
  have hvalid : ∀ x : Except Fault (Option Update),
      ((if y.profileFound then (do validateYard y b; x) else x) = .ok u) ↔
        (y.profileFound → validateYard y b = .ok ()) ∧ x = .ok u := by
    intro x
    split
    · next hfound => rw [check_bind]; simp [hfound]
    · next hfound => simp [hfound]
  constructor
  · rintro ⟨howner, hgone, hfound, h⟩
    obtain ⟨hv, h⟩ := (hvalid _).mp h
    refine ⟨⟨howner, fun hr hi => hgone ⟨hr, hi⟩, fun hr => ?_, hv⟩, (Except.ok.inj h).symm⟩
    simpa [hr] using hfound
  · rintro ⟨⟨howner, hgone, hfound, hv⟩, rfl⟩
    refine ⟨howner, fun ⟨hr, hi⟩ => hgone hr hi, fun ⟨h, hr⟩ => ?_, (hvalid _).mpr ⟨hv, rfl⟩⟩
    simp [hfound hr] at h

/-! ### The plan -/

/-- What is planned for an amended policy `p₀`: the bindings of `p`, and the changes. -/
structure Planned (p₀ : Policy) (s : Snapshot) (p : Policy) (updates : List Update) : Prop where
  host : ¬ s.clustered ∧ s.firewall = str "nftables"
  bindings : ∃ bindings, s.yards.foldlM (bindYard p₀ s) p₀.bindings = .ok bindings
    ∧ p = { p₀ with bindings := Binding.sort bindings }
  bridges : p₀.isolation → ∃ bridge, p.bindings.foldlM (checkBridge p s) [] = .ok bridge
  updates : ∃ changes, List.Forall₂ (fun y u => planUpdate p s y = .ok u) s.yards changes
    ∧ updates = changes.reduceOption
variable {p₀ p : Policy} {s : Snapshot} {updates : List Update}


lemma planYards_ok : planYards p₀ s = .ok (p, updates) ↔ Planned p₀ s p updates := by
  unfold planYards planBindings
  rw [refuse_bind, not_or, not_not]
  have hbridges : ∀ (q : Policy) (x : Except Fault (Policy × List Update)),
      ((if q.isolation then (do let _ ← q.bindings.foldlM (checkBridge q s) []; x) else x)
        = .ok (p, updates)) ↔ (q.isolation → ∃ bridge,
          q.bindings.foldlM (checkBridge q s) [] = .ok bridge) ∧ x = .ok (p, updates) := by
    intro q x
    split
    · next hi =>
        constructor
        · intro h
          obtain ⟨bridge, hbridge, h⟩ := of_bind_ok h
          exact ⟨fun _ => ⟨bridge, hbridge⟩, h⟩
        · rintro ⟨hbridge, h⟩
          obtain ⟨bridge, hbridge⟩ := hbridge hi
          rw [hbridge]
          exact h
    · next hi => simp [hi]
  constructor
  · rintro ⟨hhost, h⟩
    obtain ⟨sorted, hsorted, h⟩ := of_bind_ok h
    obtain ⟨bindings, hbindings, hsorted⟩ := of_bind_ok hsorted
    obtain ⟨hbridge, h⟩ := (hbridges _ _).mp h
    obtain ⟨changes, hchanges, h⟩ := of_bind_ok h
    cases hsorted
    cases h
    exact ⟨hhost, ⟨bindings, hbindings, rfl⟩, hbridge, changes, mapM_eq_ok.mp hchanges, rfl⟩
  · rintro ⟨hhost, ⟨bindings, hbindings, rfl⟩, hbridge, changes, hchanges, rfl⟩
    refine ⟨hhost, ?_⟩
    rw [hbindings]
    refine (hbridges _ _).mpr ⟨hbridge, ?_⟩
    rw [mapM_eq_ok.mpr hchanges]
    rfl

lemma Planned.eq (h : Planned p₀ s p updates) : p = { p₀ with bindings := p.bindings } := by
  obtain ⟨bindings, _, rfl⟩ := h.bindings
  rfl

/-- The bindings of a plan: those of the policy, and one for each yard that gets its own. -/
lemma Planned.bound (h : Planned p₀ s p updates) (hapart : p₀.bindings.Pairwise Binding.Apart) :
    (∀ y ∈ s.yards, Checked p₀ s y) ∧ ∃ fresh,
      p.bindings = Binding.sort (p₀.bindings.map (Binding.refreshed s.yards) ++ fresh)
      ∧ List.Forall₂ (Bound s) (s.yards.filter p₀.Binds) fresh := by
  obtain ⟨bindings, hloop, rfl⟩ := h.bindings
  obtain ⟨hchecked, fresh, rfl, hfresh⟩ := bindYards_ok hapart hloop
  exact ⟨hchecked, fresh, rfl, hfresh⟩

/-- The change of each yard. -/
lemma Planned.update (h : Planned p₀ s p updates) {y : ObservedYard} (hy : y ∈ s.yards) :
    ∃ u, planUpdate p s y = .ok u ∧ ∀ v ∈ u, v ∈ updates := by
  obtain ⟨changes, hchanges, rfl⟩ := h.updates
  obtain ⟨u, hu, hplan⟩ := Pointwise.exists_right hchanges hy
  exact ⟨u, hplan, fun v hv => List.reduceOption_mem_iff.mpr (hv ▸ hu)⟩

/-- The changes are those of the yards. -/
lemma Planned.of_update (h : Planned p₀ s p updates) {u : Update} (hu : u ∈ updates) :
    ∃ y ∈ s.yards, planUpdate p s y = .ok (some u) := by
  obtain ⟨changes, hchanges, rfl⟩ := h.updates
  obtain ⟨y, hy, hplan⟩ := Pointwise.exists_left hchanges (List.reduceOption_mem_iff.mp hu)
  exact ⟨y, hy, hplan⟩

/-- The policy is to be written, or the host to be changed. -/
def Changes (content p : Policy) (updates : List Update) : Bool :=
  updates ≠ [] || content ≠ p.normal || p.appliedRevision ≠ p.revision
    || p.appliedIsolation ≠ p.isolation || p.pendingStart ≠ [] || p.removing ≠ []

/-- The plan for a policy and its changes. -/
def planOf (stored : StoredPolicy) (s : Snapshot) (change : Change) (p : Policy)
    (updates : List Update) : Plan :=
  { before := stored, updates := updates, changed := Changes stored.policy.normal p updates
    physical := updates ≠ []
    policy := if Changes stored.policy.normal p updates then { p with revision := p.revision + 1 }
      else p
    fingerprint := ⟨stored, s, change⟩, change := change, yards := s.yards.map (·.yard)
    snapshot := s }

/-- The changes that are asked for touch the links and the isolation only. -/
lemma amend_ok {change : Change} (h : p.amend change = .ok p₀) :
    p₀ = { p with isolation := change.isolation.getD p.isolation, links := p₀.links }
      ∧ ∀ link ∈ p₀.links, ∀ name ∈ p.removing, ¬ link.touches name := by
  unfold Policy.amend at h
  obtain ⟨p₁, hlink, h⟩ := of_bind_ok h
  obtain ⟨p₂, hunlink, h⟩ := of_bind_ok h
  have hp₁ : p₁ = { p with links := p₁.links } := by
    cases hc : change.link with
    | none =>
      rw [hc] at hlink
      cases hlink
      rfl
    | some link =>
      rw [hc] at hlink
      obtain ⟨l, _, hlink⟩ := of_bind_ok hlink
      cases hlink
      split <;> rfl
  have hp₂ : p₂ = { p₁ with links := p₂.links } := by
    cases hc : change.unlink with
    | none =>
      rw [hc] at hunlink
      cases hunlink
      rfl
    | some link =>
      rw [hc] at hunlink
      obtain ⟨l, _, hunlink⟩ := of_bind_ok hunlink
      cases hunlink
      rfl
  rw [hp₁] at hp₂
  rw [hp₂] at h
  cases h
  refine ⟨rfl, fun link hlink name hname => ?_⟩
  simpa using List.all_eq_true.mp (List.mem_filter.mp hlink).2 name hname

/-- Planning counts the revision and does no more to the policy. -/
lemma planOf_policy (stored : StoredPolicy) (s : Snapshot) (change : Change) (p : Policy)
    (updates : List Update) :
    ∃ revision, (planOf stored s change p updates).policy = { p with revision := revision } := by
  unfold planOf
  dsimp only
  split
  · exact ⟨p.revision + 1, rfl⟩
  · exact ⟨p.revision, rfl⟩

/-- A policy that isolates nothing and has bound nothing needs no plan for its yards. -/
def Policy.Idle (p : Policy) : Prop := p.isolation = false ∧ p.bindings = []

/-- The steps of the planner. -/
structure Drawn (size : Policy → ℕ) (stored : StoredPolicy) (s : Snapshot) (change : Change)
    (p₀ p : Policy) (updates : List Update) : Prop where
  origin : stored.policy.Sound
  origin_fits : size stored.policy.normal ≤ maxPolicySize
  known : ∀ link ∈ change.link.toList ++ change.unlink.toList,
    link.a ∈ s.yards.map (·.yard.name) ∧ link.b ∈ s.yards.map (·.yard.name)
  amended : stored.policy.normal.amend change = .ok p₀
  idle : p₀.Idle → p = p₀ ∧ updates = []
  planned : ¬ p₀.Idle → Planned p₀ s p updates
  sound : p.Sound
  fits : size p.normal ≤ maxPolicySize
  revision : Changes stored.policy.normal p updates → p.revision + 1 ≠ 0

variable {size : Policy → ℕ}

/-- **A plan is what its steps make.** -/
theorem buildPlan_ok {stored : StoredPolicy} {s : Snapshot} {change : Change} {plan : Plan} :
    buildPlan size stored s change = .ok plan ↔ ∃ p₀ p updates,
      Drawn size stored s change p₀ p updates ∧ plan = planOf stored s change p updates := by
  have hidle : ∀ p : Policy, (p.isolation ∨ p.bindings ≠ []) ↔ ¬ p.Idle := by
    intro p
    rw [Policy.Idle, not_and_or, Bool.not_eq_false]
  unfold buildPlan
  constructor
  · intro h
    obtain ⟨content, hcontent, h⟩ := of_bind_ok h
    have hread := decode_of_encode hcontent
    obtain ⟨hsound, hfits, rfl⟩ := encode_eq_ok.mp hcontent
    rw [hread] at h
    obtain ⟨hknown, h⟩ := refuse_bind.mp h
    obtain ⟨p₀, hamended, h⟩ := of_bind_ok h
    obtain ⟨⟨p, updates⟩, hplanned, h⟩ := of_bind_ok h
    obtain ⟨encoded, hencoded, h⟩ := of_bind_ok h
    obtain ⟨hpsound, hpfits, rfl⟩ := encode_eq_ok.mp hencoded
    obtain ⟨hrevision, h⟩ := refuse_bind.mp h
    have hknown : ∀ link ∈ change.link.toList ++ change.unlink.toList,
        link.a ∈ s.yards.map (·.yard.name) ∧ link.b ∈ s.yards.map (·.yard.name) := by
      intro link hlink
      by_contra hnot
      exact hknown ⟨link, hlink, by rwa [not_and_or] at hnot⟩
    refine ⟨p₀, p, updates, ⟨hsound, hfits, hknown, hamended, fun hi => ?_, fun hi => ?_, hpsound,
      hpfits, fun hc hz => hrevision ⟨hc, hz⟩⟩, (Except.ok.inj h).symm⟩
    · rw [planAny, if_neg (fun hp => (hidle p₀).mp hp hi)] at hplanned
      cases hplanned
      exact ⟨rfl, rfl⟩
    · rw [planAny, if_pos ((hidle p₀).mpr hi)] at hplanned
      exact planYards_ok.mp hplanned
  · rintro ⟨p₀, p, updates, hd, rfl⟩
    have hcontent : encode size stored.policy = .ok stored.policy.normal :=
      encode_eq_ok.mpr ⟨hd.origin, hd.origin_fits, rfl⟩
    rw [hcontent]
    show (decode size stored.policy.normal >>= _) = _
    rw [decode_of_encode hcontent]
    refine refuse_bind.mpr ⟨?_, ?_⟩
    · rintro ⟨link, hlink, hnot⟩
      have := hd.known link hlink
      rcases hnot with hnot | hnot
      · exact hnot this.1
      · exact hnot this.2
    rw [hd.amended]
    have hplanned : planAny p₀ s = .ok (p, updates) := by
      unfold planAny
      by_cases hi : p₀.Idle
      · obtain ⟨rfl, rfl⟩ := hd.idle hi
        rw [if_neg (fun hp => (hidle p).mp hp hi)]
        rfl
      · rw [if_pos ((hidle p₀).mpr hi)]
        exact planYards_ok.mpr (hd.planned hi)
    show (planAny p₀ s >>= _) = _
    rw [hplanned]
    show (encode size p >>= _) = _
    rw [encode_eq_ok.mpr ⟨hd.sound, hd.fits, rfl⟩]
    exact refuse_bind.mpr ⟨fun ⟨hc, hz⟩ => hd.revision hc hz, rfl⟩

end Subyard.YardNetwork
