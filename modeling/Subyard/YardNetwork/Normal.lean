import Subyard.YardNetwork.Planner

/-!
The policies that pass the checks, and their normal forms.

* `Policy.Sound`: what the checks of `Policy.normalize` ask for.
* `Policy.normal`: the normal form; `normalize_eq_ok` says that normalization is this and no more.
* `Sound.normal`, `normal_normal`: a normal form is sound and is its own normal form.
-/

namespace Subyard.YardNetwork

open Text Fallible Ipv4
open Config (safeName)

/-! ### Links -/

namespace Link

/-- Two different names of yards. -/
def Proper (l : Link) : Prop := safeName l.a ∧ safeName l.b ∧ l.a ≠ l.b

/-- The link with its ends in order. -/
def canonical (l : Link) : Link := if l.b < l.a then ⟨l.b, l.a⟩ else l

lemma canonical_canonical (l : Link) : l.canonical.canonical = l.canonical := by
  unfold canonical
  by_cases h : l.b < l.a
  · rw [if_pos h, if_neg (List.lt_asymm h)]
  · rw [if_neg h, if_neg h]

lemma Proper.canonical {l : Link} (h : l.Proper) : l.canonical.Proper := by
  unfold Link.canonical
  split
  · exact ⟨h.2.1, h.1, h.2.2.symm⟩
  · exact h

instance : Std.Total Link.before where
  total l r := by
    unfold before
    by_cases hlt : l.a < r.a
    · exact .inl (.inl hlt)
    by_cases hgt : r.a < l.a
    · exact .inr (.inl hgt)
    have heq : l.a = r.a := List.le_antisymm hgt hlt
    exact (List.le_total l.b r.b).imp (fun hb => .inr ⟨heq, hb⟩) fun hb => .inr ⟨heq.symm, hb⟩

instance : IsTrans Link Link.before where
  trans l m r hlm hmr := by
    rcases hlm with hlm | ⟨hlm, hb⟩
    · rcases hmr with hmr | ⟨hmr, _⟩
      · exact .inl (List.lt_trans hlm hmr)
      · exact .inl (hmr ▸ hlm)
    · rcases hmr with hmr | ⟨hmr, hb'⟩
      · exact .inl (hlm ▸ hmr)
      · exact .inr ⟨hlm.trans hmr, List.le_trans hb hb'⟩

end Link

lemma canonicalLink_eq_ok {a b : Bytes} {l : Link} :
    canonicalLink a b = .ok l ↔ Link.Proper ⟨a, b⟩ ∧ l = Link.canonical ⟨a, b⟩ := by
  rw [canonicalLink, refuse_bind]
  simp only [not_or, not_not, Link.Proper]
  exact and_congr_right fun _ => ⟨fun h => (Except.ok.inj h).symm, fun h => congrArg _ h.symm⟩

lemma checkLink_eq_ok {earlier : List Link} {l : Link} {r : List Link} :
    Policy.checkLink earlier l = .ok r ↔
      l.Proper ∧ (∀ m ∈ earlier, m ≠ l.canonical) ∧ r = earlier ++ [l.canonical] := by
  unfold Policy.checkLink
  constructor
  · intro h
    obtain ⟨m, hm, h⟩ := of_bind_ok h
    obtain ⟨hproper, rfl⟩ := canonicalLink_eq_ok.mp hm
    obtain ⟨hnew, h⟩ := refuse_bind.mp h
    exact ⟨hproper, fun m hm heq => hnew (heq ▸ hm), (Except.ok.inj h).symm⟩
  · rintro ⟨hproper, hnew, rfl⟩
    rw [canonicalLink_eq_ok.mpr ⟨hproper, rfl⟩]
    exact refuse_bind.mpr ⟨fun hm => hnew _ hm rfl, rfl⟩

lemma checkName_eq_ok {earlier : List Bytes} {name : Bytes} {r : List Bytes} :
    Policy.checkName earlier name = .ok r ↔
      safeName name ∧ (∀ m ∈ earlier, m ≠ name) ∧ r = earlier ++ [name] := by
  unfold Policy.checkName
  rw [refuse_bind, not_or, not_not, and_assoc]
  refine and_congr_right fun _ => and_congr ⟨fun h m hm heq => h (heq ▸ hm), fun h hm => h _ hm rfl⟩
    ⟨fun h => (Except.ok.inj h).symm, fun h => congrArg _ h.symm⟩

/-! ### Routes -/

namespace ApprovedIngress

/-- A route as such, in the form that is stored. -/
def Allowed (a : ApprovedIngress) : Prop :=
  safeName a.device ∧ (a.transport = str "udp" ∨ a.transport = str "tcp")
    ∧ 1 ≤ a.guestPort ∧ a.guestPort ≤ 65535 ∧ a.listens

@[simp] lemma device_stored (a : ApprovedIngress) : a.stored.device = a.device := by
  unfold stored
  split <;> rfl

lemma stored_stored (a : ApprovedIngress) : a.stored.stored = a.stored := by
  unfold stored
  by_cases h : a.protocol = str "udp"
  · rw [if_pos h]
    exact if_neg (show ([] : Bytes) ≠ str "udp" by decide)
  · rw [if_neg h, if_neg h]

lemma check_eq_ok {earlier : List ApprovedIngress} {a : ApprovedIngress}
    {r : List ApprovedIngress} : check earlier a = .ok r ↔
      a.stored.Allowed ∧ (∀ b ∈ earlier, b.device ≠ a.stored.device) ∧ r = earlier ++ [a.stored] := by
  unfold check Allowed
  rw [refuse_bind]
  simp only [not_or, not_not, not_lt, List.mem_map, not_exists, not_and]
  constructor
  · rintro ⟨⟨hname, hnew, htransport, hlow, hhigh, hlistens⟩, h⟩
    exact ⟨⟨hname, or_iff_not_imp_left.mpr htransport, hlow, hhigh, hlistens⟩, hnew,
      (Except.ok.inj h).symm⟩
  · rintro ⟨⟨hname, htransport, hlow, hhigh, hlistens⟩, hnew, rfl⟩
    exact ⟨⟨hname, hnew, or_iff_not_imp_left.mp htransport, hlow, hhigh, hlistens⟩, rfl⟩

/-- Routes of one binding. -/
def Routes (routes : List ApprovedIngress) : Prop :=
  (∀ a ∈ routes, a.stored.Allowed) ∧ (routes.map device).Nodup

/-- The routes in the form and the order in which they are stored. -/
def arrange (routes : List ApprovedIngress) : List ApprovedIngress := sort (routes.map stored)

lemma checks_eq_ok {routes r : List ApprovedIngress} :
    routes.foldlM check [] = .ok r ↔ Routes routes ∧ r = routes.map stored := by
  rw [foldlM_collect (A := fun a => a.stored.Allowed) (g := stored)
    (C := fun a b => a.device ≠ b.device) fun _ _ _ => check_eq_ok, Routes,
    and_assoc, List.Nodup, List.pairwise_map, List.pairwise_map]
  simp only [device_stored]

lemma sort_perm (routes : List ApprovedIngress) : (sort routes).Perm routes :=
  List.perm_insertionSort _ _

lemma Routes.perm {routes routes' : List ApprovedIngress} (h : Routes routes)
    (hperm : routes'.Perm routes) : Routes routes' :=
  ⟨fun a ha => h.1 a (hperm.mem_iff.mp ha), (hperm.map _).nodup_iff.mpr h.2⟩

lemma Routes.arrange {routes : List ApprovedIngress} (h : Routes routes) :
    Routes (arrange routes) := by
  refine Routes.perm ⟨fun a ha => ?_, ?_⟩ (sort_perm _)
  · obtain ⟨b, hb, rfl⟩ := List.mem_map.mp ha
    exact (stored_stored b).symm ▸ h.1 b hb
  · rw [List.map_map]
    exact (funext device_stored : device ∘ stored = device).symm ▸ h.2

lemma sort_sorted (routes : List ApprovedIngress) : sort (sort routes) = sort routes :=
  (List.pairwise_insertionSort (fun a b : ApprovedIngress => a.device ≤ b.device) _).insertionSort_eq

lemma arrange_arrange (routes : List ApprovedIngress) : arrange (arrange routes) = arrange routes := by
  have hstored : (arrange routes).map stored = arrange routes := by
    refine List.map_congr_left (fun a ha => ?_) |>.trans (List.map_id _)
    obtain ⟨b, _, rfl⟩ := List.mem_map.mp ((sort_perm _).mem_iff.mp ha)
    exact stored_stored b
  rw [arrange, hstored]
  exact sort_sorted _

end ApprovedIngress

/-! ### Bindings -/

namespace Binding

/-- Two bindings without anything in common that must be unique. -/
def Apart (b c : Binding) : Prop :=
  b.yard.name ≠ c.yard.name ∧ b.identity ≠ c.identity ∧ b.address ≠ c.address
    ∧ b.macIdentity ≠ c.macIdentity

lemma Apart.symm {b c : Binding} (h : b.Apart c) : c.Apart b :=
  ⟨h.1.symm, h.2.1.symm, h.2.2.1.symm, h.2.2.2.symm⟩

instance : Std.Symm Binding.Apart := ⟨fun _ _ => Apart.symm⟩

/-- The form that is stored. -/
def stored (b : Binding) : Binding :=
  { b with approvedIngress := ApprovedIngress.arrange b.approvedIngress }

lemma check_eq_ok {earlier : List Binding} {b : Binding} {r : List Binding} :
    check earlier b = .ok r ↔ (b.Valid ∧ ApprovedIngress.Routes b.approvedIngress)
      ∧ (∀ c ∈ earlier, c.Apart b.stored) ∧ r = earlier ++ [b.stored] := by
  unfold check
  rw [refuse_bind, refuse_bind]
  simp only [not_or, not_not, List.mem_map, not_exists, not_and]
  constructor
  · rintro ⟨⟨hvalid, hname⟩, ⟨hid, haddress, hmac⟩, h⟩
    obtain ⟨routes, hchecks, h⟩ := of_bind_ok h
    obtain ⟨hroutes, rfl⟩ := ApprovedIngress.checks_eq_ok.mp hchecks
    exact ⟨⟨hvalid, hroutes⟩, fun c hc => ⟨hname c hc, hid c hc, haddress c hc, hmac c hc⟩,
      (Except.ok.inj h).symm⟩
  · rintro ⟨⟨hvalid, hroutes⟩, hapart, rfl⟩
    refine ⟨⟨hvalid, fun c hc => (hapart c hc).1⟩, ⟨fun c hc => (hapart c hc).2.1,
      fun c hc => (hapart c hc).2.2.1, fun c hc => (hapart c hc).2.2.2⟩, ?_⟩
    rw [ApprovedIngress.checks_eq_ok.mpr ⟨hroutes, rfl⟩]
    rfl

lemma sort_perm (bindings : List Binding) : (sort bindings).Perm bindings :=
  List.perm_insertionSort _ _

lemma mem_sort {bindings : List Binding} {b : Binding} : b ∈ sort bindings ↔ b ∈ bindings :=
  (sort_perm bindings).mem_iff

lemma sort_sort (bindings : List Binding) : sort (sort bindings) = sort bindings :=
  (List.pairwise_insertionSort (fun a b : Binding => a.yard.name ≤ b.yard.name) _).insertionSort_eq

lemma stored_stored (b : Binding) : b.stored.stored = b.stored := by
  simp only [stored, ApprovedIngress.arrange_arrange]

end Binding

/-! ### Policies -/

/-- A policy that passes the checks. -/
structure Policy.Sound (p : Policy) : Prop where
  schema : p.schema = schemaVersion
  revision : p.appliedRevision ≤ p.revision
  proper : ∀ l ∈ p.links, l.Proper
  links : (p.links.map Link.canonical).Nodup
  valid : ∀ b ∈ p.bindings, b.Valid
  routes : ∀ b ∈ p.bindings, ApprovedIngress.Routes b.approvedIngress
  apart : p.bindings.Pairwise Binding.Apart
  pending : ∀ name ∈ p.pendingStart, safeName name
  pending_nodup : p.pendingStart.Nodup
  removing : ∀ name ∈ p.removing, safeName name
  removing_nodup : p.removing.Nodup
  disjoint : ∀ name ∈ p.removing, name ∉ p.pendingStart

namespace Policy

/-- The normal form. -/
def normal (p : Policy) : Policy :=
  { p with
    links := sortLinks (p.links.map Link.canonical)
    bindings := Binding.sort (p.bindings.map Binding.stored) }

/-- What must be unique is stored as it is. -/
lemma apart_map {bindings : List Binding} :
    (bindings.map Binding.stored).Pairwise Binding.Apart ↔ bindings.Pairwise Binding.Apart := by
  rw [List.pairwise_map]
  exact Iff.rfl

lemma checkNames_eq_ok {names r : List Bytes} :
    names.foldlM checkName [] = .ok r ↔ (∀ name ∈ names, safeName name) ∧ names.Nodup ∧ r = names := by
  rw [foldlM_collect (A := fun name => safeName name) (g := id) (C := (· ≠ ·))
    fun _ _ _ => checkName_eq_ok, List.map_id]
  rfl

/-- **Normalization is the normal form of a policy that passes the checks.** -/
theorem normalize_eq_ok {p q : Policy} : p.normalize = .ok q ↔ p.Sound ∧ q = p.normal := by
  have hlinks : ∀ r, p.links.foldlM checkLink [] = .ok r ↔ (∀ l ∈ p.links, l.Proper)
      ∧ (p.links.map Link.canonical).Nodup ∧ r = p.links.map Link.canonical := fun r =>
    foldlM_collect (A := Link.Proper) (g := Link.canonical) (C := (· ≠ ·))
      fun _ _ _ => checkLink_eq_ok
  have hbindings : ∀ r, p.bindings.foldlM Binding.check [] = .ok r ↔
      (∀ b ∈ p.bindings, b.Valid ∧ ApprovedIngress.Routes b.approvedIngress)
      ∧ (p.bindings.map Binding.stored).Pairwise Binding.Apart
      ∧ r = p.bindings.map Binding.stored := fun r =>
    foldlM_collect (A := fun b => b.Valid ∧ ApprovedIngress.Routes b.approvedIngress)
      (g := Binding.stored) (C := Binding.Apart) fun _ _ _ => Binding.check_eq_ok
  unfold normalize
  rw [refuse_bind, refuse_bind]
  simp only [not_not, UInt64.not_lt]
  constructor
  · rintro ⟨hschema, hrevision, h⟩
    obtain ⟨links, hl, h⟩ := of_bind_ok h
    obtain ⟨hproper, hnodup, rfl⟩ := (hlinks links).mp hl
    obtain ⟨bindings, hb, h⟩ := of_bind_ok h
    obtain ⟨hvalid, hapart, rfl⟩ := (hbindings bindings).mp hb
    obtain ⟨_, hp, h⟩ := of_bind_ok h
    obtain ⟨hpending, hpnodup, -⟩ := checkNames_eq_ok.mp hp
    obtain ⟨_, hr, h⟩ := of_bind_ok h
    obtain ⟨hremoving, hrnodup, -⟩ := checkNames_eq_ok.mp hr
    obtain ⟨hdisjoint, h⟩ := refuse_bind.mp h
    exact ⟨⟨hschema, hrevision, hproper, hnodup, fun b hb => (hvalid b hb).1,
      fun b hb => (hvalid b hb).2, apart_map.mp hapart, hpending, hpnodup, hremoving,
      hrnodup, fun name hname hmem => hdisjoint ⟨name, hname, hmem⟩⟩, (Except.ok.inj h).symm⟩
  · rintro ⟨hs, rfl⟩
    refine ⟨hs.schema, hs.revision, ?_⟩
    rw [(hlinks _).mpr ⟨hs.proper, hs.links, rfl⟩]
    show (p.bindings.foldlM Binding.check [] >>= _) = _
    rw [(hbindings _).mpr ⟨fun b hb => ⟨hs.valid b hb, hs.routes b hb⟩,
      apart_map.mpr hs.apart, rfl⟩]
    show (p.pendingStart.foldlM checkName [] >>= _) = _
    rw [checkNames_eq_ok.mpr ⟨hs.pending, hs.pending_nodup, rfl⟩]
    show (p.removing.foldlM checkName [] >>= _) = _
    rw [checkNames_eq_ok.mpr ⟨hs.removing, hs.removing_nodup, rfl⟩]
    exact refuse_bind.mpr ⟨fun ⟨name, hname, hmem⟩ => hs.disjoint name hname hmem, rfl⟩

lemma sortLinks_perm (links : List Link) : (sortLinks links).Perm links :=
  List.perm_insertionSort _ _

lemma mem_sortLinks {links : List Link} {l : Link} : l ∈ sortLinks links ↔ l ∈ links :=
  (sortLinks_perm links).mem_iff

lemma mem_normal_bindings {p : Policy} {b : Binding} :
    b ∈ p.normal.bindings ↔ ∃ c ∈ p.bindings, c.stored = b := by
  rw [normal, Binding.mem_sort, List.mem_map]

lemma mem_normal_links {p : Policy} {l : Link} :
    l ∈ p.normal.links ↔ ∃ m ∈ p.links, m.canonical = l := by
  rw [normal, mem_sortLinks, List.mem_map]

/-- **A normal form passes the checks.** -/
theorem Sound.normal {p : Policy} (h : p.Sound) : p.normal.Sound where
  schema := h.schema
  revision := h.revision
  proper l hl := by
    obtain ⟨m, hm, rfl⟩ := mem_normal_links.mp hl
    exact (h.proper m hm).canonical
  links := by
    have hperm := (sortLinks_perm (p.links.map Link.canonical)).map Link.canonical
    refine hperm.nodup_iff.mpr ?_
    rw [List.map_map]
    exact (funext Link.canonical_canonical : Link.canonical ∘ Link.canonical = Link.canonical).symm
      ▸ h.links
  valid b hb := by
    obtain ⟨c, hc, rfl⟩ := mem_normal_bindings.mp hb
    exact h.valid c hc
  routes b hb := by
    obtain ⟨c, hc, rfl⟩ := mem_normal_bindings.mp hb
    exact (h.routes c hc).arrange
  apart := by
    refine (List.Perm.pairwise_iff Binding.Apart.symm (Binding.sort_perm _)).mpr ?_
    exact apart_map.mpr h.apart
  pending := h.pending
  pending_nodup := h.pending_nodup
  removing := h.removing
  removing_nodup := h.removing_nodup
  disjoint := h.disjoint

/-- **It is its own normal form.** -/
theorem normal_normal (p : Policy) : p.normal.normal = p.normal := by
  have hlinks : p.normal.links.map Link.canonical = p.normal.links := by
    refine List.map_congr_left (fun l hl => ?_) |>.trans (List.map_id _)
    obtain ⟨m, _, rfl⟩ := mem_normal_links.mp hl
    exact m.canonical_canonical
  have hbindings : p.normal.bindings.map Binding.stored = p.normal.bindings := by
    refine List.map_congr_left (fun b hb => ?_) |>.trans (List.map_id _)
    obtain ⟨c, _, rfl⟩ := mem_normal_bindings.mp hb
    exact c.stored_stored
  have hsorted : sortLinks p.normal.links = p.normal.links :=
    (List.pairwise_insertionSort Link.before _).insertionSort_eq
  rw [normal, hlinks, hbindings, hsorted, show Binding.sort p.normal.bindings = p.normal.bindings
    from Binding.sort_sort _]

end Policy

/-! ### The stored content -/

section Content

variable {size : Policy → ℕ}

lemma encode_eq_ok {p q : Policy} :
    encode size p = .ok q ↔ p.Sound ∧ size p.normal ≤ maxPolicySize ∧ q = p.normal := by
  unfold encode
  constructor
  · intro h
    obtain ⟨content, hc, h⟩ := of_bind_ok h
    obtain ⟨hs, rfl⟩ := Policy.normalize_eq_ok.mp hc
    obtain ⟨hsize, h⟩ := refuse_bind.mp h
    exact ⟨hs, not_lt.mp hsize, (Except.ok.inj h).symm⟩
  · rintro ⟨hs, hsize, rfl⟩
    rw [Policy.normalize_eq_ok.mpr ⟨hs, rfl⟩]
    exact refuse_bind.mpr ⟨not_lt.mpr hsize, rfl⟩

/-- What was encoded is read back as it is. -/
lemma decode_of_encode {p q : Policy} (h : encode size p = .ok q) : decode size q = .ok q := by
  obtain ⟨hs, hsize, rfl⟩ := encode_eq_ok.mp h
  exact refuse_bind.mpr ⟨not_lt.mpr hsize,
    Policy.normalize_eq_ok.mpr ⟨hs.normal, p.normal_normal.symm⟩⟩

end Content

end Subyard.YardNetwork
