import Subyard.History.Registry

/-!
Authorities and the canonical way to the current epochs.

* `Handle`, `Frontier`: a registry and an authority can only be built by `NewRegistry` and
  `History`, so they carry that they were.
* `Registry.advance`, `Registry.next`: one migration is applied.
* `NextRun`: `Next` is applied until it fails.
* `migration_progress`: **this applies the pending migrations in the order of the registry and ends
  with every domain at its current epoch**.
-/

namespace Subyard.History

open Text Fallible

/-- A pointer to the data of a registry. -/
structure Handle where
  address : ℕ
  data : RegistryData
  built : ∃ minimum current migrations retired,
    newRegistry minimum current migrations retired = .ok data
deriving DecidableEq

/-- `Registry`; `none` is its zero value. -/
abbrev Registry := Option Handle

/-- What an authority holds. -/
structure Frontier where
  registry : Handle
  domains : Domains
  accepted : registry.data.history domains = .ok ()
deriving DecidableEq

/-- `Authority`; `none` is its zero value. -/
abbrev Authority := Option Frontier

structure Edge where
  before : Authority
  after : Authority
  migration : Migration
deriving DecidableEq

structure Completion where
  terminal : Authority

/-- `Domains`. -/
def Authority.domains : Authority → Domains
  | some f => f.domains
  | none => ∅

namespace Registry

/-- The migrations of the registry. -/
def migrations : Registry → List Migration
  | some h => h.data.migrations
  | none => []

/-- `History`. -/
def history : Registry → Domains → Except Bytes Authority
  | none, _ => .error (str "uninitialized migration registry")
  | some h, domains =>
      match hok : h.data.history domains with
      | .ok () => .ok (some ⟨h, domains, hok⟩)
      | .error e => .error e

def owns : Registry → Authority → Bool
  | some h, some f => f.registry = h
  | _, _ => false

/-- `Pending`. -/
def pending (r : Registry) (a : Authority) : Except Bytes (List Migration) := do
  refuse (¬ r.owns a) (str "zero or foreign migration authority")
  pure (r.migrations.filter fun m => a.domains.epoch m.domain < m.toEpoch)

def advance (r : Registry) (a : Authority) (m : Migration) : Except Bytes Edge := do
  refuse (¬ r.owns a ∨ a.domains.epoch m.domain ≠ m.fromEpoch)
    (str "migration is not the next domain transition")
  let state := a.domains.getD m.domain ⟨0, []⟩
  let after ← r.history (a.domains.insert m.domain ⟨m.toEpoch, state.applied ++ [m.id]⟩)
  pure ⟨a, after, m⟩

/-- `Next`. -/
def next (r : Registry) (a : Authority) : Except Bytes Edge := do
  match ← r.pending a with
  | [] => .error (str "migration history is complete")
  | m :: _ => r.advance a m

/-- `Complete`. -/
def complete (r : Registry) (a : Authority) : Except Bytes Completion := do
  refuse ((← r.pending a) ≠ []) (str "migration history is incomplete")
  pure ⟨a⟩

end Registry

/-- `Next` is applied from the authority on until it fails. -/
inductive NextRun (r : Registry) : Authority → List Edge → Authority → Prop
  | done {a : Authority} {e : Bytes} (h : r.next a = .error e) : NextRun r a [] a
  | step {a b : Authority} {edge : Edge} {edges : List Edge} (h : r.next a = .ok edge)
      (rest : NextRun r edge.after edges b) : NextRun r a (edge :: edges) b

/-! ### The path of one domain -/

namespace RegistryData

variable {data : RegistryData} {domains : Domains} {m p : Migration}

/-- A domain reaches an epoch by one migration only. -/
lemma Sound.eq_of_toEpoch (h : data.Sound) (hp : p ∈ data.migrations) (hm : m ∈ data.migrations)
    (hdomain : p.domain = m.domain) (hepoch : p.toEpoch = m.toEpoch) : p = m := by
  by_contra hne
  have hpair : data.migrations.Pairwise fun x y => x.domain = y.domain → x.toEpoch ≠ y.toEpoch := by
    refine h.ordered.imp_of_mem fun {x y} _ hy hxy hd => ?_
    have := hxy hd
    have := h.step y hy
    omega
  have hsymm : Std.Symm fun x y : Migration => x.domain = y.domain → x.toEpoch ≠ y.toEpoch :=
    ⟨fun x y hxy hd heq => hxy hd.symm heq.symm⟩
  exact hpair.forall hp hm hne hdomain hepoch

lemma Sound.prefixIDs_toEpoch (h : data.Sound) (hm : m ∈ data.migrations) :
    data.prefixIDs m.domain m.toEpoch = data.prefixIDs m.domain m.fromEpoch ++ [m.id] := by
  obtain ⟨pre, post, hsplit⟩ := List.append_of_mem hm
  have hstep := h.step m hm
  have hordered := hsplit ▸ h.ordered
  rw [List.pairwise_append, List.pairwise_cons] at hordered
  obtain ⟨_, ⟨hafter, _⟩, hbefore⟩ := hordered
  have hpre : ∀ e, m.fromEpoch ≤ e → pre.filter (fun p => p.domain = m.domain ∧ p.toEpoch ≤ e)
      = pre.filter fun p => p.domain = m.domain := by
    intro e he
    refine List.filter_congr fun p hp => decide_eq_decide.mpr ⟨And.left, fun hd => ⟨hd, ?_⟩⟩
    exact (hbefore p hp m (List.mem_cons_self ..) hd).trans he
  have hpost : ∀ e, e ≤ m.toEpoch →
      post.filter (fun p => p.domain = m.domain ∧ p.toEpoch ≤ e) = [] := by
    intro e he
    refine List.filter_eq_nil_iff.mpr fun p hp hcond => ?_
    obtain ⟨hd, hle⟩ := of_decide_eq_true hcond
    have := hafter p hp hd.symm
    have := h.step p (hsplit ▸ by simp [hp])
    omega
  rw [prefixIDs, prefixIDs, hsplit, List.filter_append, List.filter_append, List.filter_cons,
    List.filter_cons, hpre _ le_rfl, hpre _ (by omega), hpost _ le_rfl, hpost _ (by omega)]
  simp [hstep]

/-- No migration depends on itself. -/
lemma Sound.ne_of_dep (h : data.Sound) (hm : m ∈ data.migrations) (hp : p ∈ data.migrations)
    (hdep : p.id ∈ m.dependsOn) : p ≠ m := by
  rintro rfl
  obtain ⟨pre, post, hsplit⟩ := List.append_of_mem hm
  obtain ⟨q, hq, hqid⟩ := h.deps pre p post hsplit p.id hdep
  obtain rfl := h.eq_of_id (hsplit ▸ List.mem_append_left _ hq) hm hqid
  have hnodup := List.Nodup.of_map _ (hsplit ▸ h.distinct)
  exact (List.nodup_append.mp hnodup).2.2 q hq q (List.mem_cons_self ..) rfl

end RegistryData

/-! ### One migration more -/

/-- The states after a migration, as `advance` computes them. -/
def Domains.apply (domains : Domains) (m : Migration) : Domains :=
  domains.insert m.domain ⟨m.toEpoch, (domains.getD m.domain ⟨0, []⟩).applied ++ [m.id]⟩

namespace Domains

variable {data : RegistryData} {domains : Domains} {m p : Migration}

@[simp] lemma epoch_apply_self (domains : Domains) (m : Migration) :
    (domains.apply m).epoch m.domain = m.toEpoch := by
  rw [epoch, apply, Dict.getD_insert_self]

lemma epoch_apply_of_ne (domains : Domains) {m : Migration} {name : Bytes}
    (h : name ≠ m.domain) : (domains.apply m).epoch name = domains.epoch name := by
  rw [epoch, apply, Dict.getD_insert_of_ne _ _ _ h, epoch]

/-- A migration adds itself to what is applied. -/
lemma has_apply (h : data.Sound) (hm : m ∈ data.migrations)
    (hepoch : domains.epoch m.domain = m.fromEpoch) (hp : p ∈ data.migrations) :
    (domains.apply m).Has p ↔ domains.Has p ∨ p = m := by
  have hstep := h.step m hm
  by_cases hdomain : p.domain = m.domain
  · rw [Has, Has, hdomain, epoch_apply_self, hepoch]
    constructor
    · intro hle
      rcases hle.lt_or_eq with hlt | heq
      · exact .inl (by omega)
      · exact .inr (h.eq_of_toEpoch hp hm hdomain heq)
    · rintro (hle | rfl)
      · omega
      · exact le_rfl
  · rw [Has, Has, epoch_apply_of_ne _ hdomain]
    exact ⟨.inl, fun hor => hor.resolve_right fun heq => hdomain (by rw [heq])⟩

/-- **A migration whose domain is at its epoch and whose dependencies are applied leads to an
accepted history again, and to no other.** -/
lemma accepts_apply (h : data.Sound) (hacc : data.Accepts domains) (hm : m ∈ data.migrations)
    (hepoch : domains.epoch m.domain = m.fromEpoch) :
    data.Accepts (domains.apply m)
      ↔ ∀ p ∈ data.migrations, p.id ∈ m.dependsOn → domains.Has p := by
  have hkey := (h.safe m hm).2
  have hstep := h.step m hm
  constructor
  · intro hacc' p hp hdep
    have hhas : (domains.apply m).Has m := by
      rw [Has, epoch_apply_self]
    have hhas' := hacc'.deps m hm hhas p.id hdep p hp rfl
    exact ((has_apply h hm hepoch hp).mp hhas').resolve_right (h.ne_of_dep hm hp hdep)
  · intro hdeps
    refine ⟨?_, fun name hname => ?_, fun name state hstate => ?_, fun q hq hhas dep hdep p hp hpid => ?_⟩
    · rw [apply, Dict.keys_insert_of_mem _ (hacc.keys ▸ hkey), hacc.keys]
    · have hrange := hacc.range name hname
      by_cases hsame : name = m.domain
      · subst hsame
        have := h.high m hm
        rw [epoch_apply_self]
        omega
      · rwa [epoch_apply_of_ne _ hsame]
    · by_cases hsame : name = m.domain
      · subst hsame
        obtain ⟨old, hold⟩ := Dict.exists_lookup (hacc.keys ▸ hkey)
        have happlied := hacc.applied m.domain old hold
        rw [← RegistryData.epoch_of_lookup hold, hepoch] at happlied
        rw [apply, Finmap.lookup_insert] at hstate
        cases hstate
        rw [h.prefixIDs_toEpoch hm, Dict.getD_of_lookup hold, happlied]
      · rw [apply, Finmap.lookup_insert_of_ne _ hsame] at hstate
        exact hacc.applied name state hstate
    · refine (has_apply h hm hepoch hp).mpr (.inl ?_)
      rcases (has_apply h hm hepoch hq).mp hhas with hhas | rfl
      · exact hacc.deps q hq hhas dep hdep p hp hpid
      · exact hdeps p hp (hpid ▸ hdep)

end Domains

/-! ### Authorities -/

lemma Handle.sound (h : Handle) : h.data.Sound := by
  obtain ⟨_, _, _, _, hbuilt⟩ := h.built
  exact newRegistry_sound hbuilt

namespace Frontier

lemma sound (f : Frontier) : f.registry.data.Sound := f.registry.sound

lemma accepts (f : Frontier) : f.registry.data.Accepts f.domains :=
  f.sound.history_ok.mp f.accepted

/-- What is pending. -/
def pending (f : Frontier) : List Migration :=
  f.registry.data.migrations.filter fun m => f.domains.epoch m.domain < m.toEpoch

lemma mem_pending {f : Frontier} {m : Migration} :
    m ∈ f.pending ↔ m ∈ f.registry.data.migrations ∧ ¬ f.domains.Has m := by
  rw [pending, List.mem_filter, decide_eq_true_iff, Domains.Has, not_le]

lemma pending_nodup (f : Frontier) : f.pending.Nodup :=
  (List.Nodup.of_map _ f.sound.distinct).filter _

/-- **The first pending migration is enabled**: its domain stands at its epoch, and its
dependencies are applied. -/
lemma head_enabled {f : Frontier} {m : Migration} {rest : List Migration}
    (h : f.pending = m :: rest) :
    m ∈ f.registry.data.migrations ∧ f.domains.epoch m.domain = m.fromEpoch
      ∧ ∀ p ∈ f.registry.data.migrations, p.id ∈ m.dependsOn → f.domains.Has p := by
  obtain ⟨hm, hpending⟩ := mem_pending.mp (h ▸ List.mem_cons_self ..)
  obtain ⟨pre, post, hsplit, hpre, _, _⟩ := List.filter_eq_cons_iff.mp h
  have hearlier : ∀ p ∈ pre, f.domains.Has p := by
    intro p hp
    have := hpre p hp
    rw [Domains.Has]
    simpa using this
  have hordered := hsplit ▸ f.sound.ordered
  rw [List.pairwise_append, List.pairwise_cons] at hordered
  have hstep := f.sound.step m hm
  have hrange := f.accepts.range m.domain (f.sound.safe m hm).2
  refine ⟨hm, le_antisymm ?_ ?_, fun p hp hdep => ?_⟩
  · rw [Domains.Has] at hpending
    omega
  · -- the migration that leads to this epoch stands earlier in the list
    by_contra hlt
    have hhigh := f.sound.high m hm
    obtain ⟨p, hp, hdomain, hfrom⟩ :=
      f.sound.covered m.domain (m.fromEpoch - 1) (by omega) (by omega)
    have hpstep := f.sound.step p hp
    have hmem : p ∈ pre := by
      rw [hsplit] at hp
      rcases List.mem_append.mp hp with hp | hp
      · exact hp
      rcases List.mem_cons.mp hp with rfl | hp
      · omega
      · have := hordered.2.1.1 p hp hdomain.symm
        omega
    have hhas := hearlier p hmem
    rw [Domains.Has, hdomain] at hhas
    omega
  · obtain ⟨q, hq, hqid⟩ := f.sound.deps pre m post hsplit p.id hdep
    rw [f.sound.eq_of_id hp (hsplit ▸ List.mem_append_left _ hq) hqid.symm]
    exact hearlier q hq

/-- Without pending migrations every domain is at its current epoch. -/
lemma epoch_of_pending_nil {f : Frontier} (h : f.pending = []) {name : Bytes}
    (hname : name ∈ f.registry.data.minimum.keys) :
    f.domains.epoch name = f.registry.data.current.getD name 0 := by
  obtain ⟨hlow, hhigh⟩ := f.accepts.range name hname
  by_contra hne
  obtain ⟨m, hm, hdomain, hfrom⟩ :=
    f.sound.covered name (f.domains.epoch name) hlow (lt_of_le_of_ne hhigh hne)
  have hpending : m ∈ f.pending := by
    refine mem_pending.mpr ⟨hm, ?_⟩
    rw [Domains.Has, hdomain, f.sound.step m hm]
    omega
  rw [h] at hpending
  cases hpending

/-- An enabled migration leads to an authority. -/
lemma exists_apply {f : Frontier} {m : Migration} (hm : m ∈ f.registry.data.migrations)
    (hepoch : f.domains.epoch m.domain = m.fromEpoch)
    (hdeps : ∀ p ∈ f.registry.data.migrations, p.id ∈ m.dependsOn → f.domains.Has p) :
    ∃ f' : Frontier, f'.registry = f.registry ∧ f'.domains = f.domains.apply m := by
  have hacc := (Domains.accepts_apply f.sound f.accepts hm hepoch).mpr hdeps
  exact ⟨⟨f.registry, f.domains.apply m, f.sound.history_ok.mpr hacc⟩, rfl, rfl⟩

/-- After a migration the others stay pending. -/
lemma pending_apply {f f' : Frontier} {m : Migration} (hregistry : f'.registry = f.registry)
    (hdomains : f'.domains = f.domains.apply m) (hm : m ∈ f.registry.data.migrations)
    (hepoch : f.domains.epoch m.domain = m.fromEpoch) :
    f'.pending = f.pending.filter (· ≠ m) := by
  rw [pending, pending, hregistry, List.filter_filter]
  refine List.filter_congr fun p hp => ?_
  have hhas := Domains.has_apply f.sound hm hepoch hp
  rw [← hdomains, Domains.Has, Domains.Has] at hhas
  simp only [← not_le, hhas]
  by_cases hle : p.toEpoch ≤ f.domains.epoch p.domain <;> simp [hle]

end Frontier

/-! ### The operations on authorities -/

namespace Registry

lemma history_eq_ok {r : Registry} {domains : Domains} {a : Authority} :
    r.history domains = .ok a ↔ ∃ f, a = some f ∧ r = some f.registry ∧ f.domains = domains := by
  cases r with
  | none => simp [history]
  | some h =>
    rw [history]
    split
    · rename_i hok
      constructor
      · rintro ⟨⟩
        exact ⟨_, rfl, rfl, rfl⟩
      · rintro ⟨f, rfl, hr, rfl⟩
        obtain rfl := Option.some.inj hr
        rfl
    · rename_i e herr
      simp only [reduceCtorEq, false_iff]
      rintro ⟨f, rfl, hr, rfl⟩
      obtain rfl := Option.some.inj hr
      rw [f.accepted] at herr
      cases herr

lemma owns_iff {r : Registry} {a : Authority} :
    r.owns a ↔ ∃ f, a = some f ∧ r = some f.registry := by
  cases r <;> cases a <;> simp [owns, eq_comm]

/-- **A step of an authority.** -/
lemma advance_eq_ok {r : Registry} {a : Authority} {m : Migration} {edge : Edge} :
    r.advance a m = .ok edge ↔ ∃ f f' : Frontier, a = some f ∧ r = some f.registry
      ∧ f.domains.epoch m.domain = m.fromEpoch ∧ f'.registry = f.registry
      ∧ f'.domains = f.domains.apply m ∧ edge = ⟨some f, some f', m⟩ := by
  rw [advance, refuse_bind, not_or, not_not, not_not, owns_iff]
  constructor
  · rintro ⟨⟨⟨f, rfl, rfl⟩, hepoch⟩, hrest⟩
    obtain ⟨after, hhistory, hedge⟩ := of_bind_ok hrest
    obtain ⟨f', rfl, hregistry, hdomains⟩ := history_eq_ok.mp hhistory
    cases hedge
    exact ⟨f, f', rfl, rfl, hepoch, (Option.some.inj hregistry).symm, hdomains, rfl⟩
  · rintro ⟨f, f', rfl, rfl, hepoch, hregistry, hdomains, rfl⟩
    refine ⟨⟨⟨f, rfl, rfl⟩, hepoch⟩, ?_⟩
    have hhistory : history (some f.registry) (f.domains.apply m) = .ok (some f') :=
      history_eq_ok.mpr ⟨f', rfl, by rw [hregistry], hdomains⟩
    show (history _ (f.domains.apply m) >>= _) = _
    rw [hhistory]
    rfl

lemma pending_some (f : Frontier) : pending (some f.registry) (some f) = .ok f.pending := by
  rw [pending, refuse_bind]
  exact ⟨not_not.mpr (owns_iff.mpr ⟨f, rfl, rfl⟩), rfl⟩

/-- `Next` applies the first pending migration. -/
lemma next_cons {f : Frontier} {m : Migration} {rest : List Migration}
    (h : f.pending = m :: rest) :
    ∃ f' : Frontier, next (some f.registry) (some f) = .ok ⟨some f, some f', m⟩
      ∧ f'.registry = f.registry ∧ f'.domains = f.domains.apply m ∧ f'.pending = rest := by
  obtain ⟨hm, hepoch, hdeps⟩ := Frontier.head_enabled h
  obtain ⟨f', hregistry, hdomains⟩ := Frontier.exists_apply hm hepoch hdeps
  refine ⟨f', ?_, hregistry, hdomains, ?_⟩
  · rw [next, pending_some, h]
    exact advance_eq_ok.mpr ⟨f, f', rfl, rfl, hepoch, hregistry, hdomains, rfl⟩
  · rw [Frontier.pending_apply hregistry hdomains hm hepoch, h]
    have hnodup := List.nodup_cons.mp (h ▸ f.pending_nodup)
    rw [List.filter_cons_of_neg (by simp), List.filter_eq_self]
    intro p hp
    exact decide_eq_true fun heq => hnodup.1 (heq ▸ hp)

lemma next_nil {f : Frontier} (h : f.pending = []) :
    next (some f.registry) (some f) = .error (str "migration history is complete") := by
  rw [next, pending_some, h]
  rfl

lemma complete_some (f : Frontier) :
    (∃ c, complete (some f.registry) (some f) = .ok c) ↔ f.pending = [] := by
  rw [complete, pending_some]
  show (∃ c, (refuse (f.pending ≠ []) _ >>= fun _ => _) = _) ↔ _
  simp only [refuse_bind, not_not]
  exact ⟨fun ⟨_, h, _⟩ => h, fun h => ⟨_, h, rfl⟩⟩

end Registry

/-! ### Progress -/

/-- The edges lead from one authority to another. -/
def Linked : Authority → List Edge → Authority → Prop
  | a, [], b => a = b
  | a, edge :: edges, b => edge.before = a ∧ Linked edge.after edges b

/-- The edge moves one domain by one epoch, from a history in which its dependencies are applied
to an accepted one. -/
structure Edge.Proper (r : Registry) (edge : Edge) : Prop where
  accepted : r.history edge.after.domains = .ok edge.after
  moved : edge.after.domains.epoch edge.migration.domain
    = edge.before.domains.epoch edge.migration.domain + 1
  kept : ∀ name, name ≠ edge.migration.domain →
    edge.after.domains.epoch name = edge.before.domains.epoch name
  deps : ∀ dep ∈ edge.migration.dependsOn, dep ∈ RegistryData.completed edge.before.domains

lemma Frontier.mem_completed (f : Frontier) (id : Bytes) :
    id ∈ RegistryData.completed f.domains
      ↔ ∃ m ∈ f.registry.data.migrations, m.id = id ∧ f.domains.Has m :=
  RegistryData.mem_completed (fun m hm => f.accepts.keys ▸ (f.sound.safe m hm).2)
    f.accepts.applied id

/-- **A step by an enabled migration is proper.** -/
lemma Edge.proper {f f' : Frontier} {m : Migration} (hregistry : f'.registry = f.registry)
    (hdomains : f'.domains = f.domains.apply m) (hm : m ∈ f.registry.data.migrations)
    (hepoch : f.domains.epoch m.domain = m.fromEpoch) :
    Edge.Proper (some f.registry) ⟨some f, some f', m⟩ where
  accepted := Registry.history_eq_ok.mpr ⟨f', rfl, by rw [hregistry], rfl⟩
  moved := by
    show f'.domains.epoch m.domain = f.domains.epoch m.domain + 1
    rw [hdomains, Domains.epoch_apply_self, hepoch, f.sound.step m hm]
  kept name hname := by
    show f'.domains.epoch name = f.domains.epoch name
    rw [hdomains, Domains.epoch_apply_of_ne _ hname]
  deps dep hdep := by
    have hacc : f.registry.data.Accepts (f.domains.apply m) := by
      rw [← hdomains, ← hregistry]
      exact f'.accepts
    obtain ⟨p, hp, rfl⟩ := f.sound.exists_dep hm hdep
    have hhas := (Domains.accepts_apply f.sound f.accepts hm hepoch).mp hacc p hp hdep
    exact (f.mem_completed p.id).mpr ⟨p, hp, rfl, hhas⟩

/-- The run of `Next`, by induction on what is pending. -/
lemma exists_nextRun (f : Frontier) :
    ∃ edges f', NextRun (some f.registry) (some f) edges (some f')
      ∧ Linked (some f) edges (some f') ∧ edges.map (·.migration) = f.pending
      ∧ (∀ edge ∈ edges, edge.Proper (some f.registry))
      ∧ f'.registry = f.registry ∧ f'.pending = [] := by
  induction hpending : f.pending generalizing f with
  | nil =>
    exact ⟨[], f, .done (Registry.next_nil hpending), rfl, rfl, fun _ h => (by cases h), rfl,
      hpending⟩
  | cons m rest ih =>
    obtain ⟨f', hnext, hregistry, hdomains, hrest⟩ := Registry.next_cons hpending
    obtain ⟨hm, hepoch, _⟩ := Frontier.head_enabled hpending
    obtain ⟨edges, last, hrun, hlinked, hmap, hproper, hlast, hdone⟩ := ih f' hrest
    rw [hregistry] at hrun hproper hlast
    refine ⟨⟨some f, some f', m⟩ :: edges, last, .step hnext hrun, ⟨rfl, hlinked⟩,
      by rw [List.map_cons, hmap], fun edge hedge => ?_, hlast, hdone⟩
    rcases List.mem_cons.mp hedge with rfl | hedge
    · exact Edge.proper hregistry hdomains hm hepoch
    · exact hproper edge hedge

/-- **Migration progress.**  From every authority of a registry, `Next` succeeds as often as there
are pending migrations and then fails; it applies them in the order of the registry, each with its
dependencies applied, each moving one domain by one epoch through accepted histories, and the last
authority is complete with every domain at its current epoch.  `Next` fails exactly where
`Complete` succeeds. -/
theorem migration_progress (h : Handle) (domains : Domains) (a : Authority)
    (ha : Registry.history (some h) domains = .ok a) :
    (∃ pending edges b, Registry.pending (some h) a = .ok pending
      ∧ NextRun (some h) a edges b ∧ edges.length = pending.length
      ∧ edges.map (·.migration) = pending ∧ pending.Sublist h.data.migrations
      ∧ Linked a edges b ∧ (∀ edge ∈ edges, edge.Proper (some h))
      ∧ (∃ c, Registry.complete (some h) b = .ok c)
      ∧ ∀ name ∈ h.data.current.keys, b.domains.epoch name = h.data.current.getD name 0)
    ∧ ((∃ e, Registry.next (some h) a = .error e)
      ↔ ∃ c, Registry.complete (some h) a = .ok c) := by
  obtain ⟨f, rfl, hr, rfl⟩ := Registry.history_eq_ok.mp ha
  obtain rfl := Option.some.inj hr
  constructor
  · obtain ⟨edges, last, hrun, hlinked, hmap, hproper, hlast, hdone⟩ := exists_nextRun f
    refine ⟨f.pending, edges, some last, Registry.pending_some f, hrun, ?_, hmap,
      List.filter_sublist, hlinked, hproper, ?_, fun name hname => ?_⟩
    · rw [← hmap, List.length_map]
    · rw [← hlast]
      exact (Registry.complete_some last).mpr hdone
    · rw [← hlast] at hname ⊢
      exact Frontier.epoch_of_pending_nil hdone (last.sound.keys ▸ hname)
  · rw [Registry.complete_some]
    cases hpending : f.pending with
    | nil => simp [Registry.next_nil hpending]
    | cons m rest =>
        obtain ⟨f', hnext, _⟩ := Registry.next_cons hpending
        simp [hnext]

/-! ### Three migrations in two domains -/

def sampleMigrations : List Migration :=
  [⟨str "a2", str "a", 1, 2, str "files", []⟩,
    ⟨str "b2", str "b", 1, 2, str "files", [str "a2"]⟩,
    ⟨str "a3", str "a", 2, 3, str "files", [str "b2"]⟩]

def sampleEpochs (a b : ℤ) : Dict Bytes ℤ :=
  ((∅ : Dict Bytes ℤ).insert (str "a") a).insert (str "b") b

def sampleData : RegistryData :=
  { minimum := sampleEpochs 1 1, current := sampleEpochs 3 2, retired := ∅
    migrations := sampleMigrations
    ids := (((∅ : Dict Bytes ℕ).insert (str "a2") 0).insert (str "b2") 1).insert (str "a3") 2 }

def sampleRegistry : Handle where
  address := 0
  data := sampleData
  built := ⟨sampleEpochs 1 1, sampleEpochs 3 2, sampleMigrations, ∅, by decide +kernel⟩

/-- The first migration is applied. -/
def sampleDomains : Domains :=
  ((∅ : Domains).insert (str "a") ⟨2, [str "a2"]⟩).insert (str "b") ⟨1, []⟩

def sampleFrontier : Frontier := ⟨sampleRegistry, sampleDomains, by decide +kernel⟩

/-- Two migrations are left, in two domains. -/
theorem migration_progress_sample :
    Registry.history (some sampleRegistry) sampleDomains = .ok (some sampleFrontier)
      ∧ ∃ edges b, NextRun (some sampleRegistry) (some sampleFrontier) edges b
        ∧ edges.length = 2 := by
  have ha : Registry.history (some sampleRegistry) sampleDomains = .ok (some sampleFrontier) :=
    Registry.history_eq_ok.mpr ⟨sampleFrontier, rfl, rfl, rfl⟩
  obtain ⟨⟨pending, edges, b, hpending, hrun, hlength, _⟩, _⟩ :=
    migration_progress sampleRegistry sampleDomains _ ha
  obtain rfl := Except.ok.inj ((Registry.pending_some sampleFrontier).symm.trans hpending)
  refine ⟨ha, edges, b, hrun, ?_⟩
  rw [hlength]
  decide +kernel

end Subyard.History
