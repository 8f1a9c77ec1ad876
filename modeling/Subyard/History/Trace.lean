import Subyard.History.Next

/-!
The trace of a journal of migrations, from an observed authority anywhere on it.

`TraceFrom` finds the cut between what is applied and what is pending, peels the applied part off
the observed authority, newest migration first, and replays the whole list from there.

* `Path`: authorities that follow each other by enabled migrations, in any order of the domains.
* `Registry.retreat_eq_ok`: **peeling a migration off is the converse of applying it**.
* `traceFrom_eq_ok`: what a trace is: a path to the observed authority, then steps of `Next`.
* `trace_from_observed`: **soundness, completeness, and the same trace from every later authority**.
-/

namespace Subyard.History

open Text Fallible

structure Trace where
  initial : Authority
  terminal : Authority
  edges : List Edge
deriving DecidableEq

namespace Registry

/-- The id is that of a migration of the registry. -/
def knows : Registry → Bytes → Bool
  | some h, id => (h.data.ids.lookup id).isSome
  | none, _ => false

/-- The migration of an id. -/
def named : Registry → Bytes → Migration
  | some h, id => h.data.migrations.getD (h.data.ids.getD id 0) default
  | none, _ => default

/-- The loop that looks for the cut; `total` stands for no cut yet. -/
def scanCut (r : Registry) (observed : Authority) (total : ℕ) :
    ℕ → List Bytes → ℕ → List Bytes → Except Bytes ℕ
  | _, _, cut, [] => .ok cut
  | i, seen, cut, id :: ids => do
      refuse (¬ r.knows id ∨ id ∈ seen)
        (str "trace has unknown or duplicate migration " ++ quoted id)
      let m := r.named id
      if observed.domains.epoch m.domain < m.toEpoch then
        r.scanCut observed total (i + 1) (id :: seen) (if cut = total then i else cut) ids
      else do
        refuse (cut ≠ total) (str "observed frontier is not a trace cut")
        r.scanCut observed total (i + 1) (id :: seen) cut ids

/-- One round of the backward loop. -/
def retreat (r : Registry) (a : Authority) (m : Migration) : Except Bytes Authority := do
  let state := a.domains.getD m.domain ⟨0, []⟩
  refuse (state.epoch ≠ m.toEpoch ∨ state.applied = [] ∨ state.applied.getLast? ≠ some m.id)
    (str "trace is not the exact historical domain prefix")
  r.history (a.domains.insert m.domain ⟨m.fromEpoch, state.applied.dropLast⟩)

/-- The backward loop, over the ids before the cut from the last to the first. -/
def peel (r : Registry) : Authority → List Bytes → Except Bytes Authority
  | a, [] => .ok a
  | a, id :: ids => do
      let a ← r.retreat a (r.named id)
      r.peel a ids

/-- The edge of one round of the forward loop. -/
def replayStep (r : Registry) (cut i : ℕ) (cursor : Authority) (id : Bytes) : Except Bytes Edge :=
  if i < cut then r.advance cursor (r.named id)
  else do
    let edge ← r.next cursor
    refuse (edge.migration.id ≠ id)
      (str "pending trace migration " ++ quoted id ++ str " is not the canonical next transition")
    pure edge

/-- The forward loop. -/
def replay (r : Registry) (cut : ℕ) :
    ℕ → Authority → List Bytes → Except Bytes (List Edge × Authority)
  | _, cursor, [] => .ok ([], cursor)
  | i, cursor, id :: ids => do
      let edge ← r.replayStep cut i cursor id
      let (edges, terminal) ← r.replay cut (i + 1) edge.after ids
      pure (edge :: edges, terminal)

/-- `TraceFrom`. -/
def traceFrom (r : Registry) (observed : Authority) (ids : List Bytes) : Except Bytes Trace := do
  refuse (¬ r.owns observed) (str "zero or foreign migration authority")
  let cut ← r.scanCut observed ids.length 0 [] ids.length ids
  let initial ← r.peel observed (ids.take cut).reverse
  let (edges, terminal) ← r.replay cut 0 initial ids
  pure ⟨initial, terminal, edges⟩

end Registry

/-! ### Paths -/

/-- Authorities accepted by `History` that follow each other by migrations of the registry. -/
inductive Path (r : Registry) : Authority → List Edge → Authority → Prop
  | nil {a : Authority} (h : r.history a.domains = .ok a) : Path r a [] a
  | cons {a b : Authority} {m : Migration} {edge : Edge} {edges : List Edge}
      (hm : m ∈ r.migrations) (h : r.advance a m = .ok edge) (rest : Path r edge.after edges b) :
      Path r a (edge :: edges) b

/-- `Next` is applied several times, not necessarily until it fails. -/
inductive NextSteps (r : Registry) : Authority → List Edge → Authority → Prop
  | nil {a : Authority} (h : r.history a.domains = .ok a) : NextSteps r a [] a
  | cons {a b : Authority} {edge : Edge} {edges : List Edge} (h : r.next a = .ok edge)
      (rest : NextSteps r edge.after edges b) : NextSteps r a (edge :: edges) b

/-- The ids of the migrations of some edges. -/
def idsOf (edges : List Edge) : List Bytes := edges.map (·.migration.id)

section Paths

variable {h : Handle} {a b c : Authority} {edges edges' : List Edge}

lemma owned_of_history (ha : Registry.history (some h) a.domains = .ok a) :
    ∃ f : Frontier, a = some f ∧ f.registry = h := by
  obtain ⟨f, rfl, hr, _⟩ := Registry.history_eq_ok.mp ha
  exact ⟨f, rfl, (Option.some.inj hr).symm⟩

lemma history_self (f : Frontier) :
    Registry.history (some f.registry) (Authority.domains (some f)) = .ok (some f) :=
  Registry.history_eq_ok.mpr ⟨f, rfl, rfl, rfl⟩

/-- The ends of a step. -/
lemma advance_ends {m : Migration} {edge : Edge} (ha : Registry.advance (some h) a m = .ok edge) :
    ∃ f f' : Frontier, a = some f ∧ edge = ⟨some f, some f', m⟩ ∧ f.registry = h
      ∧ f'.registry = h ∧ f.domains.epoch m.domain = m.fromEpoch
      ∧ f'.domains = f.domains.apply m := by
  obtain ⟨f, f', rfl, hr, hepoch, hregistry, hdomains, rfl⟩ := Registry.advance_eq_ok.mp ha
  obtain rfl := Option.some.inj hr
  exact ⟨f, f', rfl, rfl, rfl, hregistry, hepoch, hdomains⟩

lemma Path.owned_left (hp : Path (some h) a edges b) : ∃ f : Frontier, a = some f ∧ f.registry = h := by
  cases hp with
  | nil ha => exact owned_of_history ha
  | cons _ ha _ =>
    obtain ⟨f, _, rfl, _, hf, _⟩ := advance_ends ha
    exact ⟨f, rfl, hf⟩

lemma Path.owned_right (hp : Path (some h) a edges b) : ∃ f : Frontier, b = some f ∧ f.registry = h := by
  induction hp with
  | nil ha => exact owned_of_history ha
  | cons _ _ _ ih => exact ih

lemma Path.linked (hp : Path (some h) a edges b) : Linked a edges b := by
  induction hp with
  | nil => rfl
  | cons _ ha _ ih =>
    obtain ⟨f, f', rfl, rfl, _⟩ := advance_ends ha
    exact ⟨rfl, ih⟩

lemma Path.trans (hab : Path (some h) a edges b) (hbc : Path (some h) b edges' c) :
    Path (some h) a (edges ++ edges') c := by
  induction hab with
  | nil => exact hbc
  | cons hm ha _ ih => exact .cons hm ha (ih hbc)

lemma Path.split (hp : Path (some h) a (edges ++ edges') c) :
    ∃ b, Path (some h) a edges b ∧ Path (some h) b edges' c := by
  induction edges generalizing a with
  | nil =>
    obtain ⟨f, rfl, rfl⟩ := hp.owned_left
    exact ⟨some f, .nil (history_self f), hp⟩
  | cons edge edges ih =>
    cases hp with
    | cons hm ha rest =>
      obtain ⟨b, hleft, hright⟩ := ih rest
      exact ⟨b, .cons hm ha hleft, hright⟩

lemma Linked.right_unique : ∀ {edges : List Edge} {a b b' : Authority},
    Linked a edges b → Linked a edges b' → b = b'
  | [], _, _, _, hb, hb' => hb.symm.trans hb'
  | _ :: _, _, _, _, hb, hb' => Linked.right_unique hb.2 hb'.2

/-- **What a path adds**: its migrations, each of which was pending before, and nothing else. -/
lemma Path.has {f g : Frontier} (hp : Path (some h) (some f) edges (some g)) :
    (∀ p ∈ h.data.migrations, g.domains.Has p ↔ f.domains.Has p ∨ p ∈ edges.map (·.migration))
      ∧ (∀ p ∈ edges.map (·.migration), p ∈ h.data.migrations ∧ ¬ f.domains.Has p)
      ∧ (edges.map (·.migration)).Nodup := by
  induction edges generalizing f with
  | nil =>
    cases hp
    exact ⟨by simp, by simp, by simp⟩
  | cons edge edges ih =>
    cases hp with
    | cons hm ha rest =>
      rename_i m
      obtain ⟨f', f'', heq, rfl, rfl, hregistry, hepoch, hdomains⟩ := advance_ends ha
      obtain rfl := Option.some.inj heq
      obtain ⟨hhas, hfresh, hnodup⟩ := ih rest
      have happly : ∀ p ∈ f.registry.data.migrations,
          f''.domains.Has p ↔ f.domains.Has p ∨ p = m := by
        intro p hp
        rw [hdomains]
        exact Domains.has_apply f.sound hm hepoch hp
      have hm_fresh : ¬ f.domains.Has m := by
        rw [Domains.Has, hepoch, f.sound.step m hm]
        omega
      refine ⟨fun p hp => ?_, ?_, ?_⟩
      · rw [hhas p hp, happly p hp, List.map_cons, List.mem_cons, or_assoc]
      · rintro p (_ | ⟨_, hp⟩)
        · exact ⟨hm, hm_fresh⟩
        · obtain ⟨hmem, hnot⟩ := hfresh p hp
          exact ⟨hmem, fun hold => hnot ((happly p hmem).mpr (.inl hold))⟩
      · rw [List.map_cons, List.nodup_cons]
        exact ⟨fun hmem => (hfresh m hmem).2 ((happly m hm).mpr (.inr rfl)), hnodup⟩

/-- A path does not come back. -/
lemma Path.eq_nil_of_cycle (hp : Path (some h) a edges a) : edges = [] := by
  obtain ⟨f, rfl, rfl⟩ := hp.owned_left
  obtain ⟨hhas, hfresh, _⟩ := hp.has
  by_contra hne
  obtain ⟨edge, hedge⟩ := List.exists_mem_of_ne_nil _ hne
  have hmem := List.mem_map_of_mem (f := (·.migration)) hedge
  obtain ⟨hm, hnot⟩ := hfresh _ hmem
  exact hnot ((hhas _ hm).mpr (.inr hmem))

/-- A path visits an authority once. -/
lemma Path.eq_nil_of_revisit {edges'' : List Edge}
    (hp : Path (some h) a (edges ++ edges' ++ edges'') c) (hfirst : Linked a edges b)
    (hagain : Linked a (edges ++ edges') b) : edges' = [] := by
  obtain ⟨b', hleft, _⟩ := hp.split
  obtain rfl := Linked.right_unique hleft.linked hagain
  obtain ⟨b'', hleft, hcycle⟩ := hleft.split
  obtain rfl := Linked.right_unique hleft.linked hfirst
  exact hcycle.eq_nil_of_cycle

lemma advance_of_next {edge : Edge} (hnext : Registry.next (some h) a = .ok edge) :
    ∃ m ∈ h.data.migrations, Registry.advance (some h) a m = .ok edge := by
  obtain ⟨pending, hpending, hmatch⟩ := of_bind_ok hnext
  obtain ⟨_, hlist⟩ := refuse_bind.mp hpending
  cases hlist
  split at hmatch
  · cases hmatch
  · rename_i m rest heq
    have hm : m ∈ h.data.migrations := List.mem_of_mem_filter (heq ▸ List.mem_cons_self ..)
    exact ⟨m, hm, hmatch⟩

/-- Steps of `Next` are steps of a path. -/
lemma NextSteps.path (hs : NextSteps (some h) a edges b) : Path (some h) a edges b := by
  induction hs with
  | nil ha => exact .nil ha
  | cons hnext _ ih =>
    obtain ⟨m, hm, ha⟩ := advance_of_next hnext
    exact .cons hm ha ih

lemma NextSteps.split (hs : NextSteps (some h) a (edges ++ edges') c) :
    ∃ b, NextSteps (some h) a edges b ∧ NextSteps (some h) b edges' c := by
  induction edges generalizing a with
  | nil =>
    obtain ⟨f, rfl, rfl⟩ := hs.path.owned_left
    exact ⟨some f, .nil (history_self f), hs⟩
  | cons edge edges ih =>
    cases hs with
    | cons hnext rest =>
      obtain ⟨b, hleft, hright⟩ := ih rest
      exact ⟨b, .cons hnext hleft, hright⟩

lemma NextSteps.append_run (hs : NextSteps (some h) a edges b)
    (hrun : NextRun (some h) b edges' c) : NextRun (some h) a (edges ++ edges') c := by
  induction hs with
  | nil => exact hrun
  | cons hnext _ ih => exact .step hnext (ih hrun)

lemma NextRun.take (hrun : NextRun (some h) a edges b)
    (ha : Registry.history (some h) a.domains = .ok a) (n : ℕ) :
    ∃ c, NextSteps (some h) a (edges.take n) c := by
  induction hrun generalizing n with
  | done => exact ⟨_, by rw [List.take_nil]; exact .nil ha⟩
  | step hnext _ ih =>
    cases n with
    | zero => exact ⟨_, .nil ha⟩
    | succ n =>
      obtain ⟨m, _, hadvance⟩ := advance_of_next hnext
      obtain ⟨_, f', _, rfl, _, rfl, _⟩ := advance_ends hadvance
      obtain ⟨c, hc⟩ := ih (history_self f') n
      exact ⟨c, .cons hnext hc⟩

/-- **The beginnings of the canonical sequence are the sequences of steps.** -/
lemma nextSteps_iff_canonical {ids : List Bytes}
    (ha : Registry.history (some h) a.domains = .ok a) :
    (∃ edges b, NextSteps (some h) a edges b ∧ idsOf edges = ids)
      ↔ ∃ edges b, NextRun (some h) a edges b ∧ ids <+: idsOf edges := by
  constructor
  · rintro ⟨edges, b, hs, rfl⟩
    obtain ⟨g, rfl, rfl⟩ := hs.path.owned_right
    obtain ⟨rest, last, hrun, _⟩ := exists_nextRun g
    exact ⟨edges ++ rest, some last, hs.append_run hrun, by simp [idsOf]⟩
  · rintro ⟨edges, b, hrun, hprefix⟩
    obtain ⟨c, hc⟩ := hrun.take ha ids.length
    refine ⟨edges.take ids.length, c, hc, ?_⟩
    rw [idsOf, List.map_take]
    exact (List.prefix_iff_eq_take.mp hprefix).symm

/-! ### Names -/

lemma knows_iff {id : Bytes} :
    Registry.knows (some h) id ↔ ∃ m ∈ h.data.migrations, m.id = id := by
  rw [Registry.knows, Dict.isSome_lookup_iff]
  constructor
  · intro hid
    obtain ⟨i, hi⟩ := Dict.exists_lookup hid
    obtain ⟨m, hm, hmid⟩ := h.sound.index id i hi
    exact ⟨m, List.mem_of_getElem? hm, hmid⟩
  · rintro ⟨m, hm, rfl⟩
    exact h.sound.indexed m hm

lemma named_of_mem {m : Migration} (hm : m ∈ h.data.migrations) :
    Registry.named (some h) m.id = m := by
  obtain ⟨i, hi⟩ := Dict.exists_lookup (h.sound.indexed m hm)
  obtain ⟨m', hm', hid⟩ := h.sound.index m.id i hi
  rw [Registry.named, Dict.getD_of_lookup hi, List.getD_eq_getElem?_getD, hm', Option.getD_some]
  exact h.sound.eq_of_id (List.mem_of_getElem? hm') hm hid

lemma named_mem {id : Bytes} (hid : Registry.knows (some h) id) :
    Registry.named (some h) id ∈ h.data.migrations ∧ (Registry.named (some h) id).id = id := by
  obtain ⟨m, hm, rfl⟩ := knows_iff.mp hid
  rw [named_of_mem hm]
  exact ⟨hm, rfl⟩

/-! ### The three loops -/

/-- **Peeling a migration off is the converse of applying it.** -/
lemma Registry.retreat_eq_ok {m : Migration} {f : Frontier} (hm : m ∈ f.registry.data.migrations) :
    Registry.retreat (some f.registry) (some f) m = .ok a
      ↔ Registry.advance (some f.registry) a m = .ok ⟨a, some f, m⟩ := by
  have hkey : m.domain ∈ f.domains.keys := f.accepts.keys ▸ (f.sound.safe m hm).2
  obtain ⟨state, hstate⟩ := Dict.exists_lookup hkey
  have hget : (Authority.domains (some f)).getD m.domain ⟨0, []⟩ = state :=
    Dict.getD_of_lookup hstate
  rw [Registry.retreat, hget, refuse_bind, Registry.history_eq_ok, Registry.advance_eq_ok]
  simp only [not_or, not_not]
  constructor
  · rintro ⟨⟨hepoch, _, hlast⟩, g, rfl, hregistry, hdomains⟩
    refine ⟨g, f, rfl, hregistry, ?_, Option.some.inj hregistry, ?_, rfl⟩
    · rw [hdomains, Domains.epoch, Dict.getD_insert_self]
    · -- the applied list ends with the id that was peeled off
      have happlied : state.applied.dropLast ++ [m.id] = state.applied :=
        List.dropLast_append_getLast? _ hlast
      rw [Domains.apply, hdomains, Dict.getD_insert_self, Finmap.insert_insert, happlied, ← hepoch]
      exact (Dict.insert_lookup_self hstate).symm
  · rintro ⟨g, f', rfl, hregistry, hepoch, _, hdomains, hedge⟩
    cases hedge
    have hregistry' : f.registry = g.registry := Option.some.inj hregistry
    obtain ⟨old, hold⟩ := Dict.exists_lookup
      (g.accepts.keys ▸ hregistry' ▸ (f.sound.safe m hm).2 : m.domain ∈ g.domains.keys)
    rw [Domains.apply, Dict.getD_of_lookup hold] at hdomains
    rw [hdomains, Finmap.lookup_insert] at hstate
    cases hstate
    have hfrom : (⟨m.fromEpoch, old.applied⟩ : DomainState) = old := by
      rw [← hepoch, RegistryData.epoch_of_lookup hold]
    refine ⟨⟨rfl, by simp, by simp⟩, g, rfl, hregistry, ?_⟩
    show g.domains = Finmap.insert _ _ f.domains
    rw [hdomains, Finmap.insert_insert, List.dropLast_concat, hfrom]
    exact (Dict.insert_lookup_self hold).symm

/-- The backward loop follows a path back to its beginning. -/
lemma Registry.peel_eq_ok {ids : List Bytes} (hids : ∀ id ∈ ids, Registry.knows (some h) id)
    (hb : Registry.history (some h) b.domains = .ok b) :
    Registry.peel (some h) b ids = .ok a
      ↔ ∃ edges, Path (some h) a edges b ∧ idsOf edges = ids.reverse := by
  induction ids generalizing b with
  | nil =>
    rw [Registry.peel]
    constructor
    · rintro ⟨⟩
      exact ⟨[], .nil hb, rfl⟩
    · rintro ⟨edges, hpath, hnil⟩
      obtain rfl : edges = [] := List.map_eq_nil_iff.mp hnil
      cases hpath
      rfl
  | cons id ids ih =>
    obtain ⟨hid, hids⟩ := List.forall_mem_cons.mp hids
    obtain ⟨hm, hmid⟩ := named_mem hid
    obtain ⟨f, rfl, rfl⟩ := owned_of_history hb
    constructor
    · intro hpeel
      obtain ⟨c, hretreat, hrest⟩ := of_bind_ok hpeel
      have hadvance := (retreat_eq_ok hm).mp hretreat
      obtain ⟨g, _, rfl, _, hg, _⟩ := advance_ends hadvance
      obtain ⟨edges, hpath, hedges⟩ := (ih hids (hg ▸ history_self g)).mp hrest
      refine ⟨edges ++ [⟨some g, some f, Registry.named _ id⟩],
        hpath.trans (.cons hm hadvance (.nil hb)), ?_⟩
      rw [idsOf, List.map_append, List.reverse_cons, ← hedges]
      simp [idsOf, hmid]
    · rintro ⟨edges, hpath, hedges⟩
      rw [idsOf, List.reverse_cons, List.map_eq_append_iff] at hedges
      obtain ⟨front, last, rfl, hfront, hlast⟩ := hedges
      obtain ⟨edge, rfl, hedge⟩ := List.map_eq_singleton_iff.mp hlast
      obtain ⟨c, hleft, hright⟩ := hpath.split
      cases hright with
      | cons hm' hadvance hend =>
        rename_i m
        obtain ⟨g, f', rfl, rfl, hg, _⟩ := advance_ends hadvance
        cases hend
        obtain rfl : Registry.named _ id = m := by
          rw [← hedge]
          exact named_of_mem hm'
        have hretreat := (retreat_eq_ok hm).mpr hadvance
        rw [Registry.peel, hretreat]
        exact (ih hids (hg ▸ history_self g)).mpr ⟨front, hleft, hfront⟩

lemma Registry.replayStep_early {cut i : ℕ} {m : Migration} (hm : m ∈ h.data.migrations)
    (hcut : i < cut) :
    Registry.replayStep (some h) cut i a m.id = Registry.advance (some h) a m := by
  rw [Registry.replayStep, if_pos hcut, named_of_mem hm]

lemma Registry.replayStep_late {r : Registry} {cut i : ℕ} {id : Bytes} {edge : Edge}
    (hcut : cut ≤ i) :
    r.replayStep cut i a id = .ok edge ↔ r.next a = .ok edge ∧ edge.migration.id = id := by
  rw [Registry.replayStep, if_neg (by omega)]
  constructor
  · intro hstep
    obtain ⟨edge', hnext, hstep⟩ := of_bind_ok hstep
    obtain ⟨hid, hstep⟩ := refuse_bind.mp hstep
    cases hstep
    exact ⟨hnext, not_not.mp hid⟩
  · rintro ⟨hnext, hid⟩
    rw [hnext]
    exact refuse_bind.mpr ⟨not_not.mpr hid, rfl⟩

lemma Registry.replay_cons {r : Registry} {cut i : ℕ} {id : Bytes} {ids : List Bytes} :
    r.replay cut i a (id :: ids) = .ok (edges, b)
      ↔ ∃ edge rest, edges = edge :: rest ∧ r.replayStep cut i a id = .ok edge
        ∧ r.replay cut (i + 1) edge.after ids = .ok (rest, b) := by
  rw [Registry.replay]
  constructor
  · intro hok
    obtain ⟨edge, hedge, hok⟩ := of_bind_ok hok
    obtain ⟨⟨rest, terminal⟩, hrest, hok⟩ := of_bind_ok hok
    cases hok
    exact ⟨edge, rest, rfl, hedge, hrest⟩
  · rintro ⟨edge, rest, rfl, hedge, hrest⟩
    rw [hedge]
    show (r.replay cut (i + 1) edge.after ids >>= _) = _
    rw [hrest]
    rfl

/-- The forward loop before the cut goes along the path. -/
lemma Registry.replay_path {cut i : ℕ} {ids : List Bytes} {all : List Edge}
    (hpath : Path (some h) a edges b) (hcut : i + edges.length ≤ cut) :
    Registry.replay (some h) cut i a (idsOf edges ++ ids) = .ok (all, c)
      ↔ ∃ rest, all = edges ++ rest
        ∧ Registry.replay (some h) cut (i + edges.length) b ids = .ok (rest, c) := by
  induction hpath generalizing i all with
  | nil => simp [idsOf]
  | @cons _ _ m edge edges hm hadvance _ ih =>
    obtain ⟨_, f', rfl, rfl, _⟩ := advance_ends hadvance
    rw [List.length_cons] at hcut ⊢
    rw [idsOf, List.map_cons, List.cons_append, Registry.replay_cons,
      Registry.replayStep_early hm (by omega), hadvance,
      show i + (edges.length + 1) = i + 1 + edges.length by omega]
    constructor
    · rintro ⟨edge, rest, rfl, hedge, hrest⟩
      cases hedge
      obtain ⟨tail, rfl, htail⟩ := (ih (by omega)).mp hrest
      exact ⟨tail, rfl, htail⟩
    · rintro ⟨tail, rfl, htail⟩
      exact ⟨_, _, rfl, rfl, (ih (by omega)).mpr ⟨tail, rfl, htail⟩⟩

/-- The forward loop after the cut takes steps of `Next`. -/
lemma Registry.replay_next {cut i : ℕ} {ids : List Bytes} (hcut : cut ≤ i)
    (ha : Registry.history (some h) a.domains = .ok a) :
    Registry.replay (some h) cut i a ids = .ok (edges, b)
      ↔ NextSteps (some h) a edges b ∧ idsOf edges = ids := by
  induction ids generalizing i a edges with
  | nil =>
    rw [Registry.replay]
    constructor
    · rintro ⟨⟩
      exact ⟨.nil ha, rfl⟩
    · rintro ⟨hsteps, hnil⟩
      obtain rfl : edges = [] := List.map_eq_nil_iff.mp hnil
      cases hsteps
      rfl
  | cons id ids ih =>
    rw [Registry.replay_cons]
    simp only [Registry.replayStep_late hcut]
    constructor
    · rintro ⟨edge, rest, rfl, ⟨hnext, hid⟩, hrest⟩
      obtain ⟨m, _, hadvance⟩ := advance_of_next hnext
      obtain ⟨_, f', _, rfl, _, rfl, _⟩ := advance_ends hadvance
      obtain ⟨hsteps, hids⟩ := (ih (by omega) (history_self f')).mp hrest
      exact ⟨.cons hnext hsteps, by rw [idsOf, List.map_cons, ← hids, ← hid]; rfl⟩
    · rintro ⟨hsteps, hids⟩
      cases hsteps with
      | nil => cases hids
      | cons hnext hsteps =>
        obtain ⟨m, _, hadvance⟩ := advance_of_next hnext
        obtain ⟨_, f', _, rfl, _, rfl, _⟩ := advance_ends hadvance
        obtain ⟨hid, htail⟩ := List.cons.inj hids
        exact ⟨_, _, rfl, ⟨hnext, hid⟩, (ih (by omega) (history_self f')).mpr ⟨hsteps, htail⟩⟩

end Paths

/-! ### The cut -/

section Cut

variable {r : Registry} {observed : Authority} {total i cut c : ℕ} {seen ids : List Bytes}

/-- Known ids, none of them twice and none seen before. -/
def Fresh (r : Registry) (seen ids : List Bytes) : Prop :=
  (∀ id ∈ ids, r.knows id ∧ id ∉ seen) ∧ ids.Nodup

lemma fresh_nil : Fresh r seen [] := ⟨fun _ h => (by cases h), .nil⟩

lemma fresh_cons {id : Bytes} :
    Fresh r seen (id :: ids) ↔ (r.knows id ∧ id ∉ seen) ∧ Fresh r (id :: seen) ids := by
  rw [Fresh, Fresh, List.forall_mem_cons, List.nodup_cons]
  simp only [List.mem_cons, not_or]
  constructor
  · rintro ⟨⟨hid, hids⟩, hnot, hnodup⟩
    exact ⟨hid, fun id' hid' => ⟨(hids id' hid').1, fun heq => hnot (heq ▸ hid'), (hids id' hid').2⟩,
      hnodup⟩
  · rintro ⟨hid, hids, hnodup⟩
    exact ⟨⟨hid, fun id' hid' => ⟨(hids id' hid').1, (hids id' hid').2.2⟩⟩,
      fun hmem => (hids id hmem).2.1 rfl, hnodup⟩

/-- The migration of the id is applied. -/
def AppliedAt (r : Registry) (observed : Authority) (id : Bytes) : Prop :=
  observed.domains.Has (r.named id)

/-- One round of the scan. -/
lemma scanCut_cons {id : Bytes} :
    r.scanCut observed total i seen cut (id :: ids) = .ok c
      ↔ (r.knows id ∧ id ∉ seen)
        ∧ (¬ AppliedAt r observed id ∧ r.scanCut observed total (i + 1) (id :: seen)
            (if cut = total then i else cut) ids = .ok c
          ∨ AppliedAt r observed id ∧ cut = total
            ∧ r.scanCut observed total (i + 1) (id :: seen) cut ids = .ok c) := by
  rw [Registry.scanCut, refuse_bind, not_or, not_not]
  refine and_congr_right fun _ => ?_
  show (if observed.domains.epoch (r.named id).domain < (r.named id).toEpoch then _ else _) = _ ↔ _
  rw [AppliedAt, Domains.Has]
  split
  · rename_i hlt
    simp [not_le.mpr hlt]
  · rename_i hlt
    simp [not_lt.mp hlt, refuse_bind]

/-- Behind the cut everything has to be pending. -/
lemma scanCut_behind (hcut : cut ≠ total) :
    r.scanCut observed total i seen cut ids = .ok c
      ↔ c = cut ∧ Fresh r seen ids ∧ ∀ id ∈ ids, ¬ AppliedAt r observed id := by
  induction ids generalizing i seen with
  | nil =>
    rw [Registry.scanCut]
    exact ⟨fun h => ⟨(Except.ok.inj h).symm, fresh_nil, fun _ h => (by cases h)⟩,
      fun h => by rw [h.1]⟩
  | cons id ids ih =>
    rw [scanCut_cons, fresh_cons, List.forall_mem_cons, if_neg hcut, ih]
    constructor
    · rintro ⟨hid, ⟨hpending, rfl, hfresh, hrest⟩ | ⟨_, heq, _⟩⟩
      · exact ⟨rfl, ⟨hid, hfresh⟩, hpending, hrest⟩
      · exact absurd heq hcut
    · rintro ⟨rfl, ⟨hid, hfresh⟩, hpending, hrest⟩
      exact ⟨hid, .inl ⟨hpending, rfl, hfresh, hrest⟩⟩

/-- **The cut separates what is applied from what is pending.** -/
lemma scanCut_before (htotal : i + ids.length = total) :
    r.scanCut observed total i seen total ids = .ok c
      ↔ Fresh r seen ids ∧ ∃ done todo, ids = done ++ todo ∧ c = i + done.length
        ∧ (∀ id ∈ done, AppliedAt r observed id) ∧ ∀ id ∈ todo, ¬ AppliedAt r observed id := by
  induction ids generalizing i seen with
  | nil =>
    rw [Registry.scanCut]
    constructor
    · rintro ⟨⟩
      exact ⟨fresh_nil, [], [], rfl, htotal.symm, by simp, by simp⟩
    · rintro ⟨_, done, todo, hnil, rfl, _⟩
      obtain ⟨rfl, _⟩ := List.append_eq_nil_iff.mp hnil.symm
      exact congrArg _ htotal.symm
  | cons id ids ih =>
    rw [List.length_cons] at htotal
    rw [scanCut_cons, fresh_cons, if_pos rfl, scanCut_behind (by omega), ih (by omega)]
    constructor
    · rintro ⟨hid, ⟨hpending, rfl, hfresh, hrest⟩ | ⟨happlied, _, hfresh, done, todo, rfl, rfl, hd, ht⟩⟩
      · exact ⟨⟨hid, hfresh⟩, [], id :: ids, rfl, rfl, by simp,
          List.forall_mem_cons.mpr ⟨hpending, hrest⟩⟩
      · exact ⟨⟨hid, hfresh⟩, id :: done, todo, rfl, by rw [List.length_cons]; omega,
          List.forall_mem_cons.mpr ⟨happlied, hd⟩, ht⟩
    · rintro ⟨⟨hid, hfresh⟩, done, todo, hsplit, rfl, hd, ht⟩
      refine ⟨hid, ?_⟩
      cases done with
      | nil =>
        obtain rfl : id :: ids = todo := hsplit
        obtain ⟨hpending, hrest⟩ := List.forall_mem_cons.mp ht
        exact .inl ⟨hpending, rfl, hfresh, hrest⟩
      | cons first done =>
        obtain ⟨rfl, rfl⟩ := List.cons.inj hsplit
        obtain ⟨happlied, hrest⟩ := List.forall_mem_cons.mp hd
        exact .inr ⟨happlied, rfl, hfresh, done, todo, rfl, by rw [List.length_cons]; omega,
          hrest, ht⟩

end Cut

/-! ### Traces -/

section Traces

variable {h : Handle} {observed : Authority} {ids : List Bytes}

lemma mem_idsOf {edges : List Edge} {id : Bytes} (hid : id ∈ idsOf edges) :
    ∃ m ∈ edges.map (·.migration), m.id = id := by
  obtain ⟨edge, hedge, rfl⟩ := List.mem_map.mp hid
  exact ⟨edge.migration, List.mem_map_of_mem hedge, rfl⟩

/-- The ids of a path: known and different, pending at its beginning and applied at its end. -/
lemma Path.separates {a b : Authority} {edges : List Edge} (hp : Path (some h) a edges b) :
    Fresh (some h) [] (idsOf edges) ∧ (∀ id ∈ idsOf edges, ¬ AppliedAt (some h) a id)
      ∧ ∀ id ∈ idsOf edges, AppliedAt (some h) b id := by
  obtain ⟨f, rfl, rfl⟩ := hp.owned_left
  obtain ⟨g, rfl, _⟩ := hp.owned_right
  obtain ⟨hhas, hfresh, hnodup⟩ := hp.has
  refine ⟨⟨fun id hid => ?_, ?_⟩, fun id hid => ?_, fun id hid => ?_⟩
  · obtain ⟨m, hm, rfl⟩ := mem_idsOf hid
    exact ⟨knows_iff.mpr ⟨m, (hfresh m hm).1, rfl⟩, List.not_mem_nil⟩
  · rw [show idsOf edges = (edges.map (·.migration)).map (·.id) by simp [idsOf]]
    exact hnodup.map_on fun m hm m' hm' heq =>
      f.sound.eq_of_id (hfresh m hm).1 (hfresh m' hm').1 heq
  · obtain ⟨m, hm, rfl⟩ := mem_idsOf hid
    rw [AppliedAt, named_of_mem (hfresh m hm).1]
    exact (hfresh m hm).2
  · obtain ⟨m, hm, rfl⟩ := mem_idsOf hid
    rw [AppliedAt, named_of_mem (hfresh m hm).1]
    exact (hhas m (hfresh m hm).1).mpr (.inr hm)

/-- **What a trace is**: a path to the observed authority and steps of `Next` from there. -/
lemma traceFrom_eq_ok {trace : Trace} :
    Registry.traceFrom (some h) observed ids = .ok trace
      ↔ ∃ first last, Path (some h) trace.initial first observed
        ∧ NextSteps (some h) observed last trace.terminal
        ∧ trace.edges = first ++ last ∧ ids = idsOf (first ++ last) := by
  rw [Registry.traceFrom, refuse_bind, not_not]
  constructor
  · rintro ⟨howns, hok⟩
    obtain ⟨f, rfl, hr⟩ := Registry.owns_iff.mp howns
    obtain rfl := Option.some.inj hr
    obtain ⟨cut, hcut, hok⟩ := of_bind_ok hok
    obtain ⟨initial, hpeel, hok⟩ := of_bind_ok hok
    obtain ⟨⟨edges, terminal⟩, hreplay, hok⟩ := of_bind_ok hok
    cases hok
    obtain ⟨hfresh, done, todo, rfl, rfl, _, _⟩ := (scanCut_before (Nat.zero_add _)).mp hcut
    rw [Nat.zero_add, List.take_left] at hpeel
    obtain ⟨first, hpath, hdone⟩ := (Registry.peel_eq_ok (fun id hid =>
      (hfresh.1 id (List.mem_append_left _ (List.mem_reverse.mp hid))).1) (history_self f)).mp hpeel
    rw [List.reverse_reverse] at hdone
    subst hdone
    have hlength : (idsOf first).length = first.length := List.length_map _
    obtain ⟨last, rfl, hlast⟩ := (Registry.replay_path hpath (by omega)).mp hreplay
    obtain ⟨hsteps, rfl⟩ := (Registry.replay_next (by omega) (history_self f)).mp hlast
    exact ⟨first, last, hpath, hsteps, rfl, (List.map_append ..).symm⟩
  · rintro ⟨first, last, hpath, hsteps, hedges, rfl⟩
    obtain ⟨f, rfl, rfl⟩ := hpath.owned_right
    have hlength : (idsOf first).length = first.length := List.length_map _
    have hsplit : idsOf (first ++ last) = idsOf first ++ idsOf last := List.map_append ..
    have hcut : Registry.scanCut (some f.registry) (some f) (idsOf (first ++ last)).length 0 []
        (idsOf (first ++ last)).length (idsOf (first ++ last)) = .ok first.length :=
      (scanCut_before (Nat.zero_add _)).mpr ⟨(hpath.trans hsteps.path).separates.1, idsOf first,
        idsOf last, hsplit, by omega, hpath.separates.2.2, hsteps.path.separates.2.1⟩
    have hpeel : Registry.peel (some f.registry) (some f)
        ((idsOf (first ++ last)).take first.length).reverse = .ok trace.initial := by
      rw [hsplit, List.take_left' hlength]
      refine (Registry.peel_eq_ok (fun id hid => ?_) (history_self f)).mpr ⟨first, hpath, ?_⟩
      · exact (hpath.separates.1.1 id (List.mem_reverse.mp hid)).1
      · rw [List.reverse_reverse]
    have hreplay : Registry.replay (some f.registry) first.length 0 trace.initial
        (idsOf (first ++ last)) = .ok (trace.edges, trace.terminal) := by
      rw [hsplit, hedges]
      exact (Registry.replay_path hpath (by omega)).mpr ⟨last, rfl,
        (Registry.replay_next (by omega) (history_self f)).mpr ⟨hsteps, rfl⟩⟩
    refine ⟨Registry.owns_iff.mpr ⟨f, rfl, rfl⟩, ?_⟩
    rw [hcut]
    show (Registry.peel _ _ _ >>= _) = _
    rw [hpeel]
    show (Registry.replay _ _ _ _ _ >>= _) = _
    rw [hreplay]
    rfl

/-- **`TraceFrom` is sound, complete and stable under resumption.**  It succeeds exactly if the ids
split into migrations that lead, through accepted histories, from some authority to the observed
one and a beginning of the canonical sequence from there.  Its edges form a chain through the
observed authority with exactly the ids as migrations, and from every authority on the trace at or
behind the observed one the same trace is found again. -/
theorem trace_from_observed (h : Handle) (observed : Authority) (ids : List Bytes) :
    ((∃ trace, Registry.traceFrom (some h) observed ids = .ok trace)
      ↔ ∃ initial edges done todo, ids = done ++ todo ∧ Path (some h) initial edges observed
        ∧ idsOf edges = done
        ∧ ∃ canonical b, NextRun (some h) observed canonical b ∧ todo <+: idsOf canonical)
    ∧ ∀ trace, Registry.traceFrom (some h) observed ids = .ok trace →
      Linked trace.initial trace.edges trace.terminal ∧ idsOf trace.edges = ids
        ∧ (∃ first last, trace.edges = first ++ last ∧ Linked trace.initial first observed
          ∧ Linked observed last trace.terminal)
        ∧ ∀ first middle last later, trace.edges = first ++ middle ++ last →
          Linked trace.initial first observed → Linked observed middle later →
          Registry.traceFrom (some h) later ids = .ok trace := by
  constructor
  · constructor
    · rintro ⟨trace, htrace⟩
      obtain ⟨first, last, hpath, hsteps, _, hids⟩ := traceFrom_eq_ok.mp htrace
      obtain ⟨f, rfl, rfl⟩ := hpath.owned_right
      refine ⟨trace.initial, first, idsOf first, idsOf last, hids.trans (List.map_append ..),
        hpath, rfl, ?_⟩
      exact (nextSteps_iff_canonical (history_self f)).mp ⟨last, _, hsteps, rfl⟩
    · rintro ⟨initial, first, _, todo, rfl, hpath, rfl, hcanonical⟩
      obtain ⟨f, rfl, rfl⟩ := hpath.owned_right
      obtain ⟨last, b, hsteps, rfl⟩ := (nextSteps_iff_canonical (history_self f)).mpr hcanonical
      exact ⟨⟨initial, b, first ++ last⟩, traceFrom_eq_ok.mpr
        ⟨first, last, hpath, hsteps, rfl, (List.map_append ..).symm⟩⟩
  · intro trace htrace
    obtain ⟨first, last, hpath, hsteps, hedges, rfl⟩ := traceFrom_eq_ok.mp htrace
    have hall : Path (some h) trace.initial trace.edges trace.terminal :=
      hedges ▸ hpath.trans hsteps.path
    refine ⟨hall.linked, by rw [hedges], ⟨first, last, hedges, hpath.linked, hsteps.path.linked⟩, ?_⟩
    intro first' middle last' later hsplit hfirst hmiddle
    -- the observed authority stands at one place only
    have hsame : first' = first ∧ middle ++ last' = last := by
      rw [hedges, List.append_assoc] at hsplit
      rcases List.append_eq_append_iff.mp hsplit with ⟨extra, rfl, rfl⟩ | ⟨extra, rfl, hrest⟩
      · have hnil := Path.eq_nil_of_revisit (hsplit ▸ hedges ▸ hall) hpath.linked hfirst
        simp [hnil]
      · have hnil := Path.eq_nil_of_revisit (hedges ▸ hall) hfirst hpath.linked
        simp [hrest, hnil]
    obtain ⟨rfl, rfl⟩ := hsame
    obtain ⟨later', hleft, hright⟩ := hsteps.split
    obtain rfl := Linked.right_unique hleft.path.linked hmiddle
    refine traceFrom_eq_ok.mpr ⟨first' ++ middle, last', hpath.trans hleft.path, hright, hsplit, ?_⟩
    rw [List.append_assoc]

/-- The first migration is applied, two are left. -/
theorem trace_from_observed_sample :
    ∃ trace, Registry.traceFrom (some sampleRegistry) (some sampleFrontier)
        [str "a2", str "b2", str "a3"] = .ok trace
      ∧ idsOf trace.edges = [str "a2", str "b2", str "a3"] := by
  have hok : (Registry.traceFrom (some sampleRegistry) (some sampleFrontier)
      [str "a2", str "b2", str "a3"]).isOk := by decide +kernel
  match htrace : Registry.traceFrom (some sampleRegistry) (some sampleFrontier)
      [str "a2", str "b2", str "a3"] with
  | .ok trace => exact ⟨trace, rfl, ((trace_from_observed _ _ _).2 trace htrace).2.1⟩
  | .error e =>
      rw [htrace] at hok
      cases hok

end Traces

end Subyard.History
