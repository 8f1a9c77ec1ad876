import Subyard.Library.Interrupt
import Subyard.Release.Evaluate

/-!
The links that name the active and the previous release, and their replacement by an activation
that may be interrupted anywhere.

* `activate`: the code of `Activate`, over the links and the staging link.
* `Pursued`: what retried and replaced activations lead to.
* `activation_survives`: **the links are always those of the latest pair at one of its three
  stages, and an activation completes if no staging link of another target is in its way**.
-/

namespace Subyard.Release

open Text Fallible Interrupt

/-! ### The links -/

/-- The runtime root: the two links and the staging link, by the releases they name. -/
structure Links where
  current : Option ReleaseID := none
  previous : Option ReleaseID := none
  pending : Option ReleaseID := none
deriving DecidableEq, Repr

inductive LinkOp
  | readCurrent
  | readPrevious
  | readPending
  /-- Create the staging link. -/
  | symlink (release : ReleaseID)
  /-- Rename the staging link to `previous`. -/
  | rename (replace : Bool)
  /-- Exchange `current` and `previous`. -/
  | exchange
  | sync

/-- What an operation answers: the release a link names, or whether the call succeeded. -/
def LinkOp.Answer : LinkOp → Type
  | readCurrent | readPrevious | readPending => Option ReleaseID
  | symlink _ | rename _ | exchange => Bool
  | sync => Unit

def Links.step : (o : LinkOp) → Links → o.Answer × Links
  | .readCurrent, s => (s.current, s)
  | .readPrevious, s => (s.previous, s)
  | .readPending, s => (s.pending, s)
  | .symlink release, s =>
      if s.pending.isSome then (false, s) else (true, { s with pending := some release })
  | .rename replace, s =>
      if s.pending.isNone ∨ (s.previous.isSome ∧ ¬ replace) then (false, s)
      else (true, { s with previous := s.pending, pending := none })
  | .exchange, s =>
      if s.current.isNone ∨ s.previous.isNone then (false, s)
      else (true, { s with current := s.previous, previous := s.current })
  | .sync, s => ((), s)

/-- Each operation happens as a whole or not at all. -/
def runtimeRoot : Machine Links LinkOp LinkOp.Answer := .ofFun Links.step fun _ _ _ => False

abbrev Lk := Code LinkOp LinkOp.Answer Failure

def readCurrentLinkAt : Lk (Option ReleaseID) := .act .readCurrent .ret

def readPreviousLinkAt : Lk (Option ReleaseID) := .act .readPrevious .ret

def readPendingLinkAt : Lk (Option ReleaseID) := .act .readPending .ret

def symlinkAt (release : ReleaseID) : Lk Bool := .act (.symlink release) .ret

def renameLinkAt (replace : Bool) : Lk Bool := .act (.rename replace) .ret

def exchangeLinksAt : Lk Bool := .act .exchange .ret

def syncRootAt : Lk Unit := .act .sync .ret

/-! ### Activation -/

section Code

variable (installed : ReleaseID → Bool)

/-- The directory of a release is there. -/
def requireReleaseDirectoryAt (release : ReleaseID) : Except Failure Unit := do
  validateReleaseID release "runtime release"
  refuse (¬ installed release) (.other (str "release directory is missing"))

/-- The check of what a link names. -/
def checkLink : Option ReleaseID → Except Failure Unit
  | none => .ok ()
  | some release => do
      validateReleaseID release "runtime link release"
      requireReleaseDirectoryAt installed release

/-- `readRuntimeLinkAt`, for the link that is read. -/
def readRuntimeLinkAt (link : Lk (Option ReleaseID)) : Lk (Option ReleaseID) := do
  let target ← link
  Code.lift (checkLink installed target)
  pure target

/-- The active release, which has to be there. -/
def present : Option ReleaseID → Except Failure ReleaseID
  | some release => .ok release
  | none => .error (.other (str "runtime current link is missing"))

/-- `observeRuntimeLinksAt`. -/
def observeRuntimeLinksAt : Lk ReleaseLinks := do
  let current ← readRuntimeLinkAt installed readCurrentLinkAt
  let active ← Code.lift (present current)
  let previous ← readRuntimeLinkAt installed readPreviousLinkAt
  pure ⟨active, previous⟩

/-- `public`. -/
def ReleaseLinks.checked (links : ReleaseLinks) : Except Failure ReleaseLinks := do
  links.validate
  pure links

/-- `observeAt`. -/
def observeAt (pair : ReleasePair) : Lk ReleaseLinks := do
  let observed ← observeRuntimeLinksAt installed
  Code.refuse (¬ observed.activated pair) .stale
  Code.lift observed.checked

/-- The staging link is there and names the target. -/
def preparePendingLinkAt (release : ReleaseID) : Lk Unit := do
  let created ← symlinkAt release
  if created then pure ()
  else do
    let pending ← readPendingLinkAt
    Code.refuse (pending ≠ some release) .stale

/-- `replaceRuntimeLinkAt` for the link `previous`. -/
def replaceRuntimeLinkAt (release : ReleaseID) (replace : Bool) : Lk Unit := do
  Code.lift (requireReleaseDirectoryAt installed release)
  preparePendingLinkAt release
  let renamed ← renameLinkAt replace
  Code.refuse (¬ renamed) (.other (str "rename failed"))
  syncRootAt

/-- The exchange of the links and the last observation. -/
def exchangeAt (pair : ReleasePair) : Lk ReleaseLinks := do
  let exchanged ← exchangeLinksAt
  Code.refuse (¬ exchanged) (.other (str "exchange failed"))
  syncRootAt
  observeAt installed pair

/-- The end of `Activate` for a forward activation. -/
def finishAt (pair : ReleasePair) (observed : ReleaseLinks) : Lk ReleaseLinks := do
  Code.refuse (¬ observed.staged pair ∧ ¬ observed.activated pair) .stale
  if observed.activated pair then observeAt installed pair else exchangeAt installed pair

/-- `Activate` after the first observation. -/
def activateFrom (pair : ReleasePair) (observed : ReleaseLinks) : Lk ReleaseLinks :=
  if observed.activated pair then Code.lift observed.checked
  else if pair.previous = some pair.target then do
    Code.refuse (¬ observed.initial pair ∨ observed.previous.isNone) .stale
    exchangeAt installed pair
  else if observed.initial pair then do
    replaceRuntimeLinkAt installed pair.target observed.previous.isSome
    let observed ← observeRuntimeLinksAt installed
    finishAt installed pair observed
  else finishAt installed pair observed

/-- `Activate`. -/
def activate (pair : ReleasePair) : Lk ReleaseLinks := do
  Code.lift pair.validate
  Code.lift (requireReleaseDirectoryAt installed pair.target)
  let observed ← observeRuntimeLinksAt installed
  activateFrom installed pair observed

end Code

/-! ### The stages of an activation -/

/-- The links stand as the observation says. -/
def Links.Shows (s : Links) (links : ReleaseLinks) : Prop :=
  s.current = some links.active ∧ s.previous = links.previous

/-- The links are those of the pair before it, prepared for it or after it. -/
def Links.AtStage (s : Links) (pair : ReleasePair) : Prop :=
  ∃ links, s.Shows links ∧ (links.initial pair ∨ links.staged pair ∨ links.activated pair)

namespace ReleaseLinks

variable {links : ReleaseLinks} {pair : ReleasePair}

lemma initial_iff : links.initial pair ↔ links = ⟨pair.from', pair.previous⟩ := by
  cases links
  simp [initial]

lemma staged_iff : links.staged pair ↔ links = ⟨pair.from', some pair.target⟩ := by
  cases links
  simp [staged]

lemma activated_iff : links.activated pair ↔ links = ⟨pair.target, some pair.from'⟩ := by
  cases links
  simp [activated]

end ReleaseLinks

/-- A pair to activate: the releases differ, also from the previous one. -/
structure ReleasePair.Forward (pair : ReleasePair) : Prop where
  valid : pair.Valid
  differ : pair.from' ≠ pair.target

/-- The links after the activation pass their check. -/
lemma ReleasePair.Forward.checked {pair : ReleasePair} (h : pair.Forward) :
    ReleaseLinks.checked ⟨pair.target, some pair.from'⟩ = .ok ⟨pair.target, some pair.from'⟩ := by
  refine check_bind.mpr ⟨ReleaseLinks.validate_ok.mpr ⟨h.valid.2.1, fun p hp => ?_⟩, rfl⟩
  cases hp
  exact ⟨h.valid.1, h.differ⟩

/-- The releases of a pair. -/
def ReleasePair.releases (pair : ReleasePair) : List ReleaseID :=
  pair.from' :: pair.target :: pair.previous.toList

section Stages

variable {installed : ReleaseID → Bool} {pair : ReleasePair} {α : Type} {inv : Links → Prop}
  {post : Except Failure α → Links → Prop} {s : Links}

lemma checkLink_ok {link : Option ReleaseID} :
    checkLink installed link = .ok () ↔ ∀ r ∈ link, History.safeID r ∧ installed r := by
  cases link with
  | none => simp [checkLink]
  | some release =>
    rw [checkLink, check_bind, requireReleaseDirectoryAt, check_bind, validateReleaseID,
      validateReleaseID, validateSafeID_ok, validateSafeID_ok, refuse_eq_ok, not_not]
    simp

/-- The links can be read: their names are safe and their directories are there. -/
def Readable (installed : ReleaseID → Bool) (links : ReleaseLinks) : Prop :=
  ∀ r ∈ links.active :: links.previous.toList, History.safeID r ∧ installed r

/-- An operation that cannot be interrupted half way. -/
lemma meets_link {o : LinkOp} {k : o.Answer → Lk α} {t : Links} {r : o.Answer}
    (hstep : Links.step o s = (r, t)) (hinv : inv s) (h : runtimeRoot.Meets inv post (k r) t) :
    runtimeRoot.Meets inv post (.act o k) s :=
  Machine.Meets.act hstep hinv (fun _ h => h.elim) h

lemma readRuntimeLinkAt_meets {link : Lk (Option ReleaseID)} {value : Option ReleaseID}
    (hlink : runtimeRoot.Meets inv (fun r t => r = .ok value ∧ t = s) link s) (hinv : inv s) :
    runtimeRoot.Meets inv (fun r t => t = s ∧ (r = .ok value
        ∨ ((∃ e, r = .error e) ∧ ¬ ∀ r ∈ value, History.safeID r ∧ installed r)))
      (readRuntimeLinkAt installed link) s := by
  refine .bind (hlink.mono ?_)
  rintro r t - ⟨rfl, rfl⟩
  cases hcheck : checkLink installed value with
  | ok v =>
    show runtimeRoot.Meets inv _ (Code.lift (checkLink installed value) >>= _) t
    rw [hcheck]
    exact ⟨hinv, rfl, .inl rfl⟩
  | error e =>
    show runtimeRoot.Meets inv _ (Code.lift (checkLink installed value) >>= _) t
    rw [hcheck]
    refine ⟨hinv, rfl, .inr ⟨⟨e, rfl⟩, fun hall => ?_⟩⟩
    rw [checkLink_ok.mpr hall] at hcheck
    cases hcheck

/-- The links are observed, unless one of them cannot be read. -/
lemma observe_meets {links : ReleaseLinks} (hlinks : s.Shows links) (hinv : inv s) :
    runtimeRoot.Meets inv (fun r t => t = s ∧ (r = .ok links
        ∨ ((∃ e, r = .error e) ∧ ¬ Readable installed links)))
      (observeRuntimeLinksAt installed) s := by
  obtain ⟨hcurrent, hprevious⟩ := hlinks
  have hread : runtimeRoot.Meets inv (fun r t => r = .ok (some links.active) ∧ t = s)
      readCurrentLinkAt s := meets_link rfl hinv ⟨hinv, by rw [hcurrent], rfl⟩
  refine .bind ((readRuntimeLinkAt_meets hread hinv).mono ?_)
  rintro r t - ⟨rfl, rfl | ⟨⟨e, rfl⟩, hbad⟩⟩
  · have hread' : runtimeRoot.Meets inv (fun r u => r = .ok links.previous ∧ u = t)
        readPreviousLinkAt t := meets_link rfl hinv ⟨hinv, by rw [hprevious], rfl⟩
    show runtimeRoot.Meets inv _ (readRuntimeLinkAt installed readPreviousLinkAt
      >>= fun previous => pure (⟨links.active, previous⟩ : ReleaseLinks)) t
    refine .bind ((readRuntimeLinkAt_meets hread' hinv).mono ?_)
    rintro r u - ⟨rfl, rfl | ⟨⟨e, rfl⟩, hbad⟩⟩
    · exact ⟨hinv, rfl, .inl rfl⟩
    · refine ⟨rfl, .inr ⟨⟨e, rfl⟩, fun hall => hbad fun r hr => hall r ?_⟩⟩
      exact List.mem_cons_of_mem _ (Option.mem_toList.mpr hr)
  · refine ⟨rfl, .inr ⟨⟨e, rfl⟩, fun hall => hbad fun r hr => ?_⟩⟩
    cases hr
    exact hall _ List.mem_cons_self

/-- The links of a pair can be read if its releases are installed. -/
lemma ReleasePair.Forward.readable (h : pair.Forward) (hinstalled : ∀ r ∈ pair.releases, installed r)
    {links : ReleaseLinks}
    (hlinks : links.initial pair ∨ links.staged pair ∨ links.activated pair) :
    Readable installed links := by
  obtain ⟨⟨hfrom, htarget, hprevious⟩, _⟩ := h
  have hsafe : ∀ r ∈ pair.releases, History.safeID r := by
    intro r hr
    rcases List.mem_cons.mp hr with rfl | hr
    · exact hfrom
    rcases List.mem_cons.mp hr with rfl | hr
    · exact htarget
    · exact (hprevious r (Option.mem_toList.mp hr)).1
  have hnames : ∀ r ∈ links.active :: links.previous.toList, r ∈ pair.releases := by
    rw [ReleaseLinks.initial_iff, ReleaseLinks.staged_iff, ReleaseLinks.activated_iff] at hlinks
    rcases hlinks with rfl | rfl | rfl <;> intro r hr <;>
      simp only [ReleasePair.releases, List.mem_cons, Option.toList_some, List.not_mem_nil,
        or_false] at hr ⊢ <;> tauto
  exact fun r hr => ⟨hsafe r (hnames r hr), hinstalled r (hnames r hr)⟩

/-- The activation is done. -/
def Links.Done (installed : ReleaseID → Bool) (pair : ReleasePair)
    (r : Except Failure ReleaseLinks) (t : Links) : Prop :=
  t.Shows ⟨pair.target, some pair.from'⟩
    ∧ ((∀ r ∈ pair.releases, installed r) → r = .ok ⟨pair.target, some pair.from'⟩)

lemma observeAt_meets (hpair : pair.Forward) (hs : s.Shows ⟨pair.target, some pair.from'⟩)
    (hinv : inv s) :
    runtimeRoot.Meets inv (Links.Done installed pair) (observeAt installed pair) s := by
  have hactivated : ReleaseLinks.activated ⟨pair.target, some pair.from'⟩ pair :=
    ReleaseLinks.activated_iff.mpr rfl
  refine .bind ((observe_meets hs hinv).mono ?_)
  rintro r t - ⟨rfl, rfl | ⟨⟨e, rfl⟩, hbad⟩⟩
  · refine .bind (.refuse hinv (fun hnot => absurd hactivated hnot) fun _ => ?_)
    rw [hpair.checked]
    exact ⟨hinv, hs, fun _ => rfl⟩
  · exact ⟨hs, fun hinstalled => absurd (hpair.readable hinstalled (.inr (.inr hactivated))) hbad⟩

lemma exchangeAt_meets (hpair : pair.Forward) (hs : s.Shows ⟨pair.from', some pair.target⟩)
    (hinv : inv s)
    (hnext : inv { s with current := some pair.target, previous := some pair.from' }) :
    runtimeRoot.Meets inv (Links.Done installed pair) (exchangeAt installed pair) s := by
  have hstep : Links.step .exchange s
      = (true, { s with current := some pair.target, previous := some pair.from' }) := by
    rw [Links.step, hs.1, hs.2]
    exact if_neg (by simp)
  refine .bind (meets_link hstep hinv ⟨hnext, ?_⟩)
  refine .bind (.refuse hnext (fun hnot => absurd rfl hnot) fun _ => ?_)
  refine .bind (meets_link rfl hnext ⟨hnext, ?_⟩)
  exact observeAt_meets hpair ⟨rfl, rfl⟩ hnext

lemma finishAt_meets (hpair : pair.Forward) {links : ReleaseLinks} (hs : s.Shows links)
    (hlinks : links.staged pair ∨ links.activated pair) (hinv : inv s)
    (hnext : inv { s with current := some pair.target, previous := some pair.from' }) :
    runtimeRoot.Meets inv (Links.Done installed pair) (finishAt installed pair links) s := by
  refine .bind (.refuse hinv (fun hnot => ?_) fun _ => ?_)
  · rcases hlinks with h | h
    · exact absurd h hnot.1
    · exact absurd h hnot.2
  · show runtimeRoot.Meets inv _ (if links.activated pair then _ else _) s
    split
    · next hactivated =>
        rw [ReleaseLinks.activated_iff.mp hactivated] at hs
        exact observeAt_meets hpair hs hinv
    · next hnot =>
        have hstaged := hlinks.resolve_right hnot
        rw [ReleaseLinks.staged_iff.mp hstaged] at hs
        exact exchangeAt_meets hpair hs hinv hnext

/-- No staging link, or one that names the target. -/
def Links.Clear (s : Links) (target : ReleaseID) : Prop :=
  s.pending = none ∨ s.pending = some target

/-- The staging link is prepared, or another one is in the way. -/
lemma preparePendingLinkAt_meets {target : ReleaseID} (hinv : inv s)
    (hnext : inv { s with pending := some target }) :
    runtimeRoot.Meets inv (fun r t => (r = .ok () ∧ t = { s with pending := some target })
        ∨ ((∃ e, r = .error e) ∧ t = s ∧ ¬ s.Clear target)) (preparePendingLinkAt target) s := by
  by_cases hpending : s.pending = none
  · have hstep : Links.step (.symlink target) s = (true, { s with pending := some target }) := by
      rw [Links.step, hpending]
      exact if_neg (by simp)
    exact .bind (meets_link hstep hinv ⟨hnext, hnext, .inl ⟨rfl, rfl⟩⟩)
  · obtain ⟨release, hrelease⟩ := Option.ne_none_iff_exists'.mp hpending
    have hstep : Links.step (.symlink target) s = (false, s) := by
      rw [Links.step, hrelease]
      exact if_pos rfl
    refine .bind (meets_link hstep hinv ⟨hinv, ?_⟩)
    refine .bind (meets_link rfl hinv ⟨hinv, ?_⟩)
    refine .refuse hinv (fun hother => .inr ⟨⟨_, rfl⟩, rfl, ?_⟩) fun hsame => .inl ⟨rfl, ?_⟩
    · rintro (hnone | hsome)
      · exact hpending hnone
      · exact hother hsome
    · rw [← not_not.mp hsame]

/-- The target is staged, or the root stays as it is. -/
lemma replaceRuntimeLinkAt_meets {pair : ReleasePair} (hpair : pair.Forward) (hinv : inv s)
    (hpending : inv { s with pending := some pair.target })
    (hnext : inv { s with previous := some pair.target, pending := none }) :
    runtimeRoot.Meets inv (fun r t =>
        (r = .ok () ∧ t = { s with previous := some pair.target, pending := none })
        ∨ ((∃ e, r = .error e) ∧ t = s ∧ ¬ (installed pair.target ∧ s.Clear pair.target)))
      (replaceRuntimeLinkAt installed pair.target s.previous.isSome) s := by
  cases hdirectory : requireReleaseDirectoryAt installed pair.target with
  | error e =>
    rw [replaceRuntimeLinkAt, hdirectory]
    refine ⟨hinv, .inr ⟨⟨e, rfl⟩, rfl, fun hgood => ?_⟩⟩
    have hok : requireReleaseDirectoryAt installed pair.target = .ok () :=
      check_bind.mpr ⟨validateSafeID_ok.mpr hpair.valid.2.1,
        refuse_eq_ok.mpr (not_not.mpr hgood.1)⟩
    rw [hok] at hdirectory
    cases hdirectory
  | ok v =>
    rw [replaceRuntimeLinkAt, hdirectory]
    refine .bind (.lift hinv (.bind ((preparePendingLinkAt_meets hinv hpending).mono ?_)))
    rintro r t - (⟨rfl, rfl⟩ | ⟨⟨e, rfl⟩, rfl, hbad⟩)
    · have hstep : Links.step (.rename s.previous.isSome) { s with pending := some pair.target }
          = (true, { s with previous := some pair.target, pending := none }) := by
        rw [Links.step]
        exact if_neg (by simp [Option.isSome_iff_ne_none])
      refine .bind (meets_link hstep hpending ⟨hnext, ?_⟩)
      refine .bind (.refuse hnext (fun hnot => absurd rfl hnot) fun _ => ?_)
      exact meets_link rfl hnext ⟨hnext, .inl ⟨rfl, rfl⟩⟩
    · exact .inr ⟨⟨e, rfl⟩, rfl, fun hgood => hbad hgood.2⟩

/-- The links are where an activation of the pair can leave them. -/
structure Links.Within (p : Option ReleaseID) (pair : ReleasePair) (t : Links) : Prop where
  stage : t.AtStage pair
  pending : t.pending = p ∨ t.Clear pair.target

/-- Nothing is in the way of an activation: the releases are installed, and where the target is
still to be staged the staging link is free. -/
structure Links.Free (installed : ReleaseID → Bool) (s : Links) (pair : ReleasePair) : Prop where
  installed : ∀ r ∈ pair.releases, installed r
  clear : s.previous = pair.previous → pair.previous ≠ some pair.target → s.Clear pair.target

lemma activateFrom_meets (hpair : pair.Forward) {links : ReleaseLinks} (hs : s.Shows links)
    (hlinks : links.initial pair ∨ links.staged pair ∨ links.activated pair) :
    runtimeRoot.Meets (Links.Within s.pending pair)
      (fun r t => s.Free installed pair → r = .ok ⟨pair.target, some pair.from'⟩
        ∧ t.Shows ⟨pair.target, some pair.from'⟩) (activateFrom installed pair links) s := by
  have hwithin : Links.Within s.pending pair s := ⟨⟨links, hs, hlinks⟩, .inl rfl⟩
  have hstage : ∀ {p}, Links.Within s.pending pair
      { current := some pair.target, previous := some pair.from', pending := p } ↔
      p = s.pending ∨ p = none ∨ p = some pair.target := by
    intro p
    refine ⟨fun h => h.pending, fun h => ⟨⟨⟨pair.target, some pair.from'⟩, ⟨rfl, rfl⟩,
      .inr (.inr (ReleaseLinks.activated_iff.mpr rfl))⟩, h⟩⟩
  have hdone : ∀ r t, Links.Within s.pending pair t → Links.Done installed pair r t →
      s.Free installed pair → r = .ok ⟨pair.target, some pair.from'⟩
        ∧ t.Shows ⟨pair.target, some pair.from'⟩ :=
    fun r t _ hdone hfree => ⟨hdone.2 hfree.installed, hdone.1⟩
  rw [activateFrom]
  split
  · next hactivated =>
      rw [ReleaseLinks.activated_iff.mp hactivated, hpair.checked]
      rw [ReleaseLinks.activated_iff.mp hactivated] at hs
      exact ⟨hwithin, fun _ => ⟨rfl, hs⟩⟩
  next hnot =>
  split
  · next hrollback =>
      have hinitial : links.initial pair := by
        rcases hlinks with h | h | h
        · exact h
        · rw [ReleaseLinks.staged_iff] at h
          rw [ReleaseLinks.initial_iff, h, hrollback]
        · exact absurd h hnot
      rw [ReleaseLinks.initial_iff.mp hinitial, hrollback] at hs ⊢
      refine .bind (.refuse hwithin (fun hbad => ?_) fun _ => ?_)
      · rcases hbad with hbad | hbad
        · exact absurd (ReleaseLinks.initial_iff.mpr (by rw [hrollback])) hbad
        · cases hbad
      · exact (exchangeAt_meets hpair hs hwithin (hstage.mpr (.inl rfl))).mono hdone
  next hforward =>
  split
  · next hinitial =>
      rw [ReleaseLinks.initial_iff.mp hinitial] at hs ⊢
      have hpending : Links.Within s.pending pair { s with pending := some pair.target } :=
        ⟨⟨_, hs, .inl (ReleaseLinks.initial_iff.mpr rfl)⟩, .inr (.inr rfl)⟩
      have hstaged : ReleaseLinks.staged ⟨pair.from', some pair.target⟩ pair :=
        ReleaseLinks.staged_iff.mpr rfl
      have hnext : Links.Within s.pending pair
          { s with previous := some pair.target, pending := none } :=
        ⟨⟨⟨pair.from', some pair.target⟩, ⟨hs.1, rfl⟩, .inr (.inl hstaged)⟩, .inr (.inl rfl)⟩
      rw [← hs.2]
      refine .bind ((replaceRuntimeLinkAt_meets hpair hwithin hpending hnext).mono ?_)
      rintro r t - (⟨rfl, rfl⟩ | ⟨⟨e, rfl⟩, rfl, hbad⟩)
      · have hshows : Links.Shows { s with previous := some pair.target, pending := none }
            ⟨pair.from', some pair.target⟩ := ⟨hs.1, rfl⟩
        refine .bind ((observe_meets hshows hnext).mono ?_)
        rintro r t - ⟨rfl, rfl | ⟨⟨e, rfl⟩, hbad⟩⟩
        · exact (finishAt_meets hpair hshows (.inl hstaged) hnext
            (hstage.mpr (.inr (.inl rfl)))).mono hdone
        · exact fun hfree =>
            absurd (hpair.readable hfree.installed (.inr (.inl hstaged))) hbad
      · refine fun hfree => absurd ⟨hfree.installed _ ?_, hfree.clear hs.2 hforward⟩ hbad
        simp [ReleasePair.releases]
  · next hnotinitial =>
      have hstaged := (hlinks.resolve_left hnotinitial).resolve_right hnot
      exact (finishAt_meets hpair hs (.inl hstaged) hwithin (hstage.mpr (.inl rfl))).mono hdone

/-- **An activation keeps the links at a stage of its pair, and completes if nothing is in its
way.** -/
theorem activate_meets (hpair : pair.Forward) (hs : s.AtStage pair) :
    runtimeRoot.Meets (Links.Within s.pending pair)
      (fun r t => s.Free installed pair → r = .ok ⟨pair.target, some pair.from'⟩
        ∧ t.Shows ⟨pair.target, some pair.from'⟩) (activate installed pair) s := by
  have hwithin : Links.Within s.pending pair s := ⟨hs, .inl rfl⟩
  obtain ⟨links, hshows, hlinks⟩ := hs
  rw [activate, ReleasePair.validate_ok.mpr hpair.valid]
  refine .bind (.lift hwithin ?_)
  refine .bind (.lift hwithin ?_)
  cases hdirectory : requireReleaseDirectoryAt installed pair.target with
  | error e =>
    intro hfree
    have hok : requireReleaseDirectoryAt installed pair.target = .ok () :=
      check_bind.mpr ⟨validateSafeID_ok.mpr hpair.valid.2.1,
        refuse_eq_ok.mpr (not_not.mpr (hfree.installed _ (by simp [ReleasePair.releases])))⟩
    rw [hok] at hdirectory
    cases hdirectory
  | ok v =>
    refine .bind ((observe_meets hshows hwithin).mono ?_)
    rintro r t - ⟨rfl, rfl | ⟨⟨e, rfl⟩, hbad⟩⟩
    · exact activateFrom_meets hpair hshows hlinks
    · exact fun hfree => absurd (hpair.readable hfree.installed hlinks) hbad

end Stages

/-! ### Retries and replacements -/

/-- What activations lead to: a pair is chosen for the links that are observed, is activated again
and again, and is replaced by another one that is chosen in the same way.  The pairs are listed
with the latest first. -/
inductive Pursued (installed : ReleaseID → Bool) : List ReleasePair → Links → Prop
  | choose {s : Links} {pair : ReleasePair} (hpair : pair.Forward)
      (hlinks : s.Shows ⟨pair.from', pair.previous⟩) (hpending : s.pending = none) :
      Pursued installed [pair] s
  | call {pair : ReleasePair} {pairs : List ReleasePair} {s s' : Links}
      {out : Option (Except Failure ReleaseLinks)} (h : Pursued installed (pair :: pairs) s)
      (hrun : runtimeRoot.Runs (activate installed pair) s out s') :
      Pursued installed (pair :: pairs) s'
  | replace {pair : ReleasePair} {pairs : List ReleasePair} {s : Links}
      (h : Pursued installed pairs s) (hpair : pair.Forward)
      (hlinks : s.Shows ⟨pair.from', pair.previous⟩) : Pursued installed (pair :: pairs) s

section Pursued

variable {installed : ReleaseID → Bool} {pair : ReleasePair} {pairs : List ReleasePair} {s : Links}

/-- The run lemma: the links are at a stage of the latest pair, and a staging link names the target
of one of the pairs. -/
lemma Pursued.atStage (h : Pursued installed (pair :: pairs) s) :
    pair.Forward ∧ s.AtStage pair
      ∧ (s.pending = none ∨ ∃ p ∈ pair :: pairs, s.pending = some p.target) := by
  generalize hpairs : pair :: pairs = all at h
  induction h generalizing pair pairs with
  | choose hpair hlinks hpending =>
    cases hpairs
    exact ⟨hpair, ⟨_, hlinks, .inl (ReleaseLinks.initial_iff.mpr rfl)⟩, .inl hpending⟩
  | @call first rest s s' out _ hrun ih =>
    obtain ⟨hpair, hstage, hpending⟩ := ih rfl
    cases hpairs
    have hwithin := ((activate_meets hpair hstage).sound hrun).1
    refine ⟨hpair, hwithin.stage, ?_⟩
    rcases hwithin.pending with hsame | hnone | htarget
    · rw [hsame]
      exact hpending
    · exact .inl hnone
    · exact .inr ⟨first, List.mem_cons_self, htarget⟩
  | @replace next older s h hpair hlinks ih =>
    cases hpairs
    refine ⟨hpair, ⟨_, hlinks, .inl (ReleaseLinks.initial_iff.mpr rfl)⟩, ?_⟩
    cases older with
    | nil => nomatch h
    | cons first rest =>
      rcases (ih rfl).2.2 with hnone | ⟨p, hp, htarget⟩
      · exact .inl hnone
      · exact .inr ⟨p, List.mem_cons_of_mem _ hp, htarget⟩

/-- **Activations survive interruptions.**  After any sequence of activations, each of which
returned or was interrupted, the active release is the source or the target of the latest pair and
the links are allowed at an activation intent.  One more activation completes, provided the
releases are installed and, if the target is still to be staged, there is no staging link that
names another release. -/
theorem activation_survives (h : Pursued installed (pair :: pairs) s) :
    (s.current = some pair.from' ∨ s.current = some pair.target)
      ∧ (∃ links, s.Shows links ∧ linksAllowed (.known .activationIntent) (links.initial pair)
        (links.staged pair) (links.activated pair) (pair.from' = pair.target))
      ∧ (s.Free installed pair →
        ∃ s', exec Links.step (activate installed pair) s
            = (.ok ⟨pair.target, some pair.from'⟩, s')
          ∧ s'.current = some pair.target ∧ s'.previous = some pair.from') := by
  obtain ⟨hpair, hstage, _⟩ := h.atStage
  have hallowed := hstage
  obtain ⟨links, hshows, hlinks⟩ := hallowed
  refine ⟨?_, ⟨links, hshows, ?_⟩, fun hfree => ?_⟩
  · rw [hshows.1]
    rw [ReleaseLinks.initial_iff, ReleaseLinks.staged_iff, ReleaseLinks.activated_iff] at hlinks
    rcases hlinks with rfl | rfl | rfl
    · exact .inl rfl
    · exact .inl rfl
    · exact .inr rfl
  · rw [linksAllowed, if_neg (by simpa using hpair.differ)]
    simp only [Bool.or_eq_true, or_assoc]
    exact hlinks
  · obtain ⟨hok, hdone⟩ := ((activate_meets hpair hstage).exec).2 hfree
    exact ⟨_, Prod.ext hok rfl, hdone⟩

end Pursued

/-! A release is active, and a newer one replaces the target of an activation that was interrupted
after it made the staging link. -/

def firstPair : ReleasePair := ⟨str "v1", none, str "v2"⟩

def newerPair : ReleasePair := ⟨str "v1", none, str "v3"⟩

/-- The links with the staging link of the first pair. -/
def interruptedLinks : Links := { current := some (str "v1"), pending := some (str "v2") }

lemma firstPair_forward : firstPair.Forward :=
  ⟨⟨by decide, by decide, fun p hp => by cases hp⟩, by decide⟩

lemma newerPair_forward : newerPair.Forward :=
  ⟨⟨by decide, by decide, fun p hp => by cases hp⟩, by decide⟩

lemma first_interrupted : Pursued (fun _ => true) [firstPair] interruptedLinks := by
  have hrun : runtimeRoot.Runs (activate (fun _ => true) firstPair) { current := some (str "v1") }
      none interruptedLinks :=
    -- the reads of both links and the creation of the staging link
    .inr ⟨_, _, rfl, .inr ⟨_, _, rfl, .inr ⟨_, _, rfl, .inl ⟨rfl, .inl rfl⟩⟩⟩⟩
  exact .call (.choose firstPair_forward ⟨rfl, rfl⟩ rfl) hrun

/-- The newer release can never be activated. -/
theorem activation_blocked_by_staging_link :
    Pursued (fun _ => true) [newerPair, firstPair] interruptedLinks
      ∧ exec Links.step (activate (fun _ => true) newerPair) interruptedLinks
        = (.error .stale, interruptedLinks) :=
  ⟨.replace first_interrupted newerPair_forward ⟨rfl, rfl⟩, by decide⟩

/-- The first release can still be activated. -/
theorem activation_survives_first :
    ∃ s', exec Links.step (activate (fun _ => true) firstPair) interruptedLinks
        = (.ok ⟨str "v2", some (str "v1")⟩, s')
      ∧ s'.current = some (str "v2") ∧ s'.previous = some (str "v1") :=
  (activation_survives first_interrupted).2.2 ⟨fun _ _ => rfl, fun _ _ => .inr rfl⟩

end Subyard.Release
