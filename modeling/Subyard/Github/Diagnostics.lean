import Subyard.Library.Masking
import Subyard.Library.Text

/-!
The diagnostics of a transport: secrets are replaced while the text is passed on in pieces.

* `Diagnostics.write`, `Diagnostics.flush`: a piece is scanned up to a suffix that may begin a
  secret; what is left in the end is replaced.
* `Diagnostics.output`: what is written for a sequence of pieces.
* `scan_masked`: what a scan writes is part of the masked text, whatever follows.
* `output_unsplit`: **the output does not depend on the pieces, has no secret, and is the masked
  text.**
* `Diagnostics.run`: pieces and the selection of the backend, in any order.
* `run_without_secrets`: **no secret is passed on.**

Pieces are dropped until output is enabled.
-/

namespace Subyard.Github

open Text Masking

def redacted : Bytes := str "[redacted]"

/-- `gitDiagnostics`; with an empty secret the loop of `Write` would not end. -/
structure Diagnostics where
  enabled : Bool
  sensitive : List Bytes
  pending : Bytes
  nonempty : [] ∉ sensitive

/-- The loop of `Write`: what is safe, and what is still pending.  The loop over the secrets inside
stops at the first one that the text begins with; whether the text is the beginning of one matters
only if there is none. -/
def scan (secrets : List Bytes) (hne : [] ∉ secrets) : Bytes → Bytes × Bytes
  | [] => ([], [])
  | b :: rest =>
      match h : secrets.find? (· <+: b :: rest) with
      | some secret =>
          let (safe, pending) := scan secrets hne ((b :: rest).drop secret.length)
          (redacted ++ safe, pending)
      | none =>
          if secrets.any (b :: rest <+: ·) then ([], b :: rest)
          else
            let (safe, pending) := scan secrets hne rest
            (b :: safe, pending)
termination_by pending => pending.length
decreasing_by
  · have hmem := List.mem_of_find?_eq_some h
    have hpos : 0 < secret.length := List.length_pos_of_ne_nil fun hnil => hne (hnil ▸ hmem)
    simp only [List.length_drop, List.length_cons]
    omega
  · simp

namespace Diagnostics

/-- `Write`: what is passed on, and the diagnostics afterwards. -/
def write (d : Diagnostics) (value : Bytes) : Bytes × Diagnostics :=
  if ¬ d.enabled then ([], d)
  else
    let (safe, pending) := scan d.sensitive d.nonempty (d.pending ++ value)
    (safe, { d with pending })

def flush (d : Diagnostics) : Bytes × Diagnostics :=
  if d.pending ≠ [] then (redacted, { d with pending := [] }) else ([], d)

/-- The pieces of a text one after the other, and the end of it. -/
def output (d : Diagnostics) : List Bytes → Bytes
  | [] => d.flush.1
  | value :: values => (d.write value).1 ++ (d.write value).2.output values

end Diagnostics

/-! ### Masked texts -/

section Scan

variable {secrets : List Bytes} {hne : [] ∉ secrets} {pending : Bytes}

/-- What may be pending: nothing, or the beginning of a secret. -/
def Begun (secrets : List Bytes) (pending : Bytes) : Prop :=
  pending ≠ [] → ∃ secret ∈ secrets, pending <+: secret ∧ pending ≠ secret

lemma scan_begun : Begun secrets (scan secrets hne pending).2 := by
  fun_induction scan secrets hne pending with
  | case1 => exact fun h => absurd rfl h
  | case2 b rest secret h safe pending heq ih => rwa [heq] at ih
  | case3 b rest h hbegun =>
    intro _
    obtain ⟨secret, hsecret, hprefix⟩ := List.any_eq_true.mp hbegun
    rw [decide_eq_true_eq] at hprefix
    refine ⟨secret, hsecret, hprefix, ?_⟩
    rintro rfl
    exact List.find?_eq_none.mp h _ hsecret (by simp)
  | case4 b rest h hbegun safe pending heq ih => rwa [heq] at ih

/-- **What a scan passes on belongs to the masked text, whatever follows.** -/
lemma scan_masked {text out : Bytes}
    (h : Masked secrets redacted ((scan secrets hne pending).2 ++ text) out) :
    Masked secrets redacted (pending ++ text) ((scan secrets hne pending).1 ++ out) := by
  fun_induction scan secrets hne pending with
  | case1 => exact h
  | case2 b rest secret hfind safe pending heq ih =>
    rw [heq] at ih
    have hmem := List.mem_of_find?_eq_some hfind
    have hprefix : secret <+: b :: rest := by simpa using List.find?_some hfind
    have hsplit : b :: rest ++ text = secret ++ ((b :: rest).drop secret.length ++ text) := by
      rw [← List.append_assoc, List.prefix_iff_eq_append.mp hprefix]
    rw [hsplit, List.append_assoc]
    exact .word hmem (ih h)
  | case3 => exact h
  | case4 b rest hfind hbegun safe pending heq ih =>
    rw [heq] at ih
    refine .letter (fun secret hsecret hprefix => ?_) (fun secret hsecret hprefix => ?_) (ih h)
    · -- the secret and the scanned text are both beginnings of what there is
      rcases List.prefix_or_prefix_of_prefix hprefix (List.prefix_append (b :: rest) text) with
        hin | hout
      · exact List.find?_eq_none.mp hfind secret hsecret (by simpa using hin)
      · exact hbegun (List.any_eq_true.mpr ⟨secret, hsecret, by simpa using hout⟩)
    · have hout : b :: rest <+: secret := (List.prefix_append (b :: rest) text).trans hprefix
      exact hbegun (List.any_eq_true.mpr ⟨secret, hsecret, by simpa using hout⟩)

end Scan

/-- What is written for the pieces of a text is the masked text. -/
lemma output_masked : ∀ {values : List Bytes} {d : Diagnostics}, d.enabled →
    Begun d.sensitive d.pending →
    Masked d.sensitive redacted (d.pending ++ values.flatten) (d.output values)
  | [], d, _, hbegun => by
    rw [List.flatten_nil, List.append_nil, Diagnostics.output, Diagnostics.flush]
    split
    next hne =>
      obtain ⟨secret, hsecret, hprefix, hproper⟩ := hbegun hne
      exact .ending hsecret hne hprefix hproper
    next hnil =>
      rw [not_not.mp hnil]
      exact .done
  | value :: values, d, henabled, _ => by
    have hwrite : d.write value = ((scan d.sensitive d.nonempty (d.pending ++ value)).1,
        { d with pending := (scan d.sensitive d.nonempty (d.pending ++ value)).2 }) := by
      rw [Diagnostics.write, if_neg (not_not.mpr henabled)]
    rw [Diagnostics.output, hwrite, List.flatten_cons, ← List.append_assoc]
    exact scan_masked (output_masked
      (d := { d with pending := (scan d.sensitive d.nonempty (d.pending ++ value)).2 }) henabled
      scan_begun)

/-- **Redaction does not depend on how the text is split.**  If no secret has a bracket, is the
beginning of another one or a part of `redacted`, the output for a text is the same for all ways to
split it, no secret is in it, and it is the only text in which the secrets are masked from left to
right, a part of one at the end included. -/
theorem output_unsplit {d : Diagnostics} (henabled : d.enabled) (hpending : d.pending = [])
    (hfree : ∀ a ∈ d.sensitive, ∀ b ∈ d.sensitive, a <+: b → a = b)
    (hbrackets : ∀ a ∈ d.sensitive, 91 ∉ a ∧ 93 ∉ a)
    (hlabel : ∀ a ∈ d.sensitive, ¬ a <:+: str "redacted") {values values' : List Bytes}
    (hsame : values.flatten = values'.flatten) :
    d.output values = d.output values'
      ∧ (∀ a ∈ d.sensitive, ¬ a <:+: d.output values)
      ∧ ∀ out, Masked d.sensitive redacted values.flatten out ↔ out = d.output values := by
  have hmasked : ∀ values : List Bytes,
      Masked d.sensitive redacted values.flatten (d.output values) := by
    intro values
    have hbegun : Begun d.sensitive d.pending := fun hne => absurd hpending hne
    simpa [hpending] using output_masked henabled hbegun
  refine ⟨?_, fun a ha => ?_, fun out => ⟨fun h => ?_, fun h => ?_⟩⟩
  · exact (hmasked values).unique d.nonempty hfree (hsame ▸ hmasked values')
  · exact (hmasked values).no_word_left d.nonempty hbrackets hlabel ha
  · exact h.unique d.nonempty hfree (hmasked values)
  · exact h ▸ hmasked values

/-- Diagnostics with two secrets. -/
def demo : Diagnostics where
  enabled := true
  sensitive := [str "token", str "x-access-token:token"]
  pending := []
  nonempty := by decide

/-- A secret in two pieces. -/
theorem demo_unsplit : demo.output [str "a to", str "ken b"] = demo.output [str "a token b"]
    ∧ (∀ a ∈ demo.sensitive, ¬ a <:+: demo.output [str "a to", str "ken b"])
    ∧ ∀ out, Masked demo.sensitive redacted [str "a to", str "ken b"].flatten out
      ↔ out = demo.output [str "a to", str "ken b"] :=
  output_unsplit rfl rfl (by decide) (by decide) (by decide) (by decide)

/-! ### While the text is passed on -/

/-- A call on the diagnostics before the end of the text. -/
inductive Call
  | write (value : Bytes)
  | selectBackend

namespace Diagnostics

def selectBackend (d : Diagnostics) : Diagnostics := { d with enabled := true }

/-- What is passed on in a sequence of calls, and the diagnostics afterwards. -/
def run (d : Diagnostics) : List Call → Bytes × Diagnostics
  | [] => ([], d)
  | .write value :: calls =>
      let after := (d.write value).2.run calls
      ((d.write value).1 ++ after.1, after.2)
  | .selectBackend :: calls => d.selectBackend.run calls

end Diagnostics

/-- What is passed on is a masked text, once it is flushed. -/
lemma run_masked (calls : List Call) : ∀ {d : Diagnostics}, (d.enabled ∨ d.pending = []) →
    Begun d.sensitive d.pending → ∃ text, Masked d.sensitive redacted (d.pending ++ text)
      ((d.run calls).1 ++ (d.run calls).2.flush.1) := by
  induction calls with
  | nil =>
    intro d hopen hbegun
    refine ⟨[], ?_⟩
    by_cases henabled : d.enabled
    · change Masked d.sensitive redacted (d.pending ++ [].flatten) (d.output [])
      exact output_masked henabled hbegun
    · -- nothing is pending before the backend is selected
      have hnil := hopen.resolve_left henabled
      simpa [Diagnostics.run, Diagnostics.flush, hnil] using Masked.done
  | cons call calls ih =>
    intro d hopen hbegun
    cases call with
    | selectBackend => exact ih (d := d.selectBackend) (.inl rfl) hbegun
    | write value =>
      simp only [Diagnostics.run, Diagnostics.write]
      split
      next => exact ih hopen hbegun
      next henabled =>
        obtain ⟨text, h⟩ := ih (d := { d with
          pending := (scan d.sensitive d.nonempty (d.pending ++ value)).2 })
          (.inl (not_not.mp henabled)) scan_begun
        exact ⟨value ++ text, by simpa only [List.append_assoc] using scan_masked h⟩

/-- **No secret is passed on**, before the end of the text or with it, also where one secret is the
beginning of another one, if none has a bracket or is a part of `redacted`. -/
theorem run_without_secrets {d : Diagnostics} (hpending : d.pending = [])
    (hbrackets : ∀ a ∈ d.sensitive, 91 ∉ a ∧ 93 ∉ a)
    (hlabel : ∀ a ∈ d.sensitive, ¬ a <:+: str "redacted") (calls : List Call) :
    ∀ a ∈ d.sensitive, ¬ a <:+: (d.run calls).1 ++ (d.run calls).2.flush.1 := by
  intro a ha
  obtain ⟨text, hmasked⟩ := run_masked calls (.inr hpending) fun hne => absurd hpending hne
  exact hmasked.no_word_left d.nonempty hbrackets hlabel ha

/-- Diagnostics of a tentative discovery. -/
def tentative : Diagnostics := { demo with enabled := false }

def tentativeCalls : List Call :=
  [.write (str "a token"), .selectBackend, .write (str "a token, a tok")]

/-- A secret before the backend is selected, one after it, and the beginning of one at the end. -/
theorem tentative_without_secrets : str "token" ∈ tentative.sensitive
    ∧ ¬ str "token" <:+: (tentative.run tentativeCalls).1
      ++ (tentative.run tentativeCalls).2.flush.1 :=
  ⟨by decide, run_without_secrets rfl (by decide) (by decide) tentativeCalls _ (by decide)⟩

end Subyard.Github
