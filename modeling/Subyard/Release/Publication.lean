import Subyard.Release.Protected

/-!
Histories of a protected record: calls that return or are interrupted, and power failures.

* `Reached`: the disks that such a history leads to, the middle of every call included.
* `Reached.sound`: they are sound, and what was published are payloads of the calls.
* `record_replaced_whole`: **the record is never anything but absent or one whole payload; a
  stale `compareAndSwap` changes nothing; and one with the stored snapshot always succeeds**.
-/

namespace Subyard.Release

open Text Fallible Interrupt

/-- A call of the store. -/
inductive Call
  | compareAndSwap (expected : ProtectedSnapshot) (payload : Bytes)
  | createImmutable (payload : Bytes)

namespace Call

def payload : Call → Bytes
  | compareAndSwap _ payload | createImmutable payload => payload

def code : Call → Fs Unit
  | compareAndSwap expected payload => Release.compareAndSwap expected payload
  | createImmutable payload => Release.createImmutable payload

/-- The call in one step. -/
def apply : Call → Cell → Except Failure Cell
  | compareAndSwap expected payload, c => c.compareAndSwap expected payload
  | createImmutable payload, c => c.createImmutable payload

/-- A call that succeeds has a payload of an allowed size. -/
lemma size_of_apply {call : Call} {c c' : Cell} (h : call.apply c = .ok c') :
    call.payload ≠ [] ∧ call.payload.length ≤ maxProtectedRecordBytes := by
  have hpayload : validateProtectedPayload call.payload = .ok () := by
    cases call with
    | compareAndSwap expected payload => exact (of_bind_ok h).choose_spec.1
    | createImmutable payload => exact (of_bind_ok h).choose_spec.1
  have hsize := refuse_eq_ok.mp hpayload
  rwa [not_or, not_lt] at hsize

/-- The code of a call refines the call in one step. -/
lemma meets {call : Call} {P : Bytes → Prop} {s : Disk} (h : s.Sound P) (hP : P call.payload)
    {c : Cell} (hcell : call.apply s.cell = .ok c) :
    fileSystem.Meets (Disk.Sound P) (fun r t => r = .ok () ∧ t.cell = c) call.code s := by
  cases call with
  | compareAndSwap expected payload => exact compareAndSwap_meets h hP hcell
  | createImmutable payload => exact createImmutable_meets h hP hcell

lemma refused {call : Call} {s : Disk} {e : Failure} (hcell : call.apply s.cell = .error e) :
    fileSystem.Meets (· = s) (fun r _ => r = .error e) call.code s := by
  cases call with
  | compareAndSwap expected payload => exact compareAndSwap_refused hcell
  | createImmutable payload => exact createImmutable_refused hcell

end Call

/-- The disks reached by a sequence of calls, each of which returned or was interrupted, with
power failures in between. -/
inductive Reached : List Call → Disk → Prop
  | start : Reached [] {}
  | call {calls : List Call} {s s' : Disk} {call : Call} {out : Option (Except Failure Unit)}
      (hreached : Reached calls s) (hrun : fileSystem.Runs call.code s out s') :
      Reached (calls ++ [call]) s'
  | powerFailure {calls : List Call} {s s' : Disk} (hreached : Reached calls s)
      (hlost : s.Lost s') : Reached calls s'

/-- The payload of one of the calls, of an allowed size. -/
def Whole (calls : List Call) (p : Bytes) : Prop :=
  p ≠ [] ∧ p.length ≤ maxProtectedRecordBytes ∧ ∃ call ∈ calls, call.payload = p

lemma Disk.Sound.imp {P Q : Bytes → Prop} {s : Disk} (h : s.Sound P) (himp : ∀ p, P p → Q p) :
    s.Sound Q where
  recorded := h.recorded
  below := h.below
  apart := h.apart
  known p hp := himp p (h.known p hp)
  bounded := h.bounded

/-- The run lemma. -/
lemma Reached.sound {calls : List Call} {s : Disk} (h : Reached calls s) :
    s.Sound (Whole calls) := by
  induction h with
  | start => exact .empty
  | @call calls s s' call out _ hrun ih =>
    have hmore : s.Sound (Whole (calls ++ [call])) := ih.imp fun p hp => by
      obtain ⟨hne, hsize, c, hc, hcp⟩ := hp
      exact ⟨hne, hsize, c, List.mem_append_left _ hc, hcp⟩
    cases hcell : call.apply s.cell with
    | ok c =>
      obtain ⟨hne, hsize⟩ := Call.size_of_apply hcell
      exact ((Call.meets hmore ⟨hne, hsize, call, by simp, rfl⟩ hcell).sound hrun).1
    | error e =>
      rw [((Call.refused hcell).sound hrun).1]
      exact hmore
  | powerFailure _ hlost ih => exact ih.lost hlost

/-- The snapshot of a payload. -/
def snapshotOf (payload : Bytes) : ProtectedSnapshot := ⟨true, payload, fingerprintPayload payload⟩

lemma readProtected_some {p : Bytes} (hne : p ≠ [])
    (hsize : p.length ≤ maxProtectedRecordBytes) :
    readProtected (some p) = .ok (snapshotOf p) := by
  rw [readProtected, refuse_bind]
  exact ⟨by simp [hne, hsize], rfl⟩

/-- What is read on a reached disk. -/
lemma Reached.read {calls : List Call} {s : Disk} (h : Reached calls s) :
    readProtected s.record = .ok absentProtectedSnapshot
      ∨ ∃ call ∈ calls, call.payload ∈ s.published
        ∧ readProtected s.record = .ok (snapshotOf call.payload) := by
  cases hi : s.names.record with
  | none => exact .inl (by rw [Disk.record, hi]; rfl)
  | some i =>
    have hmem := (h.sound.recorded s.names (by simp) i hi).2
    obtain ⟨hne, hsize, call, hcall, hpayload⟩ := h.sound.known _ hmem
    refine .inr ⟨call, hcall, hpayload ▸ hmem, ?_⟩
    rw [Disk.record, hi, Option.map_some, hpayload, readProtected_some hne hsize]

/-- A stale `compareAndSwap` fails on the cell. -/
lemma Cell.compareAndSwap_stale {c : Cell} {expected : ProtectedSnapshot} (payload : Bytes)
    (h : readProtected c.record ≠ .ok expected) :
    ∃ e, c.compareAndSwap expected payload = .error e := by
  cases hcell : c.compareAndSwap expected payload with
  | error e => exact ⟨e, rfl⟩
  | ok c' =>
    exfalso
    obtain ⟨_, _, hcell⟩ := of_bind_ok hcell
    obtain ⟨_, hcell⟩ := refuse_bind.mp hcell
    obtain ⟨_, hcell⟩ := refuse_bind.mp hcell
    obtain ⟨current, hread, hcell⟩ := of_bind_ok hcell
    obtain ⟨hcurrent, _⟩ := refuse_bind.mp hcell
    rw [not_not.mp hcurrent] at hread
    exact h hread

/-- One with the stored snapshot succeeds on the cell. -/
lemma Cell.compareAndSwap_stored {c : Cell} {current : ProtectedSnapshot} {payload : Bytes}
    (hread : readProtected c.record = .ok current) (hsmall : ¬ c.Oversized) (hne : payload ≠ [])
    (hsize : payload.length ≤ maxProtectedRecordBytes) :
    c.compareAndSwap current payload = .ok { record := some payload } := by
  have hvalid := (readProtected_ok hread).1
  rw [Cell.compareAndSwap, validateProtectedPayload, refuse_bind, refuse_bind, refuse_bind, hread]
  refine ⟨by simp [hne, hsize], fun hbad => hbad hvalid, hsmall, ?_⟩
  show (refuse (current ≠ current) Failure.stale >>= _) = _
  rw [refuse_bind]
  exact ⟨fun hbad => hbad rfl, rfl⟩

/-- What a `compareAndSwap` that succeeds leaves. -/
lemma Cell.compareAndSwap_ok {c c' : Cell} {expected : ProtectedSnapshot} {payload : Bytes}
    (h : c.compareAndSwap expected payload = .ok c') :
    c' = { record := some payload } ∧ payload ≠ []
      ∧ payload.length ≤ maxProtectedRecordBytes := by
  refine ⟨?_, Call.size_of_apply (show Call.apply (.compareAndSwap expected payload) c = .ok c' from h)⟩
  obtain ⟨_, _, h⟩ := of_bind_ok h
  obtain ⟨_, h⟩ := refuse_bind.mp h
  obtain ⟨_, h⟩ := refuse_bind.mp h
  obtain ⟨_, _, h⟩ := of_bind_ok h
  obtain ⟨_, h⟩ := refuse_bind.mp h
  cases h
  rfl

/-- What a `createImmutable` that succeeds leaves where there was no record. -/
lemma Cell.createImmutable_ok {c c' : Cell} {current : ProtectedSnapshot} {payload : Bytes}
    (hread : readProtected c.record = .ok current) (habsent : ¬ current.exists')
    (h : c.createImmutable payload = .ok c') :
    c' = { record := some payload } ∧ payload ≠ []
      ∧ payload.length ≤ maxProtectedRecordBytes := by
  refine ⟨?_, Call.size_of_apply (show Call.apply (.createImmutable payload) c = .ok c' from h)⟩
  obtain ⟨_, _, h⟩ := of_bind_ok h
  rw [hread] at h
  obtain ⟨_, hcurrent, h⟩ := of_bind_ok h
  cases hcurrent
  rw [if_neg habsent] at h
  obtain ⟨_, h⟩ := refuse_bind.mp h
  cases h
  rfl

lemma Disk.Sound.not_oversized {P : Bytes → Prop} {s : Disk} (h : s.Sound P) :
    ¬ s.cell.Oversized := by
  rw [Cell.Oversized, Disk.cell, Disk.pending]
  cases s.names.pending with
  | none => exact not_lt.mpr (Nat.zero_le _)
  | some i => exact not_lt.mpr (h.bounded i)

/-- **The record is replaced as a whole or not at all**: at every point of every history it reads
as absent or as one payload that was published; a `compareAndSwap` that expects anything else
than what is stored leaves the disk as it is; and after an interruption, with or without a power
failure, a `compareAndSwap` with the stored snapshot completes. -/
theorem record_replaced_whole {calls : List Call} {s : Disk} (h : Reached calls s) :
    (readProtected s.record = .ok absentProtectedSnapshot
        ∨ ∃ call ∈ calls, call.payload ∈ s.published
          ∧ readProtected s.record = .ok (snapshotOf call.payload))
      ∧ (∀ expected payload out s', readProtected s.record ≠ .ok expected →
          fileSystem.Runs (compareAndSwap expected payload) s out s' → s' = s)
      ∧ ∀ expected payload s₁ s₂, fileSystem.Runs (compareAndSwap expected payload) s none s₁ →
          s₂ = s₁ ∨ s₁.Lost s₂ →
          ∃ stored, readProtected s₂.record = .ok stored
            ∧ ∀ payload', payload' ≠ [] → payload'.length ≤ maxProtectedRecordBytes →
              ∃ s₃, exec Disk.step (compareAndSwap stored payload') s₂ = (.ok (), s₃)
                ∧ s₃.record = some payload' := by
  refine ⟨h.read, ?_, ?_⟩
  · intro expected payload out s' hstale hrun
    obtain ⟨e, he⟩ := Cell.compareAndSwap_stale (c := s.cell) payload hstale
    exact ((compareAndSwap_refused he).sound hrun).1
  · intro expected payload s₁ s₂ hrun hs₂
    have hcall : Reached (calls ++ [.compareAndSwap expected payload]) s₁ := .call h hrun
    have hreached : Reached (calls ++ [.compareAndSwap expected payload]) s₂ := by
      rcases hs₂ with rfl | hlost
      · exact hcall
      · exact hcall.powerFailure hlost
    have hread : ∃ stored, readProtected s₂.record = .ok stored := by
      rcases hreached.read with hread | ⟨call, _, _, hread⟩
      · exact ⟨_, hread⟩
      · exact ⟨_, hread⟩
    obtain ⟨stored, hstored⟩ := hread
    refine ⟨stored, hstored, fun payload' hne hsize => ?_⟩
    have hsound : s₂.Sound fun _ => True := hreached.sound.imp fun _ _ => trivial
    have hcell := Cell.compareAndSwap_stored hstored hsound.not_oversized hne hsize
    obtain ⟨_, hok, hrecord⟩ := (compareAndSwap_meets hsound trivial hcell).exec
    exact ⟨_, Prod.ext hok rfl, congrArg Cell.record hrecord⟩

/-- The disk after one publication. -/
def publishedOnce : Disk :=
  (exec Disk.step (compareAndSwap absentProtectedSnapshot (str "first")) {}).2

theorem record_replaced_whole_once :
    Reached ([] ++ [.compareAndSwap absentProtectedSnapshot (str "first")]) publishedOnce
      ∧ ∀ payload out s', readProtected publishedOnce.record ≠ .ok absentProtectedSnapshot →
        fileSystem.Runs (compareAndSwap absentProtectedSnapshot payload) publishedOnce out s' →
        s' = publishedOnce :=
  have h : Reached ([] ++ [.compareAndSwap absentProtectedSnapshot (str "first")]) publishedOnce :=
    .call .start (runs_ofFun.mpr rfl)
  ⟨h, fun payload out s' hstale hrun =>
    (record_replaced_whole h).2.1 absentProtectedSnapshot payload out s' hstale hrun⟩

end Subyard.Release
