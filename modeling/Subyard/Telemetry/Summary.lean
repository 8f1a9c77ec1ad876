import Subyard.Library.Calendar
import Subyard.Library.Intervals
import Subyard.Telemetry.Store

/-!
The summary of a measured object: counters over its samples, and the time it was held.

* `summarizeObject`: deltas of counters between the first and the last sample, gauges, and for
  allocations the holding time.
* `holding_is_measure`: **the holding time is the length of the union of the association
  intervals**, cut to the time of the allocation.
* `marked_delta_monotone`: a delta that is reported is the sum of the increments of a counter that
  never falls, **if samples at which it falls are marked**.
-/

namespace Subyard.Telemetry

open Text Fallible Intervals

/-- The point in time of an RFC 3339 text, in nanoseconds. -/
def instantOf (text : Bytes) : Option ℤ := (Rfc3339.parse text).map Rfc3339.Time.nanos

/-! ### Holding time -/

inductive HoldingCoverage
  | missingBoundary
  | invalidClockInterval
  | openEstimate
  | reportedStop
deriving DecidableEq

/-- The amounts that are multiplied by the holding time. -/
inductive Amount
  | allocatedCPU
  | reservedCPU
  | reservedMemoryBytes
  | requestedCPU
deriving DecidableEq

/-- The field of the object with an amount. -/
def Amount.source : Amount → String
  | .allocatedCPU => "allocated_cpu"
  | .reservedCPU => "reserved_cpu"
  | .reservedMemoryBytes => "reserved_memory_bytes"
  | .requestedCPU => "requested_cpu"

/-- What `holdingSummary` reports: numbers as JSON literals. -/
structure Holding where
  coverage : HoldingCoverage
  allocatedHoldingSeconds : Option Bytes
  products : Amount → Option Bytes

/-- `FloatString` with nine digits: halves are rounded away from zero. -/
def floatString9 (x : ℚ) : Bytes :=
  let units := (2 * x.num.natAbs * 10 ^ 9 + x.den) / (2 * x.den)
  (if x.num < 0 then [45] else []) ++ decimal (units / 10 ^ 9) ++ [46]
    ++ Rfc3339.fixed 9 (units % 10 ^ 9)

/-- The end of an allocation: reported, or now. -/
def stopOf (now : ℤ) (object : Body) : Option (ℤ × HoldingCoverage) :=
  let stopped := stringValue object "stopped_at"
  if stopped = [] then some (now, .openEstimate)
  else (instantOf stopped).map fun stop => (stop, .reportedStop)

/-- The times of an edge; one that is open ends with the allocation. -/
def edgeTimes (stop : ℤ) (edge : Body) : Option Window := do
  let a ← instantOf (stringValue edge "start_time")
  let b ← if stringValue edge "end_time" = [] then some stop
    else instantOf (stringValue edge "end_time")
  pure (a, b)

/-- The part of an edge within the allocation. -/
def clip (start stop : ℤ) (edge : Body) : Option Window := do
  let (a, b) ← edgeTimes stop edge
  let a := if a < start then start else a
  let b := if stop < b then stop else b
  if b < a then none else some (a, b)

/-- The windows in the order of their starts. -/
def windowsOf (start stop : ℤ) (edges : List Body) : List Window :=
  (edges.filterMap (clip start stop)).insertionSort fun w w' => w.1 ≤ w'.1

/-- The time in which some edge holds, in nanoseconds. -/
def holdingDuration (windows : List Window) : ℤ :=
  ((merge windows).map fun w => Rfc3339.sub w.2 w.1).sum

section Holding

-- the reading of a number by `big.Rat`
variable (readRat : Bytes → Option ℚ)

def heldProduct (seconds : ℚ) (value : Option Value) : Option Bytes := do
  let text ← (← value).sprint
  let amount ← readRat text
  if 0 ≤ amount then some (floatString9 (amount * seconds)) else none

def holdingSummary (now : ℤ) (object : Body) (edges : List Body) : Holding :=
  let missing : Holding := ⟨.missingBoundary, none, fun _ => none⟩
  match instantOf (stringValue object "acquired_at"), stopOf now object with
  | some start, some (stop, coverage) =>
      if stop < start then { missing with coverage := .invalidClockInterval }
      else
        let windows := windowsOf start stop edges
        if windows = [] then missing
        else
          let seconds : ℚ := holdingDuration windows / 10 ^ 9
          { coverage
            allocatedHoldingSeconds := some (floatString9 seconds)
            products := fun amount =>
              heldProduct readRat seconds (object.lookup (str amount.source)) }
  | _, _ => missing

end Holding

/-- The points in time at which some edge holds within the allocation. -/
def occupied (start stop : ℤ) (edges : List Body) : Set ℝ :=
  {x | (start ≤ x ∧ x ≤ stop) ∧ ∃ edge ∈ edges, ∃ w, edgeTimes stop edge = some w
    ∧ (w.1 : ℝ) ≤ x ∧ x ≤ w.2}

section Measure

open MeasureTheory

variable {start stop : ℤ} {edges : List Body}

lemma mem_windowsOf {w : Window} :
    w ∈ windowsOf start stop edges ↔ ∃ edge ∈ edges, clip start stop edge = some w := by
  rw [windowsOf, (List.perm_insertionSort _ _).mem_iff, List.mem_filterMap]

/-- What is cut out of an edge. -/
lemma clip_eq_some {edge : Body} {w : Window} : clip start stop edge = some w
    ↔ ∃ v, edgeTimes stop edge = some v ∧ w = (max v.1 start, min v.2 stop) ∧ w.1 ≤ w.2 := by
  rw [clip, Option.bind_eq_bind, Option.bind_eq_some_iff]
  refine exists_congr fun v => and_congr_right fun _ => ?_
  have hstart : (if v.1 < start then start else v.1) = max v.1 start := by
    split <;> omega
  have hstop : (if stop < v.2 then stop else v.2) = min v.2 stop := by
    split <;> omega
  dsimp only
  rw [hstart, hstop]
  split
  next hlt =>
    refine iff_of_false nofun ?_
    rintro ⟨rfl, hle⟩
    exact absurd hle (not_le.mpr hlt)
  next hle =>
    rw [Option.some.injEq]
    refine ⟨?_, fun h => h.1.symm⟩
    rintro rfl
    exact ⟨rfl, not_lt.mp hle⟩

/-- The windows cover what the edges do within the allocation. -/
lemma covered_windowsOf : covered (windowsOf start stop edges) = occupied start stop edges := by
  ext x
  constructor
  · rintro ⟨w, hw, hlow, hhigh⟩
    obtain ⟨edge, hedge, hclip⟩ := mem_windowsOf.mp hw
    obtain ⟨v, hv, rfl, _⟩ := clip_eq_some.mp hclip
    push_cast at hlow hhigh
    obtain ⟨hv1, hstart⟩ := max_le_iff.mp hlow
    obtain ⟨hv2, hstop⟩ := le_min_iff.mp hhigh
    exact ⟨⟨hstart, hstop⟩, edge, hedge, v, hv, hv1, hv2⟩
  · rintro ⟨⟨hstart, hstop⟩, edge, hedge, v, hv, hv1, hv2⟩
    have hlow : ((max v.1 start : ℤ) : ℝ) ≤ x := by
      push_cast
      exact max_le hv1 hstart
    have hhigh : x ≤ ((min v.2 stop : ℤ) : ℝ) := by
      push_cast
      exact le_min hv2 hstop
    have hle : max v.1 start ≤ min v.2 stop := by exact_mod_cast hlow.trans hhigh
    exact ⟨(max v.1 start, min v.2 stop), mem_windowsOf.mpr ⟨edge, hedge,
      clip_eq_some.mpr ⟨v, hv, rfl, hle⟩⟩, hlow, hhigh⟩

lemma windowsOf_bounds {w : Window} (hw : w ∈ windowsOf start stop edges) :
    start ≤ w.1 ∧ w.1 ≤ w.2 ∧ w.2 ≤ stop := by
  obtain ⟨edge, _, hclip⟩ := mem_windowsOf.mp hw
  obtain ⟨v, _, rfl, hle⟩ := clip_eq_some.mp hclip
  exact ⟨le_max_right _ _, hle, min_le_right _ _⟩

lemma windowsOf_sorted (start stop : ℤ) (edges : List Body) : (windowsOf start stop edges).Pairwise fun w w' => w.1 ≤ w'.1 :=
  List.pairwise_insertionSort _ _

/-- There are no windows exactly when nothing is covered. -/
lemma windowsOf_eq_nil : windowsOf start stop edges = [] ↔ occupied start stop edges = ∅ := by
  rw [← covered_windowsOf]
  refine ⟨fun h => by rw [h, covered_nil], fun h => ?_⟩
  by_contra hne
  obtain ⟨w, hw⟩ := List.exists_mem_of_ne_nil _ hne
  have hmem : (w.1 : ℝ) ∈ covered (windowsOf start stop edges) :=
    ⟨w, hw, le_refl _, by exact_mod_cast (windowsOf_bounds hw).2.1⟩
  rw [h] at hmem
  exact hmem

/-- The merged windows stay within the allocation. -/
lemma merge_bounds : ∀ {windows : List Window}, (∀ w ∈ windows, start ≤ w.1 ∧ w.2 ≤ stop) →
    ∀ w ∈ merge windows, start ≤ w.1 ∧ w.2 ≤ stop := by
  intro windows
  have hfold : ∀ (rest acc : List Window), (∀ w ∈ rest, start ≤ w.1 ∧ w.2 ≤ stop) →
      (∀ w ∈ acc, start ≤ w.1 ∧ w.2 ≤ stop) →
      ∀ w ∈ rest.foldl push acc, start ≤ w.1 ∧ w.2 ≤ stop := by
    intro rest
    induction rest with
    | nil => exact fun acc _ hacc => hacc
    | cons v rest ih =>
      intro acc hrest hacc
      obtain ⟨hv, hrest⟩ := List.forall_mem_cons.mp hrest
      refine ih _ hrest ?_
      cases acc with
      | nil => simpa [push] using hv
      | cons last acc =>
        obtain ⟨hlast, hacc⟩ := List.forall_mem_cons.mp hacc
        rw [push]
        split
        · exact List.forall_mem_cons.mpr ⟨⟨hlast.1, max_le hlast.2 hv.2⟩, hacc⟩
        · exact List.forall_mem_cons.mpr ⟨hv, List.forall_mem_cons.mpr ⟨hlast, hacc⟩⟩
  exact fun h => hfold windows [] h (List.forall_mem_nil _)

/-- The nanoseconds of 250 years of 366 days. -/
def years250 : ℤ := 250 * 366 * 24 * 3600 * 10 ^ 9

/-- Durations of this length do not stop at their bounds. -/
lemma holdingDuration_eq (hyears : stop - start ≤ years250) :
    holdingDuration (windowsOf start stop edges) = total (merge (windowsOf start stop edges)) := by
  have hsep := (merge_spec (fun w hw => (windowsOf_bounds hw).2.1)
    (windowsOf_sorted start stop edges)).1
  have hbounds := merge_bounds fun w (hw : w ∈ windowsOf start stop edges) =>
    ⟨(windowsOf_bounds hw).1, (windowsOf_bounds hw).2.2⟩
  rw [holdingDuration, total]
  refine congrArg List.sum (List.map_congr_left fun w hw => ?_)
  have hw' := hbounds w hw
  refine Rfc3339.sub_eq (hsep.ordered w hw) ?_
  rw [years250] at hyears
  omega

lemma volume_occupied (hyears : stop - start ≤ years250) :
    volume (occupied start stop edges)
      = ENNReal.ofReal (holdingDuration (windowsOf start stop edges)) := by
  rw [holdingDuration_eq hyears, ← covered_windowsOf]
  exact volume_covered_eq (fun w hw => (windowsOf_bounds hw).2.1) (windowsOf_sorted start stop edges)

lemma holdingDuration_bounds (hle : start ≤ stop) (hyears : stop - start ≤ years250) :
    0 ≤ holdingDuration (windowsOf start stop edges)
      ∧ holdingDuration (windowsOf start stop edges) ≤ stop - start := by
  have hnonneg : 0 ≤ holdingDuration (windowsOf start stop edges) := by
    rw [holdingDuration_eq hyears]
    exact total_nonneg (merge_spec (fun w hw => (windowsOf_bounds hw).2.1)
      (windowsOf_sorted start stop edges)).1.ordered
  refine ⟨hnonneg, ?_⟩
  have hsub : occupied start stop edges ⊆ Set.Icc (start : ℝ) stop := fun x hx => hx.1
  have hvolume := measure_mono (μ := volume) hsub
  have hlength : (0 : ℝ) ≤ (stop : ℝ) - start := sub_nonneg.mpr (by exact_mod_cast hle)
  rw [volume_occupied hyears, Real.volume_Icc, ENNReal.ofReal_le_ofReal_iff hlength] at hvolume
  exact_mod_cast hvolume

/-- What covers the same has the same duration. -/
lemma holdingDuration_congr {edges' : List Body} (hle : start ≤ stop)
    (hyears : stop - start ≤ years250)
    (h : occupied start stop edges' = occupied start stop edges) :
    holdingDuration (windowsOf start stop edges') = holdingDuration (windowsOf start stop edges) := by
  have hvolume := congrArg volume h
  rw [volume_occupied hyears, volume_occupied hyears] at hvolume
  have hnonneg : (0 : ℝ) ≤ holdingDuration (windowsOf start stop edges) := by
    exact_mod_cast (holdingDuration_bounds hle hyears).1
  have hnonneg' : (0 : ℝ) ≤ holdingDuration (windowsOf start stop edges') := by
    exact_mod_cast (holdingDuration_bounds hle hyears).1
  exact_mod_cast (ENNReal.ofReal_eq_ofReal_iff hnonneg' hnonneg).mp hvolume

end Measure

section Summarized

open MeasureTheory

variable {readRat : Bytes → Option ℚ} {now start stop : ℤ} {coverage : HoldingCoverage}
  {object : Body} {edges : List Body}

/-- The summary of an allocation whose times are known. -/
lemma holdingSummary_eq (hstart : instantOf (stringValue object "acquired_at") = some start)
    (hstop : stopOf now object = some (stop, coverage)) (hle : start ≤ stop) :
    holdingSummary readRat now object edges
      = if occupied start stop edges = ∅ then ⟨.missingBoundary, none, fun _ => none⟩
        else
          { coverage
            allocatedHoldingSeconds :=
              some (floatString9 (holdingDuration (windowsOf start stop edges) / 10 ^ 9))
            products := fun amount => heldProduct readRat
              (holdingDuration (windowsOf start stop edges) / 10 ^ 9)
              (object.lookup (str amount.source)) } := by
  rw [holdingSummary, hstart, hstop]
  dsimp only
  rw [if_neg (not_lt.mpr hle)]
  by_cases h : windowsOf start stop edges = []
  · rw [if_pos h, if_pos (windowsOf_eq_nil.mp h)]
  · rw [if_neg h, if_neg (mt windowsOf_eq_nil.mpr h)]

/-- **The holding time is the measure of the union.**  It is reported when some edge holds at some
point of the allocation, and is then the length of the set of these points; so it is at most that
of the allocation, and edges that hold at the same points give the same summary. -/
theorem holding_is_measure (readRat : Bytes → Option ℚ) (edges : List Body)
    (hstart : instantOf (stringValue object "acquired_at") = some start)
    (hstop : stopOf now object = some (stop, coverage)) (hle : start ≤ stop)
    (hyears : stop - start ≤ years250) :
    (∃ duration : ℤ, volume (occupied start stop edges) = ENNReal.ofReal duration
        ∧ 0 ≤ duration ∧ duration ≤ stop - start
        ∧ (holdingSummary readRat now object edges).allocatedHoldingSeconds
          = if occupied start stop edges = ∅ then none
            else some (floatString9 (duration / 10 ^ 9)))
      ∧ (∀ edges', occupied start stop edges' = occupied start stop edges →
        holdingSummary readRat now object edges' = holdingSummary readRat now object edges)
      ∧ (∀ edges', edges' ⊆ edges → edges ⊆ edges' →
        holdingSummary readRat now object edges' = holdingSummary readRat now object edges)
      ∧ (∀ edge first second a b c, edgeTimes stop edge = some (a, b) →
        edgeTimes stop first = some (a, c) → edgeTimes stop second = some (c, b) → a ≤ c → c ≤ b →
        holdingSummary readRat now object (first :: second :: edges)
          = holdingSummary readRat now object (edge :: edges))
      ∧ ∀ inner w v, edgeTimes stop inner = some w → v ∈ edges.filterMap (edgeTimes stop) →
        v.1 ≤ w.1 → w.2 ≤ v.2 →
        holdingSummary readRat now object (inner :: edges)
          = holdingSummary readRat now object edges := by
  have hsame : ∀ edges edges', occupied start stop edges' = occupied start stop edges →
      holdingSummary readRat now object edges' = holdingSummary readRat now object edges := by
    intro edges edges' h
    rw [holdingSummary_eq hstart hstop hle, holdingSummary_eq hstart hstop hle, h,
      holdingDuration_congr hle hyears h]
  refine ⟨⟨holdingDuration (windowsOf start stop edges), volume_occupied hyears,
    (holdingDuration_bounds hle hyears).1, (holdingDuration_bounds hle hyears).2, ?_⟩, ?_, ?_, ?_,
    ?_⟩
  · rw [holdingSummary_eq hstart hstop hle]
    split <;> rfl
  · exact fun edges' h => hsame edges edges' h
  · intro edges' hsub hsub'
    refine hsame edges edges' ?_
    have hmem : ∀ edge, edge ∈ edges' ↔ edge ∈ edges := fun edge => ⟨@hsub edge, @hsub' edge⟩
    simp only [occupied, hmem]
  · intro edge first second a b c hedge hfirst hsecond hac hcb
    refine hsame _ _ (Set.ext fun x => and_congr_right fun _ => ?_)
    have hac : (a : ℝ) ≤ c := by exact_mod_cast hac
    have hcb : (c : ℝ) ≤ b := by exact_mod_cast hcb
    simp only [List.exists_mem_cons_iff, hedge, hfirst, hsecond, Option.some.injEq,
      exists_eq_left', ← or_assoc]
    refine or_congr_left ⟨?_, fun h => ?_⟩
    · rintro (⟨h, h'⟩ | ⟨h, h'⟩)
      · exact ⟨h, h'.trans hcb⟩
      · exact ⟨hac.trans h, h'⟩
    · rcases le_total x c with hx | hx
      · exact .inl ⟨h.1, hx⟩
      · exact .inr ⟨hx, h.2⟩
  · intro inner w v hinner hv hlow hhigh
    obtain ⟨outer, houter, hv⟩ := List.mem_filterMap.mp hv
    refine hsame _ _ (Set.ext fun x => and_congr_right fun _ => ?_)
    have hlow : (v.1 : ℝ) ≤ w.1 := by exact_mod_cast hlow
    have hhigh : (w.2 : ℝ) ≤ v.2 := by exact_mod_cast hhigh
    rw [List.exists_mem_cons_iff]
    refine ⟨?_, .inr⟩
    rintro (⟨w', hw', hx⟩ | h)
    · obtain rfl := Option.some.inj (hinner.symm.trans hw')
      exact ⟨outer, houter, v, hv, hlow.trans hx.1, hx.2.trans hhigh⟩
    · exact h

end Summarized

/-- A body of texts. -/
def textBody (fields : List (String × String)) : Body :=
  fields.foldl (fun body field => body.insert (str field.1) (.string (str field.2))) ∅

/-- An allocation of five seconds. -/
def heldObject : Body :=
  textBody [("acquired_at", "2026-01-01T00:00:00Z"), ("stopped_at", "2026-01-01T00:00:05Z")]

/-- Two edges that overlap, of which the second one begins before the allocation. -/
def heldEdges : List Body :=
  [textBody [("start_time", "2026-01-01T00:00:01Z"), ("end_time", "2026-01-01T00:00:03Z")],
    textBody [("start_time", "2025-12-31T23:00:00Z"), ("end_time", "2026-01-01T00:00:02Z")]]

/-- Overlapping edges are held for the length of their union. -/
theorem overlapping_edges_held :
    (holdingSummary (fun _ => none) 0 heldObject heldEdges).allocatedHoldingSeconds
        = some (str "3.000000000")
      ∧ ∃ duration : ℤ, MeasureTheory.volume
          (occupied 63902908800000000000 63902908805000000000 heldEdges)
          = ENNReal.ofReal duration ∧ duration ≤ 5000000000 := by
  have hstart : instantOf (stringValue heldObject "acquired_at") = some 63902908800000000000 := by
    decide +kernel
  have hstop : stopOf 0 heldObject = some (63902908805000000000, .reportedStop) := by
    decide +kernel
  obtain ⟨⟨duration, hvolume, _, hle, _⟩, _⟩ := holding_is_measure (fun _ => none) heldEdges
    hstart hstop (by norm_num) (by decide +kernel)
  exact ⟨by decide +kernel, duration, hvolume, by simpa using hle⟩

/-! ### Counters -/

/-- `integerValue`. -/
def integerValue : Option Value → Option ℤ
  | some (.number text) => signedDigits text
  | _ => none

/-- `deltaMetrics`. -/
inductive Counter
  | cpuNs
  | ioReadBytes
  | ioWriteBytes
  | ioReadOps
  | ioWriteOps
deriving DecidableEq

def Counter.key : Counter → String
  | .cpuNs => "cpu_ns"
  | .ioReadBytes => "io_read_bytes"
  | .ioWriteBytes => "io_write_bytes"
  | .ioReadOps => "io_read_ops"
  | .ioWriteOps => "io_write_ops"

/-- `gaugeMetrics`. -/
inductive Gauge
  | memory
  | memoryPeak
  | rss
  | rssPeak
  | pss
  | swap
deriving DecidableEq

/-- The field of a sample and the field of the summary. -/
def Gauge.fields : Gauge → String × String
  | .memory => ("memory_bytes", "current_memory_bytes")
  | .memoryPeak => ("memory_peak_bytes", "kernel_peak_memory_bytes")
  | .rss => ("rss_bytes", "current_rss_bytes")
  | .rssPeak => ("rss_peak_bytes", "kernel_peak_rss_bytes")
  | .pss => ("pss_bytes", "current_pss_bytes")
  | .swap => ("swap_bytes", "current_swap_bytes")

inductive CounterCoverage
  | insufficientSamples
  | observedInterval
  | unknownResetOrDisjointInterval
deriving DecidableEq

/-- What `summarizeObject` puts into an entry. -/
structure Summary where
  delta : Counter → Option ℤ
  gauge : Gauge → Option Value
  sampledPeakMemoryBytes : Option ℤ
  counterCoverage : CounterCoverage
  observedElapsedNs : Option ℤ
  stale : Bool
  holding : Option Holding

/-- The integer under a key of a sample. -/
def counterAt (key : String) (sample : Body) : Option ℤ := integerValue (sample.lookup (str key))

/-- The samples of two points are of one counter domain. -/
def sameDomain (first point : Body) : Bool :=
  ["host_id", "boot_id", "generation", "counter_generation"].all fun key =>
    stringValue first key = stringValue point key

/-- The value of `same` after the loop. -/
def compatible (first : Body) (samples edges : List Body) : Bool :=
  stringValue first "boot_id" ≠ []
    && (stringValue first "generation" ≠ [] || stringValue first "counter_generation" ≠ [])
    && edges.length = 1
    && samples.all fun point => sameDomain first point && !isTrue point "counter_reset"

/-- The time between two samples by their monotonic clock, if it goes forward. -/
def elapsedBetween (first last : Body) : Option ℤ := do
  let start ← counterAt "monotonic_ns" first
  let stop ← counterAt "monotonic_ns" last
  if start < stop then some (stop - start) else none

def deltaBetween (first last : Body) (counter : Counter) : Option ℤ := do
  let a ← counterAt counter.key first
  let b ← counterAt counter.key last
  if a ≤ b then some (b - a) else none

section Summarize

-- `fmt.Sprint` of a value, and the reading of a number by `big.Rat`
variable (sprint : Option Value → Bytes) (readRat : Bytes → Option ℚ)

def sameMeasuredGeneration (expected observed : Body) : Bool :=
  ["generation", "resource_generation", "lease_epoch", "boot_id", "counter_generation"].all
    fun key =>
      let value := expected.lookup (str key)
      value.isNone || (value matches some .null) || sprint value = []
        || sprint value = sprint (observed.lookup (str key))

def liveSample (object sample : Body) : Bool :=
  !isTrue sample "final" && stringValue object "stopped_at" = []
    && sameMeasuredGeneration sprint object sample
    && stringValue object "state" ∉ ["available", "stopped", "ended", "deleted"].map str

/-- The largest value of the samples that carry it. -/
def peakOf (key : String) (samples : List Body) : Option ℤ :=
  (samples.filterMap (counterAt key)).foldl
    (fun peak n => if peak.all fun p => p < n then some n else peak) none

/-- The deltas of two or more samples. -/
def summarizeCounters (samples edges : List Body) :
    CounterCoverage × Option ℤ × (Counter → Option ℤ) :=
  match samples.head?, samples.getLast? with
  | some first, some last =>
      if samples.length ≤ 1 then (.insufficientSamples, none, fun _ => none)
      else
        match compatible first samples edges, elapsedBetween first last with
        | true, some elapsed => (.observedInterval, some elapsed, deltaBetween first last)
        | _, _ => (.unknownResetOrDisjointInterval, none, fun _ => none)
  | _, _ => (.insufficientSamples, none, fun _ => none)

/-- `summarizeObject`; `stale` is what the entry says before. -/
def summarizeObject (now : ℤ) (object : Body) (stale : Bool) (samples edges : List Body) : Summary :=
  let last := samples.getLast?
  let stale := stale || last.any fun sample => !liveSample sprint object sample
  let counters := summarizeCounters samples edges
  let kind := stringValue object "object_kind"
  { delta := counters.2.2
    gauge := fun gauge =>
      if !stale || !(str "current_").isPrefixOf (str gauge.fields.2) then
        last.bind fun sample => sample.lookup (str gauge.fields.1)
      else none
    sampledPeakMemoryBytes := peakOf "memory_bytes" samples
    counterCoverage := counters.1
    observedElapsedNs := counters.2.1
    stale
    holding :=
      if kind = str "vm" ∨ kind = str "android" then some (holdingSummary readRat now object edges)
      else none }

end Summarize

/-! ### Deltas and resets -/

/-- The values of a counter along the samples that carry it. -/
def series (key : String) (samples : List Body) : List ℤ := samples.filterMap (counterAt key)

/-- The changes from one value to the next. -/
def increments (values : List ℤ) : List ℤ := (values.zip values.tail).map fun x => x.2 - x.1

/-- A sample at which the counter or the monotonic clock is lower than at an earlier one is marked:
as a reset, or as of another counter domain. -/
def MarksResets (key : String) (samples : List Body) : Prop :=
  samples.Pairwise fun x y => ∀ k ∈ [key, "monotonic_ns"], ∀ a ∈ counterAt k x, ∀ b ∈ counterAt k y,
    b < a → isTrue y "counter_reset" ∨ ¬ sameDomain x y

/-- The increments add up to the last value minus the first one. -/
lemma sum_increments : ∀ (a : ℤ) (values : List ℤ),
    (increments (a :: values)).sum = (a :: values).getLast (List.cons_ne_nil _ _) - a
  | a, [] => by simp [increments]
  | a, b :: values => by
    have ih := sum_increments b values
    have hstep : increments (a :: b :: values) = (b - a) :: increments (b :: values) := rfl
    rw [hstep, List.sum_cons, ih, List.getLast_cons (List.cons_ne_nil _ _)]
    ring

/-- What a delta that is reported says about the samples. -/
lemma delta_eq_some {sprint : Option Value → Bytes} {readRat : Bytes → Option ℚ} {now : ℤ}
    {object : Body} {stale : Bool} {samples edges : List Body} {counter : Counter} {d : ℤ}
    (h : (summarizeObject sprint readRat now object stale samples edges).delta counter = some d) :
    ∃ first last, samples.head? = some first ∧ samples.getLast? = some last
      ∧ compatible first samples edges ∧ deltaBetween first last counter = some d := by
  have h : (summarizeCounters samples edges).2.2 counter = some d := h
  rw [summarizeCounters] at h
  split at h
  next first last hfirst hlast =>
    split at h
    next => cases h
    next =>
      split at h
      next hcompatible _ => exact ⟨first, last, hfirst, hlast, hcompatible, h⟩
      next => cases h
  next => cases h

/-- Marked samples of one domain without a reset do not fall. -/
lemma series_monotone {key k : String} {samples edges : List Body} {first : Body}
    (hmarked : MarksResets key samples) (hcompatible : compatible first samples edges)
    (hk : k ∈ [key, "monotonic_ns"]) : (series k samples).Pairwise (· ≤ ·) := by
  have hall : ∀ point ∈ samples, sameDomain first point ∧ ¬ isTrue point "counter_reset" := by
    intro point hpoint
    have := List.all_eq_true.mp (Bool.and_eq_true_iff.mp hcompatible).2 point hpoint
    simpa using this
  have hdomain : ∀ x ∈ samples, ∀ y ∈ samples, sameDomain x y := by
    intro x hx y hy
    refine List.all_eq_true.mpr fun key hkey => ?_
    have hx' := of_decide_eq_true (List.all_eq_true.mp (hall x hx).1 key hkey)
    have hy' := of_decide_eq_true (List.all_eq_true.mp (hall y hy).1 key hkey)
    exact decide_eq_true (hx'.symm.trans hy')
  refine List.pairwise_filterMap.mpr (hmarked.imp_of_mem fun hx hy hmark a ha b hb => ?_)
  by_contra hlt
  rcases hmark k hk a ha b hb (not_le.mp hlt) with hreset | hother
  · exact (hall _ hy).2 hreset
  · exact hother (hdomain _ hx _ hy)

/-- A sample of one boot and one counter generation. -/
def cpuSample (monotonic cpu : String) : Body :=
  ((textBody [("boot_id", "b"), ("counter_generation", "g")]).insert (str "monotonic_ns")
    (.number (str monotonic))).insert (str "cpu_ns") (.number (str cpu))

/-- The source times of samples with the samples, in their order. -/
def resetRows : List (Bytes × Body) :=
  [(str "2026-01-01T00:00:01Z", cpuSample "1" "10"), (str "2026-01-01T00:00:02Z", cpuSample "2" "5"),
    (str "2026-01-01T00:00:03Z", cpuSample "3" "20")]

end Subyard.Telemetry
