import Adas.EventMachine
import Adas.NearestRank
import Mathlib.Algebra.Order.Archimedean.Basic
import Mathlib.Data.Rat.Floor
import Mathlib.Tactic.NormNum

/-!
# The percentiles of the latency report

The collector of latency samples sorts its own storage whenever a percentile is
asked for, and samples may still be added afterwards.  The script that reads the
samples back computes its percentiles from a sorted list.  In exact arithmetic
both are the nearest-rank percentile of the samples, in whatever order these
were added and whichever percentiles were asked for in between.
-/

namespace Adas.Metrics

open NearestRank

/-- Microseconds in milliseconds. -/
def toMs (microseconds : Int) : ℚ :=
  (microseconds : ℚ) / 1000

structure LatencyStats where
  samples : List Int := []
  deriving DecidableEq, Repr

namespace LatencyStats

/-- `std::sort` and `list.sort` of numbers. -/
def sort {α : Type} [LinearOrder α] (values : List α) : List α :=
  values.mergeSort fun first second => decide (first ≤ second)

def add (stats : LatencyStats) (microseconds : Int) : LatencyStats :=
  { samples := stats.samples ++ [microseconds] }

/-- The answer and the collector with its storage sorted. -/
def percentileMs (stats : LatencyStats) (ratio : ℚ) : LatencyStats × ℚ :=
  if stats.samples.isEmpty then
    (stats, 0)
  else
    let samples := sort stats.samples
    let clamped := if ratio < 0 then 0 else if 1 < ratio then 1 else ratio
    -- The rank counts from one.
    let rank := ⌈clamped * samples.length⌉
    let index := if rank < 1 then 0 else rank.toNat - 1
    ({ samples := samples },
      toMs (samples.getD (if index < samples.length then index else samples.length - 1) 0))

def minMs (stats : LatencyStats) : LatencyStats × ℚ :=
  stats.percentileMs 0

def maxMs (stats : LatencyStats) : LatencyStats × ℚ :=
  stats.percentileMs 1

inductive Call where
  | add (microseconds : Int)
  | percentileMs (ratio : ℚ)
  | minMs
  | maxMs
  deriving DecidableEq, Repr

def step (stats : LatencyStats) : Call → LatencyStats × Option ℚ
  | .add microseconds => (stats.add microseconds, none)
  | .percentileMs ratio => ((stats.percentileMs ratio).1, some (stats.percentileMs ratio).2)
  | .minMs => (stats.minMs.1, some stats.minMs.2)
  | .maxMs => (stats.maxMs.1, some stats.maxMs.2)

/-- The collector as a machine that is called. -/
def machine : EventMachine LatencyStats Call (Option ℚ) where
  init := {}
  step := step

def Call.sample : Call → Option Int
  | .add microseconds => some microseconds
  | _ => none

/-- The samples that some calls add, in the order of the calls. -/
def added (calls : List Call) : List Int :=
  calls.filterMap Call.sample

/-- What `percentileMs` answers after some calls. -/
def percentileAfter (calls : List Call) (ratio : ℚ) : ℚ :=
  ((machine.runFrom machine.init calls).percentileMs ratio).2

end LatencyStats

end Adas.Metrics

namespace Adas.SummarizeMeasurement

open Adas.Metrics

/-- `series` of a column with the given integers. -/
def series (column : List Int) : List ℚ :=
  LatencyStats.sort (column.map toMs)

def percentile (sortedValues : List ℚ) (ratio : ℚ) : ℚ :=
  if sortedValues.isEmpty then
    0
  else
    let rank := ⌈ratio * sortedValues.length⌉
    let index := max 0 (min ((sortedValues.length : Int) - 1) (rank - 1))
    sortedValues.getD index.toNat 0

end Adas.SummarizeMeasurement

namespace Adas.Metrics.LatencyStats

open NearestRank

section Sorting

variable {α : Type} [LinearOrder α]

theorem sort_perm (values : List α) : (sort values).Perm values :=
  List.mergeSort_perm _ _

theorem sort_sorted (values : List α) : (sort values).Pairwise (· ≤ ·) :=
  List.pairwise_mergeSort' (· ≤ ·) values

theorem sort_length (values : List α) : (sort values).length = values.length :=
  (sort_perm values).length_eq

/-- Lists with the same members are sorted alike. -/
theorem sort_congr {values other : List α} (perm : values.Perm other) :
    sort values = sort other :=
  ((sort_perm values).trans (perm.trans (sort_perm other).symm)).eq_of_pairwise'
    (sort_sorted values) (sort_sorted other)

theorem toMs_le_toMs {first second : Int} : toMs first ≤ toMs second ↔ first ≤ second := by
  rw [toMs, toMs, div_le_div_iff_of_pos_right (by norm_num), Int.cast_le]

theorem series_eq (column : List Int) :
    SummarizeMeasurement.series column = (sort column).map toMs := by
  refine (List.map_mergeSort ?_).symm
  intro first _ second _
  exact decide_eq_decide.mpr toMs_le_toMs.symm

end Sorting

section Answers

variable {samples : List Int}

/-- The sample that both programs select. -/
def selected (samples : List Int) (ratio : ℚ) : Int :=
  (sort samples).getD (position ratio samples.length) 0

theorem clamped_eq (ratio : ℚ) :
    (if ratio < 0 then 0 else if 1 < ratio then 1 else ratio) = max 0 (min 1 ratio) := by
  split_ifs with negative large
  · exact (max_eq_left ((min_le_right _ _).trans negative.le)).symm
  · rw [min_eq_left large.le, max_eq_right zero_le_one]
  · rw [min_eq_right (not_lt.mp large), max_eq_right (not_lt.mp negative)]

theorem percentileMs_eq (stats : LatencyStats) (nonempty : stats.samples ≠ [])
    (ratio : ℚ) :
    stats.percentileMs ratio =
      ({ samples := sort stats.samples }, toMs (selected stats.samples ratio)) := by
  have positive : 0 < stats.samples.length := List.length_pos_iff.mpr nonempty
  have isIndex : ∀ rank : Int,
      (if (if rank < 1 then 0 else rank.toNat - 1) < stats.samples.length then
        (if rank < 1 then 0 else rank.toNat - 1) else stats.samples.length - 1) =
      min (stats.samples.length - 1) (rank - 1).toNat := by
    intro rank
    split_ifs <;> omega
  rw [percentileMs, if_neg (by simpa using nonempty)]
  simp only [clamped_eq, sort_length, isIndex]
  rw [selected, ← position_limited ratio positive, position]

theorem percentile_series (nonempty : samples ≠ []) (ratio : ℚ) :
    SummarizeMeasurement.percentile (SummarizeMeasurement.series samples) ratio =
      toMs (selected samples ratio) := by
  have positive : 0 < samples.length := List.length_pos_iff.mpr nonempty
  have length : (SummarizeMeasurement.series samples).length = samples.length := by
    rw [series_eq, List.length_map, sort_length]
  have isIndex : ∀ rank : Int,
      (max 0 (min ((samples.length : Int) - 1) (rank - 1))).toNat =
      min (samples.length - 1) (rank - 1).toNat := by
    intro rank
    omega
  have notEmpty : ¬(SummarizeMeasurement.series samples).isEmpty = true := by
    rw [List.isEmpty_iff_length_eq_zero, length]
    exact positive.ne'
  have isZero : toMs 0 = 0 := by norm_num [toMs]
  rw [SummarizeMeasurement.percentile, if_neg notEmpty]
  simp only [length, isIndex]
  rw [selected, series_eq, ← isZero, List.getD_map, position]

/-- The selected sample is the nearest-rank percentile for the limited ratio. -/
theorem isPercentile_selected (nonempty : samples ≠ []) (ratio : ℚ) :
    IsPercentile (max 0 (min 1 ratio)) samples (selected samples ratio) := by
  have positive : 0 < samples.length := List.length_pos_iff.mpr nonempty
  have positiveSorted : 0 < (sort samples).length := (sort_length samples).symm ▸ positive
  have small : max 0 (min 1 ratio) ≤ 1 := max_le zero_le_one (min_le_left _ _)
  have atPosition := isPercentile_position (sort_sorted samples) positiveSorted small 0
  rw [sort_length, position_limited ratio positive] at atPosition
  exact atPosition.perm (sort_perm samples)

end Answers

section Calls

theorem added_append (calls more : List Call) :
    added (calls ++ more) = added calls ++ added more :=
  List.filterMap_append

/-- Asking for a percentile changes nothing but the order of the storage. -/
theorem percentileMs_perm (stats : LatencyStats) (ratio : ℚ) :
    (stats.percentileMs ratio).1.samples.Perm stats.samples := by
  by_cases empty : stats.samples = []
  · rw [percentileMs, if_pos (by simpa using empty)]
  · rw [percentileMs_eq stats empty]
    exact sort_perm stats.samples

theorem step_perm (stats : LatencyStats) (call : Call) :
    (stats.step call).1.samples.Perm (stats.samples ++ added [call]) := by
  have asks : ∀ ratio, (stats.percentileMs ratio).1.samples.Perm (stats.samples ++ []) := by
    intro ratio
    rw [List.append_nil]
    exact percentileMs_perm stats ratio
  cases call with
  | add microseconds => exact List.Perm.refl _
  | percentileMs ratio => exact asks ratio
  | minMs => exact asks 0
  | maxMs => exact asks 1

/-- The storage holds the samples that have been added, in some order. -/
theorem runFrom_perm (calls : List Call) :
    (machine.runFrom machine.init calls).samples.Perm (added calls) := by
  refine machine.run_induction
    (fun past stats _ => stats.samples.Perm (added past)) (List.Perm.refl _) ?_ calls
  intro past stats _ call perm
  rw [added_append]
  exact (step_perm stats call).trans (perm.append_right _)

theorem selected_congr {samples other : List Int} (perm : samples.Perm other) (ratio : ℚ) :
    selected samples ratio = selected other ratio := by
  rw [selected, selected, sort_congr perm, perm.length_eq]

theorem percentileAfter_eq {calls : List Call} (nonempty : added calls ≠ []) (ratio : ℚ) :
    percentileAfter calls ratio = toMs (selected (added calls) ratio) := by
  have perm := runFrom_perm calls
  have stored : (machine.runFrom machine.init calls).samples ≠ [] := by
    intro empty
    rw [empty] at perm
    exact nonempty perm.nil_eq.symm
  rw [percentileAfter, percentileMs_eq _ stored, selected_congr perm]

/-- After any calls that add a sample, the collector answers with the sample
that the script selects, which is the nearest-rank percentile. -/
theorem percentiles_agree (calls : List Call) (nonempty : added calls ≠ []) (ratio : ℚ) :
    percentileAfter calls ratio =
      SummarizeMeasurement.percentile (SummarizeMeasurement.series (added calls)) ratio ∧
    (∃ sample, percentileAfter calls ratio = toMs sample ∧
      (0 ≤ ratio → ratio ≤ 1 → IsPercentile ratio (added calls) sample) ∧
      (ratio ≤ 0 → IsLeast {value | value ∈ added calls} sample) ∧
      (1 ≤ ratio → IsGreatest {value | value ∈ added calls} sample)) ∧
    (∀ other, (added calls).Perm (added other) →
      percentileAfter other ratio = percentileAfter calls ratio) ∧
    ∀ larger, ratio ≤ larger →
      percentileAfter calls ratio ≤ percentileAfter calls larger := by
  have isPercentile := isPercentile_selected nonempty ratio
  refine ⟨?_, ⟨selected (added calls) ratio, percentileAfter_eq nonempty ratio, ?_, ?_, ?_⟩,
    ?_, ?_⟩
  · rw [percentileAfter_eq nonempty, percentile_series nonempty]
  · intro nonneg small
    rwa [min_eq_right small, max_eq_right nonneg] at isPercentile
  · intro nonpos
    rw [max_eq_left ((min_le_right _ _).trans nonpos)] at isPercentile
    exact isPercentile.isLeast le_rfl
  · intro large
    rw [min_eq_left large, max_eq_right zero_le_one] at isPercentile
    exact isPercentile.isGreatest le_rfl
  · intro other perm
    have otherNonempty : added other ≠ [] := by
      intro empty
      rw [empty] at perm
      exact nonempty perm.eq_nil
    rw [percentileAfter_eq nonempty, percentileAfter_eq otherNonempty, selected_congr perm]
  · intro larger le
    rw [percentileAfter_eq nonempty, percentileAfter_eq nonempty, toMs_le_toMs]
    exact isPercentile.mono (isPercentile_selected nonempty larger)
      (max_le_max_left 0 (min_le_min_left 1 le))

end Calls

/-- A percentile is asked for between two samples. -/
def addAskAdd : List Call :=
  [.add 30000, .percentileMs (1 / 2), .add 10000]

theorem percentiles_agree_addAskAdd :
    percentileAfter addAskAdd (1 / 2) =
      SummarizeMeasurement.percentile (SummarizeMeasurement.series (added addAskAdd)) (1 / 2) ∧
    (∃ sample, percentileAfter addAskAdd (1 / 2) = toMs sample ∧
      ((0 : ℚ) ≤ 1 / 2 → (1 : ℚ) / 2 ≤ 1 →
        IsPercentile (1 / 2 : ℚ) (added addAskAdd) sample) ∧
      ((1 : ℚ) / 2 ≤ 0 → IsLeast {value | value ∈ added addAskAdd} sample) ∧
      ((1 : ℚ) ≤ 1 / 2 → IsGreatest {value | value ∈ added addAskAdd} sample)) ∧
    (∀ other, (added addAskAdd).Perm (added other) →
      percentileAfter other (1 / 2) = percentileAfter addAskAdd (1 / 2)) ∧
    ∀ larger, 1 / 2 ≤ larger →
      percentileAfter addAskAdd (1 / 2) ≤ percentileAfter addAskAdd larger :=
  percentiles_agree addAskAdd (by simp [addAskAdd, added, Call.sample]) (1 / 2)

end Adas.Metrics.LatencyStats
