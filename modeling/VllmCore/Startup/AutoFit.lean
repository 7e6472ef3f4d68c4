import Mathlib.Order.Bounds.Defs
import VllmCore.Startup.TensorPlan

namespace VllmCore.Startup

open Lib List

/-!
# The automatic model length

The memory of a request grows with the model length for every kind of group, and whether
computing it raises does not depend on the length.  So the binary searches find the longest
length that fits, and fail where none does.
-/

/-- The configuration with another model length. -/
abbrev VllmConfig.at (config : VllmConfig) (length : Nat) : VllmConfig :=
  { config with maxModelLen := length }

variable {config : VllmConfig} {Layer : Type}

theorem ceilDiv_related (below : amount ≤ other) (size : Nat) :
    Related (· ≤ ·) (ceilDiv amount size) (ceilDiv other size) := by
  unfold ceilDiv
  split
  · exact .error
  · exact .ok (cdiv_mono below size)

theorem foldl_max_le (below : Forall₂ (· ≤ ·) values others) (start : first ≤ second) :
    values.foldl max first ≤ others.foldl max (second : Nat) := by
  induction below generalizing first second with
  | nil => exact start
  | cons value _ ih => exact ih (max_le_max start value)

theorem maximum_related (below : Forall₂ (· ≤ ·) values others) :
    Related (· ≤ ·) (GroupSpec.maximum values) (GroupSpec.maximum others) := by
  cases below with
  | nil => exact .error
  | cons first rest => exact .ok (foldl_max_le rest first)

section Longer

variable {short long : Nat} (longer : short ≤ long)
include longer

theorem peakBlocks_mono (spec : LayerSpec) :
    spec.peakBlocks (config.at short) ≤ spec.peakBlocks (config.at long) := by
  unfold LayerSpec.peakBlocks
  cases spec.kind with
  | fullAttention =>
    apply cdiv_mono
    simp only [LayerSpec.rankTokens]
    split
    · exact cdiv_mono longer _
    · exact longer
  | slidingWindow window => exact Nat.succ_le_succ (cdiv_mono (min_le_min_left _ longer) _)
  | chunkedLocalAttention chunk => exact cdiv_mono (min_le_min_left _ longer) _
  | mamba numSpeculativeBlocks =>
    dsimp only
    split
    · exact Nat.add_le_add_right (cdiv_mono longer _) _
    · exact le_rfl
    · exact le_rfl
  | _ => exact le_rfl

theorem layerBytes_related (spec : LayerSpec) :
    Related (· ≤ ·) (spec.maxMemoryUsageBytes (config.at short))
      (spec.maxMemoryUsageBytes (config.at long)) := by
  have bytes : spec.peakBlocks (config.at short) * spec.pageSizeBytes ≤
      spec.peakBlocks (config.at long) * spec.pageSizeBytes :=
    Nat.mul_le_mul_right _ (peakBlocks_mono longer spec)
  unfold LayerSpec.maxMemoryUsageBytes
  cases spec.kind with
  | slidingWindow _ => exact (Related.same _).bind fun _ _ _ => .ok bytes
  | _ => exact .ok bytes

theorem pages_related (specs : Dict Layer LayerSpec) :
    Related (· ≤ ·) (GroupSpec.maxMemoryUsagePages (config.at short) specs)
      (GroupSpec.maxMemoryUsagePages (config.at long) specs) := by
  refine Related.bind (.mapM fun spec => ?_) fun _ _ => maximum_related
  exact (layerBytes_related longer spec).bind fun _ _ below => ceilDiv_related below _

theorem groupBytes_related (spec : GroupSpec Layer) :
    Related (· ≤ ·) (spec.maxMemoryUsageBytes (config.at short))
      (spec.maxMemoryUsageBytes (config.at long)) := by
  cases spec with
  | single spec => exact layerBytes_related longer spec
  | uniformType _ specs =>
    exact (pages_related longer specs).bind fun _ _ below => .ok (Nat.mul_le_mul_right _ below)

/-- A longer model needs at least as much memory, and raises if the shorter one does. -/
theorem memory_related (groups : List (KVCacheGroupSpec Layer)) :
    Related (· ≤ ·) (maxMemoryUsageBytesFromGroups (config.at short) groups)
      (maxMemoryUsageBytesFromGroups (config.at long) groups) := by
  unfold maxMemoryUsageBytesFromGroups
  split
  · exact .ok le_rfl
  · exact (Related.mapM (layerBytes_related longer)).bind fun _ _ below => .ok below.sum_le_sum
  · refine (Related.same _).bind fun _ _ same => same ▸ ?_
    refine (Related.same _).bind fun _ _ same => same ▸ ?_
    refine (Related.mapM (pages_related longer)).bind fun _ _ below => .ok ?_
    refine (rel_map (fun _ _ le => ?_) below).sum_le_sum
    exact Nat.mul_le_mul_right _ (Nat.mul_le_mul_left _ le)
  · refine (Related.same _).bind fun _ _ same => same ▸ ?_
    refine Related.bind (.mapM fun group => (groupBytes_related longer _).bind fun _ _ below =>
      ceilDiv_related below _) fun _ _ below => .ok ?_
    exact Nat.mul_le_mul_left _ below.sum_le_sum

theorem fitsModelLen_related (groups : List (KVCacheGroupSpec Layer)) (memory : Nat) :
    Related (fun fitsShort fitsLong => fitsLong = true → fitsShort = true)
      (fitsModelLen config groups memory short) (fitsModelLen config groups memory long) :=
  (memory_related longer groups).bind fun _ _ below => .ok (by simpa using le_trans below)

end Longer

/-! ## The search -/

/-- The search finds the last length that fits. -/
theorem searchModelLen_eq (answers : ∀ length, 1 ≤ length → ∃ fit, fits length = .ok fit)
    (shorter : ∀ short long, short ≤ long → fits long = .ok true → fits short = .ok true)
    (started : 1 ≤ low) (covered : low ≤ result + 1) (passes : fits result = .ok true) :
    ∃ found, searchModelLen fits low high result = .ok found ∧ fits found = .ok true ∧
      ∀ length ≤ high, fits length = .ok true → length ≤ found := by
  fun_induction searchModelLen fits low high result with
  | case1 _ _ _ _ mid fault raised =>
    obtain ⟨fit, answered⟩ := answers mid (by omega)
    cases raised.symm.trans answered
  | case2 _ _ _ _ _ passed ih => exact ih (by omega) le_rfl passed
  | case3 => omega
  | case4 _ _ _ _ mid failed _ ih =>
    obtain ⟨found, ran, pass, last⟩ := ih started covered passes
    refine ⟨found, ran, pass, fun length within fitting => last length ?_ fitting⟩
    by_contra above
    cases failed.symm.trans (shorter mid length (by omega) fitting)
  | case5 => exact ⟨_, rfl, passes, fun length _ _ => by omega⟩

/-- A length fits on a worker. -/
def FitsAt (config : VllmConfig) (worker : List (KVCacheGroupSpec Layer) × Nat) (length : Nat) :
    Prop :=
  fitsModelLen config worker.1 worker.2 length = .ok true

/-- An operation returns the bound of the lengths that are good, and raises only if none is. -/
def Finds (config : VllmConfig) (good : Nat → Prop) : Outcome Nat → Prop :=
  Meets (fun _ => ∀ length ∈ Set.Icc 1 config.maxModelLen, ¬good length)
    fun found => ∀ length ∈ Set.Icc 1 config.maxModelLen, (length ≤ found ↔ good length)

theorem Finds.bind {good other : Nat → Prop} (finds : Finds config good outcome)
    (continues : ∀ found, Finds config (fun length => length ≤ found ∧ other length) (step found)) :
    Finds config (fun length => good length ∧ other length) (outcome >>= step) := by
  cases outcome with
  | error fault => exact fun length inside both => finds length inside both.1
  | ok found =>
    have later := continues found
    show Finds _ _ (step found)
    generalize step found = last at later
    cases last with
    | error fault =>
      intro length inside both
      exact later length inside ⟨(finds length inside).mpr both.1, both.2⟩
    | ok last =>
      intro length inside
      exact (later length inside).trans (and_congr_left fun _ => finds length inside)

variable {worker : List (KVCacheGroupSpec Layer) × Nat}
  {workers : List (List (KVCacheGroupSpec Layer) × Nat)}

theorem estimate_finds :
    Finds config (FitsAt config worker)
      (estimateMaxModelLenFromGroups config worker.1 worker.2) := by
  have shorter : ∀ short long, short ≤ long → FitsAt config worker long →
      FitsAt config worker short := by
    intro short long longer fits
    have related := @fitsModelLen_related config _ _ _ longer worker.1 worker.2
    rw [fits] at related
    obtain ⟨fit, ran, implied⟩ := related.of_ok
    rw [FitsAt, ran, implied rfl]
  unfold estimateMaxModelLenFromGroups
  cases first : fitsModelLen config worker.1 worker.2 1 with
  | error fault =>
    intro length inside fits
    cases first.symm.trans (shorter 1 length inside.1 fits)
  | ok passes =>
    rw [ok_bind]
    cases passes with
    | false =>
      intro length inside
      refine iff_of_false (by have := inside.1; omega) fun fits => ?_
      cases first.symm.trans (shorter 1 length inside.1 fits)
    | true =>
      have answers : ∀ length, 1 ≤ length →
          ∃ fit, fitsModelLen config worker.1 worker.2 length = .ok fit := by
        intro length some
        have related := @fitsModelLen_related config _ _ _ some worker.1 worker.2
        rw [first] at related
        exact related.to_ok
      obtain ⟨found, searched, pass, last⟩ :=
        searchModelLen_eq answers shorter le_rfl (Nat.le_add_left _ _) first
      rw [if_pos rfl, searched]
      intro length inside
      exact ⟨fun below => shorter length found below pass, last length inside.2⟩

theorem fitsAt_of_isEmpty (empty : worker.1.isEmpty = true) (length : Nat) :
    FitsAt config worker length := by
  rw [FitsAt, List.isEmpty_iff.mp empty]
  exact congrArg Except.ok (decide_eq_true (Nat.zero_le _))

theorem autoFitOver_finds (start : Nat) :
    Finds config (fun length => length ≤ start ∧ FitsAt config worker length)
      (autoFitOver config start worker) := by
  unfold autoFitOver
  split
  · rename_i empty
    intro length _
    simp [fitsAt_of_isEmpty empty length]
  · simp only [and_comm (a := _ ≤ start)]
    refine estimate_finds.bind fun found length _ => ?_
    rw [le_min_iff, and_comm]

theorem foldlM_finds (start : Nat) :
    Finds config (fun length => length ≤ start ∧ ∀ worker ∈ workers, FitsAt config worker length)
      (workers.foldlM (autoFitOver config) start) := by
  induction workers generalizing start with
  | nil =>
    intro length _
    simp
  | cons worker rest ih =>
    rw [foldlM_cons]
    simp only [forall_mem_cons, ← and_assoc]
    exact (autoFitOver_finds start).bind ih

/--
The automatic model length is the longest that fits on every worker; it fails exactly when
none does.
-/
theorem autoFitMaxModelLen_greatest (pos : 0 < config.maxModelLen) :
    Meets
      (fun _ => ∀ length ∈ Set.Icc 1 config.maxModelLen,
        ¬∀ worker ∈ workers, FitsAt config worker length)
      (fun fitted => fitted = config.at fitted.maxModelLen ∧
        IsGreatest { length ∈ Set.Icc 1 config.maxModelLen |
          ∀ worker ∈ workers, FitsAt config worker length } fitted.maxModelLen)
      (autoFitMaxModelLen config workers) := by
  unfold autoFitMaxModelLen
  split
  · rename_i empty
    refine ⟨rfl, ⟨⟨pos, le_rfl⟩, fun worker listed => ?_⟩, fun length fits => fits.1.2⟩
    exact fitsAt_of_isEmpty (all_eq_true.mp empty worker listed) _
  · have finds := @foldlM_finds config _ workers config.maxModelLen
    generalize workers.foldlM (autoFitOver config) config.maxModelLen = outcome at finds
    cases outcome with
    | error fault => exact fun length inside all => finds length inside ⟨inside.2, all⟩
    | ok found =>
      rw [ok_bind]
      split
      · rename_i none
        intro length inside all
        have below := (finds length inside).mpr ⟨inside.2, all⟩
        have := inside.1
        omega
      · have inside : min found config.maxModelLen ∈ Set.Icc 1 config.maxModelLen :=
          ⟨by omega, min_le_right _ _⟩
        refine ⟨rfl, ⟨inside, ((finds _ inside).mp (min_le_left _ _)).2⟩, ?_⟩
        rintro length ⟨within, all⟩
        exact le_min ((finds length within).mpr ⟨within.2, all⟩) within.2

/-- Two layers need sixteen bytes for a block of four tokens, so some length is found. -/
theorem autoFitMaxModelLen_greatest_oneBlock :
    ∃ fitted, autoFitMaxModelLen smallConfig [(smallGroups, 16)] = .ok fitted ∧
      IsGreatest { length ∈ Set.Icc 1 8 |
        ∀ worker ∈ [(smallGroups, 16)], FitsAt smallConfig worker length } fitted.maxModelLen := by
  have greatest :=
    @autoFitMaxModelLen_greatest smallConfig Nat [(smallGroups, 16)] (by decide)
  cases ran : autoFitMaxModelLen smallConfig [(smallGroups, 16)] with
  | error fault =>
    have fits : ∀ worker ∈ [(smallGroups, 16)], FitsAt smallConfig worker 1 := by simp; rfl
    exact absurd fits (greatest.of_eq_error ran 1 (by simp [smallConfig]))
  | ok fitted => exact ⟨fitted, rfl, (greatest.of_eq_ok ran).2⟩

end VllmCore.Startup
