import VllmCore.Startup.TensorPlan

namespace VllmCore.Startup

open Lib List

/-!
# Capacity at start-up

The memory check compares the memory of a worker with the blocks that one request of the
maximum length holds.  The pool keeps one block of its own, the null block, so such a
request fits only where the memory holds one block more.
-/

variable {Layer : Type} [DecidableEq Layer]

omit [DecidableEq Layer] in
/-- The blocks one request of the maximum length holds at its peak in a group. -/
def GroupSpec.peakBlocks (config : VllmConfig) : GroupSpec Layer → Nat
  | .single spec => spec.peakBlocks config
  | .uniformType _ specs => (specs.values.map (LayerSpec.peakBlocks config)).foldl max 0

def peakBlocks (config : VllmConfig) (groups : List (KVCacheGroupSpec Layer)) : Nat :=
  (groups.map fun group => group.kvCacheSpec.peakBlocks config).sum

section

variable (getKVCacheGroups :
    VllmConfig → Dict Layer LayerSpec → Outcome (List (KVCacheGroupSpec Layer)))

/-- What the workers are planned for: the configuration with its maximum model length, and
the groups and the memory of each worker. -/
def preparedWorkers (config : VllmConfig) (specs : List (Dict Layer LayerSpec))
    (availableMemory : List Nat) :
    Outcome (VllmConfig × List (List (KVCacheGroupSpec Layer) × Nat)) := do
  let merged ← (specs.flatMap Dict.entries).foldlM mergeSpec .empty
  let groups ← getKVCacheGroups config merged
  let workers ← projectedWorkers config groups specs availableMemory
  let fitted ← fittedConfig config workers
  pure (fitted, workers)

/-- The memory of every worker holds one block more than the requests of the maximum length
hold at their peak. -/
def RoomForNullBlock (config : VllmConfig) (specs : List (Dict Layer LayerSpec))
    (availableMemory : List Nat) : Prop :=
  ∃ fitted workers,
    preparedWorkers getKVCacheGroups config specs availableMemory = .ok (fitted, workers) ∧
      ∀ worker ∈ workers, ∀ other ∈ workers, other.1 ≠ [] →
        ∀ bytesPerBlock, poolBytesPerBlock fitted other.1 = .ok bytesPerBlock →
          (peakBlocks fitted worker.1 + 1) * bytesPerBlock ≤ other.2

end

variable
  {getKVCacheGroups : VllmConfig → Dict Layer LayerSpec → Outcome (List (KVCacheGroupSpec Layer))}
  {config fitted : VllmConfig} {groups : List (KVCacheGroupSpec Layer)}
  {specs : List (Dict Layer LayerSpec)} {memory : List Nat}
  {workers : List (List (KVCacheGroupSpec Layer) × Nat)} {plan : KVCacheConfig Layer}
  {plans : List (KVCacheConfig Layer)}

/-! ## The number of blocks -/

variable {worker : List (KVCacheGroupSpec Layer) × Nat} {availableMemory : Nat}

/-- The layouts divide the memory by the bytes of one block. -/
theorem numBlocks_of_fromGroups (some : groups ≠ [])
    (ran : getKVCacheConfigFromGroups config groups availableMemory = .ok plan) :
    ∃ bytesPerBlock, poolBytesPerBlock config groups = .ok bytesPerBlock ∧ bytesPerBlock ≠ 0 ∧
      plan.numBlocks = mayOverrideNumBlocks config (availableMemory / bytesPerBlock) := by
  unfold poolBytesPerBlock
  rcases (fromGroups_cases ran).2 with
    ⟨none, _⟩ | ⟨group, rfl, uniform, laidOut⟩ |
      ⟨separate, ⟨packed, laidOut⟩ | ⟨general, laidOut⟩⟩
  · exact absurd none some
  · obtain ⟨numBlocks, divided, next⟩ := bind_ok.mp laidOut
    obtain ⟨_, _, same⟩ := bind_ok.mp next
    obtain ⟨pos, rfl⟩ := floorDiv_eq_ok.mp divided
    exact ⟨_, if_pos uniform, pos, (congrArg Prod.fst (Except.ok.inj same)).symm⟩
  · rw [separate, packed]
    obtain ⟨layout, packedLayout, next⟩ := bind_ok.mp laidOut
    obtain ⟨numBlocks, divided, same⟩ := bind_ok.mp next
    obtain ⟨pos, rfl⟩ := floorDiv_eq_ok.mp divided
    exact ⟨layout.1, bind_ok.mpr ⟨layout, packedLayout, rfl⟩, pos,
      (congrArg Prod.fst (Except.ok.inj same)).symm⟩
  · rw [separate, general]
    obtain ⟨pageSize, uniform, next⟩ := bind_ok.mp laidOut
    obtain ⟨_, _, next⟩ := bind_ok.mp next
    obtain ⟨numBlocks, divided, same⟩ := bind_ok.mp next
    obtain ⟨pages, memoryPages, next⟩ := bind_ok.mp divided
    obtain ⟨quotient, tensorPages, sameBlocks⟩ := bind_ok.mp next
    obtain ⟨positivePage, rfl⟩ := floorDiv_eq_ok.mp memoryPages
    obtain ⟨positiveSize, rfl⟩ := floorDiv_eq_ok.mp tensorPages
    refine ⟨pageSize * groupSize groups, bind_ok.mpr ⟨pageSize, uniform, rfl⟩,
      mul_ne_zero positivePage positiveSize, ?_⟩
    have blocks : numBlocks = plan.numBlocks := congrArg Prod.fst (Except.ok.inj same)
    rw [← Nat.div_div_eq_div_mul, ← blocks]
    exact (Except.ok.inj sameBlocks).symm

theorem numBlocks_of_no_groups (none : groups = [])
    (ran : getKVCacheConfigFromGroups config groups availableMemory = .ok plan) :
    plan.numBlocks = 1 := by
  subst none
  cases ran
  rfl

omit [DecidableEq Layer] in
theorem le_minNumBlocks_iff (ran : minNumBlocks plans = .ok least)
    (bound : Nat) : bound ≤ least ↔ ∀ plan ∈ plans, bound ≤ plan.numBlocks := by
  cases plans with
  | nil => cases ran
  | cons first rest =>
    cases ran
    rw [forall_mem_cons]
    generalize first.numBlocks = start
    induction rest generalizing start with
    | nil => simp
    | cons plan rest ih => rw [foldl_cons, ih, forall_mem_cons, le_min_iff, and_assoc]

/-! ## The prepared workers -/

omit [DecidableEq Layer] in
theorem fittedConfig_eq (ran : fittedConfig config workers = .ok fitted) :
    ∃ length, fitted = { config with maxModelLen := length } := by
  unfold fittedConfig at ran
  split at ran
  · unfold autoFitMaxModelLen at ran
    split at ran
    · cases ran
      exact ⟨config.maxModelLen, rfl⟩
    obtain ⟨length, _, next⟩ := bind_ok.mp ran
    split at next
    · cases next
    · cases next
      exact ⟨_, rfl⟩
  · cases ran
    exact ⟨config.maxModelLen, rfl⟩

/-- The groups of a worker are as many as those of the model, and an override of the number
of blocks decides its memory. -/
theorem mem_projectedWorkers (ran : projectedWorkers config groups specs memory = .ok workers)
    (mem : worker ∈ workers) :
    worker.1.length = groups.length ∧
      ∃ availableMemory, adjustMemory config (worker.1, availableMemory) = .ok worker.2 := by
  obtain ⟨projected, projecting, next⟩ := bind_ok.mp ran
  obtain ⟨adjusted, adjusting, same⟩ := bind_ok.mp next
  cases same
  constructor
  · obtain ⟨_, _, projectedOne⟩ :=
      exists_of_mem_mapM projecting (of_mem_zip mem).1
    exact (mapM_eq_ok_iff.mp projectedOne).length_eq.symm
  · rw [mapM_eq_ok_iff] at adjusting
    clear ran next projecting
    induction projected generalizing memory adjusted with
    | nil => cases mem
    | cons first rest ih =>
      cases memory with
      | nil =>
        cases adjusting
        cases mem
      | cons available memory =>
        cases adjusting with
        | cons adjustedOne others =>
          rcases mem_cons.mp mem with rfl | later
          · exact ⟨available, adjustedOne⟩
          · exact ih _ others later

omit [DecidableEq Layer] in
theorem zip_zip_map (long : workers.length ≤ specs.length) :
    (((workers.map Prod.fst).zip specs).zip (workers.map Prod.snd)).map
      (fun worker => (worker.1.1, worker.2)) = workers := by
  induction workers generalizing specs with
  | nil => rfl
  | cons worker rest ih =>
    cases specs with
    | nil => cases long
    | cons spec specs =>
      have later := ih (Nat.le_of_succ_le_succ long)
      simp only [map_cons, zip_cons_cons, later]

/-- The plans that are returned have the least number of blocks of the plans of the workers. -/
theorem planned_of_getKVCacheConfigs
    (ran : getKVCacheConfigs getKVCacheGroups config specs memory = .ok (fitted, plans)) :
    ∃ workers planned least,
      preparedWorkers getKVCacheGroups config specs memory = .ok (fitted, workers) ∧
        minNumBlocks planned = .ok least ∧
        Forall₂
          (fun worker plan => getKVCacheConfigFromGroups fitted worker.1 worker.2 = .ok plan)
          workers planned ∧
        Forall₂ (fun plan shrunk =>
          shrunk.kvCacheGroups = plan.kvCacheGroups ∧ shrunk.numBlocks = least)
          planned plans := by
  obtain ⟨merged, merging, next⟩ := bind_ok.mp ran
  obtain ⟨groups, grouping, next⟩ := bind_ok.mp next
  obtain ⟨workers, projecting, next⟩ := bind_ok.mp next
  obtain ⟨_, fitting, next⟩ := bind_ok.mp next
  obtain ⟨_, _, next⟩ := bind_ok.mp next
  obtain ⟨planned, planning, next⟩ := bind_ok.mp next
  obtain ⟨least, leastOf, next⟩ := bind_ok.mp next
  obtain ⟨shrunk, shrinking, same⟩ := bind_ok.mp next
  cases same
  refine ⟨workers, planned, least, ?_, leastOf, ?_, ?_⟩
  · exact bind_ok.mpr ⟨merged, merging, bind_ok.mpr ⟨groups, grouping,
      bind_ok.mpr ⟨workers, projecting, bind_ok.mpr ⟨fitted, fitting, rfl⟩⟩⟩⟩
  · have long : workers.length ≤ specs.length := by
      obtain ⟨projected, projectingAll, next⟩ := bind_ok.mp projecting
      obtain ⟨_, _, same⟩ := bind_ok.mp next
      cases same
      rw [(mapM_eq_ok_iff.mp projectingAll).length_eq, length_zip]
      exact min_le_left _ _
    rw [← zip_zip_map long, forall₂_map_left_iff]
    refine (mapM_eq_ok_iff.mp planning).imp ?_
    intro worker plan planningOne
    exact (bind_ok.mp planningOne).choose_spec.2
  · refine (mapM_eq_ok_iff.mp shrinking).imp ?_
    intro plan shrunk shrinkingOne
    obtain ⟨tensors, _, next⟩ := bind_ok.mp shrinkingOne
    split at next
    · cases next
      exact ⟨rfl, rfl⟩
    · obtain ⟨_, _, same⟩ := bind_ok.mp next
      cases same
      exact ⟨rfl, rfl⟩

section

variable
    (prepared : preparedWorkers getKVCacheGroups config specs memory = .ok (fitted, workers))
include prepared

theorem groups_nil_of_prepared
    (mem : worker ∈ workers) (memberOther : other ∈ workers) (none : other.1 = []) :
    worker.1 = [] := by
  obtain ⟨merged, _, next⟩ := bind_ok.mp prepared
  obtain ⟨groups, _, next⟩ := bind_ok.mp next
  obtain ⟨_, projecting, next⟩ := bind_ok.mp next
  obtain ⟨_, _, same⟩ := bind_ok.mp next
  cases same
  have count := (mem_projectedWorkers projecting memberOther).1
  rw [none] at count
  rw [← length_eq_zero_iff, (mem_projectedWorkers projecting mem).1, ← count]
  rfl

/-- A worker with groups gets as many blocks as its memory holds. -/
theorem numBlocks_of_prepared (mem : worker ∈ workers) (some : worker.1 ≠ [])
    (ran : getKVCacheConfigFromGroups fitted worker.1 worker.2 = .ok plan) :
    ∃ bytesPerBlock, poolBytesPerBlock fitted worker.1 = .ok bytesPerBlock ∧ 0 < bytesPerBlock ∧
      plan.numBlocks = worker.2 / bytesPerBlock := by
  obtain ⟨merged, _, next⟩ := bind_ok.mp prepared
  obtain ⟨groups, _, next⟩ := bind_ok.mp next
  obtain ⟨_, projecting, next⟩ := bind_ok.mp next
  obtain ⟨_, fitting, same⟩ := bind_ok.mp next
  cases same
  obtain ⟨length, rfl⟩ := fittedConfig_eq fitting
  obtain ⟨_, available, adjusted⟩ := mem_projectedWorkers projecting mem
  obtain ⟨bytesPerBlock, pool, pos, blocks⟩ := numBlocks_of_fromGroups some ran
  refine ⟨bytesPerBlock, pool, pos_of_ne_zero pos, blocks.trans ?_⟩
  unfold adjustMemory at adjusted
  split at adjusted
  · rename_i free
    rw [show config.numGpuBlocksOverride = none from free]
    rfl
  rename_i override overridden
  rw [if_neg (by simpa using some)] at adjusted
  obtain ⟨bytes, poolConfig, next⟩ := bind_ok.mp adjusted
  obtain ⟨_, _, same⟩ := bind_ok.mp next
  have sameBytes : bytes = bytesPerBlock := Except.ok.inj (poolConfig.symm.trans pool)
  rw [show config.numGpuBlocksOverride = _ from overridden, ← Except.ok.inj same, sameBytes,
    Nat.mul_div_cancel _ (Nat.pos_of_ne_zero pos)]
  rfl

end

/-- The usable blocks hold a request of the maximum length exactly where the memory has room
for one block more. -/
theorem usableBlocks_suffice_iff
    (returned : getKVCacheConfigs getKVCacheGroups config specs memory = .ok (fitted, plans)) :
    (∀ plan ∈ plans, (peakBlocks fitted plan.kvCacheGroups : Int) ≤ plan.numBlocks - 1) ↔
      RoomForNullBlock getKVCacheGroups config specs memory := by
  obtain ⟨workers, planned, least, prepared, leastOf, planning, shrinking⟩ :=
    planned_of_getKVCacheConfigs returned
  have bound := le_minNumBlocks_iff leastOf
  constructor
  · intro suffice
    refine ⟨fitted, workers, prepared, ?_⟩
    intro worker member other memberOther some bytesPerBlock pool
    obtain ⟨plan, memberPlan, fromGroups⟩ := exists_right_of_forall₂ planning member
    obtain ⟨otherPlan, memberOtherPlan, fromOther⟩ := exists_right_of_forall₂ planning memberOther
    obtain ⟨shrunk, memberShrunk, sameGroups, count⟩ := exists_right_of_forall₂ shrinking memberPlan
    have enough := suffice shrunk memberShrunk
    rw [sameGroups, (fromGroups_cases fromGroups).1] at enough
    have fits := (bound (peakBlocks fitted worker.1 + 1)).mp (by omega) otherPlan memberOtherPlan
    obtain ⟨bytes, poolOther, positive, blocks⟩ :=
      numBlocks_of_prepared prepared memberOther some fromOther
    cases pool.symm.trans poolOther
    rw [blocks] at fits
    exact (Nat.le_div_iff_mul_le positive).mp fits
  · rintro ⟨_, _, preparedSame, room⟩ shrunk memberShrunk
    cases prepared.symm.trans preparedSame
    obtain ⟨plan, memberPlan, sameGroups, count⟩ := exists_left_of_forall₂ shrinking memberShrunk
    obtain ⟨worker, member, fromGroups⟩ := exists_left_of_forall₂ planning memberPlan
    rw [sameGroups, (fromGroups_cases fromGroups).1]
    have fits : peakBlocks fitted worker.1 + 1 ≤ least := by
      rw [bound]
      intro otherPlan memberOtherPlan
      obtain ⟨other, memberOther, fromOther⟩ := exists_left_of_forall₂ planning memberOtherPlan
      by_cases none : other.1 = []
      · -- then the model has no groups at all
        have noGroups := groups_nil_of_prepared prepared member memberOther none
        rw [numBlocks_of_no_groups none fromOther, noGroups]
        exact le_refl 1
      · obtain ⟨bytes, pool, positive, blocks⟩ :=
          numBlocks_of_prepared prepared memberOther none fromOther
        rw [blocks, Nat.le_div_iff_mul_le positive]
        exact room worker member other memberOther none bytes pool
    omega

/-- One worker with one layer. -/
def loneGrouping (_ : VllmConfig) (_ : Dict Nat LayerSpec) :
    Outcome (List (KVCacheGroupSpec Nat)) :=
  .ok [⟨[0], .single smallSpec, false⟩]

theorem usableBlocks_suffice_iff_threeBlocks :
    ∃ plans, getKVCacheConfigs loneGrouping smallConfig [Dict.empty.set 0 smallSpec] [24] =
        .ok (smallConfig, plans) ∧
      (∀ plan ∈ plans, (peakBlocks smallConfig plan.kvCacheGroups : Int) ≤ plan.numBlocks - 1) ∧
      RoomForNullBlock loneGrouping smallConfig [Dict.empty.set 0 smallSpec] [24] := by
  refine ⟨_, rfl, by decide, ?_⟩
  apply (usableBlocks_suffice_iff rfl).mp
  decide

/-- A request of eight tokens takes both blocks of four tokens that sixteen bytes hold, and
one of them is the null block. -/
theorem exactMemory_one_block_short :
    ∃ plans, getKVCacheConfigs loneGrouping smallConfig [Dict.empty.set 0 smallSpec] [16] =
        .ok (smallConfig, plans) ∧
      ∃ plan ∈ plans, ¬(peakBlocks smallConfig plan.kvCacheGroups : Int) ≤ plan.numBlocks - 1 :=
  ⟨_, rfl, by decide⟩

end VllmCore.Startup
