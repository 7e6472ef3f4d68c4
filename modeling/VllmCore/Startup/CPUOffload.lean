import VllmCore.Startup.TensorPlan

namespace VllmCore.Startup

open Lib List

/-!
# CPU blocks of the simple offload connector

The scheduler counts the CPU blocks by the plan of the first worker, and every worker
counts those it allocates by its own storages.  The scheduler names blocks a worker does
not have where the blocks of that worker are larger.
-/

variable {Layer : Type} [DecidableEq Layer]

/-- The scheduler keeps the spec of one layer of a group of one type. -/
def representGroup (group : KVCacheGroupSpec Layer) : Outcome (KVCacheGroupSpec Layer) :=
  match group.kvCacheSpec with
  | .single _ => .ok group
  | .uniformType _ specs =>
    match specs.values with
    | [] => .error (.runtime "StopIteration")
    | spec :: _ => .ok { group with kvCacheSpec := .single spec }

def generateSchedulerKVCacheConfig :
    List (KVCacheConfig Layer) → Outcome (KVCacheConfig Layer)
  | [] => .error (.index "list index out of range")
  | first :: rest => do
      ensure (∀ plan ∈ first :: rest, plan.numBlocks = first.numBlocks)
      let groups ← first.kvCacheGroups.mapM representGroup
      pure { first with kvCacheGroups := groups }

/-- Packed tensors are views of one allocation, which has the size of each. -/
def gpuTotalBytes (tensors : List (KVCacheTensor Layer)) : Outcome Nat := do
  ensure (tensors ≠ [])
  if tensors.all fun tensor => tensor.blockStride = 0 then
    pure (tensors.map KVCacheTensor.size).sum
  else do
    ensure (∀ tensor ∈ tensors, tensor.blockStride ≠ 0)
    pure ((tensors.head?.map KVCacheTensor.size).getD 0)

def deriveCpuConfig (gpuConfig : KVCacheConfig Layer) (cpuCapacityBytes : Nat) :
    Outcome (KVCacheConfig Layer) := do
  let total ← gpuTotalBytes gpuConfig.kvCacheTensors
  let scaled ← floorDiv (gpuConfig.numBlocks * cpuCapacityBytes) total
  let tensors ← gpuConfig.kvCacheTensors.mapM fun tensor => do
    let blockBytes ← floorDiv tensor.size gpuConfig.numBlocks
    pure { tensor with size := blockBytes * max 1 scaled }
  pure { gpuConfig with numBlocks := max 1 scaled, kvCacheTensors := tensors }

def GroupSpec.isFullAttention : GroupSpec Layer → Bool
  | .single spec => spec.kind = .fullAttention
  | .uniformType _ _ => false

/-- The CPU blocks the scheduler manages; it needs a group with full attention. -/
def schedulerCpuBlocks (plans : List (KVCacheConfig Layer)) (cpuCapacityBytes : Nat) :
    Outcome Nat := do
  let gpuConfig ← generateSchedulerKVCacheConfig plans
  let cpuConfig ← deriveCpuConfig gpuConfig cpuCapacityBytes
  ensure (cpuConfig.kvCacheGroups.any fun group => group.kvCacheSpec.isFullAttention)
  pure cpuConfig.numBlocks

/-- The allocations behind the caches of a worker, each once. -/
def storages (tensors : List (KVCacheTensor Layer)) : List Nat :=
  (tensors.filter fun tensor => tensor.blockStride = 0).map KVCacheTensor.size ++
    ((tensors.find? fun tensor => 0 < tensor.blockStride).map KVCacheTensor.size).toList

/-- The CPU blocks a worker allocates.  A storage is viewed as equal blocks; one that is cut
into segments, such as keys and values, has the same bytes for a block in total. -/
def registerKVCaches (cpuCapacityBytes : Nat) (plan : KVCacheConfig Layer) : Outcome Nat :=
  if plan.kvCacheTensors.isEmpty then
    .ok 0
  else do
    let perStorage ← (storages plan.kvCacheTensors).mapM fun bytes => do
      let blockBytes ← floorDiv bytes plan.numBlocks
      ensure (bytes % plan.numBlocks = 0)
      pure blockBytes
    let blocks ← floorDiv cpuCapacityBytes perStorage.sum
    pure (max 1 blocks)

/-- The CPU blocks of the scheduler and of the workers, once the engine has started. -/
def startOffload
    (getKVCacheGroups : VllmConfig → Dict Layer LayerSpec → Outcome (List (KVCacheGroupSpec Layer)))
    (config : VllmConfig) (specs : List (Dict Layer LayerSpec)) (availableMemory : List Nat)
    (cpuCapacityBytes : Nat) : Outcome (List (KVCacheConfig Layer) × Nat × List Nat) := do
  let (_, plans) ← getKVCacheConfigs getKVCacheGroups config specs availableMemory
  let managed ← schedulerCpuBlocks plans cpuCapacityBytes
  let allocated ← plans.mapM (registerKVCaches cpuCapacityBytes)
  pure (plans, managed, allocated)

/-- The bytes of one block in all allocations of a worker. -/
def blockBytes (plan : KVCacheConfig Layer) : Nat :=
  allocatedBytes plan.kvCacheTensors / plan.numBlocks

section

omit [DecidableEq Layer]

variable {tensors : List (KVCacheTensor Layer)} {plan : KVCacheConfig Layer}
  {capacity count total : Nat}

theorem sum_storages : (storages tensors).sum = allocatedBytes tensors := by
  unfold storages allocatedBytes
  cases tensors.find? fun tensor => 0 < tensor.blockStride with
  | _ => simp

theorem gpuTotalBytes_eq (ran : gpuTotalBytes tensors = .ok total) :
    tensors ≠ [] ∧ total = allocatedBytes tensors := by
  obtain ⟨_, some, next⟩ := bind_ok.mp ran
  refine ⟨ensure_eq_ok.mp some, ?_⟩
  split at next
  · rename_i separate
    cases next
    exact (bytes_of_unpacked (by simpa using separate)).symm
  obtain ⟨_, checked, same⟩ := bind_ok.mp next
  cases same
  have packed := ensure_eq_ok.mp checked
  have unpacked : tensors.filter (fun tensor => tensor.blockStride = 0) = [] := by
    simpa using packed
  have isHead : tensors.find? (fun tensor => 0 < tensor.blockStride) = tensors.head? := by
    cases tensors with
    | nil => rfl
    | cons first rest =>
      have := packed first mem_cons_self
      exact find?_cons_of_pos (by simpa using pos_of_ne_zero this)
  rw [allocatedBytes, unpacked, isHead]
  exact (zero_add _).symm

/-- A worker with caches allocates the blocks that fit into its capacity, at least one. -/
theorem registerKVCaches_eq (ran : registerKVCaches capacity plan = .ok count)
    (some : plan.kvCacheTensors ≠ []) :
    count = max 1 (capacity / blockBytes plan) ∧ 0 < plan.numBlocks ∧ 0 < blockBytes plan ∧
      allocatedBytes plan.kvCacheTensors = plan.numBlocks * blockBytes plan := by
  unfold registerKVCaches at ran
  rw [if_neg (by simpa using some)] at ran
  obtain ⟨perStorage, viewed, next⟩ := bind_ok.mp ran
  obtain ⟨blocks, divided, same⟩ := bind_ok.mp next
  cases same
  obtain ⟨pos, rfl⟩ := floorDiv_eq_ok.mp divided
  have views : Forall₂ (fun bytes block => 0 < plan.numBlocks ∧ bytes = plan.numBlocks * block)
      (storages plan.kvCacheTensors) perStorage := by
    refine (mapM_eq_ok_iff.mp viewed).imp ?_
    intro bytes block viewedOne
    obtain ⟨quotient, split, next⟩ := bind_ok.mp viewedOne
    obtain ⟨_, checked, same⟩ := bind_ok.mp next
    cases same
    obtain ⟨nonzero, rfl⟩ := floorDiv_eq_ok.mp split
    have exact := Nat.div_add_mod bytes plan.numBlocks
    rw [ensure_eq_ok.mp checked] at exact
    exact ⟨pos_of_ne_zero nonzero, exact.symm⟩
  have total : (storages plan.kvCacheTensors).sum = plan.numBlocks * perStorage.sum := by
    clear viewed ran next divided pos
    generalize storages plan.kvCacheTensors = stored at views
    induction views with
    | nil => rfl
    | cons viewedOne _ ih => rw [sum_cons, sum_cons, ih, viewedOne.2, mul_add]
  have blocksPositive : 0 < plan.numBlocks := by
    obtain ⟨block, listed, _⟩ := exists_mem_ne_zero_of_sum_ne_zero pos
    obtain ⟨_, _, view⟩ := exists_left_of_forall₂ views listed
    exact view.1
  have bytes : blockBytes plan = perStorage.sum := by
    rw [blockBytes, ← sum_storages, total, Nat.mul_div_cancel_left _ blocksPositive]
  rw [bytes, ← sum_storages]
  exact ⟨rfl, blocksPositive, pos_of_ne_zero pos, total⟩

theorem schedulerCpuBlocks_eq
    (ran : schedulerCpuBlocks (first :: rest) capacity = .ok managed) :
    first.kvCacheTensors ≠ [] ∧ managed =
      max 1 (first.numBlocks * capacity / allocatedBytes first.kvCacheTensors) := by
  obtain ⟨gpuConfig, generated, next⟩ := bind_ok.mp ran
  obtain ⟨_, _, represented⟩ := bind_ok.mp generated
  obtain ⟨_, _, same⟩ := bind_ok.mp represented
  cases same
  obtain ⟨cpuConfig, derived, next⟩ := bind_ok.mp next
  obtain ⟨_, _, same⟩ := bind_ok.mp next
  cases same
  obtain ⟨total, totalled, next⟩ := bind_ok.mp derived
  obtain ⟨scaled, divided, next⟩ := bind_ok.mp next
  obtain ⟨_, _, same⟩ := bind_ok.mp next
  cases same
  obtain ⟨some, rfl⟩ := gpuTotalBytes_eq totalled
  rw [(floorDiv_eq_ok.mp divided).2]
  exact ⟨some, rfl⟩

end

variable
  {getKVCacheGroups : VllmConfig → Dict Layer LayerSpec → Outcome (List (KVCacheGroupSpec Layer))}
  {config : VllmConfig} {specs : List (Dict Layer LayerSpec)} {memory : List Nat}

def threeLayers (_ : VllmConfig) (_ : Dict Nat LayerSpec) : Outcome (List (KVCacheGroupSpec Nat)) :=
  .ok [⟨[0, 1, 2], .single smallSpec, false⟩]

end VllmCore.Startup
