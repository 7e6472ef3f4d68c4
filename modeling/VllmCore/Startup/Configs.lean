import VllmCore.Startup.Specs

namespace VllmCore.Startup

open Lib

/-!
# KV cache configurations

How `v1/core/kv_cache_utils.py` plans the KV cache tensors of the workers: the layouts of
`get_kv_cache_config_from_groups`, the memory check and the automatic model length, and
`get_kv_cache_configs` over all workers.
-/

/-- A tensor the worker allocates, or one view of its packed allocation. -/
structure KVCacheTensor (Layer : Type) where
  size : Nat
  sharedBy : List Layer
  offset : Nat := 0
  blockStride : Nat := 0
  deriving Repr, DecidableEq

structure KVCacheConfig (Layer : Type) where
  numBlocks : Nat
  kvCacheTensors : List (KVCacheTensor Layer)
  kvCacheGroups : List (KVCacheGroupSpec Layer)

variable {Layer : Type} [DecidableEq Layer]

variable (config : VllmConfig) (groups : List (KVCacheGroupSpec Layer))

def mayOverrideNumBlocks (numBlocks : Nat) : Nat :=
  config.numGpuBlocksOverride.getD numBlocks

omit [DecidableEq Layer] in
/-- The page size all groups must share. -/
def getUniformPageSize : Outcome Nat :=
  match (groups.map fun group => group.kvCacheSpec.pageSizeBytes).dedup with
  | [pageSize] => .ok pageSize
  | _ => .error (.assertion "")

/-- The number of layers of the largest group. -/
def groupSize : Nat :=
  (groups.map fun group => group.layerNames.length).foldl max 0

/-! ## The packed layout -/

variable (group : KVCacheGroupSpec Layer)

/-- The layers of a group with the sizes of their pages. -/
def layerPages : Outcome (List (Layer × Nat)) :=
  group.layerNames.mapM fun layer =>
    match group.kvCacheSpec.layerPage layer with
    | some pageSize => .ok (layer, pageSize)
    | none => .error (.key "")

/-- A layer is put behind the layers of its group that are placed already. -/
def placeLayer (placed : Nat × Dict Nat (List Layer)) (entry : Layer × Nat) :
    Nat × Dict Nat (List Layer) :=
  (placed.1 + entry.2, placed.2.set placed.1 (placed.2.getD placed.1 [] ++ [entry.1]))

/-- The layers of a group are put from the start of the block. -/
def placeGroup (placed : Nat × Dict Nat (List Layer)) (pages : List (Layer × Nat)) :
    Nat × Dict Nat (List Layer) :=
  let group := pages.foldl placeLayer (0, placed.2)
  (max placed.1 group.1, group.2)

/-- The bytes of a block, and the layers at each offset in it. -/
def getPackedKVCacheLayout : Outcome (Nat × Dict Nat (List Layer)) := do
  let pages ← groups.mapM layerPages
  let layout := pages.foldl placeGroup (0, .empty)
  ensure (0 < layout.1)
  pure layout

section

variable (groups : List (KVCacheGroupSpec Layer))

def usePackedKVCacheConfig : Bool :=
  (groups.all fun group => group.kvCacheSpec.isUniformType) ||
    (config.enableCrossLayersBlocks && decide (1 < groups.length))

def getKVCacheConfigPacked (availableMemory : Nat) :
    Outcome (Nat × List (KVCacheTensor Layer)) := do
  let (blockStride, layersByOffset) ← getPackedKVCacheLayout groups
  let numBlocks ← floorDiv availableMemory blockStride
  let numBlocks := mayOverrideNumBlocks config numBlocks
  let offsets := layersByOffset.keys.mergeSort
  pure (numBlocks, offsets.map fun byteOffset =>
    { size := blockStride * numBlocks
      sharedBy := layersByOffset.getD byteOffset []
      offset := byteOffset
      blockStride := blockStride })

/-! ## The other layouts -/

/-- One tensor for each layer of the only group. -/
def getKVCacheConfigUniformType (availableMemory : Nat) :
    Outcome (Nat × List (KVCacheTensor Layer)) := do
  let numBlocks ← floorDiv availableMemory group.kvCacheSpec.pageSizeBytes
  let numBlocks := mayOverrideNumBlocks config numBlocks
  let pages ← layerPages group
  pure (numBlocks, pages.map fun entry =>
    { size := entry.2 * numBlocks, sharedBy := [entry.1] })

def getNumBlocks (numLayers availableMemory pageSize : Nat) : Outcome Nat := do
  let pages ← floorDiv availableMemory pageSize
  let numBlocks ← floorDiv pages numLayers
  pure (mayOverrideNumBlocks config numBlocks)

/-- One tensor for the layers at the same place of all groups. -/
def getKVCacheConfigGeneral (availableMemory : Nat) :
    Outcome (Nat × List (KVCacheTensor Layer)) := do
  let pageSize ← getUniformPageSize groups
  ensure (0 < groupSize groups) "group_size must be greater than 0"
  let numBlocks ← getNumBlocks config (groupSize groups) availableMemory pageSize
  pure (numBlocks, (List.range (groupSize groups)).map fun i =>
    { size := pageSize * numBlocks
      sharedBy := groups.filterMap fun group => group.layerNames[i]? })

/-- Whether there is one group of layers of one type. -/
def isUniformTypeGroup : List (KVCacheGroupSpec Layer) → Bool
  | [group] => group.kvCacheSpec.isUniformType
  | _ => false

def getKVCacheConfigFromGroups (availableMemory : Nat) : Outcome (KVCacheConfig Layer) :=
  match groups with
  | [] => .ok { numBlocks := 1, kvCacheTensors := [], kvCacheGroups := [] }
  | first :: rest => do
      let plan ←
        if isUniformTypeGroup (first :: rest) then
          getKVCacheConfigUniformType config first availableMemory
        else if usePackedKVCacheConfig config (first :: rest) then
          getKVCacheConfigPacked config (first :: rest) availableMemory
        else
          getKVCacheConfigGeneral config (first :: rest) availableMemory
      pure
        { numBlocks := plan.1
          kvCacheTensors := plan.2
          kvCacheGroups := first :: rest }

/-- The bytes of one block, by which the layouts divide the memory. -/
def poolBytesPerBlock : Outcome Nat :=
  if isUniformTypeGroup groups then
    .ok (groups.map fun group => group.kvCacheSpec.pageSizeBytes).sum
  else if usePackedKVCacheConfig config groups then do
    let layout ← getPackedKVCacheLayout groups
    pure layout.1
  else do
    let pageSize ← getUniformPageSize groups
    pure (pageSize * groupSize groups)

end

/-! ## The memory check -/

/-- The layers of a group of one type. -/
def uniformSpecs : Option (Dict Layer LayerSpec) :=
  match group.kvCacheSpec with
  | .single _ => none
  | .uniformType _ specs => some specs

/-- The memory of one request when all groups are of uniform type. -/
def layerTupleBytes (first : Dict Layer LayerSpec) (specs : List (Dict Layer LayerSpec)) :
    Outcome Nat := do
  let tuples ← specs.mapM GroupSpec.getNumLayerTuples
  let numLayerTuples ← GroupSpec.maximum tuples
  let pages ← specs.mapM (GroupSpec.maxMemoryUsagePages config)
  pure (pages.map fun count => numLayerTuples * count * (GroupSpec.getPageSizes first).sum).sum

section

variable (groups : List (KVCacheGroupSpec Layer))

/-- The blocks one request needs of each group. -/
def blocksNeeded (pageSize : KVCacheGroupSpec Layer → Nat) : Outcome (List Nat) :=
  groups.mapM fun group => do
    let bytes ← group.kvCacheSpec.maxMemoryUsageBytes config
    ceilDiv bytes (pageSize group)

def maxMemoryUsageBytesFromGroups : Outcome Nat :=
  match groups.mapM uniformSpecs with
  | some [] => .ok 0
  | some [specs] => do
      let bytes ← specs.values.mapM (LayerSpec.maxMemoryUsageBytes config)
      pure bytes.sum
  | some (first :: rest) => layerTupleBytes config first (first :: rest)
  | none => do
      let pageSize ← getUniformPageSize groups
      let blocks ← blocksNeeded config groups fun _ => pageSize
      pure (groupSize groups * pageSize * blocks.sum)

/-- Whether a model length fits into the memory. -/
def fitsModelLen (availableMemory modelLen : Nat) : Outcome Bool := do
  let needed ← maxMemoryUsageBytesFromGroups { config with maxModelLen := modelLen } groups
  pure (decide (needed ≤ availableMemory))

/-- Binary search for the last length that fits. -/
def searchModelLen (fits : Nat → Outcome Bool) (left right result : Nat) : Outcome Nat :=
  if left ≤ right then
    let mid := (left + right) / 2
    match fits mid with
    | .error fault => .error fault
    | .ok true => searchModelLen fits (mid + 1) right mid
    | .ok false => if mid = 0 then .ok result else searchModelLen fits left (mid - 1) result
  else
    .ok result
  termination_by right + 1 - left
  decreasing_by all_goals omega

def estimateMaxModelLenFromGroups (availableMemory : Nat) : Outcome Nat := do
  if ← fitsModelLen config groups availableMemory 1 then
    searchModelLen (fitsModelLen config groups availableMemory) 1 config.maxModelLen 1
  else
    pure 0

end

/-- The length all workers can hold, starting from a length. -/
def autoFitOver (autoFitMax : Nat) (worker : List (KVCacheGroupSpec Layer) × Nat) : Outcome Nat :=
  if worker.1.isEmpty then
    .ok autoFitMax
  else do
    let workerMax ← estimateMaxModelLenFromGroups config worker.1 worker.2
    pure (min autoFitMax workerMax)

/-- Lower the maximum model length to what fits on every worker. -/
def autoFitMaxModelLen (workers : List (List (KVCacheGroupSpec Layer) × Nat)) :
    Outcome VllmConfig :=
  if workers.all fun worker => worker.1.isEmpty then
    .ok config
  else do
    let autoFitMax ← workers.foldlM (autoFitOver config) config.maxModelLen
    if autoFitMax = 0 then
      .error (.value
        ("Cannot auto-fit max_model_len: not enough GPU memory available to serve even " ++
          "a single token. Try increasing gpu_memory_utilization."))
    else
      pure { config with maxModelLen := min autoFitMax config.maxModelLen }

def checkEnoughKVCacheMemory (worker : List (KVCacheGroupSpec Layer) × Nat) : Outcome Unit :=
  if worker.1.isEmpty then
    .ok ()
  else if worker.2 = 0 then
    .error (.value "No available memory for the cache blocks.")
  else do
    let needed ← maxMemoryUsageBytesFromGroups config worker.1
    if worker.2 < needed then
      .error (.value "To serve at least one request with the model's max seq len")
    else
      pure ()

/-! ## All workers -/

/-- The specs of all workers together; a layer has the same spec on all of them. -/
def mergeSpec (merged : Dict Layer LayerSpec) (entry : Layer × LayerSpec) :
    Outcome (Dict Layer LayerSpec) :=
  match merged.get? entry.1 with
  | none => .ok (merged.set entry.1 entry.2)
  | some spec => do
      ensure (spec = entry.2)
        ("The KV cache specs for the same layer are different across workers. " ++
          "This is not supported yet.")
      pure merged

/-- The specs of some layers out of those of a group. -/
def restrictSpecs (specs : Dict Layer LayerSpec) (layers : List Layer) :
    Outcome (Dict Layer LayerSpec) :=
  layers.foldlM
    (fun kept layer =>
      match specs.get? layer with
      | some spec => .ok (kept.set layer spec)
      | none => .error (.key ""))
    .empty

/-- A group with the layers of one worker. -/
def projectGroup (workerSpec : Dict Layer LayerSpec) (group : KVCacheGroupSpec Layer) :
    Outcome (KVCacheGroupSpec Layer) := do
  let layers := group.layerNames.filter workerSpec.contains
  let spec ←
    match group.kvCacheSpec with
    | .single spec => pure (.single spec)
    | .uniformType blockSize specs =>
      if layers.isEmpty then
        pure (.uniformType blockSize specs)
      else do
        let kept ← restrictSpecs specs layers
        pure (.uniformType blockSize kept)
  pure ⟨layers, spec, group.isEagleGroup && !layers.isEmpty⟩

def projectKVCacheGroupsToWorker (workerSpec : Dict Layer LayerSpec) :
    Outcome (List (KVCacheGroupSpec Layer)) :=
  groups.mapM (projectGroup workerSpec)

/-- The memory of a worker that an override of the number of blocks stands for. -/
def adjustMemory (worker : List (KVCacheGroupSpec Layer) × Nat) : Outcome Nat :=
  match config.numGpuBlocksOverride with
  | none => .ok worker.2
  | some override =>
    if worker.1.isEmpty then
      .ok worker.2
    else do
      let bytesPerBlock ← poolBytesPerBlock config worker.1
      let _ ← floorDiv worker.2 bytesPerBlock
      pure (override * bytesPerBlock)

/-- The plan of one worker, which must place all of its layers. -/
def planWorker (worker : (List (KVCacheGroupSpec Layer) × Dict Layer LayerSpec) × Nat) :
    Outcome (KVCacheConfig Layer) := do
  ensure ((worker.1.1.map fun group => group.layerNames.length).sum = worker.1.2.entries.length)
    "Some layers are not assigned to any group."
  getKVCacheConfigFromGroups config worker.1.1 worker.2

/-- A tensor resized to another number of blocks. -/
def shrinkTensor (numBlocksOld minNumBlocks : Nat) (tensor : KVCacheTensor Layer) :
    Outcome (KVCacheTensor Layer) := do
  let blockBytes ← floorDiv tensor.size numBlocksOld
  ensure (tensor.size % numBlocksOld = 0)
  pure { tensor with size := blockBytes * minNumBlocks }

/-- The blocks one request takes from the pool; the number of requests that fit is only
logged, but there must be some block to divide by. -/
def getKVCacheCapacity (groups : List (KVCacheGroupSpec Layer)) : Outcome Unit := do
  let blocks ← blocksNeeded config groups fun group => group.kvCacheSpec.pageSizeBytes
  let _ ← floorDiv 1 blocks.sum

def shrinkConfig (minNumBlocks : Nat) (plan : KVCacheConfig Layer) :
    Outcome (KVCacheConfig Layer) := do
  let tensors ← plan.kvCacheTensors.mapM (shrinkTensor plan.numBlocks minNumBlocks)
  if plan.kvCacheGroups.isEmpty then
    pure ()
  else
    getKVCacheCapacity config plan.kvCacheGroups
  pure { plan with numBlocks := minNumBlocks, kvCacheTensors := tensors }

/-- The smallest number of blocks of some plans. -/
def minNumBlocks (plans : List (KVCacheConfig Layer)) : Outcome Nat :=
  match plans with
  | [] => .error (.value "min() arg is an empty sequence")
  | plan :: rest => .ok (rest.foldl (fun least other => min least other.numBlocks) plan.numBlocks)

/-- The groups of each worker with its memory, once an override is applied. -/
def projectedWorkers (groups : List (KVCacheGroupSpec Layer)) (specs : List (Dict Layer LayerSpec))
    (availableMemory : List Nat) : Outcome (List (List (KVCacheGroupSpec Layer) × Nat)) := do
  let projected ← specs.mapM (projectKVCacheGroupsToWorker groups)
  let memory ← (projected.zip availableMemory).mapM (adjustMemory config)
  pure (projected.zip memory)

/-- The configuration with the model length lowered where that was asked for. -/
def fittedConfig (workers : List (List (KVCacheGroupSpec Layer) × Nat)) : Outcome VllmConfig :=
  if config.originalMaxModelLen = -1 then autoFitMaxModelLen config workers else .ok config

/-- Plans for all workers, with the configuration they were made for. -/
def getKVCacheConfigs
    (getKVCacheGroups : VllmConfig → Dict Layer LayerSpec → Outcome (List (KVCacheGroupSpec Layer)))
    (config : VllmConfig) (specs : List (Dict Layer LayerSpec)) (availableMemory : List Nat) :
    Outcome (VllmConfig × List (KVCacheConfig Layer)) := do
  let merged ← (specs.flatMap Dict.entries).foldlM mergeSpec .empty
  let groups ← getKVCacheGroups config merged
  let workers ← projectedWorkers config groups specs availableMemory
  let fitted ← fittedConfig config workers
  workers.forM (checkEnoughKVCacheMemory fitted)
  let plans ←
    ((workers.map Prod.fst).zip specs |>.zip (workers.map Prod.snd)).mapM (planWorker fitted)
  let least ← minNumBlocks plans
  let shrunk ← plans.mapM (shrinkConfig fitted least)
  pure (fitted, shrunk)

end VllmCore.Startup
