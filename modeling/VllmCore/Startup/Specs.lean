import VllmCore.Lib.Dict
import VllmCore.Lib.Outcome
import VllmCore.Lib.Rounding

namespace VllmCore.Startup

open Lib

/-!
# KV cache specs

The specs of `v1/kv_cache_interface.py` as far as start-up reads them: how many bytes a
page of a layer takes and how many blocks one request of the maximum length may hold.
-/

/-- What a quotient raises when its divisor is zero. -/
def floorDiv (amount size : Nat) : Outcome Nat :=
  if size = 0 then .error (.division "integer division or modulo by zero")
  else .ok (amount / size)

/-- The quotient rounded up, with the same fault. -/
def ceilDiv (amount size : Nat) : Outcome Nat :=
  if size = 0 then .error (.division "integer division or modulo by zero")
  else .ok (cdiv amount size)

inductive MambaCacheMode where
  | all
  | align
  | none
  deriving Repr, DecidableEq

/-- The configuration that start-up reads. -/
structure VllmConfig where
  maxModelLen : Nat
  originalMaxModelLen : Int
  maxInFlightTokens : Nat
  maxNumEncoderInputTokens : Nat
  decodeContextParallelSize : Nat
  mambaCacheMode : MambaCacheMode
  numGpuBlocksOverride : Option Nat
  enableCrossLayersBlocks : Bool
  deriving Repr, DecidableEq

/-- Which KV a layer keeps; the kinds of full attention count their blocks alike. -/
inductive SpecKind where
  | fullAttention
  | slidingWindow (window : Nat)
  | chunkedLocalAttention (attentionChunkSize : Nat)
  | mamba (numSpeculativeBlocks : Nat)
  | encoderOnlyAttention
  | crossAttention
  deriving Repr, DecidableEq

/-- A layer's blocks and their bytes: slots of compressed tokens and scales of each
token, or the states of a Mamba layer. -/
structure LayerFormat where
  kind : SpecKind
  blockSize : Nat
  slotBytes : Nat
  compressRatio : Nat := 1
  scaleBytes : Nat := 0
  stateBytes : Nat := 0
  indexesKvByBlockStride : Bool := false
  deriving Repr, DecidableEq

def LayerFormat.unpaddedPageSizeBytes (format : LayerFormat) : Nat :=
  match format.kind with
  | .mamba _ => format.stateBytes
  | _ =>
    format.blockSize / format.compressRatio * format.slotBytes +
      format.blockSize * format.scaleBytes

/-- A spec whose blocks hold tokens and whose padded page holds the page. -/
structure LayerSpec extends LayerFormat where
  pageSizePadded : Option Nat := none
  positive : 0 < toLayerFormat.blockSize
  fits : ∀ bytes ∈ pageSizePadded, toLayerFormat.unpaddedPageSizeBytes ≤ bytes
  deriving DecidableEq

namespace LayerSpec

def pageSizeBytes (spec : LayerSpec) : Nat :=
  spec.pageSizePadded.getD spec.unpaddedPageSizeBytes

variable (config : VllmConfig)

/-- The most blocks one request holds in a window of tokens and the tokens in flight. -/
def slidingWindowBlocks (window blockSize : Nat) : Nat :=
  cdiv (min (window + config.maxInFlightTokens - 1) config.maxModelLen) blockSize + 1

def chunkedLocalBlocks (attentionChunkSize blockSize : Nat) : Nat :=
  cdiv (min (attentionChunkSize + config.maxInFlightTokens) config.maxModelLen) blockSize

/-- The tokens of a request that one rank of context parallelism keeps. -/
def rankTokens : Nat :=
  if 1 < config.decodeContextParallelSize then
    cdiv config.maxModelLen config.decodeContextParallelSize
  else
    config.maxModelLen

/-- The blocks one request of the maximum length holds at its peak. -/
def peakBlocks (spec : LayerSpec) : Nat :=
  match spec.kind with
  | .fullAttention => cdiv (rankTokens config) spec.blockSize
  | .slidingWindow window => slidingWindowBlocks config window spec.blockSize
  | .chunkedLocalAttention chunk => chunkedLocalBlocks config chunk spec.blockSize
  | .mamba numSpeculativeBlocks =>
    match config.mambaCacheMode with
    | .all => cdiv config.maxModelLen spec.blockSize + numSpeculativeBlocks
    | .align => 2 + numSpeculativeBlocks
    | .none => 1 + numSpeculativeBlocks
  | .encoderOnlyAttention => 0
  | .crossAttention => cdiv config.maxNumEncoderInputTokens spec.blockSize

def maxMemoryUsageBytes (spec : LayerSpec) : Outcome Nat := do
  match spec.kind with
  | .slidingWindow _ =>
    ensure (config.decodeContextParallelSize = 1) "DCP not support sliding window."
  | _ => pure ()
  pure (spec.peakBlocks config * spec.pageSizeBytes)

end LayerSpec

/-- The spec of a group: one for all layers, or one of each layer of one type. -/
inductive GroupSpec (Layer : Type) where
  | single (spec : LayerSpec)
  | uniformType (blockSize : Nat) (kvCacheSpecs : Dict Layer LayerSpec)

namespace GroupSpec

variable {Layer : Type}

def isUniformType : GroupSpec Layer → Bool
  | .single _ => false
  | .uniformType _ _ => true

def pageSizeBytes : GroupSpec Layer → Nat
  | .single spec => spec.pageSizeBytes
  | .uniformType _ specs => (specs.values.map LayerSpec.pageSizeBytes).sum

/-- The maximum of some numbers, of which there must be one. -/
def maximum (values : List Nat) : Outcome Nat :=
  match values with
  | [] => .error (.value "max() arg is an empty sequence")
  | value :: rest => .ok (rest.foldl max value)

/-- The most pages a layer of the group needs. -/
def maxMemoryUsagePages (config : VllmConfig) (specs : Dict Layer LayerSpec) : Outcome Nat := do
  let pages ← specs.values.mapM fun spec => do
    let bytes ← spec.maxMemoryUsageBytes config
    ceilDiv bytes spec.pageSizeBytes
  maximum pages

def maxMemoryUsageBytes (config : VllmConfig) : GroupSpec Layer → Outcome Nat
  | .single spec => spec.maxMemoryUsageBytes config
  | .uniformType blockSize specs => do
      let pages ← maxMemoryUsagePages config specs
      pure (pages * (uniformType blockSize specs).pageSizeBytes)

/-- The page sizes of the layers, each once. -/
def getPageSizes (specs : Dict Layer LayerSpec) : List Nat :=
  (specs.values.map LayerSpec.pageSizeBytes).dedup

/-- How many layers have the most common page size. -/
def getNumLayerTuples (specs : Dict Layer LayerSpec) : Outcome Nat :=
  match (getPageSizes specs).map (specs.values.map LayerSpec.pageSizeBytes).count with
  | [] => .error (.index "list index out of range")
  | count :: rest => .ok (rest.foldl max count)

/-- The size of a layer's page, if the group has the layer. -/
def layerPage [DecidableEq Layer] (layer : Layer) : GroupSpec Layer → Option Nat
  | .single spec => some spec.pageSizeBytes
  | .uniformType _ specs => (specs.get? layer).map LayerSpec.pageSizeBytes

end GroupSpec

/-- The layers that share one block table. -/
structure KVCacheGroupSpec (Layer : Type) where
  layerNames : List Layer
  kvCacheSpec : GroupSpec Layer
  isEagleGroup : Bool := false

/-! ## One page size for all layers -/

namespace LayerSpec

/-- The spec with another page or block size, which the padded page must hold. -/
def replace (format : LayerFormat) (pageSizePadded : Option Nat) : Outcome LayerSpec :=
  if valid : 0 < format.blockSize ∧
      ∀ bytes ∈ pageSizePadded, format.unpaddedPageSizeBytes ≤ bytes then
    .ok { format with pageSizePadded := pageSizePadded, positive := valid.1, fits := valid.2 }
  else
    .error (.assertion "")

/-- A spec with a larger page, by its block size where that is possible. -/
def enlargePage (maxPageSize : Nat) (spec : LayerSpec) : Outcome LayerSpec :=
  match spec.kind with
  | .mamba _ => replace spec.toLayerFormat (some maxPageSize)
  | _ =>
    if spec.pageSizeBytes = 0 then
      .error (.division "integer division or modulo by zero")
    else if maxPageSize % spec.pageSizeBytes = 0 then
      replace
        { spec.toLayerFormat with
          blockSize := spec.blockSize * (maxPageSize / spec.pageSizeBytes) }
        spec.pageSizePadded
    else if spec.indexesKvByBlockStride then
      replace spec.toLayerFormat (some maxPageSize)
    else
      .error (.notImplemented "page size is not divisible by the maximum page size")

def unifyPageSize (maxPageSize : Nat) (spec : LayerSpec) : Outcome LayerSpec :=
  if spec.pageSizeBytes = maxPageSize then
    .ok spec
  else do
    let newSpec ← spec.enlargePage maxPageSize
    ensure (newSpec.pageSizeBytes = maxPageSize)
    pure newSpec

end LayerSpec

def unifyKVCacheSpecPageSize {Layer : Type} (specs : List (Layer × LayerSpec)) :
    Outcome (List (Layer × LayerSpec)) :=
  let pageSizes := (specs.map fun entry => entry.2.pageSizeBytes).dedup
  if pageSizes.length ≤ 1 then
    .ok specs
  else
    specs.mapM fun entry => do
      let newSpec ← entry.2.unifyPageSize (pageSizes.foldl max 0)
      pure (entry.1, newSpec)

end VllmCore.Startup
