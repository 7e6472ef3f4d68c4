import Mathlib.Algebra.BigOperators.Ring.List
import Mathlib.Algebra.Order.BigOperators.Group.List
import Mathlib.Data.List.Pairwise
import VllmCore.Startup.Configs

namespace VllmCore.Startup

open Lib List

/-!
# The tensor plan is sound

In every layout each layer is backed by one tensor, the allocated tensors fit into the
memory, and inside a block a layer has room for its page apart from the other layers of
its group.  The plans of all workers end with the same number of blocks.
-/

variable {Layer : Type} [DecidableEq Layer]

/-- The packed tensors are views of one allocation. -/
def Aliased (tensor other : KVCacheTensor Layer) : Prop :=
  tensor = other ∨ 0 < tensor.blockStride ∧ 0 < other.blockStride

/-- The bytes a worker allocates: packed tensors share the allocation of the first. -/
def allocatedBytes (tensors : List (KVCacheTensor Layer)) : Nat :=
  ((tensors.filter fun tensor => tensor.blockStride = 0).map KVCacheTensor.size).sum +
    ((tensors.find? fun tensor => 0 < tensor.blockStride).map KVCacheTensor.size).getD 0

/-- The layers of some groups. -/
def groupLayers (groups : List (KVCacheGroupSpec Layer)) : List Layer :=
  groups.flatMap KVCacheGroupSpec.layerNames

/-- Some tensors of a number of blocks lay the layers of some groups out. -/
structure Laid (groups : List (KVCacheGroupSpec Layer)) (numBlocks : Nat)
    (tensors : List (KVCacheTensor Layer)) :
    Prop where
  backed : (tensors.flatMap KVCacheTensor.sharedBy).Perm (groupLayers groups)
  room :
    ∀ tensor ∈ tensors, ∃ stride, tensor.size = stride * numBlocks ∧
      (0 < tensor.blockStride → tensor.blockStride = stride) ∧
      ∀ group ∈ groups, ∀ layer ∈ group.layerNames, layer ∈ tensor.sharedBy →
        ∀ page, group.kvCacheSpec.layerPage layer = some page → tensor.offset + page ≤ stride
  apart :
    ∀ group ∈ groups, ∀ layer ∈ group.layerNames, ∀ other ∈ group.layerNames, layer ≠ other →
      ∀ tensor ∈ tensors, layer ∈ tensor.sharedBy →
        ∀ place ∈ tensors, other ∈ place.sharedBy → Aliased tensor place → ∀ page otherPage,
          group.kvCacheSpec.layerPage layer = some page →
            group.kvCacheSpec.layerPage other = some otherPage →
              tensor.offset + page ≤ place.offset ∨ place.offset + otherPage ≤ tensor.offset

variable {config : VllmConfig} {group : KVCacheGroupSpec Layer}
  {groups : List (KVCacheGroupSpec Layer)} {availableMemory : Nat}

/-! ## Quotients and pages -/

theorem floorDiv_eq_ok :
    floorDiv amount size = .ok quotient ↔ size ≠ 0 ∧ quotient = amount / size := by
  unfold floorDiv
  split
  · rename_i zero
    simp [zero]
  · rename_i pos
    simp [pos, eq_comm]

variable {pages : List (Layer × Nat)}

/-- The pages of a group are those of its layers, in their order. -/
theorem layerPages_eq_ok (ran : layerPages group = .ok pages) :
    pages.map Prod.fst = group.layerNames ∧
      ∀ entry ∈ pages, group.kvCacheSpec.layerPage entry.1 = some entry.2 := by
  unfold layerPages at ran
  rw [mapM_eq_ok_iff] at ran
  generalize group.layerNames = layers at ran
  induction ran with
  | nil => exact ⟨rfl, by simp⟩
  | @cons layer entry layers pages paged rest ih =>
    cases found : group.kvCacheSpec.layerPage layer with
    | none =>
      rw [found] at paged
      cases paged
    | some page =>
      rw [found] at paged
      cases paged
      refine ⟨?_, ?_⟩
      · rw [map_cons, ih.1]
      · intro other mem
        rcases mem_cons.mp mem with rfl | later
        · exact found
        · exact ih.2 other later

variable {specs : Dict Layer LayerSpec} {numBlocks size : Nat} {layer : Layer}

/-- A layer's page is part of the page of its group. -/
theorem layerPage_le {spec : GroupSpec Layer}
    (found : spec.layerPage layer = some page) : page ≤ spec.pageSizeBytes := by
  cases spec with
  | single spec =>
    cases found
    exact le_rfl
  | uniformType size specs =>
    obtain ⟨layerSpec, listed, rfl⟩ := Option.map_eq_some_iff.mp found
    apply single_le_sum (fun _ _ => Nat.zero_le _)
    apply mem_map_of_mem
    exact mem_map_of_mem (Dict.get?_eq_some_iff.mp listed)

/-- The pages of distinct layers of a group fit into the page of the group. -/
theorem sum_pages_le (nodup : (pages.map Prod.fst).Nodup)
    (paged :
      ∀ entry ∈ pages, (GroupSpec.uniformType size specs).layerPage entry.1 = some entry.2) :
    (pages.map Prod.snd).sum ≤ (GroupSpec.uniformType size specs).pageSizeBytes := by
  have subset : pages ⊆ specs.entries.map fun entry => (entry.1, entry.2.pageSizeBytes) := by
    rintro ⟨layer, page⟩ mem
    obtain ⟨spec, found, same⟩ := Option.map_eq_some_iff.mp (paged _ mem)
    rw [mem_map]
    exact ⟨(layer, spec), Dict.get?_eq_some_iff.mp found, congrArg (Prod.mk layer) same⟩
  obtain ⟨sorted, reordered, sublist⟩ := subperm_of_subset (Nodup.of_map _ nodup) subset
  have bound := (sublist.map Prod.snd).sum_le_sum fun (_ : Nat) _ => Nat.zero_le _
  rw [map_map, (reordered.map Prod.snd).sum_eq] at bound
  show _ ≤ ((specs.entries.map Prod.snd).map LayerSpec.pageSizeBytes).sum
  rw [map_map]
  exact bound

omit [DecidableEq Layer] in
/-- Distinct layers have one group. -/
theorem group_unique (nodup : (groupLayers groups).Nodup) {other : KVCacheGroupSpec Layer}
    (mem : group ∈ groups) (memberOther : other ∈ groups) (listed : layer ∈ group.layerNames)
    (listedOther : layer ∈ other.layerNames) : group = other := by
  have disjoint := (nodup_flatMap.mp nodup).2
  have symmetric : Std.Symm (Function.onFun Disjoint (@KVCacheGroupSpec.layerNames Layer)) :=
    ⟨fun _ _ apart _ first second => apart second first⟩
  by_contra differs
  exact disjoint.forall mem memberOther differs listed listedOther

/-! ## One tensor for each layer -/

/-- The tensors of the layers of one group, one for each layer. -/
def layerTensors (pages : List (Layer × Nat)) (numBlocks : Nat) : List (KVCacheTensor Layer) :=
  pages.map fun entry => { size := entry.2 * numBlocks, sharedBy := [entry.1] }

omit [DecidableEq Layer] in
theorem sharedBy_layerTensors :
    (layerTensors pages numBlocks).flatMap KVCacheTensor.sharedBy = pages.map Prod.fst := by
  unfold layerTensors
  rw [flatMap_map]
  exact flatMap_pure_eq_map Prod.fst pages

theorem laid_uniformType (paged : layerPages group = .ok pages) :
    Laid [group] numBlocks (layerTensors pages numBlocks) := by
  obtain ⟨names, sizes⟩ := layerPages_eq_ok paged
  refine ⟨?_, ?_, ?_⟩
  · rw [sharedBy_layerTensors, names, groupLayers, flatMap_singleton]
  · intro tensor mem
    obtain ⟨entry, listed, rfl⟩ := mem_map.mp mem
    refine ⟨entry.2, rfl, fun packed => absurd packed (lt_irrefl 0), ?_⟩
    intro other memberOther layer _ shared page found
    cases mem_singleton.mp memberOther
    cases mem_singleton.mp shared
    have same := (sizes entry listed).symm.trans found
    cases same
    exact le_of_eq (zero_add _)
  · intro other _ layer _ second _ differs tensor mem shared place memberPlace sharedPlace aliased
    obtain ⟨entry, listed, rfl⟩ := mem_map.mp mem
    rcases aliased with same | packed
    · subst same
      cases mem_singleton.mp shared
      cases mem_singleton.mp sharedPlace
      exact absurd rfl differs
    · exact absurd packed.1 (lt_irrefl 0)

omit [DecidableEq Layer] in
/-- Tensors that are not packed are allocated one by one. -/
theorem bytes_of_unpacked {tensors : List (KVCacheTensor Layer)}
    (unpacked : ∀ tensor ∈ tensors, tensor.blockStride = 0) :
    allocatedBytes tensors = (tensors.map KVCacheTensor.size).sum := by
  have all : tensors.filter (fun tensor => tensor.blockStride = 0) = tensors :=
    filter_eq_self.mpr fun tensor mem => by simpa using unpacked tensor mem
  have none : tensors.find? (fun tensor => 0 < tensor.blockStride) = none := by
    rw [find?_eq_none]
    intro tensor mem
    simp [unpacked tensor mem]
  unfold allocatedBytes
  rw [all, none]
  rfl

theorem allocated_uniformType (uniform : group.kvCacheSpec = .uniformType size specs)
    (nodup : group.layerNames.Nodup) (paged : layerPages group = .ok pages)
    (bound : group.kvCacheSpec.pageSizeBytes * numBlocks ≤ availableMemory) :
    allocatedBytes (layerTensors pages numBlocks) ≤ availableMemory := by
  obtain ⟨names, sizes⟩ := layerPages_eq_ok paged
  have unpacked : ∀ tensor ∈ layerTensors pages numBlocks, tensor.blockStride = 0 := by
    intro tensor mem
    obtain ⟨entry, _, rfl⟩ := mem_map.mp mem
    rfl
  rw [uniform] at sizes bound
  have total : (pages.map Prod.snd).sum ≤ _ := sum_pages_le (names ▸ nodup) sizes
  have scaled : ((layerTensors pages numBlocks).map KVCacheTensor.size).sum =
      (pages.map Prod.snd).sum * numBlocks := by
    unfold layerTensors
    rw [map_map, ← sum_map_mul_right]
    rfl
  rw [bytes_of_unpacked unpacked, scaled]
  exact le_trans (Nat.mul_le_mul_right _ total) bound

/-! ## One tensor for each place in the groups -/

section

omit [DecidableEq Layer]

theorem getUniformPageSize_eq_ok
    (ran : getUniformPageSize groups = .ok pageSize) :
    ∀ group ∈ groups, group.kvCacheSpec.pageSizeBytes = pageSize := by
  unfold getUniformPageSize at ran
  split at ran
  · rename_i only sizes
    cases ran
    intro group mem
    have listed : group.kvCacheSpec.pageSizeBytes ∈
        (groups.map fun group => group.kvCacheSpec.pageSizeBytes).dedup :=
      mem_dedup.mpr (mem_map_of_mem mem)
    rw [sizes] at listed
    exact mem_singleton.mp listed
  · cases ran

variable {count : Nat}

theorem flatMap_range_getElem? (short : names.length ≤ count) :
    ((range count).flatMap fun i => (names[i]?).toList) = names := by
  induction names generalizing count with
  | nil => simp
  | cons name rest ih =>
    cases count with
    | zero => cases short
    | succ count =>
      rw [range_succ_eq_map, flatMap_cons, flatMap_map]
      have later := ih (Nat.le_of_succ_le_succ short)
      simp only [getElem?_cons_zero, getElem?_cons_succ, Option.toList_some,
        singleton_append, later]

/-- The layers at all places of the groups are the layers of the groups. -/
theorem flatMap_places_perm (short : ∀ group ∈ groups, group.layerNames.length ≤ count) :
    ((range count).flatMap fun i =>
      groups.filterMap fun group => group.layerNames[i]?).Perm (groupLayers groups) := by
  induction groups with
  | nil => simp [groupLayers]
  | cons group rest ih =>
    have later := ih fun other mem => short other (mem_cons_of_mem _ mem)
    have split : (fun i : Nat => (group :: rest).filterMap fun group => group.layerNames[i]?) =
          fun i =>
            (group.layerNames[i]?).toList ++ rest.filterMap fun group => group.layerNames[i]? := by
      funext i
      rw [filterMap_cons]
      cases group.layerNames[i]? with
      | _ => rfl
    rw [split]
    refine (flatMap_append_perm _ _ _).symm.trans ?_
    rw [flatMap_range_getElem? (short group mem_cons_self)]
    exact later.append_left _

theorem le_foldl_max (values : List Nat) (start : Nat) :
    start ≤ values.foldl max start ∧ ∀ value ∈ values, value ≤ values.foldl max start := by
  induction values generalizing start with
  | nil => exact ⟨le_rfl, by simp⟩
  | cons first rest ih =>
    obtain ⟨above, others⟩ := ih (max start first)
    refine ⟨le_trans (le_max_left _ _) above, ?_⟩
    intro value mem
    rcases mem_cons.mp mem with rfl | later
    · exact le_trans (le_max_right _ _) above
    · exact others value later

theorem length_le_groupSize (mem : group ∈ groups) :
    group.layerNames.length ≤ groupSize groups := by
  exact (le_foldl_max _ 0).2 _ (mem_map_of_mem mem)

end

/-- The tensors for the places in the groups, one for each place. -/
def placeTensors (groups : List (KVCacheGroupSpec Layer)) (pageSize numBlocks : Nat) :
    List (KVCacheTensor Layer) :=
  (range (groupSize groups)).map fun i =>
    { size := pageSize * numBlocks
      sharedBy := groups.filterMap fun group => group.layerNames[i]? }

theorem laid_general {numBlocks pageSize : Nat} (nodup : (groupLayers groups).Nodup)
    (uniform : ∀ group ∈ groups, group.kvCacheSpec.pageSizeBytes = pageSize) :
    Laid groups numBlocks (placeTensors groups pageSize numBlocks) := by
  refine ⟨?_, ?_, ?_⟩
  · unfold placeTensors
    rw [flatMap_map]
    exact flatMap_places_perm fun group mem => length_le_groupSize mem
  · intro tensor mem
    obtain ⟨i, _, rfl⟩ := mem_map.mp mem
    refine ⟨pageSize, rfl, fun packed => absurd packed (lt_irrefl 0), ?_⟩
    intro group memberGroup layer _ _ page found
    rw [← uniform group memberGroup, zero_add]
    exact layerPage_le found
  · intro group memberGroup layer listed other listedOther differs tensor mem shared
      place memberPlace sharedPlace aliased
    obtain ⟨i, _, rfl⟩ := mem_map.mp mem
    rcases aliased with same | packed
    · subst same
      -- both layers would stand at the same place of their group
      obtain ⟨first, memberFirst, atFirst⟩ := mem_filterMap.mp shared
      obtain ⟨second, memberSecond, atSecond⟩ := mem_filterMap.mp sharedPlace
      have sameFirst :=
        group_unique nodup memberGroup memberFirst listed (mem_of_getElem? atFirst)
      have sameSecond :=
        group_unique nodup memberGroup memberSecond listedOther (mem_of_getElem? atSecond)
      rw [← sameFirst] at atFirst
      rw [← sameSecond, atFirst] at atSecond
      exact absurd (Option.some.inj atSecond) differs
    · exact absurd packed.1 (lt_irrefl 0)

omit [DecidableEq Layer] in
theorem allocated_general {numBlocks pageSize : Nat}
    (bound : groupSize groups * (pageSize * numBlocks) ≤ availableMemory) :
    allocatedBytes (placeTensors groups pageSize numBlocks) ≤ availableMemory := by
  rw [bytes_of_unpacked]
  · refine le_trans (le_of_eq ?_) bound
    have same : (placeTensors groups pageSize numBlocks).map KVCacheTensor.size =
        replicate (groupSize groups) (pageSize * numBlocks) := by
      rw [eq_replicate_iff]
      refine ⟨by simp [placeTensors], ?_⟩
      intro size mem
      obtain ⟨tensor, listed, rfl⟩ := mem_map.mp mem
      obtain ⟨i, _, rfl⟩ := mem_map.mp listed
      rfl
    rw [same, sum_replicate, smul_eq_mul]
  · intro tensor mem
    obtain ⟨i, _, rfl⟩ := mem_map.mp mem
    rfl

/-! ## Groups packed over each other -/

section

omit [DecidableEq Layer]

variable (pages : List (Layer × Nat)) (placed : Nat × Dict Nat (List Layer))

/-- A layer stands in some pages behind a number of bytes. -/
def StandsAt (layer : Layer) (page offset : Nat) : Prop :=
  ∃ before behind, pages = before ++ (layer, page) :: behind ∧ offset = (before.map Prod.snd).sum

variable {layer : Layer} {offset : Nat} {entry : Layer × Nat}

theorem StandsAt.le_sum {pages : List (Layer × Nat)}
    (stands : StandsAt pages layer page offset) : offset + page ≤ (pages.map Prod.snd).sum := by
  obtain ⟨before, behind, rfl, rfl⟩ := stands
  rw [map_append, sum_append, map_cons, sum_cons]
  omega

/-- Two layers stand apart in the same pages. -/
theorem StandsAt.apart {pages : List (Layer × Nat)}
    (stands : StandsAt pages layer page offset)
    (standsOther : StandsAt pages other otherPage otherOffset) (differs : layer ≠ other) :
    offset + page ≤ otherOffset ∨ otherOffset + otherPage ≤ offset := by
  obtain ⟨before, behind, rfl, rfl⟩ := stands
  obtain ⟨beforeOther, behindOther, same, rfl⟩ := standsOther
  rcases append_eq_append_iff.mp same with
    ⟨between, longer, rest⟩ | ⟨between, longer, rest⟩
  all_goals
    cases between with
    | nil =>
      cases rest
      exact absurd rfl differs
    | cons first between =>
      cases rest
      rw [longer, map_append, sum_append, map_cons, sum_cons]
      omega

theorem items_placeLayer :
    (placeLayer placed entry).2.items.Perm (placed.2.items ++ [entry.1]) := by
  refine (placed.2.items_set_perm _ _).trans ?_
  rw [append_assoc]
  refine (Perm.append_left _ perm_append_comm).trans ?_
  rw [← append_assoc]
  exact (placed.2.items_perm placed.1).symm.append_right _

theorem mem_placeLayer :
    layer ∈ (placeLayer placed entry).2.getD offset [] ↔
      layer ∈ placed.2.getD offset [] ∨ offset = placed.1 ∧ layer = entry.1 := by
  unfold placeLayer
  rw [Dict.getD_set]
  split
  · rename_i same
    subst same
    simp
  · rename_i differs
    simp [differs]

/-- The layers of a group are placed one behind the other. -/
theorem mem_foldl_placeLayer {pages : List (Layer × Nat)} {placed : Nat × Dict Nat (List Layer)}
    (mem : layer ∈ (pages.foldl placeLayer placed).2.getD offset []) :
    layer ∈ placed.2.getD offset [] ∨
      ∃ page behind, StandsAt pages layer page behind ∧ offset = placed.1 + behind := by
  induction pages generalizing placed with
  | nil => exact .inl mem
  | cons entry rest ih =>
    rcases ih mem with earlier | ⟨page, behind, stands, same⟩
    · rcases (mem_placeLayer placed).mp earlier with old | ⟨here, rfl⟩
      · exact .inl old
      · exact .inr ⟨entry.2, 0, ⟨[], rest, rfl, rfl⟩, here⟩
    obtain ⟨before, after, split, sum⟩ := stands
    refine .inr ⟨page, entry.2 + behind, ⟨entry :: before, after, by rw [split]; rfl, ?_⟩, ?_⟩
    · rw [map_cons, sum_cons, sum]
    · rw [same]
      show placed.1 + entry.2 + behind = _
      omega

theorem fst_foldl_placeLayer :
    (pages.foldl placeLayer placed).1 = placed.1 + (pages.map Prod.snd).sum := by
  induction pages generalizing placed with
  | nil => rfl
  | cons entry rest ih =>
    rw [foldl_cons, ih, map_cons, sum_cons]
    show placed.1 + entry.2 + _ = _
    omega

theorem items_foldl_placeLayer :
    (pages.foldl placeLayer placed).2.items.Perm (placed.2.items ++ pages.map Prod.fst) := by
  induction pages generalizing placed with
  | nil =>
    rw [map_nil, append_nil]
    exact .refl _
  | cons entry rest ih =>
    refine (ih _).trans ?_
    refine ((items_placeLayer placed).append_right _).trans ?_
    rw [append_assoc]
    exact .refl _

/-- A layout holds the layers of some groups, each group from the start of the block. -/
structure Packs (groupPages : List (List (Layer × Nat))) (layout : Nat × Dict Nat (List Layer)) :
    Prop where
  stride : ∀ pages ∈ groupPages, (pages.map Prod.snd).sum ≤ layout.1
  placed :
    ∀ offset layer, layer ∈ layout.2.getD offset [] →
      ∃ pages ∈ groupPages, ∃ page, StandsAt pages layer page offset
  items : layout.2.items.Perm (groupPages.flatMap fun pages => pages.map Prod.fst)

theorem packs_empty : Packs ([] : List (List (Layer × Nat))) (0, .empty) := by
  refine ⟨?_, ?_, .refl _⟩
  · intro pages mem
    cases mem
  · intro offset layer mem
    cases mem

section

variable {groupPages : List (List (Layer × Nat))} {layout : Nat × Dict Nat (List Layer)}
    (packs : Packs groupPages layout)
include packs

theorem Packs.placeGroup (pages : List (Layer × Nat)) :
    Packs (groupPages ++ [pages]) (Startup.placeGroup layout pages) := by
  refine ⟨?_, ?_, ?_⟩
  · intro other mem
    rcases mem_append.mp mem with earlier | last
    · exact le_trans (packs.stride other earlier) (le_max_left _ _)
    · cases mem_singleton.mp last
      refine le_trans (le_of_eq ?_) (le_max_right _ _)
      rw [fst_foldl_placeLayer, zero_add]
  · intro offset layer mem
    rcases mem_foldl_placeLayer mem with earlier | ⟨page, behind, stands, same⟩
    · obtain ⟨other, listed, page, stands⟩ := packs.placed offset layer earlier
      exact ⟨other, mem_append_left _ listed, page, stands⟩
    · rw [zero_add] at same
      subst same
      exact ⟨pages, mem_append_right _ (mem_singleton_self _), page, stands⟩
  · refine (items_foldl_placeLayer pages (0, layout.2)).trans ?_
    rw [flatMap_append, flatMap_singleton]
    exact packs.items.append_right _

theorem packs_foldl : Packs (groupPages ++ more) (more.foldl Startup.placeGroup layout) := by
  induction more generalizing groupPages layout with
  | nil =>
    rw [append_nil]
    exact packs
  | cons pages rest ih =>
    have later := ih (packs.placeGroup pages)
    rw [append_assoc] at later
    exact later

end

/-- The tensors of a packed layout, one for each offset. -/
def packedTensors (layout : Nat × Dict Nat (List Layer)) (numBlocks : Nat) :
    List (KVCacheTensor Layer) :=
  layout.2.keys.mergeSort.map fun byteOffset =>
    { size := layout.1 * numBlocks
      sharedBy := layout.2.getD byteOffset []
      offset := byteOffset
      blockStride := layout.1 }

theorem flatMap_getD_keys {dict : Dict Nat (List Layer)} :
    (dict.keys.flatMap fun key => dict.getD key []) = dict.items := by
  have each : ∀ entry ∈ dict.entries, dict.getD entry.1 [] = entry.2 := by
    intro entry mem
    unfold Dict.getD
    rw [Dict.get?_eq_some_iff.mpr mem]
    rfl
  unfold Dict.keys Dict.items Dict.values
  rw [flatMap_map, ← flatMap_id, flatMap_map]
  exact flatMap_congr each

end

variable {numBlocks : Nat} {layout : Nat × Dict Nat (List Layer)} {plan : KVCacheConfig Layer}

theorem laid_packed {groupPages : List (List (Layer × Nat))} (nodup : (groupLayers groups).Nodup)
    (paged : groups.mapM layerPages = .ok groupPages) (packs : Packs groupPages layout) :
    Laid groups numBlocks (packedTensors layout numBlocks) := by
  -- a layer of a group is placed among the pages of that group
  have stands : ∀ group ∈ groups, ∀ layer ∈ group.layerNames, ∀ offset,
      layer ∈ layout.2.getD offset [] → ∀ page,
        group.kvCacheSpec.layerPage layer = some page → ∃ pages ∈ groupPages,
          layerPages group = .ok pages ∧ StandsAt pages layer page offset := by
    intro group mem layer listed offset placed page found
    obtain ⟨pages, memberPages, other, stood⟩ := packs.placed offset layer placed
    obtain ⟨owner, memberOwner, owned⟩ := exists_of_mem_mapM paged memberPages
    obtain ⟨names, sizes⟩ := layerPages_eq_ok owned
    obtain ⟨before, behind, split, sum⟩ := stood
    have inPages : (layer, other) ∈ pages := by
      rw [split]
      exact mem_append_right _ mem_cons_self
    have inOwner : layer ∈ owner.layerNames := by
      rw [← names]
      exact mem_map_of_mem inPages
    have same := group_unique nodup mem memberOwner listed inOwner
    subst same
    have samePage := (sizes _ inPages).symm.trans found
    cases samePage
    exact ⟨pages, memberPages, owned, before, behind, split, sum⟩
  refine ⟨?_, ?_, ?_⟩
  · unfold packedTensors
    rw [flatMap_map]
    refine ((mergeSort_perm _ _).flatMap_right _).trans ?_
    rw [flatMap_getD_keys]
    refine packs.items.trans (Perm.of_eq ?_)
    rw [mapM_eq_ok_iff] at paged
    clear packs stands nodup
    unfold groupLayers
    induction paged with
    | nil => rfl
    | cons owned rest ih => rw [flatMap_cons, flatMap_cons, ih, (layerPages_eq_ok owned).1]
  · intro tensor mem
    obtain ⟨offset, _, rfl⟩ := mem_map.mp mem
    refine ⟨layout.1, rfl, fun _ => rfl, ?_⟩
    intro group memberGroup layer listed shared page found
    obtain ⟨pages, memberPages, _, stood⟩ :=
      stands group memberGroup layer listed offset shared page found
    exact le_trans stood.le_sum (packs.stride pages memberPages)
  · intro group memberGroup layer listed other listedOther differs tensor mem shared
      place memberPlace sharedPlace _ page otherPage found foundOther
    obtain ⟨offset, _, rfl⟩ := mem_map.mp mem
    obtain ⟨offsetPlace, _, rfl⟩ := mem_map.mp memberPlace
    obtain ⟨pages, _, owned, stood⟩ :=
      stands group memberGroup layer listed offset shared page found
    obtain ⟨pagesOther, _, ownedOther, stoodOther⟩ :=
      stands group memberGroup other listedOther offsetPlace sharedPlace otherPage foundOther
    cases owned.symm.trans ownedOther
    exact stood.apart stoodOther differs

omit [DecidableEq Layer] in
theorem allocated_packed (pos : 0 < layout.1)
    (bound : layout.1 * numBlocks ≤ availableMemory) :
    allocatedBytes (packedTensors layout numBlocks) ≤ availableMemory := by
  have packed : ∀ tensor ∈ packedTensors layout numBlocks,
      tensor.blockStride = layout.1 ∧ tensor.size = layout.1 * numBlocks := by
    intro tensor mem
    obtain ⟨offset, _, rfl⟩ := mem_map.mp mem
    exact ⟨rfl, rfl⟩
  have none :
      (packedTensors layout numBlocks).filter (fun tensor => tensor.blockStride = 0) = [] := by
    rw [filter_eq_nil_iff]
    intro tensor mem
    have stride := (packed tensor mem).1
    simp only [decide_eq_true_eq]
    omega
  unfold allocatedBytes
  rw [none]
  cases found : (packedTensors layout numBlocks).find? fun tensor => 0 < tensor.blockStride with
  | none => exact Nat.zero_le _
  | some tensor =>
    have size := (packed tensor (mem_of_find?_eq_some found)).2
    simp only [map_nil, sum_nil, zero_add, Option.map_some, Option.getD_some, size]
    exact bound

/-! ## The plan of one worker -/

/-- A plan lays the layers of its groups out and, unless the number of blocks was
overridden, fits into the memory. -/
def Fits (config : VllmConfig) (groups : List (KVCacheGroupSpec Layer))
    (availableMemory : Nat) (planned : Nat × List (KVCacheTensor Layer)) : Prop :=
  Laid groups planned.1 planned.2 ∧
    (config.numGpuBlocksOverride = none → allocatedBytes planned.2 ≤ availableMemory)

theorem override_of_none (free : config.numGpuBlocksOverride = none) :
    mayOverrideNumBlocks config numBlocks = numBlocks := by
  unfold mayOverrideNumBlocks
  rw [free]
  rfl

variable {planned : Nat × List (KVCacheTensor Layer)}

theorem fits_uniformType (uniform : group.kvCacheSpec.isUniformType = true)
    (nodup : group.layerNames.Nodup)
    (ran : getKVCacheConfigUniformType config group memory = .ok planned) :
    Fits config [group] memory planned := by
  obtain ⟨numBlocks, divided, next⟩ := bind_ok.mp ran
  obtain ⟨pages, paged, same⟩ := bind_ok.mp next
  cases same
  refine ⟨laid_uniformType paged, ?_⟩
  intro free
  rw [override_of_none free]
  cases spec : group.kvCacheSpec with
  | single _ =>
    rw [spec] at uniform
    cases uniform
  | uniformType size specs =>
    apply allocated_uniformType spec nodup paged
    rw [(floorDiv_eq_ok.mp divided).2]
    exact Nat.mul_div_le _ _

theorem fits_packed (nodup : (groupLayers groups).Nodup)
    (ran : getKVCacheConfigPacked config groups memory = .ok planned) :
    Fits config groups memory planned := by
  obtain ⟨layout, packed, next⟩ := bind_ok.mp ran
  obtain ⟨numBlocks, divided, same⟩ := bind_ok.mp next
  cases same
  obtain ⟨pages, paged, checked⟩ := bind_ok.mp packed
  obtain ⟨_, pos, same⟩ := bind_ok.mp checked
  cases same
  refine ⟨laid_packed nodup paged (packs_foldl packs_empty), ?_⟩
  intro free
  rw [override_of_none free]
  apply allocated_packed (ensure_eq_ok.mp pos)
  rw [(floorDiv_eq_ok.mp divided).2]
  exact Nat.mul_div_le _ _

theorem fits_general (nodup : (groupLayers groups).Nodup)
    (ran : getKVCacheConfigGeneral config groups availableMemory = .ok planned) :
    Fits config groups availableMemory planned := by
  obtain ⟨pageSize, uniform, next⟩ := bind_ok.mp ran
  obtain ⟨_, _, next⟩ := bind_ok.mp next
  obtain ⟨numBlocks, divided, same⟩ := bind_ok.mp next
  cases same
  refine ⟨laid_general nodup (getUniformPageSize_eq_ok uniform), ?_⟩
  intro free
  obtain ⟨pages, memoryPages, next⟩ := bind_ok.mp divided
  obtain ⟨quotient, tensorPages, same⟩ := bind_ok.mp next
  cases same
  apply allocated_general
  rw [override_of_none free, (floorDiv_eq_ok.mp tensorPages).2,
    (floorDiv_eq_ok.mp memoryPages).2, mul_left_comm]
  calc pageSize * (groupSize groups * (availableMemory / pageSize / groupSize groups))
      ≤ pageSize * (availableMemory / pageSize) := Nat.mul_le_mul_left _ (Nat.mul_div_le _ _)
    _ ≤ availableMemory := Nat.mul_div_le _ _

/-- A plan is empty or comes from one of the three layouts. -/
theorem fromGroups_cases
    (ran : getKVCacheConfigFromGroups config groups memory = .ok plan) :
    plan.kvCacheGroups = groups ∧ (groups = [] ∧ plan.numBlocks = 1 ∧ plan.kvCacheTensors = [] ∨
      (∃ group, groups = [group] ∧ group.kvCacheSpec.isUniformType = true ∧
        getKVCacheConfigUniformType config group memory =
          .ok (plan.numBlocks, plan.kvCacheTensors)) ∨
      isUniformTypeGroup groups = false ∧ (usePackedKVCacheConfig config groups = true ∧
            getKVCacheConfigPacked config groups memory =
              .ok (plan.numBlocks, plan.kvCacheTensors) ∨
          usePackedKVCacheConfig config groups = false ∧
            getKVCacheConfigGeneral config groups memory =
              .ok (plan.numBlocks, plan.kvCacheTensors))) := by
  unfold getKVCacheConfigFromGroups at ran
  split at ran
  · cases ran
    exact ⟨rfl, .inl ⟨rfl, rfl, rfl⟩⟩
  rename_i first rest
  split at ran
  · rename_i uniform
    obtain ⟨planned, laidOut, same⟩ := bind_ok.mp ran
    cases same
    cases rest with
    | nil => exact ⟨rfl, .inr (.inl ⟨first, rfl, uniform, laidOut⟩)⟩
    | cons _ _ => cases uniform
  · rename_i separate
    split at ran
    · rename_i packed
      obtain ⟨planned, laidOut, same⟩ := bind_ok.mp ran
      cases same
      exact ⟨rfl, .inr (.inr ⟨Bool.eq_false_iff.mpr separate, .inl ⟨packed, laidOut⟩⟩)⟩
    rename_i general
    obtain ⟨planned, laidOut, same⟩ := bind_ok.mp ran
    cases same
    exact ⟨rfl, .inr (.inr ⟨Bool.eq_false_iff.mpr separate,
      .inr ⟨Bool.eq_false_iff.mpr general, laidOut⟩⟩)⟩

theorem fits_fromGroups (nodup : (groupLayers groups).Nodup)
    (ran : getKVCacheConfigFromGroups config groups memory = .ok plan) :
    Fits config groups memory (plan.numBlocks, plan.kvCacheTensors) := by
  rcases (fromGroups_cases ran).2 with
    ⟨rfl, _, none⟩ | ⟨group, rfl, uniform, laidOut⟩ | ⟨_, ⟨_, laidOut⟩ | ⟨_, laidOut⟩⟩
  · rw [none]
    refine ⟨⟨.refl _, ?_, ?_⟩, fun _ => Nat.zero_le _⟩
    · intro tensor mem
      cases mem
    · intro group mem
      cases mem
  · rw [groupLayers, flatMap_singleton] at nodup
    exact fits_uniformType uniform nodup laidOut
  · exact fits_packed nodup laidOut
  · exact fits_general nodup laidOut

/-! ## The plans of all workers -/

/-- A tensor keeps its place and its stride and gets another number of blocks. -/
def Resized (numBlocksOld numBlocks : Nat) (tensor resized : KVCacheTensor Layer) : Prop :=
  ∃ stride, tensor.size = stride * numBlocksOld ∧
      (0 < tensor.blockStride → tensor.blockStride = stride) ∧
      resized = { tensor with size := stride * numBlocks }

theorem layerNames_projectGroup
    (ran : projectGroup workerSpec group = .ok kept) :
    kept.layerNames = group.layerNames.filter workerSpec.contains := by
  unfold projectGroup at ran
  dsimp only at ran
  split at ran
  · cases ran
    rfl
  split at ran
  · cases ran
    rfl
  · obtain ⟨specs, _, same⟩ := bind_ok.mp ran
    cases same
    rfl

/-- The layers of a worker's groups are among those of the groups. -/
theorem groupLayers_of_project
    (ran : projectKVCacheGroupsToWorker groups workerSpec = .ok projected) :
    (groupLayers projected).Sublist (groupLayers groups) := by
  unfold projectKVCacheGroupsToWorker at ran
  rw [mapM_eq_ok_iff] at ran
  induction ran with
  | nil => exact Sublist.refl _
  | @cons group kept groups projected restricted rest ih =>
    refine Sublist.append ?_ ih
    rw [layerNames_projectGroup restricted]
    exact filter_sublist

/-- Shrinking a plan resizes its tensors. -/
theorem resized_of_shrinkConfig
    (laid : Laid groups plan.numBlocks plan.kvCacheTensors)
    (ran : shrinkConfig config numBlocks plan = .ok shrunk) :
    shrunk.numBlocks = numBlocks ∧ Forall₂ (Resized plan.numBlocks numBlocks)
      plan.kvCacheTensors shrunk.kvCacheTensors := by
  obtain ⟨tensors, mapped, next⟩ := bind_ok.mp ran
  have same : { plan with numBlocks := numBlocks, kvCacheTensors := tensors } = shrunk := by
    split at next
    · exact Except.ok.inj next
    · obtain ⟨_, _, same⟩ := bind_ok.mp next
      exact Except.ok.inj same
  subst same
  refine ⟨rfl, ?_⟩
  rw [mapM_eq_ok_iff] at mapped
  refine Forall₂.imp ?_ ((List.forall₂_and_left _ _).mpr ⟨laid.room, mapped⟩)
  rintro tensor resized ⟨⟨stride, size, packed, _⟩, shrunk⟩
  obtain ⟨blockBytes, divided, next⟩ := bind_ok.mp shrunk
  obtain ⟨_, _, same⟩ := bind_ok.mp next
  cases same
  obtain ⟨some, rfl⟩ := floorDiv_eq_ok.mp divided
  refine ⟨stride, size, packed, ?_⟩
  rw [size, Nat.mul_div_cancel _ (Nat.pos_of_ne_zero some)]

/-- All plans have one number of blocks, to which the tensors of a plan of distinct layers
were resized. -/
def ResizedAlike (config : VllmConfig) (plans : List (KVCacheConfig Layer)) : Prop :=
  ∃ numBlocks, ∀ plan ∈ plans, plan.numBlocks = numBlocks ∧
    ∃ groups availableMemory planned, (groupLayers groups).Nodup ∧
      getKVCacheConfigFromGroups config groups availableMemory = .ok planned ∧
      Forall₂ (Resized planned.numBlocks numBlocks)
        planned.kvCacheTensors plan.kvCacheTensors

theorem resizedAlike_of_getKVCacheConfigs
    {specs : List (Dict Layer LayerSpec)}
    (nodup :
      ∀ merged groups, getKVCacheGroups config merged = .ok groups → (groupLayers groups).Nodup)
    (ran : getKVCacheConfigs getKVCacheGroups config specs memory = .ok (fitted, plans)) :
    ResizedAlike fitted plans := by
  obtain ⟨merged, _, next⟩ := bind_ok.mp ran
  obtain ⟨groups, grouped, next⟩ := bind_ok.mp next
  obtain ⟨workers, projects, next⟩ := bind_ok.mp next
  obtain ⟨_, _, next⟩ := bind_ok.mp next
  obtain ⟨_, _, next⟩ := bind_ok.mp next
  obtain ⟨planned, planning, next⟩ := bind_ok.mp next
  obtain ⟨least, _, next⟩ := bind_ok.mp next
  obtain ⟨shrunk, shrinking, same⟩ := bind_ok.mp next
  cases same
  obtain ⟨projected, projecting, next⟩ := bind_ok.mp projects
  obtain ⟨adjusted, _, same⟩ := bind_ok.mp next
  cases same
  refine ⟨least, ?_⟩
  intro plan mem
  obtain ⟨before, memberBefore, shrank⟩ := exists_of_mem_mapM shrinking mem
  obtain ⟨worker, memberWorker, planningOne⟩ := exists_of_mem_mapM planning memberBefore
  obtain ⟨_, _, fromGroups⟩ := bind_ok.mp planningOne
  have memberGroups : worker.1.1 ∈ projected := by
    have paired := (of_mem_zip (of_mem_zip memberWorker).1).1
    obtain ⟨pair, memberPair, same⟩ := mem_map.mp paired
    rw [← same]
    exact (of_mem_zip memberPair).1
  obtain ⟨workerSpec, _, projectedOne⟩ := exists_of_mem_mapM projecting memberGroups
  have separate : (groupLayers worker.1.1).Nodup :=
    (nodup merged groups grouped).sublist (groupLayers_of_project projectedOne)
  obtain ⟨count, resized⟩ := resized_of_shrinkConfig (fits_fromGroups separate fromGroups).1 shrank
  exact ⟨count, worker.1.1, worker.2, before, separate, fromGroups, resized⟩

def smallConfig : VllmConfig where
  maxModelLen := 8
  originalMaxModelLen := 8
  maxInFlightTokens := 4
  maxNumEncoderInputTokens := 0
  decodeContextParallelSize := 1
  mambaCacheMode := .none
  numGpuBlocksOverride := none
  enableCrossLayersBlocks := false

/-- Full attention with blocks of four tokens and pages of eight bytes. -/
def smallSpec : LayerSpec where
  kind := .fullAttention
  blockSize := 4
  slotBytes := 2
  positive := Nat.succ_pos 3
  fits := by decide

def smallGroups : List (KVCacheGroupSpec Nat) :=
  [⟨[0, 1], .single smallSpec, false⟩]

def smallGrouping (_ : VllmConfig) (_ : Dict Nat LayerSpec) :
    Outcome (List (KVCacheGroupSpec Nat)) :=
  .ok smallGroups

end VllmCore.Startup
