import VllmCore.Lib.Turns

namespace VllmCore.Worker

open VllmCore.Lib.Turns

/-!
# Slots of tokens under context parallelism

Ranks take turns in storing `interleave` tokens.  The older model runner counts positions by
KV-cache blocks, the newer one by the blocks of the attention kernel.
-/

/-- Sizes as the configuration check leaves them. -/
structure Layout where
  ranks : Nat
  kvCacheBlockSize : Nat
  kernelBlockSize : Nat
  interleave : Nat
  ranks_pos : 0 < ranks
  kvCache_pos : 0 < kvCacheBlockSize
  kernel_dvd : kernelBlockSize ∣ kvCacheBlockSize
  interleave_dvd : interleave ∣ kvCacheBlockSize

namespace Layout

variable (layout : Layout)

def blocksPerKvBlock : Nat :=
  layout.kvCacheBlockSize / layout.kernelBlockSize

/-- The row of a request, by index, in blocks of the kernel. -/
def mapToKernelBlocks (blockIds : Nat → Nat) (index : Nat) : Nat :=
  if layout.blocksPerKvBlock = 1 then blockIds index
  else
    blockIds (index / layout.blocksPerKvBlock) * layout.blocksPerKvBlock +
      index % layout.blocksPerKvBlock

/-- The older kernel for one position; `none` is the pad slot. -/
def computeSlotMapping (rank : Nat) (blockTable : Nat → Nat) (pos : Nat) : Option Nat :=
  let virtualBlockSize := layout.kvCacheBlockSize * layout.ranks
  let virtualBlockIndex := pos / virtualBlockSize
  let virtualBlockOffset := pos - virtualBlockIndex * virtualBlockSize
  let offset := localOffset layout.interleave layout.ranks virtualBlockOffset
  let blockIndex := virtualBlockIndex * layout.blocksPerKvBlock + offset / layout.kernelBlockSize
  if virtualBlockOffset / layout.interleave % layout.ranks = rank then
    some (blockTable blockIndex * layout.kernelBlockSize + offset % layout.kernelBlockSize)
  else none

/-- The newer kernel, whose block size is that of the attention kernel. -/
def computeSlotMappings (rank : Nat) (blockTable : Nat → Nat) (pos : Nat) : Option Nat :=
  let blockIndex := pos / (layout.kernelBlockSize * layout.ranks)
  let blockOffset := pos % (layout.kernelBlockSize * layout.ranks)
  let slotStart := blockTable blockIndex * layout.kernelBlockSize
  if layout.ranks = 1 then some (slotStart + blockOffset)
  else if blockOffset / layout.interleave % layout.ranks = rank then
    some (slotStart + localOffset layout.interleave layout.ranks blockOffset)
  else none

def getDcpLocalSeqLens (rank seqLen : Nat) : Nat :=
  let base := seqLen / layout.interleave / layout.ranks * layout.interleave
  let remainder := seqLen - base * layout.ranks
  base + min (remainder - rank * layout.interleave) layout.interleave

/-- The tokens of a rank fill its KV-cache blocks without gaps. -/
def denseSlot (rank : Nat) (blockIds : Nat → Nat) (pos : Nat) : Option Nat :=
  let place := owned layout.interleave layout.ranks rank pos
  if owner layout.interleave layout.ranks pos = rank then
    some (blockIds (place / layout.kvCacheBlockSize) * layout.kvCacheBlockSize +
      place % layout.kvCacheBlockSize)
  else none

theorem interleave_pos : 0 < layout.interleave :=
  Nat.pos_of_dvd_of_pos layout.interleave_dvd layout.kvCache_pos

theorem kernel_pos : 0 < layout.kernelBlockSize :=
  Nat.pos_of_dvd_of_pos layout.kernel_dvd layout.kvCache_pos

theorem kernel_mul_blocks :
    layout.kernelBlockSize * layout.blocksPerKvBlock = layout.kvCacheBlockSize :=
  Nat.mul_div_cancel' layout.kernel_dvd

/-- Blocks of the kernel hold a KV-cache block in order. -/
theorem kernelBlocks_slot {blockIds : Nat → Nat} {place : Nat} :
    layout.mapToKernelBlocks blockIds (place / layout.kernelBlockSize) * layout.kernelBlockSize +
        place % layout.kernelBlockSize =
      blockIds (place / layout.kvCacheBlockSize) * layout.kvCacheBlockSize +
        place % layout.kvCacheBlockSize := by
  rw [← layout.kernel_mul_blocks, ← Nat.div_div_eq_div_mul, Nat.mod_mul, mapToKernelBlocks]
  split
  · next one => simp [one, Nat.mod_one]
  · ring

variable {rank pos : Nat} (blockIds : Nat → Nat)

theorem computeSlotMapping_eq :
    layout.computeSlotMapping rank (layout.mapToKernelBlocks blockIds) pos =
      layout.denseSlot rank blockIds pos := by
  obtain ⟨turn, offset, -⟩ := @localOffset_block _ layout.ranks pos layout.interleave_pos _
    layout.kvCache_pos layout.interleave_dvd
  unfold computeSlotMapping denseSlot
  simp only [mul_comm (pos / _), ← Nat.mod_def]
  refine if_ctx_congr (by rw [← turn, owner]) (fun owns => ?_) fun _ => rfl
  rw [← kernelBlocks_slot, owned_of_owner layout.interleave_pos layout.ranks_pos owns, offset]
  generalize localOffset _ _ _ = rest
  generalize pos / _ = block
  rw [← layout.kernel_mul_blocks, mul_assoc, Nat.mul_add_div layout.kernel_pos, Nat.mul_add_mod]

theorem computeSlotMappings_eq (isRank : rank < layout.ranks)
    (fits : layout.ranks = 1 ∨ layout.interleave ∣ layout.kernelBlockSize) :
    layout.computeSlotMappings rank (layout.mapToKernelBlocks blockIds) pos =
      layout.denseSlot rank blockIds pos := by
  unfold computeSlotMappings denseSlot
  dsimp only
  split
  · next one =>
    have owns : owner layout.interleave layout.ranks pos = rank := by
      rw [owner, one, Nat.mod_one]
      omega
    rw [if_pos owns, ← kernelBlocks_slot,
      owned_of_owner layout.interleave_pos layout.ranks_pos owns, localOffset, one, mul_one,
      mul_one, Nat.div_add_mod']
  · next several =>
    obtain ⟨turn, offset, less⟩ := @localOffset_block _ layout.ranks pos layout.interleave_pos _
      layout.kernel_pos (fits.resolve_left several)
    refine if_ctx_congr (by rw [← turn, owner]) (fun owns => ?_) fun _ => rfl
    rw [← kernelBlocks_slot, owned_of_owner layout.interleave_pos layout.ranks_pos owns, offset,
      Nat.mul_add_div layout.kernel_pos, Nat.mul_add_mod, Nat.div_eq_of_lt less,
      Nat.mod_eq_of_lt less, add_zero]

theorem getDcpLocalSeqLens_eq (isRank : rank < layout.ranks) :
    layout.getDcpLocalSeqLens rank pos = owned layout.interleave layout.ranks rank pos := by
  rw [owned_eq layout.interleave_pos isRank, getDcpLocalSeqLens, Nat.div_div_eq_div_mul,
    mul_assoc, Nat.mod_def, mul_comm (_ * _) (pos / _)]

/-- The older kernel and the lengths follow the dense placement; the newer kernel does when its
blocks hold whole turns. -/
theorem slot_mappings_dense_iff :
    (∀ rank blockIds pos, layout.computeSlotMapping rank (layout.mapToKernelBlocks blockIds) pos =
        layout.denseSlot rank blockIds pos) ∧
      (∀ rank < layout.ranks, ∀ seqLen, layout.getDcpLocalSeqLens rank seqLen =
        owned layout.interleave layout.ranks rank seqLen) ∧
      ((∀ rank < layout.ranks, ∀ blockIds pos,
        layout.computeSlotMappings rank (layout.mapToKernelBlocks blockIds) pos =
          layout.denseSlot rank blockIds pos) ↔
        layout.ranks = 1 ∨ layout.interleave ∣ layout.kernelBlockSize) := by
  refine ⟨fun rank blockIds pos => layout.computeSlotMapping_eq blockIds,
    fun rank isRank seqLen => layout.getDcpLocalSeqLens_eq isRank, fun agrees => ?_,
    fun fits rank isRank blockIds pos => layout.computeSlotMappings_eq blockIds isRank fits⟩
  by_contra misfits
  obtain ⟨several, cuts⟩ := not_or.mp misfits
  have ranks_pos := layout.ranks_pos
  obtain ⟨pos, differs⟩ := @exists_owner_ne _ layout.ranks layout.interleave_pos _ (by omega) cuts
  have same := agrees (owner layout.interleave layout.ranks pos) (Nat.mod_lt _ ranks_pos) id pos
  rw [computeSlotMappings, if_neg several, ← owner, if_neg differs, denseSlot, if_pos rfl] at same
  cases same

/-- Turns of four over kernel blocks of two: the newer kernel takes the fifth token from its rank. -/
theorem interleave_above_kernel_block :
    ∃ layout : Layout, layout.ranks = 2 ∧ layout.kvCacheBlockSize = 4 ∧
      layout.kernelBlockSize = 2 ∧ layout.interleave = 4 ∧
      layout.computeSlotMapping 1 (layout.mapToKernelBlocks id) 4 = some 0 ∧
      layout.computeSlotMappings 1 (layout.mapToKernelBlocks id) 4 = none ∧
      layout.computeSlotMappings 0 (layout.mapToKernelBlocks id) 4 = some 2 :=
  ⟨⟨2, 4, 2, 4, by decide, by decide, by decide, by decide⟩, by decide⟩

/-- Rows that share no block never share a slot, and a row has one for each of its tokens. -/
theorem computeSlotMapping_injective {Request : Type} {row : Request → Nat → Nat}
    {request other : Request} (apart : Function.Injective2 row)
    (stored :
      layout.computeSlotMapping rank (layout.mapToKernelBlocks (row request)) pos = some slot)
    (again :
      layout.computeSlotMapping rank (layout.mapToKernelBlocks (row other)) pos' = some slot) :
    request = other ∧ pos = pos' := by
  rw [computeSlotMapping_eq, denseSlot, Option.ite_none_right_eq_some] at stored again
  obtain ⟨owns, stored⟩ := stored
  obtain ⟨alsoOwns, again⟩ := again
  have size := layout.kvCache_pos
  have same := Option.some.inj (stored.trans again.symm)
  have offset := congrArg (· % layout.kvCacheBlockSize) same
  simp only [Nat.mul_add_mod', Nat.mod_mod] at offset
  rw [offset, Nat.add_right_cancel_iff] at same
  obtain ⟨isRequest, block⟩ := apart (Nat.eq_of_mul_eq_mul_right size same)
  have places : owned layout.interleave layout.ranks rank pos =
      owned layout.interleave layout.ranks rank pos' := by
    rw [← Nat.div_add_mod (owned _ _ _ pos), block, offset, Nat.div_add_mod]
  exact ⟨isRequest, Nat.count_injective owns alsoOwns places⟩

/-- Only the fifth token has the first slot of rank 1. -/
theorem computeSlotMapping_injective_ranks :
    ∃ layout : Layout, layout.ranks = 2 ∧ ∀ pos,
      layout.computeSlotMapping 1 (layout.mapToKernelBlocks id) pos = some 0 → pos = 4 := by
  refine ⟨⟨2, 4, 2, 4, by decide, by decide, by decide, by decide⟩, rfl, fun pos stored => ?_⟩
  have apart : Function.Injective2 fun (_ : Unit) (index : Nat) => index :=
    fun _ _ _ _ same => ⟨rfl, same⟩
  exact (@computeSlotMapping_injective _ _ _ _ _ _ _ () () apart stored (by decide)).2

end Layout

end VllmCore.Worker
