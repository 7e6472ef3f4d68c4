import Mathlib.Data.List.Range
import VllmCore.Lib.LinkedList
import VllmCore.Lib.Outcome

namespace VllmCore

open Lib List

/-!
# The queue of free blocks

Free blocks form a doubly linked list in eviction order.  The links live inside
the blocks, so that a block in the middle can be taken out in constant time.
-/

/-- The index of a block in the pool. -/
abbrev BlockId := Nat

/-- The free list: links of the blocks and sentinels, and a separate counter. -/
structure FreeKVCacheBlockQueue where
  links : Links BlockId
  numFreeBlocks : Int

namespace FreeKVCacheBlockQueue

/-- The queue over the blocks `0 … numBlocks - 1`, linked in that order. -/
def init (numBlocks : Nat) : FreeKVCacheBlockQueue where
  links :=
    { next := fun
        | .head => some (if 0 < numBlocks then .item 0 else .tail)
        | .item block =>
          if block + 1 < numBlocks then some (.item (block + 1))
          else if block + 1 = numBlocks then some .tail
          else none
        | .tail => none
      prev := fun
        | .head => none
        | .item block =>
          if block < numBlocks then
            some (if block = 0 then .head else .item (block - 1))
          else none
        | .tail => some (if 0 < numBlocks then .item (numBlocks - 1) else .head) }
  numFreeBlocks := numBlocks

section

variable (queue : FreeKVCacheBlockQueue)

/-- Pop the first free block. -/
def popleft : Outcome (BlockId × FreeKVCacheBlockQueue) :=
  match queue.links.next .head with
  | some (.item first) =>
    match queue.links.next (.item first) with
    | none =>
      .error (.runtime
        "Invalid block found in popleft() which doesn't have a valid next_free_block")
    | some next =>
      .ok (first,
        { links := (queue.links.connect .head next).detach (.item first)
          numFreeBlocks := queue.numFreeBlocks - 1 })
  | _ => do
      ensure (queue.numFreeBlocks = 0)
        "num_free_blocks is out of sync with the free list."
      .error (.value "No free blocks available")

/--
The loop of `popleft_n`: collect `count` blocks and clear their links.

Where the source would hand out its fake tail, because the counter promised more
blocks than are linked, the model raises.
-/
def popLoop :
    Nat → Links BlockId → Option (Node BlockId) →
      Outcome (List BlockId × Links BlockId × Option (Node BlockId))
  | 0, links, currBlock => .ok ([], links, currBlock)
  | count + 1, links, some (.item block) => do
      let rest ← popLoop count (links.detach (.item block)) (links.next (.item block))
      .ok (block :: rest.1, rest.2)
  | _ + 1, _, none => .error (.assertion "")
  | _ + 1, _, some _ => .error (.runtime "fake block popped")

/-- Pop the first `n` free blocks. -/
def popleftN (n : Int) : Outcome (List BlockId × FreeKVCacheBlockQueue) :=
  if n = 0 then
    .ok ([], queue)
  else do
    ensure (n ≤ queue.numFreeBlocks)
    let popped ← popLoop n.toNat queue.links (queue.links.next .head)
    let links :=
      match popped.2.2 with
      | some currBlock => popped.2.1.connect .head currBlock
      | none => popped.2.1
    .ok (popped.1, { links, numFreeBlocks := queue.numFreeBlocks - n })

/-- Take a block out of the middle of the queue. -/
def remove (block : BlockId) : Outcome FreeKVCacheBlockQueue :=
  match queue.links.prev (.item block), queue.links.next (.item block) with
  | some prev, some next =>
    .ok
      { links := (queue.links.connect prev next).detach (.item block)
        numFreeBlocks := queue.numFreeBlocks - 1 }
  | _, _ => .error (.runtime "remove() called on an invalid block")

/-- Put blocks at the front of the queue. -/
def prependN (blocks : List BlockId) : Outcome FreeKVCacheBlockQueue :=
  if blocks = [] then
    .ok queue
  else
    match queue.links.next .head with
    | none =>
      .error (.assertion "next_free_block of fake_free_list_head should always exist")
    | some first =>
      let run := queue.links.connectRun .head blocks
      .ok
        { links := run.1.connect run.2 first
          numFreeBlocks := queue.numFreeBlocks + blocks.length }

/-- Put blocks at the end of the queue. -/
def appendN (blocks : List BlockId) : Outcome FreeKVCacheBlockQueue :=
  if blocks = [] then
    .ok queue
  else
    match queue.links.prev .tail with
    | none =>
      .error (.assertion "prev_free_block of fake_free_list_tail should always exist")
    | some last =>
      let run := queue.links.connectRun last blocks
      .ok
        { links := run.1.connect run.2 .tail
          numFreeBlocks := queue.numFreeBlocks + blocks.length }

/-- Put one block at the end of the queue. -/
def append (block : BlockId) : Outcome FreeKVCacheBlockQueue :=
  match queue.links.prev .tail with
  | none => .error (.runtime "prev_free_block of fake_free_list_tail should always exist")
  | some last =>
    .ok
      { links := (queue.links.connect last (.item block)).connect (.item block) .tail
        numFreeBlocks := queue.numFreeBlocks + 1 }

/-- The loop of `iter_blocks_after`; `none` if it does not end within the given rounds. -/
def walk (links : Links BlockId) : Nat → Option (Node BlockId) → Option (List (Node BlockId))
  | _, none => some []
  | _, some .tail => some []
  | 0, some _ => none
  | rounds + 1, some currBlock =>
    (walk links rounds (links.next currBlock)).map (currBlock :: ·)

/-- The free blocks behind a cursor, all of them without one. -/
def iterBlocksAfter (cursor : Option BlockId) (rounds : Nat) : Option (List (Node BlockId)) :=
  walk queue.links rounds (queue.links.next (cursor.elim .head .item))

end

/--
The queue over fresh blocks, linked in the given order.

The source writes the links of the sentinels last; the blocks being distinct, the order of
the writes is immaterial.
-/
def ofBlocks (blocks : List BlockId) : FreeKVCacheBlockQueue :=
  let run := Links.connectRun ⟨fun _ => none, fun _ => none⟩ .head blocks
  { links := run.1.connect run.2 .tail
    numFreeBlocks := blocks.length }

/-- A call on the queue. -/
inductive Call where
  | popleft
  | popleftN (n : Nat)
  | remove (block : BlockId)
  | append (block : BlockId)
  | appendN (blocks : List BlockId)
  | prependN (blocks : List BlockId)
  | iterBlocksAfter (cursor : Option BlockId)

/-- Make a call.  A walk gets as many rounds as the counter says, and one to see the end. -/
def perform (queue : FreeKVCacheBlockQueue) :
    Call → Outcome (List (Node BlockId) × FreeKVCacheBlockQueue)
  | .popleft => do
      let popped ← queue.popleft
      return ([.item popped.1], popped.2)
  | .popleftN n => do
      let popped ← queue.popleftN n
      return (popped.1.map .item, popped.2)
  | .remove block => return ([], ← queue.remove block)
  | .append block => return ([], ← queue.append block)
  | .appendN blocks => return ([], ← queue.appendN blocks)
  | .prependN blocks => return ([], ← queue.prependN blocks)
  | .iterBlocksAfter cursor =>
    match queue.iterBlocksAfter cursor (queue.numFreeBlocks.toNat + 1) with
    | some yielded => return (yielded, queue)
    | none => .error (.runtime "the walk does not end")

/-- What a call does to a list of blocks. -/
def performOnList (blocks : List BlockId) : Call → Outcome (List (Node BlockId) × List BlockId)
  | .popleft =>
    match blocks with
    | [] => .error (.value "No free blocks available")
    | first :: rest => .ok ([.item first], rest)
  | .popleftN n => .ok ((blocks.take n).map .item, blocks.drop n)
  | .remove block => .ok ([], blocks.erase block)
  | .append block => .ok ([], blocks ++ [block])
  | .appendN added => .ok ([], blocks ++ added)
  | .prependN added => .ok ([], added ++ blocks)
  | .iterBlocksAfter none => .ok (blocks.map .item, blocks)
  | .iterBlocksAfter (some cursor) =>
    .ok ((blocks.drop (blocks.idxOf cursor + 1)).map .item, blocks)

/-- Calls a client may make while the given blocks are queued. -/
def Allowed (blocks : List BlockId) : Call → Prop
  | .popleft | .iterBlocksAfter none => True
  | .popleftN n => n ≤ blocks.length
  | .remove block | .iterBlocksAfter (some block) => block ∈ blocks
  | .append block => block ∉ blocks
  | .appendN added | .prependN added => added.Nodup ∧ ∀ block ∈ added, block ∉ blocks

/-- What allowed calls lead to, with the list kept beside the queue. -/
inductive Reached : FreeKVCacheBlockQueue → List BlockId → Prop
  | init {blocks : List BlockId} (distinct : blocks.Nodup) : Reached (ofBlocks blocks) blocks
  | call {queue after : FreeKVCacheBlockQueue} {blocks left : List BlockId} {call : Call}
      {shown answer : List (Node BlockId)} (reached : Reached queue blocks)
      (allowed : Allowed blocks call) (performed : queue.perform call = .ok (shown, after))
      (onList : performOnList blocks call = .ok (answer, left)) : Reached after left

/-- The queue holds exactly the given blocks, in eviction order. -/
structure Holds (queue : FreeKVCacheBlockQueue) (blocks : List BlockId) : Prop where
  links : Represents queue.links blocks
  numFreeBlocks : queue.numFreeBlocks = blocks.length

/-! ## What the operations do to the list of free blocks -/

/-- A fresh queue holds all blocks in the order of their ids. -/
theorem holds_init (numBlocks : Nat) : (init numBlocks).Holds (range numBlocks) := by
  refine ⟨⟨?_, nodup_range, ?_, rfl, rfl⟩, by simp [init]⟩
  · cases numBlocks with
    | zero => simp [frontNodes, Adjacent, init]
    | succ last =>
      rw [frontNodes, cons_append, isChain_cons, isChain_append, isChain_map, isChain_range_succ]
      refine ⟨?_, ?_, .singleton _, ?_⟩
      · simp [range_succ_eq_map, Adjacent, init]
      · intro block inside
        simp [Adjacent, init, inside]
      · simp [range_succ, Adjacent, init]
  · intro (block : Nat) outside
    simp only [mem_range] at outside
    have notNext : ¬ block + 1 < numBlocks := by omega
    have notLast : block + 1 ≠ numBlocks := by omega
    simp [init, outside, notNext, notLast]

variable {queue : FreeKVCacheBlockQueue} {blocks : List BlockId} {block : BlockId}

/-- Popping from a non-empty queue returns its first block. -/
theorem Holds.popleft (holds : queue.Holds (block :: rest)) :
    ∃ after, queue.popleft = .ok (block, after) ∧ after.Holds rest := by
  have atFront : Represents queue.links ([] ++ block :: rest) := holds.links
  have behind : Represents queue.links ([block] ++ rest) := holds.links
  have first : queue.links.next .head = some (.item block) := atFront.adjacent.1
  have second : queue.links.next (.item block) = some (firstBack rest) := behind.adjacent.1
  refine ⟨_, by simp only [FreeKVCacheBlockQueue.popleft, first, second]; rfl, ⟨atFront.remove, ?_⟩⟩
  simp [holds.numFreeBlocks]

/-- The popping loop walks over the first blocks and clears their links. -/
theorem popLoop_eq {links : Links BlockId}
    (cut : Open links [] (front ++ back)) :
    popLoop front.length links (some (firstBack (front ++ back))) =
      .ok (front, links.detachAll front, some (firstBack back)) := by
  induction front generalizing links with
  | nil => rfl
  | cons block rest ih =>
    have following : links.next (.item block) = some (firstBack (rest ++ back)) := by
      have chain := cut.backChain
      have head := head?_backNodes (rest ++ back)
      rw [cons_append, show backNodes (block :: (rest ++ back)) =
        .item block :: backNodes (rest ++ back) from rfl, isChain_cons] at chain
      exact (chain.1 _ head).1
    have detached := ih cut.detach
    show popLoop (rest.length + 1) links (some (.item block)) = _
    simp only [popLoop, following, detached]
    rfl

/-- Popping no more blocks than are free returns the first ones. -/
theorem Holds.popleftN (holds : queue.Holds blocks) {n : Nat} (enough : n ≤ blocks.length) :
    ∃ after,
      queue.popleftN n = .ok (blocks.take n, after) ∧
        after.Holds (blocks.drop n) := by
  rcases Nat.eq_zero_or_pos n with zero | pos
  · subst zero
    exact ⟨queue, by simp [FreeKVCacheBlockQueue.popleftN], by simpa using holds⟩
  have split : blocks = blocks.take n ++ blocks.drop n := (take_append_drop n blocks).symm
  have cut : Open queue.links [] (blocks.take n ++ blocks.drop n) := by
    rw [← split]
    exact Represents.cut holds.links
  have first : queue.links.next .head =
      some (firstBack (blocks.take n ++ blocks.drop n)) := by
    rw [← split]
    have atFront : Represents queue.links ([] ++ blocks) := holds.links
    exact atFront.adjacent.1
  have popped := popLoop_eq cut
  rw [length_take, min_eq_left enough] at popped
  have nonzero : (n : Int) ≠ 0 := by omega
  have counted : (n : Int) ≤ queue.numFreeBlocks := by
    rw [holds.numFreeBlocks]
    omega
  have remaining := cut.detachAll.close
  refine ⟨⟨(queue.links.detachAll (blocks.take n)).connect .head
      (firstBack (blocks.drop n)), queue.numFreeBlocks - n⟩,
    ?_, ⟨remaining, ?_⟩⟩
  · simp only [FreeKVCacheBlockQueue.popleftN, nonzero, if_false,
      ensure_of counted, ok_bind, Int.toNat_natCast, first, popped]
  · simp only [length_drop, holds.numFreeBlocks]
    omega

/-- Removing a listed block takes it out of the list. -/
theorem Holds.remove (holds : queue.Holds blocks) (mem : block ∈ blocks) :
    ∃ after, queue.remove block = .ok after ∧ after.Holds (blocks.erase block) := by
  obtain ⟨front, back, notBefore, rfl, erased⟩ := exists_erase_eq mem
  have before : Represents queue.links (front ++ block :: back) := holds.links
  have behind : Represents queue.links ((front ++ [block]) ++ back) := by simpa using holds.links
  have prev : queue.links.prev (.item block) = some (lastFront front) := before.adjacent.2
  have next : queue.links.next (.item block) = some (firstBack back) := by
    have := behind.adjacent.1
    rwa [lastFront_concat] at this
  refine ⟨_, by simp only [FreeKVCacheBlockQueue.remove, prev, next]; rfl, ⟨?_, ?_⟩⟩
  · rw [erased]
    exact before.remove
  · rw [erased]
    simp only [holds.numFreeBlocks, length_append, length_cons]
    omega

/-- Fresh blocks put at the front stand before all others. -/
theorem Holds.prependN (holds : queue.Holds blocks)
    (nodup : added.Nodup) (fresh : ∀ block ∈ added, block ∉ blocks) :
    ∃ after, queue.prependN added = .ok after ∧ after.Holds (added ++ blocks) := by
  by_cases none : added = []
  · subst none
    exact ⟨queue, by simp [FreeKVCacheBlockQueue.prependN], holds⟩
  have atFront : Represents queue.links ([] ++ blocks) := holds.links
  have first : queue.links.next .head = some (firstBack blocks) := atFront.adjacent.1
  refine ⟨_, by simp only [FreeKVCacheBlockQueue.prependN, none, if_false, first]; rfl,
    ⟨atFront.insertRun nodup (by simpa using fresh), ?_⟩⟩
  simp only [holds.numFreeBlocks, length_append]
  omega

/-- Fresh blocks put at the end stand behind all others. -/
theorem Holds.appendN (holds : queue.Holds blocks)
    (nodup : added.Nodup) (fresh : ∀ block ∈ added, block ∉ blocks) :
    ∃ after, queue.appendN added = .ok after ∧ after.Holds (blocks ++ added) := by
  by_cases none : added = []
  · subst none
    exact ⟨queue, by simp [FreeKVCacheBlockQueue.appendN], by simpa using holds⟩
  have atBack : Represents queue.links (blocks ++ []) := by simpa using holds.links
  have last : queue.links.prev .tail = some (lastFront blocks) := atBack.adjacent.2
  have inserted := atBack.insertRun nodup (by simpa using fresh)
  rw [append_nil] at inserted
  refine ⟨_, by simp only [FreeKVCacheBlockQueue.appendN, none, if_false, last]; rfl,
    ⟨inserted, ?_⟩⟩
  simp only [holds.numFreeBlocks, length_append]
  omega

/-- A block put at the end stands behind all others. -/
theorem Holds.append (holds : queue.Holds blocks) (fresh : block ∉ blocks) :
    ∃ after, queue.append block = .ok after ∧ after.Holds (blocks ++ [block]) := by
  have atBack : Represents queue.links (blocks ++ []) := by simpa using holds.links
  have last : queue.links.prev .tail = some (lastFront blocks) := atBack.adjacent.2
  obtain ⟨after, appended, held⟩ := holds.appendN (nodup_singleton block) (by simpa using fresh)
  refine ⟨after, ?_, held⟩
  rw [← appended]
  simp only [FreeKVCacheBlockQueue.append, FreeKVCacheBlockQueue.appendN, last]
  rfl

theorem holds_ofBlocks (distinct : blocks.Nodup) : (ofBlocks blocks).Holds blocks := by
  have cleared : Open (⟨fun _ => none, fun _ => none⟩ : Links BlockId) [] [] :=
    ⟨.singleton _, .singleton _, nodup_nil, fun _ _ => ⟨rfl, rfl⟩, rfl, rfl⟩
  have chained := cleared.connectRun distinct (by simp)
  have closed := chained.1.close
  rw [← chained.2, append_nil] at closed
  exact ⟨closed, rfl⟩

/-- With the rounds it gets a walk yields all blocks behind the node it starts from. -/
theorem walk_eq (holds : queue.Holds (front ++ back)) :
    walk queue.links (queue.numFreeBlocks.toNat + 1) (queue.links.next (lastFront front)) =
      some (back.map .item) := by
  have enough : back.length < queue.numFreeBlocks.toNat + 1 := by
    rw [holds.numFreeBlocks, length_append]
    omega
  generalize queue.numFreeBlocks.toNat + 1 = rounds at enough
  induction back generalizing front rounds with
  | nil =>
    rw [holds.links.adjacent.1]
    cases rounds <;> rfl
  | cons block rest ih =>
    obtain ⟨rounds, rfl⟩ := Nat.exists_eq_succ_of_ne_zero (Nat.ne_zero_of_lt enough)
    have longer : queue.Holds ((front ++ [block]) ++ rest) := by simpa using holds
    have later := ih longer rounds (Nat.lt_of_succ_lt_succ enough)
    rw [lastFront_concat] at later
    rw [holds.links.adjacent.1]
    simp only [walk, firstBack, head?_cons, later]
    rfl

/-- A call on the queue does what it does on the list. -/
theorem Holds.perform (holds : queue.Holds blocks) (allowed : Allowed blocks call) :
    match performOnList blocks call with
    | .ok (answer, left) => ∃ after, queue.perform call = .ok (answer, after) ∧ after.Holds left
    | .error fault => queue.perform call = .error fault := by
  unfold FreeKVCacheBlockQueue.perform
  cases call with
  | popleft =>
    cases blocks with
    | nil =>
      have empty : Represents queue.links ([] ++ []) := holds.links
      have first : queue.links.next .head = some .tail := empty.adjacent.1
      have counted : queue.numFreeBlocks = 0 := holds.numFreeBlocks
      simp only [performOnList, FreeKVCacheBlockQueue.popleft, first, ensure_of counted]
      rfl
    | cons block rest =>
      obtain ⟨after, popped, held⟩ := holds.popleft
      exact ⟨after, by rw [popped]; rfl, held⟩
  | popleftN n =>
    obtain ⟨after, popped, held⟩ := holds.popleftN allowed
    exact ⟨after, by simp only [popped]; rfl, held⟩
  | remove block =>
    obtain ⟨after, removed, held⟩ := holds.remove allowed
    exact ⟨after, by simp only [removed]; rfl, held⟩
  | append block =>
    obtain ⟨after, appended, held⟩ := holds.append allowed
    exact ⟨after, by simp only [appended]; rfl, held⟩
  | appendN added =>
    obtain ⟨after, appended, held⟩ := holds.appendN allowed.1 allowed.2
    exact ⟨after, by simp only [appended]; rfl, held⟩
  | prependN added =>
    obtain ⟨after, prepended, held⟩ := holds.prependN allowed.1 allowed.2
    exact ⟨after, by simp only [prepended]; rfl, held⟩
  | iterBlocksAfter cursor =>
    cases cursor with
    | none =>
      have walked : queue.iterBlocksAfter none _ = _ :=
        walk_eq (show queue.Holds ([] ++ blocks) from holds)
      exact ⟨queue, by simp only [walked]; rfl, holds⟩
    | some cursor =>
      obtain ⟨front, back, rfl, notBefore⟩ := eq_append_cons_of_mem allowed
      have walked := walk_eq (show queue.Holds ((front ++ [cursor]) ++ back) by simpa using holds)
      rw [lastFront_concat] at walked
      have walked : queue.iterBlocksAfter (some cursor) _ = _ := walked
      have behind : (front ++ cursor :: back).drop ((front ++ cursor :: back).idxOf cursor + 1) =
          back := by
        simp [idxOf_append, notBefore]
      exact ⟨queue, by simp only [walked, behind]; rfl, holds⟩

end FreeKVCacheBlockQueue

end VllmCore
