import VllmCore.Lib.Dict
import VllmCore.Lib.LeastRecent
import VllmCore.Lib.Outcome

namespace VllmCore.Multimodal

open Lib LeastRecent List

/-!
# Mirrored multimodal caches

The front end keeps what it remembers of each processed item in an LRU cache and
sends an item without its data once the cache has it; the engine keeps the data in
an LRU cache of the same capacity.  Both stay equal as long as both see the same
items in the same order and no request pushes out an item of its own.
-/

/-- An LRU cache, the least recently used entry first. -/
structure LRUCache (Hash Value : Type) where
  maxsize : Nat
  getsizeof : Value → Nat
  data : Dict Hash Value

variable {Hash Value : Type} [DecidableEq Hash]

namespace LRUCache

variable (cache : LRUCache Hash Value)

def touch (key : Hash) : LRUCache Hash Value :=
  { cache with data := cache.data.moveToEnd key }

/-- Insert a key that is not there: the oldest entries go until it fits. -/
def setItem (key : Hash) (value : Value) : Outcome (LRUCache Hash Value) :=
  let size := cache.getsizeof value
  if cache.maxsize < size then
    .error (.value "value too large")
  else
    let gone := numEvicted cache.maxsize size (cache.data.values.map cache.getsizeof)
    .ok { cache with data := (cache.data.dropFirst gone).set key value }

/--
Answer from the cache, or store the item that came with the hash.

Sender and receiver differ in what they store and what they answer.
-/
def getAndUpdate {Item Answer : Type} (store : Item → Value) (hit : Value → Answer)
    (miss : Item → Answer) (item : Option Item) (hash : Hash) :
    Outcome (Answer × LRUCache Hash Value) :=
  match cache.data.get? hash, item with
  | some value, _ => .ok (hit value, cache.touch hash)
  | none, none => .error (.assertion "Expected a cached item")
  | none, some item => do
    let cache ← cache.setItem hash (store item)
    .ok (miss item, cache)

end LRUCache

/-! ## One order for both caches -/

/-- The cache holds the keys of an order, each with the value of its hash. -/
structure Holds (value : Hash → Value) (weight : Hash → Nat)
    (capacity : Nat) (cache : LRUCache Hash Value) (order : List Hash) : Prop where
  entries : cache.data.entries = order.map fun hash => (hash, value hash)
  maxsize : cache.maxsize = capacity
  sizes : ∀ hash, cache.getsizeof (value hash) = weight hash

namespace Holds

variable {value : Hash → Value} {weight : Hash → Nat} {capacity : Nat}
  {cache : LRUCache Hash Value} {order : List Hash}
  (holds : Holds value weight capacity cache order)

include holds

theorem get? (hash : Hash) :
    cache.data.get? hash = if hash ∈ order then some (value hash) else none := by
  split
  · next here =>
    rw [Dict.get?_eq_some_iff, holds.entries]
    exact mem_map_of_mem here
  · next absent =>
    rw [Dict.get?_eq_none_iff]
    simpa [Dict.keys, holds.entries] using absent

theorem touch (hash : Hash) :
    Holds value weight capacity (cache.touch hash) (touched order hash) := by
  refine ⟨?_, holds.maxsize, holds.sizes⟩
  unfold LRUCache.touch Dict.moveToEnd touched
  rw [holds.get?]
  by_cases here : hash ∈ order
  · rw [if_pos here, if_pos here]
    rw [Dict.entries_set_of_fresh _ (by simp [Dict.keys, Dict.erase])]
    simp [Dict.erase, holds.entries, filter_map, moved, Function.comp_def]
  · rw [if_neg here, if_neg here]
    exact holds.entries

theorem touchAll (hashes : List Hash) :
    Holds value weight capacity (hashes.foldl LRUCache.touch cache)
      (hashes.foldl touched order) := by
  induction hashes generalizing cache order with
  | nil => exact holds
  | cons hash rest ih => exact ih (holds.touch hash)

/-- An update uses the key, if it finds it or comes with its item. -/
theorem getAndUpdate {Item Answer : Type} {store : Item → Value} {hit : Value → Answer}
    {miss : Item → Answer} {item : Option Item} {hash : Hash} {answer : Answer}
    (fits : weight hash ≤ capacity) (known : hash ∈ order → hit (value hash) = answer)
    (fresh : hash ∉ order → ∃ own, item = some own ∧ store own = value hash ∧ miss own = answer) :
    ∃ after, cache.getAndUpdate store hit miss item hash = .ok (answer, after) ∧
      Holds value weight capacity after (used weight capacity order hash) := by
  have found := holds.get? hash
  unfold LRUCache.getAndUpdate used
  by_cases here : hash ∈ order
  · have moves := holds.touch hash
    rw [touched, if_pos here] at moves
    rw [if_pos here] at found ⊢
    simp only [found, known here]
    exact ⟨_, rfl, moves⟩
  obtain ⟨own, rfl, stored, rfl⟩ := fresh here
  rw [if_neg here] at found ⊢
  have sizes : cache.data.values.map cache.getsizeof = order.map weight := by
    simp [Dict.values, holds.entries, holds.sizes, Function.comp_def]
  simp only [found, LRUCache.setItem, stored, holds.sizes, holds.maxsize, sizes,
    if_neg (Nat.not_lt.mpr fits)]
  refine ⟨_, rfl, ?_, rfl, holds.sizes⟩
  rw [Dict.entries_set_of_fresh]
  · simp [Dict.dropFirst, holds.entries]
  · intro mem
    simp only [Dict.keys, Dict.dropFirst, holds.entries, map_drop, map_map,
      Function.comp_def, map_id'] at mem
    exact here (mem_of_mem_drop mem)

end Holds

/-- One item after the other. -/
def updateAll {Cache Input Answer : Type} (update : Cache → Input → Outcome (Answer × Cache)) :
    List Input → Cache → Outcome (List Answer × Cache)
  | [], cache => .ok ([], cache)
  | input :: rest, cache => do
    let (answer, cache) ← update cache input
    let (answers, cache) ← updateAll update rest cache
    .ok (answer :: answers, cache)

/-- What the front end remembers of an item. -/
structure CacheItemMetadata (Updates : Type) where
  itemSize : Nat
  promptUpdates : Updates

/-- An item of a request: its hash, whether its data came along, and its place. -/
structure MmItem (Hash : Type) where
  hash : Hash
  provided : Bool
  offset : Nat

/-- The items of a request, one list for each modality, and whether it is let in. -/
structure MmRequest (Hash : Type) where
  mmItems : List (List (MmItem Hash))
  valid : Bool

/-- What processing makes of the item with a hash, and the size of its data. -/
structure Processor (Hash Data Updates : Type) where
  processed : Hash → Data × Updates
  getItemSize : Data → Nat

section System

variable {Data Updates : Type}

/-- The two caches. -/
structure Mirror (Hash Data Updates : Type) where
  sender : LRUCache Hash (CacheItemMetadata Updates)
  receiver : LRUCache Hash Data

namespace Processor

variable (processor : Processor Hash Data Updates)

def senderGetAndUpdateItem (cache : LRUCache Hash (CacheItemMetadata Updates)) :
    Option (Data × Updates) × Hash →
      Outcome ((Option Data × Updates) × LRUCache Hash (CacheItemMetadata Updates))
  | (item, hash) =>
    cache.getAndUpdate (fun item => ⟨processor.getItemSize item.1, item.2⟩)
      (fun cached => (none, cached.promptUpdates)) (fun item => (some item.1, item.2)) item
      hash

def receiverGetAndUpdateItem (cache : LRUCache Hash Data) :
    Option Data × Hash → Outcome (Data × LRUCache Hash Data)
  | (item, hash) => cache.getAndUpdate id id id item hash

/-- Touch all items, then update them; missing ones are processed first. -/
def mergeMmKwargs (cache : LRUCache Hash (CacheItemMetadata Updates)) (hashes : List Hash) :
    Outcome (List (Option Data × Updates) × LRUCache Hash (CacheItemMetadata Updates)) :=
  updateAll processor.senderGetAndUpdateItem
    (hashes.map fun hash =>
      (if cache.data.contains hash then none else some (processor.processed hash), hash))
    (hashes.foldl LRUCache.touch cache)

def getAndUpdateFeatures (cache : LRUCache Hash Data) (features : List (Option Data × Hash)) :
    Outcome (List Data × LRUCache Hash Data) :=
  updateAll receiverGetAndUpdateItem features
    ((features.map Prod.snd).foldl LRUCache.touch cache)

/--
Process a request and deliver it if it is valid.

The front end goes through the items modality by modality, the engine gets them in
the order of the prompt.  A request that lacks the data of an uncached item is
refused before a cache is changed.
-/
def step (mirror : Mirror Hash Data Updates) (request : MmRequest Hash) :
    Outcome (Option (List Data) × Mirror Hash Data Updates) :=
  let items := request.mmItems.flatten
  if items.any fun item => !item.provided && !mirror.sender.data.contains item.hash then
    .ok (none, mirror)
  else do
    let (kwargs, sender) ←
      processor.mergeMmKwargs mirror.sender (items.map MmItem.hash)
    if request.valid then do
      let features :=
        (items.zip kwargs).mergeSort fun first second => first.1.offset ≤ second.1.offset
      let (data, receiver) ←
        getAndUpdateFeatures mirror.receiver
          (features.map fun feature => (feature.2.1, feature.1.hash))
      .ok (some data, ⟨sender, receiver⟩)
    else
      .ok (none, { mirror with sender })

/-- What the engine gets, request by request. -/
def run (requests : List (MmRequest Hash)) (mirror : Mirror Hash Data Updates) :
    Outcome (List (Option (List Data))) := do
  let (answers, _) ← updateAll processor.step requests mirror
  .ok answers

def start (capacity : Nat) : Mirror Hash Data Updates where
  sender := ⟨capacity, CacheItemMetadata.itemSize, .empty⟩
  receiver := ⟨capacity, processor.getItemSize, .empty⟩

/-! ## Orderly requests -/

section Agreement

variable (processor : Processor Hash Data Updates) (capacity : Nat)

def weight (hash : Hash) : Nat :=
  processor.getItemSize (processor.processed hash).1

/-- What the front end sends for an item, given the order of its cache. -/
def sentFor (order : List Hash) (hash : Hash) : Option Data × Updates :=
  (if hash ∈ order then none else some (processor.processed hash).1, (processor.processed hash).2)

def sent (order : List Hash) : List Hash → List (Option Data × Updates)
  | [] => []
  | hash :: rest =>
    processor.sentFor order hash :: sent (used processor.weight capacity order hash) rest

abbrev SenderHolds :=
  Holds (fun hash => (⟨processor.weight hash, (processor.processed hash).2⟩ :
    CacheItemMetadata Updates)) processor.weight capacity

abbrev ReceiverHolds :=
  Holds (fun hash => (processor.processed hash).1) processor.weight capacity

/-- Both caches hold the same hashes in the same order of use. -/
def Mirrored (mirror : Mirror Hash Data Updates) : Prop :=
  ∃ order : List Hash, order.Nodup ∧ processor.SenderHolds capacity mirror.sender order ∧
    processor.ReceiverHolds capacity mirror.receiver order

/-- Every item reaches the engine, in the order it was processed, and all of them fit. -/
structure Orderly (request : MmRequest Hash) : Prop where
  delivered : request.valid = true ∨ request.mmItems.flatten = []
  inOrder : request.mmItems.flatten.Pairwise fun first second => first.offset ≤ second.offset
  fits : ((request.mmItems.flatten.map MmItem.hash).dedup.map processor.weight).sum ≤ capacity

/-- The data of the items in the order of the prompt; none if the request is refused. -/
def Answered (request : MmRequest Hash) (answer : Option (List Data)) : Prop :=
  (answer = none ∧
      (request.valid = false ∨ ∃ item ∈ request.mmItems.flatten, item.provided = false)) ∨
    answer = some ((request.mmItems.flatten.mergeSort fun first second =>
        first.offset ≤ second.offset).map fun item => (processor.processed item.hash).1)

variable {processor} {capacity} {order : List Hash}

theorem length_sent {hashes : List Hash} :
    (processor.sent capacity order hashes).length = hashes.length := by
  induction hashes generalizing order with
  | nil => rfl
  | cons hash rest ih => exact congrArg Nat.succ ih

variable {mirror : Mirror Hash Data Updates} {keys : List Hash}

theorem weight_le {hash : Hash} (fits : (keys.dedup.map processor.weight).sum ≤ capacity)
    (isKey : hash ∈ keys) : processor.weight hash ≤ capacity :=
  le_trans (single_le_sum (by simp) _ (mem_map_of_mem (mem_dedup.mpr isKey))) fits

theorem updateAll_sender {cache : LRUCache Hash (CacheItemMetadata Updates)} {cached : Hash → Bool}
    {hashes : List Hash} (holds : processor.SenderHolds capacity cache order)
    (nodup : order.Nodup) (recent : Recent (· ∈ keys) order)
    (fits : (keys.dedup.map processor.weight).sum ≤ capacity)
    (inside : ∀ hash ∈ hashes, hash ∈ keys)
    (still : ∀ hash ∈ keys, cached hash = true → hash ∈ order) :
    ∃ after, updateAll processor.senderGetAndUpdateItem
        (hashes.map fun hash =>
          (if cached hash then none else some (processor.processed hash), hash)) cache =
        .ok (processor.sent capacity order hashes, after) ∧
      processor.SenderHolds capacity after
        (hashes.foldl (used processor.weight capacity) order) ∧
      (hashes.foldl (used processor.weight capacity) order).Nodup := by
  induction hashes generalizing cache order with
  | nil => exact ⟨cache, rfl, holds, nodup⟩
  | cons hash rest ih =>
    have isKey := inside hash mem_cons_self
    obtain ⟨nextDistinct, nextRecent, keeps⟩ := used_keeps nodup recent fits isKey
    obtain ⟨next, updated, nextHolds⟩ : ∃ next, processor.senderGetAndUpdateItem cache
            (if cached hash then none else some (processor.processed hash), hash) =
          .ok (processor.sentFor order hash, next) ∧
        processor.SenderHolds capacity next (used processor.weight capacity order hash) := by
      refine holds.getAndUpdate (weight_le fits isKey) ?_ ?_
      · intro here
        simp [sentFor, here]
      · intro absent
        have uncached : ¬cached hash = true := fun isCached => absent (still hash isKey isCached)
        simp [sentFor, absent, uncached, weight]
    obtain ⟨after, rested, afterHolds⟩ :=
      ih nextHolds nextDistinct nextRecent (fun other mem => inside other (mem_cons_of_mem _ mem))
        (fun other mem isCached => keeps other mem (still other mem isCached))
    refine ⟨after, ?_, afterHolds⟩
    simp only [map_cons, updateAll, updated, ok_bind, rested, sent]

theorem updateAll_receiver {cache : LRUCache Hash Data} {items : List (MmItem Hash)}
    (holds : processor.ReceiverHolds capacity cache order)
    (fits : ∀ item ∈ items, processor.weight item.hash ≤ capacity) :
    ∃ after, updateAll receiverGetAndUpdateItem
        ((items.zip (processor.sent capacity order (items.map MmItem.hash))).map
          fun feature => (feature.2.1, feature.1.hash)) cache =
        .ok (items.map fun item => (processor.processed item.hash).1, after) ∧
      processor.ReceiverHolds capacity after
        ((items.map MmItem.hash).foldl (used processor.weight capacity) order) := by
  induction items generalizing cache order with
  | nil => exact ⟨cache, rfl, holds⟩
  | cons item rest ih =>
    obtain ⟨next, updated, nextHolds⟩ : ∃ next,
        receiverGetAndUpdateItem cache ((processor.sentFor order item.hash).1, item.hash) =
          .ok ((processor.processed item.hash).1, next) ∧
        processor.ReceiverHolds capacity next (used processor.weight capacity order item.hash) :=
      holds.getAndUpdate (fits item mem_cons_self) (fun _ => rfl)
        fun absent => ⟨_, if_neg absent, rfl, rfl⟩
    obtain ⟨after, rested, afterHolds⟩ :=
      ih nextHolds fun other mem => fits other (mem_cons_of_mem _ mem)
    refine ⟨after, ?_, afterHolds⟩
    simp only [map_cons, sent, zip_cons_cons, updateAll, updated, ok_bind, rested]

/-- An orderly request is answered and leaves the caches mirrored. -/
theorem step_answered {request : MmRequest Hash} (mirrored : processor.Mirrored capacity mirror)
    (orderly : processor.Orderly capacity request) :
    ∃ answer after, processor.step mirror request = .ok (answer, after) ∧
      processor.Answered request answer ∧ processor.Mirrored capacity after := by
  obtain ⟨order, nodup, sender, receiver⟩ := mirrored
  obtain ⟨delivered, inOrder, fits⟩ := orderly
  unfold step Answered
  generalize request.mmItems.flatten = items at *
  by_cases lacking :
    (items.any fun item => !item.provided && !mirror.sender.data.contains item.hash) = true
  · rw [if_pos lacking]
    obtain ⟨item, mem, missing⟩ := any_eq_true.mp lacking
    refine ⟨none, mirror, rfl, .inl ⟨rfl, .inr ⟨item, mem, ?_⟩⟩, order, nodup, sender, receiver⟩
    simp at missing
    exact missing.1
  · rw [if_neg lacking]
    have unasked : Recent (fun _ => False) order := ⟨order, [], by simp, nofun, fun _ _ => id⟩
    obtain ⟨recent, touchedDistinct, same⟩ := touchedAll unasked nodup
    simp only [false_or] at recent
    have still : ∀ hash ∈ items.map MmItem.hash, mirror.sender.data.contains hash = true →
        hash ∈ (items.map MmItem.hash).foldl touched order := by
      intro hash _ cached
      rw [Dict.contains, sender.get?] at cached
      rw [same]
      by_contra absent
      simp [absent] at cached
    obtain ⟨nextSender, merged, senderHolds, nextDistinct⟩ :=
      updateAll_sender (sender.touchAll (items.map MmItem.hash)) touchedDistinct recent fits
        (fun _ => id) still
    simp only [mergeMmKwargs, merged, ok_bind]
    by_cases valid : request.valid = true
    · -- In prompt order nothing moves, so the engine sees what the front end saw.
      obtain ⟨nextReceiver, answered, receiverHolds⟩ :=
        updateAll_receiver (receiver.touchAll (items.map MmItem.hash))
          fun item mem => weight_le fits (mem_map_of_mem mem)
      generalize kwargsIs : processor.sent capacity ((items.map MmItem.hash).foldl touched order)
          (items.map MmItem.hash) = kwargs at answered ⊢
      have firsts : (items.zip kwargs).map Prod.fst = items := by
        rw [map_fst_zip]
        rw [← kwargsIs, length_sent, length_map]
      have hashes : ((items.zip kwargs).map fun feature => feature.1.hash) =
          items.map MmItem.hash := by
        conv_rhs => rw [← firsts, map_map]
        rfl
      have sorted : items.Pairwise fun first second =>
          decide (first.offset ≤ second.offset) = true := by
        simpa using inOrder
      have sortedFeatures : (items.zip kwargs).Pairwise fun first second =>
          decide (first.1.offset ≤ second.1.offset) = true :=
        .of_map Prod.fst (fun _ _ => id) (firsts.symm ▸ sorted)
      simp only [if_pos valid, mergeSort_of_pairwise sortedFeatures,
        mergeSort_of_pairwise sorted, getAndUpdateFeatures, map_map,
        Function.comp_def, hashes, answered, ok_bind]
      exact ⟨_, _, rfl, .inr rfl, _, nextDistinct, senderHolds, receiverHolds⟩
    · rw [if_neg valid]
      rw [delivered.resolve_left valid] at senderHolds
      exact ⟨none, _, rfl, .inl ⟨rfl, .inl (by simpa using valid)⟩, order, nodup,
        senderHolds, receiver⟩

theorem updateAll_answered {requests : List (MmRequest Hash)}
    (mirrored : processor.Mirrored capacity mirror)
    (orderly : ∀ request ∈ requests, processor.Orderly capacity request) :
    ∃ answers after, updateAll processor.step requests mirror = .ok (answers, after) ∧
      Forall₂ processor.Answered requests answers := by
  induction requests generalizing mirror with
  | nil => exact ⟨[], mirror, rfl, .nil⟩
  | cons request rest ih =>
    obtain ⟨answer, next, stepped, answered, nextMirrored⟩ :=
      step_answered mirrored (orderly request mem_cons_self)
    obtain ⟨answers, after, rested, allAnswered⟩ :=
      ih nextMirrored fun other mem => orderly other (mem_cons_of_mem _ mem)
    refine ⟨answer :: answers, after, ?_, .cons answered allAnswered⟩
    simp only [updateAll, stepped, ok_bind, rested]

end Agreement

/-- Items are numbers of size one and their own data. -/
def plain : Processor Nat Nat Unit where
  processed hash := (hash, ())
  getItemSize _ := 1

end Processor

end System

end VllmCore.Multimodal
