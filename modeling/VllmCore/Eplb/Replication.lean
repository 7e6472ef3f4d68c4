import Mathlib.Algebra.BigOperators.Fin
import Mathlib.Algebra.Order.BigOperators.Group.Finset
import Mathlib.Algebra.Order.Field.Rat
import VllmCore.Lib.Outcome

namespace VllmCore.Eplb

open Function Lib List

/-!
# Replicating experts

`replicateExperts` gives each further replica to the expert whose replicas carry the most
load.  With one replica less, each expert that got one would carry at least the present
maximum; therefore no other counts have a lower maximum.
-/

/-- The logical expert of each replica and the replicas of each expert. -/
structure Replication (numLog : Nat) where
  phy2log : List (Fin numLog)
  logcnt : Fin numLog → Nat

variable {numLog : Nat}

/-- One more replica of an expert. -/
def Replication.add (placed : Replication numLog) (expert : Fin numLog) : Replication numLog where
  phy2log := placed.phy2log ++ [expert]
  logcnt := update placed.logcnt expert (placed.logcnt expert + 1)

variable (weight : Fin numLog → ℚ)

/--
The loop over the redundant replicas.

The source starts from the numbers of all replicas; those that are no expert it overwrites.
-/
def addReplicas : Nat → Outcome (Replication numLog)
  | 0 => .ok ⟨finRange numLog, fun _ => 1⟩
  | redundant + 1 => do
    let placed ← addReplicas redundant
    match (finRange numLog).argmax fun expert => weight expert / placed.logcnt expert with
    | none => .error (.value "attempt to get argmax of an empty sequence")
    | some expert => .ok (placed.add expert)

/-- The replication of one layer; the source treats the rows of its matrix alike. -/
def replicateExperts (numPhy : Nat) : Outcome (Replication numLog) := do
  ensure (numLog ≤ numPhy)
  addReplicas weight (numPhy - numLog)

/-- What the loop keeps. -/
structure Balanced (placed : Replication numLog) (numPhy : Nat) : Prop where
  sum : ∑ expert, placed.logcnt expert = numPhy
  count : ∀ expert, placed.phy2log.count expert = placed.logcnt expert
  pos : ∀ expert, 0 < placed.logcnt expert
  greedy : ∀ expert other, 1 < placed.logcnt expert →
    weight other / placed.logcnt other ≤ weight expert / (placed.logcnt expert - 1 : Nat)

theorem logcnt_add {placed : Replication numLog} {expert other : Fin numLog} :
    (placed.add expert).logcnt other = placed.logcnt other + if other = expert then 1 else 0 := by
  simp only [Replication.add, update_apply]
  split <;> simp [*]

variable {weight} {placed : Replication numLog} (nonneg : ∀ expert, 0 ≤ weight expert)
include nonneg

/-- More replicas carry less each. -/
theorem load_le (pos : 0 < few) (more : few ≤ many) {expert : Fin numLog} :
    weight expert / (many : Nat) ≤ weight expert / (few : Nat) :=
  div_le_div_of_nonneg_left (nonneg expert) (Nat.cast_pos.mpr pos) (Nat.cast_le.mpr more)

theorem Balanced.add (balanced : Balanced weight placed numPhy)
    (greatest :
      ∀ other, weight other / placed.logcnt other ≤ weight expert / placed.logcnt expert) :
    Balanced weight (placed.add expert) (numPhy + 1) := by
  refine ⟨?_, ?_, ?_, ?_⟩
  · simp [logcnt_add, Finset.sum_add_distrib, balanced.sum]
  · intro other
    rw [logcnt_add, Replication.add, count_append, balanced.count, count_singleton]
    simp only [beq_iff_eq, eq_comm (a := expert)]
  · intro other
    exact lt_of_lt_of_le (balanced.pos other) (by simp [logcnt_add])
  · intro other third several
    have below : weight third / (placed.add expert).logcnt third ≤
        weight expert / placed.logcnt expert :=
      le_trans (load_le nonneg (balanced.pos third) (by simp [logcnt_add])) (greatest third)
    apply le_trans below
    rw [logcnt_add] at several ⊢
    by_cases same : other = expert
    · simp [same]
    · simp only [same, if_false, add_zero] at several ⊢
      exact balanced.greedy other expert several

theorem addReplicas_balanced {redundant : Nat} (present : numLog = 0 → redundant = 0) :
    ∃ placed, addReplicas weight redundant = .ok placed ∧
      Balanced weight placed (numLog + redundant) := by
  induction redundant with
  | zero => exact ⟨_, rfl, by simp, by simp, by simp, by simp⟩
  | succ redundant ih =>
    have some : numLog ≠ 0 := fun empty => Nat.succ_ne_zero _ (present empty)
    obtain ⟨placed, added, balanced⟩ := ih fun empty => absurd empty some
    unfold addReplicas
    rw [added, ok_bind]
    split
    · rename_i chosen
      rw [argmax_eq_none, finRange_eq_nil_iff] at chosen
      exact absurd chosen some
    · rename_i expert chosen
      refine ⟨_, rfl, balanced.add nonneg fun other => ?_⟩
      exact le_of_mem_argmax (mem_finRange other) chosen

/-- The greedy choice spreads the load as well as any other counts do. -/
theorem Balanced.optimal (balanced : Balanced weight placed numPhy) (counts : Fin numLog → Nat)
    (pos : ∀ expert, 0 < counts expert) (sum : ∑ expert, counts expert = numPhy)
    (expert : Fin numLog) :
    ∃ other, weight expert / placed.logcnt expert ≤ weight other / counts other := by
  by_contra! lower
  have more : placed.logcnt expert < counts expert := by
    by_contra! fewer
    exact not_le_of_gt (lower expert) (load_le nonneg (pos expert) fewer)
  -- The sums agree, so some other expert has fewer replicas in exchange.
  obtain ⟨other, less⟩ : ∃ other, counts other < placed.logcnt other := by
    by_contra! none
    have grows := Finset.sum_lt_sum (fun other _ => none other) ⟨expert, Finset.mem_univ _, more⟩
    rw [balanced.sum, sum] at grows
    exact lt_irrefl _ grows
  have several := pos other
  apply not_le_of_gt (lower other)
  apply le_trans (balanced.greedy other expert (by omega))
  exact load_le nonneg several (by omega)

omit nonneg

end VllmCore.Eplb
