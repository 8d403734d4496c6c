import QemuGzvm.Virtio.Intx
import Mathlib.Data.List.Perm.Basic
import Mathlib.Data.List.Nodup

/-!
Contract: the MSI-X vectors of a virtio-pci device and their use counts (the vector, queue
reset and reset paths of `hw/virtio/virtio-pci.c` and `hw/virtio/virtio.c`, `msix_vector_use`
and `msix_vector_unuse` of `hw/pci/msix.c`).

Owns:
- the vectors of the queues and of the configuration, `vector_queues` and `msix_entry_used`;
- the register writes of both layouts that change them, the resets, and runs of these.

The virtio layer takes the vector of a queue away in a queue reset, and the PCI layer is not
told. A count is a `Nat`: it wraps only after 2^32 such resets.
-/

namespace QemuGzvm.Virtio

open QemuGzvm.Library

def virtioQueueMax : Nat := 1024

/-- `nvectors`, which is `msix_entries_nr`; `msix_init` accepts no more than that. -/
structure VectorConfig where
  nvectors : Nat
  le : nvectors ≤ 2048

structure VectorState where
  queueSel : Nat := 0
  configVector : Nat := virtioNoVector
  vector : Nat → Nat := fun _ => virtioNoVector
  vectorQueues : Nat → List Nat := fun _ => []
  /-- `msix_entry_used` -/
  entryUsed : Nat → Nat := fun _ => 0

inductive IoportReg where
  | queuePfn
  | queueSel
  /-- What `virtio_set_status` leaves is open: zero or not. -/
  | status (zero : Bool)
  | msiConfigVector
  | msiQueueVector

inductive CommonReg where
  | msix
  | status (zero : Bool)
  | qSelect
  | qMsix
  | qReset

inductive VectorOp where
  | ioportWrite (reg : IoportReg) (val : Nat)
  | commonWrite (reg : CommonReg) (val : Nat)
  | reset

/-! ### The code -/

section

variable (config : VectorConfig)

def msixVectorUse (used : Nat → Nat) (vector : Nat) : Checked (Nat → Nat) :=
  if vector < config.nvectors then .ok (Function.update used vector (used vector + 1))
  else .error .assertion

/-- Left out is the pending bit, which goes with the last use. -/
def msixVectorUnuse (used : Nat → Nat) (vector : Nat) : Checked (Nat → Nat) :=
  if vector < config.nvectors then
    if used vector = 0 then .ok used else .ok (Function.update used vector (used vector - 1))
  else .error .assertion

/-- What the four handlers of a vector register do first: the old vector is unused, the new one
used. -/
def exchangeVector (used : Nat → Nat) (old val : Nat) : Checked ((Nat → Nat) × Nat) :=
  (if old ≠ virtioNoVector then msixVectorUnuse config used old else .ok used).bind fun used =>
    if val < config.nvectors then
      (msixVectorUse config used val).bind fun used => .ok (used, val)
    else .ok (used, virtioNoVector)

end

namespace VectorState

def virtioQueueVector (s : VectorState) (n : Nat) : Nat :=
  if n < virtioQueueMax then s.vector n else virtioNoVector

/-- `vector_queues` is only missing when there are no vectors. -/
def virtioQueueSetVector (s : VectorState) (n vector : Nat) : VectorState :=
  if n < virtioQueueMax then
    let removed := if s.vector n ≠ virtioNoVector then
        Function.update s.vectorQueues (s.vector n) ((s.vectorQueues (s.vector n)).erase n)
      else s.vectorQueues
    { s with
      vector := Function.update s.vector n vector
      vectorQueues := if vector ≠ virtioNoVector then
          Function.update removed vector (n :: removed vector)
        else removed }
  else s

/-- `virtio_pci_set_vector` for the configuration, and for a queue. -/
def setConfigVector (s : VectorState) (old new : Nat) : VectorState :=
  if new = old then s else { s with configVector := new }

def setQueueVector (s : VectorState) (n old new : Nat) : VectorState :=
  if new = old then s else s.virtioQueueSetVector n new

def resetQueues (s : VectorState) : Nat → VectorState
  | 0 => s
  | i + 1 => (s.resetQueues i).virtioQueueSetVector i virtioNoVector

/-- The part of `virtio_reset` that is about vectors, then `msix_unuse_all_vectors`. -/
def virtioPciReset (s : VectorState) : VectorState :=
  { { s with queueSel := 0, configVector := virtioNoVector }.resetQueues virtioQueueMax with
    entryUsed := fun _ => 0 }

def select (s : VectorState) (val : Nat) : VectorState :=
  if val < virtioQueueMax then { s with queueSel := val } else s

variable (config : VectorConfig)

def ioportWrite (s : VectorState) (val : Nat) : IoportReg → Checked VectorState
  | .queuePfn => .ok (if val = 0 then s.virtioPciReset else s)
  | .queueSel => .ok (s.select val)
  | .status zero => .ok (if zero then s.virtioPciReset else s)
  | .msiConfigVector =>
    (exchangeVector config s.entryUsed s.configVector val).bind fun (used, new) =>
      .ok { s with entryUsed := used, configVector := new }
  | .msiQueueVector =>
    (exchangeVector config s.entryUsed (s.virtioQueueVector s.queueSel) val).bind
      fun (used, new) => .ok ({ s with entryUsed := used }.virtioQueueSetVector s.queueSel new)

def commonWrite (s : VectorState) (val : Nat) : CommonReg → Checked VectorState
  | .msix =>
    (exchangeVector config s.entryUsed s.configVector val).bind fun (used, new) =>
      .ok ({ s with entryUsed := used }.setConfigVector s.configVector new)
  | .status zero => .ok (if zero then s.virtioPciReset else s)
  | .qSelect => .ok (s.select val)
  | .qMsix =>
    (exchangeVector config s.entryUsed (s.virtioQueueVector s.queueSel) val).bind
      fun (used, new) => .ok ({ s with entryUsed := used }.setQueueVector s.queueSel
        (s.virtioQueueVector s.queueSel) new)
  -- `virtio_queue_reset` ends in `__virtio_queue_reset`, which takes the vector away.
  | .qReset => .ok (if val = 1 then s.virtioQueueSetVector s.queueSel virtioNoVector else s)

def act (s : VectorState) : VectorOp → Checked VectorState
  | .ioportWrite reg val => s.ioportWrite config val reg
  | .commonWrite reg val => s.commonWrite config val reg
  | .reset => .ok s.virtioPciReset

end VectorState

def VectorConfig.system (config : VectorConfig) : LabelledSystem VectorState VectorOp :=
  .ofNext {} fun s op => (s.act config op).toOption

/-! ### What is asked -/

def VectorState.queuesWith (s : VectorState) (v : Nat) : List Nat :=
  (List.range virtioQueueMax).filter (s.vector · = v)

def UseCounts (config : VectorConfig) (s : VectorState) : Prop :=
  ∀ v < config.nvectors,
    s.entryUsed v = (s.queuesWith v).length + if s.configVector = v then 1 else 0

def QueuesListed (config : VectorConfig) (s : VectorState) : Prop :=
  ∀ v < config.nvectors, (s.vectorQueues v).Nodup ∧
    ∀ n, n ∈ s.vectorQueues v ↔ n < virtioQueueMax ∧ s.vector n = v

/-- A queue that is reset alone has no vector. -/
def ResetUnvectored (s : VectorState) : VectorOp → Prop
  | .commonWrite .qReset val => val = 1 → s.vector s.queueSel = virtioNoVector
  | _ => True

instance (s : VectorState) (op : VectorOp) : Decidable (ResetUnvectored s op) := by
  unfold ResetUnvectored
  split <;> infer_instance

/-! ### The vectors -/

def VectorConfig.Valid (config : VectorConfig) (v : Nat) : Prop :=
  v ≠ virtioNoVector → v < config.nvectors

structure VectorInv (config : VectorConfig) (s : VectorState) : Prop where
  selected : s.queueSel < virtioQueueMax
  configValid : config.Valid s.configVector
  valid : ∀ n, config.Valid (s.vector n)
  nodup : ∀ v, (s.vectorQueues v).Nodup
  mem : ∀ v n, n ∈ s.vectorQueues v ↔ v ≠ virtioNoVector ∧ n < virtioQueueMax ∧ s.vector n = v

variable {config : VectorConfig} {s : VectorState} {n new val v : Nat}

theorem VectorConfig.valid_none : config.Valid virtioNoVector := fun real => absurd rfl real

theorem VectorConfig.ne_noVector (inside : v < config.nvectors) : v ≠ virtioNoVector := by
  have le := config.le
  unfold virtioNoVector
  omega

theorem queueSetVector_frame : (s.virtioQueueSetVector n new).configVector = s.configVector ∧
    (s.virtioQueueSetVector n new).entryUsed = s.entryUsed := by
  unfold VectorState.virtioQueueSetVector
  split <;> exact ⟨rfl, rfl⟩

section

variable (inv : VectorInv config s)
include inv

theorem VectorInv.queuesListed : QueuesListed config s := by
  intro v inside
  refine ⟨inv.nodup v, fun n => (inv.mem v n).trans ?_⟩
  simp [VectorConfig.ne_noVector inside]

theorem VectorInv.useCounts_iff : UseCounts config s ↔ ∀ v < config.nvectors,
    s.entryUsed v = (s.vectorQueues v).length + if s.configVector = v then 1 else 0 := by
  refine forall₂_congr fun v inside => ?_
  have real := VectorConfig.ne_noVector inside
  have same : (s.queuesWith v).Perm (s.vectorQueues v) := by
    refine (List.perm_ext_iff_of_nodup (List.nodup_range.filter _) (inv.nodup v)).mpr fun n => ?_
    simp [inv.mem, real]
  rw [same.length_eq]

theorem VectorInv.queueSetVector (inside : n < virtioQueueMax) (isNew : config.Valid new) :
    VectorInv config (s.virtioQueueSetVector n new) := by
  have nodup := inv.nodup
  have mem := inv.mem
  rw [VectorState.virtioQueueSetVector, if_pos inside]
  refine ⟨inv.selected, inv.configValid, fun m => ?_, fun v => ?_, fun v m => ?_⟩
  · have old := inv.valid m
    simp only [Function.update_apply]
    split <;> assumption
  · have kept := (nodup v).erase n
    grind
  · simp only [Function.update_apply]
    grind

/-- The queue leaves the list of its old vector and enters that of the new one. -/
theorem VectorInv.length_queueSetVector (new : Nat) (inside : n < virtioQueueMax)
    (real : v ≠ virtioNoVector) :
    ((s.virtioQueueSetVector n new).vectorQueues v).length + (if s.vector n = v then 1 else 0) =
      (s.vectorQueues v).length + if new = v then 1 else 0 := by
  have listed := inv.mem (s.vector n) n
  rw [VectorState.virtioQueueSetVector, if_pos inside]
  grind

theorem VectorInv.resetQueues {count : Nat} (few : count ≤ virtioQueueMax) :
    VectorInv config (s.resetQueues count) ∧
      (s.resetQueues count).configVector = s.configVector ∧
      ∀ n < count, (s.resetQueues count).vector n = virtioNoVector := by
  induction count with
  | zero => exact ⟨inv, rfl, nofun⟩
  | succ count ih =>
    obtain ⟨before, sameConfig, done⟩ := ih (Nat.le_of_succ_le few)
    refine ⟨before.queueSetVector few config.valid_none, ?_, fun n below => ?_⟩
    · exact queueSetVector_frame.1.trans sameConfig
    · rw [VectorState.resetQueues, VectorState.virtioQueueSetVector, if_pos (Nat.lt_of_succ_le few)]
      simp only [Function.update_apply]
      grind

theorem VectorInv.virtioPciReset :
    VectorInv config s.virtioPciReset ∧ UseCounts config s.virtioPciReset := by
  have start : VectorInv config { s with queueSel := 0, configVector := virtioNoVector } :=
    ⟨Nat.zero_lt_succ _, config.valid_none, inv.valid, inv.nodup, inv.mem⟩
  have reset := start.resetQueues (Nat.le_refl virtioQueueMax)
  rw [VectorState.virtioPciReset]
  generalize VectorState.resetQueues _ virtioQueueMax = t at reset ⊢
  obtain ⟨after, noConfig, done⟩ := reset
  refine ⟨{ after with }, fun v inside => ?_⟩
  have real := VectorConfig.ne_noVector inside
  have none : ∀ n < virtioQueueMax, t.vector n ≠ v := fun n inside same =>
    real (same.symm.trans (done n inside))
  have empty : VectorState.queuesWith { t with entryUsed := fun _ => 0 } v = [] := by
    simpa [VectorState.queuesWith] using none
  rw [empty]
  simp [noConfig, real.symm]

/-- A write to a vector register moves one use from the old vector to the new one. -/
theorem VectorInv.exchange (counts : UseCounts config s) {old : Nat}
    (holds : old = s.configVector ∨ old = s.vector s.queueSel) (val : Nat) :
    ∃ used new, exchangeVector config s.entryUsed old val = .ok (used, new) ∧ config.Valid new ∧
      ∀ v < config.nvectors, used v + (if old = v then 1 else 0) =
        s.entryUsed v + if new = v then 1 else 0 := by
  have isOld : old ≠ virtioNoVector → old < config.nvectors ∧ s.entryUsed old ≠ 0 := by
    intro real
    have inside : old < config.nvectors := by
      rcases holds with rfl | rfl
      · exact inv.configValid real
      · exact inv.valid _ real
    refine ⟨inside, ?_⟩
    rw [inv.useCounts_iff.mp counts old inside]
    rcases holds with rfl | rfl
    · simp
    · have positive := List.length_pos_of_mem ((inv.mem _ _).mpr ⟨real, inv.selected, rfl⟩)
      omega
  have unused : ∃ between, (if old ≠ virtioNoVector then msixVectorUnuse config s.entryUsed old
      else .ok s.entryUsed) = .ok between ∧ ∀ v < config.nvectors,
        between v + (if old = v then 1 else 0) = s.entryUsed v := by
    by_cases none : old = virtioNoVector
    · refine ⟨s.entryUsed, if_neg (not_not.mpr none), fun v inside => ?_⟩
      rw [none, if_neg (VectorConfig.ne_noVector inside).symm, Nat.add_zero]
    · obtain ⟨inside, positive⟩ := isOld none
      refine ⟨Function.update s.entryUsed old (s.entryUsed old - 1), ?_, fun v _ => ?_⟩
      · rw [if_pos none, msixVectorUnuse, if_pos inside, if_neg positive]
      · grind
  obtain ⟨between, ran, moved⟩ := unused
  rw [exchangeVector, ran, bind_ok]
  by_cases inside : val < config.nvectors
  · refine ⟨Function.update between val (between val + 1), val, ?_, fun _ => inside, ?_⟩
    · rw [if_pos inside, msixVectorUse, if_pos inside, bind_ok]
    · grind
  · refine ⟨between, virtioNoVector, if_neg inside, config.valid_none, fun v inside => ?_⟩
    rw [moved v inside, if_neg (VectorConfig.ne_noVector inside).symm, Nat.add_zero]

section Writes

variable {used : Nat → Nat} (counts : UseCounts config s) (isNew : config.Valid new)
include counts isNew

theorem VectorInv.configWritten
    (moved : ∀ v < config.nvectors, used v + (if s.configVector = v then 1 else 0) =
      s.entryUsed v + if new = v then 1 else 0) :
    VectorInv config { s with entryUsed := used, configVector := new } ∧
      UseCounts config { s with entryUsed := used, configVector := new } := by
  refine ⟨{ inv with configValid := isNew }, fun v inside => ?_⟩
  have before := counts v inside
  have after := moved v inside
  change used v = (s.queuesWith v).length + if new = v then 1 else 0
  omega

theorem VectorInv.queueWritten
    (moved : ∀ v < config.nvectors, used v + (if s.vector s.queueSel = v then 1 else 0) =
      s.entryUsed v + if new = v then 1 else 0) :
    VectorInv config ({ s with entryUsed := used }.virtioQueueSetVector s.queueSel new) ∧
      UseCounts config ({ s with entryUsed := used }.virtioQueueSetVector s.queueSel new) := by
  have inv' : VectorInv config { s with entryUsed := used } := { inv with }
  have written := inv'.queueSetVector inv.selected isNew
  refine ⟨written, written.useCounts_iff.mpr fun v inside => ?_⟩
  have before := inv.useCounts_iff.mp counts v inside
  have after := moved v inside
  have lists := inv'.length_queueSetVector new inv.selected (VectorConfig.ne_noVector inside)
  rw [queueSetVector_frame.1, queueSetVector_frame.2]
  dsimp only at lists ⊢
  omega

end Writes

/-! ### Every run -/

/-- A queue reset keeps the counts if the queue had no vector, and only then. -/
theorem VectorInv.queueReset (counts : UseCounts config s) :
    UseCounts config (s.virtioQueueSetVector s.queueSel virtioNoVector) ↔
      s.vector s.queueSel = virtioNoVector := by
  constructor
  · intro drifted
    by_contra real
    have inside := inv.valid _ real
    have after := (inv.queueSetVector inv.selected config.valid_none).useCounts_iff.mp drifted _ inside
    have before := inv.useCounts_iff.mp counts _ inside
    have lists := inv.length_queueSetVector virtioNoVector inv.selected real
    rw [queueSetVector_frame.1, queueSetVector_frame.2] at after
    rw [if_pos rfl, if_neg (Ne.symm real)] at lists
    omega
  · intro none
    exact (inv.queueWritten counts config.valid_none fun v _ => by rw [none]).2

theorem VectorInv.act (counts : UseCounts config s) (op : VectorOp) :
    ∃ t, s.act config op = .ok t ∧ VectorInv config t ∧
      (UseCounts config t ↔ ResetUnvectored s op) := by
  -- All but the queue reset keep both.
  suffices keeps : (∃ val, op = .commonWrite .qReset val) ∨ ResetUnvectored s op ∧
      ∃ t, s.act config op = .ok t ∧ VectorInv config t ∧ UseCounts config t by
    rcases keeps with ⟨val, rfl⟩ | ⟨fine, t, ran, after, counts⟩
    · by_cases one : val = 1
      · refine ⟨_, by simp [VectorState.act, VectorState.commonWrite, one],
          inv.queueSetVector inv.selected config.valid_none, ?_⟩
        simpa [ResetUnvectored, one] using inv.queueReset counts
      · exact ⟨s, by simp [VectorState.act, VectorState.commonWrite, one], inv,
          iff_of_true counts fun isOne => absurd isOne one⟩
    · exact ⟨t, ran, after, iff_of_true counts fine⟩
  have selected (val : Nat) : VectorInv config (s.select val) ∧ UseCounts config (s.select val) := by
    rw [VectorState.select]
    split_ifs with inside
    · exact ⟨{ inv with selected := inside }, counts⟩
    · exact ⟨inv, counts⟩
  have mayReset (p : Prop) [Decidable p] : VectorInv config (if p then s.virtioPciReset else s) ∧
      UseCounts config (if p then s.virtioPciReset else s) := by
    split_ifs
    · exact inv.virtioPciReset
    · exact ⟨inv, counts⟩
  have queue : s.virtioQueueVector s.queueSel = s.vector s.queueSel := if_pos inv.selected
  cases op with
  | reset => exact .inr ⟨trivial, _, rfl, inv.virtioPciReset⟩
  | ioportWrite reg val =>
    refine .inr ⟨trivial, ?_⟩
    cases reg with
    | queuePfn => exact ⟨_, rfl, mayReset _⟩
    | queueSel => exact ⟨_, rfl, selected val⟩
    | status zero => exact ⟨_, rfl, mayReset _⟩
    | msiConfigVector =>
      obtain ⟨used, new, ran, isNew, moved⟩ := inv.exchange counts (.inl rfl) val
      simp only [VectorState.act, VectorState.ioportWrite, ran, bind_ok]
      exact ⟨_, rfl, inv.configWritten counts isNew moved⟩
    | msiQueueVector =>
      obtain ⟨used, new, ran, isNew, moved⟩ := inv.exchange counts (.inr rfl) val
      simp only [VectorState.act, VectorState.ioportWrite, queue, ran, bind_ok]
      exact ⟨_, rfl, inv.queueWritten counts isNew moved⟩
  | commonWrite reg val =>
    cases reg with
    | msix =>
      obtain ⟨used, new, ran, isNew, moved⟩ := inv.exchange counts (.inl rfl) val
      simp only [VectorState.act, VectorState.commonWrite, ran, bind_ok]
      refine .inr ⟨trivial, _, rfl, ?_⟩
      rw [VectorState.setConfigVector]
      split_ifs with same
      · subst same
        exact inv.configWritten counts isNew moved
      · exact inv.configWritten counts isNew moved
    | status zero => exact .inr ⟨trivial, _, rfl, mayReset _⟩
    | qSelect => exact .inr ⟨trivial, _, rfl, selected val⟩
    | qMsix =>
      obtain ⟨used, new, ran, isNew, moved⟩ := inv.exchange counts (.inr rfl) val
      simp only [VectorState.act, VectorState.commonWrite, queue, ran, bind_ok]
      refine .inr ⟨trivial, _, rfl, ?_⟩
      rw [VectorState.setQueueVector]
      split_ifs with same
      · -- the use moved from the vector to itself
        refine ⟨{ inv with }, fun v inside => ?_⟩
        have after := moved v inside
        rw [same] at after
        exact (Nat.add_right_cancel after).trans (counts v inside)
      · exact inv.queueWritten counts isNew moved
    | qReset => exact .inl ⟨val, rfl⟩

end

theorem vectorInv_reachedBy (reached : config.system.ReachedBy ResetUnvectored s) :
    VectorInv config s ∧ UseCounts config s := by
  refine reached.invariant (fun s => VectorInv config s ∧ UseCounts config s) ?_ ?_
  · rintro _ rfl
    refine ⟨⟨Nat.zero_lt_succ _, config.valid_none, fun _ => config.valid_none, fun _ => .nil,
      fun v n => ?_⟩, fun v inside => ?_⟩
    · simp only [List.not_mem_nil, false_iff]
      exact fun member => member.1 member.2.2.symm
    · have real := VectorConfig.ne_noVector inside
      simp [VectorState.queuesWith, real.symm]
  · rintro s op t ⟨inv, counts⟩ fine taken
    obtain ⟨t', ran, after, iff⟩ := inv.act counts op
    cases ran.symm.trans (toOption_eq_some.mp taken)
    exact ⟨after, iff.mpr fine⟩

/-- In every run in which no queue is reset alone while it has a vector, each count is the number of
queues with the vector, and one for the configuration, and the lists hold just these queues. From
any state of such a run every step goes through, and the counts are right after it unless it is
such a reset. -/
theorem vector_use_counts_iff (config : VectorConfig) {s : VectorState}
    (reached : config.system.ReachedBy ResetUnvectored s) :
    UseCounts config s ∧ QueuesListed config s ∧ ∀ op, ∃ t, s.act config op = .ok t ∧
      QueuesListed config t ∧ (UseCounts config t ↔ ResetUnvectored s op) := by
  obtain ⟨inv, counts⟩ := vectorInv_reachedBy reached
  refine ⟨counts, inv.queuesListed, fun op => ?_⟩
  obtain ⟨t, ran, after, iff⟩ := inv.act counts op
  exact ⟨t, ran, after.queuesListed, iff⟩

/-- Queue 0 gets vector 1, the configuration too. -/
theorem vector_use_counts_iff_two :
    ∃ s, (VectorConfig.mk 2 (by decide)).system.ReachedBy ResetUnvectored s ∧
      s.entryUsed 1 = 2 ∧ UseCounts ⟨2, by decide⟩ s := by
  let config := VectorConfig.mk 2 (by decide)
  obtain ⟨s, reached, used⟩ :
      ∃ s, config.system.ReachedBy ResetUnvectored s ∧ s.entryUsed 1 = 2 :=
    LabelledSystem.exists_reachedBy [.commonWrite .qMsix 1, .ioportWrite .msiConfigVector 1]
      (by decide +kernel)
  exact ⟨s, reached, used, (vector_use_counts_iff _ reached).1⟩

/-- Queue 0 gets vector 1 and is reset: no queue has the vector, and it is still used. -/
theorem queue_reset_keeps_use :
    ∃ s, (VectorConfig.mk 2 (by decide)).system.ReachedBy (fun _ _ => True) s ∧
      s.entryUsed 1 = 1 ∧ s.configVector = virtioNoVector ∧ s.queuesWith 1 = [] :=
  LabelledSystem.exists_reachedBy [.commonWrite .qMsix 1, .commonWrite .qReset 1]
    (by decide +kernel)

end QemuGzvm.Virtio
