import Mathlib.Data.Multiset.AddSub

/-!
Contract: the difference of two sorted lists as a script of deletions and additions.

Owns:
- `mergeDiff`, which walks two lists with two pointers under a strict order;
- `Change`, its effect on a multiset of registered items, and when it fits: only what
  is registered is deleted, and nothing is added twice;
- that the script of two strictly sorted lists fits and turns the one into the other.

The order may leave items incomparable; the two lists must then agree on them.
-/

set_option autoImplicit false

namespace QemuGzvm.Library

universe u

variable {α : Type u}

inductive Change (α : Type u) where
  | del (item : α)
  | add (item : α)
deriving DecidableEq, Repr

namespace Change

variable [DecidableEq α]

def apply (registered : Multiset α) : Change α → Multiset α
  | .del item => registered.erase item
  | .add item => item ::ₘ registered

def Fits (registered : Multiset α) : Change α → Prop
  | .del item => item ∈ registered
  | .add item => item ∉ registered

def applyAll (registered : Multiset α) (changes : List (Change α)) : Multiset α :=
  changes.foldl Change.apply registered

/-- Each change fits what the changes before it have left. -/
def FitAll (registered : Multiset α) : List (Change α) → Prop
  | [] => True
  | change :: rest => change.Fits registered ∧ FitAll (change.apply registered) rest

/-- The changes fit, and lead from what is registered to `target`. -/
def Leads (registered : Multiset α) (changes : List (Change α)) (target : Multiset α) : Prop :=
  FitAll registered changes ∧ applyAll registered changes = target

theorem leads_nil (registered : Multiset α) : Leads registered [] registered := ⟨trivial, rfl⟩

theorem Leads.cons {registered target : Multiset α} {change : Change α} {rest : List (Change α)}
    (fits : change.Fits registered) (later : Leads (change.apply registered) rest target) :
    Leads registered (change :: rest) target :=
  ⟨⟨fits, later.1⟩, later.2⟩

end Change

/-- Each turn drops the head of one of the lists at least. -/
def mergeDiff (before : α → α → Bool) : Nat → List α → List α → List (Change α)
  | 0, _, _ => []
  | _ + 1, [], [] => []
  | turns + 1, old :: olds, [] => .del old :: mergeDiff before turns olds []
  | turns + 1, [], new :: news => .add new :: mergeDiff before turns [] news
  | turns + 1, old :: olds, new :: news =>
    if before old new then .del old :: mergeDiff before turns olds (new :: news)
    else if before new old then .add new :: mergeDiff before turns (old :: olds) news
    else mergeDiff before turns olds news

def StrictlySorted (before : α → α → Bool) (items : List α) : Prop :=
  items.Pairwise fun a b => before a b = true

namespace SortedDiff

variable {before : α → α → Bool} (irrefl : ∀ a, before a a = false)

variable [DecidableEq α] {done news olds : List α} {old new : α} {target : Multiset α}
  {changes : List (Change α)}

omit [DecidableEq α] in
include irrefl in
theorem not_mem_done (sorted : StrictlySorted before (done ++ new :: news)) :
    new ∉ done := by
  intro member
  have self := (List.pairwise_append.mp sorted).2.2 new member new List.mem_cons_self
  rw [irrefl new] at self
  cases self

omit [DecidableEq α] in
theorem cons_new (done : List α) (new : α) (olds : List α) :
    new ::ₘ (↑done + ↑olds : Multiset α) = ↑(done ++ [new]) + ↑olds := by
  rw [← Multiset.cons_add, Multiset.cons_coe]
  congr 1
  exact Multiset.coe_eq_coe.mpr (List.perm_append_singleton new done).symm

theorem leads_del (leads : Change.Leads (↑done + ↑olds) changes target) :
    Change.Leads (↑done + ↑(old :: olds)) (.del old :: changes) target := by
  apply Change.Leads.cons
  · simp [Change.Fits]
  · rwa [Change.apply, ← Multiset.cons_coe, Multiset.add_cons, Multiset.erase_cons_head]

theorem leads_add (notDone : new ∉ done) (notOld : new ∉ olds)
    (leads : Change.Leads (↑(done ++ [new]) + ↑olds) changes target) :
    Change.Leads (↑done + ↑olds) (.add new :: changes) target := by
  apply Change.Leads.cons
  · simp [Change.Fits, notDone, notOld]
  · rwa [Change.apply, cons_new]

include irrefl

/-- The walk from any point: `done` of the new list is registered already, with what is
left of the old list. -/
theorem mergeDiff_from {turns : Nat}
    (enough : olds.length + news.length ≤ turns) (oldSorted : StrictlySorted before olds)
    (newSorted : StrictlySorted before (done ++ news))
    (agree : ∀ old ∈ olds, ∀ new ∈ news, before old new = false → before new old = false →
      old = new) :
    Change.Leads (↑done + ↑olds) (mergeDiff before turns olds news) ↑(done ++ news) := by
  fun_induction mergeDiff before turns olds news generalizing done with
  | case1 olds news =>
    have noOld : olds = [] := List.eq_nil_of_length_eq_zero (by omega)
    have noNew : news = [] := List.eq_nil_of_length_eq_zero (by omega)
    subst noOld noNew
    simpa using Change.leads_nil (↑done : Multiset α)
  | case2 => simpa using Change.leads_nil (↑done : Multiset α)
  | case3 turns old olds ih =>
    rw [List.length_cons] at enough
    exact leads_del (ih (by omega) oldSorted.of_cons newSorted nofun)
  | case4 turns new news ih =>
    rw [List.append_cons]
    apply leads_add (not_mem_done irrefl newSorted) List.not_mem_nil
    rw [List.append_cons] at newSorted
    exact ih (by simpa using enough) oldSorted newSorted nofun
  | case5 turns old olds new news oldFirst ih =>
    apply leads_del
    apply ih _ oldSorted.of_cons newSorted
    · exact fun other member => agree other (List.mem_cons_of_mem _ member)
    · rw [List.length_cons] at enough
      omega
  | case6 turns old olds new news oldLater newFirst ih =>
    -- `new` comes before all that is left of the old list
    have notOld : new ∉ old :: olds := by
      rw [List.mem_cons, not_or]
      refine ⟨?_, fun later => oldLater ((List.pairwise_cons.mp oldSorted).1 new later)⟩
      rintro rfl
      exact oldLater newFirst
    rw [List.append_cons]
    apply leads_add (not_mem_done irrefl newSorted) notOld
    rw [List.append_cons] at newSorted
    apply ih _ oldSorted newSorted
    · exact fun old member other later => agree old member other (List.mem_cons_of_mem _ later)
    · simp only [List.length_cons] at enough ⊢
      omega
  | case7 turns old olds new news oldLater newLater ih =>
    have same : old = new := agree old List.mem_cons_self new List.mem_cons_self
      (by simpa using oldLater) (by simpa using newLater)
    subst same
    rw [List.append_cons] at newSorted ⊢
    rw [← Multiset.cons_coe, Multiset.add_cons, cons_new]
    apply ih _ oldSorted.of_cons newSorted
    · grind
    · simp only [List.length_cons] at enough
      omega

/-- The script of two strictly sorted lists leads from the one to the other. -/
theorem mergeDiff_leads (oldSorted : StrictlySorted before olds)
    (newSorted : StrictlySorted before news)
    (agree : ∀ old ∈ olds, ∀ new ∈ news, before old new = false → before new old = false →
      old = new) :
    Change.Leads ↑olds (mergeDiff before (olds.length + news.length) olds news) ↑news := by
  have leads := mergeDiff_from irrefl (Nat.le_refl _) oldSorted
    (show StrictlySorted before ([] ++ news) from newSorted) agree
  simpa using leads

end SortedDiff

end QemuGzvm.Library
