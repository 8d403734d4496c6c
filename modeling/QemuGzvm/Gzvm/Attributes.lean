import QemuGzvm.Gzvm.Mirror
import QemuGzvm.Library.Transition
import QemuGzvm.Memory.FlatviewRoot

/-!
Contract: the slot table while regions change `readonly` and `romd_mode`
(`memory_region_set_readonly`, `memory_region_rom_device_set_romd`).

Owns:
- `World`, the table beside the machine and the view the listener last saw, and
  the system of its transactions;
- `Clean`, the condition on a transaction: each active slot is taken away by a
  deletion that still passes the filter, or the new view asks for it unchanged.

The deletion of a range is filtered by the attributes its region has when the
commit runs. They have changed by then, so a deletion can be filtered out although
the addition was not.
-/

namespace QemuGzvm.Gzvm

open QemuGzvm.Library
open QemuGzvm.Memory

inductive AttributeChange where
  | setReadonly (mr : MrId) (readonly : Bool)
  | setRomd (mr : MrId) (romdMode : Bool)
deriving DecidableEq, Repr

def AttributeChange.apply (regions : Regions) : AttributeChange → Regions
  | .setReadonly mr readonly =>
    Function.update regions mr { regions mr with readonly := readonly }
  | .setRomd mr romdMode => Function.update regions mr { regions mr with romdMode := romdMode }

/-- A memory transaction: attributes change, then the flat view is recomputed. -/
structure AttributeTransaction where
  changes : List AttributeChange
  newView : FlatView

structure World where
  host : Host
  machine : Machine
  view : FlatView

def Machine.change (m : Machine) (changes : List AttributeChange) : Machine :=
  { m with regions := changes.foldl AttributeChange.apply m.regions }

/-- The topology update and the commit of the GZVM listener at the end of a
transaction. -/
def World.commit (w : World) (t : AttributeTransaction) : Checked World :=
  ((topologyTransaction (w.machine.change t.changes) w.view t.newView).run everyIoctl
    w.host).bind fun host =>
      .ok ⟨host, w.machine.change t.changes, t.newView⟩

/-- Each active slot is one the view asks for. -/
def World.NoStale (w : World) : Prop :=
  ∀ slot ∈ w.host.state.registered,
    slot ∈ eligibleContents w.machine w.host.state.ramBase w.view

/-- Each active slot is taken away, or the new view asks for it as it is. -/
def World.Clean (w : World) (t : AttributeTransaction) : Prop :=
  ∀ slot ∈ w.host.state.registered,
    UpdateRemoves (w.machine.change t.changes) w.host.state.ramBase w.view t.newView slot ∨
      slot ∈ eligibleContents (w.machine.change t.changes) w.host.state.ramBase t.newView

/-- A view the code can handle: ordered, sections below `2^64` bytes, a `RAMBlock`
under every RAM or ROM device region, and no more eligible sections than slots. -/
structure ViewOk (m : Machine) (ramBase : Nat) (view : FlatView) : Prop where
  ordered : Ordered view
  small : ∀ fr ∈ view, fr.addr.size < 2 ^ 64
  backed : ∀ fr ∈ view, ((m.regions fr.mr).ram || (m.regions fr.mr).romDevice) = true →
    (m.regions fr.mr).ramBlock.isSome = true
  room : (eligibleSections m ramBase view).length ≤ gzvmMaxMemSlots

/-- The transactions of an accelerator that starts with an empty view. -/
def attributeSystem : LabelledSystem World AttributeTransaction where
  init := fun w => ∃ ramBase, w.host = gzvmCreateVm ramBase ∧ w.view = []
  step := fun w t w' =>
    ViewOk (w.machine.change t.changes) w.host.state.ramBase t.newView ∧ w.commit t = .ok w'

/-! ### What changes keep -/

/-- The changes touch neither kind nor memory of a region. -/
theorem change_keeps (m : Machine) (changes : List AttributeChange) (id : MrId) :
    ((m.change changes).regions id).ram = (m.regions id).ram ∧
      ((m.change changes).regions id).romDevice = (m.regions id).romDevice ∧
      ((m.change changes).regions id).ramBlock = (m.regions id).ramBlock := by
  simp only [Machine.change]
  generalize m.regions = regions
  induction changes generalizing regions with
  | nil => exact ⟨rfl, rfl, rfl⟩
  | cons change changes ih =>
    obtain ⟨ramEq, deviceEq, blockEq⟩ := ih (change.apply regions)
    rw [List.foldl_cons, ramEq, deviceEq, blockEq]
    cases change <;> simp only [AttributeChange.apply, Function.update_apply] <;>
      split <;> simp_all

variable {m : Machine} {ramBase : Nat} {w : World}

theorem physMemAccepted_kind {start size : Nat} {area : MemoryRegion}
    (accepted : physMemAccepted m ramBase area start size = true) :
    (area.ram || area.romDevice) = true := by
  grind [physMemAccepted, memoryRegionIsRam, memoryRegionIsRom, memoryRegionIsRomd]

/-- No section of such a view stops the commit, even under other attributes. -/
theorem ViewOk.safe {view : FlatView} (ok : ViewOk m ramBase view) (changes : List AttributeChange)
    {fr : FlatRange} (member : fr ∈ view) :
    ¬Asserts (m.change changes) ramBase (sectionFromFlatRange fr) := by
  obtain ⟨ramEq, deviceEq, blockEq⟩ := change_keeps m changes fr.mr
  rintro (large | ⟨accepted, unbacked⟩)
  · have sizeEq := ok.ordered.section_size member
    have small := ok.small fr member
    omega
  · have kind := physMemAccepted_kind accepted
    have kind' : ((m.regions fr.mr).ram || (m.regions fr.mr).romDevice) = true := by
      rw [← ramEq, ← deviceEq]
      exact kind
    have unbacked' : ((m.change changes).regions fr.mr).ramBlock = none := unbacked
    have backed := ok.backed fr member kind'
    rw [← blockEq, unbacked'] at backed
    cases backed

/-! ### The invariant of clean runs -/

/-- Between clean transactions: the table tracks contents the view asks for. -/
structure World.Sound (w : World) : Prop where
  idle : Idle w.host w.host.state.ramBase
  tracks : ∃ contents, Tracks w.host contents
  noStale : w.NoStale
  viewOk : ViewOk w.machine w.host.state.ramBase w.view

theorem sound_init (initial : attributeSystem.init w) : w.Sound := by
  obtain ⟨host, machine, view⟩ := w
  obtain ⟨ramBase, rfl, rfl⟩ := initial
  have tracks := tracks_createVm machine ramBase
  exact ⟨⟨rfl, rfl, rfl⟩, ⟨_, tracks⟩, fun slot member => (tracks.members slot).mp member,
    ordered_nil, by simp, by simp, by simp [eligibleSections]⟩

/-- From a sound state a transaction runs to its end, and leaves no stale slot
exactly when it is clean. -/
theorem World.Sound.commit (sound : w.Sound) (t : AttributeTransaction)
    (newOk : ViewOk (w.machine.change t.changes) w.host.state.ramBase t.newView) :
    ∃ w', w.commit t = .ok w' ∧ (w'.NoStale ↔ w.Clean t) ∧ (w.Clean t → w'.Sound) := by
  obtain ⟨contents, tracks⟩ := sound.tracks
  have safe : ∀ fr ∈ w.view ++ t.newView, ¬Asserts (w.machine.change t.changes)
      w.host.state.ramBase (sectionFromFlatRange fr) := by
    intro fr member
    rcases List.mem_append.mp member with inOld | inNew
    · exact sound.viewOk.safe t.changes inOld
    · exact newOk.safe [] inNew
  obtain ⟨kept, keptResult, keptBase, keeps⟩ := topology_keeps _ sound.idle tracks safe
  have whenClean : w.Clean t → World.Sound ⟨kept, w.machine.change t.changes, t.newView⟩ := by
    intro clean
    obtain ⟨h', result, idle', tracks'⟩ := topology_tracks _ sound.idle tracks newOk.ordered safe
      (fun slot member notRemoved =>
        (clean slot ((tracks.members slot).mpr member)).resolve_left notRemoved) newOk.room
    have sameHost : h' = kept := Except.ok.inj (result.symm.trans keptResult)
    subst sameHost
    refine ⟨⟨rfl, idle'.add, idle'.del⟩, ⟨_, tracks'⟩, ?_, keptBase.symm ▸ newOk⟩
    intro slot member
    have inNew : slot ∈ eligibleContents (w.machine.change t.changes) w.host.state.ramBase
        t.newView := by
      rcases (tracks'.members slot).mp member with ⟨before, notRemoved⟩ | ⟨fr, come, accepted, rfl⟩
      · exact (clean slot ((tracks.members slot).mpr before)).resolve_left notRemoved
      · refine mem_eligibleContents.mpr ⟨fr, ?_, accepted, rfl⟩
        rw [← diffScript_new w.view t.newView]
        exact List.mem_filterMap.mpr ⟨_, come, rfl⟩
    exact keptBase.symm ▸ inNew
  refine ⟨⟨kept, w.machine.change t.changes, t.newView⟩, ?_, ⟨?_, ?_⟩, whenClean⟩
  · rw [World.commit, keptResult, bind_ok]
  · intro noStale slot member
    by_cases removed : UpdateRemoves (w.machine.change t.changes) w.host.state.ramBase w.view
        t.newView slot
    · exact Or.inl removed
    · have survivor := noStale slot (keeps slot ((tracks.members slot).mp member) removed)
      exact Or.inr (keptBase ▸ survivor)
  · exact fun clean => (whenClean clean).noStale

theorem sound_of_reached (reached : attributeSystem.ReachedBy World.Clean w) :
    w.Sound := by
  refine reached.invariant World.Sound (fun _ => sound_init) ?_
  rintro s t s' sound clean ⟨newOk, taken⟩
  obtain ⟨w', result, _, stays⟩ := sound.commit t newOk
  cases Except.ok.inj (result.symm.trans taken)
  exact stays clean

def World.commitAll : World → List AttributeTransaction → Checked World
  | w, [] => .ok w
  | w, t :: rest => (w.commit t).bind fun w => w.commitAll rest

end QemuGzvm.Gzvm
