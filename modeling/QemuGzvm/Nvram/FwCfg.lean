import Mathlib.Data.List.Basic
import Mathlib.Algebra.Order.Ring.Int

/-!
Contract: the guest's side of the firmware configuration device (`hw/nvram/fw_cfg.c`).

Owns:
- the items, the selector and the data register, and the DMA register with its transfer loop;
- which accesses leave the read-only items alone.

A DMA write looks at `allow_write`. A write of the data register does not: it is kept from a
read-only item only where no byte of the item is left, or where it brings the bytes already there.
-/

namespace QemuGzvm.Nvram

structure FWCfgEntry where
  /-- The `len` bytes at `data`, unless that is null. -/
  data : Option (List UInt8)
  allowWrite : Bool
  selectCb : Bool
  writeCb : Bool

/-- A call of a callback, with the selected key. -/
inductive FWCfgCall where
  | select (key : UInt16)
  | write (key : UInt16) (offset len : Nat)

structure FWCfgState where
  fileSlots : UInt16
  /-- By `FW_CFG_ARCH_LOCAL` and by number. -/
  entries : Bool × Nat → FWCfgEntry
  curEntry : UInt16
  curOffset : Nat
  dmaAddr : UInt64
  calls : List FWCfgCall

structure FWCfgDmaAccess where
  control : UInt32
  length : UInt32
  address : UInt64

/-- The address space that one transfer works on: `true` is a failed access. -/
structure DmaSpace where
  access : UInt64 → Option FWCfgDmaAccess
  /-- `dma_memory_read`: what the buffer holds afterwards. -/
  read : UInt64 → List UInt8 → List UInt8 × Bool
  write : UInt64 → List UInt8 → Bool
  set : UInt64 → Nat → Bool
  /-- A read stays inside its buffer. -/
  read_length : ∀ addr buf, (read addr buf).1.length = buf.length

/-- Stores bytes one after the other, as far as there is room. -/
def writeAt : List UInt8 → Nat → List UInt8 → List UInt8
  | data, _, [] => data
  | data, offset, byte :: bytes => writeAt (data.set offset byte) (offset + 1) bytes

namespace FWCfgState

/-- `arch` and `cur_entry & FW_CFG_ENTRY_MASK` -/
def item (s : FWCfgState) : Bool × Nat :=
  (s.curEntry &&& 0x8000 != 0, (s.curEntry &&& 0x3fff).toNat)

/-- The selected item's bytes, unless it is `FW_CFG_INVALID` or has none left. -/
def current (s : FWCfgState) : Option (List UInt8) :=
  if s.curEntry = 0xffff then none
  else (s.entries s.item).data.filter fun data => s.curOffset < data.length

def store (s : FWCfgState) (data : List UInt8) : FWCfgState :=
  { s with entries := Function.update s.entries s.item { s.entries s.item with data := some data } }

def called (s : FWCfgState) (has : Bool) (call : FWCfgCall) : FWCfgState :=
  { s with calls := if has then s.calls ++ [call] else s.calls }

end FWCfgState

/-- `fw_cfg_add_bytes_callback`; `none` is a failed assertion. -/
def fwCfgAddBytesCallback (s : FWCfgState) (key : UInt16) (selectCb writeCb : Bool)
    (data : List UInt8) (readOnly : Bool) : Option FWCfgState :=
  let item := (key &&& 0x8000 != 0, (key &&& 0x3fff).toNat)
  if item.2 < 0x20 + s.fileSlots.toNat ∧ data.length < 2 ^ 32 - 1 ∧ (s.entries item).data = none then
    some { s with entries := Function.update s.entries item ⟨some data, !readOnly, selectCb, writeCb⟩ }
  else none

def fwCfgWrite (s : FWCfgState) (value : UInt8) : FWCfgState :=
  match s.current with
  | none => s
  | some data =>
    { s.store (data.set s.curOffset value) with curOffset := s.curOffset + 1 }.called
      (s.curOffset + 1 == data.length && (s.entries s.item).writeCb)
      (.write s.curEntry 0 data.length)

def fwCfgSelect (s : FWCfgState) (key : UInt16) : FWCfgState :=
  if (key &&& 0x3fff).toNat ≥ 0x20 + s.fileSlots.toNat then
    { s with curOffset := 0, curEntry := 0xffff }
  else
    let s := { s with curOffset := 0, curEntry := key }
    s.called (s.entries s.item).selectCb (.select key)

def fwCfgDataRead (s : FWCfgState) (size : Nat) : UInt64 × FWCfgState :=
  match s.current with
  | none => (0, s)
  | some data =>
    let bytes := (data.drop s.curOffset).take size
    (bytes.foldl (fun (value : UInt64) byte => value <<< 8 ||| byte.toUInt64) 0 <<<
        (8 * (size - bytes.length)).toUInt64,
      { s with curOffset := s.curOffset + bytes.length })

inductive DmaMode where
  | read
  | write
  | skip

/-- One turn of the loop on an item with bytes left: whether it ends with an error. -/
def dmaTurn (space : DmaSpace) (mode : DmaMode) (s : FWCfgState) (data : List UInt8)
    (address : UInt64) (length len : Nat) : FWCfgState × Bool :=
  let buf := (data.drop s.curOffset).take len
  match mode with
  | .read => (s, space.write address buf)
  | .skip => (s, false)
  | .write =>
    if !(s.entries s.item).allowWrite || len != length then (s, true)
    else
      let (buf, failed) := space.read address buf
      ((s.store (writeAt data s.curOffset buf)).called (!failed && (s.entries s.item).writeCb)
        (.write s.curEntry s.curOffset len), failed)

variable {data bytes : List UInt8} {s t : FWCfgState} {offset length : Nat} {space : DmaSpace}

theorem FWCfgState.current_eq_some (found : s.current = some data) :
    (s.entries s.item).data = some data ∧ s.curOffset < data.length := by
  unfold current at found
  split at found
  · cases found
  · obtain ⟨isData, left⟩ := Option.filter_eq_some_iff.mp found
    exact ⟨isData, of_decide_eq_true left⟩

/-- The loop of `fw_cfg_dma_transfer`. Where no byte is left, the turn takes all of `length`. -/
def dmaLoop (space : DmaSpace) (mode : DmaMode) (s : FWCfgState) (address : UInt64)
    (length : Nat) : FWCfgState × Bool :=
  if length = 0 then (s, false)
  else
    match found : s.current with
    | none =>
      (s, match mode with
        | .read => space.set address length
        | .write => true
        | .skip => false)
    | some data =>
      let len := min length (data.length - s.curOffset)
      let (after, error) := dmaTurn space mode s data address length len
      let after := { after with curOffset := s.curOffset + len }
      if error then (after, true)
      else dmaLoop space mode after (address + len.toUInt64) (length - len)
termination_by length
decreasing_by
  have := (FWCfgState.current_eq_some found).2
  omega

/-- `fw_cfg_dma_transfer` up to its loop: what the guest asks for, once an item is selected. -/
def dmaStart (space : DmaSpace) (s : FWCfgState) : Option (FWCfgDmaAccess × FWCfgState) :=
  (space.access s.dmaAddr).map fun dma =>
    let s := { s with dmaAddr := 0 }
    (dma, if dma.control &&& 8 ≠ 0 then fwCfgSelect s (dma.control >>> 16).toUInt16 else s)

/-- `fw_cfg_dma_transfer`: whether the guest reads back `FW_CFG_DMA_CTL_ERROR`. -/
def fwCfgDmaTransfer (space : DmaSpace) (s : FWCfgState) : FWCfgState × Bool :=
  match dmaStart space s with
  | none => ({ s with dmaAddr := 0 }, true)
  | some (dma, s) =>
    if dma.control &&& 2 ≠ 0 then dmaLoop space .read s dma.address dma.length.toNat
    else if dma.control &&& 16 ≠ 0 then dmaLoop space .write s dma.address dma.length.toNat
    else if dma.control &&& 4 ≠ 0 then dmaLoop space .skip s dma.address dma.length.toNat
    else (s, false)

/-- The calls that an access of the guest makes. -/
inductive GuestStep where
  | select (key : UInt16)
  | read (size : Nat)
  | write (value : UInt8)
  | dmaMemWrite (space : DmaSpace) (addr : Nat) (value : UInt64) (size : Nat)

/-- An access of a register, by the function that takes it. -/
inductive GuestAccess where
  | ctlMemWrite (value : UInt64)
  | combWrite (value : UInt64) (size : Nat)
  | dataRead (size : Nat)
  | dataMemWrite (value : UInt64) (size : Nat)
  | dmaMemWrite (space : DmaSpace) (addr : Nat) (value : UInt64) (size : Nat)

def GuestAccess.steps : GuestAccess → List GuestStep
  | .ctlMemWrite value => [.select value.toUInt16]
  | .combWrite value size =>
    if size = 1 then [.write value.toUInt8] else if size = 2 then [.select value.toUInt16] else []
  | .dataRead size => [.read size]
  | .dataMemWrite value size =>
    (List.range size).reverse.map fun i => .write (value >>> (8 * i).toUInt64).toUInt8
  | .dmaMemWrite space addr value size => [.dmaMemWrite space addr value size]

/-- `fw_cfg_dma_mem_write`: the address register, and whether a transfer starts. -/
def dmaRegister (s : FWCfgState) (addr : Nat) (value : UInt64) (size : Nat) : FWCfgState × Bool :=
  if size = 4 then
    if addr = 0 then ({ s with dmaAddr := value <<< 32 }, false)
    else if addr = 4 then ({ s with dmaAddr := s.dmaAddr ||| value }, true)
    else (s, false)
  else if size = 8 ∧ addr = 0 then ({ s with dmaAddr := value }, true)
  else (s, false)

def guestStep (s : FWCfgState) : GuestStep → FWCfgState
  | .select key => fwCfgSelect s key
  | .read size => (fwCfgDataRead s size).2
  | .write value => fwCfgWrite s value
  | .dmaMemWrite space addr value size =>
    let (s, start) := dmaRegister s addr value size
    if start then (fwCfgDmaTransfer space s).1 else s

def stateAt (s : FWCfgState) (accesses : List GuestAccess) (n : Nat) : FWCfgState :=
  ((accesses.flatMap GuestAccess.steps).take n).foldl guestStep s

/-! ### What a step changes -/

/-- Only bytes `[offset, offset + length)` of the item selected in `t` change, and only if that
item is writable. -/
def Confined (s t : FWCfgState) (offset length : Nat) : Prop :=
  ∀ item, (t.entries item).allowWrite = (s.entries item).allowWrite ∧
    ((t.entries item).data ≠ (s.entries item).data →
      item = t.item ∧ (s.entries item).allowWrite = true ∧
      ∃ old new, (s.entries item).data = some old ∧ (t.entries item).data = some new ∧
        new.length = old.length ∧
        ∀ i, ¬(offset ≤ i ∧ i < offset + length) → new[i]? = old[i]?)

def GuestStep.range (s : FWCfgState) : GuestStep → Nat × Nat
  | .select _ | .read _ => (0, 0)
  | .write _ => (s.curOffset, 1)
  | .dmaMemWrite space addr value size =>
    match dmaStart space (dmaRegister s addr value size).1 with
    | none => (0, 0)
    | some (dma, selected) => (selected.curOffset, dma.length.toNat)

/-- The data register takes a byte of a writable item, or of one with no byte left, or the byte
that is there already. -/
def Permitted (s : FWCfgState) : GuestStep → Prop
  | .write value => ∀ data, s.current = some data →
    (s.entries s.item).allowWrite = true ∨ data[s.curOffset]? = some value
  | _ => True

@[simp]
theorem length_writeAt (data : List UInt8) (offset : Nat) (bytes : List UInt8) :
    (writeAt data offset bytes).length = data.length := by
  induction bytes generalizing data offset with
  | nil => rfl
  | cons byte bytes ih => rw [writeAt, ih, List.length_set]

theorem getElem?_writeAt {i : Nat} (data : List UInt8)
    (outside : ¬(offset ≤ i ∧ i < offset + bytes.length)) :
    (writeAt data offset bytes)[i]? = data[i]? := by
  induction bytes generalizing data offset with
  | nil => rfl
  | cons byte bytes ih =>
    rw [List.length_cons] at outside
    rw [writeAt, ih _ (by omega), List.getElem?_set_ne (by omega)]

theorem Confined.of_entries (same : t.entries = s.entries) : Confined s t offset length :=
  fun item => ⟨by rw [same], fun changed => absurd (by rw [same]) changed⟩

theorem Confined.mono {s' : FWCfgState} {offset' length' : Nat}
    (confined : Confined s' t offset' length') (same : s'.entries = s.entries)
    (le : offset ≤ offset') (le' : offset' + length' ≤ offset + length) :
    Confined s t offset length := by
  intro item
  rw [← same]
  refine ⟨(confined item).1, fun changed => ?_⟩
  obtain ⟨isItem, writable, old, new, isOld, isNew, sameLength, kept⟩ := (confined item).2 changed
  exact ⟨isItem, writable, old, new, isOld, isNew, sameLength, fun i outside => kept i (by omega)⟩

/-- Storing some bytes in the selected item is confined exactly if it may be done. -/
theorem confined_store_iff (found : s.current = some data) (selected : t.item = s.item)
    (stored : t.entries = (s.store (writeAt data s.curOffset bytes)).entries)
    (fits : bytes.length ≤ length) :
    Confined s t s.curOffset length ↔
      (s.entries s.item).allowWrite = true ∨ writeAt data s.curOffset bytes = data := by
  have found := (FWCfgState.current_eq_some found).1
  have here : (t.entries s.item).data = some (writeAt data s.curOffset bytes) := by
    simp [stored, FWCfgState.store]
  constructor
  · intro confined
    by_cases same : writeAt data s.curOffset bytes = data
    · exact Or.inr same
    · exact Or.inl ((confined s.item).2 (by simpa [here, found] using same)).2.1
  · intro may item
    by_cases other : item = s.item
    · subst other
      refine ⟨by simp [stored, FWCfgState.store], fun changed => ⟨selected.symm,
        may.resolve_right fun same => changed (by rw [here, found, same]), data, _, found, here,
        length_writeAt .., fun i outside => getElem?_writeAt data (by omega)⟩⟩
    · simp [stored, FWCfgState.store, other]

theorem fwCfgWrite_confined_iff (s : FWCfgState) (value : UInt8) :
    Confined s (fwCfgWrite s value) s.curOffset 1 ↔ Permitted s (.write value) := by
  rw [Permitted, fwCfgWrite]
  match found : s.current with
  | none => simp [Confined.of_entries]
  | some data =>
    have same : writeAt data s.curOffset [value] = data ↔ data[s.curOffset]? = some value := by
      rw [writeAt, writeAt]
      constructor
      · intro same
        rw [← same, List.getElem?_set_self (FWCfgState.current_eq_some found).2]
      · intro there
        obtain ⟨_, rfl⟩ := List.getElem?_eq_some_iff.mp there
        exact List.set_getElem_self _
    simp only [Option.some.injEq, forall_eq', ← same]
    exact confined_store_iff found rfl rfl (Nat.le_refl _)

@[simp]
theorem entries_select (s : FWCfgState) (key : UInt16) :
    (fwCfgSelect s key).entries = s.entries := by
  unfold fwCfgSelect
  split <;> rfl

/-- A turn is confined, and it changes no item if something is left to do. -/
theorem dmaTurn_spec {mode : DmaMode} {after : FWCfgState} {address : UInt64} {len : Nat}
    {error : Bool} (found : s.current = some data)
    (turn : dmaTurn space mode s data address length len = (after, error)) :
    Confined s { after with curOffset := s.curOffset + len } s.curOffset length ∧
      (after.entries = s.entries ∨ len = length) := by
  cases mode with
  | read =>
    cases turn
    exact ⟨.of_entries rfl, Or.inl rfl⟩
  | skip =>
    cases turn
    exact ⟨.of_entries rfl, Or.inl rfl⟩
  | write =>
    rw [dmaTurn] at turn
    split at turn
    · cases turn
      exact ⟨.of_entries rfl, Or.inl rfl⟩
    · next accepted =>
      cases turn
      obtain ⟨writable, rfl⟩ : (s.entries s.item).allowWrite = true ∧ len = length := by
        simpa using accepted
      have fits : (space.read address ((data.drop s.curOffset).take len)).1.length ≤ len := by
        rw [space.read_length, List.length_take]
        omega
      refine ⟨(confined_store_iff found ?_ ?_ fits).mpr (Or.inl writable), Or.inr rfl⟩
      · rfl
      · rfl

theorem dmaLoop_confined (space : DmaSpace) (mode : DmaMode) (s : FWCfgState) (address : UInt64)
    (length : Nat) : Confined s (dmaLoop space mode s address length).1 s.curOffset length := by
  fun_induction dmaLoop space mode s address length with
  | case1 => exact .of_entries rfl
  | case2 => exact .of_entries rfl
  | case3 _ _ _ _ _ found _ _ _ turn => exact (dmaTurn_spec found turn).1
  | case4 s address length _ data found len after error turn after' _ ih =>
    obtain ⟨confined, same | whole⟩ := dmaTurn_spec found turn
    · exact ih.mono same (Nat.le_add_right ..) (by simp only [after']; omega)
    · rw [whole, Nat.sub_self, dmaLoop.eq_def, if_pos rfl]
      exact confined

theorem entries_dmaStart {selected : FWCfgState} {dma : FWCfgDmaAccess}
    (started : dmaStart space s = some (dma, selected)) : selected.entries = s.entries := by
  obtain ⟨_, -, isStart⟩ := Option.map_eq_some_iff.mp started
  cases isStart
  split <;> simp

theorem entries_dmaRegister (s : FWCfgState) (addr : Nat) (value : UInt64) (size : Nat) :
    (dmaRegister s addr value size).1.entries = s.entries := by
  unfold dmaRegister
  repeat' split
  all_goals rfl

theorem guestStep_confined_iff (s : FWCfgState) (step : GuestStep) :
    Confined s (guestStep s step) (step.range s).1 (step.range s).2 ↔ Permitted s step := by
  cases step with
  | select key => exact iff_of_true (.of_entries (entries_select ..)) trivial
  | read size =>
    refine iff_of_true (.of_entries ?_) trivial
    rw [guestStep, fwCfgDataRead]
    split <;> rfl
  | write value => exact fwCfgWrite_confined_iff s value
  | dmaMemWrite space addr value size =>
    refine iff_of_true ?_ trivial
    have same := entries_dmaRegister s addr value size
    rw [guestStep, GuestStep.range]
    dsimp only
    generalize dmaRegister s addr value size = register at same ⊢
    split
    · rw [fwCfgDmaTransfer]
      match started : dmaStart space register.1 with
      | none => exact .of_entries same
      | some (dma, selected) =>
        have kept := (entries_dmaStart started).trans same
        have loop (mode : DmaMode) :=
          (dmaLoop_confined space mode selected dma.address dma.length.toNat).mono kept
            (Nat.le_refl _) (Nat.le_refl _)
        dsimp only
        repeat' split
        · exact loop .read
        · exact loop .write
        · exact loop .skip
        · exact .of_entries kept
    · exact .of_entries same

/-- In every state that the guest reaches, the read-only items have the bytes that they were added
with, and every step has changed only the bytes that it may write, if and only if the data
register has taken only what it may. -/
theorem readOnly_items_kept_iff (s : FWCfgState) (accesses : List GuestAccess) :
    ((∀ n item, (s.entries item).allowWrite = false →
        ((stateAt s accesses n).entries item).data = (s.entries item).data) ∧
      ∀ n step, (accesses.flatMap GuestAccess.steps)[n]? = some step →
        Confined (stateAt s accesses n) (stateAt s accesses (n + 1))
          (step.range (stateAt s accesses n)).1 (step.range (stateAt s accesses n)).2) ↔
    ∀ n step, (accesses.flatMap GuestAccess.steps)[n]? = some step →
      Permitted (stateAt s accesses n) step := by
  unfold stateAt
  generalize accesses.flatMap GuestAccess.steps = steps
  have next {n : Nat} {step : GuestStep} (isStep : steps[n]? = some step) :
      (steps.take (n + 1)).foldl guestStep s = guestStep ((steps.take n).foldl guestStep s) step := by
    simp [List.take_add_one, isStep]
  constructor
  · intro ⟨_, confined⟩ n step isStep
    exact (guestStep_confined_iff ..).mp (next isStep ▸ confined n step isStep)
  · intro permitted
    have confined {n : Nat} {step : GuestStep} (isStep : steps[n]? = some step) :=
      next isStep ▸ (guestStep_confined_iff ..).mpr (permitted n step isStep)
    refine ⟨fun n item readOnly => ?_, fun n step isStep => confined isStep⟩
    -- the flag is carried along with the bytes
    have kept : (((steps.take n).foldl guestStep s).entries item).allowWrite = false ∧
        (((steps.take n).foldl guestStep s).entries item).data = (s.entries item).data := by
      induction n with
      | zero => exact ⟨readOnly, rfl⟩
      | succ n ih =>
        match isStep : steps[n]? with
        | none => simpa [List.take_add_one, isStep] using ih
        | some step =>
          obtain ⟨sameFlag, changed⟩ := confined isStep item
          refine ⟨sameFlag.trans ih.1, .trans ?_ ih.2⟩
          by_contra differs
          have writable := (changed differs).2.1
          rw [ih.1] at writable
          cases writable
    exact kept.2

def emptyFwCfg : FWCfgState := ⟨0x20, fun _ => ⟨none, false, false, false⟩, 0, 0, 0, []⟩

/-- The guest selects the signature, which is read-only, and overwrites its first byte. -/
theorem signature_overwritten :
    ((fwCfgAddBytesCallback emptyFwCfg 0 false false [0x51, 0x45, 0x4d, 0x55] true).map fun s =>
      (((s.entries (false, 0)).allowWrite, (s.entries (false, 0)).data),
        ((stateAt s [.combWrite 0 2, .combWrite 0x58 1] 2).entries (false, 0)).data)) =
    some ((false, some [0x51, 0x45, 0x4d, 0x55]), some [0x58, 0x45, 0x4d, 0x55]) := by
  decide

end QemuGzvm.Nvram
