import QemuGzvm.Library.ByteMemory

/-!
Contract: the configuration space of a PCI function (`include/hw/pci/pci.h`,
`include/qemu/range.h`).

Owns:
- the registers and bits that the modelled functions use;
- the accessors `pci_get_*`, `pci_set_*` and `pci_*_test_and_*_mask`, and which bytes they
  leave;
- the tests of a written range against a register.
-/

namespace QemuGzvm.Pci

open QemuGzvm.Library

/-! ### Registers -/

def pciCommand : Nat := 0x04

def pciCommandIo : UInt16 := 0x1

def pciCommandMemory : UInt16 := 0x2

def pciCommandMaster : UInt16 := 0x4

def pciCommandIntxDisable : UInt16 := 0x400

def pciStatus : Nat := 0x06

def pciStatusInterrupt : UInt8 := 0x08

def pciCacheLineSize : Nat := 0x0c

def pciHeaderType : Nat := 0x0e

def pciHeaderTypeBridge : UInt8 := 1

def pciHeaderTypeMultiFunction : UInt8 := 0x80

def pciBaseAddress0 : Nat := 0x10

def pciBaseAddressSpaceIo : UInt8 := 0x01

def pciBaseAddressMemType64 : UInt8 := 0x04

def pciRomAddress : Nat := 0x30

def pciRomAddress1 : Nat := 0x38

def pciRomAddressEnable : UInt64 := 0x01

def pciInterruptLine : Nat := 0x3c

def pciConfigHeaderSize : Nat := 0x40

def pciPmPmc : Nat := 2

def pciPmCapD1 : UInt16 := 0x0200

def pciPmCapD2 : UInt16 := 0x0400

def pciPmCtrl : Nat := 4

def pciPmCtrlStateMask : UInt16 := 0x0003

/-! ### Accessors -/

def pciGetWord (config : Bytes) (offset : Nat) : UInt16 := UInt16.ofNat (config.load offset 2)

def pciGetLong (config : Bytes) (offset : Nat) : UInt32 := UInt32.ofNat (config.load offset 4)

def pciGetQuad (config : Bytes) (offset : Nat) : UInt64 := UInt64.ofNat (config.load offset 8)

def pciSetByte (config : Bytes) (offset : Nat) (val : UInt8) : Bytes :=
  config.store offset 1 val.toNat

def pciSetWord (config : Bytes) (offset : Nat) (val : UInt16) : Bytes :=
  config.store offset 2 val.toNat

def pciSetLong (config : Bytes) (offset : Nat) (val : UInt32) : Bytes :=
  config.store offset 4 val.toNat

def pciSetQuad (config : Bytes) (offset : Nat) (val : UInt64) : Bytes :=
  config.store offset 8 val.toNat

def pciByteTestAndClearMask (config : Bytes) (offset : Nat) (mask : UInt8) : Bytes :=
  pciSetByte config offset (config offset &&& ~~~mask)

def pciWordTestAndClearMask (config : Bytes) (offset : Nat) (mask : UInt16) : Bytes :=
  pciSetWord config offset (pciGetWord config offset &&& ~~~mask)

def pciWordTestAndSetMask (config : Bytes) (offset : Nat) (mask : UInt16) : Bytes :=
  pciSetWord config offset (pciGetWord config offset ||| mask)

def pciLongTestAndClearMask (config : Bytes) (offset : Nat) (mask : UInt32) : Bytes :=
  pciSetLong config offset (pciGetLong config offset &&& ~~~mask)

/-! ### Ranges -/

def rangesOverlap (first1 len1 first2 len2 : Nat) : Bool :=
  !(decide (first2 + len2 ≤ first1) || decide (first1 + len1 ≤ first2))

def rangeCoversByte (offset len byte : Nat) : Bool :=
  decide (offset ≤ byte) && decide (byte < offset + len)

theorem rangesOverlap_eq_false {first1 len1 first2 len2 : Nat} :
    rangesOverlap first1 len1 first2 len2 = false ↔
      first2 + len2 ≤ first1 ∨ first1 + len1 ≤ first2 := by
  rw [rangesOverlap, Bool.not_eq_false', Bool.or_eq_true, decide_eq_true_eq, decide_eq_true_eq]

theorem rangeCoversByte_eq_false {offset len byte : Nat} :
    rangeCoversByte offset len byte = false ↔ byte < offset ∨ offset + len ≤ byte := by
  simp only [rangeCoversByte, Bool.and_eq_false_iff, decide_eq_false_iff_not]
  omega

/-! ### What the accessors leave -/

section Frames

variable {config other : Bytes} {offset : Nat}

theorem pciGetWord_congr (same : ∀ i, offset ≤ i → i < offset + 2 → config i = other i) :
    pciGetWord config offset = pciGetWord other offset :=
  congrArg UInt16.ofNat (Bytes.load_congr same)

@[simp] theorem pciGetWord_set (config : Bytes) (offset : Nat) (val : UInt16) :
    pciGetWord (pciSetWord config offset val) offset = val := by
  have small : val.toNat < 256 ^ 2 := val.toNat_lt
  rw [pciGetWord, pciSetWord, Bytes.load_store, Nat.mod_eq_of_lt small]
  exact UInt16.ofNat_toNat

@[simp] theorem pciSetByte_self (config : Bytes) (offset : Nat) (val : UInt8) :
    pciSetByte config offset val offset = val := by
  rw [pciSetByte, Bytes.store_inside (Nat.le_refl _) (Nat.lt_succ_self _), Nat.sub_self,
    Nat.pow_zero, Nat.div_one]
  exact UInt8.ofNat_toNat

theorem pciGetWord_eq (config : Bytes) (offset : Nat) :
    pciGetWord config offset =
      (config offset).toUInt16 ||| (config (offset + 1)).toUInt16 <<< 8 := by
  have low := (config offset).toNat_lt
  have high := (config (offset + 1)).toNat_lt
  apply UInt16.toNat_inj.mp
  have joined : (config offset).toNat ||| (config (offset + 1)).toNat <<< 8 =
      (config (offset + 1)).toNat <<< 8 + (config offset).toNat := by
    rw [Nat.or_comm, ← Nat.shiftLeft_add_eq_or_of_lt low]
  simp only [pciGetWord, Bytes.load, UInt16.toNat_ofNat', UInt16.toNat_or, UInt8.toNat_toUInt16,
    UInt16.toNat_shiftLeft]
  have eight : (8 : UInt16).toNat % 16 = 8 := rfl
  rw [eight, Nat.mod_eq_of_lt (show (config (offset + 1)).toNat <<< 8 < 2 ^ 16 by omega), joined]
  omega

variable {i : Nat}

theorem pciSetByte_outside {val : UInt8} (outside : i < offset ∨ offset + 1 ≤ i) :
    pciSetByte config offset val i = config i := Bytes.store_outside outside

theorem pciSetWord_outside {val : UInt16} (outside : i < offset ∨ offset + 2 ≤ i) :
    pciSetWord config offset val i = config i := Bytes.store_outside outside

theorem pciSetLong_outside {val : UInt32} (outside : i < offset ∨ offset + 4 ≤ i) :
    pciSetLong config offset val i = config i := Bytes.store_outside outside

theorem pciSetQuad_outside {val : UInt64} (outside : i < offset ∨ offset + 8 ≤ i) :
    pciSetQuad config offset val i = config i := Bytes.store_outside outside

end Frames

end QemuGzvm.Pci
