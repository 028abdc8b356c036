import Arm64Emu.Decode

/-! The stateless devices that `platform_build` registers for the parts of the
board that are probed but not emulated. -/
namespace Arm64Emu

variable {D : Type}

def stubZeroRead (b : Bus D) (_off : U64) (_size : ℕ) : U64 × Bus D := (0, b)

def stubOnesRead (b : Bus D) (_off : U64) (size : ℕ) : U64 × Bus D :=
  (if 8 ≤ size then ~~~0 else ((1 : U64) <<< (size * 8)) - 1, b)

def stubWrite (b : Bus D) (_off : U64) (_size : ℕ) (_v : U64) : Bus D := b

/-- An empty virtio-mmio transport. The size of the access is ignored. -/
def virtioMmioRead (b : Bus D) (off : U64) (_size : ℕ) : U64 × Bus D :=
  match (off &&& 0x1ff).toNat with
  | 0x000 => (0x74726976, b)
  | 0x004 => (1, b)
  | 0x008 => (0, b)
  | 0x00c => (0x554d4551, b)
  | _ => (0, b)

def stubDevice (read : Bus D → U64 → ℕ → U64 × Bus D) (base size : U64) : MmioDev D :=
  ⟨base, size, some read, some stubWrite⟩

/-- The stubs of a board without network, disks, shares or virtio console. -/
def absentDevices : List (MmioDev D) :=
  [stubDevice stubZeroRead 0x08020000 0x1000,
   stubDevice stubZeroRead 0x09030000 0x1000,
   stubDevice virtioMmioRead 0x0a000000 0x200,
   stubDevice virtioMmioRead 0x0a000200 0x200,
   stubDevice virtioMmioRead 0x0a000400 0x3c00,
   stubDevice stubOnesRead 0x3eff0000 0x10000,
   stubDevice stubOnesRead 0x10000000 0x2eff0000,
   stubDevice stubOnesRead 0x4010000000 0x10000000]

def Platform.virt (ramSize : U64) : Platform Unit :=
  { Platform.bare ramSize with devs := absentDevices }

end Arm64Emu
