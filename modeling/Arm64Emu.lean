import Arm64Emu.Aes
import Arm64Emu.AtProbe
import Arm64Emu.CarryLess
import Arm64Emu.Crc32
import Arm64Emu.DiskLaws
import Arm64Emu.Exceptions
import Arm64Emu.FlashLaws
import Arm64Emu.FwDirectory
import Arm64Emu.GicAck
import Arm64Emu.JitContext
import Arm64Emu.JitEdges
import Arm64Emu.JitKeys
import Arm64Emu.JitProtect
import Arm64Emu.Levels
import Arm64Emu.Monitor
import Arm64Emu.MultiWord
import Arm64Emu.NetOptions
import Arm64Emu.NetReceive
import Arm64Emu.NetUdp
import Arm64Emu.P9Payload
import Arm64Emu.P9Renames
import Arm64Emu.Packets
import Arm64Emu.PdLoadStore
import Arm64Emu.Permute
import Arm64Emu.PrimeCellLaws
import Arm64Emu.Sha256
import Arm64Emu.ShiftKernels
import Arm64Emu.TcpLaws
import Arm64Emu.TcpTable
import Arm64Emu.VirtioLines
import Arm64Emu.Wfi
