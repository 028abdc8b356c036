import Arm64Emu.Virtio

/-! The console device (`virtio_console.c`). Queue 0 receives, queue 1 transmits. -/
namespace Arm64Emu

open DevProg

def rxFifoSize : ℕ := 1024

/-- The size of the terminal and the keystrokes that wait for buffers of the guest. -/
structure Console where
  cols : U16
  rows : U16
  rxFifo : ℕ → U8
  rxHead : ℕ
  rxTail : ℕ
  sizeSynced : Bool
  head_lt : rxHead < rxFifoSize
  tail_lt : rxTail < rxFifoSize

def Console.initial : Console := ⟨0, 0, fun _ => 0, 0, 0, false, by decide, by decide⟩

/-- The calls of the host terminal; `activate` makes its input follow this console. -/
inductive ConCall
  | getWinsize
  | takeWinch
  | getchar
  | write (chunk : Bytes)
  | activate
  deriving DecidableEq, Repr

def ConCall.Reply : ConCall → Type
  | getWinsize => U16 × U16
  | takeWinch => Bool
  | getchar => Option U8
  | _ => Unit

abbrev ConProg (α : Type) : Type := DevProg Console ConCall.Reply α

namespace ConProg

def ttyGetWinsize : ConProg (U16 × U16) := host ConCall.getWinsize

def ttyTakeWinch : ConProg Bool := host ConCall.takeWinch

def ttyGetchar : ConProg (Option U8) := host ConCall.getchar

def ttyWrite (chunk : Bytes) : ConProg Unit := host (ConCall.write chunk)

def activate : ConProg Unit := host ConCall.activate

end ConProg

def conQueueRx : Fin 2 := queue0

def conQueueTx : Fin 2 := queue1

def rxFifoEmpty (c : Console) : Bool := c.rxHead = c.rxTail

def rxFifoFull (c : Console) : Bool := (c.rxTail + 1) % rxFifoSize = c.rxHead

def rxFifoPush (c : Console) (ch : U8) : Console :=
  if rxFifoFull c then c
  else { c with
    rxFifo := Function.update c.rxFifo c.rxTail ch
    rxTail := (c.rxTail + 1) % rxFifoSize
    tail_lt := Nat.mod_lt _ (by decide) }

/-- The ring after its first `n` bytes have been delivered. -/
def rxFifoDrop (c : Console) (n : ℕ) : Console :=
  { c with rxHead := (c.rxHead + n) % rxFifoSize, head_lt := Nat.mod_lt _ (by decide) }

def rxFifoClear (c : Console) : Console :=
  { c with rxHead := 0, rxTail := 0, sizeSynced := false, head_lt := by decide, tail_lt := by decide }

def rxFifoRun (c : Console) : ℕ := if c.rxHead ≤ c.rxTail then c.rxTail - c.rxHead else rxFifoSize - c.rxHead

def conUpdateWinsize : ConProg Bool := do
  let (cols, rows) ← ConProg.ttyGetWinsize
  let v ← getDev
  if cols = v.back.cols ∧ rows = v.back.rows then return false
  else
    putDev { v with back.cols := cols, back.rows := rows }
    return true

def conReset : ConProg Unit := do
  modifyDev fun v => .cleared (rxFifoClear v.back)
  let _ ← conUpdateWinsize
  setLine false

/-- `vcon_driver_ok`: the driver is initialised and has its receive queue ready. -/
def vconDriverOk (v : Virtio Console) : Bool := v.status &&& 4 ≠ 0 ∧ (v.q conQueueRx).ready ≠ 0

def conSyncSize : ConProg Unit := do
  let v ← getDev
  if v.back.sizeSynced ∨ ¬ vconDriverOk v then return ()
  else
    putDev { v with back.sizeSynced := true }
    let _ ← conUpdateWinsize
    raise 2

/-- The loop that copies runs of the ring into one descriptor; `off` bytes of it are
filled. Every round takes a byte at least, so the size of the ring bounds the rounds. -/
def conRxCopy (d : Desc) : ℕ → (off written : U32) → ConProg U32
  | 0, _, written => return written
  | k + 1, off, written => do
    let v ← getDev
    if off < d.len ∧ rxFifoEmpty v.back = false then
      let run := BitVec.ofNat 32 (rxFifoRun v.back)
      let c := if run < d.len - off then run else d.len - off
      writeBlk (d.addr + off.setWidth 64) (bytesAt v.back.rxFifo v.back.rxHead c.toNat)
      modifyDev fun v => { v with back := rxFifoDrop v.back c.toNat }
      conRxCopy d k (off + c) (written + c)
    else return written

def conRxBody (d : Desc) (written : U32) : ConProg U32 := do
  if d.isWrite then conRxCopy d rxFifoSize 0 written else return written

def conRxRound : ConProg Unit := do
  let n := queueNum conQueueRx (← getDev)
  let hd ← nextHead conQueueRx
  advance conQueueRx
  let written ← DevProg.walk conQueueRx (fun _ => true) (return rxFifoEmpty (← getDev).back) conRxBody n (hd.setWidth 32) 0
  DevProg.pushUsed conQueueRx (hd.setWidth 32) written

def conPending (v : Virtio Console) : Bool := !rxFifoEmpty v.back

def conFlushRx (rounds : ℕ) : ConProg Unit := flush rounds conQueueRx conRxRound conPending

/-- The loop that writes one descriptor to the terminal, of which `off` bytes are written. -/
def conTxCopy (d : Desc) : ℕ → (off : U32) → ConProg Unit
  | 0, _ => return ()
  | k + 1, off => do
    if off < d.len then
      let c := if 512 < d.len - off then 512 else d.len - off
      ConProg.ttyWrite (← readBlk (d.addr + off.setWidth 64) c.toNat)
      conTxCopy d k (off + c)
    else return ()

def conTxBody (d : Desc) (_ : Unit) : ConProg Unit := conTxCopy d d.len.toNat 0

def conTxRound : ConProg Unit := do
  let n := queueNum conQueueTx (← getDev)
  let hd ← nextHead conQueueTx
  advance conQueueTx
  DevProg.walk conQueueTx (fun _ => true) (return false) conTxBody n (hd.setWidth 32) ()
  DevProg.pushUsed conQueueTx (hd.setWidth 32) 0

def conTxProcess (rounds : ℕ) : ConProg Unit :=
  process rounds conQueueTx conTxRound do
    ConProg.activate
    raise 1

def conPull : ℕ → ConProg Unit
  | 0 => return ()
  | k + 1 => do
    let v ← getDev
    if rxFifoFull v.back then return ()
    else
      match ← ConProg.ttyGetchar with
      | none => return ()
      | some ch =>
        modifyDev fun v => { v with back := rxFifoPush v.back ch }
        conPull k

/-- Called from `machine_tick`. -/
def virtioConsolePoll (rounds : ℕ) : ConProg Unit := do
  conSyncSize
  if ← ConProg.ttyTakeWinch then
    if ← conUpdateWinsize then raise 2
  conPull rxFifoSize
  conFlushRx rounds

def conConfig (c : Console) : Bytes :=
  [c.cols.setWidth 8, (c.cols >>> 8).setWidth 8, c.rows.setWidth 8, (c.rows >>> 8).setWidth 8, 1, 0, 0, 0, 0, 0, 0, 0]

def conFeatures (_c : Console) : U64 := (1 <<< 32) ||| 1

def conNotify (rounds : ℕ) (n : U32) : ConProg Unit := do
  if n = 1 then conTxProcess rounds
  else if n = 0 then
    conFlushRx rounds
    conSyncSize

def conKind (rounds : ℕ) : VirtioKind Console ConCall.Reply where
  deviceId := 3
  features := conFeatures
  config := conConfig
  queues := 2
  select := twoQueues
  reset := conReset
  notify := conNotify rounds

def conRead (v : Virtio Console) (off : U64) (size : ℕ) : U64 := virtioRead (conKind 0) v off size

def conWrite (rounds : ℕ) (off val : U64) : ConProg Unit := virtioWrite (conKind rounds) off val

end Arm64Emu
