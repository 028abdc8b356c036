import Arm64Emu.VirtioBlk
import Arm64Emu.VirtioConsole
import Arm64Emu.VirtioFs
import Arm64Emu.VirtioNet

/-! How the virtio devices drive their interrupt lines: whenever a device accesses the bus
or is done, its line is high just if a cause is noted in its status. -/
namespace Arm64Emu

open Dialogue DevProg

/-- What a device knows of its interrupt status and of its line. An access to the bus may
come back to its registers, after which it knows neither. -/
abbrev SignalView : Type := Option (U32 × Bool)

def Settled : SignalView → Prop
  | none => True
  | some (isr, line) => line = true ↔ isr ≠ 0

section Protocol
variable {B H : Type} (R : H → Type)

def signalProtocol : Protocol (DevCall.Reply (B := B) R) SignalView where
  allowed g c :=
    match c with
    | .get | .advance _ | .host _ => True
    | .put _ | .line _ => g.isSome
    | _ => Settled g
  answers g c r :=
    match c, r with
    | .get, v => ∀ s ∈ g, v.isr = s.1
    | _, _ => True
  next g c r :=
    match c, r with
    | .get, v => some (g.getD (v.isr, decide (v.isr ≠ 0)))
    | .put v, _ => g.map fun s => (v.isr, s.2)
    | .line level, _ => g.map fun s => (s.1, level)
    | .advance _, _ | .host _, _ => g
    | _, _ => none

end Protocol

section Rules
variable {B H α β : Type} {R : H → Type}

/-- A program that is started and ends with the line as the status has it. -/
def Signals (p : DevProg B R α) : Prop := ∀ g, Settled g → p.Meets (signalProtocol R) g fun g' _ => Settled g'

/-- A part of a program at which the registers are known to be `v`. -/
def SignalsAt (v : Virtio B) (p : DevProg B R α) : Prop :=
  p.Meets (signalProtocol R) (some (v.isr, decide (v.isr ≠ 0))) fun g' _ => Settled g'

lemma settled_some {isr : U32} {line : Bool} (h : Settled (some (isr, line))) : line = decide (isr ≠ 0) :=
  Bool.eq_iff_iff.2 (h.trans decide_eq_true_iff.symm)

lemma settled_decide (isr : U32) : Settled (some (isr, decide (isr ≠ 0))) := decide_eq_true_iff

lemma Signals.at {p : DevProg B R α} (h : Signals p) (v : Virtio B) : SignalsAt v p := h _ (settled_decide v.isr)

lemma signal_getDev {g : SignalView} {Q : SignalView → Virtio B → Prop}
    (h : ∀ v, (∀ s ∈ g, v.isr = s.1) → Q (some (g.getD (v.isr, decide (v.isr ≠ 0)))) v) :
    (getDev : DevProg B R _).Meets (signalProtocol R) g Q := (meets_ask _).2 ⟨trivial, h⟩

lemma signal_putDev {v : Virtio B} {s : U32 × Bool} {Q : SignalView → Unit → Prop} (h : Q (some (v.isr, s.2)) ()) :
    (putDev v : DevProg B R _).Meets (signalProtocol R) (some s) Q := (meets_ask _).2 ⟨rfl, fun _ _ => h⟩

lemma signal_setLine {level : Bool} {s : U32 × Bool} {Q : SignalView → Unit → Prop} (h : Q (some (s.1, level)) ()) :
    (setLine level : DevProg B R _).Meets (signalProtocol R) (some s) Q := (meets_ask _).2 ⟨rfl, fun _ _ => h⟩

lemma signal_modifyDev {f : Virtio B → Virtio B} {g : SignalView} {Q : SignalView → Unit → Prop}
    (h : ∀ v, (∀ s ∈ g, v.isr = s.1) → Q (some ((f v).isr, (g.getD (v.isr, decide (v.isr ≠ 0))).2)) ()) :
    (modifyDev f : DevProg B R _).Meets (signalProtocol R) g Q := by
  rw [modifyDev, meets_monad_bind]
  exact signal_getDev fun v hv => signal_putDev (h v hv)

namespace Signals

lemma ret (a : α) : Signals (.ret a : DevProg B R α) := fun _ hg => (meets_ret a).2 hg

lemma bind {p : DevProg B R α} {f : α → DevProg B R β} (hp : Signals p) (hf : ∀ a, Signals (f a)) : Signals (p >>= f) :=
  fun g hg => (meets_monad_bind _ _).2 ((hp g hg).mono fun g' a hg' => hf a g' hg')

lemma ite {c : Prop} [Decidable c] {p q : DevProg B R α} (hp : Signals p) (hq : Signals q) :
    Signals (if c then p else q) := by
  split
  · exact hp
  · exact hq

lemma getDev_bind {f : Virtio B → DevProg B R β} (h : ∀ v, SignalsAt v (f v)) : Signals (getDev >>= f) := by
  intro g hg
  rw [meets_monad_bind]
  refine signal_getDev fun v hv => ?_
  have hview : g.getD (v.isr, decide (v.isr ≠ 0)) = (v.isr, decide (v.isr ≠ 0)) := by
    cases g with
    | none => rfl
    | some s =>
      obtain ⟨isr, line⟩ := s
      have hisr : v.isr = isr := hv _ rfl
      rw [Option.getD_some, settled_some hg, hisr]
  rw [hview]
  exact h v

lemma getDev_then {f : Virtio B → DevProg B R β} (h : ∀ v, Signals (f v)) : Signals (getDev >>= f) :=
  getDev_bind fun v => (h v).at v

end Signals

lemma SignalsAt.put {v v' : Virtio B} {f : Unit → DevProg B R β} (hisr : v'.isr = v.isr) (h : Signals (f ())) :
    SignalsAt v (putDev v' >>= f) := by
  rw [SignalsAt, meets_monad_bind]
  exact signal_putDev (by rw [hisr]; exact h.at v)

namespace Signals

lemma ask {c : DevCall B H} (hc : ∀ g, Settled g → (signalProtocol R).allowed g c)
    (hn : ∀ g r, Settled g → Settled ((signalProtocol R).next g c r)) : Signals (.call c .ret : DevProg B R _) :=
  fun g hg => (meets_ask c).2 ⟨hc g hg, fun r _ => hn g r hg⟩

variable {i : Fin 2}

lemma availIdx : Signals (availIdx i : DevProg B R _) := ask (fun _ hg => hg) fun _ _ _ => trivial

lemma nextHead : Signals (nextHead i : DevProg B R _) := ask (fun _ hg => hg) fun _ _ _ => trivial

lemma desc {idx : U32} : Signals (desc i idx : DevProg B R _) := ask (fun _ hg => hg) fun _ _ _ => trivial

lemma pushUsed {id len : U32} : Signals (DevProg.pushUsed i id len : DevProg B R _) :=
  ask (fun _ hg => hg) fun _ _ _ => trivial

lemma read {pa : U64} {n : ℕ} : Signals (DevProg.read pa n : DevProg B R _) := ask (fun _ hg => hg) fun _ _ _ => trivial

lemma readBlk {pa : U64} {n : ℕ} : Signals (readBlk pa n : DevProg B R _) := ask (fun _ hg => hg) fun _ _ _ => trivial

lemma write {pa : U64} {n : ℕ} {x : U64} : Signals (DevProg.write pa n x : DevProg B R _) :=
  ask (fun _ hg => hg) fun _ _ _ => trivial

lemma writeBlk {pa : U64} {src : Bytes} : Signals (writeBlk pa src : DevProg B R _) :=
  ask (fun _ hg => hg) fun _ _ _ => trivial

lemma advance : Signals (advance i : DevProg B R _) := ask (fun _ _ => trivial) fun _ _ hg => hg

lemma host {h : H} : Signals (host h : DevProg B R _) := ask (fun _ _ => trivial) fun _ _ hg => hg

lemma lift (p : Dialogue R α) : Signals (lift p : DevProg B R α) := by
  induction p with
  | ret a => exact ret a
  | call c k ih => exact fun g hg => (meets_call _ _).2 ⟨trivial, fun r _ => ih r g hg⟩

lemma modifyDev {f : Virtio B → Virtio B} (hf : ∀ v, (f v).isr = v.isr) : Signals (modifyDev f : DevProg B R _) :=
  getDev_bind fun v => by
    rw [SignalsAt]
    exact signal_putDev (by rw [hf]; exact settled_decide _)

lemma raise {cause : U32} (hcause : cause ≠ 0) : Signals (raise cause : DevProg B R _) := by
  intro g _
  rw [DevProg.raise, meets_monad_bind]
  refine signal_modifyDev fun v _ => signal_setLine (iff_of_true rfl fun h => hcause ?_)
  exact (BitVec.or_eq_zero_iff.1 h).2

lemma acknowledge (mask : U32) : Signals (do
    DevProg.modifyDev fun v => { v with isr := v.isr &&& ~~~mask }
    if (← getDev).isr = 0 then setLine false : DevProg B R Unit) := by
  intro g hg
  rw [meets_monad_bind]
  refine signal_modifyDev fun v hv => ?_
  have hline : (g.getD (v.isr, decide (v.isr ≠ 0))).2 = decide (v.isr ≠ 0) := by
    cases g with
    | none => rfl
    | some s => exact (settled_some hg).trans (by rw [hv s rfl])
  rw [hline, meets_monad_bind]
  refine signal_getDev fun v' hv' => ?_
  have hisr : v'.isr = v.isr &&& ~~~mask := hv' _ rfl
  rw [Option.getD_some]
  split
  · rename_i hzero
    exact signal_setLine (iff_of_false Bool.false_ne_true fun hne => hne (hisr.symm.trans hzero))
  · rename_i hne
    refine (meets_ret _).2 (iff_of_true (decide_eq_true fun hzero => hne ?_) fun h => hne (hisr.trans h))
    rw [hisr, hzero]
    exact BitVec.zero_and

section Rings
variable {rounds : ℕ} {round finish : DevProg B R Unit} {pending : Virtio B → Bool}

lemma drain (hround : Signals round) (idx : U16) (k : ℕ) (did : Bool) :
    Signals (DevProg.drain i round idx k did) := by
  induction k generalizing did with
  | zero => exact ret did
  | succ k ih => exact getDev_then fun v => ite (ret did) (hround.bind fun _ => ih true)

lemma process (hround : Signals round) (hfinish : Signals finish) :
    Signals (DevProg.process rounds i round finish) :=
  getDev_then fun _ => ite (ret ()) (availIdx.bind fun idx => (drain hround idx rounds false).bind fun _ => ite hfinish (ret ()))

lemma fill (hround : Signals round) (k : ℕ) (did : Bool) : Signals (DevProg.fill i round pending k did) := by
  induction k generalizing did with
  | zero => exact ret did
  | succ k ih =>
    exact getDev_then fun _ => ite (availIdx.bind fun _ => getDev_then fun _ =>
      ite (ret did) (hround.bind fun _ => ih true)) (ret did)

lemma flush (hround : Signals round) : Signals (DevProg.flush rounds i round pending) :=
  getDev_then fun _ => ite (ret ()) ((fill hround rounds false).bind fun _ => ite (raise (by decide)) (ret ()))

end Rings

lemma collect (k n : ℕ) (idx : U32) : Signals (DevProg.collect i k n idx : DevProg B R _) := by
  induction k generalizing n idx with
  | zero => exact ret []
  | succ k ih =>
    exact getDev_then fun _ => ite (ret []) (desc.bind fun d => ite ((ih _ _).bind fun _ => ret _) (ret _))

lemma walk {σ : Type} {more : σ → Bool} {stop : DevProg B R Bool} {body : Desc → σ → DevProg B R σ} (hstop : Signals stop)
    (hbody : ∀ d s, Signals (body d s)) (n : ℕ) (idx : U32) (s : σ) : Signals (DevProg.walk i more stop body n idx s) := by
  induction n generalizing idx s with
  | zero => exact ret s
  | succ n ih =>
    exact ite (desc.bind fun d => (hbody d s).bind fun _ => ite (hstop.bind fun _ => ite (ret _) (ih _ _)) (ret _)) (ret s)

end Signals

lemma signal_lift (p : Dialogue R α) (g : SignalView) :
    (lift p : DevProg B R α).Meets (signalProtocol R) g fun g' _ => g' = g := by
  induction p with
  | ret a => exact (meets_ret a).2 rfl
  | call c k ih => exact (meets_call _ _).2 ⟨trivial, fun r _ => ih r⟩

lemma virtioWrite_signals {K : VirtioKind B R} (hreset : Signals K.reset) (hnotify : ∀ n, Signals (K.notify n))
    (off val : U64) : Signals (virtioWrite K off val) := by
  have hqueue (f : Virtq → Virtq) (v : Virtio B) : (v.setQueue K f).isr = v.isr := by
    unfold Virtio.setQueue
    split <;> rfl
  unfold virtioWrite
  cases VirtioReg.ofOffset off with
  | none => exact .ret ()
  | some reg =>
    cases reg with
    | queueNotify => exact hnotify _
    | interruptAck => exact .acknowledge _
    | status => exact .ite hreset (.modifyDev fun _ => rfl)
    | deviceFeaturesSel => exact .modifyDev fun _ => rfl
    | driverFeatures => exact .modifyDev fun _ => rfl
    | driverFeaturesSel => exact .modifyDev fun _ => rfl
    | queueSel => exact .modifyDev fun _ => rfl
    | queueNum => exact .modifyDev (hqueue _)
    | queueReady => exact .modifyDev (hqueue _)
    | queueDescLow => exact .modifyDev (hqueue _)
    | queueDescHigh => exact .modifyDev (hqueue _)
    | queueDriverLow => exact .modifyDev (hqueue _)
    | queueDriverHigh => exact .modifyDev (hqueue _)
    | queueDeviceLow => exact .modifyDev (hqueue _)
    | queueDeviceHigh => exact .modifyDev (hqueue _)
    | _ => exact .ret ()

end Rules

section Disk

lemma blkChunks_signals {step : U64 → U32 → Transfer → BlkProg (Option Transfer)} (hstep : ∀ gpa n t, Signals (step gpa n t))
    (k : ℕ) (gpa : U64) (rem : U32) (t : Transfer) : Signals (blkChunks step k gpa rem t) := by
  induction k generalizing gpa rem t with
  | zero => exact .ret _
  | succ k ih =>
    refine .ite (.ret _) ((hstep _ _ _).bind fun o => ?_)
    cases o with
    | none => exact .ret _
    | some t => exact ih _ _ _

lemma blkTransfer_signals {step : U64 → U32 → Transfer → BlkProg (Option Transfer)}
    (hstep : ∀ gpa n t, Signals (step gpa n t)) (sector : U64) (data : List Desc) (t : Transfer) :
    Signals (blkTransfer step sector data t) := by
  refine .getDev_then fun _ => .ite (.ret _) ?_
  induction data generalizing t with
  | nil => exact .ret _
  | cons d data ih => exact (blkChunks_signals hstep _ _ _ _).bind fun r => .ite (.ret _) (ih _)

lemma readChunk_signals (gpa : U64) (n : U32) (t : Transfer) : Signals (readChunk gpa n t) :=
  .bind .host fun (o : Option Bytes) =>
    match o with
    | none => .ret _
    | some _ => .bind .writeBlk fun _ => .ret _

lemma writeChunk_signals (gpa : U64) (n : U32) (t : Transfer) : Signals (writeChunk gpa n t) :=
  .bind .readBlk fun _ => .bind .host fun _ => .ret _

lemma blkServe_signals (type : Option BlkType) (sector : U64) (data : List Desc) (t : Transfer) :
    Signals (blkServe type sector data t) := by
  refine .getDev_then fun v => ?_
  cases type with
  | none => exact .ret _
  | some type =>
    cases type with
    | write => exact .ite (.ret _) (blkTransfer_signals writeChunk_signals _ _ _)
    | read => exact blkTransfer_signals readChunk_signals _ _ _
    | getId =>
      cases data with
      | nil => exact .ret _
      | cons d data => exact .bind .writeBlk fun _ => .ret _
    | flush => exact .bind .host fun _ => .ret _

lemma blkRequest_signals (head : U32) : Signals (blkRequest head) := by
  refine .bind (.collect _ _ _) fun ds => ?_
  cases blkParts ds with
  | none => exact .ret _
  | some parts =>
    exact .bind .read fun _ => .bind .read fun _ => .bind (blkServe_signals _ _ _ _) fun _ =>
      .bind .write fun _ => .pushUsed

lemma blkWrite_signals (rounds : ℕ) (off val : U64) : Signals (blkWrite rounds off val) := by
  refine virtioWrite_signals ?_ (fun n => .ite (.process ?_ (.raise (by decide))) (.ret ())) off val
  · intro g _
    exact (meets_monad_bind _ _).2 (signal_modifyDev fun _ _ => signal_setLine (by simp [Settled, Virtio.cleared]))
  · exact .bind .nextHead fun _ => (blkRequest_signals _).bind fun _ => .advance

end Disk

section Network

lemma netDeliver_signals (frames : List Bytes) : Signals (netDeliver frames) := .modifyDev fun _ => rfl

lemma netRxRound_signals : Signals netRxRound := by
  refine .getDev_then fun _ => .bind .nextHead fun hd => .bind .advance fun _ => .getDev_bind fun v => .put rfl ?_
  refine .bind (.walk (.ret _) (fun d w => ?_) _ _ _) fun _ => .pushUsed
  exact .ite (.getDev_then fun _ => .bind .writeBlk fun _ => .ret _) (.ret _)

lemma netTxRound_signals : Signals netTxRound := by
  refine .getDev_then fun _ => .bind .nextHead fun hd => .bind .advance fun _ => ?_
  refine .bind (.walk (.ret _) (fun d p => .bind .readBlk fun _ => .ret _) _ _ _) fun p => ?_
  exact .ite (.bind .host fun _ => .bind (netDeliver_signals _) fun _ => .pushUsed) .pushUsed

lemma netWrite_signals (rounds : ℕ) (off val : U64) : Signals (netWrite rounds off val) := by
  refine virtioWrite_signals ?_ (fun n => ?_) off val
  · refine .bind .host fun _ g _ => ?_
    exact (meets_monad_bind _ _).2 (signal_modifyDev fun _ _ => signal_setLine (by simp [Settled, Virtio.cleared]))
  · exact .ite (.process netTxRound_signals (.raise (by decide))) (.ite (.flush netRxRound_signals) (.ret ()))

lemma virtioNetPoll_signals (rounds : ℕ) : Signals (virtioNetPoll rounds) :=
  .bind .host fun _ => .bind (netDeliver_signals _) fun _ => .flush netRxRound_signals

end Network

section Terminal

lemma conUpdateWinsize_signals : Signals conUpdateWinsize :=
  .bind .host fun _ => .getDev_bind fun v => by
    dsimp only
    split
    · exact (Signals.ret _).at v
    · exact .put rfl (.ret _)

lemma conSyncSize_signals : Signals conSyncSize :=
  .getDev_bind fun v => by
    dsimp only
    split
    · exact (Signals.ret _).at v
    · exact .put rfl (conUpdateWinsize_signals.bind fun _ => .raise (by decide))

lemma conRxCopy_signals (d : Desc) (k : ℕ) (off written : U32) : Signals (conRxCopy d k off written) := by
  induction k generalizing off written with
  | zero => exact .ret _
  | succ k ih =>
    exact .getDev_then fun _ => .ite (.bind .writeBlk fun _ => .bind (.modifyDev fun _ => rfl) fun _ => ih _ _) (.ret _)

lemma conTxCopy_signals (d : Desc) (k : ℕ) (off : U32) : Signals (conTxCopy d k off) := by
  induction k generalizing off with
  | zero => exact .ret _
  | succ k ih => exact .ite (.bind .readBlk fun _ => .bind .host fun _ => ih _) (.ret _)

lemma conFlushRx_signals (rounds : ℕ) : Signals (conFlushRx rounds) := by
  refine .flush (.getDev_then fun _ => .bind .nextHead fun hd => .bind .advance fun _ => ?_)
  refine .bind (.walk (.getDev_then fun _ => .ret _) (fun d w => ?_) _ _ _) fun _ => .pushUsed
  exact .ite (conRxCopy_signals _ _ _ _) (.ret _)

lemma conTxRound_signals : Signals conTxRound :=
  .getDev_then fun _ => .bind .nextHead fun _ => .bind .advance fun _ =>
    .bind (.walk (.ret _) (fun _ _ => conTxCopy_signals _ _ _) _ _ _) fun _ => .pushUsed

lemma conReset_signals : Signals conReset := by
  intro g _
  rw [conReset, meets_monad_bind]
  refine signal_modifyDev fun v _ => ?_
  rw [meets_monad_bind]
  -- the size is asked for between clearing the status and lowering the line
  have hsize (line : Bool) : conUpdateWinsize.Meets (signalProtocol ConCall.Reply) (some (0, line))
      fun g' _ => g' = some (0, line) := by
    rw [conUpdateWinsize, meets_monad_bind]
    refine (meets_ask _).2 ⟨trivial, fun (size : U16 × U16) _ => ?_⟩
    obtain ⟨cols, rows⟩ := size
    refine (meets_monad_bind _ _).2 (signal_getDev fun v hv => ?_)
    split
    · exact (meets_ret _).2 rfl
    · exact (meets_monad_bind _ _).2 (signal_putDev ((meets_ret _).2 (by rw [hv _ rfl]; rfl)))
  refine (hsize _).mono ?_
  rintro _ _ rfl
  exact signal_setLine (by simp [Settled])

lemma conWrite_signals (rounds : ℕ) (off val : U64) : Signals (conWrite rounds off val) := by
  refine virtioWrite_signals conReset_signals (fun n => ?_) off val
  refine .ite (.process conTxRound_signals (.bind .host fun _ => .raise (by decide))) (.ite ?_ (.ret ()))
  exact .bind (conFlushRx_signals _) fun _ => conSyncSize_signals

lemma conPull_signals (k : ℕ) : Signals (conPull k) := by
  induction k with
  | zero => exact .ret ()
  | succ k ih =>
    refine .getDev_then fun _ => .ite (.ret _) (.bind .host fun (o : Option U8) => ?_)
    cases o with
    | none => exact .ret _
    | some ch => exact .bind (.modifyDev fun _ => rfl) fun _ => ih

lemma virtioConsolePoll_signals (rounds : ℕ) : Signals (virtioConsolePoll rounds) := by
  refine conSyncSize_signals.bind fun _ => .bind .host fun (winch : Bool) => ?_
  have hrest : Signals (conPull rxFifoSize >>= fun _ => conFlushRx rounds) :=
    (conPull_signals _).bind fun _ => conFlushRx_signals _
  exact .ite (conUpdateWinsize_signals.bind fun _ => .ite (.bind (.raise (by decide)) fun _ => hrest) hrest) hrest

end Terminal

section Shares

lemma fsGather_signals (ds : List Desc) (reqlen : U32) : Signals (fsGather ds reqlen) := by
  induction ds generalizing reqlen with
  | nil => exact .ret _
  | cons d ds ih => exact .ite (.bind .readBlk fun _ => .bind (.modifyDev fun _ => rfl) fun _ => ih _) (.ret _)

lemma fsScatter_signals (resplen : U32) (ds : List Desc) (off : U32) : Signals (fsScatter resplen ds off) := by
  induction ds generalizing off with
  | nil => exact .ret _
  | cons d ds ih => exact .ite (.getDev_then fun _ => .bind .writeBlk fun _ => ih _) (.ret _)

lemma fsHandle_signals (head : U32) : Signals (fsHandle head) := by
  refine .bind (.collect _ _ _) fun ds => .bind (fsGather_signals _ _) fun reqlen => .bind ?_ fun _ =>
    .bind (fsScatter_signals _ _ _) fun _ => .pushUsed
  exact .getDev_then fun _ => .bind (.lift _) fun _ => .bind (.modifyDev fun _ => rfl) fun _ => .ret _

lemma fsClear_signals : Signals fsClear := by
  intro g _
  rw [fsClear, meets_monad_bind]
  refine signal_modifyDev fun v _ => ?_
  rw [meets_monad_bind]
  refine signal_getDev fun v' _ => ?_
  rw [meets_monad_bind]
  refine (signal_lift _ _).mono ?_
  rintro _ p9 rfl
  rw [meets_monad_bind]
  refine signal_modifyDev fun v'' hv'' => signal_setLine ?_
  have hisr : v''.isr = 0 := hv'' _ rfl
  simp [Settled, hisr]

lemma fsWrite_signals (rounds : ℕ) (off val : U64) : Signals (fsWrite rounds off val) :=
  virtioWrite_signals fsClear_signals (fun _ => .ite (.process
    (.bind .nextHead fun _ => (fsHandle_signals _).bind fun _ => .advance) (.raise (by decide))) (.ret ())) off val

end Shares

end Arm64Emu
