import Arm64Emu.VirtioBoard

/-! Devices that receive for the guest: queue 0 takes one chain of descriptors after the
other, stores into it and hands it over. The registers of the device change by its own
program only; rings, descriptors and buffers hold anything. -/
namespace Arm64Emu

open Dialogue DevProg

/-- A chain that was given back to the guest: the size of the queue, the descriptors read
for it, by index, the stores, and the element put into the used ring. -/
structure Handover where
  size : ℕ
  chain : List (U32 × Desc)
  stores : List (U64 × Bytes)
  id : U32
  len : U32
  deriving DecidableEq, Repr

/-- What happens to a receiver: the host has something for the guest, or the guest gets a
chain back. -/
inductive RxEvent (X : Type)
  | came (x : X)
  | handed (h : Handover)
  deriving DecidableEq, Repr

/-- The registers, the events so far, and the chain that is being filled. -/
structure Receiving (B X : Type) where
  dev : Virtio B
  events : List (RxEvent X)
  chain : List (U32 × Desc)
  stores : List (U64 × Bytes)

lemma toNat_lesser (x y : U32) : (if x < y then x else y).toNat = min x.toNat y.toNat := by
  split
  · next h => exact (min_eq_left (Nat.le_of_lt h)).symm
  · next h => exact (min_eq_right (BitVec.not_lt.1 h)).symm

section Contents

/-- Consecutive descriptors of a chain that starts at `idx`. -/
def Linked : U32 → List (U32 × Desc) → Prop
  | _, [] => True
  | idx, e :: es => e.1 = idx ∧ (es = [] ∨ e.2.hasNext = true) ∧ Linked (e.2.next.setWidth 32) es

/-- Data over descriptors: each writable one takes what it has room for. -/
def spread : List Desc → Bytes → List (U64 × Bytes)
  | [], _ => []
  | d :: ds, data =>
    if d.isWrite then (d.addr, data.take d.len.toNat) :: spread ds (data.drop d.len.toNat) else spread ds data

def storedBytes (ws : List (U64 × Bytes)) : Bytes := ws.flatMap Prod.snd

def room (ds : List Desc) : ℕ := ((ds.filter Desc.isWrite).map fun d => d.len.toNat).sum

@[simp] lemma storedBytes_nil : storedBytes [] = [] := rfl

@[simp] lemma storedBytes_cons (w : U64 × Bytes) (ws : List (U64 × Bytes)) :
    storedBytes (w :: ws) = w.2 ++ storedBytes ws := by simp [storedBytes]

@[simp] lemma storedBytes_append (ws ws' : List (U64 × Bytes)) :
    storedBytes (ws ++ ws') = storedBytes ws ++ storedBytes ws' := by simp [storedBytes]

@[simp] lemma room_nil : room [] = 0 := rfl

lemma room_cons (d : Desc) (ds : List Desc) : room (d :: ds) = (if d.isWrite then d.len.toNat else 0) + room ds := by
  unfold room
  cases h : d.isWrite <;> simp [h]

lemma storedBytes_spread (ds : List Desc) (data : Bytes) : storedBytes (spread ds data) = data.take (room ds) := by
  induction ds generalizing data with
  | nil => rfl
  | cons d ds ih =>
    rw [room_cons, spread]
    split
    · rw [storedBytes_cons, ih, ← List.take_add]
    · rw [ih, Nat.zero_add]

lemma spread_cons (d : Desc) (ds : List Desc) (data : Bytes) :
    spread (d :: ds) data = spread [d] data ++ spread ds (data.drop (storedBytes (spread [d] data)).length) := by
  cases hw : d.isWrite with
  | false => simp [spread, hw]
  | true =>
    simp only [spread, hw, if_true, storedBytes_cons, storedBytes_nil, List.append_nil, List.length_take,
      List.singleton_append]
    rcases Nat.le_total d.len.toNat data.length with h | h
    · rw [min_eq_left h]
    · rw [min_eq_right h, List.drop_length, List.drop_eq_nil_of_le h]

end Contents

section Protocol
variable {B H X : Type}

namespace Receiving

def hand (g : Receiving B X) (id len : U32) : Receiving B X :=
  { dev := g.dev
    events := g.events ++ [.handed ⟨queueNum queue0 g.dev, g.chain, g.stores, id, len⟩]
    chain := []
    stores := [] }

def more (g : Receiving B X) (es : List (U32 × Desc)) (ws : List (U64 × Bytes)) : Receiving B X :=
  { g with chain := g.chain ++ es, stores := g.stores ++ ws }

def told (g : Receiving B X) (xs : List X) : Receiving B X := { g with events := g.events ++ xs.map .came }

@[simp] lemma more_nil (g : Receiving B X) : g.more [] [] = g := by simp [more]

@[simp] lemma more_more (g : Receiving B X) (es es' : List (U32 × Desc)) (ws ws' : List (U64 × Bytes)) :
    (g.more es ws).more es' ws' = g.more (es ++ es') (ws ++ ws') := by simp [more]

@[simp] lemma more_dev (g : Receiving B X) (es : List (U32 × Desc)) (ws : List (U64 × Bytes)) : (g.more es ws).dev = g.dev := rfl

end Receiving

/-- `tell` is what a reply of the host brings for the guest. The index of the available
ring of queue 0 is only assumed to be `ok`. -/
def receiveProtocol (R : H → Type) (tell : (h : H) → R h → List X) (ok : U16 → Prop) :
    Protocol (DevCall.Reply (B := B) R) (Receiving B X) where
  allowed _ _ := True
  answers g c r :=
    match c, r with
    | .get, v => v = g.dev
    | .availIdx i, idx => i = queue0 → ok idx
    | _, _ => True
  next g c r :=
    match c, r with
    | .put v, _ => { g with dev := v }
    | .advance i, _ => { g with dev := VirtioPort.advance i g.dev }
    | .desc i idx, d => if i = queue0 then g.more [(idx, d)] [] else g
    | .writeBlk pa src, _ => g.more [] [(pa, src)]
    | .pushUsed i id len, _ => if i = queue0 then g.hand id len else g
    | .host h, r => g.told (tell h r)
    | _, _ => g

end Protocol

section Rules
variable {B H X α β : Type} {R : H → Type} {tell : (h : H) → R h → List X} {ok : U16 → Prop} {g : Receiving B X}
  {i : Fin 2}

lemma recv_getDev {Q : Receiving B X → Virtio B → Prop} (h : Q g g.dev) :
    (getDev : DevProg B R _).Meets (receiveProtocol R tell ok) g Q :=
  (meets_ask _).2 ⟨trivial, by rintro _ rfl; exact h⟩

lemma recv_putDev {v : Virtio B} {Q : Receiving B X → Unit → Prop} (h : Q { g with dev := v } ()) :
    (putDev v : DevProg B R _).Meets (receiveProtocol R tell ok) g Q := (meets_ask _).2 ⟨trivial, fun _ _ => h⟩

lemma recv_modifyDev {f : Virtio B → Virtio B} {Q : Receiving B X → Unit → Prop} (h : Q { g with dev := f g.dev } ()) :
    (modifyDev f : DevProg B R _).Meets (receiveProtocol R tell ok) g Q :=
  (meets_monad_bind _ _).2 (recv_getDev (recv_putDev h))

lemma recv_availIdx {Q : Receiving B X → U16 → Prop} (h : ∀ idx, (i = queue0 → ok idx) → Q g idx) :
    (availIdx i : DevProg B R _).Meets (receiveProtocol R tell ok) g Q :=
  (meets_ask _).2 ⟨trivial, fun idx hidx => h idx hidx⟩

lemma recv_nextHead {Q : Receiving B X → U16 → Prop} (h : ∀ hd, Q g hd) :
    (nextHead i : DevProg B R _).Meets (receiveProtocol R tell ok) g Q :=
  (meets_ask _).2 ⟨trivial, fun hd _ => h hd⟩

lemma recv_advance {Q : Receiving B X → Unit → Prop} (h : Q { g with dev := VirtioPort.advance i g.dev } ()) :
    (advance i : DevProg B R _).Meets (receiveProtocol R tell ok) g Q := (meets_ask _).2 ⟨trivial, fun _ _ => h⟩

lemma recv_desc {idx : U32} {Q : Receiving B X → Desc → Prop} (h : ∀ d, Q (g.more [(idx, d)] []) d) :
    (desc queue0 idx : DevProg B R _).Meets (receiveProtocol R tell ok) g Q := (meets_ask _).2 ⟨trivial, fun d _ => h d⟩

lemma recv_writeBlk {pa : U64} {src : Bytes} {Q : Receiving B X → Unit → Prop} (h : Q (g.more [] [(pa, src)]) ()) :
    (writeBlk pa src : DevProg B R _).Meets (receiveProtocol R tell ok) g Q := (meets_ask _).2 ⟨trivial, fun _ _ => h⟩

lemma recv_pushUsed {id len : U32} {Q : Receiving B X → Unit → Prop} (h : Q (g.hand id len) ()) :
    (DevProg.pushUsed queue0 id len : DevProg B R _).Meets (receiveProtocol R tell ok) g Q :=
  (meets_ask _).2 ⟨trivial, fun _ _ => h⟩

lemma recv_host {c : H} {Q : Receiving B X → R c → Prop} (h : ∀ r, Q (g.told (tell c r)) r) :
    (host c : DevProg B R _).Meets (receiveProtocol R tell ok) g Q := (meets_ask _).2 ⟨trivial, fun r _ => h r⟩

/-- Between the chains, where `I` relates the backend to the events so far. -/
structure Rests (I : B → List (RxEvent X) → Prop) (g : Receiving B X) : Prop where
  chain : g.chain = []
  stores : g.stores = []
  holds : I g.dev.back g.events

def KeepsRest (tell : (h : H) → R h → List X) (ok : U16 → Prop) (I : B → List (RxEvent X) → Prop) (p : DevProg B R α) :
    Prop := ∀ g, Rests I g → p.Meets (receiveProtocol R tell ok) g fun g _ => Rests I g

namespace KeepsRest
variable {I : B → List (RxEvent X) → Prop}

lemma ret (a : α) : KeepsRest tell ok I (.ret a : DevProg B R α) := fun _ hg => (meets_ret a).2 hg

lemma bind {p : DevProg B R α} {k : α → DevProg B R β} (hp : KeepsRest tell ok I p)
    (hk : ∀ a, KeepsRest tell ok I (k a)) : KeepsRest tell ok I (p >>= k) :=
  fun g hg => (meets_monad_bind _ _).2 ((hp g hg).mono fun g' a hg' => hk a g' hg')

lemma ite {c : Prop} [Decidable c] {p q : DevProg B R α} (hp : KeepsRest tell ok I p) (hq : KeepsRest tell ok I q) :
    KeepsRest tell ok I (if c then p else q) := by
  split
  · exact hp
  · exact hq

lemma ask {c : DevCall B H} (hn : ∀ g r, (receiveProtocol R tell ok).next g c r = g) :
    KeepsRest tell ok I (.call c .ret : DevProg B R _) :=
  fun g hg => (meets_ask c).2 ⟨trivial, fun r _ => by rw [hn]; exact hg⟩

lemma getDev : KeepsRest tell ok I (DevProg.getDev : DevProg B R _) := ask fun _ _ => rfl

lemma putDev_after {v v' : Virtio B} (h : v'.back = v.back) (g : Receiving B X) (hg : Rests I g) (hv : g.dev = v) :
    (putDev v' : DevProg B R _).Meets (receiveProtocol R tell ok) g fun g _ => Rests I g := by
  subst hv
  exact recv_putDev ⟨hg.chain, hg.stores, h ▸ hg.holds⟩

lemma modifyDev {f : Virtio B → Virtio B} (hf : ∀ v, (f v).back = v.back) :
    KeepsRest tell ok I (DevProg.modifyDev f : DevProg B R _) :=
  fun g hg => (meets_monad_bind _ _).2 (recv_getDev (putDev_after (hf g.dev) g hg rfl))

lemma setLine (level : Bool) : KeepsRest tell ok I (DevProg.setLine level : DevProg B R _) := ask fun _ _ => rfl

lemma raise (cause : U32) : KeepsRest tell ok I (DevProg.raise cause : DevProg B R _) :=
  bind (modifyDev fun _ => rfl) fun _ => setLine true

lemma availIdx : KeepsRest tell ok I (DevProg.availIdx i : DevProg B R _) := ask fun _ _ => rfl

lemma nextHead : KeepsRest tell ok I (DevProg.nextHead i : DevProg B R _) := ask fun _ _ => rfl

lemma readBlk {pa : U64} {len : ℕ} : KeepsRest tell ok I (DevProg.readBlk pa len : DevProg B R _) := ask fun _ _ => rfl

lemma advance : KeepsRest tell ok I (DevProg.advance i : DevProg B R _) :=
  fun _ hg => recv_advance ⟨hg.chain, hg.stores, hg.holds⟩

lemma desc {idx : U32} (hi : i ≠ queue0) : KeepsRest tell ok I (DevProg.desc i idx : DevProg B R _) :=
  ask fun _ _ => if_neg hi

lemma pushUsed {id len : U32} (hi : i ≠ queue0) : KeepsRest tell ok I (DevProg.pushUsed i id len : DevProg B R _) :=
  ask fun _ _ => if_neg hi

lemma walk {σ : Type} {more : σ → Bool} {stop : DevProg B R Bool} {body : Desc → σ → DevProg B R σ} (hi : i ≠ queue0)
    (hstop : KeepsRest tell ok I stop) (hbody : ∀ d s, KeepsRest tell ok I (body d s)) (n : ℕ) (idx : U32) (s : σ) :
    KeepsRest tell ok I (DevProg.walk i more stop body n idx s) := by
  induction n generalizing idx s with
  | zero => exact ret s
  | succ n ih =>
    refine ite (bind (desc hi) fun d => bind (hbody d s) fun s' => ite ?_ (ret s')) (ret s)
    exact bind hstop fun _ => ite (ret s') (ih _ _)

lemma drain {round : DevProg B R Unit} (hround : KeepsRest tell ok I round) (idx : U16) (k : ℕ) (did : Bool) :
    KeepsRest tell ok I (DevProg.drain i round idx k did) := by
  induction k generalizing did with
  | zero => exact ret did
  | succ k ih => exact bind getDev fun _ => ite (ret did) (bind hround fun _ => ih true)

lemma process {round finish : DevProg B R Unit} (hround : KeepsRest tell ok I round)
    (hfinish : KeepsRest tell ok I finish) (rounds : ℕ) : KeepsRest tell ok I (DevProg.process rounds i round finish) :=
  bind getDev fun _ => ite (ret ()) (bind availIdx fun idx => bind (drain hround idx rounds false) fun _ =>
    ite hfinish (ret ()))

lemma fill {round : DevProg B R Unit} {pending : Virtio B → Bool} (hround : ∀ g, Rests I g → pending g.dev = true →
      round.Meets (receiveProtocol R tell ok) g fun g _ => Rests I g) (k : ℕ) (did : Bool) :
    KeepsRest tell ok I (DevProg.fill i round pending k did) := by
  induction k generalizing did with
  | zero => exact ret did
  | succ k ih =>
    refine fun g hg => (meets_monad_bind _ _).2 (recv_getDev ?_)
    split
    · next hpending =>
      refine (meets_monad_bind _ _).2 (recv_availIdx fun idx _ => (meets_monad_bind _ _).2 (recv_getDev ?_))
      split
      · exact (meets_ret _).2 hg
      · exact (meets_monad_bind _ _).2 ((hround g hg hpending).mono fun g' _ hg' => ih true g' hg')
    · exact (meets_ret _).2 hg

lemma flush {round : DevProg B R Unit} {pending : Virtio B → Bool} (hround : ∀ g, Rests I g → pending g.dev = true →
      round.Meets (receiveProtocol R tell ok) g fun g _ => Rests I g) (rounds : ℕ) :
    KeepsRest tell ok I (DevProg.flush rounds i round pending) :=
  bind getDev fun _ => ite (ret ()) (bind (fill hround rounds false) fun _ => ite (raise 1) (ret ()))

end KeepsRest

structure RegisterStore where
  off : U64
  val : U64
  keeps : ¬ (VirtioReg.ofOffset off = some .status ∧ (val.setWidth 32 : U32) = 0)

lemma setQueue_back {K : VirtioKind B R} (v : Virtio B) (f : Virtq → Virtq) : (v.setQueue K f).back = v.back := by
  unfold Virtio.setQueue
  split <;> rfl

lemma virtioWrite_keepsRest {K : VirtioKind B R} {I : B → List (RxEvent X) → Prop}
    (hnotify : ∀ x, KeepsRest tell ok I (K.notify x)) (s : RegisterStore) :
    KeepsRest tell ok I (virtioWrite K s.off s.val) := by
  have hplain {f : Virtio B → Virtio B} (hf : ∀ v, (f v).back = v.back) :
      KeepsRest tell ok I (modifyDev f : DevProg B R _) := .modifyDev hf
  have hqueue {f : Virtq → Virtq} : KeepsRest tell ok I (modifyDev fun v => v.setQueue K f : DevProg B R _) :=
    .modifyDev fun v => setQueue_back v f
  have hkeeps := s.keeps
  unfold virtioWrite
  cases hreg : VirtioReg.ofOffset s.off with
  | none => exact .ret ()
  | some reg =>
    cases reg with
    | queueNotify => exact hnotify _
    | interruptAck =>
      exact .bind (hplain fun _ => rfl) fun _ => .bind .getDev fun _ => .ite (.setLine false) (.ret ())
    | status =>
      dsimp only
      rw [if_neg fun h => hkeeps ⟨hreg, h⟩]
      exact hplain fun _ => rfl
    | deviceFeaturesSel => exact hplain fun _ => rfl
    | driverFeatures => exact hplain fun _ => rfl
    | driverFeaturesSel => exact hplain fun _ => rfl
    | queueSel => exact hplain fun _ => rfl
    | queueNum => exact hqueue
    | queueReady => exact hqueue
    | queueDescLow => exact hqueue
    | queueDescHigh => exact hqueue
    | queueDriverLow => exact hqueue
    | queueDriverHigh => exact hqueue
    | queueDeviceLow => exact hqueue
    | queueDeviceHigh => exact hqueue
    | _ => exact .ret ()

/-- What reaches a device from outside while nobody resets it. -/
inductive DevStep
  | store (s : RegisterStore)
  | poll

/-- A run of a device with registers `K`. -/
def runDevice (K : VirtioKind B R) (poll : DevProg B R Unit) : List DevStep → DevProg B R Unit
  | [] => return ()
  | .store s :: steps => do
    virtioWrite K s.off s.val
    runDevice K poll steps
  | .poll :: steps => do
    poll
    runDevice K poll steps

lemma runDevice_keepsRest {K : VirtioKind B R} {poll : DevProg B R Unit} {I : B → List (RxEvent X) → Prop}
    (hnotify : ∀ x, KeepsRest tell ok I (K.notify x)) (hpoll : KeepsRest tell ok I poll) (steps : List DevStep) :
    KeepsRest tell ok I (runDevice K poll steps) := by
  induction steps with
  | nil => exact .ret ()
  | cons step steps ih =>
    cases step with
    | store s => exact .bind (virtioWrite_keepsRest hnotify s) fun _ => ih
    | poll => exact .bind hpoll fun _ => ih

end Rules

end Arm64Emu
