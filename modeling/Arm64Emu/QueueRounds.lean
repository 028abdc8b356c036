import Arm64Emu.Virtio

/-! What a virtio device does with one entry of an available ring, and the rules by which
this is read off its program. Rings, descriptors and buffers hold anything: whatever the
machine answers to a call is possible. -/
namespace Arm64Emu

open Dialogue DevProg

/-- An entry of an available ring: its head, the descriptors read for it, the stores to
guest memory by address and length, the elements put into the used ring, and how often the
cursor has moved on. -/
structure Round where
  queue : Fin 2
  head : U32
  descs : List Desc
  writes : List (U64 × ℕ)
  pushes : List (U32 × U32)
  taken : ℕ
  deriving DecidableEq, Repr

namespace Round

@[simps] def start (i : Fin 2) (hd : U16) : Round := ⟨i, hd.setWidth 32, [], [], [], 0⟩

@[simps] def more (r : Round) (ds : List Desc) (ws : List (U64 × ℕ)) : Round :=
  { r with descs := r.descs ++ ds, writes := r.writes ++ ws }

@[simps] def push (r : Round) (id len : U32) : Round := { r with pushes := r.pushes ++ [(id, len)] }

@[simps] def take (r : Round) : Round := { r with taken := r.taken + 1 }

@[simp] lemma more_nil (r : Round) : r.more [] [] = r := by simp [more]

@[simp] lemma more_more (r : Round) (ds ds' : List Desc) (ws ws' : List (U64 × ℕ)) :
    (r.more ds ws).more ds' ws' = r.more (ds ++ ds') (ws ++ ws') := by simp [more]

end Round

section Protocol
variable {B H : Type} (R : H → Type) (ok : Virtio B → Prop)

/-- The rounds of a run, the latest first. Nothing is stored, and no descriptor read, but
for a round; the registers are only assumed to be `ok` and are left so. -/
def roundsProtocol : Protocol (DevCall.Reply (B := B) R) (List Round) where
  allowed rs c :=
    match c with
    | .advance i => rs.head?.map Round.queue = some i
    | .desc i _ => rs.head?.map Round.queue = some i
    | .pushUsed i _ _ => rs.head?.map Round.queue = some i
    | .write .. => rs ≠ []
    | .writeBlk .. => rs ≠ []
    | .put v => ok v
    | _ => True
  answers _ c r :=
    match c, r with
    | .get, v => ok v
    | _, _ => True
  next rs c r :=
    match c, r with
    | .availHead i, hd => Round.start i hd :: rs
    | .advance _, _ => rs.modifyHead Round.take
    | .desc .., d => rs.modifyHead fun r => r.more [d] []
    | .pushUsed _ id len, _ => rs.modifyHead fun r => r.push id len
    | .write pa n _, _ => rs.modifyHead fun r => r.more [] [(pa, n)]
    | .writeBlk pa src, _ => rs.modifyHead fun r => r.more [] [(pa, src.length)]
    | _, _ => rs

end Protocol

section Rules
variable {B H α β : Type} {R : H → Type} {ok : Virtio B → Prop} {rs : List Round} {r : Round} {i : Fin 2}

lemma rounds_getDev {Q : List Round → Virtio B → Prop} :
    (getDev : DevProg B R _).Meets (roundsProtocol R ok) rs Q ↔ ∀ v, ok v → Q rs v :=
  (meets_ask _).trans ⟨fun h v hv => h.2 v hv, fun h => ⟨trivial, h⟩⟩

lemma rounds_putDev {v : Virtio B} {Q : List Round → Unit → Prop} :
    (putDev v : DevProg B R _).Meets (roundsProtocol R ok) rs Q ↔ ok v ∧ Q rs () :=
  (meets_ask _).trans (and_congr_right' ⟨fun h => h () trivial, fun h _ _ => h⟩)

lemma rounds_modifyDev {f : Virtio B → Virtio B} {Q : List Round → Unit → Prop} :
    (modifyDev f : DevProg B R _).Meets (roundsProtocol R ok) rs Q ↔ ∀ v, ok v → ok (f v) ∧ Q rs () := by
  simp only [modifyDev, meets_monad_bind, rounds_getDev, rounds_putDev]

lemma rounds_availIdx {Q : List Round → U16 → Prop} :
    (availIdx i : DevProg B R _).Meets (roundsProtocol R ok) rs Q ↔ ∀ idx, Q rs idx :=
  (meets_ask _).trans ⟨fun h idx => h.2 idx trivial, fun h => ⟨trivial, fun idx _ => h idx⟩⟩

lemma rounds_nextHead {Q : List Round → U16 → Prop} :
    (nextHead i : DevProg B R _).Meets (roundsProtocol R ok) rs Q ↔ ∀ hd, Q (.start i hd :: rs) hd :=
  (meets_ask _).trans ⟨fun h hd => h.2 hd trivial, fun h => ⟨trivial, fun hd _ => h hd⟩⟩

lemma rounds_advance {Q : List Round → Unit → Prop} :
    (advance i : DevProg B R _).Meets (roundsProtocol R ok) (r :: rs) Q ↔ r.queue = i ∧ Q (r.take :: rs) () :=
  (meets_ask _).trans (and_congr Option.some_inj ⟨fun h => h () trivial, fun h _ _ => h⟩)

lemma rounds_pushUsed {id len : U32} {Q : List Round → Unit → Prop} :
    (DevProg.pushUsed i id len : DevProg B R _).Meets (roundsProtocol R ok) (r :: rs) Q ↔
      r.queue = i ∧ Q (r.push id len :: rs) () :=
  (meets_ask _).trans (and_congr Option.some_inj ⟨fun h => h () trivial, fun h _ _ => h⟩)

lemma rounds_read {pa : U64} {n : ℕ} {Q : List Round → U64 → Prop} :
    (read pa n : DevProg B R _).Meets (roundsProtocol R ok) rs Q ↔ ∀ x, Q rs x :=
  (meets_ask _).trans ⟨fun h x => h.2 x trivial, fun h => ⟨trivial, fun x _ => h x⟩⟩

lemma rounds_write {pa : U64} {n : ℕ} {x : U64} {Q : List Round → Unit → Prop} :
    (write pa n x : DevProg B R _).Meets (roundsProtocol R ok) (r :: rs) Q ↔ Q (r.more [] [(pa, n)] :: rs) () :=
  (meets_ask _).trans ⟨fun h => h.2 () trivial, fun h => ⟨List.cons_ne_nil r rs, fun _ _ => h⟩⟩

lemma rounds_setLine {level : Bool} {Q : List Round → Unit → Prop} :
    (setLine level : DevProg B R _).Meets (roundsProtocol R ok) rs Q ↔ Q rs () :=
  (meets_ask _).trans ⟨fun h => h.2 () trivial, fun h => ⟨trivial, fun _ _ => h⟩⟩

/-- A part of a round on queue `i`, by the descriptors it reads and the stores it makes. -/
def Within (ok : Virtio B → Prop) (i : Fin 2) (p : DevProg B R α) (Q : List Desc → List (U64 × ℕ) → α → Prop) : Prop :=
  ∀ r rs, r.queue = i → p.Meets (roundsProtocol R ok) (r :: rs) fun g a => ∃ ds ws, g = r.more ds ws :: rs ∧ Q ds ws a

namespace Within
variable {p : DevProg B R α} {Q Q' : List Desc → List (U64 × ℕ) → α → Prop}

lemma mono (h : Within ok i p Q) (hQ : ∀ ds ws a, Q ds ws a → Q' ds ws a) : Within ok i p Q' := by
  intro r rs hr
  refine (h r rs hr).mono ?_
  rintro g a ⟨ds, ws, hg, ha⟩
  exact ⟨ds, ws, hg, hQ ds ws a ha⟩

lemma ret {a : α} (h : Q [] [] a) : Within ok i (.ret a : DevProg B R α) Q := by
  intro r rs hr
  exact (meets_ret _).2 ⟨[], [], by rw [r.more_nil], h⟩

lemma bind {f : α → DevProg B R β} {Q' : List Desc → List (U64 × ℕ) → β → Prop} (hp : Within ok i p Q)
    (hf : ∀ ds ws a, Q ds ws a → Within ok i (f a) fun ds' ws' b => Q' (ds ++ ds') (ws ++ ws') b) :
    Within ok i (p >>= f) Q' := by
  intro r rs hr
  rw [meets_monad_bind]
  refine (hp r rs hr).mono ?_
  rintro g a ⟨ds, ws, rfl, ha⟩
  refine (hf ds ws a ha (r.more ds ws) rs hr).mono ?_
  rintro g b ⟨ds', ws', rfl, hb⟩
  exact ⟨ds ++ ds', ws ++ ws', by rw [Round.more_more], hb⟩

lemma ite {P : Prop} [Decidable P] {p' : DevProg B R α} (hp : P → Within ok i p Q) (hp' : ¬ P → Within ok i p' Q) :
    Within ok i (if P then p else p') Q := by
  split
  · exact hp ‹_›
  · exact hp' ‹_›

private lemma quiet (c : DevCall B H) {Q : List Desc → List (U64 × ℕ) → c.Reply R → Prop}
    (hallowed : ∀ rs, (roundsProtocol R ok).allowed rs c) (hnext : ∀ rs a, (roundsProtocol R ok).next rs c a = rs)
    (h : ∀ a, (∀ rs, (roundsProtocol R ok).answers rs c a) → Q [] [] a) : Within ok i (.call c .ret) Q := by
  intro r rs hr
  refine (meets_ask c).2 ⟨hallowed _, fun a ha => ?_⟩
  rw [hnext]
  exact ⟨[], [], by rw [r.more_nil], h a fun _ => ha⟩

lemma getDev {Q : List Desc → List (U64 × ℕ) → Virtio B → Prop} (h : ∀ v, ok v → Q [] [] v) :
    Within ok i (getDev : DevProg B R _) Q :=
  quiet .get (fun _ => trivial) (fun _ _ => rfl) fun v hv => h v (hv [])

lemma putDev {v : Virtio B} {Q : List Desc → List (U64 × ℕ) → Unit → Prop} (hv : ok v) (h : Q [] [] ()) :
    Within ok i (putDev v : DevProg B R _) Q :=
  quiet (.put v) (fun _ => hv) (fun _ _ => rfl) fun _ _ => h

lemma modifyDev {f : Virtio B → Virtio B} {Q : List Desc → List (U64 × ℕ) → Unit → Prop} (hf : ∀ v, ok v → ok (f v))
    (h : Q [] [] ()) : Within ok i (modifyDev f : DevProg B R _) Q := by
  refine bind (Q := fun ds ws v => ok v ∧ ds = [] ∧ ws = []) (getDev fun v hv => ⟨hv, rfl, rfl⟩) ?_
  rintro _ _ v ⟨hv, rfl, rfl⟩
  exact putDev (hf v hv) h

lemma readBlk {pa : U64} {n : ℕ} {Q : List Desc → List (U64 × ℕ) → Bytes → Prop} (h : ∀ x, Q [] [] x) :
    Within ok i (readBlk pa n : DevProg B R _) Q :=
  quiet (.readBlk pa n) (fun _ => trivial) (fun _ _ => rfl) fun x _ => h x

lemma host {c : H} {Q : List Desc → List (U64 × ℕ) → R c → Prop} (h : ∀ x, Q [] [] x) :
    Within ok i (host c : DevProg B R _) Q :=
  quiet (.host c) (fun _ => trivial) (fun _ _ => rfl) fun x _ => h x

lemma lift {p : Dialogue R α} (h : ∀ a, Q [] [] a) : Within ok i (lift p : DevProg B R _) Q := by
  induction p with
  | ret a => exact ret (h a)
  | call c k ih => exact bind (Q := fun ds ws _ => ds = [] ∧ ws = []) (host fun _ => ⟨rfl, rfl⟩) (by
      rintro _ _ a ⟨rfl, rfl⟩
      exact ih a)

lemma desc {idx : U32} {Q : List Desc → List (U64 × ℕ) → Desc → Prop} (h : ∀ d, Q [d] [] d) :
    Within ok i (desc i idx : DevProg B R _) Q := by
  intro r rs hr
  exact (meets_ask _).2 ⟨congrArg some hr, fun d _ => ⟨[d], [], rfl, h d⟩⟩

lemma writeBlk {pa : U64} {src : Bytes} {Q : List Desc → List (U64 × ℕ) → Unit → Prop}
    (h : Q [] [(pa, src.length)] ()) : Within ok i (writeBlk pa src : DevProg B R _) Q := by
  intro r rs hr
  exact (meets_ask _).2 ⟨List.cons_ne_nil r rs, fun _ _ => ⟨[], [(pa, src.length)], rfl, h⟩⟩

lemma getDev_bind {f : Virtio B → DevProg B R α} (h : ∀ v, ok v → Within ok i (f v) Q) :
    Within ok i (DevProg.getDev >>= f) Q :=
  bind (Q := fun ds ws v => ok v ∧ ds = [] ∧ ws = []) (getDev fun v hv => ⟨hv, rfl, rfl⟩) (by
    rintro _ _ v ⟨hv, rfl, rfl⟩
    exact h v hv)

lemma modifyDev_bind {f : Virtio B → Virtio B} {k : Unit → DevProg B R α} (hf : ∀ v, ok v → ok (f v))
    (h : Within ok i (k ()) Q) : Within ok i (DevProg.modifyDev f >>= k) Q :=
  bind (Q := fun ds ws _ => ds = [] ∧ ws = []) (modifyDev hf ⟨rfl, rfl⟩) (by
    rintro _ _ _ ⟨rfl, rfl⟩
    exact h)

lemma host_bind {c : H} {f : R c → DevProg B R α} (h : ∀ x, Within ok i (f x) Q) :
    Within ok i (DevProg.host c >>= f) Q :=
  bind (Q := fun ds ws _ => ds = [] ∧ ws = []) (host fun _ => ⟨rfl, rfl⟩) (by
    rintro _ _ x ⟨rfl, rfl⟩
    exact h x)

lemma readBlk_bind {pa : U64} {n : ℕ} {f : Bytes → DevProg B R α} (h : ∀ x, Within ok i (f x) Q) :
    Within ok i (DevProg.readBlk pa n >>= f) Q :=
  bind (Q := fun ds ws _ => ds = [] ∧ ws = []) (readBlk fun _ => ⟨rfl, rfl⟩) (by
    rintro _ _ x ⟨rfl, rfl⟩
    exact h x)

lemma desc_bind {idx : U32} {f : Desc → DevProg B R α}
    (h : ∀ d, Within ok i (f d) fun ds ws a => Q (d :: ds) ws a) : Within ok i (DevProg.desc i idx >>= f) Q :=
  bind (Q := fun ds ws d => ds = [d] ∧ ws = []) (desc fun _ => ⟨rfl, rfl⟩) (by
    rintro _ _ d ⟨rfl, rfl⟩
    exact h d)

lemma writeBlk_bind {pa : U64} {src : Bytes} {f : Unit → DevProg B R α}
    (h : Within ok i (f ()) fun ds ws a => Q ds ((pa, src.length) :: ws) a) :
    Within ok i (DevProg.writeBlk pa src >>= f) Q :=
  bind (Q := fun ds ws _ => ds = [] ∧ ws = [(pa, src.length)]) (writeBlk ⟨rfl, rfl⟩) (by
    rintro _ _ _ ⟨rfl, rfl⟩
    exact h)

lemma collect {N : ℕ} (hok : ∀ v, ok v → (v.q i).num.toNat ≤ N) (k n : ℕ) (idx : U32) :
    Within ok i (DevProg.collect i k n idx : DevProg B R _) fun ds ws a => a = ds ∧ ws = [] ∧ ds.length ≤ N - n := by
  induction k generalizing n idx with
  | zero => exact ret ⟨rfl, rfl, Nat.zero_le _⟩
  | succ k ih =>
    refine getDev_bind fun v hv => ite (fun _ => ret ⟨rfl, rfl, Nat.zero_le _⟩) fun hroom => ?_
    have hN := hok v hv
    refine desc_bind fun d => ite (fun _ => ?_) fun _ => ret ⟨rfl, rfl, by simp; omega⟩
    refine bind (ih (n + 1) _) ?_
    rintro ds ws a ⟨rfl, rfl, hlen⟩
    exact ret ⟨by simp, rfl, by simp; omega⟩

private lemma walk_from {σ : Type} {more : σ → Bool} {stop : DevProg B R Bool} {body : Desc → σ → DevProg B R σ}
    {J : List Desc → List (U64 × ℕ) → σ → Prop} (hstop : Within ok i stop fun ds ws _ => ds = [] ∧ ws = [])
    (hbody : ∀ d ds ws s, J ds ws s → Within ok i (body d s) fun ds' ws' s => ds' = [] ∧ J (ds ++ [d]) (ws ++ ws') s)
    (n : ℕ) (idx : U32) {ds : List Desc} {ws : List (U64 × ℕ)} {s : σ} (hJ : J ds ws s) :
    Within ok i (DevProg.walk i more stop body n idx s) fun ds' ws' s => ds'.length ≤ n ∧ J (ds ++ ds') (ws ++ ws') s := by
  induction n generalizing idx ds ws s with
  | zero => exact ret ⟨le_rfl, by simpa using hJ⟩
  | succ n ih =>
    refine ite (fun _ => desc_bind fun d => ?_) fun _ => ret ⟨Nat.zero_le _, by simpa using hJ⟩
    refine bind (hbody d ds ws s hJ) ?_
    rintro _ ws' s ⟨rfl, hs⟩
    refine ite (fun _ => bind hstop ?_) fun _ => ret ⟨by simp, by simpa using hs⟩
    rintro _ _ b ⟨rfl, rfl⟩
    refine ite (fun _ => ret ⟨by simp, by simpa using hs⟩) fun _ => ?_
    refine (ih _ hs).mono ?_
    rintro ds'' ws'' s ⟨hlen, hs⟩
    exact ⟨by simpa using hlen, by simpa using hs⟩

lemma walk {σ : Type} {more : σ → Bool} {stop : DevProg B R Bool} {body : Desc → σ → DevProg B R σ}
    {J : List Desc → List (U64 × ℕ) → σ → Prop} (hstop : Within ok i stop fun ds ws _ => ds = [] ∧ ws = [])
    (hbody : ∀ d ds ws s, J ds ws s → Within ok i (body d s) fun ds' ws' s => ds' = [] ∧ J (ds ++ [d]) (ws ++ ws') s)
    (n : ℕ) (idx : U32) {s : σ} (hJ : J [] [] s) :
    Within ok i (DevProg.walk i more stop body n idx s) fun ds ws s => ds.length ≤ n ∧ J ds ws s :=
  walk_from hstop hbody n idx hJ

end Within

section Loops
variable {round finish : DevProg B R Unit} {Law : Round → Prop}

/-- A program that serves one entry and leaves a round that obeys the law. -/
def ServesRound (ok : Virtio B → Prop) (round : DevProg B R Unit) (Law : Round → Prop) : Prop :=
  ∀ rs, round.Meets (roundsProtocol R ok) rs fun g _ => ∃ r, g = r :: rs ∧ Law r

def LeavesRounds (ok : Virtio B → Prop) (p : DevProg B R α) : Prop :=
  ∀ rs, p.Meets (roundsProtocol R ok) rs fun g _ => g = rs

namespace LeavesRounds
variable {p : DevProg B R α}

lemma ret (a : α) : LeavesRounds ok (.ret a : DevProg B R α) := fun _ => (meets_ret _).2 rfl

lemma bind {f : α → DevProg B R β} (hp : LeavesRounds ok p) (hf : ∀ a, LeavesRounds ok (f a)) :
    LeavesRounds ok (p >>= f) := by
  intro rs
  rw [meets_monad_bind]
  refine (hp rs).mono ?_
  rintro g a rfl
  exact hf a g

lemma ite {P : Prop} [Decidable P] {p' : DevProg B R α} (hp : LeavesRounds ok p) (hp' : LeavesRounds ok p') :
    LeavesRounds ok (if P then p else p') := by
  split
  · exact hp
  · exact hp'

lemma getDev_bind {f : Virtio B → DevProg B R α} (hf : ∀ v, ok v → LeavesRounds ok (f v)) :
    LeavesRounds ok (DevProg.getDev >>= f) := by
  intro rs
  rw [meets_monad_bind, rounds_getDev]
  exact fun v hv => hf v hv rs

lemma putDev {v : Virtio B} (hv : ok v) : LeavesRounds ok (DevProg.putDev v : DevProg B R _) :=
  fun _ => rounds_putDev.2 ⟨hv, rfl⟩

lemma modifyDev {f : Virtio B → Virtio B} (hf : ∀ v, ok v → ok (f v)) :
    LeavesRounds ok (DevProg.modifyDev f : DevProg B R _) := getDev_bind fun v hv => putDev (hf v hv)

lemma setLine {level : Bool} : LeavesRounds ok (DevProg.setLine level : DevProg B R _) :=
  fun _ => rounds_setLine.2 rfl

lemma host (c : H) : LeavesRounds ok (DevProg.host c : DevProg B R _) :=
  fun _ => (meets_ask _).2 ⟨trivial, fun _ _ => rfl⟩

lemma lift (p : Dialogue R α) : LeavesRounds ok (DevProg.lift p : DevProg B R _) := by
  induction p with
  | ret a => exact ret a
  | call c k ih => exact bind (host c) ih

lemma raise {cause : U32} (hok : ∀ v x, ok v → ok { v with isr := x }) :
    LeavesRounds ok (DevProg.raise cause : DevProg B R _) :=
  bind (modifyDev fun v hv => hok v _ hv) fun _ => setLine

end LeavesRounds

lemma drain_rounds (hround : ServesRound ok round Law) (idx : U16) (k : ℕ) (did : Bool) (hrs : ∀ r ∈ rs, Law r) :
    (drain i round idx k did).Meets (roundsProtocol R ok) rs fun g _ => ∀ r ∈ g, Law r := by
  induction k generalizing did rs with
  | zero => exact (meets_ret _).2 hrs
  | succ k ih =>
    unfold drain
    rw [meets_monad_bind, rounds_getDev]
    intro v hv
    split
    · exact (meets_ret _).2 hrs
    · rw [meets_monad_bind]
      refine (hround rs).mono ?_
      rintro g _ ⟨r, rfl, hr⟩
      exact ih true (List.forall_mem_cons.2 ⟨hr, hrs⟩)

lemma fill_rounds (hround : ServesRound ok round Law) (pending : Virtio B → Bool) (k : ℕ) (did : Bool)
    (hrs : ∀ r ∈ rs, Law r) :
    (fill i round pending k did).Meets (roundsProtocol R ok) rs fun g _ => ∀ r ∈ g, Law r := by
  induction k generalizing did rs with
  | zero => exact (meets_ret _).2 hrs
  | succ k ih =>
    unfold fill
    rw [meets_monad_bind, rounds_getDev]
    intro v hv
    split
    · rw [meets_monad_bind, rounds_availIdx]
      intro idx
      rw [meets_monad_bind, rounds_getDev]
      intro v hv
      split
      · exact (meets_ret _).2 hrs
      · rw [meets_monad_bind]
        refine (hround rs).mono ?_
        rintro g _ ⟨r, rfl, hr⟩
        exact ih true (List.forall_mem_cons.2 ⟨hr, hrs⟩)
    · exact (meets_ret _).2 hrs

private lemma finish_rounds (hfinish : LeavesRounds ok finish) (did : Bool) (hrs : ∀ r ∈ rs, Law r) :
    (if did then finish else pure ()).Meets (roundsProtocol R ok) rs fun g _ => ∀ r ∈ g, Law r := by
  split
  · refine (hfinish rs).mono ?_
    rintro g _ rfl
    exact hrs
  · exact (meets_ret _).2 hrs

theorem process_rounds (hround : ServesRound ok round Law) (hfinish : LeavesRounds ok finish) (rounds : ℕ) :
    (process rounds i round finish).Meets (roundsProtocol R ok) [] fun g _ => ∀ r ∈ g, Law r := by
  have hnil : ∀ r ∈ ([] : List Round), Law r := fun r hr => absurd hr List.not_mem_nil
  unfold process
  rw [meets_monad_bind, rounds_getDev]
  intro v hv
  split
  · exact (meets_ret _).2 hnil
  · rw [meets_monad_bind, rounds_availIdx]
    intro idx
    rw [meets_monad_bind]
    exact (drain_rounds hround idx rounds false hnil).mono fun g did hg => finish_rounds hfinish did hg

theorem flush_rounds (hround : ServesRound ok round Law) (hok : ∀ v x, ok v → ok { v with isr := x }) (rounds : ℕ)
    (pending : Virtio B → Bool) :
    (flush rounds i round pending).Meets (roundsProtocol R ok) [] fun g _ => ∀ r ∈ g, Law r := by
  have hnil : ∀ r ∈ ([] : List Round), Law r := fun r hr => absurd hr List.not_mem_nil
  unfold flush
  rw [meets_monad_bind, rounds_getDev]
  intro v hv
  split
  · exact (meets_ret _).2 hnil
  · rw [meets_monad_bind]
    exact (fill_rounds hround pending rounds false hnil).mono fun g did hg =>
      finish_rounds (.raise hok) did hg

end Loops

end Rules

end Arm64Emu
