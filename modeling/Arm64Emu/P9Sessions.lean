import Arm64Emu.P9Handlers

/-! Sessions with the 9p device: any sequence of messages, with any bytes, and of resets.
The contract of the handlers carries over, event by event. -/
namespace Arm64Emu

namespace P9Event

/-- The message that an event brings, if there is a handler for it, and the fields behind
its header. -/
def asks : P9Event → Option (TMsg × Cur)
  | message req reqlen _ =>
    if (p9Header req reqlen).2.err then none
    else (TMsg.ofCode (p9Header req reqlen).1.1).map fun t => (t, (p9Header req reqlen).2)
  | reset => none

def gives (e : P9Event) (x : U32) : Prop := e = reset ∨ ∃ t c, e.asks = some (t, c) ∧ t.gives c x

def After (e : P9Event) (held : Set Handle) (v : P9) (held' : Set Handle) (v' : P9) : Prop :=
  (e = reset → held' = ∅ ∧ ∀ i, v'.fids i = []) ∧ ∀ t c, e.asks = some (t, c) → P9After t c held v held' v'

def slips (e : P9Event) (v : P9) : Prop := ∃ c, e.asks = some (.lopen, c) ∧ v.slips c

/-- The duties of the device that an event finds in state `v`. -/
def duty (root : Bytes) (ro : Bool) (e : P9Event) (v : P9) : P9Duty := ⟨root, ro, v.owner, e.gives, e.slips v⟩

end P9Event

def answerBytes (tag : U16) (cap : ℕ) : Except Errno Out → Bytes
  | .error e => mkLerror tag e cap
  | .ok o => respFinish o tag cap

section Dispatch
variable {v : P9} {reqlen wcap : ℕ} {G : Type} {π : Protocol HostCall.Reply G} {g : G} {Q : G → Bytes × P9 → Prop}

lemma p9Dispatch_of_asks_none (h : (P9Event.message v.req reqlen wcap).asks = none) :
    ∃ e, (p9Dispatch v reqlen wcap).Meets π g Q ↔
      Q g (mkLerror (p9Header v.req reqlen).1.2 e (min wcap p9MsizeMax), v) := by
  unfold p9Dispatch
  obtain ⟨⟨⟨type, tag⟩, c⟩, hhead⟩ : ∃ r, p9Header v.req reqlen = r := ⟨_, rfl⟩
  rw [P9Event.asks, hhead] at h
  dsimp only at h ⊢
  rw [hhead]
  dsimp only
  split
  · exact ⟨_, Dialogue.meets_ret _⟩
  · rename_i herr
    rw [if_neg herr, Option.map_eq_none_iff] at h
    rw [h]
    exact ⟨_, Dialogue.meets_ret _⟩

lemma p9Dispatch_of_asks {t : TMsg} {c : Cur} (h : (P9Event.message v.req reqlen wcap).asks = some (t, c)) :
    (p9Dispatch v reqlen wcap).Meets π g Q ↔
      (p9Handler v t c (p9Header v.req reqlen).1.2 (min wcap p9MsizeMax)).Meets π g fun g r =>
        Q g (answerBytes (p9Header v.req reqlen).1.2 (min wcap p9MsizeMax) r.1, r.2) := by
  unfold p9Dispatch
  obtain ⟨⟨⟨type, tag⟩, c'⟩, hhead⟩ : ∃ r, p9Header v.req reqlen = r := ⟨_, rfl⟩
  rw [P9Event.asks, hhead] at h
  dsimp only at h ⊢
  rw [hhead]
  dsimp only
  split
  · rename_i herr
    rw [if_pos herr] at h
    cases h
  · rename_i herr
    rw [if_neg herr] at h
    obtain ⟨t', ht, htc⟩ := Option.map_eq_some_iff.1 h
    cases htc
    rw [ht, Dialogue.meets_bind]
    refine Dialogue.meets_congr fun g' r => ?_
    obtain ⟨_ | o, v'⟩ := r
    · exact Dialogue.meets_ret _
    · exact Dialogue.meets_ret _

end Dispatch

section Events
variable {root : Bytes} {ro : Bool} {held : Set Handle} {v : P9} {req : ℕ → U8} {reqlen wcap : ℕ}
  {π : Protocol HostCall.Reply (Set Handle)} {Q : Set Handle → P9 → Prop}

lemma p9Event_of_asks_none (h : (P9Event.message req reqlen wcap).asks = none) :
    (p9Event v (.message req reqlen wcap)).Meets π held Q ↔ Q held { v with req := req } := by
  unfold p9Event
  rw [Dialogue.meets_bind]
  obtain ⟨e, he⟩ := p9Dispatch_of_asks_none (v := { v with req := req }) (π := π) (g := held)
    (Q := fun held r => (Dialogue.ret r.2 : Host P9).Meets π held Q) h
  exact he.trans (Dialogue.meets_ret _)

lemma p9Event_of_asks {t : TMsg} {c : Cur} (h : (P9Event.message req reqlen wcap).asks = some (t, c)) :
    (p9Event v (.message req reqlen wcap)).Meets π held Q ↔
      (p9Handler { v with req := req } t c (p9Header req reqlen).1.2 (min wcap p9MsizeMax)).Meets π held (Ends Q) := by
  unfold p9Event
  rw [Dialogue.meets_bind]
  refine (p9Dispatch_of_asks (v := { v with req := req }) h).trans ?_
  exact Dialogue.meets_congr fun held' r => Dialogue.meets_ret _

lemma p9Event_meets (hv : P9Sound root ro held v) (e : P9Event) :
    (p9Event v e).Meets (p9Contract (e.duty root ro v)) held fun held' v' =>
      P9Good (e.duty root ro v) held' v' ∧ e.After held v held' v' := by
  have hgood (msize : U32) (req : ℕ → U8) : P9Good (e.duty root ro v) held { v with msize := msize, req := req } :=
    ⟨⟨hv.root_eq, hv.ro_eq, hv.valid, fun hf => hv.normal hf, hv.owns⟩, fun hx _ => hx⟩
  cases e with
  | reset =>
    have hgone (x : U32) : P9Event.reset.gives x := .inl rfl
    unfold p9Event fsReset
    refine (fidsClear_meets (hgood _ v.req) fun k h hk => may_of_gone rfl (hgone k.1) k.2 h hk).mono fun held' v' h => ?_
    obtain ⟨rfl, rfl⟩ := h
    refine ⟨(hgood _ v.req).cleared hgone _, fun _ => ⟨rfl, fun _ => rfl⟩, fun t c h => ?_⟩
    cases h
  | message req reqlen wcap =>
    have hv' := hgood v.msize req
    cases hasks : (P9Event.message req reqlen wcap).asks with
    | none =>
      refine (p9Event_of_asks_none hasks).2 ⟨hv', fun h => ?_, fun t c h => ?_⟩
      · cases h
      · cases hasks.symm.trans h
    | some tc =>
      obtain ⟨t, c⟩ := tc
      refine (p9Event_of_asks hasks).2 ?_
      refine (p9Handler_meets c _ _ hv' rfl (fun x hx => .inr ⟨t, c, hasks, hx⟩) ?_).mono fun held' r h => ?_
      · rintro - rfl hslip
        exact ⟨c, hasks, hslip⟩
      · refine ⟨h.1, fun h => ?_, fun t' c' h' => ?_⟩
        · cases h
        · cases hasks.symm.trans h'
          exact h.2

lemma p9Event_sound {allowed : Set Handle → HostCall → Prop} (hv : P9Sound root ro held v) (e : P9Event)
    (h : ∀ held c, P9Call (e.duty root ro v) held c → allowed held c) :
    (p9Event v e).Meets (kernelProtocol allowed) held (P9Sound root ro) :=
  ((p9Event_meets hv e).weaken h).mono fun _ _ h => h.1.toP9Sound

lemma p9Session_sound {allowed : Set Handle → HostCall → Prop} {es : List P9Event} (hv : P9Sound root ro held v)
    (h : ∀ e ∈ es, ∀ held v, P9Sound root ro held v → (p9Event v e).Meets (kernelProtocol allowed) held (P9Sound root ro)) :
    (p9Session v es).Meets (kernelProtocol allowed) held (P9Sound root ro) := by
  induction es generalizing held v with
  | nil => exact (Dialogue.meets_ret _).2 hv
  | cons e es ih =>
    rw [p9Session, Dialogue.meets_bind]
    refine (h e (by simp) held v hv).mono fun held' v' hv' => ih hv' fun e' he' => h e' (by simp [he'])

lemma created_sound (root : Bytes) (root_lt : root.length < pathMax) (ro : Bool) :
    P9Sound root ro ∅ (P9.created root root_lt ro) := by
  refine ⟨rfl, rfl, .empty, fun hf => ?_, .empty⟩
  cases hf

lemma p9Session_created (root : Bytes) (root_lt : root.length < pathMax) (ro : Bool) (es : List P9Event) :
    (p9Session (P9.created root root_lt ro) es).Meets (kernelProtocol fun _ _ => True) ∅ (P9Sound root ro) :=
  p9Session_sound (created_sound root root_lt ro) fun e _ _ _ hv => p9Event_sound hv e fun _ _ _ => trivial

end Events

def attachMessage : P9Event :=
  let bytes : Bytes := [23, 0, 0, 0, 104, 1, 0, 1, 0, 0, 0, 255, 255, 255, 255, 0, 0, 0, 0, 0, 0, 0, 0]
  .message (fun i => bytes.getD i 0) bytes.length 4096

def HostCall.harmless (c : HostCall) : Bool := !c.modifies && c.opensReadOnly

def emptyFile : Stat := ⟨0x8000, 0, 0, 1, 0, 0, 0, 0, (0, 0), (0, 0), (0, 0), 0, 0⟩

lemma hLopen_slips {v : P9} {c : Cur} (tag : U16) (cap : ℕ) {held : Set Handle} {Q : Set Handle → Answer → Prop}
    (hs : v.slips c) : ¬ (hLopen v c tag cap).Meets (kernelProtocol fun _ c => c.harmless = true) held Q := by
  obtain ⟨herr, hfid, hwrite, h3⟩ := hs
  obtain ⟨f, hf⟩ := Option.ne_none_iff_exists'.1 hfid
  intro h
  have hparse : (do
      let fid ← cU32
      let fl ← cU32
      return (fid, fl) : Parse (U32 × U32)) c = (((cU32 c).1, secondU32 c), (cU32 (cU32 c).2).2) := rfl
  rw [hLopen, reading, hparse] at h
  dsimp only at h
  rw [failIf, if_neg (by simp [herr]), withFid, hf, Dialogue.meets_call] at h
  -- the host has a plain file there
  have hopen := h.2 (.ok emptyFile) fun _ ho => by cases ho
  rw [orFail, failIf, hwrite, if_neg (by simp), if_neg (by decide), Dialogue.meets_call] at hopen
  have hacc : (dotlToHost (secondU32 c)).acc = .rdwr := by
    unfold dotlToHost
    dsimp only
    rw [h3]
    rfl
  simpa [kernelProtocol, HostCall.harmless, HostCall.opensReadOnly, hacc] using hopen.1

lemma harmless_of_call {root : Bytes} {v : P9} {e : P9Event} {held : Set Handle} {c : HostCall} (hs : ¬ e.slips v)
    (hc : P9Call (e.duty root true v) held c) : c.harmless = true := by
  have hread := (hc.readOnly rfl).resolve_right hs
  simp [HostCall.harmless, hc.modifies rfl, hread]

/-- A read-only share is left as it is, and its files are opened for reading only, in every
session without a `Tlopen` that slips through; and one that does, slips through. -/
theorem read_only_share (root : Bytes) (root_lt : root.length < pathMax) (es : List P9Event) :
    ((∀ e ∈ es, ∀ v, ¬ e.slips v) →
      (p9Session (P9.created root root_lt true) es).Meets (kernelProtocol fun _ c => c.harmless = true) ∅
        fun _ _ => True) ∧
    (p9Session (P9.created root root_lt true) es).Meets (kernelProtocol fun _ _ => True) ∅ fun held v =>
      ∀ e : P9Event, (p9Event v e).Meets (kernelProtocol fun _ c => c.harmless = true) held (fun _ _ => True) ↔
        ¬ e.slips v := by
  have hsound := created_sound root root_lt true
  refine ⟨fun hes => ?_, ?_⟩
  · refine (p9Session_sound hsound fun e he held v hv => ?_).mono fun _ _ _ => trivial
    exact p9Event_sound hv e fun _ _ hc => harmless_of_call (hes e he v) hc
  · refine (p9Session_created root root_lt true es).mono fun held v hv e => ?_
    constructor
    · rintro h ⟨c, hasks, hs⟩
      cases e with
      | reset => cases hasks
      | message req reqlen wcap => exact hLopen_slips (v := { v with req := req }) _ _ hs ((p9Event_of_asks hasks).1 h)
    · intro hs
      exact (p9Event_sound hv e fun _ _ hc => harmless_of_call hs hc).mono fun _ _ _ => trivial

theorem read_only_share_attach :
    (p9Session (P9.created [slash, 0x73] (by decide) true) [attachMessage]).Meets
      (kernelProtocol fun _ c => c.harmless = true) ∅ fun _ _ => True := by
  have hasks : attachMessage.asks.map Prod.fst = some .attach := by decide +kernel
  refine (read_only_share [slash, 0x73] (by decide) [attachMessage]).1 fun e he v hs => ?_
  obtain ⟨c, hc, -⟩ := hs
  rw [List.mem_singleton.1 he] at hc
  rw [hc] at hasks
  cases hasks

def HostCall.refused : (c : HostCall) → c.Reply
  | lstat _ => .error 2
  | openFile .. => .error 2
  | close _ => ()
  | fstat _ => emptyFile
  | pread .. => .error 2
  | pwrite .. => .error 2
  | fsync .. => .error 2
  | opendir _ => .error 2
  | closedir _ => ()
  | rewinddir _ => ()
  | seekdir .. => ()
  | telldir _ => (0 : U64)
  | readdir _ => none
  | statfs _ => .error 2
  | readlink _ => .error 2
  | mkdir .. => .error 2
  | mknod .. => .error 2
  | symlink .. => .error 2
  | link .. => .error 2
  | rename .. => .error 2
  | unlink _ => .error 2
  | rmdir _ => .error 2
  | remove _ => .error 2
  | chmod .. => .error 2
  | lchown .. => .error 2
  | truncate .. => .error 2
  | utimensat .. => .error 2

/-- A host whose share holds one file, which it opens as descriptor 5. -/
def oneFileHost : (c : HostCall) → c.Reply
  | .lstat _ => .ok emptyFile
  | .openFile .. => .ok 5
  | c => c.refused

/-- The client of the share that walks to the file `f` and opens it with access mode 3. -/
def openMode3 : List P9Event :=
  let walk : Bytes := [20, 0, 0, 0, 110, 1, 0, 1, 0, 0, 0, 2, 0, 0, 0, 1, 0, 1, 0, 0x66]
  let lopen : Bytes := [15, 0, 0, 0, 12, 1, 0, 2, 0, 0, 0, 3, 0, 0, 0]
  [attachMessage, .message (fun i => walk.getD i 0) walk.length 4096,
    .message (fun i => lopen.getD i 0) lopen.length 4096]

/-- On a read-only share the file is opened for reading and writing. -/
theorem mode3_opens_for_writing :
    ((p9Session (P9.created [slash, 0x73] (by decide) true) openMode3).run (fun _ c => (oneFileHost c, ())) ()).1 =
      [.lstat [slash, 0x73], .lstat [slash, 0x73, slash, 0x66], .lstat [slash, 0x73, slash, 0x66],
        .openFile [slash, 0x73, slash, 0x66] ⟨.rdwr, false, false, false, false, false, false⟩ 0x1b6] := by
  decide +kernel

/-- Over any session, each fid has one entry, in its bucket, and what is open is what the
fids own, each handle by one of them. In the event that comes next only open handles are
closed, and only those of fids that the event makes give them up; the others keep theirs. -/
theorem handles_owned_once (root : Bytes) (root_lt : root.length < pathMax) (ro : Bool) (es : List P9Event)
    (e : P9Event) :
    (p9Session (P9.created root root_lt ro) es).Meets (kernelProtocol fun held c => ∀ h, c.closes = some h → h ∈ held) ∅
      fun held v =>
        (∀ i, ((v.fids i).map P9Fid.fid).Nodup ∧ ∀ f ∈ v.fids i, i.val = f.fid.toNat % 1024) ∧
        Owns v.owner held ∧
        (p9Event v e).Meets
          (kernelProtocol fun held' c => ∀ h, c.closes = some h →
            h ∈ held' ∧ ∃ x b, v.owner (x, b) = some h ∧ e.gives x) held
          fun held' v' =>
            (∀ x b h, v.owner (x, b) = some h → ¬ e.gives x → v'.owner (x, b) = some h) ∧ e.After held v held' v' := by
  have hclose {held : Set Handle} {d : P9Duty} {c : HostCall} {h : Handle} (hc : P9Call d held c)
      (hh : c.closes = some h) : h ∈ held := hc.uses h (HostCall.uses_of_closes hh)
  refine (p9Session_sound (created_sound root root_lt ro) fun e _ held v hv => ?_).mono fun held v hv => ?_
  · exact p9Event_sound hv e fun _ _ hc h hh => hclose hc hh
  · refine ⟨fun i => ⟨hv.valid.nodup i, fun f hf => ?_⟩, hv.owns, ?_⟩
    · rw [← hv.valid.bucket_eq hf, P9.bucket_val]
    · have hgives (held' : Set Handle) (c : HostCall) (hc : P9Call (e.duty root ro v) held' c) (h : Handle)
          (hh : c.closes = some h) : h ∈ held' ∧ ∃ x b, v.owner (x, b) = some h ∧ e.gives x := by
        obtain ⟨⟨x, b⟩, hx, hgone⟩ := hc.closes h hh
        exact ⟨hclose hc hh, x, b, hx, hgone⟩
      exact ((p9Event_meets hv e).weaken hgives).mono fun held' v' h =>
        ⟨fun x b h' hx hgone => h.1.kept hx hgone, h.2⟩

theorem handles_owned_once_attach :
    (p9Session (P9.created [slash, 0x73] (by decide) true) [attachMessage]).Meets
      (kernelProtocol fun held c => ∀ h, c.closes = some h → h ∈ held) ∅ fun held v => Owns v.owner held :=
  (handles_owned_once [slash, 0x73] (by decide) true [attachMessage] .reset).mono fun _ _ h => h.2.1

end Arm64Emu
