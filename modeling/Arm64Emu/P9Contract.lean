import Arm64Emu.Ownership
import Arm64Emu.P9

/-! What the handlers of the 9p device do to the host, said once: they act on paths in
normal form, use and close handles that are open and belong to a fid, and on a read-only
share change nothing. The facts about sessions are read off from this contract. -/
namespace Arm64Emu

inductive Handle
  | file (fd : ℕ)
  | dir (d : ℕ)
  deriving DecidableEq, Repr

namespace HostCall

def closes : HostCall → Option Handle
  | close fd => some (.file fd)
  | closedir d => some (.dir d)
  | _ => none

def uses : HostCall → Option Handle
  | close fd => some (.file fd)
  | fstat fd => some (.file fd)
  | pread fd _ _ => some (.file fd)
  | pwrite fd _ _ => some (.file fd)
  | fsync fd _ => some (.file fd)
  | closedir d => some (.dir d)
  | rewinddir d => some (.dir d)
  | seekdir d _ => some (.dir d)
  | telldir d => some (.dir d)
  | readdir d => some (.dir d)
  | _ => none

def opens : (c : HostCall) → c.Reply → Option Handle
  | openFile _ _ _, r => match r with
    | .ok fd => some (.file fd)
    | .error _ => none
  | opendir _, r => match r with
    | .ok d => some (.dir d)
    | .error _ => none
  | _, _ => none

/-- The paths that a call acts on. The target of a symbolic link is what the link holds,
not a path that the call acts on; `lstat` only looks. -/
def acts : HostCall → List Bytes
  | openFile p _ _ => [p]
  | opendir p => [p]
  | statfs p => [p]
  | readlink p => [p]
  | mkdir p _ => [p]
  | mknod p _ _ _ => [p]
  | symlink _ p => [p]
  | link a b => [a, b]
  | rename a b => [a, b]
  | unlink p => [p]
  | rmdir p => [p]
  | remove p => [p]
  | chmod p _ => [p]
  | lchown p _ _ => [p]
  | truncate p _ => [p]
  | utimensat p _ _ => [p]
  | _ => []

def modifies : HostCall → Bool
  | openFile _ fl _ => fl.creat || fl.trunc
  | pwrite .. => true
  | mkdir .. => true
  | mknod .. => true
  | symlink .. => true
  | link .. => true
  | rename .. => true
  | unlink _ => true
  | rmdir _ => true
  | remove _ => true
  | chmod .. => true
  | lchown .. => true
  | truncate .. => true
  | utimensat .. => true
  | _ => false

def opensReadOnly : HostCall → Bool
  | openFile _ fl _ => fl.acc = .rdonly
  | _ => true

def written : HostCall → Option Bytes
  | pwrite _ data _ => some data
  | _ => none

lemma uses_of_closes {c : HostCall} {h : Handle} (hc : c.closes = some h) : c.uses = some h := by
  cases c <;> first | exact hc | cases hc

end HostCall

/-- The kernel's side: an open never returns a handle that is open already. -/
def kernelProtocol (allowed : Set Handle → HostCall → Prop) : Protocol HostCall.Reply (Set Handle) where
  allowed := allowed
  answers held c r := ∀ h, c.opens r = some h → h ∉ held
  next held c r := (held \ {h | c.closes = some h}) ∪ {h | c.opens r = some h}

/-- What the device owes while it serves an event: the share it keeps to, who owned which
handle when the event came, the fids that the event makes give up their handles, and
whether a read-only share may be opened for writing after all. -/
structure P9Duty where
  root : Bytes
  ro : Bool
  own : U32 × Bool → Option Handle
  gone : U32 → Prop
  lax : Prop

def P9Duty.may (d : P9Duty) (h : Handle) : Prop := ∃ k, d.own k = some h ∧ d.gone k.1

structure P9Call (d : P9Duty) (held : Set Handle) (c : HostCall) : Prop where
  uses (h : Handle) : c.uses = some h → h ∈ held
  closes (h : Handle) : c.closes = some h → d.may h
  acts : ∀ p ∈ c.acts, NormalPath d.root p
  modifies : d.ro = true → c.modifies = false
  readOnly : d.ro = true → c.opensReadOnly = true ∨ d.lax

namespace P9Fid

def handle (f : P9Fid) : Bool → Option Handle
  | false => f.fd.map .file
  | true => f.dir.map .dir

end P9Fid

namespace P9

/-- Who owns which handle: a fid, for its file or for its directory. -/
def owner (v : P9) (k : U32 × Bool) : Option Handle := (v.fidFind k.1).bind (·.handle k.2)

variable {v : P9} {fid x : U32} {f : P9Fid} {g : P9Fid → P9Fid} {b : Bool}

lemma bucket_val (fid : U32) : (bucket fid).val = fid.toNat % 1024 := by
  show (fid &&& 1023).toNat = _
  rw [BitVec.toNat_and]
  exact Nat.and_two_pow_sub_one_eq_mod fid.toNat 10

lemma fid_of_find (h : v.fidFind fid = some f) : f.fid = fid := HashTable.key_of_find h

lemma owner_of_find (h : v.fidFind fid = some f) (b : Bool) : v.owner (fid, b) = f.handle b := by
  rw [owner, h, Option.bind_some]

lemma fidFind_modifyFid (hg : ∀ f, (g f).fid = f.fid) (hf : v.fidFind fid = some f) :
    (v.modifyFid fid g).fidFind x = if x = fid then some (g f) else v.fidFind x := by
  have hfind : (v.fidFind fid).map g = some (g f) := by rw [hf, Option.map_some]
  rw [← hfind]
  exact HashTable.find_modify hg

lemma owner_modifyFid_self (hg : ∀ f, (g f).fid = f.fid) (hf : v.fidFind fid = some f) (b : Bool) :
    (v.modifyFid fid g).owner (fid, b) = (g f).handle b :=
  owner_of_find ((fidFind_modifyFid hg hf).trans (if_pos rfl)) b

lemma owner_modifyFid (hg : ∀ f, (g f).fid = f.fid) (hf : v.fidFind fid = some f) :
    (v.modifyFid fid g).owner =
      Function.update (Function.update v.owner (fid, false) ((g f).handle false)) (fid, true) ((g f).handle true) := by
  funext ⟨x, b⟩
  rw [owner, fidFind_modifyFid hg hf]
  by_cases hx : x = fid
  · subst hx
    cases b <;> simp [Function.update]
  · simp [hx, owner, Function.update, Prod.ext_iff]

end P9

/-- The device keeps its share, its table and its handles in order. -/
structure P9Sound (root : Bytes) (ro : Bool) (held : Set Handle) (v : P9) : Prop where
  root_eq : v.root = root
  ro_eq : v.ro = ro
  valid : HashTable.Valid P9Fid.fid P9.bucket v.fids
  normal {x : U32} {f : P9Fid} : v.fidFind x = some f → NormalPath root f.path
  owns : Owns v.owner held

/-- In the course of an event, moreover, the fids that need not give up their handles
still have them. -/
structure P9Good (d : P9Duty) (held : Set Handle) (v : P9) : Prop extends P9Sound d.root d.ro held v where
  kept {x : U32} {b : Bool} {h : Handle} : d.own (x, b) = some h → ¬ d.gone x → v.owner (x, b) = some h

section Rules
variable {d : P9Duty} {held held' : Set Handle} {v : P9} {fid : U32} {f : P9Fid}
  {α : Type} {Q : Set Handle → α → Prop}

def p9Contract (d : P9Duty) : Protocol HostCall.Reply (Set Handle) :=
  kernelProtocol (P9Call d)

lemma meets_plain {c : HostCall} {k : c.Reply → Host α} (hc : P9Call d held c)
    (hclose : c.closes = none) (hopen : ∀ r, c.opens r = none)
    (hk : ∀ r, (k r).Meets (p9Contract d) held Q) :
    (Dialogue.call c k).Meets (p9Contract d) held Q := by
  refine (Dialogue.meets_call c k).2 ⟨hc, fun r _ => ?_⟩
  have hnext : (p9Contract d).next held c r = held := by
    simp [p9Contract, kernelProtocol, hclose, hopen]
  rw [hnext]
  exact hk r

lemma meets_open {c : HostCall} {k : c.Reply → Host α} (hc : P9Call d held c) (hclose : c.closes = none)
    (hnone : ∀ r, c.opens r = none → (k r).Meets (p9Contract d) held Q)
    (hsome : ∀ r h, c.opens r = some h → h ∉ held → (k r).Meets (p9Contract d) (insert h held) Q) :
    (Dialogue.call c k).Meets (p9Contract d) held Q := by
  refine (Dialogue.meets_call c k).2 ⟨hc, fun r hr => ?_⟩
  have hnext : (p9Contract d).next held c r = held ∪ {h | c.opens r = some h} := by
    simp [p9Contract, kernelProtocol, hclose]
  rw [hnext]
  cases ho : c.opens r with
  | none => simpa using hnone r ho
  | some h =>
    have hset : held ∪ {x | some h = some x} = insert h held := by
      ext x
      simp [eq_comm]
    rw [hset]
    exact hsome r h ho (hr h ho)

lemma meets_lstat {p : Bytes} {k : Except Errno Stat → Host α}
    (hk : ∀ r, (k r).Meets (p9Contract d) held Q) :
    (Dialogue.call (.lstat p) k).Meets (p9Contract d) held Q := by
  refine meets_plain ⟨?_, ?_, ?_, ?_, ?_⟩ rfl (fun _ => rfl) hk
  · intro h hu
    cases hu
  · intro h hc
    cases hc
  · intro p hp
    cases hp
  · intro _
    rfl
  · intro _
    exact .inl rfl

lemma meets_change {c : HostCall} {k : c.Reply → Host α} (hro : d.ro = false) (huse : c.uses = none)
    (hclose : c.closes = none) (hopen : ∀ r, c.opens r = none) (hp : ∀ p ∈ c.acts, NormalPath d.root p)
    (hk : ∀ r, (k r).Meets (p9Contract d) held Q) :
    (Dialogue.call c k).Meets (p9Contract d) held Q := by
  refine meets_plain ⟨?_, ?_, hp, ?_, ?_⟩ hclose hopen hk
  · intro h hu
    rw [huse] at hu
    cases hu
  · intro h hc
    rw [hclose] at hc
    cases hc
  · intro h
    rw [hro] at h
    cases h
  · intro h
    rw [hro] at h
    cases h

lemma meets_look {c : HostCall} {k : c.Reply → Host α} (hmod : c.modifies = false) (hread : c.opensReadOnly = true)
    (huse : c.uses = none) (hclose : c.closes = none) (hopen : ∀ r, c.opens r = none)
    (hp : ∀ p ∈ c.acts, NormalPath d.root p) (hk : ∀ r, (k r).Meets (p9Contract d) held Q) :
    (Dialogue.call c k).Meets (p9Contract d) held Q := by
  refine meets_plain ⟨?_, ?_, hp, fun _ => hmod, fun _ => .inl hread⟩ hclose hopen hk
  · intro h hu
    rw [huse] at hu
    cases hu
  · intro h hc
    rw [hclose] at hc
    cases hc

lemma meets_use {c : HostCall} {k : c.Reply → Host α} {h : Handle} (huse : c.uses = some h) (hh : h ∈ held)
    (hclose : c.closes = none) (hopen : ∀ r, c.opens r = none) (hacts : c.acts = [])
    (hmod : d.ro = true → c.modifies = false) (hread : c.opensReadOnly = true)
    (hk : ∀ r, (k r).Meets (p9Contract d) held Q) :
    (Dialogue.call c k).Meets (p9Contract d) held Q := by
  refine meets_plain ⟨?_, ?_, ?_, hmod, fun _ => .inl hread⟩ hclose hopen hk
  · intro x hu
    rw [huse] at hu
    cases hu
    exact hh
  · intro x hc
    rw [hclose] at hc
    cases hc
  · intro p hp
    rw [hacts] at hp
    cases hp

lemma meets_close {c : HostCall} {k : c.Reply → Host α} {h : Handle} (hclose : c.closes = some h)
    (huse : c.uses = some h) (hopen : ∀ r, c.opens r = none) (hacts : c.acts = []) (hmod : c.modifies = false)
    (hread : c.opensReadOnly = true) (hh : h ∈ held) (hmay : d.may h)
    (hk : ∀ r, (k r).Meets (p9Contract d) (held \ {h}) Q) :
    (Dialogue.call c k).Meets (p9Contract d) held Q := by
  refine (Dialogue.meets_call c k).2 ⟨⟨?_, ?_, ?_, fun _ => hmod, fun _ => .inl hread⟩, fun r _ => ?_⟩
  · intro x hx
    rw [huse] at hx
    cases hx
    exact hh
  · intro x hx
    rw [hclose] at hx
    cases hx
    exact hmay
  · intro p hp
    rw [hacts] at hp
    cases hp
  · have hnext : (p9Contract d).next held c r = held \ {h} := by
      ext x
      simp [p9Contract, kernelProtocol, hclose, hopen, eq_comm]
    rw [hnext]
    exact hk r

lemma meets_opendir {p : Bytes} {k : Except Errno ℕ → Host α} (hp : NormalPath d.root p)
    (herr : ∀ e, (k (.error e)).Meets (p9Contract d) held Q)
    (hok : ∀ dir, Handle.dir dir ∉ held → (k (.ok dir)).Meets (p9Contract d) (insert (Handle.dir dir) held) Q) :
    (Dialogue.call (.opendir p) k).Meets (p9Contract d) held Q := by
  refine meets_open ⟨?_, ?_, ?_, fun _ => rfl, fun _ => .inl rfl⟩ rfl (fun r hr => ?_) fun r h hr hh => ?_
  · intro h hu
    cases hu
  · intro h hc
    cases hc
  · intro q hq
    rw [List.mem_singleton.1 hq]
    exact hp
  · cases r with
    | error e => exact herr e
    | ok dir => cases hr
  · cases r with
    | error e => cases hr
    | ok dir =>
      cases hr
      exact hok dir hh

lemma meets_openFile {p : Bytes} {fl : OpenFlags} {mode : U32} {k : Except Errno ℕ → Host α} (hp : NormalPath d.root p)
    (hmod : d.ro = true → (HostCall.openFile p fl mode).modifies = false)
    (hread : d.ro = true → (HostCall.openFile p fl mode).opensReadOnly = true ∨ d.lax)
    (herr : ∀ e, (k (.error e)).Meets (p9Contract d) held Q)
    (hok : ∀ fd, Handle.file fd ∉ held → (k (.ok fd)).Meets (p9Contract d) (insert (Handle.file fd) held) Q) :
    (Dialogue.call (.openFile p fl mode) k).Meets (p9Contract d) held Q := by
  refine meets_open ⟨?_, ?_, ?_, hmod, hread⟩ rfl (fun r hr => ?_) fun r h hr hh => ?_
  · intro h hu
    cases hu
  · intro h hc
    cases hc
  · intro q hq
    rw [List.mem_singleton.1 hq]
    exact hp
  · cases r with
    | error e => exact herr e
    | ok fd => cases hr
  · cases r with
    | error e => cases hr
    | ok fd =>
      cases hr
      exact hok fd hh

lemma closeFd_meets (hin : ∀ h, f.handle false = some h → h ∈ held) (hmay : ∀ h, f.handle false = some h → d.may h)
    {Q : Set Handle → Unit → Prop} (hQ : Q (held \ {h | f.handle false = some h}) ()) :
    (closeFd f).Meets (p9Contract d) held Q := by
  unfold closeFd
  cases hfd : f.fd with
  | none => simpa [P9Fid.handle, hfd] using hQ
  | some fd =>
    have hh : f.handle false = some (.file fd) := by rw [P9Fid.handle, hfd, Option.map_some]
    have hset : {h | f.handle false = some h} = {Handle.file fd} := by
      ext h
      simp [hh, eq_comm]
    rw [hset] at hQ
    exact meets_close rfl rfl (fun _ => rfl) rfl rfl rfl (hin _ hh) (hmay _ hh) fun _ => (Dialogue.meets_ret _).2 hQ

lemma closeDir_meets (hin : ∀ h, f.handle true = some h → h ∈ held) (hmay : ∀ h, f.handle true = some h → d.may h)
    {Q : Set Handle → Unit → Prop} (hQ : Q (held \ {h | f.handle true = some h}) ()) :
    (closeDir f).Meets (p9Contract d) held Q := by
  unfold closeDir
  cases hd : f.dir with
  | none => simpa [P9Fid.handle, hd] using hQ
  | some dir =>
    have hh : f.handle true = some (.dir dir) := by rw [P9Fid.handle, hd, Option.map_some]
    have hset : {h | f.handle true = some h} = {Handle.dir dir} := by
      ext h
      simp [hh, eq_comm]
    rw [hset] at hQ
    exact meets_close rfl rfl (fun _ => rfl) rfl rfl rfl (hin _ hh) (hmay _ hh) fun _ => (Dialogue.meets_ret _).2 hQ

lemma closeHandles_meets (hin : ∀ b h, f.handle b = some h → h ∈ held) (hmay : ∀ b h, f.handle b = some h → d.may h)
    {Q : Set Handle → Unit → Prop} (hQ : Q ((held \ {h | f.handle false = some h}) \ {h | f.handle true = some h}) ()) :
    (closeHandles f).Meets (p9Contract d) held Q := by
  have hne (h : Handle) (hh : f.handle true = some h) : h ∉ {h | f.handle false = some h} := by
    -- a directory stream is never a descriptor
    intro hf
    cases hd : f.dir <;> cases hfd : f.fd <;> simp_all [P9Fid.handle]
  have hdir (h : Handle) (hh : f.handle true = some h) : h ∈ held \ {h | f.handle false = some h} :=
    ⟨hin true h hh, hne h hh⟩
  rw [closeHandles, Dialogue.meets_bind]
  exact closeFd_meets (hin false) (hmay false) (closeDir_meets hdir (hmay true) hQ)

lemma closeHandles_owns {own : U32 × Bool → Option Handle} (ho : Owns own held)
    (hf : ∀ b, own (fid, b) = f.handle b) (hmay : ∀ b h, own (fid, b) = some h → d.may h) {Q : Set Handle → Unit → Prop}
    (hQ : ∀ held', Owns (Function.update (Function.update own (fid, false) none) (fid, true) none) held' → Q held' ()) :
    (closeHandles f).Meets (p9Contract d) held Q := by
  refine closeHandles_meets (fun b h hh => ?_) (fun b h hh => hmay b h ((hf b).trans hh)) (hQ _ ?_)
  · exact (ho.mem_iff h).2 ⟨(fid, b), (hf b).trans hh⟩
  · have h1 := ho.drop (fid, false)
    have h2 := h1.drop (fid, true)
    have hkey : ((fid, true) : U32 × Bool) ≠ (fid, false) := by simp
    rwa [Function.update_of_ne hkey, hf, hf] at h2

lemma P9Good.modifyFid {g : P9Fid → P9Fid} (hv : P9Good d held v) (hf : v.fidFind fid = some f)
    (hg : ∀ f, (g f).fid = f.fid) (hp : NormalPath d.root (g f).path)
    (ho : Owns (Function.update (Function.update v.owner (fid, false) ((g f).handle false)) (fid, true) ((g f).handle true))
      held') (hkeep : d.gone fid ∨ ∀ b h, f.handle b = some h → (g f).handle b = some h) :
    P9Good d held' (v.modifyFid fid g) where
  root_eq := hv.root_eq
  ro_eq := hv.ro_eq
  valid := hv.valid.modify fid hg
  normal {x e} he := by
    rw [P9.fidFind_modifyFid hg hf] at he
    split at he
    · cases he
      exact hp
    · exact hv.normal he
  owns := by
    rw [P9.owner_modifyFid hg hf]
    exact ho
  kept {x b h} hx hgone := by
    have hold := hv.kept hx hgone
    rw [P9.owner, P9.fidFind_modifyFid hg hf]
    by_cases hxf : x = fid
    · subst hxf
      rw [P9.owner_of_find hf] at hold
      rw [if_pos rfl, Option.bind_some]
      exact (hkeep.resolve_left hgone) b h hold
    · rw [if_neg hxf]
      exact hold

lemma owner_update_self (hf : v.fidFind fid = some f) :
    Function.update (Function.update v.owner (fid, false) (f.handle false)) (fid, true) (f.handle true) = v.owner := by
  rw [← P9.owner_of_find hf false, ← P9.owner_of_find hf true, Function.update_eq_self, Function.update_eq_self]

lemma P9Good.insertFid {path : Bytes} (hv : P9Good d held v) (hf : v.fidFind fid = none)
    (hp : NormalPath d.root path) : P9Good d held (v.insertFid ⟨fid, none, none, path⟩) := by
  have hfind (x : U32) : (v.insertFid ⟨fid, none, none, path⟩).fidFind x =
      if x = fid then some ⟨fid, none, none, path⟩ else v.fidFind x := HashTable.find_insert
  have howner : (v.insertFid ⟨fid, none, none, path⟩).owner = v.owner := by
    funext ⟨x, b⟩
    rw [P9.owner, P9.owner, hfind]
    split
    · rename_i hx
      dsimp only at hx
      rw [hx, hf]
      cases b <;> rfl
    · rfl
  refine ⟨⟨hv.root_eq, hv.ro_eq, hv.valid.insert hf, fun {x e} he => ?_, howner ▸ hv.owns⟩, ?_⟩
  · rw [hfind] at he
    split at he
    · cases he
      exact hp
    · exact hv.normal he
  · intro x b h hx hgone
    rw [howner]
    exact hv.kept hx hgone

lemma P9Good.eraseFid (hv : P9Good d held v) (hgone : d.gone fid)
    (ho : Owns (Function.update (Function.update v.owner (fid, false) none) (fid, true) none) held') :
    P9Good d held' (v.eraseFid fid) := by
  have hfind (x : U32) : (v.eraseFid fid).fidFind x = if x = fid then none else v.fidFind x :=
    HashTable.find_erase hv.valid
  have howner : (v.eraseFid fid).owner = Function.update (Function.update v.owner (fid, false) none) (fid, true) none := by
    funext ⟨x, b⟩
    rw [P9.owner, hfind]
    by_cases hx : x = fid
    · subst hx
      cases b <;> simp [Function.update]
    · simp [hx, P9.owner, Function.update, Prod.ext_iff]
  refine ⟨⟨hv.root_eq, hv.ro_eq, hv.valid.erase fid, fun {x e} he => ?_, howner ▸ ho⟩, ?_⟩
  · rw [hfind] at he
    split at he
    · cases he
    · exact hv.normal he
  · intro x b h hx hxgone
    have hne : x ≠ fid := fun hx => hxgone (hx ▸ hgone)
    rw [P9.owner, hfind, if_neg hne]
    exact hv.kept hx hxgone

lemma may_of_gone (hown : d.own = v.owner) (hgone : d.gone fid) (b : Bool) (h : Handle) (hh : v.owner (fid, b) = some h) :
    d.may h := ⟨(fid, b), hown ▸ hh, hgone⟩

lemma fidNew_meets {path : Bytes} (hv : P9Good d held v) (hown : d.own = v.owner) (hgone : d.gone fid)
    (hp : NormalPath d.root path) :
    (fidNew v fid path).Meets (p9Contract d) held fun held' v' => P9Good d held' v' ∧ ∀ b, v'.owner (fid, b) = none := by
  unfold fidNew
  rw [hp.pathBuf]
  cases hf : v.fidFind fid with
  | none =>
    refine (Dialogue.meets_ret _).2 ⟨hv.insertFid hf hp, fun b => ?_⟩
    have hfind : (v.insertFid ⟨fid, none, none, path⟩).fidFind fid = some ⟨fid, none, none, path⟩ :=
      HashTable.find_insert.trans (if_pos rfl)
    rw [P9.owner_of_find hfind]
    cases b <;> rfl
  | some f =>
    dsimp only
    rw [Dialogue.meets_bind]
    refine closeHandles_owns hv.owns (P9.owner_of_find hf) (may_of_gone hown hgone) fun held' ho => ?_
    refine (Dialogue.meets_ret _).2 ⟨hv.modifyFid hf (fun _ => rfl) hp ho (.inl hgone), fun b => ?_⟩
    refine (P9.owner_modifyFid_self (fun _ => ?_) hf b).trans ?_
    · rfl
    · cases b <;> rfl

lemma fidDel_meets (hv : P9Good d held v) (hown : d.own = v.owner) (hgone : d.gone fid) :
    (fidDel v fid).Meets (p9Contract d) held fun held' v' => P9Good d held' v' ∧ v'.fidFind fid = none := by
  unfold fidDel
  cases hf : v.fidFind fid with
  | none => exact (Dialogue.meets_ret _).2 ⟨hv, hf⟩
  | some f =>
    dsimp only
    rw [Dialogue.meets_bind]
    refine closeHandles_owns hv.owns (P9.owner_of_find hf) (may_of_gone hown hgone) fun held' ho =>
      (Dialogue.meets_ret _).2 ⟨hv.eraseFid hgone ho, ?_⟩
    exact (HashTable.find_erase hv.valid).trans (if_pos rfl)

lemma closeAll_meets {fs : List P9Fid} {own : U32 × Bool → Option Handle} (ho : Owns own held)
    (hfs : (fs.map P9Fid.fid).Nodup) (hf : ∀ f ∈ fs, ∀ b, own (f.fid, b) = f.handle b)
    (hmay : ∀ k h, own k = some h → d.may h) :
    (closeAll fs).Meets (p9Contract d) held fun held' _ =>
      Owns (fun k => if k.1 ∈ fs.map P9Fid.fid then none else own k) held' := by
  induction fs generalizing own held with
  | nil => simpa [closeAll] using ho
  | cons f fs ih =>
    rw [List.map_cons, List.nodup_cons] at hfs
    rw [closeAll, Dialogue.meets_bind]
    refine closeHandles_owns ho (hf f (by simp)) (fun b h => hmay _ h) fun held' ho' => ?_
    -- what is left is owned as before, except by the fid just closed
    have hown (k : U32 × Bool) : Function.update (Function.update own (f.fid, false) none) (f.fid, true) none k =
        if k.1 = f.fid then none else own k := by
      obtain ⟨x, b⟩ := k
      by_cases hx : x = f.fid
      · subst hx
        cases b <;> simp [Function.update]
      · simp [hx, Function.update, Prod.ext_iff]
    refine (ih ho' hfs.2 (fun e he b => ?_) fun k h hk => ?_).mono fun held'' _ ho'' => ?_
    · have hne : e.fid ≠ f.fid := fun h => hfs.1 (h ▸ List.mem_map_of_mem he)
      rw [hown, if_neg hne]
      exact hf e (by simp [he]) b
    · rw [hown] at hk
      split at hk
      · cases hk
      · exact hmay k h hk
    · have hfun : (fun k : U32 × Bool => if k.1 ∈ (f :: fs).map P9Fid.fid then none else own k) = fun k =>
          if k.1 ∈ fs.map P9Fid.fid then none else
            Function.update (Function.update own (f.fid, false) none) (f.fid, true) none k := by
        funext k
        rw [hown, List.map_cons]
        by_cases h1 : k.1 ∈ fs.map P9Fid.fid <;> by_cases h2 : k.1 = f.fid <;> simp [h1, h2]
      rw [hfun]
      exact ho''

lemma nodup_flatMap_fids (hv : HashTable.Valid P9Fid.fid P9.bucket v.fids) :
    (((List.finRange 1024).flatMap v.fids).map P9Fid.fid).Nodup := by
  have hne : (List.finRange 1024).Pairwise (· ≠ ·) := List.nodup_finRange 1024
  rw [List.map_flatMap, List.nodup_flatMap]
  refine ⟨fun i _ => hv.nodup i, hne.imp fun {i j} hij => ?_⟩
  intro x hx hy
  obtain ⟨e, he, rfl⟩ := List.mem_map.1 hx
  obtain ⟨d, hd, hde⟩ := List.mem_map.1 hy
  exact hij (by rw [← hv.bucket_eq he, ← hv.bucket_eq hd, hde])

lemma fidsClear_meets (hv : P9Good d held v) (hmay : ∀ k h, v.owner k = some h → d.may h) :
    (fidsClear v).Meets (p9Contract d) held fun held' v' =>
      held' = ∅ ∧ v' = { v with fids := fun _ => [] } := by
  have hmem {x : U32} {f : P9Fid} (hf : v.fidFind x = some f) : f ∈ (List.finRange 1024).flatMap v.fids := by
    rw [List.mem_flatMap]
    exact ⟨P9.bucket x, List.mem_finRange _, List.mem_of_find?_eq_some hf⟩
  have hown (f : P9Fid) (hf : f ∈ (List.finRange 1024).flatMap v.fids) (b : Bool) : v.owner (f.fid, b) = f.handle b := by
    obtain ⟨i, -, hi⟩ := List.mem_flatMap.1 hf
    exact P9.owner_of_find (hv.valid.mem_iff.1 hi).2 b
  have hnodup := nodup_flatMap_fids hv.valid
  unfold fidsClear
  generalize (List.finRange 1024).flatMap v.fids = fs at *
  rw [Dialogue.meets_bind]
  refine (closeAll_meets hv.owns hnodup hown hmay).mono fun held' _ ho =>
    (Dialogue.meets_ret _).2 ⟨ho.eq_empty fun k => ?_, rfl⟩
  split
  · rfl
  · rename_i hk
    cases hf : v.fidFind k.1 with
    | none => rw [P9.owner, hf, Option.bind_none]
    | some f => exact absurd (List.mem_map.2 ⟨f, hmem hf, P9.fid_of_find hf⟩) hk

lemma P9Good.cleared (hv : P9Good d held v) (hgone : ∀ x, d.gone x) (msize : U32) :
    P9Good d ∅ { v with fids := fun _ => [], msize := msize } := by
  refine ⟨⟨hv.root_eq, hv.ro_eq, .empty, fun hf => ?_, ?_⟩, fun _ hx => absurd (hgone _) hx⟩
  · cases hf
  · exact .empty

end Rules

end Arm64Emu
