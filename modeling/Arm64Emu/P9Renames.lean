import Arm64Emu.P9Sessions

/-! Renames through the 9p device. A fid stands for a host object by its path, so that a
rename on the host changes what other fids stand for, in ways that the device does not
follow. -/
namespace Arm64Emu

abbrev Naming (O : Type) := Bytes → Option O

/-- How a host renames: whether it can, and the names afterwards. The new path then names
what the old one did. Apart from this nothing is said about other names, which may be
affected through links. -/
structure Renamer (O : Type) where
  can : Naming O → Bytes → Bytes → Prop
  host : Naming O → Bytes → Bytes → Naming O
  host_new {ρ : Naming O} {a b : Bytes} : can ρ a b → host ρ a b b = ρ a

def Under (a p : Bytes) : Prop := p = a ∨ ∃ rest, p = a ++ slash :: rest

/-- A rename that a message asks for: the two paths, and the fid that is to follow. -/
structure Renaming where
  old : Bytes
  new : Bytes
  moved : Option U32
  deriving DecidableEq, Repr

/-- The rename that comes of a message, if it gets as far as the host. -/
def P9.renaming (v : P9) (t : TMsg) (c : Cur) : Option Renaming :=
  match t with
  | .rename =>
    let (fid, c) := cU32 c
    let (dfid, c) := cU32 c
    let (name, c) := cStr p9NameMax c
    if c.err then none else if v.ro then none
    else do
      let f ← v.fidFind fid
      let df ← v.fidFind dfid
      let child ← (pathChild v.root df.path name.1).toOption
      return ⟨f.path, child, some fid⟩
  | .renameat =>
    let (od, c) := cU32 c
    let (oldn, c) := cStr p9NameMax c
    let (nd, c) := cU32 c
    let (newn, c) := cStr p9NameMax c
    if c.err then none else if v.ro then none
    else do
      let of ← v.fidFind od
      let nf ← v.fidFind nd
      let op ← (pathChild v.root of.path oldn.1).toOption
      let np ← (pathChild v.root nf.path newn.1).toOption
      return ⟨op, np, none⟩
  | _ => none

def Renaming.after (m : Renaming) (v : P9) : P9 :=
  match m.moved with
  | some fid => v.modifyFid fid fun f => { f with path := pathBuf m.new }
  | none => v

section Following
variable {O : Type}

/-- A fid with path `p`, and `p'` after a rename of `a`, stands for the same object if that
was in the renamed part of the tree, and does not begin to stand for another one. -/
def Kept (a : Bytes) (ρ : Naming O) (p : Bytes) (ρ' : Naming O) (p' : Bytes) : Prop :=
  (∀ o q, Under a q → ρ q = some o → ρ p = some o → ρ' p' = some o) ∧ ∀ o, ρ' p' = some o → ρ p = some o

def Follows (a : Bytes) (ρ : Naming O) (v : P9) (ρ' : Naming O) (v' : P9) : Prop :=
  ∀ x, match v.fidFind x, v'.fidFind x with
    | some f, some f' => Kept a ρ f.path ρ' f'.path
    | none, none => True
    | _, _ => False

/-- The host's side of a conversation, as far as renames are concerned. -/
def namingProtocol (R : Renamer O) : Protocol HostCall.Reply (Naming O) where
  allowed _ _ := True
  answers ρ c r := match c, r with
    | .rename a b, .ok _ => R.can ρ a b
    | _, _ => True
  next ρ c r := match c, r with
    | .rename a b, .ok _ => R.host ρ a b
    | _, _ => ρ

/-- What must hold for the fids to follow: the fids that the device does not move stand for
the same as before. -/
def Renaming.Undisturbed (R : Renamer O) (ρ : Naming O) (v : P9) (m : Renaming) : Prop :=
  R.can ρ m.old m.new → ∀ x f, v.fidFind x = some f → m.moved ≠ some x →
    Kept m.old ρ f.path (R.host ρ m.old m.new) f.path

end Following

section Handlers
variable {O : Type} {v : P9} {c : Cur} {tag : U16} {cap : ℕ}

/-- A handler that ends in an error, or makes the one call `m` and then answers with `o`. -/
def Serves (v : P9) (o : Out) (p : Host Answer) (m : Option Renaming) : Prop :=
  ∀ {O : Type} (R : Renamer O) (ρ : Naming O) (Q : Naming O → Answer → Prop), (∀ e, Q ρ (.error e, v)) →
    (p.Meets (namingProtocol R) ρ Q ↔
      ∀ n, m = some n → R.can ρ n.old n.new → Q (R.host ρ n.old n.new) (.ok o, n.after v))

variable {o : Out}

lemma serves_fail {e : Errno} : Serves v o (fail v e) none := by
  intro O R ρ Q herr
  refine iff_of_true ((Dialogue.meets_ret _).2 (herr e)) fun n hn => ?_
  cases hn

lemma serves_failIf {b : Bool} {e : Errno} {p : Host Answer} {m : Option Renaming} (h : Serves v o p m) :
    Serves v o (failIf b e v p) (if b then none else m) := by
  unfold failIf
  split
  · exact serves_fail
  · exact h

lemma serves_withFid {fid : U32} {k : P9Fid → Host Answer} {m : P9Fid → Option Renaming}
    (h : ∀ f, Serves v o (k f) (m f)) : Serves v o (withFid v fid k) ((v.fidFind fid).bind m) := by
  unfold withFid
  split
  · rename_i hnone
    rw [hnone]
    exact serves_fail
  · rename_i f hf
    rw [hf]
    exact h f

lemma serves_orFail {α : Type} {x : Except Errno α} {k : α → Host Answer} {m : α → Option Renaming}
    (h : ∀ a, Serves v o (k a) (m a)) : Serves v o (orFail v x k) (x.toOption.bind m) := by
  cases x with
  | error e => exact serves_fail
  | ok a => exact h a

lemma serves_rename (n : Renaming) :
    Serves v o (.call (.rename n.old n.new) fun r => orFail v r fun _ => done (n.after v) o) (some n) := by
  intro O R ρ Q herr
  rw [Dialogue.meets_call]
  constructor
  · rintro ⟨-, h⟩ n' hn hcan
    cases hn
    exact (Dialogue.meets_ret _).1 (h (.ok ()) hcan)
  · intro h
    refine ⟨trivial, fun r hr => ?_⟩
    cases r with
    | error e => exact (Dialogue.meets_ret _).2 (herr e)
    | ok u => exact (Dialogue.meets_ret _).2 (h n rfl hr)

lemma hRename_renames : Serves v (respBegin 21 tag cap) (hRename v c tag cap) (v.renaming .rename c) :=
  serves_failIf <| serves_failIf <| serves_withFid fun f => serves_withFid fun _ => serves_orFail fun child =>
    serves_rename ⟨f.path, child, some (cU32 c).1⟩

lemma hRenameat_serves : Serves v (respBegin 75 tag cap) (hRenameat v c tag cap) (v.renaming .renameat c) :=
  serves_failIf <| serves_failIf <| serves_withFid fun _ => serves_withFid fun _ => serves_orFail fun op =>
    serves_orFail fun np => serves_rename ⟨op, np, none⟩

end Handlers

section Table
variable {O : Type} {R : Renamer O} {ρ : Naming O} {root : Bytes} {ro : Bool} {held : Set Handle} {v : P9} {c : Cur}
  {m : Renaming}

lemma renaming_moved (hv : P9Sound root ro held v) {t : TMsg} (hm : v.renaming t c = some m) {x : U32}
    (hx : m.moved = some x) : (∃ f, v.fidFind x = some f ∧ f.path = m.old) ∧ pathBuf m.new = m.new := by
  cases t with
  | rename =>
    let name := (cStr p9NameMax (cU32 (cU32 c).2).2).1
    have hdef : v.renaming .rename c = if (cStr p9NameMax (cU32 (cU32 c).2).2).2.err then none else if v.ro then none
        else (v.fidFind (cU32 c).1).bind fun f => (v.fidFind (cU32 (cU32 c).2).1).bind fun df =>
          (pathChild v.root df.path name.1).toOption.bind fun child => some ⟨f.path, child, some (cU32 c).1⟩ := rfl
    rw [hdef] at hm
    split_ifs at hm
    obtain ⟨f, hf, hm⟩ := Option.bind_eq_some_iff.1 hm
    obtain ⟨df, hdf, hm⟩ := Option.bind_eq_some_iff.1 hm
    obtain ⟨child, hchild, hm⟩ := Option.bind_eq_some_iff.1 hm
    cases hm
    cases hx
    have hok : pathChild root df.path name.1 = .ok child := by
      rw [← hv.root_eq]
      cases h : pathChild v.root df.path name.1 with
      | error e =>
        rw [h] at hchild
        cases hchild
      | ok a =>
        rw [h] at hchild
        cases hchild
        rfl
    have hroot : root.length < pathMax := hv.root_eq ▸ v.root_lt
    exact ⟨⟨f, hf, rfl⟩, (pathChild_normal hroot (hv.normal hdf) name.2 hok).pathBuf⟩
  | renameat =>
    have hdef : v.renaming .renameat c =
        let c₁ := (cU32 c).2
        let c₂ := (cStr p9NameMax c₁).2
        let c₃ := (cU32 c₂).2
        if (cStr p9NameMax c₃).2.err then none else if v.ro then none
        else (v.fidFind (cU32 c).1).bind fun of => (v.fidFind (cU32 c₂).1).bind fun nf =>
          (pathChild v.root of.path (cStr p9NameMax c₁).1.1).toOption.bind fun op =>
          (pathChild v.root nf.path (cStr p9NameMax c₃).1.1).toOption.bind fun np => some ⟨op, np, none⟩ := rfl
    rw [hdef] at hm
    dsimp only at hm
    split_ifs at hm
    obtain ⟨of, -, hm⟩ := Option.bind_eq_some_iff.1 hm
    obtain ⟨nf, -, hm⟩ := Option.bind_eq_some_iff.1 hm
    obtain ⟨op, -, hm⟩ := Option.bind_eq_some_iff.1 hm
    obtain ⟨np, -, hm⟩ := Option.bind_eq_some_iff.1 hm
    cases hm
    cases hx
  | _ => cases hm

/-- The table after a rename: the moved fid has the new path, the others are as they were. -/
lemma fidFind_after (hv : P9Sound root ro held v) {t : TMsg} (hm : v.renaming t c = some m) (x : U32) :
    (m.after v).fidFind x = (v.fidFind x).map fun f => if m.moved = some x then { f with path := m.new } else f := by
  unfold Renaming.after
  split
  · rename_i y hy
    obtain ⟨⟨f, hf, -⟩, hbuf⟩ := renaming_moved hv hm hy
    have hfind : (v.modifyFid y fun f => { f with path := pathBuf m.new }).fidFind x =
        if x = y then some { f with path := pathBuf m.new } else v.fidFind x :=
      P9.fidFind_modifyFid (g := fun f => { f with path := pathBuf m.new }) (fun _ => rfl) hf
    rw [hfind, hbuf, hy]
    by_cases hx : x = y
    · subst hx
      simp [hf]
    · have hne : ¬ some y = some x := fun h => hx (Option.some.inj h).symm
      simp [hx, hne]
  · rename_i hnone
    simp [hnone]

/-- The device moves one fid at most, and that one rightly; so all fids follow exactly if
the others are not disturbed. -/
lemma follows_iff (hv : P9Sound root ro held v) {t : TMsg} (hm : v.renaming t c = some m) (hcan : R.can ρ m.old m.new) :
    Follows m.old ρ v (R.host ρ m.old m.new) (m.after v) ↔
      ∀ x f, v.fidFind x = some f → m.moved ≠ some x → Kept m.old ρ f.path (R.host ρ m.old m.new) f.path := by
  have hmoved : Kept m.old ρ m.old (R.host ρ m.old m.new) m.new := by
    rw [Kept, R.host_new hcan]
    exact ⟨fun _ _ _ _ h => h, fun _ h => h⟩
  have hfollows : Follows m.old ρ v (R.host ρ m.old m.new) (m.after v) ↔ ∀ x f, v.fidFind x = some f →
      Kept m.old ρ f.path (R.host ρ m.old m.new) (if m.moved = some x then { f with path := m.new } else f).path := by
    unfold Follows
    refine forall_congr' fun x => ?_
    rw [fidFind_after hv hm x]
    cases v.fidFind x with
    | none => simp
    | some f => simp
  rw [hfollows]
  refine forall_congr' fun x => forall_congr' fun f => forall_congr' fun hf => ?_
  split
  · rename_i hx
    obtain ⟨⟨f', hf', hpath⟩, -⟩ := renaming_moved hv hm hx
    rw [hf] at hf'
    cases hf'
    rw [hpath]
    exact iff_of_true hmoved fun h => absurd hx h
  · rename_i hx
    exact ⟨fun h _ => h, fun h => h hx⟩

end Table

section Plain
variable {O : Type} [DecidableEq O] {ρ : Naming O} {a b p rest : Bytes}

def relative (a p : Bytes) : Option Bytes :=
  if a.isPrefixOf p then
    match p.drop a.length with
    | [] => some []
    | s :: rest => if s = slash then some (s :: rest) else none
  else none

omit [DecidableEq O] in
lemma relative_eq_some_iff : relative a p = some rest ↔ p = a ++ rest ∧ (rest = [] ∨ ∃ r, rest = slash :: r) := by
  unfold relative
  constructor
  · intro h
    split at h
    · rename_i hpre
      obtain ⟨t, rfl⟩ := List.isPrefixOf_iff_prefix.1 hpre
      rw [List.drop_left] at h
      cases t with
      | nil =>
        cases h
        exact ⟨rfl, .inl rfl⟩
      | cons s t =>
        dsimp only at h
        split at h
        · rename_i hs
          cases h
          exact ⟨rfl, .inr ⟨t, by rw [hs]⟩⟩
        · cases h
    · cases h
  · rintro ⟨rfl, hrest⟩
    rw [if_pos (List.isPrefixOf_iff_prefix.2 (List.prefix_append a rest)), List.drop_left]
    obtain rfl | ⟨r, rfl⟩ := hrest
    · rfl
    · simp

omit [DecidableEq O] in
lemma relative_isSome_iff : (relative a p).isSome = true ↔ Under a p := by
  rw [Option.isSome_iff_exists]
  constructor
  · rintro ⟨rest, hrest⟩
    obtain ⟨rfl, rfl | ⟨r, rfl⟩⟩ := relative_eq_some_iff.1 hrest
    · exact .inl (List.append_nil a)
    · exact .inr ⟨r, rfl⟩
  · rintro (rfl | ⟨r, rfl⟩)
    · exact ⟨[], relative_eq_some_iff.2 ⟨(List.append_nil p).symm, .inl rfl⟩⟩
    · exact ⟨slash :: r, relative_eq_some_iff.2 ⟨rfl, .inr ⟨r, rfl⟩⟩⟩

/-- A host without links between its directories: what is at and below the old path is
afterwards at and below the new one, whose place must be free. A rename of an object to a
path that names it already does nothing. -/
def plainRenamer (O : Type) [DecidableEq O] : Renamer O where
  can ρ a b := ρ a ≠ none ∧ (ρ a ≠ ρ b → (¬ ∃ rest, b = a ++ slash :: rest) ∧ ∀ rest, ρ (b ++ slash :: rest) = none)
  host ρ a b p :=
    if ρ a = ρ b then ρ p
    else match relative b p with
      | some rest => ρ (a ++ rest)
      | none => if (relative a p).isSome then none else ρ p
  host_new := by
    intro ρ a b _
    have hself : relative b b = some [] := relative_eq_some_iff.2 ⟨(List.append_nil b).symm, .inl rfl⟩
    split
    · rename_i heq
      exact heq.symm
    · rw [hself]
      simp

/-- The path of a fid that a rename disturbs on such a host: it names an object at or below
the old path, or is at or below the new path where an object is moved to. -/
def Disturbs (ρ : Naming O) (a b p : Bytes) : Prop :=
  ρ a ≠ ρ b ∧ ((∃ rest, relative b p = some rest ∧ ρ (a ++ rest) ≠ none) ∨
    relative b p = none ∧ Under a p ∧ ρ p ≠ none)

lemma kept_plain_iff (hcan : (plainRenamer O).can ρ a b) :
    Kept a ρ p ((plainRenamer O).host ρ a b) p ↔ ¬ Disturbs ρ a b p := by
  have hhost : (plainRenamer O).host ρ a b p = if ρ a = ρ b then ρ p else match relative b p with
      | some rest => ρ (a ++ rest)
      | none => if (relative a p).isSome then none else ρ p := rfl
  unfold Kept Disturbs
  rw [hhost]
  by_cases heq : ρ a = ρ b
  · rw [if_pos heq]
    refine iff_of_true ⟨fun _ _ _ _ h => h, fun _ h => h⟩ fun h => h.1 heq
  rw [if_neg heq, and_iff_right heq]
  cases hrel : relative b p with
  | some rest =>
    obtain ⟨rfl, hrest⟩ := relative_eq_some_iff.1 hrel
    dsimp only
    -- something is moved here, and there was nothing here before or another object
    have hmoved : ρ (a ++ rest) = none → ρ (b ++ rest) = none := by
      obtain rfl | ⟨r, rfl⟩ := hrest
      · simpa using fun h => absurd h hcan.1
      · exact fun _ => (hcan.2 heq).2 r
    have hother : ρ (a ++ rest) ≠ none → ρ (b ++ rest) ≠ ρ (a ++ rest) := by
      obtain rfl | ⟨r, rfl⟩ := hrest
      · simpa using fun _ => Ne.symm heq
      · intro hne h
        rw [(hcan.2 heq).2 r] at h
        exact hne h.symm
    constructor
    · rintro ⟨-, hnew⟩ (⟨rest', hrest', hne⟩ | ⟨h, -⟩)
      · cases hrest'
        obtain ⟨o, ho⟩ := Option.ne_none_iff_exists'.1 hne
        exact hother hne ((hnew o ho).trans ho.symm)
      · cases h
    · intro hfree
      have hnone : ρ (a ++ rest) = none := by
        by_contra hne
        exact hfree (.inl ⟨rest, rfl, hne⟩)
      rw [hnone, hmoved hnone]
      exact ⟨fun _ _ _ _ h => h, fun _ h => h⟩
  | none =>
    dsimp only
    by_cases hunder : Under a p
    · rw [if_pos (relative_isSome_iff.2 hunder)]
      constructor
      · rintro ⟨hold, -⟩ (⟨rest, hrest, -⟩ | ⟨-, -, hne⟩)
        · cases hrest
        · obtain ⟨o, ho⟩ := Option.ne_none_iff_exists'.1 hne
          cases hold o p hunder ho ho
      · intro hfree
        have hnone : ρ p = none := by
          by_contra hne
          exact hfree (.inr ⟨rfl, hunder, hne⟩)
        rw [hnone]
        exact ⟨fun _ _ _ _ h => h, fun _ h => h⟩
    · rw [if_neg (fun h => hunder (relative_isSome_iff.1 h))]
      refine iff_of_true ⟨fun _ _ _ _ h => h, fun _ h => h⟩ ?_
      rintro (⟨rest, hrest, -⟩ | ⟨-, h, -⟩)
      · cases hrest
      · exact hunder h

end Plain

lemma p9Handler_follows_iff {O : Type} {R : Renamer O} {ρ : Naming O} {root : Bytes} {ro : Bool} {held : Set Handle} {v : P9}
    (hv : P9Sound root ro held v) {t : TMsg} (ht : t = .rename ∨ t = .renameat) (c : Cur) (tag : U16) (cap : ℕ) :
    (p9Handler v t c tag cap).Meets (namingProtocol R) ρ (fun ρ' r => ∀ o, r.1 = .ok o →
        ∃ m, v.renaming t c = some m ∧ Follows m.old ρ v ρ' r.2) ↔
      ∀ m, v.renaming t c = some m → m.Undisturbed R ρ v := by
  have hserves : ∃ o, Serves v o (p9Handler v t c tag cap) (v.renaming t c) := by
    obtain rfl | rfl := ht
    · exact ⟨_, hRename_renames⟩
    · exact ⟨_, hRenameat_serves⟩
  obtain ⟨o, hserves⟩ := hserves
  rw [hserves R ρ _ fun e o ho => by cases ho]
  refine forall_congr' fun m => forall_congr' fun hm => forall_congr' fun hcan => ?_
  rw [← follows_iff hv hm hcan]
  constructor
  · intro h
    obtain ⟨m', hm', hfollows⟩ := h o rfl
    cases hm.symm.trans hm'
    exact hfollows
  · exact fun h _ _ => ⟨m, hm, h⟩

/-- Whatever the messages before were, all fids follow a rename exactly if those that the
device does not move are undisturbed by it. On a host without links between directories
these are the fids that name nothing at or below the old path and whose path is not at or
below the new one, where it would come to name something. -/
theorem fids_follow_renames (root : Bytes) (root_lt : root.length < pathMax) (ro : Bool) (es : List P9Event) :
    (p9Session (P9.created root root_lt ro) es).Meets (kernelProtocol fun _ _ => True) ∅ fun _ v =>
      ∀ t, t = TMsg.rename ∨ t = TMsg.renameat → ∀ (c : Cur) (tag : U16) (cap : ℕ),
        (∀ (O : Type) (R : Renamer O) (ρ : Naming O),
          (p9Handler v t c tag cap).Meets (namingProtocol R) ρ (fun ρ' r => ∀ o, r.1 = .ok o →
              ∃ m, v.renaming t c = some m ∧ Follows m.old ρ v ρ' r.2) ↔
            ∀ m, v.renaming t c = some m → m.Undisturbed R ρ v) ∧
        ∀ (O : Type) [DecidableEq O] (ρ : Naming O) (m : Renaming),
          m.Undisturbed (plainRenamer O) ρ v ↔ ((plainRenamer O).can ρ m.old m.new →
            ∀ x f, v.fidFind x = some f → m.moved ≠ some x → ¬ Disturbs ρ m.old m.new f.path) := by
  refine (p9Session_created root root_lt ro es).mono fun held v hv t ht c tag cap => ⟨fun O R ρ => ?_, fun O _ ρ m => ?_⟩
  · exact p9Handler_follows_iff hv ht c tag cap
  · refine forall_congr' fun hcan => forall_congr' fun x => forall_congr' fun f => forall_congr' fun _ =>
      forall_congr' fun _ => ?_
    exact kept_plain_iff hcan

theorem fids_follow_renames_attach :
    (p9Session (P9.created [slash, 0x73] (by decide) false) [attachMessage]).Meets (kernelProtocol fun _ _ => True) ∅
      fun _ v => ∀ (c : Cur) (tag : U16) (cap : ℕ) (ρ : Naming ℕ),
        (p9Handler v .rename c tag cap).Meets (namingProtocol (plainRenamer ℕ)) ρ (fun ρ' r => ∀ o, r.1 = .ok o →
            ∃ m, v.renaming .rename c = some m ∧ Follows m.old ρ v ρ' r.2) ↔
          ∀ m, v.renaming .rename c = some m → m.Undisturbed (plainRenamer ℕ) ρ v :=
  (fids_follow_renames [slash, 0x73] (by decide) false [attachMessage]).mono fun _ _ h c tag cap ρ =>
    (h .rename (.inl rfl) c tag cap).1 ℕ (plainRenamer ℕ) ρ

/-- A client that walks to the file `f` twice, as fid 2 and as fid 3. -/
def walkTwice : List P9Event :=
  let walk (x : U8) : Bytes := [20, 0, 0, 0, 110, 1, 0, 1, 0, 0, 0, x, 0, 0, 0, 1, 0, 1, 0, 0x66]
  [attachMessage, .message (fun i => (walk 2).getD i 0) 20 4096, .message (fun i => (walk 3).getD i 0) 20 4096]

/-- Fid 2 is to be renamed to `g`, in the directory of fid 1. -/
def renameFields : Cur :=
  let fields : Bytes := [2, 0, 0, 0, 1, 0, 0, 0, 1, 0, 0x67]
  ⟨fun i => fields.getD i 0, fields.length, 0, false⟩

def oneFileNames : Naming ℕ := fun p =>
  if p = [slash, 0x73] then some 0 else if p = [slash, 0x73, slash, 0x66] then some 1 else none

/-- The rename succeeds and fid 2 follows, but fid 3, which stood for the file as well, no
longer stands for anything. -/
theorem rename_leaves_fid_behind :
    let v := ((p9Session (P9.created [slash, 0x73] (by decide) false) walkTwice).run (fun _ c => (oneFileHost c, ())) ()).2.1
    ¬ (p9Handler v .rename renameFields 1 4096).Meets (namingProtocol (plainRenamer ℕ)) oneFileNames (fun ρ' r =>
      ∀ o, r.1 = .ok o → ∃ m, v.renaming .rename renameFields = some m ∧ Follows m.old oneFileNames v ρ' r.2) := by
  intro v h
  have hfind : v.fidFind 3 = some ⟨3, none, none, [slash, 0x73, slash, 0x66]⟩ := by decide +kernel
  have hrenaming : v.renaming .rename renameFields =
      some ⟨[slash, 0x73, slash, 0x66], [slash, 0x73, slash, 0x67], some 2⟩ := by decide +kernel
  have hafter : (Renaming.after ⟨[slash, 0x73, slash, 0x66], [slash, 0x73, slash, 0x67], some 2⟩ v).fidFind 3 =
      some ⟨3, none, none, [slash, 0x73, slash, 0x66]⟩ := by decide +kernel
  have hcan : (plainRenamer ℕ).can oneFileNames [slash, 0x73, slash, 0x66] [slash, 0x73, slash, 0x67] :=
    ⟨by decide, fun _ => ⟨by simp, by simp [oneFileNames]⟩⟩
  have hanswer := (hRename_renames (plainRenamer ℕ) oneFileNames _ fun e o ho => by cases ho).1 h _ hrenaming hcan
  obtain ⟨m, hm, hfollows⟩ := hanswer _ rfl
  cases hrenaming.symm.trans hm
  have hthree := hfollows 3
  rw [hfind, hafter] at hthree
  have hstale := hthree.1 1 [slash, 0x73, slash, 0x66] (.inl rfl) rfl rfl
  exact absurd hstale (by decide)

end Arm64Emu
