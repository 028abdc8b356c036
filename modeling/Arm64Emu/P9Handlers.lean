import Arm64Emu.P9Contract

/-! Every handler of the 9p device meets the contract, whatever the message holds and the
host answers; so does every session. -/
namespace Arm64Emu

section Steps
variable {d : P9Duty} {held : Set Handle} {v : P9}

/-- A condition on the device after the answer, whatever the answer is. -/
def Ends (P : Set Handle → P9 → Prop) (held : Set Handle) (r : Answer) : Prop := P held r.2

variable {P : Set Handle → P9 → Prop}

lemma done_meets {o : Out} (h : P held v) : (done v o).Meets (p9Contract d) held (Ends P) := (Dialogue.meets_ret _).2 h

lemma fail_meets {e : Errno} (h : P held v) : (fail v e).Meets (p9Contract d) held (Ends P) := (Dialogue.meets_ret _).2 h

lemma reading_meets {α : Type} {p : Parse α} {c : Cur} {k : α → Cur → Host Answer}
    (hk : ∀ a c', p c = (a, c') → (k a c').Meets (p9Contract d) held (Ends P)) :
    (reading p c k).Meets (p9Contract d) held (Ends P) := hk _ _ rfl

lemma failIf_meets {b : Bool} {e : Errno} {k : Host Answer} (hv : P held v)
    (hk : b = false → k.Meets (p9Contract d) held (Ends P)) : (failIf b e v k).Meets (p9Contract d) held (Ends P) := by
  unfold failIf
  split
  · exact fail_meets hv
  · exact hk (by simpa using ‹¬b = true›)

lemma withFid_meets {fid : U32} {k : P9Fid → Host Answer} (hv : P held v)
    (hk : ∀ f, v.fidFind fid = some f → (k f).Meets (p9Contract d) held (Ends P)) :
    (withFid v fid k).Meets (p9Contract d) held (Ends P) := by
  unfold withFid
  split
  · exact fail_meets hv
  · exact hk _ ‹_›

lemma orFail_meets {α : Type} {x : Except Errno α} {k : α → Host Answer} (hv : P held v)
    (hk : ∀ a, x = .ok a → (k a).Meets (p9Contract d) held (Ends P)) :
    (orFail v x k).Meets (p9Contract d) held (Ends P) := by
  unfold orFail
  split
  · exact fail_meets hv
  · exact hk _ rfl

lemma child_meets {fid : U32} {f : P9Fid} {name : CStr} {k : Bytes → Host Answer} (hv : P9Good d held v)
    (hf : v.fidFind fid = some f) (hP : P held v)
    (hk : ∀ child, NormalPath d.root child → (k child).Meets (p9Contract d) held (Ends P)) :
    (orFail v (pathChild v.root f.path name.1) k).Meets (p9Contract d) held (Ends P) := by
  refine orFail_meets hP fun child hchild => hk child ?_
  rw [hv.root_eq] at hchild
  exact pathChild_normal (hv.root_eq ▸ v.root_lt) (hv.normal hf) name.2 hchild

lemma normalPath_root (hv : P9Good d held v) : NormalPath d.root v.root := by
  have hlt := v.root_lt
  rw [hv.root_eq] at hlt ⊢
  exact .self hlt

lemma mem_held {fid : U32} {f : P9Fid} {b : Bool} {h : Handle} (hv : P9Good d held v) (hf : v.fidFind fid = some f)
    (hh : f.handle b = some h) : h ∈ held :=
  (hv.owns.mem_iff h).2 ⟨(fid, b), (P9.owner_of_find hf b).trans hh⟩

lemma not_ro (hv : P9Good d held v) (h : v.ro = false) : d.ro = false := hv.ro_eq.symm.trans h

end Steps

/-- The second number of a message: the flags of a `Tlopen`, the new fid of a `Twalk`. -/
def secondU32 (c : Cur) : U32 := (cU32 (cU32 c).2).1

def TMsg.gives (t : TMsg) (c : Cur) (x : U32) : Prop :=
  match t with
  | .version => True
  | .attach | .lopen | .lcreate | .clunk | .remove => x = (cU32 c).1
  | .walk => x = secondU32 c
  | _ => False

/-- What has become of them: a session that starts anew has none; a fid that is clunked or
removed by a complete message is gone; one that is attached, walked to or created has, if
the message changed anything, no handle that it had before. What a fid has after it was
opened again is left to who owns what. -/
def P9After (t : TMsg) (c : Cur) (held : Set Handle) (v : P9) (held' : Set Handle) (v' : P9) : Prop :=
  match t with
  | .version => held' = ∅ ∧ ∀ i, v'.fids i = []
  | .clunk | .remove => (cU32 c).2.err = false → v'.fidFind (cU32 c).1 = none
  | .attach | .walk | .lcreate => v'.fids = v.fids ∨ ∀ x b h, t.gives c x → v'.owner (x, b) = some h → h ∉ held
  | _ => True

/-- A `Tlopen` that asks for write access by the access mode 3 and by nothing else. -/
def P9.slips (v : P9) (c : Cur) : Prop :=
  (cU32 (cU32 c).2).2.err = false ∧ v.fidFind (cU32 c).1 ≠ none ∧ dotlWantsWrite (secondU32 c) = false ∧
    secondU32 c &&& 3 = 3

section Handlers
variable {d : P9Duty} {held : Set Handle} {v : P9} (c : Cur) (tag : U16) (cap : ℕ)

lemma hVersion_meets (hv : P9Good d held v) (hown : d.own = v.owner) (hgone : ∀ x, d.gone x) :
    (hVersion v c tag cap).Meets (p9Contract d) held
      (Ends fun held' v' => P9Good d held' v' ∧ P9After .version c held v held' v') := by
  unfold hVersion
  refine reading_meets fun ⟨msz, ver⟩ c' _ => ?_
  dsimp only
  rw [Dialogue.meets_bind]
  refine (fidsClear_meets hv fun k h hk => may_of_gone hown (hgone k.1) k.2 h hk).mono fun held' v' h => done_meets ?_
  obtain ⟨rfl, rfl⟩ := h
  exact ⟨hv.cleared hgone _, rfl, fun _ => rfl⟩

lemma hAttach_meets (hv : P9Good d held v) (hown : d.own = v.owner) (hgone : d.gone (cU32 c).1) :
    (hAttach v c tag cap).Meets (p9Contract d) held
      (Ends fun held' v' => P9Good d held' v' ∧ P9After .attach c held v held' v') := by
  have hsame : P9Good d held v ∧ P9After .attach c held v held v := ⟨hv, .inl rfl⟩
  unfold hAttach
  refine reading_meets fun fid c' hp => ?_
  have hfid : fid = (cU32 c).1 := congrArg Prod.fst hp.symm
  refine failIf_meets hsame fun _ => meets_lstat fun r => orFail_meets hsame fun st _ => ?_
  rw [Dialogue.meets_bind]
  refine (fidNew_meets hv hown (hfid ▸ hgone) (normalPath_root hv)).mono fun held' v' h => done_meets ⟨h.1, .inr ?_⟩
  intro x b h' hx hh
  rw [show x = fid from hx.trans hfid.symm, h.2 b] at hh
  cases hh

lemma walkNames_meets {P : Set Handle → P9 → Prop} {k : Bytes → List Qid → Host Answer} {names : List CStr} {cur : Bytes}
    {qids : List Qid} (hv : P9Good d held v) (hP : P held v) (hcur : NormalPath d.root cur)
    (hk : ∀ cur qids, NormalPath d.root cur → (k cur qids).Meets (p9Contract d) held (Ends P)) :
    (walkNames v k cur qids names).Meets (p9Contract d) held (Ends P) := by
  induction names generalizing cur qids with
  | nil => exact hk cur qids hcur
  | cons name names ih =>
    have hstop (e : Errno) : (if qids = [] then fail v e else k cur qids).Meets (p9Contract d) held (Ends P) := by
      split
      · exact fail_meets hP
      · exact hk cur qids hcur
    unfold walkNames
    dsimp only
    split
    · exact hstop _
    · rename_i child hchild
      rw [hv.root_eq] at hchild
      have hnormal := pathChild_normal (hv.root_eq ▸ v.root_lt) hcur name.2 hchild
      refine meets_lstat fun r => ?_
      split
      · exact hstop _
      · exact ih (hnormal.pathBuf.symm ▸ hnormal)

lemma hWalk_meets (hv : P9Good d held v) (hown : d.own = v.owner) (hgone : d.gone (secondU32 c)) :
    (hWalk v c tag cap).Meets (p9Contract d) held
      (Ends fun held' v' => P9Good d held' v' ∧ P9After .walk c held v held' v') := by
  have hsame : P9Good d held v ∧ P9After .walk c held v held v := ⟨hv, .inl rfl⟩
  unfold hWalk
  refine reading_meets fun ⟨fid, newfid, nw⟩ c' hp => ?_
  have hnewfid : newfid = secondU32 c := congrArg (·.1.2.1) hp.symm
  -- a fid whose handles were dropped has none left
  have hafter {held' : Set Handle} {v' : P9} (h : ∀ b, v'.owner (newfid, b) = none) : P9After .walk c held v held' v' := by
    refine .inr fun x b h' hx hh => ?_
    rw [show x = newfid from hx.trans hnewfid.symm, h b] at hh
    cases hh
  refine failIf_meets hsame fun _ => withFid_meets hsame fun f hf => reading_meets fun names c' _ =>
    failIf_meets hsame fun _ => ?_
  refine walkNames_meets hv hsame ((hv.normal hf).pathBuf.symm ▸ hv.normal hf) fun cur qids hcur => ?_
  dsimp only
  split
  · split
    · rename_i hnew
      have hfgone : d.gone fid := hnew ▸ hnewfid ▸ hgone
      rw [Dialogue.meets_bind, hcur.pathBuf]
      refine closeHandles_owns hv.owns (P9.owner_of_find hf) (may_of_gone hown hfgone) fun held' ho => done_meets ⟨?_, ?_⟩
      · exact P9Good.modifyFid (g := fun f => { f with fd := none, dir := none, path := cur }) hv hf (fun _ => rfl) hcur ho
          (.inl hfgone)
      · refine hafter fun b => ?_
        rw [hnew]
        refine (P9.owner_modifyFid_self (fun _ => ?_) hf b).trans ?_
        · rfl
        · cases b <;> rfl
    · rw [Dialogue.meets_bind]
      exact (fidNew_meets hv hown (hnewfid ▸ hgone) hcur).mono fun _ _ h => done_meets ⟨h.1, hafter h.2⟩
  · exact done_meets hsame

lemma hGetattr_meets (hv : P9Good d held v) :
    (hGetattr v c tag cap).Meets (p9Contract d) held (Ends (P9Good d)) := by
  unfold hGetattr
  refine reading_meets fun fid c' _ => failIf_meets hv fun _ => withFid_meets hv fun f hf => ?_
  exact meets_lstat fun r => orFail_meets hv fun st _ => done_meets hv

lemma whenAsked_meets {asked : Bool} {call : Host (Except Errno Unit)} {k : Host Answer} (hv : P9Good d held v)
    (hcall : call.Meets (p9Contract d) held fun held' _ => held' = held)
    (hk : k.Meets (p9Contract d) held (Ends (P9Good d))) :
    (whenAsked v asked call k).Meets (p9Contract d) held (Ends (P9Good d)) := by
  unfold whenAsked
  split
  · rw [Dialogue.meets_bind]
    refine hcall.mono fun held' r h => ?_
    subst h
    exact orFail_meets hv fun _ _ => hk
  · exact hk

lemma hSetattr_meets (hv : P9Good d held v) :
    (hSetattr v c tag cap).Meets (p9Contract d) held (Ends (P9Good d)) := by
  unfold hSetattr
  refine reading_meets fun ⟨fid, valid, mode, uid, gid, size, at_, mt⟩ c' _ => ?_
  refine failIf_meets hv fun _ => failIf_meets hv fun hro => withFid_meets hv fun f hf => ?_
  have hpath : ∀ p ∈ [f.path], NormalPath d.root p := by
    intro p hp
    rw [List.mem_singleton.1 hp]
    exact hv.normal hf
  refine whenAsked_meets hv (meets_change (not_ro hv hro) rfl rfl (fun _ => rfl) hpath fun _ => (Dialogue.meets_ret _).2 rfl) ?_
  refine whenAsked_meets hv (meets_change (not_ro hv hro) rfl rfl (fun _ => rfl) hpath fun r => ?_) ?_
  · split <;> exact (Dialogue.meets_ret _).2 rfl
  refine whenAsked_meets hv (meets_change (not_ro hv hro) rfl rfl (fun _ => rfl) hpath fun _ => (Dialogue.meets_ret _).2 rfl) ?_
  exact whenAsked_meets hv (meets_change (not_ro hv hro) rfl rfl (fun _ => rfl) hpath fun _ => (Dialogue.meets_ret _).2 rfl) (done_meets hv)

lemma readdirLoop_meets {path : Bytes} {dir count start fuel : ℕ} {k : Out → Host Answer} {any : Bool} {o : Out}
    (hv : P9Good d held v) (hdir : Handle.dir dir ∈ held)
    (hk : ∀ o, (k o).Meets (p9Contract d) held (Ends (P9Good d))) :
    (readdirLoop v path dir count start k fuel any o).Meets (p9Contract d) held (Ends (P9Good d)) := by
  induction fuel generalizing any o with
  | zero => exact hk o
  | succ fuel ih =>
    unfold readdirLoop
    refine meets_use rfl hdir rfl (fun _ => rfl) rfl (fun _ => rfl) rfl fun here => ?_
    refine meets_use rfl hdir rfl (fun _ => rfl) rfl (fun _ => rfl) rfl fun de => ?_
    have hput (de : DirEnt) (q : Qid) (t : U8) : (Dialogue.call (.telldir dir) fun (next : U64) =>
        readdirLoop v path dir count start k fuel true ((((o.qid q).u64 next).u8 t).str de.name)).Meets
        (p9Contract d) held (Ends (P9Good d)) :=
      meets_use rfl hdir rfl (fun _ => rfl) rfl (fun _ => rfl) rfl fun _ => ih
    dsimp only
    split
    · exact hk o
    · split
      · refine meets_use rfl hdir rfl (fun _ => rfl) rfl (fun _ => rfl) rfl fun _ => ?_
        split
        · exact fail_meets hv
        · exact hk o
      · split
        · exact hput _ _ _
        · refine meets_lstat fun r => ?_
          split
          · exact hput _ _ _
          · exact hput _ _ _

lemma P9Good.openDir {fid : U32} {f : P9Fid} {dir : ℕ} (hv : P9Good d held v) (hf : v.fidFind fid = some f)
    (hkeep : d.gone fid ∨ f.dir = none) (hd : Handle.dir dir ∉ held \ {h | f.handle true = some h}) :
    P9Good d (insert (Handle.dir dir) (held \ {h | f.handle true = some h}))
      (v.modifyFid fid fun f => { f with dir := some dir }) := by
  refine P9Good.modifyFid (g := fun f => { f with dir := some dir }) hv hf (fun _ => rfl) (hv.normal (f := f) hf) ?_ ?_
  · show Owns (Function.update (Function.update v.owner _ (f.handle false)) _ (some (.dir dir))) _
    have hdrop := hv.owns.drop (fid, true)
    rw [P9.owner_of_find hf] at hdrop
    rw [← P9.owner_of_find hf false, Function.update_eq_self]
    simpa using hdrop.acquire (Function.update_self ..) hd
  · refine hkeep.imp_right fun hnone b h hh => ?_
    cases b with
    | false => exact hh
    | true => simp [P9Fid.handle, hnone] at hh

lemma P9Good.dropDir {fid : U32} {f : P9Fid} (hv : P9Good d held v) (hf : v.fidFind fid = some f) (hgone : d.gone fid) :
    P9Good d (held \ {h | f.handle true = some h}) (v.modifyFid fid fun f => { f with dir := none }) := by
  refine P9Good.modifyFid (g := fun f => { f with dir := none }) hv hf (fun _ => rfl) (hv.normal (f := f) hf) ?_ (.inl hgone)
  show Owns (Function.update (Function.update v.owner _ (f.handle false)) _ none) _
  have hdrop := hv.owns.drop (fid, true)
  rw [P9.owner_of_find hf] at hdrop
  rwa [← P9.owner_of_find hf false, Function.update_eq_self]

lemma P9Good.openFile {fid : U32} {f : P9Fid} {fd : ℕ} (hv : P9Good d held v) (hf : v.fidFind fid = some f)
    (hgone : d.gone fid) (hd : Handle.file fd ∉ held) :
    P9Good d (insert (Handle.file fd) held \ {h | f.handle false = some h})
      (v.modifyFid fid fun f => { f with fd := some fd }) := by
  refine P9Good.modifyFid (g := fun f => { f with fd := some fd }) hv hf (fun _ => rfl) (hv.normal (f := f) hf) ?_ (.inl hgone)
  show Owns (Function.update (Function.update v.owner _ (some (.file fd))) _ (f.handle true)) _
  have hne : ((fid, true) : U32 × Bool) ≠ (fid, false) := by simp
  have hrep := hv.owns.replace (fid, false) hd
  rw [P9.owner_of_find hf] at hrep
  rwa [Function.update_comm hne.symm, ← P9.owner_of_find hf true, Function.update_eq_self]

lemma P9Good.createFile {fid : U32} {f : P9Fid} {fd : ℕ} {child : Bytes} (hv : P9Good d held v)
    (hf : v.fidFind fid = some f) (hgone : d.gone fid) (hchild : NormalPath d.root child) (hd : Handle.file fd ∉ held) :
    P9Good d ((insert (Handle.file fd) held \ {h | f.handle false = some h}) \ {h | f.handle true = some h})
      (v.modifyFid fid fun f => { f with fd := some fd, dir := none, path := child }) := by
  refine P9Good.modifyFid (g := fun f => { f with fd := some fd, dir := none, path := child }) hv hf (fun _ => rfl) hchild ?_
    (.inl hgone)
  show Owns (Function.update (Function.update v.owner _ (some (.file fd))) _ none) _
  have hne : ((fid, true) : U32 × Bool) ≠ (fid, false) := by simp
  have hdrop := (hv.owns.replace (fid, false) hd).drop (fid, true)
  rwa [Function.update_of_ne hne, P9.owner_of_find hf, P9.owner_of_find hf] at hdrop

lemma scan_meets {path : Bytes} {dir count start fuel : ℕ} {off : U64} {k : Out → Host Answer} {o : Out}
    (hv : P9Good d held v) (hdir : Handle.dir dir ∈ held)
    (hk : ∀ o, (k o).Meets (p9Contract d) held (Ends (P9Good d))) :
    (if off = 0 then .call (.rewinddir dir) fun _ => readdirLoop v path dir count start k fuel false o
      else .call (.seekdir dir off) fun _ => readdirLoop v path dir count start k fuel false o : Host Answer).Meets
      (p9Contract d) held (Ends (P9Good d)) := by
  split
  · exact meets_use rfl hdir rfl (fun _ => rfl) rfl (fun _ => rfl) rfl fun _ => readdirLoop_meets hv hdir hk
  · exact meets_use rfl hdir rfl (fun _ => rfl) rfl (fun _ => rfl) rfl fun _ => readdirLoop_meets hv hdir hk

lemma hReaddir_meets (hv : P9Good d held v) :
    (hReaddir v c tag cap).Meets (p9Contract d) held (Ends (P9Good d)) := by
  unfold hReaddir
  refine reading_meets fun ⟨fid, off, count⟩ c' _ => failIf_meets hv fun _ => withFid_meets hv fun f hf => ?_
  dsimp only
  split
  · rename_i dir hd
    have hdir : Handle.dir dir ∈ held := mem_held (b := true) hv hf (by rw [P9Fid.handle, hd, Option.map_some])
    exact scan_meets hv hdir fun _ => done_meets hv
  · rename_i hd
    have hnone : held \ {h | f.handle true = some h} = held := by simp [P9Fid.handle, hd]
    refine meets_opendir (hv.normal hf) (fun e => fail_meets hv) fun dir hfresh => ?_
    have hd' : Handle.dir dir ∉ held \ {h | f.handle true = some h} := hnone.symm ▸ hfresh
    have hv' := hv.openDir hf (.inr hd) hd'
    rw [hnone] at hv'
    exact scan_meets hv' (Set.mem_insert _ _) fun _ => done_meets hv'

lemma dotlToHost_of_not_wantsWrite {fl : U32} (h : dotlWantsWrite fl = false) :
    (dotlToHost fl).creat = false ∧ (dotlToHost fl).trunc = false ∧ ((dotlToHost fl).acc = .rdonly ∨ fl &&& 3 = 3) := by
  simp only [dotlWantsWrite, Bool.or_eq_false_iff, decide_eq_false_iff_not] at h
  obtain ⟨⟨⟨h1, h2⟩, hcreat⟩, htrunc⟩ := h
  refine ⟨hcreat, htrunc, ?_⟩
  have hlt : (fl &&& 3).toNat < 4 := by
    rw [BitVec.toNat_and]
    exact Nat.lt_of_le_of_lt Nat.and_le_right (by decide)
  have heq (n : ℕ) (hn : (fl &&& 3).toNat = n) : fl &&& 3 = BitVec.ofNat 32 n := by
    rw [← hn, BitVec.ofNat_toNat, BitVec.setWidth_eq]
  unfold dotlToHost
  dsimp only
  rcases hn : (fl &&& 3).toNat with _ | _ | _ | _ | n
  · exact .inl rfl
  · exact absurd (heq 1 hn) h1
  · exact absurd (heq 2 hn) h2
  · exact .inr (heq 3 hn)
  · omega

lemma hLopen_meets (hv : P9Good d held v) (hown : d.own = v.owner) (hgone : d.gone (cU32 c).1)
    (hlax : d.ro = true → v.slips c → d.lax) :
    (hLopen v c tag cap).Meets (p9Contract d) held (Ends (P9Good d)) := by
  unfold hLopen
  refine reading_meets fun ⟨fid, fl⟩ c' hp => ?_
  have hfields : (fid, fl) = ((cU32 c).1, secondU32 c) := congrArg Prod.fst hp.symm
  have hcur : c' = (cU32 (cU32 c).2).2 := congrArg Prod.snd hp.symm
  obtain ⟨rfl, rfl⟩ := Prod.mk.inj hfields
  subst hcur
  refine failIf_meets hv fun herr => withFid_meets hv fun f hf => meets_lstat fun r => orFail_meets hv fun st _ => ?_
  refine failIf_meets hv fun hwrite => ?_
  rw [hv.ro_eq] at hwrite
  have hmay (b : Bool) (h : Handle) (hh : f.handle b = some h) : d.may h :=
    may_of_gone hown hgone b h ((P9.owner_of_find hf b).trans hh)
  dsimp only
  split
  · -- a directory: the old stream is closed before the new one is opened
    rw [Dialogue.meets_bind]
    refine closeDir_meets (fun h hh => mem_held hv hf hh) (hmay true) ?_
    exact meets_opendir (hv.normal hf) (fun e => fail_meets (hv.dropDir hf hgone)) fun dir hfresh =>
      done_meets (hv.openDir hf (.inl hgone) hfresh)
  · -- a file: the old descriptor is closed once the new one is there
    refine meets_openFile (hv.normal hf) (fun hro => ?_) (fun hro => ?_) (fun e => fail_meets hv) fun fd hfresh => ?_
    · rw [hro, Bool.true_and] at hwrite
      obtain ⟨hcreat, htrunc, -⟩ := dotlToHost_of_not_wantsWrite hwrite
      simp [HostCall.modifies, hcreat, htrunc]
    · rw [hro, Bool.true_and] at hwrite
      obtain hacc | h3 := (dotlToHost_of_not_wantsWrite hwrite).2.2
      · exact .inl (by simp [HostCall.opensReadOnly, hacc])
      · exact .inr (hlax hro ⟨herr, by simp [hf], hwrite, h3⟩)
    · show ((closeFd f).bind _).Meets _ _ _
      rw [Dialogue.meets_bind]
      refine closeFd_meets (fun h hh => .inr (mem_held hv hf hh)) (hmay false) (done_meets ?_)
      exact hv.openFile hf hgone hfresh

lemma hLcreate_meets (hv : P9Good d held v) (hown : d.own = v.owner) (hgone : d.gone (cU32 c).1) :
    (hLcreate v c tag cap).Meets (p9Contract d) held
      (Ends fun held' v' => P9Good d held' v' ∧ P9After .lcreate c held v held' v') := by
  have hsame : P9Good d held v ∧ P9After .lcreate c held v held v := ⟨hv, .inl rfl⟩
  unfold hLcreate
  refine reading_meets fun ⟨fid, name, fl, mode⟩ c' hp => ?_
  have hfid : fid = (cU32 c).1 := congrArg (·.1.1) hp.symm
  have hfgone : d.gone fid := hfid ▸ hgone
  refine failIf_meets hsame fun _ => failIf_meets hsame fun hro => withFid_meets hsame fun f hf => ?_
  have hmay (b : Bool) (h : Handle) (hh : f.handle b = some h) : d.may h :=
    may_of_gone hown hfgone b h ((P9.owner_of_find hf b).trans hh)
  refine child_meets hv hf hsame fun child hchild => ?_
  have hrw (h : d.ro = true) : False := by
    rw [not_ro hv hro] at h
    cases h
  refine meets_openFile hchild (fun h => (hrw h).elim) (fun h => (hrw h).elim) (fun e => fail_meets hsame)
    fun fd hfresh => ?_
  refine meets_use (h := Handle.file fd) rfl (Set.mem_insert _ _) rfl (fun _ => rfl) rfl (fun _ => rfl) rfl fun st => ?_
  rw [Dialogue.meets_bind, hchild.pathBuf]
  refine closeHandles_meets (fun b h hh => .inr (mem_held hv hf hh)) hmay
    (done_meets ⟨hv.createFile hf hfgone hchild hfresh, .inr fun x b h hx hh => ?_⟩)
  rw [show x = fid from hx.trans hfid.symm] at hh
  have hnew := P9.owner_modifyFid_self (g := fun f => { f with fd := some fd, dir := none, path := child }) (fun _ => rfl) hf b
  cases b with
  | false =>
    obtain rfl : Handle.file fd = h := Option.some.inj (hnew.symm.trans hh)
    exact hfresh
  | true => cases hnew.symm.trans hh

lemma meets_useFile {fid : U32} {f : P9Fid} {fd : ℕ} {call : HostCall} {k : call.Reply → Host Answer}
    (hv : P9Good d held v) (hf : v.fidFind fid = some f) (hfd : f.fd = some fd) (huse : call.uses = some (.file fd))
    (hclose : call.closes = none) (hopen : ∀ r, call.opens r = none) (hacts : call.acts = [])
    (hmod : d.ro = true → call.modifies = false) (hread : call.opensReadOnly = true)
    (hk : ∀ r, (k r).Meets (p9Contract d) held (Ends (P9Good d))) :
    (Dialogue.call call k).Meets (p9Contract d) held (Ends (P9Good d)) := by
  have hin : Handle.file fd ∈ held := mem_held (b := false) hv hf (by rw [P9Fid.handle, hfd, Option.map_some])
  exact meets_use huse hin hclose hopen hacts hmod hread hk

lemma hRead_meets (hv : P9Good d held v) :
    (hRead v c tag cap).Meets (p9Contract d) held (Ends (P9Good d)) := by
  unfold hRead
  refine reading_meets fun ⟨fid, off, count⟩ c' _ => failIf_meets hv fun _ => withFid_meets hv fun f hf => ?_
  dsimp only
  split
  · exact fail_meets hv
  · exact meets_useFile hv hf ‹_› rfl rfl (fun _ => rfl) rfl (fun _ => rfl) rfl fun r => orFail_meets hv fun _ _ => done_meets hv

lemma hWrite_meets (hv : P9Good d held v) :
    (hWrite v c tag cap).Meets (p9Contract d) held (Ends (P9Good d)) := by
  unfold hWrite
  refine reading_meets fun ⟨fid, off, count⟩ c' _ => failIf_meets hv fun _ => failIf_meets hv fun hro => ?_
  refine withFid_meets hv fun f hf => ?_
  dsimp only
  split
  · exact fail_meets hv
  · refine meets_useFile hv hf ‹_› rfl rfl (fun _ => rfl) rfl (fun h => ?_) rfl fun r => orFail_meets hv fun _ _ => done_meets hv
    rw [not_ro hv hro] at h
    cases h

lemma replyQid_meets {type : U8} {child : Bytes} (hv : P9Good d held v) :
    (replyQid v type tag cap child).Meets (p9Contract d) held (Ends (P9Good d)) :=
  meets_lstat fun _ => orFail_meets hv fun _ _ => done_meets hv

lemma changeChild_meets {dfid : U32} {name : CStr} {e : Errno} {b : Bool} {k : Bytes → Host Answer} (hv : P9Good d held v)
    (hk : d.ro = false → ∀ child, NormalPath d.root child → (k child).Meets (p9Contract d) held (Ends (P9Good d))) :
    (failIf b eINVAL v <| failIf v.ro e v <| withFid v dfid fun f => orFail v (pathChild v.root f.path name.1) k).Meets
      (p9Contract d) held (Ends (P9Good d)) := by
  refine failIf_meets hv fun _ => failIf_meets hv fun hro => withFid_meets hv fun f hf => ?_
  exact child_meets hv hf hv (hk (not_ro hv hro))

lemma forall_singleton {p : Bytes} (h : NormalPath d.root p) : ∀ q ∈ [p], NormalPath d.root q := by
  intro q hq
  rw [List.mem_singleton.1 hq]
  exact h

lemma forall_pair {p q : Bytes} (hp : NormalPath d.root p) (hq : NormalPath d.root q) : ∀ x ∈ [p, q], NormalPath d.root x := by
  intro x hx
  rcases List.mem_cons.1 hx with rfl | hx
  · exact hp
  · rw [List.mem_singleton.1 hx]
    exact hq

lemma hMkdir_meets (hv : P9Good d held v) :
    (hMkdir v c tag cap).Meets (p9Contract d) held (Ends (P9Good d)) := by
  unfold hMkdir
  refine reading_meets fun ⟨dfid, name, mode⟩ c' _ => changeChild_meets hv fun hro child hchild => ?_
  exact meets_change hro rfl rfl (fun _ => rfl) (forall_singleton hchild) fun r =>
    orFail_meets hv fun _ _ => replyQid_meets tag cap hv

lemma hMknod_meets (hv : P9Good d held v) :
    (hMknod v c tag cap).Meets (p9Contract d) held (Ends (P9Good d)) := by
  unfold hMknod
  refine reading_meets fun ⟨dfid, name, mode, major, minor⟩ c' _ => changeChild_meets hv fun hro child hchild => ?_
  exact meets_change hro rfl rfl (fun _ => rfl) (forall_singleton hchild) fun r =>
    orFail_meets hv fun _ _ => replyQid_meets tag cap hv

lemma hSymlink_meets (hv : P9Good d held v) :
    (hSymlink v c tag cap).Meets (p9Contract d) held (Ends (P9Good d)) := by
  unfold hSymlink
  refine reading_meets fun ⟨dfid, name, target⟩ c' _ => changeChild_meets hv fun hro child hchild => ?_
  exact meets_change hro rfl rfl (fun _ => rfl) (forall_singleton hchild) fun r =>
    orFail_meets hv fun _ _ => replyQid_meets tag cap hv

lemma hReadlink_meets (hv : P9Good d held v) :
    (hReadlink v c tag cap).Meets (p9Contract d) held (Ends (P9Good d)) := by
  unfold hReadlink
  refine reading_meets fun fid c' _ => failIf_meets hv fun _ => withFid_meets hv fun f hf => ?_
  exact meets_look rfl rfl rfl rfl (fun _ => rfl) (forall_singleton (hv.normal hf)) fun r =>
    orFail_meets hv fun _ _ => done_meets hv

lemma hLink_meets (hv : P9Good d held v) :
    (hLink v c tag cap).Meets (p9Contract d) held (Ends (P9Good d)) := by
  unfold hLink
  refine reading_meets fun ⟨dfid, fid, name⟩ c' _ => failIf_meets hv fun _ => failIf_meets hv fun hro => ?_
  refine withFid_meets hv fun df hdf => withFid_meets hv fun sf hsf => child_meets hv hdf hv fun child hchild => ?_
  exact meets_change (not_ro hv hro) rfl rfl (fun _ => rfl) (forall_pair (hv.normal hsf) hchild) fun r =>
    orFail_meets hv fun _ _ => done_meets hv

lemma hRename_meets (hv : P9Good d held v) :
    (hRename v c tag cap).Meets (p9Contract d) held (Ends (P9Good d)) := by
  unfold hRename
  refine reading_meets fun ⟨fid, dfid, name⟩ c' _ => failIf_meets hv fun _ => failIf_meets hv fun hro => ?_
  refine withFid_meets hv fun f hf => withFid_meets hv fun df hdf => child_meets hv hdf hv fun child hchild => ?_
  refine meets_change (not_ro hv hro) rfl rfl (fun _ => rfl) (forall_pair (hv.normal hf) hchild) fun r =>
    orFail_meets hv fun _ _ => done_meets ?_
  rw [hchild.pathBuf]
  refine P9Good.modifyFid (g := fun f => { f with path := child }) hv hf (fun _ => rfl) hchild ?_ (.inr fun _ _ hh => hh)
  exact (owner_update_self hf).symm ▸ hv.owns

lemma hRenameat_meets (hv : P9Good d held v) :
    (hRenameat v c tag cap).Meets (p9Contract d) held (Ends (P9Good d)) := by
  unfold hRenameat
  refine reading_meets fun ⟨od, oldn, nd, newn⟩ c' _ => failIf_meets hv fun _ => failIf_meets hv fun hro => ?_
  refine withFid_meets hv fun of hof => withFid_meets hv fun nf hnf => ?_
  refine child_meets hv hof hv fun op hop => child_meets hv hnf hv fun np hnp => ?_
  exact meets_change (not_ro hv hro) rfl rfl (fun _ => rfl) (forall_pair hop hnp) fun r =>
    orFail_meets hv fun _ _ => done_meets hv

lemma hUnlinkat_meets (hv : P9Good d held v) :
    (hUnlinkat v c tag cap).Meets (p9Contract d) held (Ends (P9Good d)) := by
  unfold hUnlinkat
  refine reading_meets fun ⟨dfid, name, flags⟩ c' _ => changeChild_meets hv fun hro child hchild => ?_
  split
  · exact meets_change hro rfl rfl (fun _ => rfl) (forall_singleton hchild) fun r =>
      orFail_meets hv fun _ _ => done_meets hv
  · exact meets_change hro rfl rfl (fun _ => rfl) (forall_singleton hchild) fun r =>
      orFail_meets hv fun _ _ => done_meets hv

lemma hRemove_meets (hv : P9Good d held v) (hown : d.own = v.owner) (hgone : d.gone (cU32 c).1) :
    (hRemove v c tag cap).Meets (p9Contract d) held
      (Ends fun held' v' => P9Good d held' v' ∧ P9After .remove c held v held' v') := by
  unfold hRemove
  refine reading_meets fun fid c' hp => ?_
  rw [hp] at hgone
  have hafter (held' : Set Handle) {v' : P9} (h : c'.err = false → v'.fidFind fid = none) :
      P9After .remove c held v held' v' := by
    rw [P9After, hp]
    exact h
  unfold failIf withFid
  split
  · rename_i herr
    exact fail_meets ⟨hv, hafter _ fun h => by simp [h] at herr⟩
  split
  · exact fail_meets ⟨hv, hafter _ fun _ => ‹_›⟩
  rename_i f hf
  split
  · rw [Dialogue.meets_bind]
    exact (fidDel_meets hv hown hgone).mono fun _ _ h => fail_meets ⟨h.1, hafter _ fun _ => h.2⟩
  · rename_i hro
    refine meets_change (not_ro hv (Bool.eq_false_iff.2 hro)) rfl rfl (fun _ => rfl) (forall_singleton (hv.normal hf)) fun r => ?_
    rw [Dialogue.meets_bind]
    refine (fidDel_meets hv hown hgone).mono fun held' v' h => ?_
    have hend := And.intro h.1 (hafter held' fun _ => h.2)
    exact orFail_meets hend fun _ _ => done_meets hend

lemma hClunk_meets (hv : P9Good d held v) (hown : d.own = v.owner) (hgone : d.gone (cU32 c).1) :
    (hClunk v c tag cap).Meets (p9Contract d) held
      (Ends fun held' v' => P9Good d held' v' ∧ P9After .clunk c held v held' v') := by
  unfold hClunk
  refine reading_meets fun fid c' hp => ?_
  rw [hp] at hgone
  unfold failIf
  split
  · rename_i herr
    refine fail_meets ⟨hv, ?_⟩
    rw [P9After, hp]
    intro h
    cases h.symm.trans herr
  · rw [Dialogue.meets_bind]
    refine (fidDel_meets hv hown hgone).mono fun _ _ h => done_meets ⟨h.1, ?_⟩
    rw [P9After, hp]
    exact fun _ => h.2

lemma hFsync_meets (hv : P9Good d held v) :
    (hFsync v c tag cap).Meets (p9Contract d) held (Ends (P9Good d)) := by
  unfold hFsync
  refine reading_meets fun ⟨fid, datasync⟩ c' _ => failIf_meets hv fun _ => withFid_meets hv fun f hf => ?_
  split
  · exact done_meets hv
  · exact meets_useFile hv hf ‹_› rfl rfl (fun _ => rfl) rfl (fun _ => rfl) rfl fun r => orFail_meets hv fun _ _ => done_meets hv

lemma hStatfs_meets (hv : P9Good d held v) :
    (hStatfs v c tag cap).Meets (p9Contract d) held (Ends (P9Good d)) := by
  unfold hStatfs
  refine reading_meets fun fid c' _ => failIf_meets hv fun _ => withFid_meets hv fun f hf => ?_
  exact meets_look rfl rfl rfl rfl (fun _ => rfl) (forall_singleton (hv.normal hf)) fun r =>
    orFail_meets hv fun _ _ => done_meets hv

lemma hGetlock_meets (hv : P9Good d held v) :
    (hGetlock v c tag cap).Meets (p9Contract d) held (Ends (P9Good d)) := by
  unfold hGetlock
  exact reading_meets fun _ _ _ => done_meets hv

lemma p9Handler_meets {t : TMsg} (hv : P9Good d held v) (hown : d.own = v.owner) (hgone : ∀ x, t.gives c x → d.gone x)
    (hlax : d.ro = true → t = .lopen → v.slips c → d.lax) :
    (p9Handler v t c tag cap).Meets (p9Contract d) held
      (Ends fun held' v' => P9Good d held' v' ∧ P9After t c held v held' v') := by
  have plain {p : Host Answer} (hp : p.Meets (p9Contract d) held (Ends (P9Good d)))
      (hafter : ∀ held' v', P9After t c held v held' v') :
      p.Meets (p9Contract d) held (Ends fun held' v' => P9Good d held' v' ∧ P9After t c held v held' v') :=
    hp.mono fun held' r h => ⟨h, hafter held' r.2⟩
  cases t with
  | version => exact hVersion_meets c tag cap hv hown fun x => hgone x trivial
  | attach => exact hAttach_meets c tag cap hv hown (hgone _ rfl)
  | walk => exact hWalk_meets c tag cap hv hown (hgone _ rfl)
  | getattr => exact plain (hGetattr_meets c tag cap hv) fun _ _ => trivial
  | setattr => exact plain (hSetattr_meets c tag cap hv) fun _ _ => trivial
  | readdir => exact plain (hReaddir_meets c tag cap hv) fun _ _ => trivial
  | lopen =>
    exact plain (hLopen_meets c tag cap hv hown (hgone _ rfl) fun hro => hlax hro rfl) fun _ _ => trivial
  | lcreate => exact hLcreate_meets c tag cap hv hown (hgone _ rfl)
  | read => exact plain (hRead_meets c tag cap hv) fun _ _ => trivial
  | write => exact plain (hWrite_meets c tag cap hv) fun _ _ => trivial
  | mkdir => exact plain (hMkdir_meets c tag cap hv) fun _ _ => trivial
  | mknod => exact plain (hMknod_meets c tag cap hv) fun _ _ => trivial
  | symlink => exact plain (hSymlink_meets c tag cap hv) fun _ _ => trivial
  | readlink => exact plain (hReadlink_meets c tag cap hv) fun _ _ => trivial
  | link => exact plain (hLink_meets c tag cap hv) fun _ _ => trivial
  | rename => exact plain (hRename_meets c tag cap hv) fun _ _ => trivial
  | renameat => exact plain (hRenameat_meets c tag cap hv) fun _ _ => trivial
  | unlinkat => exact plain (hUnlinkat_meets c tag cap hv) fun _ _ => trivial
  | remove => exact hRemove_meets c tag cap hv hown (hgone _ rfl)
  | clunk => exact hClunk_meets c tag cap hv hown (hgone _ rfl)
  | fsync => exact plain (hFsync_meets c tag cap hv) fun _ _ => trivial
  | statfs => exact plain (hStatfs_meets c tag cap hv) fun _ _ => trivial
  | flush => exact plain (done_meets hv) fun _ _ => trivial
  | xattrwalk => exact plain (fail_meets hv) fun _ _ => trivial
  | xattrcreate => exact plain (fail_meets hv) fun _ _ => trivial
  | lock => exact plain (done_meets hv) fun _ _ => trivial
  | getlock => exact plain (hGetlock_meets c tag cap hv) fun _ _ => trivial

end Handlers

end Arm64Emu
