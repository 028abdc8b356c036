import Arm64Emu.Jit

/-! The invariant of the translator's tables: what a lookup, a chained exit or an entry
of the indirect-branch cache leads to is a block in the table. Every operation of the
translator keeps it. -/
namespace Arm64Emu

namespace JTable

def Live (t : JTable) (i : ℕ) : Prop := i ∈ t.hash (hashTag (t.arena i).tag)

/-- A chained exit of block `i` leads to block `j`: `j` is in the table, at the exit's
pc, in the same context and on the same virtual page, and knows of the exit. -/
structure Edge (t : JTable) (i : ℕ) (slot : Bool) (j : ℕ) : Prop where
  live : t.Live j
  mem : (i, slot) ∈ (t.arena j).inHead
  pc : (t.arena j).pc = (t.arena i).exitPc slot
  ctx : ((t.arena i).tag ^^^ (t.arena j).tag) &&& 0x1f = 0
  page : ((t.arena i).pc ^^^ (t.arena j).pc) &&& ~~~0xfff = 0

/-- The hash chains, the page chains and the chained exits. -/
structure Chains (t : JTable) : Prop where
  hash {h i} : i ∈ t.hash h → i < t.nblocks ∧ hashTag (t.arena i).tag = h
  nodup (h) : (t.hash h).Nodup
  pages {p i} : i ∈ t.pages p → t.Live i ∧ pageSlot (t.arena i).paPage = p
  live {i} : t.Live i → i ∈ t.pages (pageSlot (t.arena i).paPage)
  unique {i j} : t.Live i → t.Live j → (t.arena i).tag = (t.arena j).tag →
    (t.arena i).hostPage = (t.arena j).hostPage → i = j
  edge {i slot j} : i < t.nblocks → (t.arena i).patched slot = some j → t.Edge i slot j
  nedges : t.nedges ≤ 2 * jitMaxBlocks

variable {t : JTable}

lemma Chains.live_lt (h : t.Chains) {i : ℕ} (hi : t.Live i) : i < t.nblocks := (h.hash hi).1

lemma live_of_lookup {tag : U64} {hp : HostPage} {i : ℕ} (h : t.jitLookup tag hp = some i) :
    t.Live i ∧ (t.arena i).tag = tag ∧ (t.arena i).hostPage = hp := by
  have hi := List.mem_of_find?_eq_some h
  have hp := List.find?_some h
  simp only [Bool.decide_and, Bool.and_eq_true, decide_eq_true_eq] at hp
  exact ⟨by rw [Live, hp.1]; exact hi, hp.1, hp.2⟩

lemma not_live_of_lookup {tag : U64} {hp : HostPage} (h : t.jitLookup tag hp = none) {i : ℕ}
    (hi : t.Live i) : ¬((t.arena i).tag = tag ∧ (t.arena i).hostPage = hp) := by
  rintro ⟨rfl, rfl⟩
  have := List.find?_eq_none.mp h i hi
  simp at this

lemma Chains.lookup_self (h : t.Chains) {i : ℕ} (hi : t.Live i) :
    t.jitLookup (t.arena i).tag (t.arena i).hostPage = some i := by
  cases hl : t.jitLookup (t.arena i).tag (t.arena i).hostPage with
  | none => exact absurd ⟨rfl, rfl⟩ (not_live_of_lookup hl hi)
  | some j =>
    obtain ⟨hj, ht, hp⟩ := live_of_lookup hl
    rw [h.unique hj hi ht hp]

section Unlink

def unpatch (t : JTable) (edges : List (ℕ × Bool)) : JTable :=
  { t with arena := fun k => ⟨(t.arena k).toJCode, (t.arena k).inHead,
      fun slot => if (k, slot) ∈ edges then none else (t.arena k).patched slot⟩ }

lemma unpatch_nil (t : JTable) : t.unpatch [] = t := by simp [unpatch]

lemma unpatch_unpatch (t : JTable) (l l' : List (ℕ × Bool)) : (t.unpatch l).unpatch l' = t.unpatch (l ++ l') := by
  simp only [unpatch, List.mem_append]
  congr 1
  funext k
  congr 1
  funext slot
  grind

lemma setPatched_none (t : JTable) (i : ℕ) (slot : Bool) :
    (if ((t.arena i).patched slot).isSome then t.setPatched i slot none else t) = t.unpatch [(i, slot)] := by
  split_ifs with h
  · simp only [setPatched, modifyBlock, unpatch]
    congr 1
    funext k
    by_cases hk : k = i
    · subst hk
      rw [Function.update_self]
      congr 1
      funext slot'
      by_cases hs : slot' = slot
      · simp [hs]
      · simp [hs]
    · rw [Function.update_of_ne hk]
      simp [hk]
  · -- the exit is at its stub already
    unfold unpatch
    have hp (k : ℕ) (slot' : Bool) : (if (k, slot') ∈ [(i, slot)] then none else (t.arena k).patched slot') =
        (t.arena k).patched slot' := by
      split_ifs with hm
      · obtain ⟨rfl, rfl⟩ := Prod.mk.inj (List.mem_singleton.mp hm)
        exact (Option.not_isSome_iff_eq_none.mp h).symm
      · rfl
    simp only [hp]

lemma unpatchAll_eq (edges : List (ℕ × Bool)) (t : JTable) : unpatchAll edges t = t.unpatch edges := by
  induction edges generalizing t with
  | nil => exact (unpatch_nil t).symm
  | cons e edges ih => rw [unpatchAll, setPatched_none, ih, unpatch_unpatch, List.singleton_append]

/-- The tables without the blocks `l`: every recorded exit that led to one of them is
back at its stub. -/
def without (t : JTable) (l : List ℕ) : JTable :=
  { t with
    hash := fun h => (t.hash h).filter (· ∉ l)
    arena := fun k => ⟨(t.arena k).toJCode, if k ∈ l then [] else (t.arena k).inHead,
      fun slot => if ∃ i ∈ l, (k, slot) ∈ (t.arena i).inHead then none else (t.arena k).patched slot⟩ }

lemma without_nil (t : JTable) : t.without [] = t := by simp [without]

lemma jitUnlinkBlock_eq {i : ℕ} (hn : ∀ h, (t.hash h).Nodup)
    (ht : ∀ h, i ∈ t.hash h → hashTag (t.arena i).tag = h) : t.jitUnlinkBlock i = t.without [i] := by
  have hhash : Function.update t.hash (hashTag (t.arena i).tag) ((t.hash (hashTag (t.arena i).tag)).erase i) =
      fun h => (t.hash h).filter (· ∉ [i]) := by
    funext h
    by_cases hh : h = hashTag (t.arena i).tag
    · subst hh
      rw [Function.update_self, (hn _).erase_eq_filter]
      congr 1
      funext k
      simp [bne, beq_eq_decide]
    · rw [Function.update_of_ne hh, List.filter_eq_self.mpr]
      intro k hk
      simp only [List.mem_singleton, decide_eq_true_eq]
      rintro rfl
      exact hh (ht h hk).symm
  unfold jitUnlinkBlock
  simp only [hhash, unpatchAll_eq, unpatch, modifyBlock, without]
  congr 1
  funext k
  by_cases hk : k = i
  · subst hk
    rw [Function.update_self]
    simp
  · rw [Function.update_of_ne hk]
    simp [hk]

lemma without_without (t : JTable) (l : List ℕ) (i : ℕ) : (t.without l).without [i] = t.without (l ++ [i]) := by
  simp only [without, List.mem_append, List.mem_singleton]
  congr 1
  · funext h
    simp [List.filter_filter, and_comm, not_or]
  · funext k
    congr 1
    · grind
    · funext slot
      simp only [List.mem_append, List.mem_singleton, exists_eq_left, or_and_right, exists_or]
      by_cases hl : ∃ j ∈ l, (k, slot) ∈ (t.arena j).inHead
      · simp only [hl, true_or, if_true, ite_self]
      · by_cases hi : i ∈ l
        · have hk : (k, slot) ∉ (t.arena i).inHead := fun hk => hl ⟨i, hi, hk⟩
          simp only [hl, hi, hk, List.not_mem_nil, if_true, if_false, or_self]
        · simp only [hl, hi, if_false, false_or]

lemma foldl_unlink (l : List ℕ) (hn : ∀ h, (t.hash h).Nodup)
    (ht : ∀ h i, i ∈ t.hash h → hashTag (t.arena i).tag = h) : l.foldl jitUnlinkBlock t = t.without l := by
  induction l using List.reverseRecOn with
  | nil => exact (without_nil t).symm
  | append_singleton l i ih =>
    rw [List.foldl_append, ih, List.foldl_cons, List.foldl_nil, jitUnlinkBlock_eq, without_without]
    · exact fun h => (hn h).filter _
    · exact fun h hi => ht h i (List.mem_of_mem_filter hi)

end Unlink

section Drop
variable {l : List ℕ}

/-- The tables with the blocks `l` dropped. -/
def dropBlocks (t : JTable) (l : List ℕ) : JTable :=
  { t.without l with pages := fun p => (t.pages p).filter (· ∉ l) }

lemma live_dropBlocks {i : ℕ} : (t.dropBlocks l).Live i ↔ t.Live i ∧ i ∉ l := by
  simp only [Live, dropBlocks, without, List.mem_filter, decide_eq_true_eq]

lemma Chains.edge_dropBlocks (h : t.Chains) {i j : ℕ} {slot : Bool} (hi : i < t.nblocks)
    (hp : ((t.dropBlocks l).arena i).patched slot = some j) : (t.dropBlocks l).Edge i slot j := by
  simp only [dropBlocks, without] at hp
  split_ifs at hp with hmem
  have he := h.edge hi hp
  have hj : j ∉ l := fun hj => hmem ⟨j, hj, he.mem⟩
  refine ⟨live_dropBlocks.mpr ⟨he.live, hj⟩, ?_, he.pc, he.ctx, he.page⟩
  simp only [dropBlocks, without, if_neg hj]
  exact he.mem

lemma Chains.dropBlocks (h : t.Chains) (l : List ℕ) : (t.dropBlocks l).Chains where
  hash hi := h.hash (List.mem_of_mem_filter hi)
  nodup b := (h.nodup b).filter _
  pages hi := by
    obtain ⟨hi, hl⟩ := List.mem_filter.mp hi
    exact ⟨live_dropBlocks.mpr ⟨(h.pages hi).1, of_decide_eq_true hl⟩, (h.pages hi).2⟩
  live hi := by
    obtain ⟨hi, hl⟩ := live_dropBlocks.mp hi
    exact List.mem_filter.mpr ⟨h.live hi, decide_eq_true hl⟩
  unique hi hj := h.unique (live_dropBlocks.mp hi).1 (live_dropBlocks.mp hj).1
  edge hi hp := h.edge_dropBlocks hi hp
  nedges := h.nedges

lemma dropBlocks_nil (t : JTable) : t.dropBlocks [] = t := by simp [JTable.dropBlocks, without]

end Drop

section Add
variable {b : JCode}

lemma mem_update_cons {α : Type} [DecidableEq α] {f : α → List ℕ} {a x : α} {n i : ℕ} :
    i ∈ Function.update f a (n :: f a) x ↔ i = n ∧ x = a ∨ i ∈ f x := by
  by_cases hx : x = a
  · subst hx
    simp
  · simp [hx]

lemma addBlock_arena_self : (t.addBlock b).arena t.nblocks = ⟨b, [], fun _ => none⟩ := Function.update_self ..

lemma addBlock_arena {i : ℕ} (hi : i ≠ t.nblocks) : (t.addBlock b).arena i = t.arena i :=
  Function.update_of_ne hi ..

lemma live_addBlock {i : ℕ} : (t.addBlock b).Live i ↔ i = t.nblocks ∨ t.Live i := by
  unfold Live
  by_cases hi : i = t.nblocks
  · subst hi
    rw [addBlock_arena_self]
    exact iff_of_true (mem_update_cons.mpr (.inl ⟨rfl, rfl⟩)) (.inl rfl)
  · rw [addBlock_arena hi, JTable.addBlock, mem_update_cons]
    simp [hi]

lemma Chains.addBlock (h : t.Chains) (b : JCode) (hb : t.jitLookup b.tag b.hostPage = none) :
    (t.addBlock b).Chains where
  hash {hv i} hi := by
    obtain ⟨rfl, rfl⟩ | hi := mem_update_cons.mp hi
    · rw [addBlock_arena_self]
      exact ⟨Nat.lt_succ_self _, rfl⟩
    · obtain ⟨hlt, ht⟩ := h.hash hi
      rw [addBlock_arena hlt.ne]
      exact ⟨Nat.lt_succ_of_lt hlt, ht⟩
  nodup hv := by
    by_cases hh : hv = hashTag b.tag
    · subst hh
      simp only [JTable.addBlock, Function.update_self]
      exact List.nodup_cons.mpr ⟨fun hi => (h.hash hi).1.ne rfl, h.nodup _⟩
    · simp only [JTable.addBlock, Function.update_of_ne hh]
      exact h.nodup hv
  pages {p i} hi := by
    obtain ⟨rfl, rfl⟩ | hi := mem_update_cons.mp hi
    · rw [addBlock_arena_self]
      exact ⟨live_addBlock.mpr (.inl rfl), rfl⟩
    · obtain ⟨hl, hp⟩ := h.pages hi
      rw [addBlock_arena (h.live_lt hl).ne]
      exact ⟨live_addBlock.mpr (.inr hl), hp⟩
  live {i} hi := by
    obtain rfl | hi := live_addBlock.mp hi
    · rw [addBlock_arena_self]
      exact mem_update_cons.mpr (.inl ⟨rfl, rfl⟩)
    · rw [addBlock_arena (h.live_lt hi).ne]
      exact mem_update_cons.mpr (.inr (h.live hi))
  unique {i j} hi hj := by
    obtain rfl | hi := live_addBlock.mp hi <;> obtain rfl | hj := live_addBlock.mp hj
    · exact fun _ _ => rfl
    · rw [addBlock_arena_self, addBlock_arena (h.live_lt hj).ne]
      exact fun ht hp => absurd ⟨ht.symm, hp.symm⟩ (not_live_of_lookup hb hj)
    · rw [addBlock_arena_self, addBlock_arena (h.live_lt hi).ne]
      exact fun ht hp => absurd ⟨ht, hp⟩ (not_live_of_lookup hb hi)
    · rw [addBlock_arena (h.live_lt hi).ne, addBlock_arena (h.live_lt hj).ne]
      exact h.unique hi hj
  edge {i slot j} hi hp := by
    obtain rfl | hlt := Nat.eq_or_lt_of_le (Nat.le_of_lt_succ hi)
    · rw [addBlock_arena_self] at hp
      cases hp
    · rw [addBlock_arena hlt.ne] at hp
      have he := h.edge hlt hp
      have hj := addBlock_arena (b := b) (h.live_lt he.live).ne
      have hi := addBlock_arena (b := b) hlt.ne
      exact ⟨live_addBlock.mpr (.inr he.live), by rw [hj]; exact he.mem, by rw [hi, hj]; exact he.pc,
        by rw [hi, hj]; exact he.ctx, by rw [hi, hj]; exact he.page⟩
  nedges := h.nedges

end Add

section Chain
variable {prev i : ℕ} {slot : Bool}

lemma chain_eq (t : JTable) (prev : ℕ) (slot : Bool) (i : ℕ) :
    t.chain prev slot i = t ∨
    ((t.arena prev).exitPc slot = (t.arena i).pc ∧ ((t.arena prev).tag ^^^ (t.arena i).tag) &&& 0x1f = 0 ∧
      ((t.arena prev).pc ^^^ (t.arena i).pc) &&& ~~~0xfff = 0 ∧ t.Live prev ∧ t.nedges < 2 * jitMaxBlocks ∧
      t.chain prev slot i = { t with
        nedges := t.nedges + 1
        arena := fun k => ⟨(t.arena k).toJCode,
          if k = i then (prev, slot) :: (t.arena k).inHead else (t.arena k).inHead,
          fun slot' => if k = prev ∧ slot' = slot then some i else (t.arena k).patched slot'⟩ }) := by
  unfold JTable.chain
  dsimp only
  split_ifs with hc
  · obtain ⟨hpc, -, hctx, hpage, hl, hn⟩ := hc
    refine .inr ⟨hpc, hctx, hpage, (live_of_lookup hl).1, hn, ?_⟩
    simp only [setPatched, modifyBlock]
    congr 1
    funext k
    by_cases hi : k = i
    · subst hi
      by_cases hk : k = prev
      · subst hk
        simp [Function.update_apply, funext_iff]
      · simp [hk]
    · by_cases hk : k = prev
      · subst hk
        simp [Function.update_apply, funext_iff, hi]
      · simp [hi, hk]
  · exact .inl rfl

lemma chain_code (t : JTable) (prev : ℕ) (slot : Bool) (i j : ℕ) :
    ((t.chain prev slot i).arena j).toJCode = (t.arena j).toJCode := by
  obtain h | ⟨-, -, -, -, -, h⟩ := t.chain_eq prev slot i
  · rw [h]
  · rw [h]

lemma live_chain {j : ℕ} : (t.chain prev slot i).Live j ↔ t.Live j := by
  have hhash : (t.chain prev slot i).hash = t.hash := by
    obtain h | ⟨-, -, -, -, -, h⟩ := t.chain_eq prev slot i
    · rw [h]
    · rw [h]
  simp only [Live, hhash, chain_code]

lemma Chains.chain (h : t.Chains) (hi : t.Live i) : (t.chain prev slot i).Chains := by
  obtain heq | ⟨hpc, hctx, hpage, hp, hn, heq⟩ := chain_eq t prev slot i
  · rw [heq]
    exact h
  · rw [heq]
    refine ⟨h.hash, h.nodup, h.pages, h.live, h.unique, fun {k slot' j} hk hs => ?_, hn⟩
    dsimp only at hs
    split_ifs at hs with hc
    · obtain ⟨rfl, rfl⟩ := hc
      obtain rfl := Option.some.inj hs
      exact ⟨hi, by simp, hpc.symm, hctx, hpage⟩
    · have he := h.edge hk hs
      refine ⟨he.live, ?_, he.pc, he.ctx, he.page⟩
      dsimp only
      split
      · exact List.mem_cons_of_mem _ he.mem
      · exact he.mem

end Chain

lemma chains_empty (t : JTable) : t.empty.Chains where
  hash hi := absurd hi List.not_mem_nil
  nodup _ := List.nodup_nil
  pages hi := absurd hi List.not_mem_nil
  live hi := absurd hi List.not_mem_nil
  unique hi := absurd hi List.not_mem_nil
  edge hi := absurd hi (Nat.not_lt_zero _)
  nedges := Nat.zero_le _

/-- The table with the indirect-branch cache: its entries in use lead to blocks in the
table, and all of them are in the list that a purge goes through. -/
structure Tables (t : JTable) (jc : JCache) : Prop extends t.Chains where
  jcache (k) : (jc.jcache k).tag ≠ ~~~0 →
    t.Live (jc.jcache k).code ∧ (t.arena (jc.jcache k).code).tag = (jc.jcache k).tag
  dirty : jc.jcNdirty ≤ jitJcDirtyMax → ∀ k, (jc.jcache k).tag ≠ ~~~0 → k ∈ jc.jcDirty

end JTable

/-- The entries in use are in the list, as long as it has them all. -/
def JCache.Recorded (jc : JCache) : Prop :=
  jc.jcNdirty ≤ jitJcDirtyMax → ∀ k, (jc.jcache k).tag ≠ ~~~0 → k ∈ jc.jcDirty

lemma JCache.Recorded.purge_tag {jc : JCache} (h : jc.Recorded) (k : BitVec 12) : (jc.jcachePurge.jcache k).tag = ~~~0 := by
  unfold JCache.jcachePurge
  split_ifs with hn
  · dsimp only
    split_ifs with hk
    · rfl
    · by_contra hne
      exact hk (h hn k hne)
  · rfl

lemma JCache.Recorded.fill {jc : JCache} (h : jc.Recorded) (pc tag : U64) (i : ℕ) : (jc.fill pc tag i).Recorded := by
  intro hn k hk
  have hlt : jc.jcNdirty < jitJcDirtyMax := by
    simp only [JCache.fill] at hn
    split at hn <;> omega
  simp only [JCache.fill, if_pos hlt, List.mem_append, List.mem_singleton]
  by_cases hidx : k = jcIdx pc
  · exact .inr hidx
  · simp only [JCache.fill, Function.update_of_ne hidx] at hk
    exact .inl (h hlt.le k hk)

lemma JTable.Tables.purge_tag {t : JTable} {jc : JCache} (h : t.Tables jc) (k : BitVec 12) :
    (jc.jcachePurge.jcache k).tag = ~~~0 := JCache.Recorded.purge_tag h.dirty k

lemma JTable.Chains.tables {t : JTable} {jc : JCache} (h : t.Chains) (hjc : ∀ k, (jc.jcache k).tag = ~~~0) :
    t.Tables jc := ⟨h, fun k hk => absurd (hjc k) hk, fun _ k hk => absurd (hjc k) hk⟩

namespace JitEnv
variable {env : JitEnv}

def Tables (env : JitEnv) : Prop := env.toJTable.Tables env.toJCache

lemma Tables.jcachePurge (h : env.Tables) : env.jcachePurge.Tables := h.toChains.tables h.purge_tag

lemma Tables.jitFlushAll (h : env.Tables) (H : JitHost) : (env.jitFlushAll H).Tables :=
  (JTable.chains_empty _).tables h.purge_tag

lemma Tables.addBlock (h : env.Tables) (b : JCode) (hb : env.jitLookup b.tag b.hostPage = none) :
    JitEnv.Tables { env with toJTable := env.toJTable.addBlock b } where
  toChains := h.toChains.addBlock b hb
  jcache k hk := by
    obtain ⟨hl, ht⟩ := h.jcache k hk
    refine ⟨JTable.live_addBlock.mpr (.inr hl), ?_⟩
    rw [JTable.addBlock_arena (h.live_lt hl).ne]
    exact ht
  dirty := h.dirty

lemma Tables.chain (h : env.Tables) (prev : ℕ) (slot : Bool) {i : ℕ} (hi : env.Live i) :
    JitEnv.Tables { env with toJTable := env.toJTable.chain prev slot i } where
  toChains := h.toChains.chain hi
  jcache k hk := by
    obtain heq | ⟨-, -, -, -, -, heq⟩ := JTable.chain_eq env.toJTable prev slot i
    · rw [heq]
      exact h.jcache k hk
    · rw [heq]
      exact h.jcache k hk
  dirty := h.dirty

lemma Tables.fill (h : env.Tables) (pc : U64) {tag : U64} {i : ℕ} (hi : env.Live i)
    (ht : (env.arena i).tag = tag) : JitEnv.Tables { env with toJCache := env.toJCache.fill pc tag i } where
  toChains := h.toChains
  jcache k hk := by
    by_cases hidx : k = jcIdx pc
    · subst hidx
      simp only [JCache.fill, Function.update_self]
      exact ⟨hi, ht⟩
    · simp only [JCache.fill, Function.update_of_ne hidx] at hk ⊢
      exact h.jcache k hk
  dirty := JCache.Recorded.fill h.dirty pc tag i

section Drop

def onPage (env : JitEnv) (paPage : U64) : List ℕ :=
  (env.pages (pageSlot paPage)).filter fun i => (env.arena i).paPage = paPage

lemma jitDropPage_eq (h : env.Chains) (paPage : U64) :
    env.jitDropPage paPage =
      if env.onPage paPage ≠ [] then
        JitEnv.jcachePurge { env with toJTable := env.toJTable.dropBlocks (env.onPage paPage) }
      else env := by
  have hpages : Function.update env.pages (pageSlot paPage)
      ((env.pages (pageSlot paPage)).filter fun i => (env.arena i).paPage ≠ paPage) =
      fun p => (env.pages p).filter (· ∉ env.onPage paPage) := by
    funext p
    by_cases hp : p = pageSlot paPage
    · subst hp
      rw [Function.update_self]
      refine List.filter_congr fun i hi => ?_
      simp [onPage, hi]
    · rw [Function.update_of_ne hp, List.filter_eq_self.mpr]
      intro i hi
      simp only [onPage, List.mem_filter, decide_eq_true_eq, not_and]
      rintro - rfl
      exact hp (h.pages hi).2.symm
  have hfold : (env.onPage paPage).foldl JTable.jitUnlinkBlock
      { env.toJTable with pages := fun p => (env.pages p).filter (· ∉ env.onPage paPage) } =
      env.toJTable.dropBlocks (env.onPage paPage) :=
    JTable.foldl_unlink _ h.nodup fun _ _ hi => (h.hash hi).2
  unfold jitDropPage
  simp only [hpages]
  rw [← onPage, hfold]
  split_ifs with hl
  · rfl
  · rw [not_not.mp hl, JTable.dropBlocks_nil]

lemma Tables.jitDropPage (h : env.Tables) (paPage : U64) : (env.jitDropPage paPage).Tables := by
  rw [jitDropPage_eq h.toChains]
  split_ifs with hl
  · exact (h.toChains.dropBlocks _).tables h.purge_tag
  · exact h

lemma Tables.invalidatePage (h : env.Tables) (isRam : Bool) (page : U64) : (env.invalidatePage isRam page).Tables := by
  unfold JitEnv.invalidatePage
  dsimp only
  split_ifs
  · exact h
  · exact h.jitDropPage page
  · exact h.jitDropPage page

end Drop

/-- The blocks of `env'` are blocks of `env`, of which some may have been dropped. -/
structure Shrinks (env env' : JitEnv) : Prop where
  code (i) : (env'.arena i).toJCode = (env.arena i).toJCode
  nblocks : env'.nblocks = env.nblocks
  live {i} : env'.Live i → env.Live i

lemma Shrinks.refl (env : JitEnv) : env.Shrinks env := ⟨fun _ => rfl, rfl, id⟩

lemma Shrinks.trans {env' env'' : JitEnv} (h : env.Shrinks env') (h' : env'.Shrinks env'') : env.Shrinks env'' :=
  ⟨fun i => (h'.code i).trans (h.code i), h'.nblocks.trans h.nblocks, fun hi => h.live (h'.live hi)⟩

lemma shrinks_jitDropPage (h : env.Chains) (paPage : U64) : env.Shrinks (env.jitDropPage paPage) := by
  rw [jitDropPage_eq h]
  split
  · exact ⟨fun _ => rfl, rfl, fun hi => (JTable.live_dropBlocks.mp hi).1⟩
  · exact .refl env

lemma shrinks_invalidatePage (h : env.Chains) (isRam : Bool) (page : U64) :
    env.Shrinks (env.invalidatePage isRam page) := by
  have hd := shrinks_jitDropPage h page
  unfold JitEnv.invalidatePage
  dsimp only
  split_ifs
  · exact .refl env
  · exact ⟨hd.code, hd.nblocks, hd.live⟩
  · exact ⟨hd.code, hd.nblocks, hd.live⟩

lemma tables_init (H : JitHost) (tlbGen tlbiVaSeq : U32) : (jitEnvInit H tlbGen tlbiVaSeq).Tables :=
  (JTable.chains_empty (jitEnvInit H tlbGen tlbiVaSeq).toJTable).tables fun _ => rfl

end JitEnv

def JCache.step (jc : JCache) : JcOp → JCache
  | .refill pc tag code => jc.fill pc tag code
  | .purge => jc.jcachePurge

lemma JCache.Recorded.step {jc : JCache} (h : jc.Recorded) (op : JcOp) : (jc.step op).Recorded := by
  cases op with
  | refill pc tag code => exact h.fill pc tag code
  | purge =>
    intro _ k hk
    exact absurd (h.purge_tag k) hk

namespace JcArrays
variable {a : JcArrays} {jc : JCache}

/-- The list is the part of the dirty array that has been written since the last purge. -/
structure Holds (a : JcArrays) (jc : JCache) : Prop where
  ent (k : BitVec 12) : a.jcache k.toNat = jc.jcache k
  ndirty : a.jcNdirty.toNat = jc.jcNdirty
  bound : jc.jcNdirty ≤ jitJcDirtyMax + 1
  dirty : jc.jcDirty.map (·.setWidth 16) = (List.range (min jc.jcNdirty jitJcDirtyMax)).map a.jcDirty

lemma toNat_setWidth_slot (k : BitVec 12) : (k.setWidth 16).toNat = k.toNat := by
  rw [BitVec.toNat_setWidth, Nat.mod_eq_of_lt (by omega)]

lemma setEnt_slot (a : JcArrays) (k : BitVec 12) (e : JcEnt) :
    a.setEnt k.toNat e = some { a with jcache := Function.update a.jcache k.toNat e } := if_pos k.isLt

lemma update_slot (f : ℕ → JcEnt) (k k' : BitVec 12) (e : JcEnt) :
    Function.update f k.toNat e k'.toNat = if k' = k then e else f k'.toNat := by
  simp only [Function.update_apply, BitVec.toNat_inj]

lemma toNat_jci (pc : U64) : ((pc >>> 2).setWidth 32 &&& BitVec.ofNat 32 (jitJcSize - 1)).toNat = (jcIdx pc).toNat := by
  have hmask : (BitVec.ofNat 32 (jitJcSize - 1)).toNat = 2 ^ 12 - 1 := rfl
  rw [BitVec.toNat_and, hmask, Nat.and_two_pow_sub_one_eq_mod, BitVec.toNat_setWidth, jcIdx, BitVec.extractLsb'_toNat,
    BitVec.toNat_ushiftRight, Nat.mod_mod_of_dvd _ (by decide)]

lemma purgeFrom_eq (ks : List (BitVec 12)) (a : JcArrays) (i : ℕ) (hi : i + ks.length ≤ jitJcDirtyMax)
    (hks : ks.map (·.setWidth 16) = (List.range' i ks.length).map a.jcDirty) :
    ∃ f, purgeFrom ks.length i a = some { a with jcache := f } ∧
      ∀ k : BitVec 12, f k.toNat = if k ∈ ks then ⟨~~~0, (a.jcache k.toNat).code⟩ else a.jcache k.toNat := by
  induction ks generalizing a i with
  | nil => exact ⟨a.jcache, rfl, fun k => (if_neg List.not_mem_nil).symm⟩
  | cons k₀ ks ih =>
    simp only [List.length_cons, List.range'_succ, List.map_cons, List.cons.injEq] at hks hi
    have hk₀ : (a.jcDirty i).toNat = k₀.toNat := by rw [← hks.1, toNat_setWidth_slot]
    set a' : JcArrays := { a with jcache := Function.update a.jcache k₀.toNat ⟨~~~0, (a.jcache k₀.toNat).code⟩ }
    obtain ⟨f, hf, hfk⟩ := ih a' (i + 1) (by omega) hks.2
    refine ⟨f, ?_, fun k => ?_⟩
    · rw [List.length_cons, purgeFrom, if_pos (by omega), hk₀]
      dsimp only
      rw [setEnt_slot]
      exact hf
    · rw [hfk k]
      by_cases hk : k = k₀
      · subst hk
        simp [a']
      · simp [a', update_slot, hk]

lemma Holds.purge (h : a.Holds jc) : ∃ a', a.jcachePurge = some a' ∧ a'.Holds jc.jcachePurge := by
  unfold jcachePurge JCache.jcachePurge
  rw [h.ndirty]
  by_cases hn : jc.jcNdirty ≤ jitJcDirtyMax
  · have hlen : jc.jcDirty.length = jc.jcNdirty := by
      have := congrArg List.length h.dirty
      simpa [hn] using this
    have hrange := h.dirty
    rw [Nat.min_eq_left hn, ← hlen, List.range_eq_range'] at hrange
    obtain ⟨f, hf, hfk⟩ := purgeFrom_eq jc.jcDirty a 0 (by omega) hrange
    rw [hlen] at hf
    refine ⟨{ a with jcache := f, jcNdirty := 0 }, by simp [hn, hf], ?_⟩
    simp only [if_pos hn]
    exact ⟨fun k => by simp only [hfk k, h.ent k], rfl, Nat.zero_le _, by simp⟩
  · refine ⟨{ a with jcache := fun _ => jcEmpty, jcNdirty := 0 }, by simp [hn], ?_⟩
    simp only [if_neg hn]
    exact ⟨fun _ => rfl, rfl, Nat.zero_le _, by simp⟩

lemma Holds.refill (h : a.Holds jc) (pc tag : U64) (code : ℕ) :
    ∃ a', a.refill pc tag code = some a' ∧ a'.Holds (jc.fill pc tag code) := by
  have hslot : ((pc >>> 2).setWidth 32 &&& BitVec.ofNat 32 (jitJcSize - 1)).setWidth 16 = (jcIdx pc).setWidth 16 := by
    apply BitVec.eq_of_toNat_eq
    rw [BitVec.toNat_setWidth, toNat_jci, BitVec.toNat_setWidth]
  have hent (k : BitVec 12) : Function.update a.jcache (jcIdx pc).toNat ⟨tag, code⟩ k.toNat =
      Function.update jc.jcache (jcIdx pc) ⟨tag, code⟩ k := by
    rw [update_slot, Function.update_apply, h.ent k]
  have hbound := h.bound
  have hmax : jitJcDirtyMax + 2 < 2 ^ 32 := by decide
  have hsucc (hle : jc.jcNdirty ≤ jitJcDirtyMax) : (a.jcNdirty + 1).toNat = jc.jcNdirty + 1 := by
    rw [BitVec.toNat_add_of_lt (by rw [h.ndirty]; exact lt_of_le_of_lt (by simp; omega) hmax), h.ndirty]
    rfl
  unfold JcArrays.refill JCache.fill
  simp only [toNat_jci, setEnt_slot, hslot, Option.bind_eq_bind, Option.bind_some, h.ndirty]
  rcases lt_trichotomy jc.jcNdirty jitJcDirtyMax with hlt | heq | hgt
  · -- the slot is recorded
    refine ⟨_, by simp [setDirty, hlt]; rfl, ?_⟩
    simp only [if_pos hlt, if_pos hlt.le, h.ndirty]
    refine ⟨hent, hsucc hlt.le, by dsimp only; omega, ?_⟩
    rw [List.map_append, h.dirty, Nat.min_eq_left hlt.le, Nat.min_eq_left (show jc.jcNdirty + 1 ≤ _ from hlt),
      List.range_succ, List.map_append]
    congr 1
    · apply List.map_congr_left
      intro i hi
      exact (Function.update_of_ne (List.mem_range.1 hi).ne _ _).symm
    · simp
  · -- the list is full, and the count passes its end
    refine ⟨_, by simp [heq]; rfl, ?_⟩
    simp only [if_neg heq.not_lt, if_pos heq.le]
    refine ⟨hent, hsucc heq.le, by dsimp only; omega, ?_⟩
    rw [h.dirty, Nat.min_eq_right heq.ge, Nat.min_eq_right (by dsimp only; omega)]
  · refine ⟨_, by simp [hgt.not_gt, hgt.not_ge]; rfl, ?_⟩
    simp only [if_neg hgt.not_gt, if_neg hgt.not_ge]
    exact ⟨hent, h.ndirty, hbound, h.dirty⟩

lemma Holds.run (ops : List JcOp) (h : a.Holds jc) : ∃ a', ops.foldlM step a = some a' ∧ a'.Holds (ops.foldl JCache.step jc) := by
  induction ops generalizing a jc with
  | nil => exact ⟨a, rfl, h⟩
  | cons op ops ih =>
    have hop : ∃ a', a.step op = some a' ∧ a'.Holds (jc.step op) := by
      cases op with
      | refill pc tag code => exact h.refill pc tag code
      | purge => exact h.purge
    obtain ⟨a₁, ha₁, h₁⟩ := hop
    obtain ⟨a', ha', h'⟩ := ih h₁
    exact ⟨a', by simpa [List.foldlM_cons, ha₁] using ha', h'⟩

lemma holds_init : init.Holds ⟨fun _ => jcEmpty, [], 0⟩ := ⟨fun _ => rfl, rfl, Nat.zero_le _, rfl⟩

/-- Refills and purges keep inside both arrays, and a purge leaves no entry in use. -/
theorem jcache_purge_empties (ops : List JcOp) : ∃ a, ops.foldlM step init = some a ∧ a.jcNdirty.toNat ≤ jitJcDirtyMax + 1 ∧
    ∃ a', a.jcachePurge = some a' ∧ ∀ k < jitJcSize, (a'.jcache k).tag = ~~~0 := by
  obtain ⟨a, ha, h⟩ := Holds.run ops holds_init
  have hrec : (ops.foldl JCache.step ⟨fun _ => jcEmpty, [], 0⟩).Recorded :=
    List.foldlRecOn ops JCache.step (fun _ _ hk => absurd rfl hk) fun _ h op _ => h.step op
  obtain ⟨a', ha', h'⟩ := h.purge
  refine ⟨a, ha, h.ndirty ▸ h.bound, a', ha', fun k hk => ?_⟩
  have hslot : (BitVec.ofNat 12 k).toNat = k := Nat.mod_eq_of_lt hk
  rw [← hslot, h'.ent]
  exact hrec.purge_tag _

end JcArrays

end Arm64Emu
