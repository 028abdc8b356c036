import Arm64Emu.P9Wire

/-! Host paths of the 9p device: the step from a directory to a name in it. -/
namespace Arm64Emu

def pathMax : ℕ := 4096

def slash : U8 := 0x2f

def dot : Bytes := [0x2e]

def dotDot : Bytes := [0x2e, 0x2e]

/-- What `snprintf(buf, PATH_MAX, "%s", s)` leaves in the buffer. -/
def pathBuf (s : Bytes) : Bytes := s.take (pathMax - 1)

/-- The part before the last slash; all of it when there is none. -/
def beforeLastSlash (s : Bytes) : Bytes :=
  if slash ∈ s then ((s.reverse.dropWhile (· ≠ slash)).drop 1).reverse else s

/-- Resolve one component against `base`, inside the share root. -/
def pathChild (root base name : Bytes) : Except Errno Bytes :=
  if name = [] ∨ slash ∈ name then .error eINVAL
  else if name = dot then
    if pathMax ≤ base.length then .error eNAMETOOLONG else .ok base
  else if name = dotDot then
    if base = root then .ok (pathBuf root)
    else
      let tmp := beforeLastSlash (pathBuf base)
      if tmp.length < root.length then .ok (pathBuf root) else .ok (pathBuf tmp)
  else
    let out := base ++ slash :: name
    if pathMax ≤ out.length then .error eNAMETOOLONG
    else if root.isPrefixOf out = false ∨ (out[root.length]?).getD slash ≠ slash then .error eACCES
    else .ok out

structure Component (c : Bytes) : Prop where
  ne_nil : c ≠ []
  ne_dot : c ≠ dot
  ne_dotDot : c ≠ dotDot
  slash_notMem : slash ∉ c
  nul_notMem : (0 : U8) ∉ c

def joinPath (root : Bytes) (comps : List Bytes) : Bytes := root ++ comps.flatMap (slash :: ·)

/-- The normal form of the paths inside a share, which fit a path buffer. -/
structure NormalPath (root p : Bytes) : Prop where
  comps : ∃ cs, (∀ c ∈ cs, Component c) ∧ p = joinPath root cs
  lt : p.length < pathMax

section Normal
variable {root base name p out : Bytes}

lemma joinPath_concat (root : Bytes) (cs : List Bytes) (c : Bytes) :
    joinPath root (cs ++ [c]) = joinPath root cs ++ slash :: c := by
  simp [joinPath]

lemma NormalPath.self (h : root.length < pathMax) : NormalPath root root :=
  ⟨⟨[], by simp, by simp [joinPath]⟩, h⟩

lemma NormalPath.pathBuf (h : NormalPath root p) : pathBuf p = p :=
  List.take_of_length_le (by have := h.lt; simp only [pathMax] at this ⊢; omega)

lemma beforeLastSlash_concat {c : Bytes} (hc : slash ∉ c) (p : Bytes) : beforeLastSlash (p ++ slash :: c) = p := by
  have hmem : slash ∈ p ++ slash :: c := by simp
  have hdrop : (c.reverse ++ slash :: p.reverse).dropWhile (· ≠ slash) = slash :: p.reverse := by
    rw [List.dropWhile_append_of_pos]
    · simp
    · intro x hx
      have : x ≠ slash := fun h => hc (h ▸ List.mem_reverse.1 hx)
      simpa using this
  rw [beforeLastSlash, if_pos hmem, List.reverse_append, List.reverse_cons, List.append_assoc, List.singleton_append,
    hdrop]
  simp

lemma NormalPath.parent (h : NormalPath root p) (hne : p ≠ root) :
    NormalPath root (beforeLastSlash p) ∧ root.length ≤ (beforeLastSlash p).length := by
  obtain ⟨⟨cs, hcs, rfl⟩, hlt⟩ := h
  rcases List.eq_nil_or_concat cs with rfl | ⟨ds, c, rfl⟩
  · exact absurd (by simp [joinPath]) hne
  · rw [List.concat_eq_append] at *
    have hc : Component c := hcs c (by simp)
    rw [joinPath_concat] at hlt ⊢
    rw [beforeLastSlash_concat hc.slash_notMem]
    refine ⟨⟨⟨ds, fun d hd => hcs d (by simp [hd]), rfl⟩, ?_⟩, ?_⟩
    · rw [List.length_append] at hlt
      omega
    · simp [joinPath]

lemma NormalPath.child (h : NormalPath root base) (hc : Component name) (hlt : (base ++ slash :: name).length < pathMax) :
    NormalPath root (base ++ slash :: name) := by
  obtain ⟨⟨cs, hcs, rfl⟩, -⟩ := h
  refine ⟨⟨cs ++ [name], fun d hd => ?_, (joinPath_concat root cs name).symm⟩, hlt⟩
  obtain hd | hd := List.mem_append.1 hd
  · exact hcs d hd
  · rw [List.mem_singleton.1 hd]
    exact hc

lemma pathChild_normal (hroot : root.length < pathMax) (h : NormalPath root base) (hname : (0 : U8) ∉ name)
    (hok : pathChild root base name = .ok out) : NormalPath root out := by
  have hbufr : pathBuf root = root := (NormalPath.self hroot).pathBuf
  unfold pathChild at hok
  split at hok
  · cases hok
  rename_i hbad
  rw [not_or] at hbad
  split at hok
  · split at hok <;> cases hok
    exact h
  rename_i hdot
  split at hok
  · split at hok
    · cases hok
      rw [hbufr]
      exact .self hroot
    · rename_i hne
      dsimp only at hok
      rw [h.pathBuf] at hok
      split at hok <;> cases hok
      · rw [hbufr]
        exact .self hroot
      · rw [(h.parent hne).1.pathBuf]
        exact (h.parent hne).1
  rename_i hdd
  dsimp only at hok
  split at hok
  · cases hok
  rename_i hlt
  split at hok
  · cases hok
  · cases hok
    exact h.child ⟨hbad.1, hdot, hdd, hbad.2, hname⟩ (by omega)

lemma pathChild_exact (hroot : root.length < pathMax) (h : NormalPath root base) (hname : (0 : U8) ∉ name)
    (hok : pathChild root base name = .ok out) :
    (out = base ∨ out = root ∨ out = beforeLastSlash base ∨ out = base ++ slash :: name) ∧ pathBuf out = out := by
  refine ⟨?_, (pathChild_normal hroot h hname hok).pathBuf⟩
  have hbufr : pathBuf root = root := (NormalPath.self hroot).pathBuf
  unfold pathChild at hok
  split at hok
  · cases hok
  split at hok
  · split at hok <;> cases hok
    exact .inl rfl
  split at hok
  · split at hok
    · cases hok
      exact .inr (.inl hbufr)
    · rename_i hne
      dsimp only at hok
      rw [h.pathBuf] at hok
      split at hok <;> cases hok
      · exact .inr (.inl hbufr)
      · exact .inr (.inr (.inl (h.parent hne).1.pathBuf))
  dsimp only at hok
  split at hok
  · cases hok
  split at hok
  · cases hok
  · cases hok
    exact .inr (.inr (.inr rfl))

end Normal

end Arm64Emu
