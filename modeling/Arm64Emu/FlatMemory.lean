import Mathlib

/-! A memory of cells with addresses of `w` bits, and transfers between it and a list: to
one place, or to several places in turn. -/
namespace FlatMemory

variable {w : ℕ} {α : Type}

def load (m : BitVec w → α) (a : BitVec w) (n : ℕ) : List α := (List.range n).map fun i => m (a + BitVec.ofNat w i)

def store (m : BitVec w → α) (a : BitVec w) (src : List α) : BitVec w → α := fun x => (src[(x - a).toNat]?).getD (m x)

/-- A list goes to several places, each of which takes its length of it. -/
def scatter (m : BitVec w → α) : List (BitVec w × ℕ) → List α → (BitVec w → α)
  | [], _ => m
  | p :: ps, src => scatter (store m p.1 (src.take p.2)) ps (src.drop p.2)

def gather (m : BitVec w → α) (ps : List (BitVec w × ℕ)) : List α := ps.flatMap fun p => load m p.1 p.2

@[simp] lemma gather_cons (m : BitVec w → α) (p : BitVec w × ℕ) (ps : List (BitVec w × ℕ)) :
    gather m (p :: ps) = load m p.1 p.2 ++ gather m ps := rfl

@[simp] lemma length_load (m : BitVec w → α) (a : BitVec w) (n : ℕ) : (load m a n).length = n := by simp [load]

@[simp] lemma load_zero (m : BitVec w → α) (a : BitVec w) : load m a 0 = [] := rfl

lemma load_add (m : BitVec w → α) (a : BitVec w) (n k : ℕ) :
    load m a (n + k) = load m a n ++ load m (a + BitVec.ofNat w n) k := by
  simp only [load, List.range_add, List.map_append, List.map_map]
  congr 1
  refine List.map_congr_left fun i _ => ?_
  simp only [Function.comp_apply, BitVec.ofNat_add, BitVec.add_assoc]

@[simp] lemma store_nil (m : BitVec w → α) (a : BitVec w) : store m a [] = m := by
  funext x
  simp [store]

lemma store_append (m : BitVec w → α) (a : BitVec w) {src src' : List α} (h : src.length + src'.length ≤ 2 ^ w) :
    store m a (src ++ src') = store (store m a src) (a + BitVec.ofNat w src.length) src' := by
  funext x
  have hsub : x - (a + BitVec.ofNat w src.length) = (x - a) - BitVec.ofNat w src.length := by
    exact sub_add_eq_sub_sub x a _
  simp only [store, hsub]
  generalize x - a = d
  by_cases hd : d.toNat < src.length
  · rw [List.getElem?_append_left hd]
    by_cases hfull : src.length < 2 ^ w
    · have hlt := d.isLt
      have hd' : (d - BitVec.ofNat w src.length).toNat = 2 ^ w - src.length + d.toNat := by
        rw [BitVec.toNat_sub, BitVec.toNat_ofNat, Nat.mod_eq_of_lt hfull, Nat.mod_eq_of_lt]
        omega
      rw [List.getElem?_eq_none (by omega : src'.length ≤ (d - BitVec.ofNat w src.length).toNat)]
      rfl
    · have hnil : src' = [] := List.eq_nil_of_length_eq_zero (by omega)
      simp [hnil]
  · have hlt := d.isLt
    have hd' : (d - BitVec.ofNat w src.length).toNat = d.toNat - src.length := by
      have hle : BitVec.ofNat w src.length ≤ d := by
        rw [BitVec.le_def, BitVec.toNat_ofNat]
        exact (Nat.mod_le _ _).trans (Nat.not_lt.1 hd)
      rw [BitVec.toNat_sub_of_le hle, BitVec.toNat_ofNat, Nat.mod_eq_of_lt (by omega)]
    rw [List.getElem?_append_right (Nat.not_lt.1 hd), hd', List.getElem?_eq_none (Nat.not_lt.1 hd)]
    rfl

end FlatMemory
