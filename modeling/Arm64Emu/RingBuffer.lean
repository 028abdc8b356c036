import Mathlib

/-! A queue in a buffer of `cap` cells. It starts at the cell `head` and goes on at cell 0
after the last one; what is put behind it is written in two parts, and so is what is read
from it. -/
namespace RingBuffer

variable {α : Type} {buf : ℕ → α} {cap head len : ℕ}

def read (buf : ℕ → α) (pos n : ℕ) : List α := (List.range n).map fun i => buf (pos + i)

def write (buf : ℕ → α) (pos : ℕ) (src : List α) : ℕ → α := fun i =>
  if pos ≤ i then (src[i - pos]?).getD (buf i) else buf i

def contents (buf : ℕ → α) (cap head len : ℕ) : List α := (List.range len).map fun i => buf ((head + i) % cap)

/-- The cells from `tail` on and then those from 0 on. -/
def put (buf : ℕ → α) (cap tail : ℕ) (src : List α) : ℕ → α :=
  let first := min src.length (cap - tail)
  write (write buf tail (src.take first)) 0 (src.drop first)

def get (buf : ℕ → α) (cap pos n : ℕ) : List α :=
  let first := min n (cap - pos)
  read buf pos first ++ read buf 0 (n - first)

@[simp] lemma length_read (buf : ℕ → α) (pos n : ℕ) : (read buf pos n).length = n := by simp [read]

@[simp] lemma length_contents (buf : ℕ → α) (cap head len : ℕ) : (contents buf cap head len).length = len := by
  simp [contents]

@[simp] lemma length_get (buf : ℕ → α) (cap pos n : ℕ) : (get buf cap pos n).length = n := by
  simp [get]

@[simp] lemma contents_zero (buf : ℕ → α) (cap head : ℕ) : contents buf cap head 0 = [] := rfl

lemma getElem?_contents {i : ℕ} (hi : i < len) : (contents buf cap head len)[i]? = some (buf ((head + i) % cap)) := by
  simp [contents, hi]

lemma index_eq {i : ℕ} (hhead : head < cap) (hi : i < cap) :
    (head + i) % cap = if head + i < cap then head + i else head + i - cap := by
  split
  · next h => exact Nat.mod_eq_of_lt h
  · rw [Nat.mod_eq_sub_mod (by omega), Nat.mod_eq_of_lt (by omega)]

lemma index_injective {i j : ℕ} (hhead : head < cap) (hi : i < cap) (hj : j < cap)
    (h : (head + i) % cap = (head + j) % cap) : i = j := by
  rw [index_eq hhead hi, index_eq hhead hj] at h
  split at h <;> split at h <;> omega

lemma write_of_lt {pos i : ℕ} {src : List α} (hi : i < pos) : write buf pos src i = buf i := if_neg (by omega)

lemma write_of_ge {pos i : ℕ} {src : List α} (hi : pos + src.length ≤ i) : write buf pos src i = buf i := by
  unfold write
  rw [List.getElem?_eq_none (by omega)]
  exact ite_self _

lemma write_at {pos i : ℕ} {src : List α} {a : α} (ha : src[i]? = some a) : write buf pos src (pos + i) = a := by
  unfold write
  rw [if_pos (Nat.le_add_right _ _), Nat.add_sub_cancel_left, ha]
  rfl

lemma put_at {tail i : ℕ} {src : List α} {a : α} (htail : tail < cap) (hsrc : src.length ≤ cap)
    (ha : src[i]? = some a) : put buf cap tail src ((tail + i) % cap) = a := by
  have hi : i < src.length := (List.getElem?_eq_some_iff.1 ha).1
  rw [index_eq htail (by omega)]
  unfold put
  split
  · next hin =>
    -- the part behind the end of the buffer is shorter than the way to `tail`
    rw [write_of_ge (by rw [List.length_drop]; omega)]
    exact write_at (by rw [List.getElem?_take_of_lt (by omega)]; exact ha)
  · next hout =>
    have hplace : tail + i - cap = 0 + (i - min src.length (cap - tail)) := by omega
    rw [hplace]
    refine write_at ?_
    rw [List.getElem?_drop, Nat.add_sub_cancel' (by omega)]
    exact ha

lemma put_of_ne {tail x : ℕ} {src : List α} (htail : tail < cap) (hsrc : src.length ≤ cap)
    (h : ∀ i < src.length, (tail + i) % cap ≠ x) : put buf cap tail src x = buf x := by
  have haway (i : ℕ) (hi : i < src.length) : (if tail + i < cap then tail + i else tail + i - cap) ≠ x := by
    rw [← index_eq htail (by omega)]
    exact h i hi
  unfold put
  rw [write_of_ge]
  · by_cases hlt : x < tail
    · exact write_of_lt hlt
    · refine write_of_ge ?_
      rw [List.length_take]
      by_contra hin
      exact haway (x - tail) (by omega) (by split <;> omega)
  · rw [List.length_drop]
    by_contra hin
    exact haway (x + cap - tail) (by omega) (by split <;> omega)

lemma put_singleton {tail : ℕ} (htail : tail < cap) (a : α) : put buf cap tail [a] = Function.update buf tail a := by
  have hfirst : min [a].length (cap - tail) = 1 := by
    rw [List.length_singleton]
    omega
  funext i
  unfold put
  rw [hfirst]
  by_cases hi : i = tail
  · subst hi
    simp [write]
  · rw [Function.update_of_ne hi, write_of_ge (by simp)]
    rcases Nat.lt_or_gt_of_ne hi with hlt | hgt
    · exact write_of_lt hlt
    · exact write_of_ge (by simpa using hgt)

theorem contents_put {src : List α} (hhead : head < cap) (hfits : len + src.length ≤ cap) :
    contents (put buf cap ((head + len) % cap) src) cap head (len + src.length) = contents buf cap head len ++ src := by
  have hcap : 0 < cap := by omega
  refine List.ext_getElem? fun i => ?_
  by_cases hi : i < len
  · rw [getElem?_contents (by omega), List.getElem?_append_left (by simpa using hi), getElem?_contents hi,
      put_of_ne (Nat.mod_lt _ hcap) (by omega)]
    intro j hj hsame
    rw [Nat.mod_add_mod, Nat.add_assoc] at hsame
    have := index_injective hhead (by omega) (by omega) hsame
    omega
  · rw [List.getElem?_append_right (by simpa using hi), length_contents]
    by_cases hlt : i < len + src.length
    · rw [getElem?_contents hlt, List.getElem?_eq_getElem (by omega)]
      have hplace : (head + i) % cap = ((head + len) % cap + (i - len)) % cap := by
        rw [Nat.mod_add_mod]
        congr 1
        omega
      rw [hplace, put_at (Nat.mod_lt _ hcap) (by omega) (List.getElem?_eq_getElem (by omega))]
    · rw [List.getElem?_eq_none (by simpa using hlt), List.getElem?_eq_none (by omega)]

theorem contents_advance {n : ℕ} (hn : n ≤ len) :
    contents buf cap ((head + n) % cap) (len - n) = (contents buf cap head len).drop n := by
  refine List.ext_getElem? fun i => ?_
  rw [List.getElem?_drop]
  by_cases hi : i < len - n
  · rw [getElem?_contents hi, getElem?_contents (by omega), Nat.mod_add_mod, Nat.add_assoc]
  · rw [List.getElem?_eq_none (by simpa using hi), List.getElem?_eq_none (by simp; omega)]

lemma getElem?_read {pos n i : ℕ} (hi : i < n) : (read buf pos n)[i]? = some (buf (pos + i)) := by
  simp [read, hi]

lemma read_head {n : ℕ} (hn : n ≤ len) (hend : head + n ≤ cap) :
    read buf head n = (contents buf cap head len).take n := by
  refine List.ext_getElem? fun i => ?_
  by_cases hi : i < n
  · rw [getElem?_read hi, List.getElem?_take_of_lt hi, getElem?_contents (by omega), Nat.mod_eq_of_lt (by omega)]
  · rw [List.getElem?_eq_none (by simpa using hi), List.getElem?_eq_none (by simp; omega)]

theorem get_eq_slice {off n : ℕ} (hhead : head < cap) (hlen : len ≤ cap) (hn : off + n ≤ len) :
    get buf cap ((head + off) % cap) n = ((contents buf cap head len).drop off).take n := by
  have hcap : 0 < cap := by omega
  refine List.ext_getElem? fun i => ?_
  by_cases hi : i < n
  · rw [List.getElem?_take_of_lt hi, List.getElem?_drop, getElem?_contents (by omega), ← Nat.add_assoc,
      ← Nat.mod_add_mod (head + off) cap i, index_eq (Nat.mod_lt _ hcap) (by omega)]
    unfold get
    have hpos := Nat.mod_lt (head + off) hcap
    generalize (head + off) % cap = pos at hpos ⊢
    split
    · rw [List.getElem?_append_left (by simp; omega), getElem?_read (by omega)]
    · rw [List.getElem?_append_right (by simp; omega), getElem?_read (by rw [length_read]; omega), length_read]
      congr 2
      omega
  · rw [List.getElem?_eq_none (by simpa using hi), List.getElem?_eq_none (by simp; omega)]

section Count
variable {tail : ℕ}

/-- The length of the queue when `tail` is the cell behind its last, and one cell at least
stays free. -/
def count (cap head tail : ℕ) : ℕ := (tail + cap - head) % cap

lemma count_eq (hhead : head < cap) (htail : tail < cap) :
    count cap head tail = if head ≤ tail then tail - head else tail + cap - head := by
  unfold count
  split
  · rw [show tail + cap - head = tail - head + cap by omega, Nat.add_mod_right, Nat.mod_eq_of_lt (by omega)]
  · exact Nat.mod_eq_of_lt (by omega)

lemma count_lt (hhead : head < cap) (tail : ℕ) : count cap head tail < cap := Nat.mod_lt _ (by omega)

lemma succ_eq (htail : tail < cap) : (tail + 1) % cap = if tail + 1 < cap then tail + 1 else 0 := by
  split
  · next h => exact Nat.mod_eq_of_lt h
  · rw [show tail + 1 = cap by omega, Nat.mod_self]

lemma add_count (hhead : head < cap) (htail : tail < cap) : (head + count cap head tail) % cap = tail := by
  rw [index_eq hhead (count_lt hhead tail), count_eq hhead htail]
  split_ifs <;> omega

lemma full_iff (hhead : head < cap) (htail : tail < cap) : (tail + 1) % cap = head ↔ count cap head tail + 1 = cap := by
  rw [succ_eq htail, count_eq hhead htail]
  split_ifs <;> omega

lemma count_put (hhead : head < cap) (htail : tail < cap) (hroom : (tail + 1) % cap ≠ head) :
    count cap head ((tail + 1) % cap) = count cap head tail + 1 := by
  rw [count_eq hhead (Nat.mod_lt _ (by omega)), count_eq hhead htail]
  rw [succ_eq htail] at hroom ⊢
  split_ifs at hroom ⊢ <;> omega

lemma count_advance (hhead : head < cap) (htail : tail < cap) (hne : head ≠ tail) :
    count cap ((head + 1) % cap) tail = count cap head tail - 1 := by
  rw [count_eq (Nat.mod_lt _ (by omega)) htail, count_eq hhead htail, succ_eq hhead]
  split_ifs <;> omega

end Count

end RingBuffer
