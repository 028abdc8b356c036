import Mathlib.Logic.Function.Basic

/-! A component of a larger state, by lawful access functions. -/

structure Lens (S A : Type) where
  get : S → A
  set : S → A → S
  get_set (s : S) (a : A) : get (set s a) = a
  set_get (s : S) : set s (get s) = s
  set_set (s : S) (a b : A) : set (set s a) b = set s b

namespace Lens

def self (A : Type) : Lens A A := ⟨id, fun _ a => a, fun _ _ => rfl, fun _ => rfl, fun _ _ _ => rfl⟩

variable {S A : Type} (L : Lens S A)

def comp {B : Type} (M : Lens A B) : Lens S B where
  get s := M.get (L.get s)
  set s b := L.set s (M.set (L.get s) b)
  get_set s b := by rw [L.get_set, M.get_set]
  set_get s := by rw [M.set_get, L.set_get]
  set_set s b c := by rw [L.get_set, M.set_set, L.set_set]

attribute [simp] get_set set_get set_set

def modify (f : A → A) (s : S) : S := L.set s (f (L.get s))

end Lens
