import Mathlib

/-! Programs that call an environment and go on with its replies, and what such a program
guarantees given what its environment guarantees. A protocol carries a history: which
calls the program may make at it, which replies the environment may give, and the history
after a reply. -/

inductive Dialogue {C : Type} (R : C → Type) (α : Type) : Type
  | ret (a : α) : Dialogue R α
  | call (c : C) (k : R c → Dialogue R α) : Dialogue R α

structure Protocol {C : Type} (R : C → Type) (G : Type) where
  allowed : G → C → Prop
  answers (g : G) (c : C) : R c → Prop
  next (g : G) (c : C) : R c → G

namespace Dialogue

variable {C : Type} {R : C → Type} {α β G W : Type}

def bind : Dialogue R α → (α → Dialogue R β) → Dialogue R β
  | ret a, f => f a
  | call c k, f => call c fun r => (k r).bind f

instance : Monad (Dialogue R) where
  pure := ret
  bind := bind

/-- The calls, the result and the final state against an environment with state `W`. -/
def run (env : W → (c : C) → R c × W) : Dialogue R α → W → List C × α × W
  | ret a, w => ([], a, w)
  | call c k, w =>
    let (cs, a, w') := (k (env w c).1).run env (env w c).2
    (c :: cs, a, w')

/-- Every call is allowed and `Q` holds at the end, whatever the environment answers
within the protocol. -/
def Meets (π : Protocol R G) : Dialogue R α → G → (G → α → Prop) → Prop
  | ret a, g, Q => Q g a
  | call c k, g, Q => π.allowed g c ∧ ∀ r, π.answers g c r → (k r).Meets π (π.next g c r) Q

section Rules
variable {π : Protocol R G} {g : G} {Q Q' : G → α → Prop}

@[simp] lemma meets_ret (a : α) : (ret a : Dialogue R α).Meets π g Q ↔ Q g a := Iff.rfl

@[simp] lemma meets_pure (a : α) : (pure a : Dialogue R α).Meets π g Q ↔ Q g a := Iff.rfl

lemma meets_call (c : C) (k : R c → Dialogue R α) : (call c k).Meets π g Q ↔
    π.allowed g c ∧ ∀ r, π.answers g c r → (k r).Meets π (π.next g c r) Q := Iff.rfl

lemma meets_ask (c : C) {Q : G → R c → Prop} : (call c ret).Meets π g Q ↔
    π.allowed g c ∧ ∀ r, π.answers g c r → Q (π.next g c r) r := Iff.rfl

lemma meets_bind (p : Dialogue R β) (f : β → Dialogue R α) :
    (p.bind f).Meets π g Q ↔ p.Meets π g fun g b => (f b).Meets π g Q := by
  induction p generalizing g with
  | ret b => exact Iff.rfl
  | call c k ih => simp only [bind, meets_call, ih]

@[simp] lemma meets_monad_bind (p : Dialogue R β) (f : β → Dialogue R α) :
    (p >>= f).Meets π g Q ↔ p.Meets π g fun g b => (f b).Meets π g Q := meets_bind p f

lemma Meets.mono {p : Dialogue R α} (h : p.Meets π g Q) (hQ : ∀ g a, Q g a → Q' g a) : p.Meets π g Q' := by
  induction p generalizing g with
  | ret a => exact hQ g a h
  | call c k ih => exact ⟨h.1, fun r hr => ih r (h.2 r hr)⟩

lemma meets_congr {p : Dialogue R α} (hQ : ∀ g a, Q g a ↔ Q' g a) : p.Meets π g Q ↔ p.Meets π g Q' :=
  ⟨fun h => h.mono fun g a => (hQ g a).1, fun h => h.mono fun g a => (hQ g a).2⟩

/-- Against an environment that answers within the protocol and keeps an invariant, the
invariant and `Q` hold at the end. -/
lemma Meets.run {env : W → (c : C) → R c × W} {I : G → W → Prop} {p : Dialogue R α} {w : W} (hp : p.Meets π g Q)
    (hI : I g w) (henv : ∀ g w c, I g w → π.allowed g c →
      π.answers g c (env w c).1 ∧ I (π.next g c (env w c).1) (env w c).2) :
    ∃ g, I g (p.run env w).2.2 ∧ Q g (p.run env w).2.1 := by
  induction p generalizing g w with
  | ret a => exact ⟨g, hI, hp⟩
  | call c k ih =>
    obtain ⟨hans, hnext⟩ := henv g w c hI hp.1
    exact ih _ (hp.2 _ hans) hnext

lemma Meets.weaken {allowed : G → C → Prop} {p : Dialogue R α} (hp : p.Meets π g Q)
    (h : ∀ g c, π.allowed g c → allowed g c) : p.Meets { π with allowed := allowed } g Q := by
  induction p generalizing g with
  | ret a => exact hp
  | call c k ih => exact ⟨h g c hp.1, fun r hr => ih r (hp.2 r hr)⟩

lemma Meets.project {G' : Type} {π' : Protocol R G'} (f : G → G') {J : G → Prop} {S : G' → α → Prop} {p : Dialogue R α}
    (hp : p.Meets π g fun g a => J g → S (f g) a) (hg : J g)
    (hallowed : ∀ g c, J g → π.allowed g c → π'.allowed (f g) c)
    (hnext : ∀ g c r, J g → π.allowed g c → π'.answers (f g) c r →
      π.answers g c r ∧ J (π.next g c r) ∧ f (π.next g c r) = π'.next (f g) c r) : p.Meets π' (f g) S := by
  induction p generalizing g with
  | ret a => exact hp hg
  | call c k ih =>
    refine ⟨hallowed g c hg hp.1, fun r hr => ?_⟩
    obtain ⟨hans, hkept, heq⟩ := hnext g c r hg hp.1 hr
    rw [← heq]
    exact ih r (hp.2 r hans) hkept

end Rules

-- proofs about programs go by the rules above
attribute [irreducible] Meets

end Dialogue
