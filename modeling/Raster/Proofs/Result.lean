/-
# Calculations that may fail

A chain of steps succeeds where each step does (`bind_eq_ok`, `map_eq_ok`), whatever a
complaint is turned into (`mapError_eq_ok`), and so does one step taken for every element
of a list (`mapM_eq_ok`, `mapM_eq_some`). Two chains agree where their steps do
(`agree_bind`). Steps that change a state are chained by `next`. A sum of words succeeds
where the sum of their numbers is a word (`checkedSum_eq_ok`).
-/
import Raster.Error

namespace Raster

variable {α β ε : Type}

/-- A chain succeeded where its first step did, and what followed. -/
theorem bind_eq_ok {x : Except ε α} {f : α → Except ε β} {b : β} :
    x >>= f = .ok b ↔ ∃ a, x = .ok a ∧ f a = .ok b := by
  cases x with
  | error e =>
    constructor
    · intro h
      cases h
    · rintro ⟨_, h, _⟩
      cases h
  | ok a =>
    constructor
    · intro h
      exact ⟨a, rfl, h⟩
    · rintro ⟨_, h, hb⟩
      obtain rfl := Except.ok.inj h
      exact hb

/-- What a function makes of a result is there where the result is. -/
theorem map_eq_ok {x : Except ε α} {f : α → β} {b : β} :
    x.map f = .ok b ↔ ∃ a, x = .ok a ∧ f a = b := by
  cases x with
  | error e =>
    constructor
    · intro h
      cases h
    · rintro ⟨_, h, _⟩
      cases h
  | ok a =>
    constructor
    · intro h
      exact ⟨a, rfl, Except.ok.inj h⟩
    · rintro ⟨_, h, hb⟩
      obtain rfl := Except.ok.inj h
      exact congrArg Except.ok hb

/-- A function makes no error of its own. -/
theorem map_eq_error {x : Except ε α} {f : α → β} {e : ε} (h : x.map f = .error e) :
    x = .error e := by
  cases x with
  | error e' =>
    obtain rfl : e' = e := Except.error.inj h
    rfl
  | ok a => cases h

/-- A complaint in other words is a complaint. -/
theorem mapError_eq_ok {ε' : Type} {x : Except ε α} {f : ε → ε'} {a : α} :
    x.mapError f = .ok a ↔ x = .ok a := by
  cases x with
  | error e => exact ⟨nofun, nofun⟩
  | ok b =>
    constructor <;>
    · intro h
      obtain rfl := Except.ok.inj h
      rfl

/-- A chain whose second step does not fail shows what follows from what its first step shows. -/
theorem map_bind_of_ok {γ δ : Type} {x : Except ε α} {f : α → Except ε β} {g : α → γ} {k : β → δ}
    {F : γ → δ} (hnext : ∀ a, x = .ok a → ∃ b, f a = .ok b ∧ k b = F (g a)) :
    (x >>= f).map k = (x.map g).map F := by
  cases x with
  | error e => rfl
  | ok a => exact map_eq_ok.2 (hnext a rfl)

/-- Where no step fails, all results are there in order. -/
theorem mapM_eq_ok {f : α → Except ε β} {g : α → β} :
    ∀ {l : List α}, (∀ x ∈ l, f x = .ok (g x)) → l.mapM f = .ok (l.map g)
  | [], _ => rfl
  | x :: l, h => by
    rw [List.mapM_cons, h x List.mem_cons_self,
      mapM_eq_ok fun y hy => h y (List.mem_cons_of_mem _ hy)]
    rfl

/-- The same for steps that may give nothing. -/
theorem mapM_eq_some {f : α → Option β} {g : α → β} :
    ∀ {l : List α}, (∀ x ∈ l, f x = some (g x)) → l.mapM f = some (l.map g)
  | [], _ => rfl
  | x :: l, h => by
    rw [List.mapM_cons, h x List.mem_cons_self,
      mapM_eq_some fun y hy => h y (List.mem_cons_of_mem _ hy)]
    rfl

/-- Two calculations fail with the same error or succeed with related results. -/
inductive Agree (R : α → β → Prop) : Except ε α → Except ε β → Prop where
  | ok {a : α} {b : β} (h : R a b) : Agree R (.ok a) (.ok b)
  | error (e : ε) : Agree R (.error e) (.error e)

/-- Calculations that agree in something agree in what follows from it. -/
theorem Agree.mono {R S : α → β → Prop} (hRS : ∀ a b, R a b → S a b) {x : Except ε α}
    {y : Except ε β} (h : Agree R x y) : Agree S x y := by
  cases h with
  | ok h => exact .ok (hRS _ _ h)
  | error e => exact .error e

/-- Two calculations agree that agree with a third. -/
theorem Agree.common {γ : Type} {R : α → β → Prop} {S : α → γ → Prop} {T : β → γ → Prop}
    {x : Except ε α} {y : Except ε β} {z : Except ε γ} (h : Agree R x y) (h' : Agree S x z)
    (hT : ∀ a b c, R a b → S a c → T b c) : Agree T y z := by
  cases h with
  | ok hR =>
    cases h' with
    | ok hS => exact .ok (hT _ _ _ hR hS)
  | error e =>
    cases h' with
    | error => exact .error e

/-- Chains agree whose first steps do and then whatever follows. -/
theorem agree_bind {γ δ : Type} {R : α → β → Prop} {S : γ → δ → Prop} {x : Except ε α}
    {y : Except ε β} {f : α → Except ε γ} {g : β → Except ε δ} (h : Agree R x y)
    (hnext : ∀ a b, R a b → Agree S (f a) (g b)) : Agree S (x >>= f) (y >>= g) := by
  cases h with
  | ok h => exact hnext _ _ h
  | error e => exact .error e

/-- Chains agree that start with the same step. -/
theorem agree_bind_same {γ δ : Type} {S : γ → δ → Prop} {x : Except ε α} {f : α → Except ε γ}
    {g : α → Except ε δ} (hnext : ∀ a, Agree S (f a) (g a)) : Agree S (x >>= f) (x >>= g) := by
  cases x with
  | ok a => exact hnext a
  | error e => exact .error e

/-- What comes of a sum is the sum as a number. -/
theorem checkedSum_eq_ok {a b c : UInt32} :
    checkedSum a b = .ok c ↔ a.toNat + b.toNat = c.toNat := by
  have hc : c.toNat < UInt32.size := c.toNat_lt
  rw [checkedSum]
  split
  · rename_i hword
    have hsum : (a + b).toNat = a.toNat + b.toNat :=
      (UInt32.toNat_add a b).trans (Nat.mod_eq_of_lt hword)
    rw [Except.ok.injEq, ← UInt32.toNat_inj, hsum]
  · rename_i hlarge
    exact ⟨nofun, fun hsum => absurd (hsum ▸ hc) hlarge⟩

/-- A sum fails where it is no word, and with this error only. -/
theorem checkedSum_eq_error {a b : UInt32} {e : Error} :
    checkedSum a b = .error e ↔ UInt32.size ≤ a.toNat + b.toNat ∧ e = .overflow := by
  rw [checkedSum]
  split
  · rename_i hword
    exact ⟨nofun, fun h => absurd hword (Nat.not_lt.2 h.1)⟩
  · rename_i hlarge
    exact ⟨fun h => ⟨Nat.not_lt.1 hlarge, (Except.error.inj h).symm⟩, fun h => h.2 ▸ rfl⟩

/-- What is made of an answer in the state that came with it; an error stays. -/
def next {σ : Type} (x : Except ε α × σ) (f : α → σ → Except ε β × σ) : Except ε β × σ :=
  match x with
  | (.error e, s) => (.error e, s)
  | (.ok a, s) => f a s

/-- As `bind_eq_ok`, for steps that also change a state. -/
theorem next_eq_ok {σ : Type} {x : Except ε α × σ} {f : α → σ → Except ε β × σ} {b : β} :
    (next x f).1 = .ok b ↔ ∃ a, x.1 = .ok a ∧ (f a x.2).1 = .ok b := by
  obtain ⟨answer, s⟩ := x
  cases answer with
  | error e => exact ⟨nofun, nofun⟩
  | ok a =>
    constructor
    · intro h
      exact ⟨a, rfl, h⟩
    · rintro ⟨_, h, hb⟩
      obtain rfl := Except.ok.inj h
      exact hb

end Raster
