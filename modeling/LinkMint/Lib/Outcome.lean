import Mathlib.Init

/-!
# What a successful run did

When a step of a handler fails the writes already made **stay**, so the monad is `EStateM`, whose error result
carries the state it stopped in.
-/

namespace LinkMint.Lib

universe u

variable {ε σ α β : Type u}

/-- Running `x` from `s` succeeds with value `a` and leaves `s'`. -/
def Yields (x : EStateM ε σ α) (s : σ) (a : α) (s' : σ) : Prop := x.run s = .ok a s'

theorem bind_eq_ok {x : Except ε α} {f : α → Except ε β} {b : β} : (x >>= f) = .ok b ↔ ∃ a, x = .ok a ∧ f a = .ok b := by
  cases x with
  | error e => simp [bind, Except.bind]
  | ok a => simp [bind, Except.bind]

/-! ## The primitives a handler is written from -/

def failIf (c : Prop) [Decidable c] (e : ε) : EStateM ε σ PUnit :=
  if c then throw e else pure ⟨⟩

/-- `if v == nil { return err }`, binding what is there. -/
def orFail (o : Option α) (e : ε) : EStateM ε σ α :=
  match o with
  | some a => pure a
  | none => throw e

/-- `if err != nil { return wrap(err) }`, binding the result. -/
def orThrow {δ : Type u} (r : Except δ α) (wrap : δ → ε) : EStateM ε σ α :=
  match r with
  | .ok a => pure a
  | .error e => throw (wrap e)

def check {δ : Type u} (r : Except δ PUnit) (wrap : δ → ε) : EStateM ε σ PUnit := orThrow r wrap

/-! ## Inversion -/

@[simp] theorem yields_bind {x : EStateM ε σ α} {f : α → EStateM ε σ β} {s s'' : σ} {b : β} :
    Yields (x >>= f) s b s'' ↔ ∃ a s', Yields x s a s' ∧ Yields (f a) s' b s'' := by
  simp only [Yields, EStateM.run, bind, EStateM.bind]
  cases x s with
  | ok a s' => simp [and_assoc]
  | error e s' => simp

@[simp] theorem yields_pure {a b : α} {s s' : σ} : Yields (pure a : EStateM ε σ α) s b s' ↔ b = a ∧ s' = s := by
  simp [Yields, eq_comm]

@[simp] theorem yields_throw {e : ε} {b : α} {s s' : σ} : ¬ Yields (throw e : EStateM ε σ α) s b s' := by
  intro h
  cases h

@[simp] theorem yields_get {a : σ} {s s' : σ} : Yields (get : EStateM ε σ σ) s a s' ↔ a = s ∧ s' = s := by
  simp [Yields, eq_comm]

@[simp] theorem yields_modify {f : σ → σ} {u : PUnit} {s s' : σ} :
    Yields (modify f : EStateM ε σ PUnit) s u s' ↔ s' = f s := by
  simp [Yields, eq_comm]

@[simp] theorem yields_failIf {c : Prop} [Decidable c] {e : ε} {u : PUnit} {s s' : σ} :
    Yields (failIf c e) s u s' ↔ ¬ c ∧ s' = s := by
  unfold failIf
  split
  · next hc => simp [yields_throw, hc]
  · next hc => simp [yields_pure, hc]

@[simp] theorem yields_orFail {o : Option α} {e : ε} {a : α} {s s' : σ} :
    Yields (orFail o e) s a s' ↔ o = some a ∧ s' = s := by
  cases o with
  | none => simp [orFail, yields_throw]
  | some b => simp [orFail, yields_pure, eq_comm]

@[simp] theorem yields_orThrow {δ : Type u} {r : Except δ α} {wrap : δ → ε} {a : α} {s s' : σ} :
    Yields (orThrow r wrap) s a s' ↔ r = .ok a ∧ s' = s := by
  cases r with
  | error e => simp [orThrow, yields_throw]
  | ok b => simp [orThrow, yields_pure, eq_comm]

@[simp] theorem yields_check {δ : Type u} {r : Except δ PUnit} {wrap : δ → ε} {u : PUnit}
    {s s' : σ} : Yields (check r wrap) s u s' ↔ r = .ok ⟨⟩ ∧ s' = s := yields_orThrow

@[simp] theorem yields_ite {c : Prop} [Decidable c] {x y : EStateM ε σ α} {s s' : σ} {a : α} :
    Yields (if c then x else y) s a s' ↔ if c then Yields x s a s' else Yields y s a s' := by
  split <;> rfl

end LinkMint.Lib
