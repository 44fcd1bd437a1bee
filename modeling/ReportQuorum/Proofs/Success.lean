import ReportQuorum.Quorum
import ReportQuorum.Processor
import ReportQuorum.RoleTable

/-!
# What the success of a sequence of steps says

A call that may be refused is a sequence of steps, each of which may end it. It succeeds exactly if
all of them do. The lemmas here turn the success of such a sequence into the conditions it met.

## Main results

* `bind_eq_ok`, `mapError_eq_ok`, `refusal_eq_ok`: success of a sequence, a reworded step and a
  condition
* `invariant_of_foldlM_eq_ok`, `exists_foldlM_eq_ok`: what every step of a sequence keeps
* `Reply.ofExcept_cases`: a reply without partial effects
* `RoleTable.check_eq_ok`, `Quorum.check_eq_ok`: success of the demands that calls share
-/

namespace ReportQuorum

section Steps

variable {ε ε' α β : Type}

/-- A sequence of two steps succeeds exactly if both do. -/
@[simp] theorem bind_eq_ok {x : Except ε α} {f : α → Except ε β} {b : β} :
    x >>= f = .ok b ↔ ∃ a, x = .ok a ∧ f a = .ok b := by
  cases x <;> simp [bind, Except.bind]

@[simp] theorem map_eq_ok {x : Except ε α} {f : α → β} {b : β} :
    f <$> x = .ok b ↔ ∃ a, x = .ok a ∧ f a = b := by
  cases x <;> simp [Functor.map, Except.map]

@[simp] theorem pure_eq_ok {a b : α} : (pure a : Except ε α) = .ok b ↔ a = b := by
  simp [pure, Except.pure]

@[simp] theorem throw_ne_ok {err : ε} {a : α} : (throw err : Except ε α) ≠ .ok a := by
  simp [throw, throwThe, MonadExceptOf.throw]

/-- Rewording a refusal changes no success. -/
@[simp] theorem mapError_eq_ok {x : Except ε α} {f : ε → ε'} {a : α} :
    x.mapError f = .ok a ↔ x = .ok a := by
  cases x with
  | error err => exact ⟨nofun, nofun⟩
  | ok b =>
    constructor
    · intro h
      cases h
      rfl
    · intro h
      cases h
      rfl

@[simp] theorem toOption_eq_some {x : Except ε α} {a : α} : x.toOption = some a ↔ x = .ok a := by
  cases x <;> simp [Except.toOption]

/-- Whether a sequence of steps ends with a given refusal can be decided. -/
instance decidableEqError [DecidableEq ε] (x : Except ε α) (err : ε) :
    Decidable (x = .error err) :=
  match x with
  | .ok _ => isFalse nofun
  | .error err' => decidable_of_iff (err' = err) (by simp)

/-- A test of what a success gives shows that there is one. -/
theorem exists_of_any {x : Except ε α} {P : α → Prop} [DecidablePred P]
    (h : x.toOption.any (fun a => decide (P a)) = true) : ∃ a, x = .ok a ∧ P a := by
  obtain ⟨a, ha, hP⟩ := (Option.any_eq_true _ _).mp h
  exact ⟨a, toOption_eq_some.mp ha, of_decide_eq_true hP⟩

/-- A condition that ends a sequence of steps is not met if the sequence succeeds. -/
@[simp] theorem refusal_eq_ok {p : Prop} [Decidable p] {x y : Except ε α} {b : α}
    (hx : x ≠ .ok b) : (if p then x else y) = .ok b ↔ ¬ p ∧ y = .ok b := by
  by_cases hp : p <;> simp [hp, hx]

/-- What every step of a sequence keeps holds at the end if it holds at the beginning. -/
theorem invariant_of_foldlM_eq_ok {f : β → α → Except ε β} {P : β → Prop}
    (hstep : ∀ b a b', P b → f b a = .ok b' → P b') {xs : List α} {b b' : β} (hb : P b)
    (h : xs.foldlM f b = .ok b') : P b' := by
  induction xs generalizing b with
  | nil =>
    rw [List.foldlM_nil, pure_eq_ok] at h
    exact h ▸ hb
  | cons x xs ih =>
    rw [List.foldlM_cons, bind_eq_ok] at h
    obtain ⟨b₁, hfirst, hrest⟩ := h
    exact ih (hstep b x b₁ hb hfirst) hrest

/-- If every step of a sequence succeeds and keeps something, so does the sequence. -/
theorem exists_foldlM_eq_ok {f : β → α → Except ε β} {P : β → Prop}
    (hstep : ∀ b a, P b → ∃ b', f b a = .ok b' ∧ P b') (xs : List α) {b : β} (hb : P b) :
    ∃ b', xs.foldlM f b = .ok b' ∧ P b' := by
  induction xs generalizing b with
  | nil => exact ⟨b, rfl, hb⟩
  | cons x xs ih =>
    obtain ⟨b₁, hfirst, hb₁⟩ := hstep b x hb
    obtain ⟨b', hrest, hb'⟩ := ih hb₁
    refine ⟨b', ?_, hb'⟩
    rw [List.foldlM_cons, bind_eq_ok]
    exact ⟨b₁, hfirst, hrest⟩

end Steps

/-- A reply without partial effects is a refusal that changes nothing, or the change. -/
theorem Reply.ofExcept_cases {ε σ : Type} (s : σ) (x : Except ε σ) :
    (∃ err, x = .error err ∧ Reply.ofExcept s x = ⟨.error err, s⟩) ∨
      ∃ s', x = .ok s' ∧ Reply.ofExcept s x = ⟨.ok (), s'⟩ := by
  cases x with
  | error err => exact .inl ⟨err, rfl, rfl⟩
  | ok s' => exact .inr ⟨s', rfl, rfl⟩

@[simp] theorem Reply.ofExcept_eq_ok {ε σ : Type} {s s' : σ} {x : Except ε σ} :
    Reply.ofExcept s x = ⟨.ok (), s'⟩ ↔ x = .ok s' := by
  cases x <;> simp [Reply.ofExcept]

/-- A refused change without partial effects changes nothing. -/
theorem Reply.eq_of_ofExcept_eq_error {ε σ : Type} {s s' : σ} {x : Except ε σ} {err : ε}
    (h : Reply.ofExcept s x = ⟨.error err, s'⟩) : s' = s := by
  cases x with
  | error _ =>
    cases h
    rfl
  | ok _ => cases h

@[simp] theorem RoleTable.check_eq_ok {t : RoleTable} {role : Role} {account : Address} {u : Unit} :
    t.check role account = .ok u ↔ t.holds role account = true := by
  rw [check]
  split <;> simp_all

@[simp] theorem Quorum.check_eq_ok {quorum members : Word} {u : Unit} :
    Quorum.check quorum members = .ok u ↔ Quorum.least members ≤ quorum := by
  rw [check]
  split <;> simp_all

end ReportQuorum
