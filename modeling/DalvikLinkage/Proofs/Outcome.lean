import Mathlib.Data.List.Forall2

/-!
# Outcomes

A computation that can fail gives a value if and only if each of its parts does: one computation
after another, one inside a structure that its failure names, and one for every entry of a list.
-/
namespace DalvikLinkage

variable {ε ε' α β : Type}

theorem except_bind_eq_ok_iff {x : Except ε α} {next : α → Except ε β} {b : β} :
    (x >>= next) = .ok b ↔ ∃ a, x = .ok a ∧ next a = .ok b := by
  cases x <;> simp [bind, Except.bind]

theorem except_bind_eq_error_iff {x : Except ε α} {next : α → Except ε β} {e : ε} :
    (x >>= next) = .error e ↔ x = .error e ∨ ∃ a, x = .ok a ∧ next a = .error e := by
  cases x <;> simp [bind, Except.bind]

theorem except_mapError_eq_ok_iff {x : Except ε α} {f : ε → ε'} {a : α} :
    x.mapError f = .ok a ↔ x = .ok a := by
  cases x <;> simp [Except.mapError]

theorem except_mapError_eq_error_iff {x : Except ε α} {f : ε → ε'} {e : ε'} :
    x.mapError f = .error e ↔ ∃ cause, x = .error cause ∧ f cause = e := by
  cases x <;> simp [Except.mapError]

theorem except_toOption_eq_some_iff {x : Except ε α} {a : α} :
    x.toOption = some a ↔ x = .ok a := by
  cases x <;> simp [Except.toOption]

/-- A value next to a fixed one. -/
theorem except_pair_eq_ok_iff {x : Except ε α} {b : β} {pair : α × β} :
    (do return (← x, b)) = .ok pair ↔ x = .ok pair.1 ∧ pair.2 = b := by
  obtain ⟨a, b'⟩ := pair
  cases x <;> simp [bind, Except.bind, pure, Except.pure, eq_comm]

theorem exists_of_isSome_toOption {x : Except ε α} (h : x.toOption.isSome = true) :
    ∃ a, x = .ok a := by
  cases x with
  | error e => cases h
  | ok a => exact ⟨a, rfl⟩

/-- What is asked of the value can be evaluated together with whether there is one. -/
theorem exists_of_map_toOption {x : Except ε α} {f : α → β} {b : β}
    (h : x.toOption.map f = some b) : ∃ a, x = .ok a ∧ f a = b := by
  obtain ⟨a, ha, hb⟩ := Option.map_eq_some_iff.1 h
  exact ⟨a, except_toOption_eq_some_iff.1 ha, hb⟩

theorem exists_forall₂_iff {R : α → β → Prop} {l : List α} :
    (∃ bs, List.Forall₂ R l bs) ↔ ∀ a ∈ l, ∃ b, R a b := by
  induction l with
  | nil => simp
  | cons a l ih => simp [List.forall₂_cons_left_iff, ← ih]

theorem option_mapM_eq_ok_iff {f : α → Except ε β} {x : Option α} {y : Option β} :
    x.mapM f = .ok y ↔ Option.Rel (fun a b => f a = .ok b) x y := by
  cases x with
  | none =>
    rw [Option.mapM_none]
    cases y <;> simp [pure, Except.pure]
  | some a =>
    rw [Option.mapM_some]
    cases hf : f a <;> cases y <;> simp [hf, Functor.map, Except.map]

/-- A traversal of a list gives the values at its entries, one for one. -/
theorem mapM_eq_ok_iff {f : α → Except ε β} {l : List α} {bs : List β} :
    l.mapM f = .ok bs ↔ List.Forall₂ (fun a b => f a = .ok b) l bs := by
  induction l generalizing bs with
  | nil => simp [pure, Except.pure, eq_comm]
  | cons a l ih =>
    rw [List.mapM_cons, List.forall₂_cons_left_iff]
    simp only [except_bind_eq_ok_iff, ih]
    constructor
    · intro ⟨b, hb, rest, hrest, h⟩
      cases h
      exact ⟨b, rest, hb, hrest, rfl⟩
    · intro ⟨b, rest, hb, hrest, h⟩
      subst h
      exact ⟨b, hb, rest, hrest, rfl⟩

/-- A traversal of a list fails at its first entry without a value. -/
theorem mapM_eq_error_iff {f : α → Except ε β} {l : List α} {e : ε} :
    l.mapM f = .error e ↔ ∃ before a after, l = before ++ a :: after ∧
      (∀ x ∈ before, ∃ b, f x = .ok b) ∧ f a = .error e := by
  induction l with
  | nil => simp [pure, Except.pure]
  | cons a l ih =>
    have hcons : (a :: l).mapM f = .error e ↔
        f a = .error e ∨ (∃ b, f a = .ok b) ∧ l.mapM f = .error e := by
      rw [List.mapM_cons]
      simp [except_bind_eq_error_iff, pure, Except.pure]
    rw [hcons, ih]
    constructor
    · rintro (ha | ⟨ha, before, c, after, rfl, hbefore, hc⟩)
      · exact ⟨[], a, l, rfl, by simp, ha⟩
      · exact ⟨a :: before, c, after, rfl, List.forall_mem_cons.2 ⟨ha, hbefore⟩, hc⟩
    · rintro ⟨before, c, after, hsplit, hbefore, hc⟩
      cases before with
      | nil =>
        cases hsplit
        exact .inl hc
      | cons _ before =>
        cases hsplit
        obtain ⟨ha, hbefore⟩ := List.forall_mem_cons.1 hbefore
        exact .inr ⟨ha, before, c, after, rfl, hbefore, hc⟩

end DalvikLinkage
