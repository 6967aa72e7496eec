import Mathlib.Logic.Basic

set_option autoImplicit false

namespace MilliCore

/-! ## `Result` as `Except`

The code returns `Result`s and stops at the first `?` that fails; the model returns `Except`.
These are the facts about sequencing and loops that the filter, its construction from a request
and the composite embedder share: a sequence succeeds exactly when each step does, and a loop
over a list (`mapM`, `forM`) succeeds on every element or fails with the first error. -/

section Bind
variable {ε ε' α β : Type}

theorem bind_eq_ok {x : Except ε α} {f : α → Except ε β} {b : β} :
    x >>= f = .ok b ↔ ∃ a, x = .ok a ∧ f a = .ok b := by
  cases x <;> simp [bind, Except.bind]

theorem bind_eq_error {x : Except ε α} {f : α → Except ε β} {e : ε} :
    x >>= f = .error e ↔ x = .error e ∨ ∃ a, x = .ok a ∧ f a = .error e := by
  cases x <;> simp [bind, Except.bind]

@[simp] theorem ok_bind (a : α) (f : α → Except ε β) : (.ok a >>= f) = f a := rfl

@[simp] theorem toOption_eq_some {x : Except ε α} {a : α} :
    x.toOption = some a ↔ x = .ok a := by
  cases x <;> simp [Except.toOption]

@[simp] theorem map_eq_ok {x : Except ε α} {f : α → β} {b : β} :
    f <$> x = .ok b ↔ ∃ a, x = .ok a ∧ f a = b := by
  cases x <;> simp [Functor.map, Except.map]

@[simp] theorem mapError_eq_ok {x : Except ε α} {f : ε → ε'} {a : α} :
    x.mapError f = .ok a ↔ x = .ok a := by
  cases x <;> simp [Except.mapError]

end Bind

section Loops
variable {ε α β : Type} {f : α → Except ε β}

theorem mapM_eq_ok_forall : ∀ {as : List α} {bs : List β}, as.mapM f = .ok bs →
    ∀ a ∈ as, ∃ b ∈ bs, f a = .ok b
  | [], _, _ => by simp
  | a :: as, bs, h => by
    obtain ⟨b, hb, h⟩ := bind_eq_ok.1 ((List.mapM_cons f).symm.trans h)
    obtain ⟨bs', hbs', h⟩ := bind_eq_ok.1 h
    cases h
    simp only [List.mem_cons, forall_eq_or_imp, exists_eq_or_imp]
    exact ⟨.inl hb, fun a' ha' => .inr (mapM_eq_ok_forall hbs' a' ha')⟩

theorem mem_of_mapM_eq_ok : ∀ {as : List α} {bs : List β}, as.mapM f = .ok bs →
    ∀ {b}, b ∈ bs ↔ ∃ a ∈ as, f a = .ok b
  | [], _, h, _ => by cases h; simp
  | a :: as, bs, h, b => by
    obtain ⟨b', hb', h⟩ := bind_eq_ok.1 ((List.mapM_cons f).symm.trans h)
    obtain ⟨bs', hbs', h⟩ := bind_eq_ok.1 h
    cases h
    simp [mem_of_mapM_eq_ok hbs', or_and_right, exists_or, hb', eq_comm]

theorem mapM_ok_of_forall : ∀ {as : List α}, (∀ a ∈ as, ∃ b, f a = .ok b) → ∃ bs, as.mapM f = .ok bs
  | [], _ => ⟨[], rfl⟩
  | a :: as, h => by
    obtain ⟨b, hb⟩ := h a (List.mem_cons_self a as)
    obtain ⟨bs, hbs⟩ := mapM_ok_of_forall fun a' ha' => h a' (List.mem_cons_of_mem a ha')
    exact ⟨b :: bs, by rw [List.mapM_cons, hb, ok_bind, hbs, ok_bind]; rfl⟩

/-- A loop whose elements before `a` succeed fails with the error of `a`. -/
theorem mapM_eq_error_of_first {a : α} {e : ε} {post : List α} :
    ∀ {pre : List α}, (∀ x ∈ pre, ∃ b, f x = .ok b) → f a = .error e →
      (pre ++ a :: post).mapM f = .error e
  | [], _, ha => by rw [List.nil_append, List.mapM_cons, ha]; rfl
  | x :: pre, hpre, ha => by
    obtain ⟨b, hb⟩ := hpre x (List.mem_cons_self x pre)
    rw [List.cons_append, List.mapM_cons, hb, ok_bind,
      mapM_eq_error_of_first (fun x' hx' => hpre x' (List.mem_cons_of_mem x hx')) ha]
    rfl

theorem forM_eq_ok_iff (g : α → Except ε Unit) :
    ∀ l : List α, l.forM g = .ok () ↔ ∀ a ∈ l, g a = .ok ()
  | [] => by simp; rfl
  | a :: l => by
    change g a >>= (fun _ => l.forM g) = _ ↔ _
    rw [List.forall_mem_cons, ← forM_eq_ok_iff g l]
    cases g a with
    | error e => simp [bind, Except.bind]
    | ok u => simp [bind, Except.bind]

end Loops

end MilliCore
