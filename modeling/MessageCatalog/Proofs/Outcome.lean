import Mathlib.Data.List.Forall2

/-!
# Computations that may fail

When a computation in `Except` succeeds: if it maps the result of another one, if it continues with
that result, and if it goes through a list, where the same is said of `Option`. And when it fails:
mapping a result does not touch a failure, and a computation that continues with a result fails
first or later. Proofs about readers take them apart with these equivalences.
-/

namespace MessageCatalog.Outcome

universe u v

variable {ε : Type u} {α β : Type v}

theorem exists_ok {x : Except ε α} (h : x.isOk = true) : ∃ a, x = .ok a := by
  cases x with
  | error e => cases h
  | ok a => exact ⟨a, rfl⟩

/-- A computation of whose result something is known has a result. -/
theorem exists_ok_of_map_toOption {f : α → β} {x : Except ε α} {b : β}
    (h : x.toOption.map f = some b) : ∃ a, x = .ok a ∧ f a = b := by
  cases x with
  | error e => cases h
  | ok a => exact ⟨a, rfl, Option.some.inj h⟩

theorem map_eq_ok_iff {f : α → β} {x : Except ε α} {b : β} :
    x.map f = .ok b ↔ ∃ a, x = .ok a ∧ b = f a := by
  cases x with
  | error e => simp [Except.map]
  | ok a => simp [Except.map, eq_comm]

theorem map_eq_error_iff {f : α → β} {x : Except ε α} {e : ε} :
    x.map f = .error e ↔ x = .error e := by
  cases x with
  | error e => simp [Except.map]
  | ok a => simp [Except.map]

theorem bind_eq_ok_iff {f : α → Except ε β} {x : Except ε α} {b : β} :
    x >>= f = .ok b ↔ ∃ a, x = .ok a ∧ f a = .ok b := by
  cases x with
  | error e => simp [bind, Except.bind]
  | ok a => simp [bind, Except.bind]

theorem bind_eq_error_iff {f : α → Except ε β} {x : Except ε α} {e : ε} :
    x >>= f = .error e ↔ x = .error e ∨ ∃ a, x = .ok a ∧ f a = .error e := by
  cases x with
  | error e => simp [bind, Except.bind]
  | ok a => simp [bind, Except.bind]

theorem mapError_eq_error_iff {δ : Type u} {f : ε → δ} {x : Except ε α} {d : δ} :
    x.mapError f = .error d ↔ ∃ e, x = .error e ∧ d = f e := by
  cases x with
  | error e => simp [Except.mapError, eq_comm]
  | ok a => simp [Except.mapError]

theorem mapM_eq_ok {f : α → Except ε β} {g : α → β} (h : ∀ a, f a = .ok (g a)) (l : List α) :
    l.mapM f = .ok (l.map g) := by
  have hf : f = fun a => pure (g a) := funext h
  rw [hf, List.mapM_pure]
  rfl

/-- Going through a list succeeds if it does for each of its elements. -/
theorem mapM_eq_some {f : α → Option β} {g : α → β} {l : List α} (h : ∀ a ∈ l, f a = some (g a)) :
    l.mapM f = some (l.map g) := by
  induction l with
  | nil => rfl
  | cons a l ih =>
    rw [List.mapM_cons, h a List.mem_cons_self, ih fun b hb => h b (List.mem_cons_of_mem _ hb)]
    rfl

theorem length_of_mapM_eq_some {f : α → Option β} {l : List α} {r : List β}
    (h : l.mapM f = some r) : r.length = l.length := by
  induction l generalizing r with
  | nil =>
    obtain rfl := Option.some.inj h
    rfl
  | cons a l ih =>
    rw [List.mapM_cons] at h
    simp only [Option.bind_eq_bind, Option.bind_eq_some_iff, Option.pure_def,
      Option.some.injEq] at h
    obtain ⟨b, -, more, hmore, rfl⟩ := h
    rw [List.length_cons, List.length_cons, ih hmore]

/-- Going through a list fails as each of its failures does, if all fail alike. -/
theorem mapM_eq_error {f : α → Except ε β} {e : ε} (h : ∀ a d, f a = .error d → d = e) {a : α}
    {l : List α} (hmem : a ∈ l) (ha : f a = .error e) : l.mapM f = .error e := by
  induction l with
  | nil => cases hmem
  | cons b l ih =>
    rw [List.mapM_cons, bind_eq_error_iff]
    cases hb : f b with
    | error d => exact .inl (by rw [h b d hb])
    | ok c =>
      rcases List.mem_cons.1 hmem with rfl | hmem
      · cases hb.symm.trans ha
      · exact .inr ⟨c, rfl, by rw [ih hmem]; rfl⟩

end MessageCatalog.Outcome
