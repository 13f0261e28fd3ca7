import DocPipeline.Failure.Basic

namespace DocPipeline

variable {σ α β : Type}

-- What a computation changed before it failed stays changed, so its effect is a result together with
-- the state that is left.
def exec (m : ExceptT Failure (StateM σ) α) (s : σ) : Except Failure α × σ := m.run.run s

@[simp] theorem exec_pure (a : α) (s : σ) :
    exec (pure a : ExceptT Failure (StateM σ) α) s = (.ok a, s) := rfl

@[simp] theorem exec_throw (failure : Failure) (s : σ) :
    exec (throw failure : ExceptT Failure (StateM σ) α) s = (.error failure, s) := rfl

@[simp] theorem exec_get (s : σ) :
    exec (get : ExceptT Failure (StateM σ) σ) s = (.ok s, s) := rfl

@[simp] theorem exec_set (s' s : σ) :
    exec (set s' : ExceptT Failure (StateM σ) PUnit) s = (.ok ⟨⟩, s') := rfl

@[simp] theorem exec_modify (f : σ → σ) (s : σ) :
    exec (modify f : ExceptT Failure (StateM σ) PUnit) s = (.ok ⟨⟩, f s) := rfl

@[simp] theorem exec_modifyGet (f : σ → α × σ) (s : σ) :
    exec (modifyGet f : ExceptT Failure (StateM σ) α) s = (.ok (f s).1, (f s).2) := rfl

@[simp] theorem exec_mk (f : σ → Except Failure α × σ) (s : σ) :
    exec (ExceptT.mk f : ExceptT Failure (StateM σ) α) s = f s := rfl

theorem exec_bind (m : ExceptT Failure (StateM σ) α) (f : α → ExceptT Failure (StateM σ) β)
    (s : σ) :
    exec (m >>= f) s = match exec m s with
      | (.ok a, s) => exec (f a) s
      | (.error failure, s) => (.error failure, s) := by
  change (ExceptT.bindCont (fun a => f a) (exec m s).1).run (exec m s).2 = _
  rcases exec m s with ⟨_ | _, _⟩ <;> rfl

theorem exec_bind_of_ok {m : ExceptT Failure (StateM σ) α} {a : α} {s t : σ}
    (h : exec m s = (.ok a, t)) (f : α → ExceptT Failure (StateM σ) β) :
    exec (m >>= f) s = exec (f a) t := by
  rw [exec_bind, h]

theorem exec_bind_of_error {m : ExceptT Failure (StateM σ) α} {failure : Failure} {s t : σ}
    (h : exec m s = (.error failure, t)) (f : α → ExceptT Failure (StateM σ) β) :
    exec (m >>= f) s = (.error failure, t) := by
  rw [exec_bind, h]

theorem exec_bind_fst (m : ExceptT Failure (StateM σ) α) (f : α → ExceptT Failure (StateM σ) β)
    (s : σ) :
    (exec (m >>= f) s).1 = match (exec m s).1 with
      | .ok a => (exec (f a) (exec m s).2).1
      | .error failure => .error failure := by
  rw [exec_bind]
  rcases exec m s with ⟨_ | _, _⟩ <;> rfl

theorem exec_tryCatch (m : ExceptT Failure (StateM σ) α)
    (handler : Failure → ExceptT Failure (StateM σ) α) (s : σ) :
    exec (tryCatch m handler) s = match exec m s with
      | (.ok a, s) => (.ok a, s)
      | (.error failure, s) => exec (handler failure) s := by
  have hc : exec (tryCatch m handler) s = exec (ExceptT.tryCatch m handler) s := rfl
  rw [hc]
  rcases hm : exec m s with ⟨_ | _, _⟩ <;> have hr : StateT.run m s = _ := hm <;>
    simp only [exec, ExceptT.tryCatch, ExceptT.run_mk, StateT.run_bind, hr] <;> rfl

-- A computation that gives a value gave one at every step.
theorem exec_bind_eq_ok {m : ExceptT Failure (StateM σ) α}
    {f : α → ExceptT Failure (StateM σ) β} {b : β} {s u : σ}
    (h : exec (m >>= f) s = (.ok b, u)) :
    ∃ a t, exec m s = (.ok a, t) ∧ exec (f a) t = (.ok b, u) := by
  rw [exec_bind] at h
  rcases hm : exec m s with ⟨_ | a, t⟩
  · simp [hm] at h
  · exact ⟨a, t, rfl, by simpa [hm] using h⟩

theorem except_bind_eq_ok {ε : Type} {x : Except ε α} {f : α → Except ε β} {b : β}
    (h : (x >>= f) = .ok b) : ∃ a, x = .ok a ∧ f a = .ok b := by
  cases x with
  | error failure => cases h
  | ok a => exact ⟨a, rfl, h⟩

-- What comes out of a list came out of one of its items.
theorem exists_of_mapM_eq_ok {ε : Type} {f : α → Except ε β} {items : List α} {values : List β}
    (h : items.mapM f = .ok values) {value : β} (hv : value ∈ values) :
    ∃ item ∈ items, f item = .ok value := by
  induction items generalizing values with
  | nil =>
    cases h
    cases hv
  | cons item rest ih =>
    rw [List.mapM_cons] at h
    obtain ⟨first, hfirst, h⟩ := except_bind_eq_ok h
    obtain ⟨others, hothers, h⟩ := except_bind_eq_ok h
    cases h
    rcases List.mem_cons.mp hv with rfl | hv
    · exact ⟨item, List.mem_cons_self, hfirst⟩
    · obtain ⟨found, hfound, hread⟩ := ih hothers hv
      exact ⟨found, List.mem_cons_of_mem _ hfound, hread⟩

-- The computation keeps an invariant, and what it gives, if anything, has a property.
def Keeps (I : σ → Prop) (m : ExceptT Failure (StateM σ) α) (Q : α → Prop) : Prop :=
  ∀ s, I s → I (exec m s).2 ∧ ∀ a, (exec m s).1 = .ok a → Q a

section Keeping

variable {I : σ → Prop} {Q Q' : α → Prop} {R : β → Prop}

theorem keeps_pure {a : α} (ha : Q a) : Keeps I (pure a) Q := by
  intro s hs
  refine ⟨hs, fun b hb => ?_⟩
  cases hb
  exact ha

theorem keeps_throw (failure : Failure) : Keeps I (throw failure) Q := by
  intro s hs
  exact ⟨hs, fun b hb => nomatch hb⟩

theorem keeps_bind {m : ExceptT Failure (StateM σ) α} {f : α → ExceptT Failure (StateM σ) β}
    (hm : Keeps I m Q) (hf : ∀ a, Q a → Keeps I (f a) R) : Keeps I (m >>= f) R := by
  intro s hs
  obtain ⟨hi, hq⟩ := hm s hs
  rcases he : exec m s with ⟨failure | a, t⟩ <;> rw [he] at hi hq
  · rw [exec_bind_of_error he]
    exact ⟨hi, fun b hb => nomatch hb⟩
  · rw [exec_bind_of_ok he]
    exact hf a (hq a rfl) t hi

theorem Keeps.mono {m : ExceptT Failure (StateM σ) α} (hm : Keeps I m Q) (h : ∀ a, Q a → Q' a) :
    Keeps I m Q' := by
  intro s hs
  exact ⟨(hm s hs).1, fun a ha => h a ((hm s hs).2 a ha)⟩

theorem Keeps.of_ok {m : ExceptT Failure (StateM σ) α} (hm : Keeps I m Q) {s t : σ} {a : α}
    (hs : I s) (he : exec m s = (.ok a, t)) : I t ∧ Q a := by
  have h := hm s hs
  rw [he] at h
  exact ⟨h.1, h.2 a rfl⟩

theorem keeps_trivial (m : ExceptT Failure (StateM σ) α) :
    Keeps (fun _ => True) m fun _ => True :=
  fun _ _ => ⟨trivial, fun _ _ => trivial⟩

-- What is read has the invariant.
theorem keeps_get : Keeps I (get : ExceptT Failure (StateM σ) σ) I := by
  intro s hs
  refine ⟨hs, fun t ht => ?_⟩
  cases ht
  exact hs

theorem keeps_set {s : σ} (hs : I s) :
    Keeps I (set s : ExceptT Failure (StateM σ) PUnit) fun _ => True := by
  intro t _
  exact ⟨hs, fun _ _ => trivial⟩

theorem keeps_modify {f : σ → σ} (hf : ∀ s, I s → I (f s)) :
    Keeps I (modify f : ExceptT Failure (StateM σ) PUnit) fun _ => True := by
  intro s hs
  exact ⟨hf s hs, fun _ _ => trivial⟩

theorem keeps_modifyGet {f : σ → α × σ} (hf : ∀ s, I s → I (f s).2 ∧ Q (f s).1) :
    Keeps I (modifyGet f : ExceptT Failure (StateM σ) α) Q := by
  intro s hs
  refine ⟨(hf s hs).1, fun a ha => ?_⟩
  cases ha
  exact (hf s hs).2

theorem keeps_tryCatch {m : ExceptT Failure (StateM σ) α}
    {handler : Failure → ExceptT Failure (StateM σ) α} (hm : Keeps I m Q)
    (hh : ∀ failure, Keeps I (handler failure) Q) :
    Keeps I (tryCatch m handler) Q := by
  intro s hs
  obtain ⟨hi, hq⟩ := hm s hs
  rw [exec_tryCatch]
  rcases he : exec m s with ⟨failure | a, t⟩ <;> rw [he] at hi hq
  · exact hh failure t hi
  · exact ⟨hi, hq⟩

theorem keeps_forM {items : List β} {f : β → ExceptT Failure (StateM σ) PUnit}
    (hf : ∀ item ∈ items, Keeps I (f item) fun _ => True) :
    Keeps I (items.forM f) fun _ => True := by
  induction items with
  | nil => exact keeps_pure trivial
  | cons item items ih =>
    apply keeps_bind (hf item List.mem_cons_self)
    intro _ _
    exact ih fun item h => hf item (List.mem_cons_of_mem _ h)

end Keeping

end DocPipeline
