import DocPipeline.Proofs.Effect

namespace DocPipeline

variable {σ τ α β γ δ : Type}

-- The ends of two computations.
inductive Matched (R : α → β → Prop) (Q E : σ → τ → Prop) :
    Except Failure α × σ → Except Failure β × τ → Prop where
  | ok {a : α} {b : β} {s : σ} {t : τ} (hR : R a b) (hQ : Q s t) :
      Matched R Q E (.ok a, s) (.ok b, t)
  | error {failure : Failure} {s : σ} {t : τ} (hE : E s t) :
      Matched R Q E (.error failure, s) (.error failure, t)

-- From states in relation `P` the values come to be in relation `R` and the states in relation `Q`,
-- or in relation `E` where both fail.
def Lockstep (P : σ → τ → Prop) (m : ExceptT Failure (StateM σ) α)
    (n : ExceptT Failure (StateM τ) β) (R : α → β → Prop) (Q E : σ → τ → Prop) : Prop :=
  ∀ s t, P s t → Matched R Q E (exec m s) (exec n t)

section Lockstep

variable {P Q E : σ → τ → Prop} {R : α → β → Prop}

theorem lockstep_pure {a : α} {b : β} (hR : R a b) : Lockstep P (pure a) (pure b) R P E :=
  fun _ _ hP => .ok hR hP

theorem lockstep_throw (failure : Failure) (hE : ∀ s t, P s t → E s t) :
    Lockstep P (throw failure) (throw failure) R Q E := fun s t hP => .error (hE s t hP)

theorem lockstep_bind {m : ExceptT Failure (StateM σ) α} {n : ExceptT Failure (StateM τ) β}
    {f : α → ExceptT Failure (StateM σ) γ} {g : β → ExceptT Failure (StateM τ) δ}
    {R' : γ → δ → Prop} {Q' : σ → τ → Prop} (hm : Lockstep P m n R Q E)
    (hf : ∀ a b, R a b → Lockstep Q (f a) (g b) R' Q' E) :
    Lockstep P (m >>= f) (n >>= g) R' Q' E := by
  intro s t hP
  have hends := hm s t hP
  rw [exec_bind, exec_bind]
  generalize exec m s = left, exec n t = right at hends
  cases hends with
  | ok hR hQ => exact hf _ _ hR _ _ hQ
  | error hE => exact .error hE

theorem Lockstep.mono {m : ExceptT Failure (StateM σ) α} {n : ExceptT Failure (StateM τ) β}
    {R' : α → β → Prop} {Q' : σ → τ → Prop} (hm : Lockstep P m n R Q E)
    (hR : ∀ a b, R a b → R' a b) (hQ : ∀ s t, Q s t → Q' s t) : Lockstep P m n R' Q' E := by
  intro s t hP
  have hends := hm s t hP
  generalize exec m s = left, exec n t = right at hends
  cases hends with
  | ok h hs => exact .ok (hR _ _ h) (hQ _ _ hs)
  | error hE => exact .error hE

theorem lockstep_get : Lockstep P (get : ExceptT Failure (StateM σ) σ)
    (get : ExceptT Failure (StateM τ) τ) P P E :=
  fun _ _ hP => .ok hP hP

theorem lockstep_set {s : σ} {t : τ} (hQ : Q s t) :
    Lockstep P (set s : ExceptT Failure (StateM σ) PUnit)
      (set t : ExceptT Failure (StateM τ) PUnit) (fun _ _ => True) Q E :=
  fun _ _ _ => .ok trivial hQ

theorem lockstep_modify {f : σ → σ} {g : τ → τ} (h : ∀ s t, P s t → Q (f s) (g t)) :
    Lockstep P (modify f : ExceptT Failure (StateM σ) PUnit)
      (modify g : ExceptT Failure (StateM τ) PUnit) (fun _ _ => True) Q E :=
  fun s t hP => .ok trivial (h s t hP)

theorem lockstep_modifyGet {f : σ → α × σ} {g : τ → β × τ}
    (h : ∀ s t, P s t → R (f s).1 (g t).1 ∧ Q (f s).2 (g t).2) :
    Lockstep P (modifyGet f : ExceptT Failure (StateM σ) α)
      (modifyGet g : ExceptT Failure (StateM τ) β) R Q E :=
  fun s t hP => .ok (h s t hP).1 (h s t hP).2

theorem lockstep_tryCatch {m : ExceptT Failure (StateM σ) α} {n : ExceptT Failure (StateM τ) β}
    {f : Failure → ExceptT Failure (StateM σ) α} {g : Failure → ExceptT Failure (StateM τ) β}
    {F : σ → τ → Prop} (hm : Lockstep P m n R Q F)
    (hf : ∀ failure, Lockstep F (f failure) (g failure) R Q E) :
    Lockstep P (tryCatch m f) (tryCatch n g) R Q E := by
  intro s t hP
  have hends := hm s t hP
  rw [exec_tryCatch, exec_tryCatch]
  generalize exec m s = left, exec n t = right at hends
  cases hends with
  | ok hR hQ => exact .ok hR hQ
  | error hF => exact hf _ _ _ hF

theorem lockstep_forM {items : List γ} {f : γ → ExceptT Failure (StateM σ) PUnit}
    {g : γ → ExceptT Failure (StateM τ) PUnit}
    (h : ∀ item ∈ items, Lockstep P (f item) (g item) (fun _ _ => True) P E) :
    Lockstep P (items.forM f) (items.forM g) (fun _ _ => True) P E := by
  induction items with
  | nil => exact lockstep_pure trivial
  | cons item items ih =>
    apply lockstep_bind (h item List.mem_cons_self)
    intro _ _ _
    exact ih fun item hitem => h item (List.mem_cons_of_mem _ hitem)

end Lockstep

end DocPipeline
