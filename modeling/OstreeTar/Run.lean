import Mathlib.Logic.Basic

/-!
# Running `EStateM` actions

The writer and the extractor are `EStateM` actions.  These lemmas evaluate their primitives and
split a `bind` on the outcome of its first action, so that a proof about a composite action
never unfolds the monad.
-/

namespace OstreeTar

variable {ε σ α β : Type} {x : EStateM ε σ α} {f : α → EStateM ε σ β} {s s' : σ}

@[simp] theorem run_pure (a : α) (s : σ) : (pure a : EStateM ε σ α) s = .ok a s := rfl

@[simp] theorem run_throw (e : ε) (s : σ) : (throw e : EStateM ε σ α) s = .error e s := rfl

@[simp] theorem run_throw_bind (e : ε) (f : α → EStateM ε σ β) (s : σ) :
    (throw e >>= f) s = .error e s := rfl

@[simp] theorem run_map_throw (e : ε) (f : α → β) (s : σ) :
    (f <$> (throw e : EStateM ε σ α)) s = .error e s := rfl

@[simp] theorem run_get (s : σ) : (get : EStateM ε σ σ) s = .ok s s := rfl

@[simp] theorem run_modify (g : σ → σ) (s : σ) : (modify g : EStateM ε σ PUnit) s = .ok ⟨⟩ (g s) :=
  rfl

@[simp] theorem run_modifyGet (g : σ → α × σ) (s : σ) :
    (modifyGet g : EStateM ε σ α) s = .ok (g s).1 (g s).2 := rfl

@[simp] theorem run_liftExcept_ok (a : α) (s : σ) :
    (liftExcept (.ok a : Except ε α) : EStateM ε σ α) s = .ok a s := rfl

@[simp] theorem run_liftExcept_error (e : ε) (s : σ) :
    (liftExcept (.error e : Except ε α) : EStateM ε σ α) s = .error e s := rfl

@[simp] theorem run_pure_bind (a : α) (f : α → EStateM ε σ β) (s : σ) :
    (pure a >>= f) s = f a s := rfl

@[simp] theorem run_get_bind (f : σ → EStateM ε σ β) (s : σ) : (get >>= f) s = f s s := rfl

@[simp] theorem run_modify_bind (g : σ → σ) (f : PUnit → EStateM ε σ β) (s : σ) :
    (modify g >>= f) s = f ⟨⟩ (g s) := rfl

@[simp] theorem run_modifyGet_bind (g : σ → α × σ) (f : α → EStateM ε σ β) (s : σ) :
    (modifyGet g >>= f) s = f (g s).1 (g s).2 := rfl

@[simp] theorem run_liftExcept_ok_bind (a : α) (f : α → EStateM ε σ β) (s : σ) :
    (liftExcept (.ok a : Except ε α) >>= f) s = f a s := rfl

@[simp] theorem run_liftExcept_error_bind (e : ε) (f : α → EStateM ε σ β) (s : σ) :
    (liftExcept (.error e : Except ε α) >>= f) s = .error e s := rfl

/-- A `bind` whose first action succeeds continues from its result. -/
theorem run_bind_ok {a : α} (h : x s = .ok a s') : (x >>= f) s = f a s' := by
  show EStateM.bind x f s = _
  simp only [EStateM.bind, h]

/-- A `bind` whose first action fails fails the same way. -/
theorem run_bind_error {e : ε} (h : x s = .error e s') : (x >>= f) s = .error e s' := by
  show EStateM.bind x f s = _
  simp only [EStateM.bind, h]

/-- The state a run ends in, whether it succeeds or fails. -/
def finalState : EStateM.Result ε σ α → σ
  | .ok _ s => s
  | .error _ s => s

@[simp] theorem finalState_ok (a : α) (s : σ) : finalState (.ok a s : EStateM.Result ε σ α) = s := rfl

@[simp] theorem finalState_error (e : ε) (s : σ) :
    finalState (.error e s : EStateM.Result ε σ α) = s := rfl

theorem run_bind (x : EStateM ε σ α) (f : α → EStateM ε σ β) (s : σ) :
    (x >>= f) s = match x s with
      | .ok a s' => f a s'
      | .error e s' => .error e s' := rfl

theorem run_map (g : α → β) (x : EStateM ε σ α) (s : σ) :
    (g <$> x) s = match x s with
      | .ok a s' => .ok (g a) s'
      | .error e s' => .error e s' := rfl

/-- A `bind` succeeds exactly when its first action does and the rest succeeds from there. -/
theorem run_bind_eq_ok {b : β} :
    (x >>= f) s = .ok b s' ↔ ∃ a s₁, x s = .ok a s₁ ∧ f a s₁ = .ok b s' := by
  rw [run_bind]
  cases hx : x s with
  | ok a s₁ => exact ⟨fun h => ⟨a, s₁, rfl, h⟩, fun ⟨_, _, h₁, h⟩ => by cases h₁; exact h⟩
  | error e s₁ => simp

/-! ## Two runs in lockstep -/

section Lockstep

variable {α₀ α₁ β₀ β₁ : Type}

/-- Two runs agree: both fail, or both succeed with results and final states related by `Q`. -/
def Agree (Q : α₀ → α₁ → σ → σ → Prop) :
    EStateM.Result ε σ α₀ → EStateM.Result ε σ α₁ → Prop
  | .ok a₀ t₀, .ok a₁ t₁ => Q a₀ a₁ t₀ t₁
  | .error _ _, .error _ _ => True
  | _, _ => False

/-- Agreement passes through a `bind` whose continuations agree from related results. -/
theorem Agree.bind {P : α₀ → α₁ → σ → σ → Prop} {Q : β₀ → β₁ → σ → σ → Prop}
    {x₀ : EStateM ε σ α₀} {x₁ : EStateM ε σ α₁} {f₀ : α₀ → EStateM ε σ β₀}
    {f₁ : α₁ → EStateM ε σ β₁} {s₀ s₁ : σ} (hx : Agree P (x₀ s₀) (x₁ s₁))
    (hf : ∀ a₀ a₁ t₀ t₁, P a₀ a₁ t₀ t₁ → Agree Q (f₀ a₀ t₀) (f₁ a₁ t₁)) :
    Agree Q ((x₀ >>= f₀) s₀) ((x₁ >>= f₁) s₁) := by
  rw [run_bind, run_bind]
  cases h₀ : x₀ s₀ <;> cases h₁ : x₁ s₁ <;> rw [h₀, h₁] at hx <;> simp only [Agree] at hx ⊢
  · exact hf _ _ _ _ hx

theorem Agree.mono {P Q : α₀ → α₁ → σ → σ → Prop} {r₀ : EStateM.Result ε σ α₀}
    {r₁ : EStateM.Result ε σ α₁} (h : Agree P r₀ r₁) (hPQ : ∀ a₀ a₁ t₀ t₁, P a₀ a₁ t₀ t₁ → Q a₀ a₁ t₀ t₁) :
    Agree Q r₀ r₁ := by
  cases r₀ <;> cases r₁ <;> simp only [Agree] at h ⊢
  exact hPQ _ _ _ _ h

/-- Two runs of one fallible computation agree on its result. -/
theorem Agree.liftExcept_same {R : σ → σ → Prop} {x : Except ε α₀} {t₀ t₁ : σ} (h : R t₀ t₁) :
    Agree (fun a b t₀ t₁ => a = b ∧ R t₀ t₁)
      ((liftExcept x : EStateM ε σ α₀) t₀) ((liftExcept x : EStateM ε σ α₀) t₁) := by
  cases x
  · trivial
  · exact ⟨rfl, h⟩

/-- Two fallible computations, the second the first with its result mapped by `g`, agree. -/
theorem Agree.liftExcept_map {R : σ → σ → Prop} {x₀ : Except ε α₀} {x₁ : Except ε α₁}
    {g : α₀ → α₁} {t₀ t₁ : σ} (hx : x₁ = x₀.map g) (h : R t₀ t₁) :
    Agree (fun a b t₀ t₁ => b = g a ∧ R t₀ t₁)
      ((liftExcept x₀ : EStateM ε σ α₀) t₀) ((liftExcept x₁ : EStateM ε σ α₁) t₁) := by
  subst hx
  cases x₀
  · trivial
  · exact ⟨rfl, h⟩

/-- Agreeing runs succeed together. -/
theorem Agree.ok_iff {Q : α₀ → α₁ → σ → σ → Prop} {r₀ : EStateM.Result ε σ α₀}
    {r₁ : EStateM.Result ε σ α₁} (h : Agree Q r₀ r₁) :
    (∃ a s, r₀ = .ok a s) ↔ (∃ a s, r₁ = .ok a s) := by
  cases r₀ <;> cases r₁ <;> simp_all [Agree]

/-- Two loops over one list agree when their bodies keep a relation between the states. -/
theorem Agree.forM {γ : Type} (R : σ → σ → Prop) (l : List γ) (f₀ f₁ : γ → EStateM ε σ PUnit)
    (h : ∀ a ∈ l, ∀ t₀ t₁, R t₀ t₁ → Agree (fun _ _ => R) (f₀ a t₀) (f₁ a t₁)) :
    ∀ s₀ s₁, R s₀ s₁ → Agree (fun _ _ => R) (l.forM f₀ s₀) (l.forM f₁ s₁) := by
  induction l with
  | nil => intro s₀ s₁ hR; exact hR
  | cons a l ih =>
    intro s₀ s₁ hR
    simp only [List.forM_cons']
    exact Agree.bind (h a (List.mem_cons_self _ _) _ _ hR) fun _ _ t₀ t₁ hR' =>
      ih (fun b hb => h b (List.mem_cons_of_mem _ hb)) t₀ t₁ hR'

end Lockstep

/-! ## Runs that end well -/

section Ends

variable {Q : σ → Prop}

/-- A run ends well: on success `P` holds of its result and final state, on failure `Q` holds of
the state it stopped in. -/
def Ends (P : α → σ → Prop) (Q : σ → Prop) : EStateM.Result ε σ α → Prop
  | .ok a s => P a s
  | .error _ s => Q s

theorem Ends.bind {P : α → σ → Prop} {P' : β → σ → Prop} (hx : Ends P Q (x s))
    (hf : ∀ a s₁, P a s₁ → Ends P' Q (f a s₁)) : Ends P' Q ((x >>= f) s) := by
  rw [run_bind]
  cases h : x s with
  | ok a s₁ => rw [h] at hx; exact hf a s₁ hx
  | error e s₁ => rw [h] at hx; exact hx

theorem Ends.mono {P P' : α → σ → Prop} {r : EStateM.Result ε σ α} (h : Ends P Q r)
    (hP : ∀ a s, P a s → P' a s) : Ends P' Q r := by
  cases r
  · exact hP _ _ h
  · exact h

/-- A loop ends well when each turn keeps `I`, moves along a preorder `G`, and leaves its item
done in a sense `D` that `G` keeps: then every item is done at the end. -/
theorem Ends.forM_all {γ : Type} (I : σ → Prop) (G : σ → σ → Prop) (D : γ → σ → Prop)
    (hrefl : ∀ s, G s s) (htrans : ∀ s₁ s₂ s₃, G s₁ s₂ → G s₂ s₃ → G s₁ s₃)
    (hD : ∀ a s s', D a s → G s s' → D a s') (l : List γ) (body : γ → EStateM ε σ PUnit)
    (h : ∀ a ∈ l, ∀ s, I s → Ends (fun _ s' => I s' ∧ G s s' ∧ D a s') Q (body a s)) :
    ∀ s, I s → Ends (fun _ s' => I s' ∧ G s s' ∧ ∀ a ∈ l, D a s') Q (l.forM body s) := by
  induction l with
  | nil => intro s hs; exact ⟨hs, hrefl s, by simp⟩
  | cons a l ih =>
    intro s hs
    simp only [List.forM_cons']
    refine Ends.bind (h a (List.mem_cons_self _ _) s hs) fun _ s₁ ⟨hs₁, hG₁, hD₁⟩ => ?_
    refine (ih (fun b hb => h b (List.mem_cons_of_mem _ hb)) s₁ hs₁).mono
      fun _ s₂ ⟨hs₂, hG₂, hD₂⟩ => ⟨hs₂, htrans _ _ _ hG₁ hG₂, fun b hb => ?_⟩
    rcases List.mem_cons.mp hb with rfl | hb
    · exact hD _ _ _ hD₁ hG₂
    · exact hD₂ b hb

/-- A loop ends well when each turn keeps `I`. -/
theorem Ends.forM_inv {γ : Type} (I : σ → Prop) (l : List γ) (body : γ → EStateM ε σ PUnit)
    (h : ∀ a ∈ l, ∀ s, I s → Ends (fun _ s' => I s') Q (body a s)) :
    ∀ s, I s → Ends (fun _ s' => I s') Q (l.forM body s) := fun s hs =>
  (Ends.forM_all I (fun _ _ => True) (fun _ _ => True) (fun _ => trivial) (fun _ _ _ _ _ => trivial)
    (fun _ _ _ _ _ => trivial) l body (fun a ha s hs => (h a ha s hs).mono fun _ _ hs' =>
      ⟨hs', trivial, trivial⟩) s hs).mono fun _ _ h => h.1

/-- A run that keeps `I` whichever way it ends leaves a state with `I`. -/
theorem Ends.final {I : σ → Prop} {r : EStateM.Result ε σ α} (h : Ends (fun _ s => I s) I r) :
    I (finalState r) := by
  cases r <;> exact h

end Ends

end OstreeTar
