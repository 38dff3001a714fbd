import FrontPanel.Action

/-!
# What an action ensures

`Ensures P x Q E`: started in a state with `P`, the action `x` answers in a state with `Q` or fails in a
state with `E`. Both ends count, since a failed action keeps what it did. With `E` false the action is
known to answer.
-/

namespace FrontPanel.Action

set_option autoImplicit false

variable {ε ε' σ τ α β : Type}

def Ensures (P : σ → Prop) (x : Action ε σ α) (Q : α → σ → Prop) (E : ε → σ → Prop) : Prop :=
  ∀ s, P s → match x s with
    | .ok a t => Q a t
    | .error e t => E e t

abbrev Answers (P : σ → Prop) (x : Action ε σ α) (Q : α → σ → Prop) : Prop :=
  Ensures P x Q fun _ _ => False

abbrev Keeps (P : σ → Prop) (x : Action ε σ α) : Prop := Ensures P x (fun _ => P) fun _ => P

theorem bind_of_ok {x : Action ε σ α} {f : α → Action ε σ β} {s t : σ} {a : α}
    (h : x s = .ok a t) : (x >>= f) s = f a t := by
  change EStateM.bind x f s = f a t
  unfold EStateM.bind
  rw [h]

theorem bind_of_error {x : Action ε σ α} {f : α → Action ε σ β} {s t : σ} {e : ε}
    (h : x s = .error e t) : (x >>= f) s = .error e t := by
  change EStateM.bind x f s = .error e t
  unfold EStateM.bind
  rw [h]

theorem bind_of_eq {x y : Action ε σ α} {f : α → Action ε σ β} {s t : σ} (h : x s = y t) :
    (x >>= f) s = (y >>= f) t := by
  change EStateM.bind x f s = EStateM.bind y f t
  unfold EStateM.bind
  rw [h]

theorem after_of_eq {x y : Action ε σ α} {s t : σ} (h : x s = y t) : x.after s = y.after t := by
  unfold Action.after
  rw [h]

theorem outcome_of_eq {x y : Action ε σ α} {s t : σ} (h : x s = y t) :
    x.outcome s = y.outcome t := by
  unfold Action.outcome
  rw [h]

theorem after_of_ok {x : Action ε σ α} {s t : σ} {a : α} (h : x s = .ok a t) : x.after s = t := by
  unfold Action.after
  rw [h]

theorem after_of_error {x : Action ε σ α} {s t : σ} {e : ε} (h : x s = .error e t) :
    x.after s = t := by
  unfold Action.after
  rw [h]

theorem outcome_of_ok {x : Action ε σ α} {s t : σ} {a : α} (h : x s = .ok a t) :
    x.outcome s = .ok a := by
  unfold Action.outcome
  rw [h]

theorem outcome_of_error {x : Action ε σ α} {s t : σ} {e : ε} (h : x s = .error e t) :
    x.outcome s = .error e := by
  unfold Action.outcome
  rw [h]

theorem eq_ok_of_outcome {x : Action ε σ α} {s : σ} {a : α} (h : x.outcome s = .ok a) :
    x s = .ok a (x.after s) := by
  unfold Action.outcome at h
  unfold Action.after
  cases hr : x s with
  | ok b t =>
    rw [hr] at h
    cases h
    rfl
  | error e t =>
    rw [hr] at h
    cases h

theorem eq_error_of_outcome {x : Action ε σ α} {s : σ} {e : ε} (h : x.outcome s = .error e) :
    x s = .error e (x.after s) := by
  unfold Action.outcome at h
  unfold Action.after
  cases hr : x s with
  | ok b t =>
    rw [hr] at h
    cases h
  | error e' t =>
    rw [hr] at h
    cases h
    rfl

/-- What follows may answer or fail; the state stays where the first action left it. -/
theorem after_bind {x : Action ε σ α} {f : α → Action ε σ β} (hf : ∀ a t, (f a).after t = t) (s : σ) :
    (x >>= f).after s = x.after s := by
  cases hr : x s with
  | ok a t =>
    rw [after_of_eq (bind_of_ok hr), hf, after_of_ok hr]
  | error e t =>
    rw [after_of_error (bind_of_error hr), after_of_error hr]

theorem forM_cons_of_ok {γ : Type} {f : γ → Action ε σ PUnit} {i : γ} {items : List γ} {s t : σ}
    (h : f i s = .ok ⟨⟩ t) : (i :: items).forM f s = items.forM f t := by
  rw [List.forM_eq_forM, List.forM_cons, bind_of_ok h]

theorem forM_cons_of_eq {γ : Type} {f : γ → Action ε σ PUnit} {i : γ} {items : List γ} {s t : σ}
    (h : f i s = f i t) : (i :: items).forM f s = (i :: items).forM f t := by
  rw [List.forM_eq_forM, List.forM_cons, bind_of_eq h]

theorem forM_cons_of_error {γ : Type} {f : γ → Action ε σ PUnit} {i : γ} {items : List γ} {s t : σ}
    {e : ε} (h : f i s = .error e t) : (i :: items).forM f s = .error e t := by
  rw [List.forM_eq_forM, List.forM_cons, bind_of_error h]

theorem forM_of_ok {γ : Type} {f : γ → Action ε σ PUnit} {next : γ → σ → σ}
    (h : ∀ i s, f i s = .ok ⟨⟩ (next i s)) (items : List γ) (s : σ) :
    items.forM f s = .ok ⟨⟩ (items.foldl (fun s i => next i s) s) := by
  induction items generalizing s with
  | nil => rfl
  | cons i items ih => exact (forM_cons_of_ok (h i s)).trans (ih (next i s))

theorem Answers.exists_ok {P : σ → Prop} {x : Action ε σ α} {Q : α → σ → Prop} (h : Answers P x Q)
    {s : σ} (hs : P s) : ∃ a t, x s = .ok a t ∧ Q a t := by
  have hx := h s hs
  cases hr : x s with
  | ok a t => exact ⟨a, t, rfl, by simpa [hr] using hx⟩
  | error e t => simp [hr] at hx

theorem Ensures.after {P Q : σ → Prop} {x : Action ε σ α}
    (h : Ensures P x (fun _ => Q) fun _ => Q) {s : σ} (hs : P s) : Q (x.after s) := by
  have hx := h s hs
  unfold Action.after
  cases hr : x s with
  | ok a t => simpa [hr] using hx
  | error e t => simpa [hr] using hx

theorem Keeps.after {P : σ → Prop} {x : Action ε σ α} (h : Keeps P x) {s : σ} (hs : P s) :
    P (x.after s) :=
  Ensures.after h hs

namespace Ensures

variable {P P' : σ → Prop} {Q Q' : α → σ → Prop} {E E' : ε → σ → Prop}

theorem mono {x : Action ε σ α} (h : Ensures P x Q E) (hP : ∀ s, P' s → P s)
    (hQ : ∀ a s, Q a s → Q' a s) (hE : ∀ e s, E e s → E' e s) : Ensures P' x Q' E' := by
  intro s hs
  have hx := h s (hP s hs)
  cases hr : x s with
  | ok a t => exact hQ a t (by simpa [hr] using hx)
  | error e t => exact hE e t (by simpa [hr] using hx)

theorem mono_pre {x : Action ε σ α} (h : Ensures P x Q E) (hP : ∀ s, P' s → P s) :
    Ensures P' x Q E :=
  h.mono hP (fun _ _ hq => hq) fun _ _ he => he

theorem mono_post {x : Action ε σ α} (h : Ensures P x Q E) (hQ : ∀ a s, Q a s → Q' a s) :
    Ensures P x Q' E :=
  h.mono (fun _ hp => hp) hQ fun _ _ he => he

theorem mono_error {x : Action ε σ α} (h : Ensures P x Q E) (hE : ∀ e s, E e s → E' e s) :
    Ensures P x Q E' :=
  h.mono (fun _ hp => hp) (fun _ _ hq => hq) hE

theorem of_ok {x : Action ε σ α} (h : Ensures P x Q E) {s t : σ} {a : α} (hs : P s)
    (hr : x s = .ok a t) : Q a t := by
  have hx := h s hs
  rwa [hr] at hx

theorem of_error {x : Action ε σ α} (h : Ensures P x Q E) {s t : σ} {e : ε} (hs : P s)
    (hr : x s = .error e t) : E e t := by
  have hx := h s hs
  rwa [hr] at hx

theorem always {x : Action ε σ α} (hQ : ∀ a s, Q a s) (hE : ∀ e s, E e s) : Ensures P x Q E := by
  intro s _
  cases x s with
  | ok a t => exact hQ a t
  | error e t => exact hE e t

theorem of_after {x : Action ε σ α} {R : σ → Prop} (h : ∀ s, P s → R (x.after s)) :
    Ensures P x (fun _ => R) fun _ => R := by
  intro s hs
  have hafter := h s hs
  unfold Action.after at hafter
  cases hr : x s with
  | ok a t => simpa [hr] using hafter
  | error e t => simpa [hr] using hafter

theorem of_forall_eq {x : Action ε σ α} (h : ∀ s, P s → Ensures (· = s) x Q E) : Ensures P x Q E :=
  fun s hs => h s hs s rfl

theorem pure {a : α} (h : ∀ s, P s → Q a s) : Ensures P (Pure.pure a : Action ε σ α) Q E :=
  fun s hs => h s hs

theorem throw {e : ε} (h : ∀ s, P s → E e s) : Ensures P (MonadExcept.throw e : Action ε σ α) Q E :=
  fun s hs => h s hs

theorem modified {f : σ → σ} {R : PUnit → σ → Prop} (h : ∀ s, P s → R ⟨⟩ (f s)) :
    Ensures P (modify f : Action ε σ PUnit) R E :=
  fun s hs => h s hs

theorem bind {x : Action ε σ α} {f : α → Action ε σ β} {R : β → σ → Prop} (hx : Ensures P x Q E)
    (hf : ∀ a, Ensures (Q a) (f a) R E) : Ensures P (x >>= f) R E := by
  intro s hs
  have h := hx s hs
  change match EStateM.bind x f s with
    | .ok a t => R a t
    | .error e t => E e t
  unfold EStateM.bind
  cases hr : x s with
  | ok a t => exact hf a t (by simpa [hr] using h)
  | error e t => simpa [hr] using h

/-- The state that is looked up is the one that the rest starts in. -/
theorem get_bind {f : σ → Action ε σ β} {R : β → σ → Prop}
    (h : ∀ s, P s → Ensures (· = s) (f s) R E) : Ensures P (get >>= f) R E :=
  fun s hs => h s hs s rfl

theorem failingAs {E' : ε' → σ → Prop} {x : Action ε σ α} {f : ε → ε'}
    (h : Ensures P x Q fun e s => E' (f e) s) : Ensures P (x.failingAs f) Q E' := by
  intro s hs
  have hx := h s hs
  unfold Action.failingAs
  cases hr : x s with
  | ok a t => simpa [hr] using hx
  | error e t => simpa [hr] using hx

theorem within {get : τ → σ} {put : σ → τ → τ} {x : Action ε σ α} {t : τ} {Q : α → τ → Prop}
    {E : ε → τ → Prop}
    (h : Ensures (· = get t) x (fun a s => Q a (put s t)) fun e s => E e (put s t)) :
    Ensures (· = t) (x.within get put) Q E := by
  intro s hs
  subst hs
  have hx := h (get s) rfl
  unfold Action.within
  cases hr : x (get s) with
  | ok a s => simpa [hr] using hx
  | error e s => simpa [hr] using hx

theorem closing {x : Action ε σ α} {close : σ → σ}
    (h : Ensures P x (fun a s => Q a (close s)) fun e s => E e (close s)) :
    Ensures P (x.closing close) Q E := by
  intro s hs
  have hx := h s hs
  unfold Action.closing
  cases hr : x s with
  | ok a t => simpa [hr] using hx
  | error e t => simpa [hr] using hx

theorem ite {c : Prop} [Decidable c] {x y : Action ε σ α} (hx : c → Ensures P x Q E)
    (hy : ¬ c → Ensures P y Q E) : Ensures P (if c then x else y) Q E := by
  split
  · exact hx ‹_›
  · exact hy ‹_›

theorem forM {γ : Type} {items : List γ} {f : γ → Action ε σ PUnit}
    (h : ∀ i ∈ items, Ensures P (f i) (fun _ => P) E) :
    Ensures P (items.forM f) (fun _ => P) E := by
  induction items with
  | nil => exact Ensures.pure fun _ hs => hs
  | cons i items ih =>
    rw [List.forM_eq_forM, List.forM_cons]
    refine Ensures.bind (h i List.mem_cons_self) fun _ => ?_
    exact ih fun j hj => h j (List.mem_cons_of_mem i hj)

theorem mapM {γ : Type} {items : List γ} {f : γ → Action ε σ β}
    (h : ∀ i ∈ items, Ensures P (f i) (fun _ => P) E) :
    Ensures P (items.mapM f) (fun _ => P) E := by
  induction items with
  | nil => exact Ensures.pure fun _ hs => hs
  | cons i items ih =>
    rw [List.mapM_cons]
    refine Ensures.bind (h i List.mem_cons_self) fun _ => ?_
    refine Ensures.bind (ih fun j hj => h j (List.mem_cons_of_mem i hj)) fun _ => ?_
    exact Ensures.pure fun _ hs => hs

end Ensures

namespace Keeps

variable {P : σ → Prop}

theorem pure (a : α) : Keeps P (Pure.pure a : Action ε σ α) := Ensures.pure fun _ hs => hs

theorem throw (e : ε) : Keeps P (MonadExcept.throw e : Action ε σ α) := Ensures.throw fun _ hs => hs

theorem bind {x : Action ε σ α} {f : α → Action ε σ β} (hx : Keeps P x) (hf : ∀ a, Keeps P (f a)) :
    Keeps P (x >>= f) :=
  Ensures.bind hx hf

theorem get_bind {f : σ → Action ε σ β} (h : ∀ s, Keeps P (f s)) : Keeps P (get >>= f) :=
  Ensures.get_bind fun s hs => (h s).mono_pre fun _ he => he ▸ hs

theorem modify {f : σ → σ} (h : ∀ s, P s → P (f s)) :
    Keeps P (modify f : Action ε σ PUnit) :=
  Ensures.modified h

theorem within {R : τ → Prop} {get : τ → σ} {put : σ → τ → τ} {x : Action ε σ α} (hx : Keeps P x)
    (hget : ∀ t, R t → P (get t)) (hput : ∀ s t, R t → P s → R (put s t)) :
    Keeps R (x.within get put) :=
  Ensures.of_forall_eq fun t ht => Ensures.within
    (hx.mono (fun _ hs => hs ▸ hget t ht) (fun _ s hs => hput s t ht hs) fun _ s hs => hput s t ht hs)

theorem tryCatch {x : Action ε σ α} {f : ε → Action ε σ α} (hx : Keeps P x)
    (hf : ∀ e, Keeps P (f e)) : Keeps P (MonadExcept.tryCatch x f) := by
  intro s hs
  have h := hx s hs
  change match EStateM.tryCatch x f s with
    | .ok _ t => P t
    | .error _ t => P t
  unfold EStateM.tryCatch
  cases hr : x s with
  | ok a t => simpa [hr] using h
  | error e t => exact hf e t (by simpa [hr] using h)

theorem ite {c : Prop} [Decidable c] {x y : Action ε σ α} (hx : Keeps P x) (hy : Keeps P y) :
    Keeps P (if c then x else y) :=
  Ensures.ite (fun _ => hx) fun _ => hy

end Keeps

end FrontPanel.Action
