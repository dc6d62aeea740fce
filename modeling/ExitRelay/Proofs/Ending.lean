import ExitRelay.Machine.Basic

/-!
# How a program ends

`Ends x s Q E` says that the program `x`, run from the state `s`, ends in a result and a
state that satisfy `Q`, or fails with an error and a state that satisfy `E`.  Since a failed
program keeps what it changed before, both endings leave a state; `after x s` is that state.
`Keeps I x` says that `x` keeps the invariant `I`, whichever way it ends.
-/

namespace ExitRelay

variable {ε ε' σ α β : Type}

/-- The program ends from `s` as `Q` says, or fails as `E` says. -/
def Ends (x : EStateM ε σ α) (s : σ) (Q : α → σ → Prop) (E : ε → σ → Prop) : Prop :=
  match x s with
  | .ok a t => Q a t
  | .error e t => E e t

/-- The state that a program leaves, whichever way it ends. -/
def after (x : EStateM ε σ α) (s : σ) : σ :=
  match x s with
  | .ok _ t => t
  | .error _ t => t

/-- A program whose first part ends goes on with the second. -/
theorem bind_of_ok {x : EStateM ε σ α} {f : α → EStateM ε σ β} {s t : σ} {a : α}
    (h : x s = .ok a t) :
  (x >>= f) s = f a t
  := by
  change EStateM.bind x f s = _
  rw [EStateM.bind, h]

/-- A program whose first part fails does not come to the second. -/
theorem bind_of_error {x : EStateM ε σ α} {f : α → EStateM ε σ β} {s t : σ} {e : ε}
    (h : x s = .error e t) :
  (x >>= f) s = .error e t
  := by
  change EStateM.bind x f s = _
  rw [EStateM.bind, h]

/-- A program that does not fail needs no handler. -/
theorem tryCatch_of_ok {x : EStateM ε σ α} {f : ε → EStateM ε σ α} {s t : σ} {a : α}
    (h : x s = .ok a t) :
  MonadExcept.tryCatch x f s = .ok a t
  := by
  change EStateM.tryCatch x f s = _
  delta EStateM.tryCatch
  simp only [h]

/-- A program that fails goes on with its handler. -/
theorem tryCatch_of_error {x : EStateM ε σ α} {f : ε → EStateM ε σ α} {s t : σ} {e : ε}
    (h : x s = .error e t) :
  MonadExcept.tryCatch x f s = f e t
  := by
  change EStateM.tryCatch x f s = _
  delta EStateM.tryCatch
  simp only [h]
  rfl

/-- Renaming the errors of a program does not change the state that it leaves. -/
theorem after_adaptExcept (f : ε → ε') (x : EStateM ε σ α) (s : σ) :
  after (x.adaptExcept f) s = after x s
  := by
  rw [after, after, EStateM.adaptExcept]
  cases x s with
  | ok a t => rfl
  | error e t => rfl

/-- Renaming the errors of a program changes no result. -/
theorem eq_ok_of_adaptExcept {f : ε → ε'} {x : EStateM ε σ α} {s t : σ} {a : α}
    (h : x.adaptExcept f s = .ok a t) :
  x s = .ok a t
  := by
  rw [EStateM.adaptExcept] at h
  cases hx : x s with
  | ok b u =>
      rw [hx] at h
      obtain ⟨rfl, rfl⟩ := EStateM.Result.ok.inj h
      rfl
  | error e u =>
      rw [hx] at h
      nomatch h

namespace Ends

variable {x : EStateM ε σ α} {s : σ} {Q Q' : α → σ → Prop} {E E' : ε → σ → Prop}

theorem ok {a : α} {t : σ} (hx : x s = .ok a t) (h : Q a t) :
  Ends x s Q E
  := by
  rw [Ends]
  rw [hx]
  apply h

theorem error {e : ε} {t : σ} (hx : x s = .error e t) (h : E e t) :
  Ends x s Q E
  := by
  rw [Ends]
  rw [hx]
  apply h

/-- A program that ends as `Ends` says has one of the two endings. -/
theorem cases (h : Ends x s Q E) :
  (∃ a t, x s = .ok a t ∧ Q a t) ∨ ∃ e t, x s = .error e t ∧ E e t
  := by
  rw [Ends] at h
  split at h
  · rename_i a t hs
    left
    exact ⟨a, t, hs, h⟩
  · rename_i e t hs
    right
    exact ⟨e, t, hs, h⟩

theorem pure {a : α} (h : Q a s) :
  Ends (Pure.pure a : EStateM ε σ α) s Q E
  := h

theorem throw {e : ε} (h : E e s) :
  Ends (MonadExcept.throw e : EStateM ε σ α) s Q E
  := h

/-- Every program ends in some way. -/
theorem trivial :
  Ends x s (fun _ _ => True) (fun _ _ => True)
  := by
  rw [Ends]
  split
  · exact True.intro
  · exact True.intro

/-- What a program ends in has every property that it is known to have. -/
theorem and (h : Ends x s Q E) (h' : Ends x s Q' E') :
  Ends x s (fun a t => Q a t ∧ Q' a t) (fun e t => E e t ∧ E' e t)
  := by
  obtain ⟨a, t, hs, ha⟩ | ⟨e, t, hs, he⟩ := h.cases
  · rw [Ends, hs] at h'
    apply ok hs ⟨ha, h'⟩
  · rw [Ends, hs] at h'
    apply error hs ⟨he, h'⟩

theorem mono (h : Ends x s Q E) (hQ : ∀ a t, Q a t → Q' a t) (hE : ∀ e t, E e t → E' e t) :
  Ends x s Q' E'
  := by
  obtain ⟨a, t, hs, ha⟩ | ⟨e, t, hs, he⟩ := h.cases
  · apply ok hs
    apply hQ a t ha
  · apply error hs
    apply hE e t he

/-- How a program may fail can be left open. -/
theorem forget (h : Ends x s Q E) :
  Ends x s Q fun _ _ => True
  := h.mono (fun _ _ hq => hq) fun _ _ _ => True.intro

/-- What follows from the result, if it does not matter how the program may fail. -/
theorem imp (h : Ends x s Q E) (hQ : ∀ a t, Q a t → Q' a t) :
  Ends x s Q' fun _ _ => True
  := h.forget.mono hQ fun _ _ => id

/-- Two programs in a row end as the second one does from where the first one ends. -/
theorem bind {f : α → EStateM ε σ β} {R : β → σ → Prop}
    (hx : Ends x s Q E) (hf : ∀ a t, Q a t → Ends (f a) t R E) :
  Ends (x >>= f) s R E
  := by
  obtain ⟨a, t, hs, ha⟩ | ⟨e, t, hs, he⟩ := hx.cases
  · rw [Ends]
    rw [bind_of_ok hs]
    apply hf a t ha
  · apply error (bind_of_error hs) he

/-- A program whose first part fails ends as that part does. -/
theorem bind_fail {f : α → EStateM ε σ β} {R : β → σ → Prop}
    (hx : Ends x s (fun _ _ => False) E) :
  Ends (x >>= f) s R E
  := hx.bind fun _ _ h => h.elim

/-- What the second part of a program always ends in does not depend on the first part. -/
theorem bind_last {f : α → EStateM ε σ β} {R : β → σ → Prop}
    (hf : ∀ a t, Ends (f a) t R fun _ _ => True) :
  Ends (x >>= f) s R fun _ _ => True
  := trivial.bind fun a t _ => hf a t

/-- A program whose first part has a result ends as its second part does. -/
theorem bind_ok {f : α → EStateM ε σ β} {a : α} {t : σ} {R : β → σ → Prop}
    (hx : x s = .ok a t) (hf : Ends (f a) t R E) :
  Ends (x >>= f) s R E
  := by
  rw [Ends]
  rw [bind_of_ok hx]
  apply hf

/-- Renaming the errors of a program changes neither its results nor the states it leaves. -/
theorem adaptExcept {f : ε → ε'} {E' : ε' → σ → Prop} (h : Ends x s Q fun e => E' (f e)) :
  Ends (x.adaptExcept f) s Q E'
  := by
  obtain ⟨a, t, hs, ha⟩ | ⟨e, t, hs, he⟩ := h.cases
  · apply ok (a := a) (t := t) _ ha
    rw [EStateM.adaptExcept, hs]
  · apply error (e := f e) (t := t) _ he
    rw [EStateM.adaptExcept, hs]

/-- If it does not matter how a program may fail, its errors may be renamed. -/
theorem forget_adaptExcept {f : ε → ε'} (h : Ends x s Q E) :
  Ends (x.adaptExcept f) s Q fun _ _ => True
  := h.forget.adaptExcept

theorem map {f : α → β} {Q : β → σ → Prop} (h : Ends x s (fun a => Q (f a)) E) :
  Ends (f <$> x) s Q E
  := by
  obtain ⟨a, t, hs, ha⟩ | ⟨e, t, hs, he⟩ := h.cases
  · apply ok (a := f a) (t := t) _ ha
    change EStateM.map f x s = _
    rw [EStateM.map, hs]
  · apply error (e := e) (t := t) _ he
    change EStateM.map f x s = _
    rw [EStateM.map, hs]

/-- A handler takes over where the program has failed. -/
theorem tryCatch {f : ε → EStateM ε σ α}
    (hx : Ends x s Q E') (hf : ∀ e t, E' e t → Ends (f e) t Q E) :
  Ends (MonadExcept.tryCatch x f) s Q E
  := by
  obtain ⟨a, t, hs, ha⟩ | ⟨e, t, hs, he⟩ := hx.cases
  · apply ok (tryCatch_of_ok hs) ha
  · rw [Ends]
    rw [tryCatch_of_error hs]
    apply hf e t he

/-- A program leaves a state with the property that both of its endings have. -/
theorem after {I : σ → Prop} (h : Ends x s (fun _ => I) (fun _ => I)) :
  I (after x s)
  := by
  rw [ExitRelay.after]
  obtain ⟨a, t, hs, ha⟩ | ⟨e, t, hs, he⟩ := h.cases
  · rw [hs]
    apply ha
  · rw [hs]
    apply he

end Ends

/-- The program keeps an invariant, whichever way it ends. -/
def Keeps (I : σ → Prop) (x : EStateM ε σ α) : Prop :=
  ∀ s, I s → Ends x s (fun _ => I) (fun _ => I)

namespace Keeps

variable {I : σ → Prop} {x : EStateM ε σ α}

theorem pure (a : α) :
  Keeps I (Pure.pure a : EStateM ε σ α)
  := fun _ h => Ends.pure h

theorem throw (e : ε) :
  Keeps I (MonadExcept.throw e : EStateM ε σ α)
  := fun _ h => Ends.error rfl h

/-- Two programs in a row keep what each of them keeps. -/
theorem bind {f : α → EStateM ε σ β} (hx : Keeps I x) (hf : ∀ a, Keeps I (f a)) :
  Keeps I (x >>= f)
  := by
  intro s h
  apply (hx s h).bind
  intro a t ht
  apply hf a t ht

theorem adaptExcept {f : ε → ε'} (hx : Keeps I x) :
  Keeps I (x.adaptExcept f)
  := fun s h => (hx s h).adaptExcept

end Keeps

end ExitRelay
