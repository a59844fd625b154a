import CrossChain.Act
import Mathlib.Order.Defs.Unbundled

/-!
# Laws of acts

What an act that is put together from others does to a state, and acts that move a state only along
a relation (`Act.Within`).
-/

namespace CrossChain

namespace Act

variable {σ τ α β : Type}

/-! ## Runs -/

@[simp] theorem pure_run (a : α) (s : σ) : (pure a : Act σ α) s = .ok a s := rfl

@[simp] theorem throw_run (e : Failure) (s : σ) : (throw e : Act σ α) s = .error e s := rfl

@[simp] theorem get_run (s : σ) : (get : Act σ σ) s = .ok s s := rfl

@[simp] theorem set_run (s t : σ) : (set t : Act σ Unit) s = .ok () t := rfl

@[simp] theorem ofExcept_ok (a : α) : (ofExcept (.ok a) : Act σ α) = pure a := rfl

@[simp] theorem ofExcept_error (e : Failure) : (ofExcept (.error e) : Act σ α) = throw e := rfl

theorem bind_run_ok {x : Act σ α} {f : α → Act σ β} {s t : σ} {a : α} (h : x s = .ok a t) :
    (x >>= f) s = f a t := by
  show EStateM.bind x f s = _
  rw [EStateM.bind, h]

theorem bind_run_error {x : Act σ α} {f : α → Act σ β} {s t : σ} {e : Failure}
    (h : x s = .error e t) : (x >>= f) s = .error e t := by
  show EStateM.bind x f s = _
  rw [EStateM.bind, h]

theorem bind_run_congr {x y : Act σ α} {f g : α → Act σ β} {s : σ} (h : x s = y s)
    (hnext : ∀ a t, y s = .ok a t → f a t = g a t) : (x >>= f) s = (y >>= g) s := by
  cases hy : y s with
  | ok a t => rw [bind_run_ok (h.trans hy), bind_run_ok hy, hnext a t hy]
  | error e t => rw [bind_run_error (h.trans hy), bind_run_error hy]

@[simp] theorem get_bind (f : σ → Act σ β) (s : σ) : (get >>= f) s = f s s := rfl

@[simp] theorem throw_bind (e : Failure) (f : α → Act σ β) (s : σ) :
    ((throw e : Act σ α) >>= f) s = .error e s := rfl

theorem attempt_run_ok {x : Act σ α} {s t : σ} {a : α} (h : x s = .ok a t) :
    attempt x s = .ok (.ok a) t := by rw [attempt, h]

theorem attempt_run_error {x : Act σ α} {s t : σ} {e : Failure} (h : x s = .error e t) :
    attempt x s = .ok (.error e) t := by rw [attempt, h]

theorem attempt_run (x : Act σ α) (s : σ) :
    attempt x s = .ok (x.outcome s).1 (x.outcome s).2 := by
  rw [attempt, outcome]
  cases x s <;> rfl

/-- Both acts are run, and the first failure is that of both. -/
theorem outcome_awaitBoth {x : Act σ α} {y : Act σ β} {s t u : σ} {a : Except Failure α}
    {b : Except Failure β} (hx : x.outcome s = (a, t)) (hy : y.outcome t = (b, u)) :
    (awaitBoth x y).outcome s = (do return (← a, ← b), u) := by
  have hrun : awaitBoth x y s = (do return (← ofExcept a, ← ofExcept b)) u := by
    rw [awaitBoth, bind_run_ok (attempt_run x s), hx, bind_run_ok (attempt_run y t), hy]
  rw [outcome, hrun]
  cases a <;> cases b <;> rfl

theorem bind_eq_ok {x : Act σ α} {f : α → Act σ β} {s u : σ} {b : β}
    (h : (x >>= f) s = .ok b u) : ∃ a t, x s = .ok a t ∧ f a t = .ok b u := by
  cases hx : x s with
  | ok a t => exact ⟨a, t, rfl, by rwa [bind_run_ok hx] at h⟩
  | error e t =>
    rw [bind_run_error hx] at h
    cases h

theorem bind_eq_error {x : Act σ α} {f : α → Act σ β} {s u : σ} {e : Failure}
    (h : (x >>= f) s = .error e u) :
    x s = .error e u ∨ ∃ a t, x s = .ok a t ∧ f a t = .error e u := by
  cases hx : x s with
  | ok a t => exact .inr ⟨a, t, rfl, by rwa [bind_run_ok hx] at h⟩
  | error e' t =>
    rw [bind_run_error hx] at h
    cases h
    exact .inl rfl

/-- What comes of a loop comes of its single steps. -/
theorem forall_of_mapM {P : β → Prop} {f : α → Act σ β}
    (hf : ∀ a s b t, f a s = .ok b t → P b) {l : List α} {r : List β} {s t : σ}
    (h : l.mapM f s = .ok r t) : ∀ b ∈ r, P b := by
  induction l generalizing r s with
  | nil =>
    rw [List.mapM_nil] at h
    cases h
    exact nofun
  | cons a l ih =>
    rw [List.mapM_cons] at h
    obtain ⟨b, u, hb, h⟩ := bind_eq_ok h
    obtain ⟨rest, v, hrest, h⟩ := bind_eq_ok h
    cases h
    exact List.forall_mem_cons.2 ⟨hf a s b u hb, ih hrest⟩

theorem ofExcept_eq_ok {r : Except Failure α} {s t : σ} {a : α}
    (h : (ofExcept r : Act σ α) s = .ok a t) : r = .ok a ∧ t = s := by
  cases r with
  | ok b =>
    cases h
    exact ⟨rfl, rfl⟩
  | error e => cases h

theorem ofExcept_eq_error {r : Except Failure α} {s t : σ} {e : Failure}
    (h : (ofExcept r : Act σ α) s = .error e t) : r = .error e ∧ t = s := by
  cases r with
  | ok a => cases h
  | error e' =>
    cases h
    exact ⟨rfl, rfl⟩

/-- What succeeds as a whole succeeds in its first part. -/
theorem except_bind_eq_ok {r : Except Failure α} {f : α → Except Failure β} {b : β}
    (h : (r >>= f) = .ok b) : ∃ a, r = .ok a ∧ f a = .ok b := by
  cases r with
  | ok a => exact ⟨a, rfl, h⟩
  | error e => cases h

theorem ok_of_toOption {r : Except Failure α} {a : α} (h : r.toOption = some a) : r = .ok a := by
  cases r with
  | ok b => exact congrArg _ (Option.some.inj h)
  | error e => cases h

theorem outcome_ok {x : Act σ α} {s t : σ} {a : α} (h : x s = .ok a t) :
    x.outcome s = (.ok a, t) := by rw [outcome, h]

theorem outcome_error {x : Act σ α} {s t : σ} {e : Failure} (h : x s = .error e t) :
    x.outcome s = (.error e, t) := by rw [outcome, h]

theorem outcome_ofExcept (r : Except Failure α) (s : σ) :
    (ofExcept r : Act σ α).outcome s = (r, s) := by
  cases r <;> rfl

theorem outcome_congr {x y : Act σ α} {s t : σ} (h : x s = y t) : x.outcome s = y.outcome t := by
  rw [outcome, outcome, h]

theorem ext_outcome {x y : Act σ α} (h : ∀ s, x.outcome s = y.outcome s) : x = y := by
  funext s
  have hs := h s
  rw [outcome, outcome] at hs
  split at hs <;> split at hs <;> cases hs <;> simp only [*]

theorem run_of_outcome_ok {x : Act σ α} {s t : σ} {a : α} (h : x.outcome s = (.ok a, t)) :
    x s = .ok a t := by
  rw [outcome] at h
  split at h <;> cases h
  assumption

theorem run_of_outcome_error {x : Act σ α} {s t : σ} {e : Failure}
    (h : x.outcome s = (.error e, t)) : x s = .error e t := by
  rw [outcome] at h
  split at h <;> cases h
  assumption

/-- Whether an act ends well, with a value and in a state of which `p` holds. -/
def endsWell (x : Act σ α) (s : σ) (p : α → σ → Bool) : Bool :=
  match x s with
  | .ok a t => p a t
  | .error _ _ => false

theorem exists_of_endsWell {x : Act σ α} {s : σ} {p : α → σ → Bool}
    (h : endsWell x s p = true) : ∃ a t, x s = .ok a t ∧ p a t = true := by
  rw [endsWell] at h
  split at h
  · next a t hx => exact ⟨a, t, hx, h⟩
  · cases h

/-- The state in which an act ends. -/
def final (x : Act σ α) (s : σ) : σ := (x.outcome s).2

theorem final_ok {x : Act σ α} {s t : σ} {a : α} (h : x s = .ok a t) : x.final s = t := by
  rw [final, outcome, h]

theorem final_error {x : Act σ α} {s t : σ} {e : Failure} (h : x s = .error e t) :
    x.final s = t := by rw [final, outcome, h]

theorem final_bind_ok {x : Act σ α} {f : α → Act σ β} {s t : σ} {a : α} (h : x s = .ok a t) :
    (x >>= f).final s = (f a).final t := by simp only [final, outcome, bind_run_ok h]

theorem on_eq_ok {get : τ → σ} {set : σ → τ → τ} {x : Act σ α} {t t' : τ} {a : α}
    (h : on get set x t = .ok a t') : ∃ s, x (get t) = .ok a s ∧ t' = set s t := by
  rw [on] at h
  split at h
  · next b s hx =>
    cases h
    exact ⟨s, hx, rfl⟩
  · cases h

theorem outcome_on (get : τ → σ) (set : σ → τ → τ) (x : Act σ α) (t : τ) :
    (on get set x).outcome t = ((x.outcome (get t)).1, set (x.outcome (get t)).2 t) := by
  rw [outcome, outcome, on]
  cases x (get t) <;> rfl

theorem final_on (get : τ → σ) (set : σ → τ → τ) (x : Act σ α) (t : τ) :
    (on get set x).final t = set (x.final (get t)) t :=
  congrArg Prod.snd (outcome_on get set x t)

/-! ## Acts on a part of a state -/

/-- What is got of a part is what was set of it last, and setting it again forgets what it was. -/
structure IsPart (get : τ → σ) (set : σ → τ → τ) : Prop where
  get_set : ∀ s t, get (set s t) = s
  set_set : ∀ s s' t, set s' (set s t) = set s' t
  set_get : ∀ t, set (get t) t = t

namespace IsPart

variable {get : τ → σ} {set : σ → τ → τ} (h : IsPart get set)

include h

theorem on_pure (a : α) : on get set (pure a : Act σ α) = pure a := by
  funext t
  exact congrArg (EStateM.Result.ok a) (h.set_get t)

theorem on_throw (e : Failure) : on get set (throw e : Act σ α) = throw e := by
  funext t
  exact congrArg (EStateM.Result.error e) (h.set_get t)

theorem on_ofExcept (r : Except Failure α) :
    on get set (ofExcept r : Act σ α) = ofExcept r := by
  cases r with
  | ok a => exact h.on_pure a
  | error e => exact h.on_throw e

theorem on_bind (x : Act σ α) (f : α → Act σ β) :
    on get set (x >>= f) = on get set x >>= fun a => on get set (f a) := by
  funext t
  cases hx : x (get t) with
  | ok a s =>
    have hon : on get set x t = .ok a (set s t) := by rw [on, hx]
    rw [bind_run_ok hon, on, on, bind_run_ok hx, h.get_set]
    cases f a s with
    | ok b u => exact congrArg (EStateM.Result.ok b) (h.set_set s u t).symm
    | error e u => exact congrArg (EStateM.Result.error e) (h.set_set s u t).symm
  | error e s =>
    have hon : on get set x t = .error e (set s t) := by rw [on, hx]
    rw [bind_run_error hon, on, bind_run_error hx]

theorem on_mapM (f : α → Act σ β) :
    ∀ l : List α, on get set (l.mapM f) = l.mapM fun a => on get set (f a)
  | [] => by
    rw [List.mapM_nil, List.mapM_nil]
    exact h.on_pure []
  | a :: l => by
    rw [List.mapM_cons, List.mapM_cons, h.on_bind]
    refine congrArg _ (funext fun b => ?_)
    rw [h.on_bind, on_mapM f l]
    exact congrArg _ (funext fun bs => h.on_pure _)

theorem on_forM (f : α → Act σ Unit) :
    ∀ l : List α, on get set (l.forM f) = l.forM fun a => on get set (f a)
  | [] => h.on_pure ()
  | a :: l => by
    show on get set (f a >>= fun _ => l.forM f) = _
    rw [h.on_bind, on_forM f l]
    rfl

end IsPart

theorem on_attempt (get : τ → σ) (set : σ → τ → τ) (x : Act σ α) :
    on get set (attempt x) = attempt (on get set x) := by
  funext t
  rw [on, attempt, attempt, on]
  cases x (get t) <;> rfl

/-! ## Acts that move a state along a relation -/

/-- Wherever an act starts, where it ends is related to that. -/
def Within (R : σ → σ → Prop) (x : Act σ α) : Prop := ∀ s, R s (x.final s)

section Within

variable {R : σ → σ → Prop}

theorem Within.ok {x : Act σ α} (hx : Within R x) {s t : σ} {a : α} (h : x s = .ok a t) :
    R s t := final_ok h ▸ hx s

theorem Within.error {x : Act σ α} (hx : Within R x) {s t : σ} {e : Failure}
    (h : x s = .error e t) : R s t := final_error h ▸ hx s

theorem within_of {x : Act σ α} (hok : ∀ s a t, x s = .ok a t → R s t)
    (herror : ∀ s e t, x s = .error e t → R s t) : Within R x := by
  intro s
  cases h : x s with
  | ok a t => exact final_ok h ▸ hok s a t h
  | error e t => exact final_error h ▸ herror s e t h

theorem Within.attempt {x : Act σ α} (hx : Within R x) : Within R (attempt x) := by
  intro s
  cases h : x s with
  | ok a t => exact final_ok (attempt_run_ok h) ▸ hx.ok h
  | error e t => exact final_ok (attempt_run_error h) ▸ hx.error h

theorem within_pure [Std.Refl R] (a : α) : Within R (pure a : Act σ α) := fun s =>
  Std.Refl.refl s

theorem within_throw [Std.Refl R] (e : Failure) : Within R (throw e : Act σ α) := fun s =>
  Std.Refl.refl s

theorem within_get [Std.Refl R] : Within R (get : Act σ σ) := fun s => Std.Refl.refl s

theorem within_ofExcept [Std.Refl R] (r : Except Failure α) :
    Within R (ofExcept r : Act σ α) := by
  cases r with
  | ok a => exact within_pure a
  | error e => exact within_throw e

theorem Within.bind [IsTrans σ R] {x : Act σ α} {f : α → Act σ β} (hx : Within R x)
    (hf : ∀ a, Within R (f a)) : Within R (x >>= f) := by
  intro s
  cases h : x s with
  | ok a t => exact final_bind_ok (f := f) h ▸ IsTrans.trans _ _ _ (hx.ok h) (hf a t)
  | error e t => exact final_error (bind_run_error h) ▸ hx.error h

theorem within_mapM [Std.Refl R] [IsTrans σ R] {f : α → Act σ β} (hf : ∀ a, Within R (f a)) :
    ∀ l : List α, Within R (l.mapM f)
  | [] => by
    rw [List.mapM_nil]
    exact within_pure _
  | a :: l => by
    rw [List.mapM_cons]
    exact (hf a).bind fun b => (within_mapM hf l).bind fun bs => within_pure _

theorem within_forM [Std.Refl R] [IsTrans σ R] {f : α → Act σ Unit} (hf : ∀ a, Within R (f a)) :
    ∀ l : List α, Within R (l.forM f)
  | [] => within_pure ()
  | a :: l => (hf a).bind fun _ => within_forM hf l

theorem within_foldlM [Std.Refl R] [IsTrans σ R] {f : β → α → Act σ β}
    (hf : ∀ b a, Within R (f b a)) : ∀ (l : List α) (b : β), Within R (l.foldlM f b)
  | [], b => by
    rw [List.foldlM_nil]
    exact within_pure _
  | a :: l, b => by
    rw [List.foldlM_cons]
    exact (hf b a).bind fun c => within_foldlM hf l c

end Within

end Act

end CrossChain
