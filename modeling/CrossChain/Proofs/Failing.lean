import CrossChain.Proofs.Act
import Mathlib.Data.List.Forall2

/-!
# Failures of one kind

Computations and acts that fail with failures of one kind only.  What a sequence of steps fails with
is what its steps fail with, each where those before it went well (`failsOnly_bind`,
`failsOnly_forM`, `failsOnly_mapM`, `Act.failsOnly_bind`).
-/

namespace CrossChain

variable {P : Failure → Prop} {α β : Type}

/-! ## Computations -/

/-- Nothing but failures of the kind come out. -/
def FailsOnly (P : Failure → Prop) (r : Except Failure α) : Prop := ∀ e, r = .error e → P e

theorem failsOnly_ok (a : α) : FailsOnly P (.ok a) := nofun

theorem failsOnly_error {e : Failure} : FailsOnly P (.error e : Except Failure α) ↔ P e :=
  ⟨fun h => h e rfl, fun h _ he => Except.error.inj he ▸ h⟩

theorem failsOnly_bind {r : Except Failure α} {f : α → Except Failure β} :
    FailsOnly P (r >>= f) ↔ FailsOnly P r ∧ ∀ a, r = .ok a → FailsOnly P (f a) := by
  cases r with
  | error e =>
    have hbind : (Except.error e : Except Failure α) >>= f = .error e := rfl
    rw [hbind, failsOnly_error, failsOnly_error]
    exact ⟨fun h => ⟨h, nofun⟩, And.left⟩
  | ok a =>
    refine ⟨fun h => ⟨failsOnly_ok a, fun b hb => ?_⟩, fun h => h.2 a rfl⟩
    cases hb
    exact h

/-- Where no failure is of the kind, only success is left. -/
theorem failsOnly_iff_ok {r : Except Failure α} (h : FailsOnly (fun e => ¬ P e) r) :
    FailsOnly P r ↔ ∃ a, r = .ok a := by
  cases r with
  | ok a => exact ⟨fun _ => ⟨a, rfl⟩, fun _ => failsOnly_ok a⟩
  | error e =>
    rw [failsOnly_error] at h ⊢
    exact ⟨fun he => absurd he h, nofun⟩

/-- What holds of the first item, and of the others if that one is well, holds of every item whose
predecessors are well. -/
theorem forall_split_cons {Q : α → Prop} {well : α → Prop} {x : α} {l : List α} :
    (∀ before a after, x :: l = before ++ a :: after → (∀ b ∈ before, well b) → Q a) ↔
      Q x ∧
        (well x → ∀ before a after, l = before ++ a :: after → (∀ b ∈ before, well b) → Q a) := by
  constructor
  · intro h
    refine ⟨h [] x l rfl nofun, fun hx before a after hsplit hbefore => ?_⟩
    refine h (x :: before) a after (by rw [hsplit]; rfl) ?_
    exact List.forall_mem_cons.2 ⟨hx, hbefore⟩
  · rintro ⟨hx, hl⟩ before a after hsplit hbefore
    cases before with
    | nil =>
      obtain ⟨rfl, rfl⟩ := List.cons.inj hsplit
      exact hx
    | cons b before =>
      obtain ⟨rfl, rfl⟩ := List.cons.inj hsplit
      obtain ⟨hb, hbefore⟩ := List.forall_mem_cons.1 hbefore
      exact hl hb before a after rfl hbefore

theorem forall_split_nil {Q : α → Prop} {well : α → Prop} :
    ∀ before a after, ([] : List α) = before ++ a :: after → (∀ b ∈ before, well b) → Q a :=
  fun _ _ _ h => absurd h.symm (List.append_ne_nil_of_right_ne_nil _ (List.cons_ne_nil _ _))

theorem failsOnly_forM {f : α → Except Failure Unit} {l : List α} :
    FailsOnly P (l.forM f) ↔ ∀ before a after, l = before ++ a :: after →
      (∀ b ∈ before, f b = .ok ()) → FailsOnly P (f a) := by
  induction l with
  | nil => exact ⟨fun _ => forall_split_nil, fun _ => failsOnly_ok ()⟩
  | cons x l ih =>
    have hcons : (x :: l).forM f = f x >>= fun _ => l.forM f := rfl
    rw [hcons, failsOnly_bind, forall_split_cons, ← ih]
    exact and_congr_right fun _ => ⟨fun h => h (), fun h _ => h⟩

theorem forM_eq_ok {f : α → Except Failure Unit} {l : List α} :
    l.forM f = .ok () ↔ ∀ a ∈ l, f a = .ok () := by
  induction l with
  | nil => exact ⟨fun _ => nofun, fun _ => rfl⟩
  | cons x l ih =>
    have hcons : (x :: l).forM f = f x >>= fun _ => l.forM f := rfl
    rw [hcons, List.forall_mem_cons, ← ih]
    cases f x with
    | error e => exact ⟨nofun, nofun⟩
    | ok a => exact ⟨fun h => ⟨rfl, h⟩, And.right⟩

/-- What comes after the first item that fails is not looked at. -/
theorem forM_eq_of_split {f : α → Except Failure Unit} {before after : List α} {a : α} {e : Failure}
    (hbefore : ∀ b ∈ before, f b = .ok ()) (ha : f a = .error e) :
    (before ++ a :: after).forM f = .error e := by
  induction before with
  | nil =>
    show (f a >>= fun _ => after.forM f) = .error e
    rw [ha]
    rfl
  | cons b before ih =>
    obtain ⟨hb, hbefore⟩ := List.forall_mem_cons.1 hbefore
    show (f b >>= fun _ => (before ++ a :: after).forM f) = .error e
    rw [hb]
    exact ih hbefore

/-- Where not every item is well there is a first one that is not. -/
theorem exists_split_of_not_forall {well : α → Prop} {l : List α} (h : ¬ ∀ a ∈ l, well a) :
    ∃ before a after, l = before ++ a :: after ∧ (∀ b ∈ before, well b) ∧ ¬ well a := by
  induction l with
  | nil => exact absurd (fun _ => nofun) h
  | cons x l ih =>
    by_cases hx : well x
    · obtain ⟨before, a, after, rfl, hbefore, ha⟩ :=
        ih fun hl => h (List.forall_mem_cons.2 ⟨hx, hl⟩)
      exact ⟨x :: before, a, after, rfl, List.forall_mem_cons.2 ⟨hx, hbefore⟩, ha⟩
    · exact ⟨[], x, l, rfl, nofun, hx⟩

theorem failsOnly_mapM {f : α → Except Failure β} {l : List α} :
    FailsOnly P (l.mapM f) ↔ ∀ before a after, l = before ++ a :: after →
      (∀ b ∈ before, ∃ c, f b = .ok c) → FailsOnly P (f a) := by
  induction l with
  | nil => exact ⟨fun _ => forall_split_nil, fun _ => failsOnly_ok []⟩
  | cons x l ih =>
    rw [List.mapM_cons, failsOnly_bind, forall_split_cons, ← ih]
    refine and_congr_right fun _ => ⟨?_, ?_⟩
    · rintro h ⟨c, hc⟩
      exact (failsOnly_bind.1 (h c hc)).1
    · intro h c hc
      exact failsOnly_bind.2 ⟨h ⟨c, hc⟩, fun cs _ => failsOnly_ok (c :: cs)⟩

theorem exists_mapM_ok {f : α → Except Failure β} {l : List α} :
    (∃ bs, l.mapM f = .ok bs) ↔ ∀ a ∈ l, ∃ b, f a = .ok b := by
  induction l with
  | nil => exact ⟨fun _ => nofun, fun _ => ⟨[], rfl⟩⟩
  | cons x l ih =>
    rw [List.mapM_cons, List.forall_mem_cons, ← ih]
    constructor
    · rintro ⟨bs, h⟩
      obtain ⟨b, hb, hrest⟩ := Act.except_bind_eq_ok h
      obtain ⟨bs', hbs, -⟩ := Act.except_bind_eq_ok hrest
      exact ⟨⟨b, hb⟩, bs', hbs⟩
    · rintro ⟨⟨b, hb⟩, bs, hbs⟩
      exact ⟨b :: bs, by rw [hb, hbs]; rfl⟩

theorem mapM_eq_ok_iff {f : α → Except Failure β} {l : List α} {bs : List β} :
    l.mapM f = .ok bs ↔ List.Forall₂ (fun a b => f a = .ok b) l bs := by
  induction l generalizing bs with
  | nil =>
    rw [List.mapM_nil, List.forall₂_nil_left_iff]
    exact ⟨fun h => (Except.ok.inj h).symm, fun h => h ▸ rfl⟩
  | cons x l ih =>
    rw [List.mapM_cons]
    constructor
    · intro h
      obtain ⟨b, hb, hrest⟩ := Act.except_bind_eq_ok h
      obtain ⟨bs', hbs, ⟨⟩⟩ := Act.except_bind_eq_ok hrest
      exact .cons hb (ih.1 hbs)
    · rintro (_ | ⟨hb, hbs⟩)
      rw [hb, ih.2 hbs]
      rfl

/-- What comes after the first item that fails is not looked at. -/
theorem mapM_eq_of_split {f : α → Except Failure β} {before after : List α} {a : α} {e : Failure}
    (hbefore : ∀ b ∈ before, ∃ c, f b = .ok c) (ha : f a = .error e) :
    (before ++ a :: after).mapM f = .error e := by
  induction before with
  | nil =>
    rw [List.nil_append, List.mapM_cons, ha]
    rfl
  | cons b before ih =>
    obtain ⟨⟨c, hc⟩, hbefore⟩ := List.forall_mem_cons.1 hbefore
    rw [List.cons_append, List.mapM_cons, hc, ih hbefore]
    rfl

/-! ## Acts -/

namespace Act

variable {σ : Type} {s : σ}

/-- From this state on nothing but failures of the kind come out. -/
def FailsOnly (P : Failure → Prop) (x : Act σ α) (s : σ) : Prop := ∀ e t, x s = .error e t → P e

theorem failsOnly_pure (a : α) : FailsOnly P (pure a : Act σ α) s := nofun

theorem failsOnly_ofExcept {r : Except Failure α} :
    FailsOnly P (ofExcept r : Act σ α) s ↔ CrossChain.FailsOnly P r := by
  cases r with
  | ok a => exact ⟨fun _ => failsOnly_ok a, fun _ => failsOnly_pure a⟩
  | error e =>
    rw [failsOnly_error]
    constructor
    · exact fun h => h e s rfl
    · intro h e' t he
      cases he
      exact h

theorem failsOnly_bind {x : Act σ α} {f : α → Act σ β} :
    FailsOnly P (x >>= f) s ↔
      FailsOnly P x s ∧ ∀ a t, x s = .ok a t → FailsOnly P (f a) t := by
  cases hx : x s with
  | error e t =>
    have hbind : (x >>= f) s = .error e t := bind_run_error hx
    have herror : ∀ {γ : Type}, (∀ e' t', (.error e t : EStateM.Result Failure σ γ) =
        .error e' t' → P e') ↔ P e := by
      refine fun {γ} => ⟨fun h => h e t rfl, fun h e' t' heq => ?_⟩
      cases heq
      exact h
    simp only [FailsOnly, hbind, hx, herror]
    exact ⟨fun h => ⟨h, nofun⟩, And.left⟩
  | ok a t =>
    have hbind : (x >>= f) s = f a t := bind_run_ok hx
    simp only [FailsOnly, hbind, hx]
    constructor
    · refine fun h => ⟨nofun, fun a' t' heq => ?_⟩
      cases heq
      exact h
    · exact fun h => h.2 a t rfl

/-- Where what follows cannot fail otherwise, all is up to the first act. -/
theorem failsOnly_bind_of_forall {x : Act σ α} {f : α → Act σ β}
    (hf : ∀ a t, FailsOnly P (f a) t) : FailsOnly P (x >>= f) s ↔ FailsOnly P x s := by
  rw [failsOnly_bind]
  exact ⟨And.left, fun hx => ⟨hx, fun a t _ => hf a t⟩⟩

/-- A fold fails as the first of its steps that fails, each from where those before it ended. -/
theorem failsOnly_foldlM {f : β → α → Act σ β} {l : List α} {b : β} :
    FailsOnly P (l.foldlM f b) s ↔ ∀ before a after, l = before ++ a :: after →
      ∀ c t, before.foldlM f b s = .ok c t → FailsOnly P (f c a) t := by
  induction l generalizing b s with
  | nil =>
    refine ⟨fun _ before a after h => ?_, fun _ => failsOnly_pure b⟩
    exact absurd h.symm (List.append_ne_nil_of_right_ne_nil _ (List.cons_ne_nil _ _))
  | cons x l ih =>
    rw [List.foldlM_cons, failsOnly_bind]
    constructor
    · rintro ⟨hx, hl⟩ before a after hsplit c t hbefore
      cases before with
      | nil =>
        obtain ⟨rfl, rfl⟩ := List.cons.inj hsplit
        cases hbefore
        exact hx
      | cons y before =>
        obtain ⟨rfl, rfl⟩ := List.cons.inj hsplit
        rw [List.foldlM_cons] at hbefore
        obtain ⟨c', u, hstep, hrest⟩ := bind_eq_ok hbefore
        exact ih.1 (hl c' u hstep) before a after rfl c t hrest
    · intro h
      refine ⟨h [] x l rfl b s rfl, fun c' u hstep => ih.2 ?_⟩
      intro before a after hsplit c t hbefore
      refine h (x :: before) a after (by rw [hsplit]; rfl) c t ?_
      rw [List.foldlM_cons, bind_run_ok hstep]
      exact hbefore

end Act

end CrossChain
