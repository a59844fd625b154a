import CrossChain.Proofs.Act
import Mathlib.Logic.Function.Basic

/-!
# Noted acts

An act whose end is noted in a log leaves one entry there, whether it succeeds or fails (`Notes`).
Acts on a log can be told by the entries that they add (`Adds`), and by these together with how they
end (`Leaves`).  A loop of such acts over things with different keys leaves the entries of all its
acts, or those up to the first that fails (`mapM_of_notes`, `forM_of_notes`).
-/

namespace CrossChain

/-- What stands in two lists one after the other stands in the second, or in the first with the
second after what follows it there. -/
theorem List.split_append_cons {α : Type} {l l' before after : List α} {x : α}
    (h : l ++ l' = before ++ x :: after) :
    (∃ before', before = l ++ before' ∧ l' = before' ++ x :: after) ∨
      ∃ rest, l = before ++ x :: rest ∧ after = rest ++ l' := by
  rcases List.append_eq_append_iff.1 h with ⟨before', hbefore, hl'⟩ | ⟨rest, hl, hrest⟩
  · exact .inl ⟨before', hbefore, hl'⟩
  · cases rest with
    | nil => exact .inl ⟨[], by rw [hl, List.append_nil, List.append_nil], hrest.symm⟩
    | cons y rest =>
      obtain ⟨rfl, hafter⟩ := List.cons.inj hrest
      exact .inr ⟨rest, hl, hafter⟩

namespace Logged

variable {ε σ κ α β : Type}

theorem lift_run_ok {x : Act σ α} {s : Logged ε σ} {a : α} {t : σ} (h : x s.inner = .ok a t) :
    lift x s = .ok a ⟨s.log, t⟩ := by rw [lift, Act.on, h]

theorem lift_run_error {x : Act σ α} {s : Logged ε σ} {e : Failure} {t : σ}
    (h : x s.inner = .error e t) : lift x s = .error e ⟨s.log, t⟩ := by rw [lift, Act.on, h]

/-- An act on the state without its log, with its end noted. -/
def noting (entry : Except Failure α → ε) (x : Act σ α) : Act (Logged ε σ) α := do
  let ended ← Act.attempt (lift x)
  record (entry ended)
  Act.ofExcept ended

theorem noting_run_ok {entry : Except Failure α → ε} {x : Act σ α} {s : Logged ε σ} {a : α} {t : σ}
    (h : x s.inner = .ok a t) : noting entry x s = .ok a ⟨s.log ++ [entry (.ok a)], t⟩ := by
  rw [noting, Act.bind_run_ok (Act.attempt_run_ok (lift_run_ok h))]
  rfl

theorem noting_run_error {entry : Except Failure α → ε} {x : Act σ α} {s : Logged ε σ}
    {e : Failure} {t : σ} (h : x s.inner = .error e t) :
    noting entry x s = .error e ⟨s.log ++ [entry (.error e)], t⟩ := by
  rw [noting, Act.bind_run_ok (Act.attempt_run_error (lift_run_error h))]
  rfl

/-- An act adds one entry to the log: that of how it ended. -/
def Notes (entry : Except Failure α → ε) (x : Act (Logged ε σ) α) : Prop :=
  ∀ s, (∃ a t, x s = .ok a ⟨s.log ++ [entry (.ok a)], t⟩) ∨
    ∃ e t, x s = .error e ⟨s.log ++ [entry (.error e)], t⟩

theorem notes_noting (entry : Except Failure α → ε) (x : Act σ α) :
    Notes entry (noting entry x) := by
  intro s
  cases h : x s.inner with
  | ok a t => exact .inl ⟨a, t, noting_run_ok h⟩
  | error e t => exact .inr ⟨e, t, noting_run_error h⟩

/-- An act on the state without its log stays in a relation of states with the same log. -/
theorem within_lift {R : Logged ε σ → Logged ε σ → Prop} (hR : ∀ s t, t.log = s.log → R s t)
    (x : Act σ α) : Act.Within R (lift x) := by
  refine Act.within_of (fun s a t h => hR s t ?_) fun s e t h => hR s t ?_ <;>
    rw [lift, Act.on] at h <;> split at h <;> cases h <;> rfl

/-! ## Entries that are added -/

/-- A log goes on from another by entries that all satisfy `P`. -/
def Adds (P : ε → Prop) (s t : Logged ε σ) : Prop := ∃ l, t.log = s.log ++ l ∧ ∀ x ∈ l, P x

section Adds

variable {P : ε → Prop}

instance adds_refl : Std.Refl (Adds P : Logged ε σ → Logged ε σ → Prop) where
  refl _ := ⟨[], (List.append_nil _).symm, fun _ h => absurd h List.not_mem_nil⟩

instance adds_trans : IsTrans (Logged ε σ) (Adds P) where
  trans s t u := by
    rintro ⟨l, hl, hP⟩ ⟨l', hl', hP'⟩
    refine ⟨l ++ l', by rw [hl', hl, List.append_assoc], fun x hx => ?_⟩
    exact (List.mem_append.1 hx).elim (hP x) (hP' x)

theorem adds_singleton {s : Logged ε σ} {x : ε} (t : σ) (hx : P x) : Adds P s ⟨s.log ++ [x], t⟩ :=
  ⟨[x], rfl, fun _ h => List.mem_singleton.1 h ▸ hx⟩

theorem within_adds_noting {entry : Except Failure α → ε} {x : Act σ α}
    (h : ∀ s, P (entry (x.outcome s).1)) : Act.Within (Adds P) (noting entry x) := by
  intro s
  have hs := h s.inner
  cases hx : x s.inner with
  | ok a t =>
    rw [Act.outcome, hx] at hs
    exact Act.final_ok (noting_run_ok hx) ▸ adds_singleton t hs
  | error e t =>
    rw [Act.outcome, hx] at hs
    exact Act.final_error (noting_run_error hx) ▸ adds_singleton t hs

theorem within_adds_lift (x : Act σ α) : Act.Within (Adds P) (lift (ε := ε) x) :=
  within_lift (fun _ _ h => ⟨[], by rw [h, List.append_nil], nofun⟩) x

end Adds

/-! ## What acts leave -/

/-- However an act ends, the entries that it adds and its end satisfy `P`. -/
def Leaves (P : List ε → Except Failure α → Prop) (x : Act (Logged ε σ) α) : Prop :=
  ∀ s, ∃ l r t, Act.outcome x s = (r, ⟨s.log ++ l, t⟩) ∧ P l r

section Leaves

variable {P : List ε → Except Failure α → Prop} {R : List ε → Except Failure β → Prop}
  {x : Act (Logged ε σ) α} {f : α → Act (Logged ε σ) β}

theorem Leaves.mono {P' : List ε → Except Failure α → Prop} (hx : Leaves P x)
    (h : ∀ l r, P l r → P' l r) : Leaves P' x := by
  intro s
  obtain ⟨l, r, t, hrun, hP⟩ := hx s
  exact ⟨l, r, t, hrun, h l r hP⟩

theorem Leaves.and {P' : List ε → Except Failure α → Prop} (hx : Leaves P x)
    (hx' : Leaves P' x) : Leaves (fun l r => P l r ∧ P' l r) x := by
  intro s
  obtain ⟨l, r, t, hrun, hP⟩ := hx s
  obtain ⟨l', r', t', hrun', hP'⟩ := hx' s
  obtain ⟨rfl, hstate⟩ := Prod.mk.inj (hrun.symm.trans hrun')
  obtain rfl := List.append_cancel_left (congrArg Logged.log hstate)
  exact ⟨l, r, t, hrun, hP, hP'⟩

theorem leaves_ofExcept {r : Except Failure α} (h : P [] r) :
    Leaves P (Act.ofExcept r : Act (Logged ε σ) α) := by
  intro s
  refine ⟨[], r, s.inner, ?_, h⟩
  rw [List.append_nil]
  cases r <;> rfl

theorem leaves_pure {a : α} (h : P [] (.ok a)) : Leaves P (pure a : Act (Logged ε σ) α) :=
  leaves_ofExcept h

theorem leaves_throw {e : Failure} (h : P [] (.error e)) :
    Leaves P (throw e : Act (Logged ε σ) α) := leaves_ofExcept h

theorem leaves_throw_bind {e : Failure} (h : R [] (.error e)) :
    Leaves R (throw e >>= f : Act (Logged ε σ) β) := by
  intro s
  refine ⟨[], .error e, s.inner, ?_, h⟩
  rw [List.append_nil]
  rfl

theorem leaves_ite {b : Bool} {y : Act (Logged ε σ) α} (hx : b = true → Leaves P x)
    (hy : b = false → Leaves P y) : Leaves P (if b = true then x else y) := by
  cases b with
  | true => exact hx rfl
  | false => exact hy rfl

theorem leaves_of_notes {entry : Except Failure α → ε} (hx : Notes entry x)
    (h : ∀ r, P [entry r] r) : Leaves P x := by
  intro s
  rcases hx s with ⟨a, t, hrun⟩ | ⟨e, t, hrun⟩
  · exact ⟨_, .ok a, t, by rw [Act.outcome, hrun], h (.ok a)⟩
  · exact ⟨_, .error e, t, by rw [Act.outcome, hrun], h (.error e)⟩

theorem leaves_of_adds {Q : ε → Prop} (hx : Act.Within (Adds Q) x) :
    Leaves (fun l _ => ∀ y ∈ l, Q y) x := by
  intro s
  obtain ⟨l, hlog, hQ⟩ := hx s
  refine ⟨l, (Act.outcome x s).1, (x.final s).inner, ?_, hQ⟩
  rw [← hlog]
  rfl

/-- What comes after an act is asked what the whole is asked, with the entries of the act before its
own. -/
theorem Leaves.bind (hx : Leaves P x) (herror : ∀ l e, P l (.error e) → R l (.error e))
    (hf : ∀ l a, P l (.ok a) → Leaves (fun l' r => R (l ++ l') r) (f a)) :
    Leaves R (x >>= f) := by
  intro s
  obtain ⟨l, r, t, hrun, hP⟩ := hx s
  cases r with
  | error e =>
    refine ⟨l, .error e, t, ?_, herror l e hP⟩
    rw [Act.outcome, Act.bind_run_error (Act.run_of_outcome_error hrun)]
  | ok a =>
    obtain ⟨l', r', u, hrun', hR⟩ := hf l a hP ⟨s.log ++ l, t⟩
    refine ⟨l ++ l', r', u, ?_, hR⟩
    rw [Act.outcome, Act.bind_run_ok (Act.run_of_outcome_ok hrun), ← List.append_assoc]
    exact hrun'

/-- What comes after a computation is done if it went well. -/
theorem leaves_ofExcept_bind_cases {r : Except Failure α}
    (herror : ∀ e, r = .error e → R [] (.error e)) (hok : ∀ a, r = .ok a → Leaves R (f a)) :
    Leaves R (Act.ofExcept r >>= f) := by
  cases r with
  | error e => exact leaves_throw_bind (herror e rfl)
  | ok a => exact hok a rfl

theorem leaves_ofExcept_bind {r : Except Failure α} (herror : ∀ e, R [] (.error e))
    (hf : ∀ a, r = .ok a → Leaves R (f a)) : Leaves R (Act.ofExcept r >>= f) :=
  leaves_ofExcept_bind_cases (fun e _ => herror e) hf

/-- An act that is only attempted leaves the same, and its end is what it gives. -/
theorem Leaves.attempt (hx : Leaves P x) :
    Leaves (fun l r => ∃ r', P l r' ∧ r = .ok r') (Act.attempt x) := by
  intro s
  obtain ⟨l, r, t, hrun, hP⟩ := hx s
  refine ⟨l, .ok r, t, ?_, r, hP, rfl⟩
  rw [Act.outcome_ok (Act.attempt_run x s), hrun]

theorem Notes.bind {entry : Except Failure α → ε} (hx : Notes entry x)
    (herror : ∀ e, R [entry (.error e)] (.error e))
    (hf : ∀ a, Leaves (fun l r => R (entry (.ok a) :: l) r) (f a)) : Leaves R (x >>= f) := by
  refine Leaves.bind (P := fun l r => l = [entry r]) (leaves_of_notes hx fun _ => rfl) ?_ ?_
  · rintro l e rfl
    exact herror e
  · rintro l a rfl
    exact hf a

/-- Entries that make no difference may come before. -/
theorem Leaves.after {Q : ε → Prop} (hx : Leaves (fun l _ => ∀ y ∈ l, Q y) x)
    (herror : ∀ l e, (∀ y ∈ l, Q y) → R l (.error e))
    (hprepend : ∀ l l' r, (∀ y ∈ l, Q y) → R l' r → R (l ++ l') r)
    (hf : ∀ a, Leaves R (f a)) : Leaves R (x >>= f) :=
  hx.bind herror fun l a hl => (hf a).mono fun l' r => hprepend l l' r hl

end Leaves

/-! ## Loops -/

section Loops

variable {key : α → κ} {act : α → Act (Logged ε σ) β}
  {entry : α → Except Failure β → ε}

/-- The entries of acts that all succeeded, with what each gave for the key of its thing. -/
def entries (key : α → κ) (entry : α → Except Failure β → ε) (answer : κ → β) (l : List α) :
    List ε := l.map fun a => entry a (.ok (answer (key a)))

theorem entries_cons (answer : κ → β) (a : α) (l : List α) :
    entries key entry answer (a :: l) =
      entry a (.ok (answer (key a))) :: entries key entry answer l := rfl

theorem entries_update [DecidableEq κ] {answer : κ → β} {k : κ} {b : β} {l : List α}
    (h : k ∉ l.map key) :
    entries key entry (Function.update answer k b) l = entries key entry answer l := by
  apply List.map_congr_left
  intro a ha
  have hk : key a ≠ k := fun e => h (e ▸ List.mem_map_of_mem ha)
  rw [Function.update_of_ne hk]

/-- What a loop over `l` from `s` comes to: all acts succeeded and `ok` of their answers is the
result, or the act of the first thing after `done` failed and so did the loop. -/
inductive Looped (key : α → κ) (entry : α → Except Failure β → ε) (l : List α)
    {γ : Type} (ok : (κ → β) → γ) (s : Logged ε σ) : EStateM.Result Failure (Logged ε σ) γ → Prop
  | all (answer : κ → β) (t : σ) :
    Looped key entry l ok s (.ok (ok answer) ⟨s.log ++ entries key entry answer l, t⟩)
  | upTo (answer : κ → β) (done : List α) (a : α) (rest : List α) (e : Failure) (t : σ)
    (split : l = done ++ a :: rest) :
    Looped key entry l ok s
      (.error e ⟨s.log ++ entries key entry answer done ++ [entry a (.error e)], t⟩)

theorem Looped.nil [Nonempty β] {γ : Type} {ok : (κ → β) → γ} {c : γ}
    (hok : ∀ answer, ok answer = c)
    (s : Logged ε σ) : Looped key entry [] ok s (.ok c s) := by
  have h : Looped key entry [] ok s (.ok (ok _) ⟨s.log ++ entries key entry _ [], s.inner⟩) :=
    .all (fun _ => Classical.ofNonempty) s.inner
  rwa [hok, entries, List.map_nil, List.append_nil] at h

/-- The loop over a thing whose act succeeded and those after it. -/
theorem Looped.cons [DecidableEq κ] {γ δ : Type} {a : α} {l : List α} {b : β} {s : Logged ε σ}
    {t : σ}
    {ok : (κ → β) → γ} {ok' : (κ → β) → δ} {x : Act (Logged ε σ) γ} {f : γ → δ}
    (ha : key a ∉ l.map key)
    (hok : ∀ answer, f (ok answer) = ok' (Function.update answer (key a) b))
    (hx : Looped key entry l ok ⟨s.log ++ [entry a (.ok b)], t⟩
      (x ⟨s.log ++ [entry a (.ok b)], t⟩)) :
    Looped key entry (a :: l) ok' s
      ((x >>= fun c => pure (f c)) ⟨s.log ++ [entry a (.ok b)], t⟩) := by
  have hentries : ∀ answer (done : List α), key a ∉ done.map key →
      s.log ++ [entry a (.ok b)] ++ entries key entry answer done =
        s.log ++ entries key entry (Function.update answer (key a) b) (a :: done) := by
    intro answer done hdone
    rw [entries_cons, entries_update hdone, Function.update_self, List.append_assoc,
      List.singleton_append]
  generalize hr : x ⟨s.log ++ [entry a (.ok b)], t⟩ = r at hx
  cases hx with
  | all answer u =>
    rw [Act.bind_run_ok hr, hok, hentries answer l ha]
    exact .all _ u
  | upTo answer done a' rest e u split =>
    have hdone : key a ∉ done.map key := by
      rw [split, List.map_append] at ha
      exact fun h => ha (List.mem_append_left _ h)
    rw [Act.bind_run_error hr, hentries answer done hdone]
    exact .upTo _ (a :: done) a' rest e u (by rw [split, List.cons_append])

theorem Looped.of_error {γ : Type} {a : α} {l : List α} {ok : (κ → β) → γ} {s : Logged ε σ}
    [Nonempty β] (e : Failure) (t : σ) :
    Looped key entry (a :: l) ok s (.error e ⟨s.log ++ [entry a (.error e)], t⟩) := by
  have h : Looped key entry (a :: l) ok s
      (.error e ⟨s.log ++ entries key entry _ [] ++ [entry a (.error e)], t⟩) :=
    .upTo (fun _ => Classical.ofNonempty) [] a l e t rfl
  rwa [entries, List.map_nil, List.append_nil] at h

theorem mapM_of_notes [DecidableEq κ] [Nonempty β] (key : α → κ)
    (hact : ∀ a, Notes (entry a) (act a)) :
    ∀ (l : List α), (l.map key).Nodup → ∀ s : Logged ε σ,
      Looped key entry l (fun answer => l.map fun a => (key a, answer (key a))) s
        ((l.mapM fun a => return (key a, ← act a)) s)
  | [], _, s => by
    rw [List.mapM_nil]
    exact Looped.nil (fun _ => rfl) s
  | a :: l, hl, s => by
    obtain ⟨ha, hl⟩ := List.nodup_cons.1 hl
    rw [List.mapM_cons]
    rcases hact a s with ⟨b, t, hb⟩ | ⟨e, t, he⟩
    · have hpair : (do let b ← act a; pure (key a, b)) s = .ok (key a, b) _ := Act.bind_run_ok hb
      rw [Act.bind_run_ok hpair]
      refine Looped.cons ha (fun answer => ?_) (mapM_of_notes key hact l hl _)
      rw [List.map_cons, Function.update_self]
      apply congrArg
      apply List.map_congr_left
      intro a' ha'
      have hk : key a' ≠ key a := fun e => ha (e ▸ List.mem_map_of_mem ha')
      rw [Function.update_of_ne hk]
    · have hpair : (do let b ← act a; pure (key a, b)) s = .error e _ := Act.bind_run_error he
      rw [Act.bind_run_error hpair]
      exact Looped.of_error e t

theorem forM_of_notes [DecidableEq κ] [Nonempty β] (key : α → κ)
    (hact : ∀ a, Notes (entry a) (act a)) :
    ∀ (l : List α), (l.map key).Nodup → ∀ s : Logged ε σ,
      Looped key entry l (fun _ => ()) s ((l.forM fun a => discard (act a)) s)
  | [], _, s => Looped.nil (fun _ => rfl) s
  | a :: l, hl, s => by
    obtain ⟨ha, hl⟩ := List.nodup_cons.1 hl
    rw [List.forM]
    rcases hact a s with ⟨b, t, hb⟩ | ⟨e, t, he⟩
    · have hunit : (discard (act a)) s = .ok () _ := Act.bind_run_ok hb
      rw [Act.bind_run_ok hunit]
      have h : Looped key entry (a :: l) (fun _ => ()) s
          ((l.forM (fun a => discard (act a)) >>= fun u => pure u)
            ⟨s.log ++ [entry a (.ok b)], t⟩) :=
        Looped.cons ha (fun _ => rfl) (forM_of_notes key hact l hl _)
      rwa [bind_pure] at h
    · have hunit : (discard (act a)) s = .error e _ := Act.bind_run_error he
      rw [Act.bind_run_error hunit]
      exact Looped.of_error e t

end Loops

end Logged

end CrossChain
