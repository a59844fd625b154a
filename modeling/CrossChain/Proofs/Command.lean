import CrossChain.Command
import CrossChain.Proofs.Log

/-!
# Runs at a site

What acts on the files or on the outside world do to a site, and what a command prints of its lines
and of such acts.
-/

namespace CrossChain

/-! ## Sites -/

namespace Site

variable {σ α : Type}

theorem onFiles_run_ok {x : Act FileTree α} {s : Site σ} {a : α} {t : FileTree}
    (h : x s.files = .ok a t) : (onFiles x : Act (Site σ) α) s = .ok a ⟨t, s.outside⟩ := by
  rw [onFiles, Act.on, h]

theorem onFiles_run_error {x : Act FileTree α} {s : Site σ} {e : Failure} {t : FileTree}
    (h : x s.files = .error e t) : (onFiles x : Act (Site σ) α) s = .error e ⟨t, s.outside⟩ := by
  rw [onFiles, Act.on, h]

theorem ofFiles_run_ok {f : FileTree → Except Failure α} {s : Site σ} {a : α}
    (h : f s.files = .ok a) : ofFiles f s = .ok a s := by
  rw [ofFiles, Act.get_bind, h]
  rfl

theorem onOutside_run_ok {x : Act σ α} {s : Site σ} {a : α} {t : σ} (h : x s.outside = .ok a t) :
    onOutside x s = .ok a ⟨s.files, t⟩ := by rw [onOutside, Act.on, h]

theorem onOutside_run_error {x : Act σ α} {s : Site σ} {e : Failure} {t : σ}
    (h : x s.outside = .error e t) : onOutside x s = .error e ⟨s.files, t⟩ := by
  rw [onOutside, Act.on, h]

end Site

/-! ## Commands -/

namespace Command

variable {σ α : Type}

theorem printLine_run (line : Text) (s : Logged Text (Site σ)) :
    printLine line s = .ok () ⟨s.log ++ [line], s.inner⟩ := rfl

/-- Lines are printed in their order. -/
theorem forM_printLine_run (lines : List Text) (s : Logged Text (Site σ)) :
    lines.forM printLine s = .ok () ⟨s.log ++ lines, s.inner⟩ := by
  induction lines generalizing s with
  | nil => rw [List.append_nil]; rfl
  | cons line lines ih =>
    have hrest := ih ⟨s.log ++ [line], s.inner⟩
    rw [List.append_assoc, List.singleton_append] at hrest
    exact (Act.bind_run_ok (printLine_run line s)).trans hrest

theorem outside_run_ok {x : Act σ α} {s : Logged Text (Site σ)} {a : α} {t : σ}
    (h : x s.inner.outside = .ok a t) : outside x s = .ok a ⟨s.log, ⟨s.inner.files, t⟩⟩ :=
  Logged.lift_run_ok (Site.onOutside_run_ok h)

end Command

end CrossChain
