import CrossChain.Files.Tree

/-!
# Sites

A run works on files and on an outside world.  Acts on either are acts on both together.
-/

namespace CrossChain

/-- The files of a run beside the state of the outside world. -/
structure Site (σ : Type) where
  files : FileTree
  outside : σ
  deriving Repr

namespace Site

/-- An act on the files. -/
def onFiles {σ α : Type} (x : Act FileTree α) : Act (Site σ) α :=
  Act.on Site.files (fun files s => { s with files }) x

/-- An act on the outside world. -/
def onOutside {σ α : Type} (x : Act σ α) : Act (Site σ) α :=
  Act.on Site.outside (fun outside s => { s with outside }) x

instance {σ : Type} : MonadLift (Act FileTree) (Act (Site σ)) := ⟨onFiles⟩

instance {σ : Type} : MonadLift (Act σ) (Act (Site σ)) := ⟨onOutside⟩

/-- What a function of the files gives. -/
def ofFiles {σ α : Type} (f : FileTree → Except Failure α) : Act (Site σ) α := do
  Act.ofExcept (f (← get).files)

end Site

end CrossChain
