import Mathlib.Logic.Relation

/-!
# Labelled runs

A system is a step relation `step : σ → ℓ → σ → Prop`. `Run step s ls t` says
that the labels `ls`, in order, take `s` to `t`. An invariant that every step
preserves holds at the end of every run (`Run.invariant`); one that only the
steps of a kind preserve holds at the end of every run made of such steps
(`Run.invariant_of_forall`).
-/

namespace IncidentRelay

variable {σ ℓ : Type*} {step : σ → ℓ → σ → Prop}

inductive Run (step : σ → ℓ → σ → Prop) : σ → List ℓ → σ → Prop where
  | nil (s : σ) : Run step s [] s
  | cons {s t u : σ} {l : ℓ} {ls : List ℓ} :
      step s l t → Run step t ls u → Run step s (l :: ls) u

namespace Run

theorem single {s t : σ} {l : ℓ} (h : step s l t) : Run step s [l] t :=
  .cons h (.nil t)

/-- Two runs after another. -/
theorem append {s t u : σ} {ls ms : List ℓ}
    (h : Run step s ls t) (h' : Run step t ms u) : Run step s (ls ++ ms) u := by
  induction h with
  | nil => exact h'
  | cons hstep _ ih => exact .cons hstep (ih h')

/-- A run of a wider relation. -/
theorem imp {step' : σ → ℓ → σ → Prop} {s t : σ} {ls : List ℓ} (hrun : Run step s ls t)
    (h : ∀ {s l t}, step s l t → step' s l t) : Run step' s ls t := by
  induction hrun with
  | nil => exact .nil _
  | cons hs _ ih => exact .cons (h hs) ih

/-- What every step preserves, every run preserves. -/
theorem invariant {I : σ → Prop} {s t : σ} {ls : List ℓ} (hrun : Run step s ls t)
    (hstep : ∀ {s l t}, I s → step s l t → I t) (h : I s) : I t := by
  induction hrun with
  | nil => exact h
  | cons hs _ ih => exact ih (hstep h hs)

/-- What the steps with a property preserve, every run made of such steps
preserves. The property may look at the state the step starts in. -/
theorem invariant_of_forall {I : σ → Prop} {ok : σ → ℓ → Prop} {s t : σ} {ls : List ℓ}
    (hrun : Run (fun s l t => ok s l ∧ step s l t) s ls t)
    (hstep : ∀ {s l t}, I s → ok s l → step s l t → I t) (h : I s) : I t :=
  hrun.invariant (fun hI hs => hstep hI hs.1 hs.2) h

end Run

/-! ## Runs of a function -/

/-- Every step of the run along the labels has the property in the state it is
taken in. -/
def Along (next : σ → ℓ → σ) (P : σ → ℓ → Prop) : σ → List ℓ → Prop
  | _, [] => True
  | s, l :: ls => P s l ∧ Along next P (next s l) ls

/-- A condition on steps that can be decided is decided along a run. -/
instance decidableAlong {next : σ → ℓ → σ} {P : σ → ℓ → Prop} [∀ s l, Decidable (P s l)] :
    (s : σ) → (ls : List ℓ) → Decidable (Along next P s ls)
  | _, [] => inferInstanceAs (Decidable True)
  | s, l :: ls =>
    have : Decidable (Along next P (next s l) ls) := decidableAlong (next s l) ls
    inferInstanceAs (Decidable (P s l ∧ Along next P (next s l) ls))

/-- What holds along two runs after another. -/
theorem along_append {next : σ → ℓ → σ} {P : σ → ℓ → Prop} {s : σ} {ls ms : List ℓ} :
    Along next P s (ls ++ ms) ↔ Along next P s ls ∧ Along next P (ls.foldl next s) ms := by
  induction ls generalizing s with
  | nil => simp [Along]
  | cons l ls ih =>
    show (P s l ∧ Along next P (next s l) (ls ++ ms)) ↔ (P s l ∧ Along next P (next s l) ls) ∧ _
    rw [ih, and_assoc, List.foldl_cons]

/-- A weaker condition holds along the run too. -/
theorem along_mono {next : σ → ℓ → σ} {P Q : σ → ℓ → Prop} (h : ∀ s l, Q s l → P s l) {s : σ}
    {ls : List ℓ} (hls : Along next Q s ls) : Along next P s ls := by
  induction ls generalizing s with
  | nil => trivial
  | cons l ls ih => exact ⟨h s l hls.1, ih hls.2⟩

/-- Two properties of steps that agree wherever an invariant holds agree along every
run, when the steps that have the second keep the invariant. -/
theorem along_iff {next : σ → ℓ → σ} {P Q : σ → ℓ → Prop} {I : σ → Prop}
    (hiff : ∀ s l, I s → (P s l ↔ Q s l)) (hnext : ∀ s l, I s → Q s l → I (next s l))
    {s : σ} (h : I s) (ls : List ℓ) : Along next P s ls ↔ Along next Q s ls := by
  induction ls generalizing s with
  | nil => exact Iff.rfl
  | cons l ls ih =>
    show (P s l ∧ _) ↔ (Q s l ∧ _)
    rw [hiff s l h]
    exact and_congr_right fun hq => ih (hnext s l h hq)

/-- A property of steps that holds wherever an invariant does holds along every run whose
steps keep the invariant. -/
theorem along_of {next : σ → ℓ → σ} {P Q : σ → ℓ → Prop} {I : σ → Prop}
    (hstep : ∀ s l, I s → Q s l → P s l ∧ I (next s l)) {s : σ} (h : I s) {ls : List ℓ}
    (hls : Along next Q s ls) : Along next P s ls := by
  induction ls generalizing s with
  | nil => trivial
  | cons l ls ih =>
    obtain ⟨hq, hls⟩ := hls
    obtain ⟨hp, hnext⟩ := hstep s l h hq
    exact ⟨hp, ih hnext hls⟩

end IncidentRelay
