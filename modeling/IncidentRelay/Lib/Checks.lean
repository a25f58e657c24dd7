import IncidentRelay.Lib.Result

/-!
# Checks that report

A validation runs checks one after the other. A check reports what it finds, or raises
something that is no report; then nothing after it runs. A validation reports, if and only if
each of its checks does.
-/

namespace IncidentRelay

universe u v

variable {ε : Type u} {α β γ : Type v}

/-- Nothing is raised. -/
def Reports (x : Except ε α) : Prop := ∃ a, x = .ok a

@[simp] theorem reports_ok (a : α) : Reports (.ok a : Except ε α) := ⟨a, rfl⟩

@[simp] theorem not_reports_error (e : ε) : ¬Reports (.error e : Except ε α) := nofun

@[simp] theorem reports_map {x : Except ε α} {f : α → γ} : Reports (x.map f) ↔ Reports x := by
  cases x <;> simp [Except.map]

@[simp] theorem reports_mapError {δ : Type u} {x : Except ε α} {f : ε → δ} :
    Reports (x.mapError f) ↔ Reports x := by
  cases x <;> simp [Except.mapError]

/-- The first check reports, and what follows reports with what it found. -/
theorem reports_bind {x : Except ε α} {f : α → Except ε γ} :
    Reports (x >>= f) ↔ ∃ a, x = .ok a ∧ Reports (f a) := by
  constructor
  · rintro ⟨c, hc⟩
    obtain ⟨a, ha, hfa⟩ := bind_eq_ok.mp hc
    exact ⟨a, ha, c, hfa⟩
  · rintro ⟨a, ha, c, hfa⟩
    exact ⟨c, bind_eq_ok.mpr ⟨a, ha, hfa⟩⟩

/-- What follows does not depend on what was reported. -/
theorem reports_bind_of {x : Except ε α} {f : α → Except ε γ} {P : Prop}
    (h : ∀ a, Reports (f a) ↔ P) : Reports (x >>= f) ↔ Reports x ∧ P := by
  rw [reports_bind]
  simp only [h]
  exact ⟨fun ⟨a, ha, hP⟩ => ⟨⟨a, ha⟩, hP⟩, fun ⟨⟨a, ha⟩, hP⟩ => ⟨a, ha, hP⟩⟩

/-- What follows always reports. -/
theorem reports_bind_ok {x : Except ε α} {f : α → Except ε γ} (h : ∀ a, Reports (f a)) :
    Reports (x >>= f) ↔ Reports x := by
  rw [reports_bind_of fun a => iff_true_intro (h a), and_true]

theorem reports_ite {p : Prop} [Decidable p] {x y : Except ε α} :
    Reports (if p then x else y) ↔ (p → Reports x) ∧ (¬p → Reports y) := by
  by_cases h : p <;> simp [h]

/-- The checks in their order, and what they report together. -/
def runChecks : List (Except ε (List β)) → Except ε (List β)
  | [] => .ok []
  | check :: checks => do
    let issues ← check
    let rest ← runChecks checks
    return issues ++ rest

/-- **A validation reports, if and only if each check does.** -/
theorem reports_runChecks {checks : List (Except ε (List β))} :
    Reports (runChecks checks) ↔ ∀ check ∈ checks, Reports check := by
  induction checks with
  | nil => simp [runChecks]
  | cons check checks ih =>
    rw [runChecks, reports_bind, List.forall_mem_cons, ← ih]
    constructor
    · rintro ⟨issues, hcheck, hrest⟩
      obtain ⟨rest, hrest, -⟩ := reports_bind.mp hrest
      exact ⟨⟨issues, hcheck⟩, rest, hrest⟩
    · rintro ⟨⟨issues, hcheck⟩, rest, hrest⟩
      exact ⟨issues, hcheck, reports_bind.mpr ⟨rest, hrest, reports_ok _⟩⟩

/-- The same check at every position of a list. -/
theorem reports_runChecks_mapIdx {xs : List α} {f : ℕ → α → Except ε (List β)} {P : α → Prop}
    (h : ∀ index, ∀ x ∈ xs, Reports (f index x) ↔ P x) :
    Reports (runChecks (xs.mapIdx f)) ↔ ∀ x ∈ xs, P x := by
  rw [reports_runChecks]
  constructor
  · intro hall x hx
    obtain ⟨index, hindex, rfl⟩ := List.mem_iff_getElem.mp hx
    exact (h index _ (List.getElem_mem hindex)).mp (hall _ (List.mem_mapIdx.mpr ⟨index, hindex, rfl⟩))
  · intro hall check hcheck
    obtain ⟨index, hindex, rfl⟩ := List.mem_mapIdx.mp hcheck
    have hmem := List.getElem_mem hindex
    exact (h index _ hmem).mpr (hall _ hmem)

end IncidentRelay
