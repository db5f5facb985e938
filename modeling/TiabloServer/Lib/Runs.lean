import Mathlib

/-!
# Runs of a deterministic step function

A stateful program is a function `step : σ → α → σ` on states and operations. This file has the
runs of such a function, runs all of whose steps meet a condition, and the induction rules for
them.

## Main definitions

* `Runs.run` — the state after a list of operations.
* `Runs.Meets` — every step of a run meets a condition on the state before it.

## Main results

* `Runs.invariant` — a property kept by every step that meets the condition holds after every run
  that meets it.
* `Runs.invariant_steps` — the same for a property of states and what follows from it for the steps.
* `Runs.forall_prefix_iff` — the runs in all of whose states a property holds.
* `Runs.forall_steps_iff` — the same for a property of states and one of steps.
* `Runs.exists_onset` — a property that does not hold at the start and holds at the end became
  true at some last step and has held ever since.
-/

namespace Runs

variable {σ α : Type*} (step : σ → α → σ)

/-- The state after the operations `l`, from `s`. -/
def run (s : σ) (l : List α) : σ := l.foldl step s

@[simp] theorem run_nil (s : σ) : run step s [] = s := rfl

@[simp] theorem run_cons (s : σ) (a : α) (l : List α) : run step s (a :: l) = run step (step s a) l := rfl

@[simp] theorem run_append (s : σ) (l₁ l₂ : List α) :
    run step s (l₁ ++ l₂) = run step (run step s l₁) l₂ := List.foldl_append ..

/-- Every step of the run `l` from `s` meets the condition `ok` on the state before it. -/
def Meets (ok : σ → α → Prop) : σ → List α → Prop
  | _, [] => True
  | s, a :: l => ok s a ∧ Meets ok (step s a) l

@[simp] theorem meets_nil (ok : σ → α → Prop) (s : σ) : Meets step ok s [] := trivial

@[simp] theorem meets_cons {ok : σ → α → Prop} {s : σ} {a : α} {l : List α} :
    Meets step ok s (a :: l) ↔ ok s a ∧ Meets step ok (step s a) l := Iff.rfl

@[simp] theorem meets_append {ok : σ → α → Prop} {s : σ} {l₁ l₂ : List α} :
    Meets step ok s (l₁ ++ l₂) ↔ Meets step ok s l₁ ∧ Meets step ok (run step s l₁) l₂ := by
  induction l₁ generalizing s with
  | nil => simp
  | cons a l ih => simp [ih, and_assoc]

/-- What a run meets its beginnings meet. -/
theorem Meets.of_prefix {ok : σ → α → Prop} {s : σ} {l m : List α} (h : Meets step ok s l)
    (hm : m <+: l) : Meets step ok s m := by
  obtain ⟨r, rfl⟩ := hm
  exact ((meets_append step).1 h).1

theorem Meets.and {ok ok' : σ → α → Prop} {s : σ} {l : List α} (h : Meets step ok s l)
    (h' : Meets step ok' s l) : Meets step (fun s a => ok s a ∧ ok' s a) s l := by
  induction l generalizing s with
  | nil => trivial
  | cons a l ih => exact ⟨⟨h.1, h'.1⟩, ih h.2 h'.2⟩

/-- A condition that every step meets is met by every run. -/
theorem meets_of_forall {ok : σ → α → Prop} (h : ∀ s a, ok s a) (s : σ) (l : List α) : Meets step ok s l := by
  induction l generalizing s with
  | nil => trivial
  | cons a l ih => exact ⟨h s a, ih _⟩

/-- A condition on the operations alone is met by a run of such operations. -/
theorem meets_of_mem {ok : α → Prop} {l : List α} (h : ∀ a ∈ l, ok a) (s : σ) :
    Meets step (fun _ a => ok a) s l := by
  induction l generalizing s with
  | nil => trivial
  | cons a l ih => exact ⟨h a List.mem_cons_self, ih (fun b hb => h b (List.mem_cons_of_mem _ hb)) _⟩

/-- **The invariant rule.** A property that every step meeting `ok` keeps holds after every run
whose steps all meet `ok`. -/
theorem invariant {P : σ → Prop} {ok : σ → α → Prop}
    (hstep : ∀ s a, P s → ok s a → P (step s a)) {s : σ} (h0 : P s) {l : List α}
    (hl : Meets step ok s l) : P (run step s l) := by
  induction l generalizing s with
  | nil => exact h0
  | cons a l ih => exact ih (hstep s a h0 hl.1) hl.2

/-- **The rule for states and steps.** A property that every step meeting `ok` keeps holds after
every run whose steps all meet `ok`, and what it makes true of such a step is true of each of
them. -/
theorem invariant_steps {P : σ → Prop} {Q : σ → α → Prop} {ok : σ → α → Prop}
    (hstep : ∀ s a, P s → ok s a → P (step s a) ∧ Q s a) {s : σ} (h0 : P s) {l : List α} (hl : Meets step ok s l) :
    P (run step s l) ∧ ∀ l₁ a l₂, l = l₁ ++ a :: l₂ → Q (run step s l₁) a := by
  have hinv : ∀ {m : List α}, Meets step ok s m → P (run step s m) :=
    invariant step (fun s a hs hok => (hstep s a hs hok).1) h0
  refine ⟨hinv hl, fun l₁ a l₂ hsplit => ?_⟩
  subst hsplit
  obtain ⟨hbefore, hok, -⟩ := (meets_append step).1 hl
  exact (hstep _ a (hinv hbefore) hok).2

/-- The invariant rule for a property that every step keeps. -/
theorem invariant_of_step {P : σ → Prop} (hstep : ∀ s a, P s → P (step s a)) {s : σ} (h0 : P s)
    (l : List α) : P (run step s l) :=
  invariant step (fun s a h (_ : True) => hstep s a h) h0
    (meets_of_forall step (fun _ _ => trivial) s l)

/-- A property of states and one of steps, that hold after a step exactly when it meets a condition,
hold in all states and for all steps of exactly the runs that meet the condition. -/
theorem forall_steps_iff {P : σ → Prop} {Q : σ → α → Prop} {ok : σ → α → Prop}
    (hstep : ∀ s a, P s → (P (step s a) ∧ Q s a ↔ ok s a)) {s : σ} (h0 : P s) {l : List α} :
    ((∀ m, m <+: l → P (run step s m)) ∧ ∀ m a, m ++ [a] <+: l → Q (run step s m) a) ↔ Meets step ok s l := by
  induction l generalizing s with
  | nil =>
    refine iff_of_true ⟨fun m hm => by rwa [List.prefix_nil.1 hm], fun m a hm => ?_⟩ trivial
    exact absurd (List.prefix_nil.1 hm) (by simp)
  | cons b l ih =>
    constructor
    · rintro ⟨hstates, hsteps⟩
      have hfirst : P (step s b) ∧ Q s b := ⟨hstates [b] (by simp), hsteps [] b (by simp)⟩
      refine ⟨(hstep s b h0).1 hfirst, (ih hfirst.1).1 ⟨fun m hm => ?_, fun m a hm => ?_⟩⟩
      · exact hstates (b :: m) (List.cons_prefix_cons.2 ⟨rfl, hm⟩)
      · exact hsteps (b :: m) a (List.cons_prefix_cons.2 ⟨rfl, hm⟩)
    · rintro ⟨hb, hl⟩
      obtain ⟨hnext, hq⟩ := (hstep s b h0).2 hb
      obtain ⟨hstates, hsteps⟩ := (ih hnext).2 hl
      constructor
      · intro m hm
        cases m with
        | nil => exact h0
        | cons c m =>
          obtain ⟨rfl, hrest⟩ := List.cons_prefix_cons.1 hm
          exact hstates m hrest
      · intro m a hm
        cases m with
        | nil =>
          obtain ⟨rfl, -⟩ := List.cons_prefix_cons.1 hm
          exact hq
        | cons c m =>
          obtain ⟨rfl, hrest⟩ := List.cons_prefix_cons.1 hm
          exact hsteps m a hrest

/-- A property that a step keeps exactly when it meets a condition holds in all states of exactly
the runs that meet the condition. -/
theorem forall_prefix_iff {P : σ → Prop} {ok : σ → α → Prop}
    (hstep : ∀ s a, P s → (P (step s a) ↔ ok s a)) {s : σ} (h0 : P s) {l : List α} :
    (∀ m, m <+: l → P (run step s m)) ↔ Meets step ok s l := by
  rw [← forall_steps_iff step (Q := fun _ _ => True) (fun s a h => by rw [and_true, hstep s a h]) h0]
  exact (and_iff_left fun _ _ _ => trivial).symm

/-- **Onset.** A property that fails at the start of a run and holds at its end became true at a
step after which it held in every state of the run.

**Proof sketch.** Induction on the run from its end. If the property fails before the last step,
that step is the onset; otherwise the onset of the shorter run is one of the longer run too. -/
theorem exists_onset {P : σ → Prop} {s : σ} (h0 : ¬ P s) {l : List α} (hl : P (run step s l)) :
    ∃ l₁ a l₂, l = l₁ ++ a :: l₂ ∧ ¬ P (run step s l₁) ∧ ∀ m, m <+: l₂ → P (run step s (l₁ ++ a :: m)) := by
  induction l using List.reverseRecOn with
  | nil => exact absurd hl h0
  | append_singleton l b ih =>
    by_cases hb : P (run step s l)
    · obtain ⟨l₁, a, l₂, rfl, hbefore, hafter⟩ := ih hb
      refine ⟨l₁, a, l₂ ++ [b], by simp, hbefore, fun m hm => ?_⟩
      rcases List.prefix_concat_iff.1 hm with rfl | hm
      · simpa using hl
      · exact hafter m hm
    · refine ⟨l, b, [], by simp, hb, fun m hm => ?_⟩
      obtain rfl := List.prefix_nil.1 hm
      exact hl

end Runs
