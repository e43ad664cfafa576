import Mathlib.Data.List.Infix
/-!
# Runs of a labelled transition relation

A machine is a relation `step s e s'`; a run lists the events it took,
the newest last. Invariants are proved once for a step and carried to
every run by `Run.invariant`; where the invariant has to speak about what
happened before, `Run.history` carries a relation between the events so
far and the state.
-/

namespace Twstools

variable {σ ε : Type*}

/-- The runs from `s₀`: the events taken, oldest first, and the state
they lead to. -/
inductive Run (step : σ → ε → σ → Prop) (s₀ : σ) : List ε → σ → Prop
  /-- The run that has not started. -/
  | nil : Run step s₀ [] s₀
  /-- One event more. -/
  | snoc {evs : List ε} {s s' : σ} {e : ε} :
      Run step s₀ evs s → step s e s' → Run step s₀ (evs ++ [e]) s'

namespace Run

variable {step : σ → ε → σ → Prop} {s₀ s s' : σ} {evs evs' : List ε} {e : ε}

/-- **What a step preserves, a run preserves.** -/
theorem invariant {I : σ → Prop} (h0 : I s₀) (hs : ∀ s e s', I s → step s e s' → I s')
    (h : Run step s₀ evs s) : I s := by
  induction h with
  | nil => exact h0
  | snoc _ hstep ih => exact hs _ _ _ ih hstep

/-- **The same for a relation between the history and the state.** The
step may use that its source was reached by the history. -/
theorem history {I : List ε → σ → Prop} (h0 : I [] s₀)
    (hs : ∀ evs s e s', Run step s₀ evs s → I evs s → step s e s' → I (evs ++ [e]) s')
    (h : Run step s₀ evs s) : I evs s := by
  induction h with
  | nil => exact h0
  | snoc hr hstep ih => exact hs _ _ _ _ hr ih hstep

/-- A run of a machine that does less is a run. -/
theorem mono {step' : σ → ε → σ → Prop} (hs : ∀ s e s', step s e s' → step' s e s')
    (h : Run step s₀ evs s) : Run step' s₀ evs s := by
  induction h with
  | nil => exact .nil
  | snoc _ hstep ih => exact ih.snoc (hs _ _ _ hstep)

/-- Runs compose. -/
theorem trans (h : Run step s₀ evs s) (h' : Run step s evs' s') :
    Run step s₀ (evs ++ evs') s' := by
  induction h' with
  | nil => simpa using h
  | snoc _ hstep ih => rw [← List.append_assoc]; exact ih.snoc hstep

/-- A run's last event is a step from the state before it. -/
theorem of_snoc (h : Run step s₀ (evs ++ [e]) s') :
    ∃ s, Run step s₀ evs s ∧ step s e s' := by
  generalize hl : evs ++ [e] = l at h
  cases h with
  | nil => simp at hl
  | snoc hr hstep =>
      obtain ⟨rfl, he⟩ := List.append_inj' hl rfl
      obtain rfl : e = _ := by simpa using he
      exact ⟨_, hr, hstep⟩

/-- A run can be cut anywhere. -/
theorem of_append (h : Run step s₀ (evs ++ evs') s') :
    ∃ s, Run step s₀ evs s ∧ Run step s evs' s' := by
  induction evs' using List.reverseRecOn generalizing s' with
  | nil => exact ⟨s', by simpa using h, .nil⟩
  | append_singleton l e ih =>
      rw [← List.append_assoc] at h
      obtain ⟨s, hs, hstep⟩ := h.of_snoc
      obtain ⟨s₁, h₁, h₂⟩ := ih hs
      exact ⟨s₁, h₁, h₂.snoc hstep⟩

/-- **An executable step makes runs**: folding it over the events. -/
theorem of_foldlM {next : σ → ε → Option σ} (hn : ∀ s e s', next s e = some s' → step s e s') :
    ∀ {evs : List ε} {s' : σ}, evs.foldlM next s₀ = some s' → Run step s₀ evs s' := by
  intro evs
  induction evs using List.reverseRecOn with
  | nil =>
      intro s' h
      obtain rfl : s₀ = s' := by simpa using h
      exact .nil
  | append_singleton l e ih =>
      intro s' h
      rw [List.foldlM_append] at h
      obtain ⟨s, hs, he⟩ := Option.bind_eq_some_iff.1 h
      exact (ih hs).snoc (hn s e s' (by simpa using he))

end Run

end Twstools
