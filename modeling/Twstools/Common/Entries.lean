import Twstools.Common.Run
/-!
# What a run leaves behind

The last state of a run often does not tell when something happened or
what was delivered before. `entries` collects it step by step, from the
states around the step and its event. `Run.entries_snoc` lets a relation
between the log and the state be carried through a run.
-/

namespace Twstools

variable {σ ε α : Type*}

/-- The log of the events that are taken from `s` on. -/
def entries (next : σ → ε → Option σ) (f : σ → ε → σ → List α) : σ → List ε → List α
  | _, [] => []
  | s, e :: evs =>
      match next s e with
      | none => []
      | some s' => f s e s' ++ entries next f s' evs

variable {step : σ → ε → σ → Prop} {next : σ → ε → Option σ} {f : σ → ε → σ → List α}
variable {s₀ s s' : σ} {e : ε} {evs : List ε}

@[simp] theorem entries_nil : entries next f s [] = [] := rfl

theorem entries_cons (h : next s e = some s') :
    entries next f s (e :: evs) = f s e s' ++ entries next f s' evs := by
  rw [entries, h]

namespace Run

/-- **The log of a run goes on** with the log of what comes after it. -/
theorem entries_append (hn : ∀ s e s', step s e s' → next s e = some s')
    (h : Run step s₀ evs s) (evs' : List ε) :
    entries next f s₀ (evs ++ evs') = entries next f s₀ evs ++ entries next f s evs' := by
  induction h generalizing evs' with
  | nil => rfl
  | snoc _ hstep ih =>
      rw [List.append_assoc, List.singleton_append, ih, ih, entries_cons (hn _ _ _ hstep),
        entries_cons (hn _ _ _ hstep), entries_nil, List.append_nil, List.append_assoc]

/-- One step more. -/
theorem entries_snoc (hn : ∀ s e s', step s e s' → next s e = some s')
    (h : Run step s₀ evs s) (hs : step s e s') :
    entries next f s₀ (evs ++ [e]) = entries next f s₀ evs ++ f s e s' := by
  rw [h.entries_append hn, entries_cons (hn _ _ _ hs), entries_nil, List.append_nil]

end Run

end Twstools
