import Twstools.Common.Run
import Twstools.Twsdo.Paths
/-!
# The configuration

No function of the program writes the configuration: what the options set
before the start is what every later turn reads (`cfg_of_run`).
-/

namespace Twstools

namespace TwsDL

variable {s s' : TwsDL} {e : Event} {evs : List Event} {err : RowError}

theorem waitData_cfg (h : s.waitData = .ok s') : s'.cfg = s.cfg := by
  obtain ⟨live, old, c, o, H, out, error, lastError, quit, packet, request, rfl⟩ :=
    waitData_effect h
  rfl

theorem waitTwsCon_cfg (h : s.waitTwsCon = .ok s') : s'.cfg = s.cfg := by
  obtain ⟨hb, r, out, ⟨st, i, rfl⟩ | ⟨-, p, rfl⟩⟩ := waitTwsCon_effect h
  · rfl
  · rfl

theorem work_cfg (h : s.work = .ok s') : s'.cfg = s.cfg := by
  obtain ⟨quotes, fuckme, todo, r, i, g, request, packet, live, id, out, lastError, quit, rfl⟩ :=
    work_effect h
  rfl

theorem turn_cfg {c : Connect} (h : s.turn c = .ok s') : s'.cfg = s.cfg := by
  obtain ⟨s₁, i, hp, rfl⟩ := turn_path h
  show s₁.cfg = s.cfg
  cases hp with
  | connecting _ hw => exact (waitTwsCon_cfg hw).trans rfl
  | waiting _ hw _ => exact (waitData_cfg hw).trans rfl
  | reconnecting _ hw _ _ _ hc =>
      have hd := waitData_cfg hw
      rcases connectTws_effect hc with ⟨i, rfl⟩ | ⟨k, b, st, -, rfl⟩
      · exact hd
      · exact hd
  | working _ hw _ _ _ hk => rw [work_cfg hk, waitData_cfg hw]

theorem OrderChanged.cfg {n : ℤ} (h : s.OrderChanged n s') : s'.cfg = s.cfg := by
  cases h <;> rfl

theorem twsError_cfg (h : s.twsError err = .ok s') : s'.cfg = s.cfg := by
  obtain ⟨s₁, ho, H, b, i, d, g, p, rfl⟩ := twsError_effect h
  exact ho.cfg.trans rfl

/-- **No event changes the configuration.** -/
theorem handle_cfg (h : s.handle e = .ok s') : s'.cfg = s.cfg := by
  cases event_path h with
  | turn h => exact turn_cfg h
  | error h => exact twsError_cfg h
  | connectionClosed h =>
      obtain ⟨-, p, rfl⟩ := twsConnectionClosed_effect h
      rfl
  | orderStatus h | openOrder h => exact h.cfg
  | _ => rfl

/-- **What the program was started with it keeps.** -/
theorem cfg_of_run {s₀ : TwsDL} (h : Run Step s₀ evs s) : s.cfg = s₀.cfg := by
  induction h with
  | nil => rfl
  | snoc _ hs ih => exact (handle_cfg hs.2).trans ih

end TwsDL

end Twstools
