import Twstools.Jobs.Model
import Twstools.Twsdo.Paths
/-!
# What has nothing to do with requests

Orders, tickers and the connection leave `Jobs` alone.
-/

namespace Twstools

namespace TwsDL

variable {s s' : TwsDL} {a : Action} {b : Bool} {n : ℤ}

theorem act_jobs (ha : a.ofRequest = false) : (s.act a).jobs = s.jobs := by
  simp [jobs, act, ha]

theorem act_jobs_ofRequest (ha : a.ofRequest = true) :
    (s.act a).jobs = { s.jobs with log := s.jobs.log ++ [a] } := by
  simp [jobs, act, ha]

theorem canSend_jobs : (s.canSend n).1.jobs = s.jobs := rfl

/-! ## Orders -/

theorem finOrder_jobs {orderId : ℤ} {p : PacketPlaceOrder}
    (h : s.finOrder orderId p = .ok (s', b)) : s'.jobs = s.jobs := by
  simp only [finOrder, Exec.bind_eq_ok] at h
  obtain ⟨r, -, -, -, h⟩ := h
  split at h
  · simp only [Exec.bind_eq_ok] at h
    obtain ⟨p', -, h⟩ := h
    have hd : (s.act (.dumpOrder orderId p')).jobs = s.jobs := act_jobs rfl
    split at h
    · simp only [Exec.bind_eq_ok] at h
      obtain ⟨-, -, h⟩ := h
      obtain ⟨rfl, rfl⟩ := Prod.mk.inj (Except.ok.inj h)
      exact hd
    · simp only [Exec.bind_eq_ok] at h
      obtain ⟨-, -, h⟩ := h
      obtain ⟨rfl, rfl⟩ := Prod.mk.inj (Except.ok.inj h)
      exact hd
    · simp only [Exec.bind_eq_ok] at h
      obtain ⟨-, -, h⟩ := h
      obtain ⟨rfl, rfl⟩ := Prod.mk.inj (Except.ok.inj h)
      exact hd
    all_goals
      obtain ⟨rfl, rfl⟩ := Prod.mk.inj (Except.ok.inj h)
      rfl
  · obtain ⟨rfl, rfl⟩ := Prod.mk.inj (Except.ok.inj h)
    rfl

theorem finOrders_jobs : ∀ (l : List (ℤ × PacketPlaceOrder)) {s : TwsDL} {ok : Bool},
    finOrders l (s, ok) = .ok (s', b) → s'.jobs = s.jobs
  | [], _, _, h => by
      obtain ⟨rfl, rfl⟩ := Prod.mk.inj (Except.ok.inj h)
      rfl
  | (orderId, p) :: l, _, _, h => by
      simp only [finOrders, Exec.bind_eq_ok] at h
      obtain ⟨⟨s₁, ok'⟩, h₁, h⟩ := h
      rw [finOrders_jobs l h, finOrder_jobs h₁]

theorem finPlaceOrder_jobs (h : s.finPlaceOrder = .ok (s', b)) : s'.jobs = s.jobs :=
  finOrders_jobs _ h

theorem placeOrder_jobs (h : s.placeOrder = .ok s') : s'.jobs = s.jobs := by
  simp only [placeOrder, Exec.bind_eq_ok] at h
  obtain ⟨todo, -, pO, -, ⟨s₁, orderId⟩, h₁, s₂, h₂, h⟩ := h
  have h1 : s₁.jobs = s.jobs := by
    simp only [orderIdOf, fetchIncOrderId] at h₁
    split at h₁
    · split at h₁
      · obtain ⟨rfl, rfl⟩ := Prod.mk.inj (Except.ok.inj h₁)
        rfl
      · cases h₁
    · obtain ⟨rfl, rfl⟩ := Prod.mk.inj (Except.ok.inj h₁)
      rfl
  have h2 : s₂.jobs = s₁.jobs := by
    simp only [recordOrder, Exec.bind_eq_ok] at h₂
    obtain ⟨p, -, h₂⟩ := h₂
    rw [← Except.ok.inj h₂]
    rfl
  rw [← Except.ok.inj h, ← h1, ← h2]
  unfold sendOrder
  split
  · exact act_jobs rfl
  · exact act_jobs rfl

theorem placeOrders_jobs : ∀ (k : ℕ) {s : TwsDL}, placeOrders k s = .ok s' → s'.jobs = s.jobs
  | 0, _, h => by rw [← Except.ok.inj h]
  | k + 1, s, h => by
      simp only [placeOrders] at h
      split at h
      · split at h
        · simp only [Exec.bind_eq_ok] at h
          obtain ⟨s₁, h₁, h⟩ := h
          rw [placeOrders_jobs k h, placeOrder_jobs h₁, canSend_jobs]
        · rw [← Except.ok.inj h, canSend_jobs]
      · rw [← Except.ok.inj h]

theorem OrderChanged.jobs (h : s.OrderChanged n s') : s'.jobs = s.jobs := by
  cases h <;> rfl

/-! ## Tickers and the connection -/

theorem startMktData_jobs (h : s.startMktData = .ok s') : s'.jobs = s.jobs := by
  unfold startMktData at h
  split at h
  · simp only [reqMktData, Exec.bind_eq_ok] at h
    obtain ⟨-, -, h⟩ := h
    rw [← Except.ok.inj h]
    have hf : ∀ l : List MktDataRequest,
        (l.mapIdx fun i r => Action.reqMktData (i + 1) r).filter (·.ofRequest) = [] := by
      intro l
      rw [List.filter_eq_nil_iff]
      intro a ha
      obtain ⟨i, hi, rfl⟩ := List.mem_mapIdx.1 ha
      simp [Action.ofRequest]
    simp [jobs, hf]
  · rw [← Except.ok.inj h]

/-- **Connecting changes nothing but the state of the connection.** -/
theorem connectTws_jobs {c : Connect} (h : s.connectTws c = .ok s') :
    ∃ st, s'.jobs = { s.jobs with state := st } := by
  rcases connectTws_effect h with ⟨i, rfl⟩ | ⟨k, b, st, -, rfl⟩
  · exact ⟨s.state, rfl⟩
  · exact ⟨st, rfl⟩

theorem askTime_jobs : s.askTime.jobs = s.jobs := by
  unfold askTime
  split
  · dsimp only
    rw [act_jobs rfl]
    split
    · exact act_jobs rfl
    · rfl
  · rfl

end TwsDL

end Twstools
