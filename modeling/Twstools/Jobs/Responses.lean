import Twstools.Jobs.Runs
/-!
# Answers are complete and belong to their request

Request numbers only grow, so a row or an end mark with the number of the
current request was sent for it. What arrives for an earlier one is
ignored, and of the end mark, the errors and the timeout the first closes
the packet. A packet that is written was closed by its end mark, and holds
what was delivered under its number until then.
-/

namespace Twstools

/-! ## What was delivered -/

/-- The row an event delivers under a type and a number. -/
def Event.delivers (t : ReqType) (n : ℤ) (e : Event) : Option Row :=
  match e.row with
  | some (t', n', r) => if t' = t ∧ n' = n then some r else none
  | none => none

/-- The rows delivered under a type and a number. -/
def delivered (t : ReqType) (n : ℤ) (evs : List Event) : List Row :=
  evs.filterMap (Event.delivers t n)

/-- The numbers that were asked under. -/
def asked (log : List Action) : List ℤ := log.filterMap fun a => a.asks.map Prod.snd

variable {t : ReqType} {n : ℤ} {e : Event} {r : Row}

theorem delivered_concat (evs : List Event) :
    delivered t n (evs ++ [e]) = delivered t n evs ++ (e.delivers t n).toList := by
  cases h : e.delivers t n <;> simp [delivered, h]

theorem delivers_of_row (h : e.row = some (t, n, r)) : e.delivers t n = some r := by
  simp [Event.delivers, h]

theorem delivers_eq_none (h : ∀ r, e.row ≠ some (t, n, r)) : e.delivers t n = none := by
  unfold Event.delivers
  split
  · rename_i t' n' r he
    refine if_neg ?_
    rintro ⟨rfl, rfl⟩
    exact h r he
  · rfl

/-- No event is a row and an end mark. -/
theorem row_eq_none_of_mark {q : ReqType × ℤ} (h : e.mark = some q) : e.row = none := by
  cases e with
  | historicalData m row =>
      simp only [Event.mark] at h
      split at h
      · rename_i hf
        simp [Event.row, hf]
      · cases h
  | contractDetailsEnd | optParamsEnd => rfl
  | _ => cases h

theorem asked_concat (log : List Action) (a : Action) :
    asked (log ++ [a]) = asked log ++ (a.asks.map Prod.snd).toList := by
  cases h : a.asks <;> simp [asked, h]

/-! ## Numbers grow -/

namespace Packet

variable {p p' : Packet} {q : GenericRequest} {err : ReqErr}

@[simp] theorem reqId_withBase {b : PacketBase} : (p.withBase b).reqId = p.reqId := by
  cases p <;> rfl

theorem Called.numbered (h : p.Called e q p') : p'.Numbered ↔ p.Numbered := by
  rw [Numbered, Numbered, h.reqType_eq]

/-- A packet keeps its number. -/
theorem Called.reqId_eq (h : p.Called e q p') (hN : p.Numbered) (hp : p.reqId = q.reqId) :
    p'.reqId = q.reqId := by
  cases h with
  | contractRow he hr hn hid => exact hn
  | optRow he hr hn hid => exact hn
  | other hn ht he hm => exact absurd hN hn
  | closed hcl hne hT hc =>
      rcases closeError_eq_ok hc with ⟨-, rfl⟩ | ⟨-, rfl⟩
      · rwa [reqId_withBase]
      · exact hp
  | _ => exact hp

/-- An open packet has no error. -/
theorem Called.fresh (h : p.Called e q p') (hN : p.Numbered)
    (hp : p.base.mode = .RECORD → p.base.error = .NONE) (hm : p'.base.mode = .RECORD) :
    p'.base.error = .NONE := by
  cases h with
  | other hn ht he hm => exact absurd hN hn
  | closed hcl hne hT hc =>
      rcases closeError_eq_ok hc with ⟨-, rfl⟩ | ⟨-, rfl⟩
      · simp at hm
      · exact hp hm
  | contractEnd | histEnd | optEnd => cases hm
  | _ => exact hp hm

end Packet

namespace Jobs

variable {j j' : Jobs}

/-- Every number is asked under once, and none is above the current one. -/
structure NumbersOk (j : Jobs) : Prop where
  increasing : (asked j.log).Pairwise (· < ·)
  le : ∀ m ∈ asked j.log, m ≤ j.request.reqId
  packet : ∀ p, j.packet = some p → p.Numbered → p.reqId = j.request.reqId
  fresh : ∀ p, j.packet = some p → p.Numbered → p.base.mode = .RECORD → p.base.error = .NONE

/-- One more number, the next one. -/
theorem NumbersOk.ask (h : j.NumbersOk) {a : Action}
    (ha : ∀ q, a.asks = some q → q.2 = j.request.reqId + 1) :
    (asked (j.log ++ [a])).Pairwise (· < ·) ∧
      ∀ m ∈ asked (j.log ++ [a]), m ≤ j.request.reqId + 1 := by
  rw [asked_concat]
  cases hq : a.asks with
  | none =>
      simp only [Option.map_none, Option.toList_none, List.append_nil]
      exact ⟨h.increasing, fun m hm => (h.le m hm).trans (by omega)⟩
  | some q =>
      have hqn := ha q hq
      simp only [Option.map_some, Option.toList_some]
      constructor
      · refine List.pairwise_append.2 ⟨h.increasing, List.pairwise_singleton _ _, ?_⟩
        intro m hm k hk
        rw [List.mem_singleton.1 hk, hqn]
        have := h.le m hm
        omega
      · intro m hm
        rcases List.mem_append.1 hm with hm | hm
        · exact (h.le m hm).trans (by omega)
        · rw [List.mem_singleton.1 hm, hqn]

theorem NumbersOk.called (h : j.NumbersOk) (hc : j.Called e j') : j'.NumbersOk := by
  cases hc with
  | none hp => exact h
  | @some p p' hT hp hpk hh =>
      refine ⟨h.increasing, h.le, fun p₁ hp₁ hN => ?_, fun p₁ hp₁ hN hm => ?_⟩
      · obtain rfl := Option.some.inj hp₁
        have hN' := hpk.numbered.1 hN
        exact hpk.reqId_eq hN' (h.packet p hp hN')
      · obtain rfl := Option.some.inj hp₁
        have hN' := hpk.numbered.1 hN
        exact hpk.fresh hN' (h.fresh p hp hN') hm

theorem Finished.asked_eq {p : Packet} (h : Finished p j j') : asked j'.log = asked j.log := by
  cases h with
  | histDumped | dumped => simp [asked_concat, Action.asks]
  | _ => rfl

theorem NumbersOk.waited (h : j.NumbersOk) (hw : j.Waited j') : j'.NumbersOk := by
  cases hw with
  | stay => exact h
  | @fin p p' j₁ hp hcl hf =>
      have ha : asked (j₁.log ++ [.delete p']) = asked j.log := by
        simp [asked_concat, Action.asks, hf.asked_eq]
      refine ⟨?_, ?_, (by intro p hp; cases hp), (by intro p hp; cases hp)⟩
      · dsimp only
        rw [ha]
        exact h.increasing
      · dsimp only
        rw [ha]
        exact h.le

theorem NumbersOk.worked (hok : j.Ok) (hn : j.request.reqType = .NONE) (h : j.NumbersOk)
    (hw : j.Worked j') : j'.NumbersOk := by
  have hp := hok.packet_eq_none.2 hn
  cases hw with
  | stay st => exact ⟨h.increasing, h.le, h.packet, h.fresh⟩
  | done hcd hop hl => exact ⟨h.increasing, h.le, h.packet, h.fresh⟩
  | contractDetails htodo hr =>
      obtain ⟨h1, h2⟩ := h.ask (a := .reqContractDetails _ _) (by rintro q ⟨⟩; rfl)
      refine ⟨h1, h2, ?_, ?_⟩
      · rintro p ⟨⟩ -
        rfl
      · rintro p ⟨⟩ - -
        rfl
  | optParams htodo hr =>
      obtain ⟨h1, h2⟩ := h.ask (a := .reqSecDefOptParams _ _) (by rintro q ⟨⟩; rfl)
      refine ⟨h1, h2, ?_, ?_⟩
      · rintro p ⟨⟩ -
        rfl
      · rintro p ⟨⟩ - -
        rfl
  | hist hc hj =>
      obtain ⟨h1, h2⟩ := h.ask (a := .reqHistoricalData _ _) (by rintro q ⟨⟩; rfl)
      refine ⟨h1, h2, ?_, ?_⟩
      · rintro p ⟨⟩ -
        rfl
      · rintro p ⟨⟩ - -
        rfl
  | @other p₁ a now hN hb ha hq =>
      obtain ⟨h1, h2⟩ := h.ask hq
      refine ⟨h1, h2, ?_, ?_⟩
      · rintro p ⟨⟩ hN'
        exact absurd hN' hN
      · rintro p ⟨⟩ hN'
        exact absurd hN' hN

/-! ## What a turn writes and opens -/

/-- What finishing writes is the packet, which has no error if its callbacks
look at the number. -/
theorem Finished.dump {p p₁ : Packet} {job : Option HistJob} (h : Finished p j j')
    (hd : .dumpXml p₁ job ∈ j'.log) :
    .dumpXml p₁ job ∈ j.log ∨ p₁ = p ∧ (p.Numbered → p.getError = .NONE) := by
  cases h with
  | histDumped ht he hdone =>
      rcases List.mem_append.1 hd with hd | hd
      · exact .inl hd
      · exact .inr ⟨(Action.dumpXml.inj (List.mem_singleton.1 hd)).1, fun _ => he⟩
  | dumped ht he =>
      rcases List.mem_append.1 hd with hd | hd
      · exact .inl hd
      · exact .inr ⟨(Action.dumpXml.inj (List.mem_singleton.1 hd)).1, he⟩
  | _ => exact .inl hd

/-- It was closed before, or it is closed by the timeout. -/
theorem Waited.dump {p : Packet} {job : Option HistJob} (h : j.Waited j')
    (hd : .dumpXml p job ∈ j'.log) : .dumpXml p job ∈ j.log ∨
      ∃ p₁, j.packet = some p₁ ∧ (p.Numbered → p.getError = .NONE) ∧
        (p = p₁ ∧ p₁.finished = true ∨
          p₁.finished = false ∧ p₁.closeError .TIMEOUT = .ok p) := by
  cases h with
  | stay => exact .inl hd
  | @fin p₁ p' j₁ hp hcl hf =>
      have hd₁ : .dumpXml p job ∈ j₁.log := by simpa using hd
      rcases hf.dump hd₁ with hd₂ | ⟨rfl, he⟩
      · exact .inl hd₂
      · exact .inr ⟨p₁, hp, he, hcl⟩

theorem Worked.dump {p : Packet} {job : Option HistJob} (h : j.Worked j')
    (hd : .dumpXml p job ∈ j'.log) : .dumpXml p job ∈ j.log := by
  cases h with
  | @other p₁ a now hN hb ha hq =>
      rcases List.mem_append.1 hd with hd | hd
      · exact hd
      · rw [← List.mem_singleton.1 hd] at ha
        cases ha
  | stay | done => exact hd
  | _ => simpa using hd

/-- **What a turn writes is the packet, closed.** -/
theorem Turned.dump {p : Packet} {job : Option HistJob} (h : j.Turned j')
    (hd : .dumpXml p job ∈ j'.log) : .dumpXml p job ∈ j.log ∨
      ∃ p₁, j.packet = some p₁ ∧ (p.Numbered → p.getError = .NONE) ∧
        (p = p₁ ∧ p₁.finished = true ∨
          p₁.finished = false ∧ p₁.closeError .TIMEOUT = .ok p) := by
  cases h with
  | connect st hn => exact .inl hd
  | wait hw => exact hw.dump hd
  | work hw hs hn hk => exact hw.dump (hk.dump hd)

/-- **Where the number counts, it was closed without an error before.** -/
theorem Turned.dump_numbered {p : Packet} {job : Option HistJob} (h : j.Turned j')
    (hd : .dumpXml p job ∈ j'.log) (hN : p.Numbered) : .dumpXml p job ∈ j.log ∨
      j.packet = some p ∧ p.base.mode = .CLOSED ∧ p.base.error = .NONE := by
  rcases h.dump hd with hold | ⟨p₁, hp, he, ⟨rfl, hfin⟩ | ⟨hfin, hcl⟩⟩
  · exact .inl hold
  · exact .inr ⟨hp, by simpa [Packet.finished, PacketBase.finished] using hfin, he hN⟩
  · have he := he hN
    rcases Packet.closeError_eq_ok hcl with ⟨-, rfl⟩ | ⟨hm, rfl⟩
    · simp [Packet.getError, PacketBase.getError] at he
    · simp [Packet.finished, PacketBase.finished, hm] at hfin

/-- A packet that was just opened. -/
def Opened (j j' : Jobs) (p : Packet) : Prop :=
  p.base.mode = .RECORD ∧ p.rows = [] ∧ p.reqId = j.request.reqId + 1 ∧
    ∃ a ∈ j'.log, a.asks = some (p.reqType, p.reqId)

theorem Waited.packet {p : Packet} (h : j.Waited j') (hp : j'.packet = some p) :
    j.packet = some p ∧ j'.request = j.request := by
  cases h with
  | stay => exact ⟨hp, rfl⟩
  | fin => cases hp

theorem Waited.reqId_eq (h : j.Waited j') : j'.request.reqId = j.request.reqId := by
  cases h <;> rfl

theorem Worked.packet {p : Packet} (h : j.Worked j') (hn : j.packet = none)
    (hp : j'.packet = some p) (hN : p.Numbered) : j.Opened j' p := by
  cases h with
  | stay | done => exact absurd (hn.symm.trans hp) (by simp)
  | contractDetails | optParams | hist =>
      obtain rfl := Option.some.inj hp
      exact ⟨rfl, rfl, rfl, _, List.mem_append_right _ (List.mem_singleton.2 rfl), rfl⟩
  | other hN' hb ha hq =>
      obtain rfl := Option.some.inj hp
      exact absurd hN hN'

/-- **After a turn the packet is the same, or it was just opened.** -/
theorem Turned.packet {p : Packet} (hok : j.Ok) (h : j.Turned j') (hp : j'.packet = some p)
    (hN : p.Numbered) : j.packet = some p ∧ j'.request = j.request ∨ j.Opened j' p := by
  cases h with
  | connect st hn => exact .inl ⟨hp, rfl⟩
  | wait hw => exact .inl (hw.packet hp)
  | work hw hs hn hk =>
      obtain ⟨h1, h2, h3, h4⟩ := hk.packet ((hw.ok hok).packet_eq_none.2 hn) hp hN
      exact .inr ⟨h1, h2, h3.trans (by rw [hw.reqId_eq]), h4⟩

end Jobs

/-! ## What a call does to the rows -/

namespace Packet

variable {p p' : Packet} {q : GenericRequest}

/-- **An open packet records what is delivered.** -/
theorem Called.record (h : p.Called e q p') (hN : p.Numbered) (ht : p.reqType = q.reqType)
    (hm : p'.base.mode = .RECORD) :
    p.base.mode = .RECORD ∧ e.mark ≠ some (q.reqType, q.reqId) ∧
      p'.rows = p.rows ++ (e.delivers q.reqType q.reqId).toList := by
  have mark : ∀ {r : Row}, e.row = some (q.reqType, q.reqId, r) →
      e.mark ≠ some (q.reqType, q.reqId) := by
    intro r hr hmk
    rw [row_eq_none_of_mark hmk] at hr
    cases hr
  cases h with
  | stay hr hmk => exact ⟨hm, hmk, by simp [delivers_eq_none hr]⟩
  | contractRow he hr hn hid => exact ⟨hr, mark he, by simp [delivers_of_row he, rows]⟩
  | histRow he hr herr => exact ⟨hr, mark he, by simp [delivers_of_row he, rows]⟩
  | optRow he hr hn hid => exact ⟨hr, mark he, by simp [delivers_of_row he, rows]⟩
  | contractEnd | histEnd | optEnd => cases hm
  | other hn ht he hm => exact absurd hN hn
  | closed hcl hne hT hc =>
      rcases closeError_eq_ok hc with ⟨-, rfl⟩ | ⟨hc, rfl⟩
      · simp at hm
      · rw [hm] at hc
        cases hc

/-- **A packet closed without an error was so, or the end mark closes it.** -/
theorem Called.closed_cases (h : p.Called e q p') (hN : p.Numbered)
    (hm : p'.base.mode = .CLOSED) (he : p'.base.error = .NONE) :
    p'.rows = p.rows ∧ (p.base.mode = .CLOSED ∧ p.base.error = .NONE ∨
      p.base.mode = .RECORD ∧ e.mark = some (q.reqType, q.reqId)) := by
  cases h with
  | stay => exact ⟨rfl, .inl ⟨hm, he⟩⟩
  | contractRow he' hr => exact absurd (hr.symm.trans hm) (by decide)
  | histRow he' hr => exact absurd (hr.symm.trans hm) (by decide)
  | optRow he' hr => exact absurd (hr.symm.trans hm) (by decide)
  | contractEnd hmk hr => exact ⟨rfl, .inr ⟨hr, hmk⟩⟩
  | histEnd he' hmk hr => exact ⟨rfl, .inr ⟨hr, hmk⟩⟩
  | optEnd hmk hr => exact ⟨rfl, .inr ⟨hr, hmk⟩⟩
  | other hn => exact absurd hN hn
  | closed hcl hne hT hc =>
      rcases closeError_eq_ok hc with ⟨-, rfl⟩ | ⟨hc, rfl⟩
      · exact absurd (by simpa using he) hne
      · exact ⟨rfl, .inl ⟨hm, he⟩⟩

end Packet

/-! ## Histories -/

namespace TwsDL

variable {s s' s₀ s₁ : TwsDL} {evs : List Event} {p p' : Packet} {cfg : ConfigTwsdo}
variable {async : Bool} {jobs : List Job}

/-- The step from `s₀` to `s₁` asks under a number that was not used
before. -/
def Sends (s₀ s₁ : TwsDL) (t : ReqType) (n : ℤ) : Prop :=
  (∃ a ∈ s₁.out, a.asks = some (t, n)) ∧ n ∉ asked s₀.out

/-- `p` holds what was delivered since the turn that asked for it, and the
end mark is still to come. -/
def Recorded (start : TwsDL) (evs : List Event) (s : TwsDL) (p : Packet) : Prop :=
  ∃ pre c mid s₀ s₁, evs = pre ++ .turn c :: mid ∧ Run Step start pre s₀ ∧
    s₀.Step (.turn c) s₁ ∧ Run Step s₁ mid s ∧ Sends s₀ s₁ p.reqType p.reqId ∧
    (∀ e ∈ mid, e.mark ≠ some (p.reqType, p.reqId)) ∧ p.rows = delivered p.reqType p.reqId mid

/-- `p` holds what was delivered until its end mark, which came while the
packet was open. -/
def Answered (start : TwsDL) (evs : List Event) (p : Packet) : Prop :=
  ∃ evs₁ e post s p₁, evs = evs₁ ++ e :: post ∧ Recorded start evs₁ s p₁ ∧ s.packet = some p₁ ∧
    p₁.base.mode = .RECORD ∧ e.mark = some (p₁.reqType, p₁.reqId) ∧ p.reqType = p₁.reqType ∧
    p.reqId = p₁.reqId ∧ p.rows = p₁.rows

theorem Answered.concat {start : TwsDL} (h : Answered start evs p) :
    Answered start (evs ++ [e]) p := by
  obtain ⟨evs₁, e₁, post, s, p₁, rfl, h⟩ := h
  exact ⟨evs₁, e₁, post ++ [e], s, p₁, by simp, h⟩

theorem Answered.of_eq {start : TwsDL} (h : Answered start evs p) (ht : p'.reqType = p.reqType)
    (hn : p'.reqId = p.reqId) (hr : p'.rows = p.rows) : Answered start evs p' := by
  obtain ⟨evs₁, e₁, post, s, p₁, h₁, h₂, h₃, h₄, h₅, ht', hn', hr'⟩ := h
  exact ⟨evs₁, e₁, post, s, p₁, h₁, h₂, h₃, h₄, h₅, ht.trans ht', hn.trans hn', hr.trans hr'⟩

theorem Recorded.concat {start : TwsDL} (h : Recorded start evs s p) (hstep : s.Step e s')
    (hm : e.mark ≠ some (p.reqType, p.reqId)) (ht : p'.reqType = p.reqType)
    (hn : p'.reqId = p.reqId)
    (hr : p'.rows = p.rows ++ (e.delivers p.reqType p.reqId).toList) :
    Recorded start (evs ++ [e]) s' p' := by
  obtain ⟨pre, c, mid, s₀, s₁, rfl, h₀, h₁, h₂, hs, hmid, hrows⟩ := h
  refine ⟨pre, c, mid ++ [e], s₀, s₁, by simp, h₀, h₁, h₂.snoc hstep, ?_, ?_, ?_⟩
  · rwa [ht, hn]
  · intro e' he'
    rw [ht, hn]
    rcases List.mem_append.1 he' with he' | he'
    · exact hmid e' he'
    · rwa [List.mem_singleton.1 he']
  · rw [hr, hrows, ht, hn, delivered_concat]

/-- What is known of the packets from the history. -/
structure History (start : TwsDL) (evs : List Event) (s : TwsDL) : Prop where
  record : ∀ p, s.packet = some p → p.Numbered → p.base.mode = .RECORD → Recorded start evs s p
  closed : ∀ p, s.packet = some p → p.Numbered → p.base.mode = .CLOSED →
    p.base.error = .NONE → Answered start evs p
  dumped : ∀ p job, .dumpXml p job ∈ s.out → p.Numbered → Answered start evs p

theorem dumpXml_mem_log {job : Option HistJob} :
    .dumpXml p job ∈ s.jobs.log ↔ .dumpXml p job ∈ s.out :=
  List.mem_filter.trans (and_iff_left rfl)

theorem mem_log_of_asks {a : Action} {q : ReqType × ℤ} (h : a.asks = some q) :
    a ∈ s.jobs.log ↔ a ∈ s.out := by
  refine List.mem_filter.trans (and_iff_left ?_)
  cases a <;> first | rfl | cases h

theorem asked_log : asked s.jobs.log = asked s.out := by
  rw [asked, asked, jobs, List.filterMap_filter]
  refine List.filterMap_congr fun a _ => ?_
  cases a <;> rfl

theorem run_numbersOk (h : Run Step (start cfg async jobs) evs s) : s.jobs.NumbersOk := by
  refine run_jobs ⟨.nil, (by intro m hm; cases hm), (by intro p hp; cases hp),
    (by intro p hp; cases hp)⟩ (fun j e j' _ hI _ hc => hI.called hc)
    (fun j j' _ hI _ hw => hI.waited hw) (fun j j' hok hI _ hn hw => hI.worked hok hn hw)
    (fun j st _ hI _ => ⟨hI.increasing, hI.le, hI.packet, hI.fresh⟩) h

theorem History.called {start : TwsDL} (hok : s.jobs.Ok) (hno : s.jobs.NumbersOk)
    (h : History start evs s) (hstep : s.Step e s') (hc : s.jobs.Called e s'.jobs) :
    History start (evs ++ [e]) s' := by
  have hlog : s'.jobs.log = s.jobs.log := hc.frame.2.2.2.2.2.2
  have hdump : ∀ p job, .dumpXml p job ∈ s'.out → p.Numbered →
      Answered start (evs ++ [e]) p := by
    intro p job hm hN
    rw [← dumpXml_mem_log, hlog, dumpXml_mem_log] at hm
    exact (h.dumped p job hm hN).concat
  -- the packet of the open request, before and after
  have hpk : ∀ p', s'.packet = some p' →
      ∃ p, s.packet = some p ∧ p.Called e s.currentRequest p' := by
    intro p' hp'
    have hp'' : s'.jobs.packet = some p' := hp'
    generalize s'.jobs = j' at hc hp''
    cases hc with
    | none hp => exact absurd (hp.symm.trans hp'') (by simp)
    | some hp hpc hh =>
        obtain rfl := Option.some.inj hp''
        exact ⟨_, hp, hpc⟩
  refine ⟨fun p' hp' hN hm => ?_, fun p' hp' hN hm he => ?_, hdump⟩
  · obtain ⟨p, hp, hcall⟩ := hpk p' hp'
    have hNp := hcall.numbered.1 hN
    have ht : p.reqType = s.currentRequest.reqType := hok.packet_some p hp
    have hn : p.reqId = s.currentRequest.reqId := hno.packet p hp hNp
    obtain ⟨hr, hmk, hrows⟩ := hcall.record hNp ht hm
    rw [← ht, ← hn] at hmk hrows
    exact (h.record p hp hNp hr).concat hstep hmk hcall.reqType_eq
      ((hcall.reqId_eq hNp hn).trans hn.symm) hrows
  · obtain ⟨p, hp, hcall⟩ := hpk p' hp'
    have hNp := hcall.numbered.1 hN
    have ht : p.reqType = s.currentRequest.reqType := hok.packet_some p hp
    have hn : p.reqId = s.currentRequest.reqId := hno.packet p hp hNp
    have hid := (hcall.reqId_eq hNp hn).trans hn.symm
    obtain ⟨hrows, ⟨hm', he'⟩ | ⟨hm', hmk⟩⟩ := hcall.closed_cases hNp hm he
    · exact (h.closed p hp hNp hm' he').concat.of_eq hcall.reqType_eq hid hrows
    · rw [← ht, ← hn] at hmk
      exact ⟨evs, e, [], s, p, rfl, h.record p hp hNp hm', hp, hm', hmk, hcall.reqType_eq, hid,
        hrows⟩

theorem History.turned {start : TwsDL} {c : Connect} (hr : Run Step start evs s) (hok : s.jobs.Ok)
    (hno : s.jobs.NumbersOk) (h : History start evs s) (hstep : s.Step (.turn c) s')
    (ht : s.jobs.Turned s'.jobs) : History start (evs ++ [.turn c]) s' := by
  have hfresh : s.currentRequest.reqId + 1 ∉ asked s.out := by
    intro hm
    rw [← asked_log] at hm
    have hle : s.currentRequest.reqId + 1 ≤ s.currentRequest.reqId := hno.le _ hm
    omega
  refine ⟨fun p hp hN hm => ?_, fun p hp hN hm he => ?_, fun p job hm hN => ?_⟩
  · rcases ht.packet hok hp hN with ⟨hp', -⟩ | ⟨-, hrows, hid, a, ha, hask⟩
    · exact (h.record p hp' hN hm).concat hstep (by simp [Event.mark]) rfl rfl
        (by simp [Event.delivers, Event.row])
    · have hid' : p.reqId = s.currentRequest.reqId + 1 := hid
      refine ⟨evs, c, [], s, s', rfl, hr, hstep, .nil, ⟨⟨a, ?_, hask⟩, ?_⟩, by simp, ?_⟩
      · exact (mem_log_of_asks hask).1 ha
      · rwa [hid']
      · simpa [delivered] using hrows
  · rcases ht.packet hok hp hN with ⟨hp', -⟩ | ⟨hrec, -⟩
    · exact (h.closed p hp' hN hm he).concat
    · exact absurd (hrec.symm.trans hm) (by decide)
  · rcases ht.dump_numbered (dumpXml_mem_log.2 hm) hN with hd | ⟨hp, hm', he⟩
    · exact (h.dumped p job (dumpXml_mem_log.1 hd) hN).concat
    · exact (h.closed p hp hN hm' he).concat

theorem run_history (h : Run Step (start cfg async jobs) evs s) :
    History (start cfg async jobs) evs s := by
  refine h.history ⟨(by intro p hp; cases hp), (by intro p hp; cases hp),
    (by intro p job hm; cases hm)⟩ ?_
  intro evs s e s' hr hI hstep
  rcases step_cases (run_ok hr) hstep with ⟨⟨c, rfl⟩, ht⟩ | ⟨-, hc⟩
  · exact hI.turned hr (run_ok hr) (run_numbersOk hr) hstep ht
  · exact hI.called (run_ok hr) (run_numbersOk hr) hstep hc

/-- **Answers are complete and belong to their request.** Take a packet of
contract details, historical data or option parameters that was written.
One turn of the run asked under its number, which was not used before; it
is used once. The packet was open when its end mark `e` came, which was
the first since then, and it holds exactly the rows that were delivered
under its type and number between this turn and the end mark, in order. -/
theorem answers_complete (h : Run Step (start cfg async jobs) evs s) {job : Option HistJob}
    (hd : .dumpXml p job ∈ s.out) (hN : p.Numbered) :
    (asked s.out).Nodup ∧
    ∃ pre c mid e post s₀ s₁ s₂, evs = pre ++ .turn c :: (mid ++ e :: post) ∧
      Run Step (start cfg async jobs) pre s₀ ∧ s₀.Step (.turn c) s₁ ∧ Run Step s₁ mid s₂ ∧
      Sends s₀ s₁ p.reqType p.reqId ∧
      e.mark = some (p.reqType, p.reqId) ∧ (∀ e' ∈ mid, e'.mark ≠ some (p.reqType, p.reqId)) ∧
      (∃ p₂, s₂.packet = some p₂ ∧ p₂.reqId = p.reqId ∧ p₂.finished = false) ∧
      p.rows = delivered p.reqType p.reqId mid := by
  refine ⟨?_, ?_⟩
  · rw [← asked_log]
    exact (run_numbersOk h).increasing.imp fun hlt => hlt.ne
  · obtain ⟨evs₁, e, post, s₂, p₂, rfl, hrec, hp₂, hopen, hmk, ht, hn, hrows⟩ :=
      (run_history h).dumped p job hd hN
    obtain ⟨pre, c, mid, s₀, s₁, rfl, h₀, h₁, h₂, hs, hmid, hrows₂⟩ := hrec
    rw [ht, hn, hrows]
    refine ⟨pre, c, mid, e, post, s₀, s₁, s₂, by simp, h₀, h₁, h₂, hs, hmk, hmid,
      ⟨p₂, hp₂, rfl, ?_⟩, hrows₂⟩
    simp [Packet.finished, PacketBase.finished, hopen]

/-- A request times out, the job is asked for again, and then rows for both
numbers come. -/
def lateRows : List Event :=
  connects 40000 1 ++ [.turn {}, .clock 2000000, .turn {}, .clock 2700000, .turn {},
    .historicalData 1 { date := "20180101" }, .historicalData 2 { date := "20180102" },
    .historicalData 1 { date := "finished" }, .historicalData 2 { date := "finished" }, .turn {}]

/-- What is written is the one row that belongs to it. -/
theorem answers_complete_late : ∃ s p job,
    Run Step (start {} false [.historical_data {}]) lateRows s ∧ .dumpXml p job ∈ s.out ∧
      p.rows = [.hist { date := "20180102" }] ∧
      ∃ mid, p.rows = delivered .HIST_REQUEST 2 mid := by
  have hout : (lateRows.foldlM next (start {} false [.historical_data {}])).map (fun s =>
      s.out.getLast?.map fun a => match a with
        | .delete p => (p.rows, p.reqType, p.reqId, decide (.dumpXml p (some ⟨0, {}⟩) ∈ s.out))
        | _ => ([], .NONE, 0, false)) =
      some (some ([.hist { date := "20180102" }], .HIST_REQUEST, 2, true)) := by
    decide +kernel
  obtain ⟨s, hs, hl⟩ := Option.map_eq_some_iff.1 hout
  obtain ⟨a, -, ha⟩ := Option.map_eq_some_iff.1 hl
  have hrun := Run.of_foldlM (fun _ _ _ => step_of_next) hs
  cases a with
  | delete p =>
      obtain ⟨hrows, ht, hn, hd⟩ : p.rows = _ ∧ p.reqType = _ ∧ p.reqId = _ ∧ _ := by
        simpa only [Prod.mk.injEq] using ha
      have hd := of_decide_eq_true hd
      obtain ⟨-, pre, c, mid, e, post, s₀, s₁, s₂, -, -, -, -, -, -, -, -, hmid⟩ :=
        answers_complete hrun hd (.inr (.inl ht))
      rw [ht, hn] at hmid
      exact ⟨s, p, _, hrun, hd, hrows, mid, hmid⟩
  | _ => simp at ha

end TwsDL

end Twstools
