import Twstools.Jobs.Runs
/-!
# No historical job is lost

A historical job is left, checked out, done or failed, and every operation
moves it from one of these places to another. It is checked out exactly
while a historical request is open, and its answer is written when it
moves to the done ones.
-/

namespace Twstools

/-! ## The places of a job -/

namespace HistTodo

variable {h h' : HistTodo} {job : HistJob} {n : ℤ}

/-- The jobs of all four places. -/
def all (h : HistTodo) : List HistJob :=
  h.leftRequests ++ h.checkedOutRequest.toList ++ h.doneRequests ++ h.errorRequests

/-- How often a job is in one of the places. -/
def places (h : HistTodo) (job : HistJob) : ℕ :=
  h.leftRequests.count job + h.checkedOutRequest.toList.count job +
    h.doneRequests.count job + h.errorRequests.count job

theorem count_all (h : HistTodo) (job : HistJob) : h.all.count job = h.places job := by
  simp [all, places, List.count_append, Nat.add_assoc]

/-- Taking the job that was found takes this job, as no other one has its
address. -/
theorem eraseP_perm {l : List HistJob} (hj : job ∈ l) (hn : (l.map HistJob.ptr).Nodup) :
    (job :: l.eraseP (·.ptr = job.ptr)).Perm l := by
  obtain ⟨a, l₁, l₂, -, ha, hl, he⟩ :=
    List.exists_of_eraseP (p := fun it : HistJob => it.ptr = job.ptr) hj (by simp)
  obtain rfl : a = job :=
    List.inj_on_of_nodup_map hn (by simp [hl]) hj (by simpa using ha)
  rw [he, hl]
  exact List.perm_middle.symm

theorem checkout_perm (hn : (h.leftRequests.map HistJob.ptr).Nodup)
    (hc : h.checkedOutRequest = none) (hj : job ∈ h.leftRequests) :
    ({ h with
      leftRequests := h.leftRequests.eraseP (·.ptr = job.ptr)
      checkedOutRequest := some job } : HistTodo).all.Perm h.all := by
  rw [List.perm_iff_count]
  intro a
  have hp := (eraseP_perm hj hn).count_eq a
  simp only [all, hc, List.count_append, List.count_cons, Option.toList, List.count_nil] at hp ⊢
  omega

theorem tellDone_perm (hd : h.tellDone = .ok h') : h'.all.Perm h.all := by
  obtain ⟨job, hj, rfl⟩ := tellDone_eq_ok.1 hd
  rw [List.perm_iff_count]
  intro a
  simp only [all, hj, List.count_append, List.count_cons, Option.toList, List.count_nil]
  omega

theorem cancelForRepeat_perm (hc : h.cancelForRepeat n = .ok h') : h'.all.Perm h.all := by
  obtain ⟨job, hj, hh⟩ := cancelForRepeat_cases hc
  rw [List.perm_iff_count]
  intro a
  rcases hh with rfl | rfl | rfl
  all_goals
    simp only [all, hj, List.count_append, List.count_cons, Option.toList, List.count_nil]
    omega

theorem Skipped.perm (hs : h.Skipped h') : h'.all.Perm h.all := by
  cases hs with
  | stay => exact List.Perm.refl _
  | skip con f =>
      unfold HistTodo.skip
      split
      · exact List.Perm.refl _
      · rw [List.perm_iff_count]
        intro a
        have hp := (List.filter_append_perm (fun hr : HistJob => f hr.request)
          h.leftRequests).count_eq a
        simp only [all, List.count_append] at hp ⊢
        omega

theorem Skipped.checkedOut (hs : h.Skipped h') :
    h'.checkedOutRequest = h.checkedOutRequest ∧ h'.doneRequests = h.doneRequests := by
  cases hs with
  | stay => exact ⟨rfl, rfl⟩
  | skip con f =>
      unfold HistTodo.skip
      split <;> exact ⟨rfl, rfl⟩

end HistTodo

/-! ## The invariant -/

/-- The job whose answer an action writes. -/
def Action.dumpedJob : Action → Option HistJob
  | .dumpXml (.histData _) job => job
  | _ => none

/-- The jobs whose answers were written. -/
def dumpedJobs (log : List Action) : List HistJob := log.filterMap Action.dumpedJob

theorem dumpedJobs_append (log : List Action) (a : Action) :
    dumpedJobs (log ++ [a]) = dumpedJobs log ++ a.dumpedJob.toList := by
  cases h : a.dumpedJob <;> simp [dumpedJobs, h]

/-- Only actions that belong to a request write. -/
theorem dumpedJobs_ofRequest (log : List Action) :
    dumpedJobs (log.filter (·.ofRequest)) = dumpedJobs log := by
  rw [dumpedJobs, dumpedJobs, List.filterMap_filter]
  refine List.filterMap_congr fun a _ => ?_
  cases a <;> simp [Action.ofRequest, Action.dumpedJob]

/-- An action that writes no historical packet keeps what was written. -/
theorem dump_request_append {log : List Action} {a : Action}
    (ha : ∀ q job, a ≠ .dumpXml (.histData q) job)
    (h : ∀ q job, .dumpXml (.histData q) job ∈ log →
      ∃ job', job = some job' ∧ q.request = some job'.request) :
    ∀ q job, .dumpXml (.histData q) job ∈ log ++ [a] →
      ∃ job', job = some job' ∧ q.request = some job'.request := by
  intro q job hm
  rcases List.mem_append.1 hm with hm | hm
  · exact h q job hm
  · exact absurd (List.mem_singleton.1 hm).symm (ha q job)

namespace Jobs

variable {j j' : Jobs} {added : List HistJob} {e : Event} {p : Packet}

/-- What holds of the historical jobs in every state. -/
structure HistOk (added : List HistJob) (j : Jobs) : Prop where
  perm : j.histTodo.all.Perm added
  checkedOut : j.histTodo.checkedOutRequest = none ↔ j.request.reqType ≠ .HIST_REQUEST
  request : ∀ p, j.packet = some (.histData p) →
    ∃ job, j.histTodo.checkedOutRequest = some job ∧ p.request = some job.request
  dumped : (dumpedJobs j.log).Sublist j.histTodo.doneRequests
  dump_request : ∀ p job, .dumpXml (.histData p) job ∈ j.log →
    ∃ job', job = some job' ∧ p.request = some job'.request
  error : j.error = 0
  quit : j.quit = true → j.histTodo.leftRequests = [] ∧ j.request.reqType = .NONE

/-- A packet keeps the historical request it is for. -/
theorem request_of_called {q : GenericRequest} {p' : PacketHistData}
    (h : p.Called e q (.histData p')) : ∃ p₀, p = .histData p₀ ∧ p'.request = p₀.request := by
  generalize hp' : Packet.histData p' = p₁ at h
  cases h with
  | stay => exact ⟨p', hp'.symm, rfl⟩
  | histRow he hr herr =>
      obtain rfl := Packet.histData.inj hp'
      exact ⟨_, rfl, rfl⟩
  | histEnd he hm hr herr =>
      obtain rfl := Packet.histData.inj hp'
      exact ⟨_, rfl, rfl⟩
  | other hn ht he hm =>
      refine absurd ?_ hn
      rw [Packet.Numbered, ← ht, ← hp']
      exact .inr (.inl rfl)
  | closed hcl hne hT hc =>
      rcases Packet.closeError_eq_ok hc with ⟨-, hw⟩ | ⟨-, hw⟩
      · rw [hw] at hp'
        cases p with
        | histData p₀ =>
            rw [Packet.histData.inj hp']
            exact ⟨p₀, rfl, rfl⟩
        | _ => cases hp'
      · exact ⟨p', by rw [hp', hw], rfl⟩
  | _ => cases hp'

theorem HistOk.called (h : j.HistOk added) (hq : j.quit = false) (hc : j.Called e j') :
    j'.HistOk added := by
  cases hc with
  | none hp => exact h
  | some hp hpk hh =>
      obtain ⟨hco, hdone⟩ := hh.checkedOut
      refine ⟨hh.perm.trans h.perm, ?_, ?_, ?_, h.dump_request, h.error, ?_⟩
      · dsimp only
        rw [hco]
        exact h.checkedOut
      · intro p' hp'
        rw [Option.some.inj hp'] at hpk
        obtain ⟨p₀, rfl, hr⟩ := request_of_called hpk
        obtain ⟨job, hj, hreq⟩ := h.request p₀ hp
        exact ⟨job, hco.trans hj, hr.trans hreq⟩
      · dsimp only
        rw [hdone]
        exact h.dumped
      · exact fun hq' => absurd (hq.symm.trans hq') (by decide)

/-- **Finishing a request finishes its job**, or makes it left again. The
job of a historical packet is the one checked out. -/
theorem HistOk.finished (h : j.HistOk added) (ht : p.reqType = j.request.reqType)
    (hr : ∀ q, p = .histData q →
      ∃ job, j.histTodo.checkedOutRequest = some job ∧ q.request = some job.request)
    (hf : Finished p j j') :
    j'.histTodo.all.Perm added ∧ j'.histTodo.checkedOutRequest = none ∧
      (dumpedJobs j'.log).Sublist j'.histTodo.doneRequests ∧
      ∀ q job, .dumpXml (.histData q) job ∈ j'.log →
        ∃ job', job = some job' ∧ q.request = some job'.request := by
  have hnone : p.reqType ≠ .HIST_REQUEST → j.histTodo.checkedOutRequest = none :=
    fun hn => h.checkedOut.2 (ht ▸ hn)
  cases hf with
  | contractDetailsAgain hcd he htodo =>
      exact ⟨h.perm, hnone (by rw [hcd]; decide), h.dumped, h.dump_request⟩
  | optParamsAgain hop he htodo =>
      exact ⟨h.perm, hnone (by rw [hop]; decide), h.dumped, h.dump_request⟩
  | histDumped hh he hd =>
      -- the job that is written is checked out, and done from now on
      have hperm := HistTodo.tellDone_perm hd
      obtain ⟨job, hj, rfl⟩ := HistTodo.tellDone_eq_ok.1 hd
      obtain ⟨q, rfl⟩ : ∃ q, p = .histData q := by
        cases p with
        | histData q => exact ⟨q, rfl⟩
        | _ => simp [Packet.reqType] at hh
      refine ⟨hperm.trans h.perm, rfl, ?_, ?_⟩
      · rw [dumpedJobs_append, hj]
        exact h.dumped.append (List.Sublist.refl _)
      · intro q' job' hm
        rcases List.mem_append.1 hm with hm | hm
        · exact h.dump_request q' job' hm
        · obtain ⟨hq, rfl⟩ := Action.dumpXml.inj (List.mem_singleton.1 hm)
          obtain rfl := Packet.histData.inj hq
          exact hr q' rfl
  | histDone hh he hd =>
      have hperm := HistTodo.tellDone_perm hd
      obtain ⟨job, hj, rfl⟩ := HistTodo.tellDone_eq_ok.1 hd
      exact ⟨hperm.trans h.perm, rfl, h.dumped.trans (List.sublist_append_left _ _),
        h.dump_request⟩
  | histAgain hh he hc =>
      have hperm := HistTodo.cancelForRepeat_perm hc
      obtain ⟨job, hj, rfl | rfl | rfl⟩ := HistTodo.cancelForRepeat_cases hc
      all_goals exact ⟨hperm.trans h.perm, rfl, h.dumped, h.dump_request⟩
  | dumped hh he =>
      have hno : ∀ q job, Action.dumpXml p j.histTodo.checkedOutRequest ≠
          .dumpXml (.histData q) job := by
        intro q job heq
        obtain ⟨rfl, -⟩ := Action.dumpXml.inj heq
        exact hh rfl
      refine ⟨h.perm, hnone hh, ?_, dump_request_append hno h.dump_request⟩
      have hdj : (Action.dumpXml p j.histTodo.checkedOutRequest).dumpedJob = none := by
        cases p with
        | histData q => exact absurd rfl hh
        | _ => rfl
      rw [dumpedJobs_append, hdj]
      simpa using h.dumped
  | dropped hN hh he he' => exact ⟨h.perm, hnone hh, h.dumped, h.dump_request⟩

theorem HistOk.waited (hok : j.Ok) (h : j.HistOk added) (hq : j.quit = false)
    (hw : j.Waited j') : j'.HistOk added := by
  cases hw with
  | stay => exact h
  | @fin p₁ p' j₁ hp hcl hf =>
      have ht := hok.packet_some p₁ hp
      have hp' : p'.reqType = j.request.reqType ∧ ∀ q, p' = .histData q →
          ∃ job, j.histTodo.checkedOutRequest = some job ∧ q.request = some job.request := by
        rcases hcl with ⟨rfl, -⟩ | ⟨-, hcl⟩
        · exact ⟨ht, fun q hq => h.request q (hq ▸ hp)⟩
        · -- a packet that is closed for its time keeps its request
          refine ⟨(Packet.reqType_closeError hcl).trans ht, ?_⟩
          rintro q rfl
          have hcall : p₁.Called .connectionClosed j.request (.histData q) :=
            .closed rfl (by decide) (fun he => by cases he) hcl
          obtain ⟨q₁, rfl, hr⟩ := request_of_called hcall
          obtain ⟨job, hj, hreq⟩ := h.request q₁ hp
          exact ⟨job, hj, hr.trans hreq⟩
      obtain ⟨hperm, hnone, hdump, hreq⟩ := h.finished hp'.1 hp'.2 hf
      obtain ⟨-, -, -, hquit, herr⟩ := hf.frame
      refine ⟨hperm, ?_, by simp, ?_, ?_, herr.trans h.error, ?_⟩
      · simp [hnone, GenericRequest.close]
      · rw [dumpedJobs_append]
        simpa [Action.dumpedJob] using hdump
      · exact dump_request_append (by simp) hreq
      · intro hq'
        exact absurd ((hq.symm.trans hquit.symm).trans hq') (by decide)

theorem HistOk.worked (hn : (added.map HistJob.ptr).Nodup) (h : j.HistOk added)
    (hq : j.quit = false) (hnone : j.request.reqType = .NONE) (hw : j.Worked j') :
    j'.HistOk added := by
  have hco : j.histTodo.checkedOutRequest = none := h.checkedOut.2 (by rw [hnone]; decide)
  have hq' : ∀ {P : Prop}, j.quit = true → P := fun hq' =>
    absurd (hq.symm.trans hq') (by decide)
  cases hw with
  | stay st => exact ⟨h.perm, h.checkedOut, h.request, h.dumped, h.dump_request, h.error, h.quit⟩
  | done hcd hop hl =>
      exact ⟨h.perm, h.checkedOut, h.request, h.dumped, h.dump_request, h.error,
        fun _ => ⟨hl, hnone⟩⟩
  | contractDetails htodo hr =>
      refine ⟨h.perm, by simp [hco], by simp, ?_, dump_request_append (by simp) h.dump_request,
        h.error, hq'⟩
      rw [dumpedJobs_append]
      simpa [Action.dumpedJob] using h.dumped
  | optParams htodo hr =>
      refine ⟨h.perm, by simp [hco], by simp, ?_, dump_request_append (by simp) h.dump_request,
        h.error, hq'⟩
      rw [dumpedJobs_append]
      simpa [Action.dumpedJob] using h.dumped
  | @hist job now hc hj =>
      -- the jobs left are all different, so only the one checked out leaves
      have hl : (j.histTodo.leftRequests.map HistJob.ptr).Nodup := by
        have hsub : j.histTodo.leftRequests.Sublist j.histTodo.all := by
          simp only [HistTodo.all, List.append_assoc]
          exact List.sublist_append_left _ _
        exact ((h.perm.map _).nodup_iff.2 hn).sublist (hsub.map _)
      refine ⟨(HistTodo.checkout_perm hl hc hj).trans h.perm, by simp, ?_, ?_,
        dump_request_append (by simp) h.dump_request, h.error, hq'⟩
      · intro p hp
        obtain rfl := Packet.histData.inj (Option.some.inj hp)
        exact ⟨job, rfl, rfl⟩
      · rw [dumpedJobs_append]
        simpa [Action.dumpedJob] using h.dumped
  | @other p₁ a now hN hb ha hask =>
      have hp₁ : p₁.reqType ≠ .HIST_REQUEST := fun he => hN (.inr (.inl he))
      have ha' : ∀ q job, a ≠ .dumpXml (.histData q) job := by
        rintro q job rfl
        simp [Action.unnumbered] at ha
      refine ⟨h.perm, by simp [hco, hp₁], ?_, ?_, dump_request_append ha' h.dump_request,
        h.error, hq'⟩
      · intro p hp
        rw [Option.some.inj hp] at hp₁
        exact absurd rfl hp₁
      · have hdj : a.dumpedJob = none := by
          cases a <;> simp_all [Action.unnumbered, Action.dumpedJob]
        rw [dumpedJobs_append, hdj]
        simpa using h.dumped

end Jobs

/-! ## Runs -/

/-- The historical request of a work file's element. -/
def Job.histRequest : Job → Option HistRequest
  | .historical_data r => some r
  | _ => none

/-- The historical jobs of a work file. -/
def addedJobs (jobs : List Job) : List HistJob :=
  (jobs.filterMap Job.histRequest).mapIdx fun i r => { ptr := i, request := r }

theorem addedJobs_concat (jobs : List Job) (job : Job) :
    addedJobs (jobs ++ [job]) = addedJobs jobs ++
      job.histRequest.toList.map fun r => { ptr := (addedJobs jobs).length, request := r } := by
  cases h : job.histRequest <;>
    simp [addedJobs, List.filterMap_append, h, List.mapIdx_append]

/-- No two of them have one address. -/
theorem addedJobs_ptr_nodup (jobs : List Job) : ((addedJobs jobs).map HistJob.ptr).Nodup := by
  suffices h : (addedJobs jobs).map HistJob.ptr = List.range (addedJobs jobs).length by
    rw [h]
    exact List.nodup_range
  induction jobs using List.reverseRecOn with
  | nil => rfl
  | append_singleton jobs job ih =>
      rw [addedJobs_concat]
      cases job.histRequest <;> simp [ih, List.range_succ]

/-- Reading a work file leaves all its historical jobs to be done. -/
theorem readFile_histTodo {w : WorkTodo} (hw : w.histTodo = {}) (jobs : List Job) :
    (w.readFile jobs).histTodo = { leftRequests := addedJobs jobs } := by
  induction jobs using List.reverseRecOn with
  | nil => exact hw
  | append_singleton jobs job ih =>
      have hstep : (w.readFile (jobs ++ [job])).histTodo =
          ((w.readFile jobs).readReq job).histTodo := by
        simp [WorkTodo.readFile, List.foldl_append]
      rw [hstep, addedJobs_concat]
      cases job <;> simp [WorkTodo.readReq, ih, Job.histRequest, HistTodo.add]

namespace TwsDL

variable {s : TwsDL} {evs : List Event} {cfg : ConfigTwsdo} {async : Bool} {jobs : List Job}

theorem start_histTodo : (start cfg async jobs).workTodo.histTodo =
    { leftRequests := addedJobs jobs } :=
  readFile_histTodo rfl jobs

theorem run_histOk (h : Run Step (start cfg async jobs) evs s) :
    s.jobs.HistOk (addedJobs jobs) := by
  refine run_jobs ?_ (fun j e j' _ hI hq hc => hI.called hq hc)
    (fun j j' hok hI hq hw => hI.waited hok hq hw)
    (fun j j' _ hI hq hn hw => hI.worked (addedJobs_ptr_nodup jobs) hq hn hw)
    (fun j st _ hI _ => ⟨hI.perm, hI.checkedOut, hI.request, hI.dumped, hI.dump_request,
      hI.error, hI.quit⟩) h
  have hs : (start cfg async jobs).jobs.histTodo = { leftRequests := addedJobs jobs } :=
    start_histTodo
  refine ⟨?_, ?_, (by intro p hp; cases hp), List.nil_sublist _, (by intro p job hm; cases hm), rfl,
    (by intro hq; cases hq)⟩
  · rw [hs]
    simp [HistTodo.all]
  · have hr : (start cfg async jobs).jobs.request = {} := rfl
    rw [hs, hr]
    simp

/-- **No historical job is lost, duplicated or written twice.** In every
state of every run a job that was added is in exactly one of the four
places, once, and no other job is anywhere. One is checked out exactly
while a historical request is open, and there is a packet exactly while
any request is open, of its class. What was written belongs to done jobs,
to each once. When the program quits without an error nothing is left. -/
theorem hist_jobs_kept (h : Run Step (start cfg async jobs) evs s) :
    (∀ job, s.workTodo.histTodo.places job = if job ∈ addedJobs jobs then 1 else 0) ∧
    (s.workTodo.histTodo.checkedOutRequest ≠ none ↔
      s.currentRequest.reqType = .HIST_REQUEST) ∧
    (s.packet ≠ none ↔ s.currentRequest.reqType ≠ .NONE) ∧
    (∀ p, s.packet = some p → p.reqType = s.currentRequest.reqType) ∧
    ((dumpedJobs s.out).Nodup ∧ ∀ job ∈ dumpedJobs s.out, job ∈ s.workTodo.histTodo.doneRequests) ∧
    (∀ p job, .dumpXml (.histData p) job ∈ s.out →
      ∃ job', job = some job' ∧ p.request = some job'.request) ∧
    (s.quit = true → s.error = 0 → s.workTodo.histTodo.leftRequests = [] ∧
      s.workTodo.histTodo.checkedOutRequest = none) := by
  have hok := run_ok h
  have hI := run_histOk h
  have hperm : s.workTodo.histTodo.all.Perm (addedJobs jobs) := hI.perm
  have hchecked : s.workTodo.histTodo.checkedOutRequest = none ↔
      s.currentRequest.reqType ≠ .HIST_REQUEST := hI.checkedOut
  have hpacket : s.packet = none ↔ s.currentRequest.reqType = .NONE := hok.packet_eq_none
  have hdumped : (dumpedJobs s.out).Sublist s.workTodo.histTodo.doneRequests := by
    rw [← dumpedJobs_ofRequest]
    exact hI.dumped
  have hnodup : (addedJobs jobs).Nodup := (addedJobs_ptr_nodup jobs).of_map
  refine ⟨fun job => ?_, ?_, hpacket.not, hok.packet_some, ⟨?_, fun _ hm => hdumped.subset hm⟩,
    fun p job hm => hI.dump_request p job (List.mem_filter.2 ⟨hm, rfl⟩), fun hq _ => ?_⟩
  · rw [← HistTodo.count_all, hperm.count_eq, hnodup.count]
  · rw [Ne, hchecked, not_not]
  · have hdone : s.workTodo.histTodo.doneRequests.Sublist s.workTodo.histTodo.all := by
      simp only [HistTodo.all]
      exact (List.sublist_append_right _ _).trans (List.sublist_append_left _ _)
    exact (hperm.nodup_iff.2 hnodup).sublist (hdumped.trans hdone)
  · obtain ⟨hl, hn⟩ := hI.quit hq
    exact ⟨hl, hchecked.2 (hn ▸ by decide)⟩

/-- A request that times out, the next one with its answer, and the end. -/
def secondAnswer : List Event :=
  connects 40000 1 ++ [.turn {}, .clock 2000000, .turn {}, .clock 2700000, .turn {},
    .historicalData 2 { date := "20180102" }, .historicalData 2 { date := "finished" }, .turn {}]

/-- The one job is asked for twice, and its answer is written once. -/
theorem hist_jobs_kept_answered : ∃ s,
    Run Step (start {} false [.historical_data {}]) secondAnswer s ∧ s.quit = true ∧
      dumpedJobs s.out = [⟨0, {}⟩] ∧ s.workTodo.histTodo.places ⟨0, {}⟩ = 1 := by
  have hout : (secondAnswer.foldlM next (start {} false [.historical_data {}])).map
      (fun s => (s.quit, dumpedJobs s.out)) = some (true, [⟨0, {}⟩]) := by
    decide +kernel
  obtain ⟨s, hs, hl⟩ := Option.map_eq_some_iff.1 hout
  obtain ⟨hq, hd⟩ := Prod.mk.inj hl
  have hrun := Run.of_foldlM (fun _ _ _ => step_of_next) hs
  refine ⟨s, hrun, hq, hd, ?_⟩
  rw [(hist_jobs_kept hrun).1]
  decide

end TwsDL

end Twstools
