/-
  PrintLatch.Ui.Polling

  One polling loop at most for a job, in every run.

  `Watched` says what `watchJob` and `watchActiveJobs` do.  `resume_balance` is the account
  of a handler: the polls and timeouts it leaves or takes away are the keys of
  `pollingTimers` it sets or deletes.  `DashboardMove` says once what a step can do; from
  both, `oneLoop_run`.
-/

import PrintLatch.Ui.Dashboard
import PrintLatch.Reactive.Slots

namespace PrintLatch.Ui

open Reactive

/-! ## Watching -/

/-- What watching the jobs `ids` does: each is polled, if it was not before. -/
structure Watched (page : Page) (ids : List String) (result : Page × List Call) : Prop where
  rest : result.1 = { page with pollingTimers := result.1.pollingTimers }
  keys : ∀ id, result.1.pollingTimers id = true ↔ page.pollingTimers id = true ∨ id ∈ ids
  calls : ∀ call ∈ result.2, ∃ poller, call = .poll poller
  count : ∀ id, result.2.countP (Call.polls id) + (page.pollingTimers id).toNat =
    (result.1.pollingTimers id).toNat

theorem watched_watchJob (page : Page) (id : String) : Watched page [id] (page.watchJob id) := by
  unfold Page.watchJob
  cases hkey : page.pollingTimers id with
  | true =>
      refine ⟨rfl, fun other => ?_, nofun, fun other => ?_⟩
      · constructor
        · exact Or.inl
        · rintro (h | h)
          · exact h
          · rw [List.mem_singleton.mp h]
            exact hkey
      · exact Nat.zero_add _
  | false =>
      refine ⟨rfl, fun other => ?_, fun call hcall => ⟨_, List.mem_singleton.mp hcall⟩,
        fun other => ?_⟩
      · by_cases hother : other = id
        · simp [hother]
        · simp [hother]
      · by_cases hother : other = id
        · subst hother
          simp [Call.polls, hkey]
        · simp [Call.polls, hother, Ne.symm hother]

theorem Watched.trans {page : Page} {ids more : List String} {result rest : Page × List Call}
    (h : Watched page ids result) (h' : Watched result.1 more rest) :
    Watched page (ids ++ more) (rest.1, result.2 ++ rest.2) where
  rest := by
    show rest.1 = { page with pollingTimers := rest.1.pollingTimers }
    rw [h'.rest, h.rest]
  keys id := by
    rw [h'.keys, h.keys, List.mem_append, or_assoc]
  calls call hcall := (List.mem_append.mp hcall).elim (h.calls call) (h'.calls call)
  count id := by
    have hfirst := h.count id
    have hmore := h'.count id
    show (result.2 ++ rest.2).countP (Call.polls id) + _ = (rest.1.pollingTimers id).toNat
    rw [List.countP_append]
    omega

theorem watched_watchAll (page : Page) (ids : List String) :
    Watched page ids (page.watchAll ids) := by
  induction ids generalizing page with
  | nil => exact ⟨rfl, by simp [Page.watchAll], nofun, fun id => Nat.zero_add _⟩
  | cons id ids ih => exact (watched_watchJob page id).trans (ih (page.watchJob id).1)

theorem watched_watchActiveJobs (page : Page) :
    Watched page (activeJobIds page.jobs page.activeJob) page.watchActiveJobs :=
  watched_watchAll page _

theorem mem_activeJobIds {jobs : List JobRecord} {rememberedId : Option String} {job : JobRecord}
    (hmem : job ∈ jobs) (hactive : active job.state = true) :
    job.id ∈ activeJobIds jobs rememberedId := by
  unfold activeJobIds
  rw [List.mem_map]
  refine ⟨job, List.mem_filter.mpr ⟨hmem, ?_⟩, rfl⟩
  simp only [active, decide_eq_true_eq] at hactive ⊢
  rcases hactive with h | h
  · exact Or.inl h
  · exact Or.inr (Or.inl h)

/-! ## The account of a handler -/

/-- The polls of job `id` that wait for their timeout. -/
def Page.waiting (page : Page) (id : String) : Nat :=
  page.timers.countP fun timer => timer.1.id = id

/-- The polls that a handler sends, and those it leaves waiting, are those there were, with
    the one that it ends, as the keys have changed. -/
def Balanced (page : Page) (call : Call) (result : Page × List Call) : Prop :=
  ∀ id, result.2.countP (Call.polls id) + result.1.waiting id + (page.pollingTimers id).toNat =
    (call.polls id).toNat + page.waiting id + (result.1.pollingTimers id).toNat

theorem Watched.timers {page : Page} {ids : List String} {result : Page × List Call}
    (h : Watched page ids result) (id : String) : result.1.waiting id = page.waiting id := by
  unfold Page.waiting
  rw [h.rest]

/-- Watching ends no poll. -/
theorem Watched.balanced {page : Page} {ids : List String} {result : Page × List Call}
    (h : Watched page ids result) {before : Page}
    (hkeys : page.pollingTimers = before.pollingTimers) (htimers : page.timers = before.timers)
    {call : Call} (hcall : ∀ id, call.polls id = false) : Balanced before call result := by
  intro id
  have hcount := h.count id
  have hwaiting := h.timers id
  have hbefore : page.waiting id = before.waiting id := by
    unfold Page.waiting
    rw [htimers]
  rw [hkeys] at hcount
  rw [hcall id, hwaiting, hbefore]
  show _ = 0 + _ + _
  omega

/-- What sends nothing and changes neither keys nor timeouts ends no poll. -/
theorem balanced_of_same {page after : Page} {call : Call}
    (hkeys : after.pollingTimers = page.pollingTimers) (htimers : after.timers = page.timers)
    {calls : List Call} (hsent : ∀ id, calls.countP (Call.polls id) = 0)
    (hcall : ∀ id, call.polls id = false) : Balanced page call (after, calls) := by
  intro id
  have hwaiting : after.waiting id = page.waiting id := by
    unfold Page.waiting
    rw [htimers]
  rw [hsent, hkeys, hwaiting, hcall]
  show _ = 0 + _ + _
  omega

/-- A poll that waits for its next timeout. -/
theorem balanced_of_timeout (page : Page) (poller next : Poller) (delay : Nat)
    (jobs : List JobRecord) (hid : next.id = poller.id)
    (hkey : page.pollingTimers poller.id = true) :
    Balanced page (.poll poller) ({ page with
      jobs := jobs
      pollingTimers := Function.update page.pollingTimers poller.id true
      timers := page.timers ++ [(next, delay)] }, []) := by
  intro id
  have hkeys : Function.update page.pollingTimers poller.id true = page.pollingTimers := by
    rw [← hkey]
    exact Function.update_eq_self _ _
  have hwaiting : (page.timers ++ [(next, delay)]).countP (fun timer => timer.1.id = id) =
      page.waiting id + (Call.polls id (.poll poller)).toNat := by
    rw [List.countP_append, Page.waiting, List.countP_singleton, hid]
    by_cases h : poller.id = id
    · simp [Call.polls, h]
    · simp [Call.polls, h]
  show 0 + _ + _ = _ + _ + (Function.update page.pollingTimers poller.id true id).toNat
  rw [hkeys]
  show 0 + (page.timers ++ [(next, delay)]).countP (fun timer => timer.1.id = id) + _ = _
  rw [hwaiting]
  omega

theorem balanced_pollSucceeded (page : Page) (poller : Poller) (job : JobRecord)
    (hkey : page.pollingTimers poller.id = true) :
    Balanced page (.poll poller) (page.pollSucceeded poller job) := by
  unfold Page.pollSucceeded
  dsimp only
  split
  · exact balanced_of_timeout page poller _ _ _ rfl hkey
  · -- the loop ends, and its key is deleted
    intro id
    have hwatched := watched_watchActiveJobs { page with
      jobs := Page.setJob page.jobs poller.id job
      pollingTimers := Function.update page.pollingTimers poller.id false
      activeJob := if page.activeJob = some poller.id then none else page.activeJob }
    have hcount := hwatched.count id
    have hwaiting := hwatched.timers id
    have hkeys : (Function.update page.pollingTimers poller.id false id).toNat +
        (Call.polls id (.poll poller)).toNat = (page.pollingTimers id).toNat := by
      by_cases h : id = poller.id
      · subst h
        simp [Call.polls, hkey]
      · simp [Call.polls, h, Ne.symm h]
    rw [hwaiting]
    dsimp only at hcount
    show _ + page.waiting id + _ = _ + page.waiting id + _
    omega

theorem balanced_showJobs (page : Page) (jobs : List JobRecord) {call : Call}
    (hcall : ∀ id, call.polls id = false) : Balanced page call (page.showJobs jobs) := by
  unfold Page.showJobs
  dsimp only
  split
  · exact balanced_of_same rfl rfl (fun id => rfl) hcall
  · exact (watched_watchActiveJobs _).balanced rfl rfl hcall

/-- A load that fails ends no poll. -/
theorem balanced_loadFailed (page : Page) (load : Nat) {call : Call}
    (hcall : ∀ id, call.polls id = false) :
    Balanced page call (if load = page.loads then (page.loadFailed, []) else (page, [])) := by
  split
  · unfold Page.loadFailed
    split
    · exact balanced_of_same rfl rfl (fun id => rfl) hcall
    · exact balanced_of_same rfl rfl (fun id => rfl) hcall
  · exact balanced_of_same rfl rfl (fun id => rfl) hcall

theorem balanced_printersLoaded (page : Page) {call : Call} (hcall : ∀ id, call.polls id = false) :
    Balanced page call page.printersLoaded := by
  unfold Page.printersLoaded
  split
  · exact balanced_showJobs page _ hcall
  · exact balanced_of_same rfl rfl (fun id => rfl) hcall
  · exact balanced_of_same rfl rfl (fun id => rfl) hcall

theorem balanced_jobsLoaded (page : Page) (jobs : List JobRecord) {call : Call}
    (hcall : ∀ id, call.polls id = false) : Balanced page call (page.jobsLoaded jobs) := by
  unfold Page.jobsLoaded
  split
  · exact balanced_showJobs page _ hcall
  · exact balanced_of_same rfl rfl (fun id => rfl) hcall
  · exact balanced_of_same rfl rfl (fun id => rfl) hcall

/-- **The account of every handler.** -/
theorem resume_balance (page : Page) (call : Call) (reply : Reply)
    (hkey : ∀ poller, call = .poll poller → page.pollingTimers poller.id = true) :
    Balanced page call (page.resume call reply) := by
  have hsame : (∀ id, call.polls id = false) → Balanced page call (page, []) := fun hcall =>
    balanced_of_same rfl rfl (fun id => rfl) hcall
  cases call with
  | poll poller =>
      have hfailed : Balanced page (.poll poller) (page.pollFailed poller, []) :=
        balanced_of_timeout page poller _ _ page.jobs rfl (hkey poller rfl)
      cases reply with
      | job job => exact balanced_pollSucceeded page poller job (hkey poller rfl)
      | _ => exact hfailed
  | printers load =>
      cases reply with
      | other =>
          show Balanced page _ (if load = page.loads then page.printersLoaded else (page, []))
          split
          · exact balanced_printersLoaded page fun _ => rfl
          · exact hsame fun _ => rfl
      | _ => exact balanced_loadFailed page load fun _ => rfl
  | jobs load =>
      cases reply with
      | jobs jobs =>
          show Balanced page _ (if load = page.loads then page.jobsLoaded jobs else (page, []))
          split
          · exact balanced_jobsLoaded page jobs fun _ => rfl
          · exact hsame fun _ => rfl
      | _ => exact balanced_loadFailed page load fun _ => rfl
  | document =>
      cases reply with
      | _ => exact (watched_watchActiveJobs _).balanced rfl rfl fun _ => rfl
  | cancel id =>
      cases reply with
      | job job => exact balanced_of_same rfl rfl (fun id => rfl) fun _ => rfl
      | _ => exact hsame fun _ => rfl
  | retry id =>
      cases reply with
      | job job => exact (watched_watchJob _ _).balanced rfl rfl fun _ => rfl
      | _ => exact hsame fun _ => rfl
  | create =>
      cases reply with
      | job job => exact (watched_watchJob _ _).balanced rfl rfl fun _ => rfl
      | _ => exact hsame fun _ => rfl

/-! ## What a step can do -/

/-- What the agent answers to a call. -/
inductive Answer (s : Dashboard) : Call → Progress → Reply → Prop where
  | poll (poller : Poller) : Answer s (.poll poller) .sent (s.jobReply poller.id)
  | listed (load : Nat) (ids : List String) :
      Answer s (.jobs load) .sent (.jobs (ids.filterMap s.record?))
  | other {call : Call} (h : call.reads = true) : Answer s call .sent .other
  | refused {call : Call} (h : call.reads = false) : Answer s call .sent .error
  | reloaded (call : Call) (id : String) : Answer s call (.applied id) (s.jobReply id)

/-- The action that a request of the user asks for. -/
inductive Asks (id : String) : Call → Queue.Action → Prop where
  | cancel : Asks id (.cancel id) .cancel
  | retry : Asks id (.retry id) .retry

/-- What a step does, and what it hands over. -/
inductive DashboardMove (s : Dashboard) : Dashboard → List JobRecord → Prop where
  | idle : DashboardMove s s []
  /-- The worker or the recovery changes a job. -/
  | queue {id : String} {action : Queue.Action} {job changed : ServerJob}
      (hjob : s.server id = some job) (hown : ownAction action = true)
      (hact : job.act action = some changed) :
      DashboardMove s { s with server := Function.update s.server id (some changed) } []
  | answered {index : Nat} {call : Call} {progress : Progress} {reply : Reply}
      (hflight : s.flights[index]? = some ⟨call, progress⟩)
      (hanswer : Answer s call progress reply) :
      DashboardMove s (s.setProgress index call (.answered reply)) []
  /-- A job changes as its user has asked for. -/
  | acted {index : Nat} {call : Call} {id : String} {action : Queue.Action}
      {job changed : ServerJob} (hflight : s.flights[index]? = some ⟨call, .sent⟩)
      (hasks : Asks id call action) (hjob : s.server id = some job)
      (hact : job.act action = some changed) :
      DashboardMove s ({ s with
        server := Function.update s.server id (some changed) }.setProgress index call
          (.applied id)) []
  | created {index : Nat} {id : String} (hflight : s.flights[index]? = some ⟨.create, .sent⟩)
      (hfree : s.server id = none) :
      DashboardMove s ({ s with
        server := Function.update s.server id (some .created) }.setProgress index .create
          (.applied id)) []
  | refreshed : DashboardMove s (s.send s.page.refreshAll) []
  | asked {call : Call} (hreads : call.reads = false) :
      DashboardMove s (s.send (s.page, [call])) []
  | timeout {index : Nat} {poller : Poller} {delay : Nat}
      (htimer : s.page.timers[index]? = some (poller, delay)) :
      DashboardMove s
        (s.send ({ s.page with timers := s.page.timers.eraseIdx index }, [.poll poller])) []
  | resumed {index : Nat} {call : Call} {progress : Progress} {reply : Reply}
      (hflight : s.flights[index]? = some ⟨call, progress⟩)
      (hreply : progress = .answered reply ∨
        reply = .error ∧ (progress = .sent ∨ call.reads = true)) :
      DashboardMove s (s.resume index call reply).1 (s.page.handed call reply)

/-- `cancel_job` and `retry_job` change the job, or refuse. -/
theorem change_move {s : Dashboard} {index : Nat} {call : Call} {id : String}
    {action : Queue.Action} (hflight : s.flights[index]? = some ⟨call, .sent⟩)
    (hasks : Asks id call action) : DashboardMove s (s.change index call id action) [] := by
  unfold Dashboard.change
  split
  · refine .answered hflight (.refused ?_)
    cases hasks <;> rfl
  · next changed hchanged =>
      obtain ⟨job, hjob, hact⟩ := Option.bind_eq_some_iff.mp hchanged
      exact .acted hflight hasks hjob hact

/-- **What a step can do.** -/
theorem move_of_step (s : Dashboard) (i : Input) :
    DashboardMove s (s.step i).1 (s.step i).2 := by
  cases i with
  | refresh => exact .refreshed
  | cancel job =>
      unfold Dashboard.step
      dsimp only
      split
      · exact .asked rfl
      · exact .idle
  | retry job =>
      unfold Dashboard.step
      dsimp only
      split
      · exact .asked rfl
      · exact .idle
  | submit => exact .asked rfl
  | timeout index =>
      unfold Dashboard.step
      dsimp only
      split
      · exact .idle
      · next poller delay htimer => exact .timeout htimer
  | handle index listed id =>
      unfold Dashboard.step
      dsimp only
      split
      · next call hflight =>
          cases call with
          | poll poller => exact .answered hflight (.poll poller)
          | printers load => exact .answered hflight (.other rfl)
          | jobs load => exact .answered hflight (.listed load listed)
          | document => exact .answered hflight (.other rfl)
          | cancel target => exact change_move hflight .cancel
          | retry target => exact change_move hflight .retry
          | create =>
              unfold Dashboard.handle
              dsimp only
              split
              · exact .answered hflight (.refused rfl)
              · next hfree => exact .created hflight hfree
      · exact .idle
  | reload index =>
      unfold Dashboard.step
      dsimp only
      split
      · next call id hflight => exact .answered hflight (.reloaded call id)
      · exact .idle
  | queue id action =>
      unfold Dashboard.step
      dsimp only
      split
      · next changed hchanged =>
          obtain ⟨job, hjob, hact⟩ := Option.bind_eq_some_iff.mp hchanged
          split
          · next hown => exact .queue hjob hown hact
          · exact .idle
      · exact .idle
  | deliver index =>
      unfold Dashboard.step
      dsimp only
      split
      · next call reply hflight => exact .resumed hflight (Or.inl rfl)
      · exact .idle
  | lose index =>
      unfold Dashboard.step
      dsimp only
      split
      · next call progress hflight =>
          split
          · next hlost => exact .resumed hflight (Or.inr ⟨rfl, hlost⟩)
          · exact .idle
      · exact .idle

/-! ## One loop at most -/

/-- The polling loops are the keys of `pollingTimers`. -/
def OneLoop (s : Dashboard) : Prop := ∀ id, s.loops id = (s.page.pollingTimers id).toNat

/-- The calls under way that poll job `id`. -/
def Dashboard.polling (s : Dashboard) (id : String) : Nat :=
  s.flights.countP fun flight => flight.call.polls id

theorem loops_eq (s : Dashboard) (id : String) : s.loops id = s.polling id + s.page.waiting id :=
  rfl

theorem loops_send (s : Dashboard) (result : Page × List Call) (id : String) :
    (s.send result).loops id =
      s.polling id + result.2.countP (Call.polls id) + result.1.waiting id := by
  obtain ⟨page, calls⟩ := result
  show (s.flights ++ calls.map fun call => (⟨call, .sent⟩ : Flight)).countP _ + _ = _
  rw [List.countP_append, List.countP_map]
  rfl

theorem loops_setProgress {s : Dashboard} {index : Nat} {call : Call} {before : Progress}
    (hflight : s.flights[index]? = some ⟨call, before⟩) (progress : Progress) (id : String) :
    (s.setProgress index call progress).loops id = s.loops id := by
  have hsame : (s.flights.set index ⟨call, progress⟩).countP (fun flight => flight.call.polls id) =
      s.polling id :=
    countP_set_of_eq (fun flight : Flight => flight.call.polls id) hflight rfl
  show (s.flights.set index ⟨call, progress⟩).countP _ + _ = _
  rw [hsame]
  rfl

/-- A poll under way has the key of its job. -/
theorem OneLoop.key {s : Dashboard} (h : OneLoop s) {index : Nat} {poller : Poller}
    {progress : Progress} (hflight : s.flights[index]? = some ⟨.poll poller, progress⟩) :
    s.page.pollingTimers poller.id = true := by
  have hmem : (⟨.poll poller, progress⟩ : Flight) ∈ s.flights := List.mem_of_getElem? hflight
  have hpositive : 0 < s.polling poller.id :=
    List.countP_pos_iff.mpr ⟨_, hmem, by simp [Call.polls]⟩
  have hloops := h poller.id
  rw [loops_eq] at hloops
  cases hkey : s.page.pollingTimers poller.id with
  | true => rfl
  | false =>
      rw [hkey] at hloops
      simp only [Bool.toNat_false] at hloops
      omega

/-- A loop that is not under way waits for its timeout. -/
theorem OneLoop.timer {s : Dashboard} (h : OneLoop s) (hflights : s.flights = []) {id : String}
    (hkey : s.page.pollingTimers id = true) : ∃ timer ∈ s.page.timers, timer.1.id = id := by
  have hloops := h id
  have hnone : s.polling id = 0 := by
    unfold Dashboard.polling
    rw [hflights]
    rfl
  rw [loops_eq, hnone, hkey, Nat.zero_add] at hloops
  have hpositive : 0 < s.page.waiting id := by
    rw [hloops]
    exact Nat.one_pos
  obtain ⟨timer, hmem, htimer⟩ := List.countP_pos_iff.mp hpositive
  exact ⟨timer, hmem, of_decide_eq_true htimer⟩

/-- One step keeps the account of the loops. -/
theorem oneLoop_step {s after : Dashboard} {handed : List JobRecord} (h : OneLoop s)
    (hmove : DashboardMove s after handed) : OneLoop after := by
  intro id
  have hloops := h id
  cases hmove with
  | idle => exact hloops
  | queue => exact hloops
  | answered hflight => exact (loops_setProgress hflight _ id).trans hloops
  | acted hflight => exact (loops_setProgress (by exact hflight) _ id).trans hloops
  | created hflight => exact (loops_setProgress (by exact hflight) _ id).trans hloops
  | refreshed =>
      rw [loops_send, Page.refreshAll]
      split
      · exact hloops
      · exact hloops
  | @asked call hreads =>
      rw [loops_send, List.countP_singleton]
      have hcall : call.polls id = false := by
        cases call with
        | poll poller => cases hreads
        | _ => rfl
      rw [hcall]
      exact hloops
  | @timeout index poller delay htimer =>
      -- the loop goes on from its timeout to its next poll
      rw [loops_send, List.countP_singleton]
      have hone : (s.page.timers.eraseIdx index).countP (fun timer => timer.1.id = id) +
          (decide (poller.id = id)).toNat = s.page.timers.countP fun timer => timer.1.id = id :=
        countP_eraseIdx (fun timer => decide (timer.1.id = id)) htimer
      rw [loops_eq, Page.waiting] at hloops
      show s.polling id + _ + (s.page.timers.eraseIdx index).countP _ =
        (s.page.pollingTimers id).toNat
      have hpoll : (if Call.polls id (.poll poller) = true then 1 else 0) =
          (decide (poller.id = id)).toNat := by
        by_cases hid : poller.id = id
        · simp [Call.polls, hid]
        · simp [Call.polls, hid]
      rw [hpoll]
      omega
  | @resumed index call progress reply hflight =>
      -- the call is taken out, and the handler's account says the rest
      have hbalance := resume_balance s.page call reply (by
        rintro poller rfl
        exact h.key hflight) id
      have hone : (s.flights.eraseIdx index).countP (fun flight => flight.call.polls id) +
          (call.polls id).toNat = s.flights.countP fun flight => flight.call.polls id :=
        countP_eraseIdx (fun flight : Flight => flight.call.polls id) hflight
      unfold Dashboard.resume
      rw [loops_send]
      rw [loops_eq, Dashboard.polling] at hloops
      show (s.flights.eraseIdx index).countP _ + _ + _ =
        ((s.page.resume call reply).1.pollingTimers id).toNat
      omega

theorem oneLoop_opened (server : String → Option ServerJob) (activeJob : Option String) :
    OneLoop (.opened server activeJob) := fun _ => rfl

/-- **In every run.** -/
theorem oneLoop_run (server : String → Option ServerJob) (activeJob : Option String)
    (is : List Input) : OneLoop (run Dashboard.step (.opened server activeJob) is) :=
  run_invariant (fun _ s => OneLoop s) (oneLoop_opened server activeJob)
    (fun _ s i h => oneLoop_step h (move_of_step s i)) is

end PrintLatch.Ui
