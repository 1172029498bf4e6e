/-
  PrintLatch.Ui.Records

  What a handler does to the records of the page.

  `Handled` is the specification of every handler: where the records come from, and which
  jobs are still followed.  A job is `Followed` when it has a polling key, or when the load
  under way is going to look for it.
-/

import PrintLatch.Ui.Polling

namespace PrintLatch.Ui

/-! ## One record of the list -/

theorem mem_setJob {jobs : List JobRecord} {id : String} {job r : JobRecord}
    (h : r ∈ Page.setJob jobs id job) : r ∈ jobs ∨ r = job := by
  unfold Page.setJob at h
  split at h
  · exact List.mem_or_eq_of_mem_set h
  · exact (List.mem_cons.mp h).symm

theorem setJob_cons (head : JobRecord) (jobs : List JobRecord) (id : String) (job : JobRecord)
    (hhead : head.id ≠ id) :
    Page.setJob (head :: jobs) id job =
      if jobs.findIdx? (fun candidate => candidate.id = id) = none then job :: head :: jobs
      else head :: Page.setJob jobs id job := by
  unfold Page.setJob
  rw [List.findIdx?_cons]
  cases h : jobs.findIdx? fun candidate => candidate.id = id with
  | none => simp [hhead]
  | some index => simp [hhead]

/-- The records of the other jobs stay. -/
theorem mem_setJob_of_ne {jobs : List JobRecord} {id : String} {job r : JobRecord}
    (hmem : r ∈ jobs) (hne : r.id ≠ id) : r ∈ Page.setJob jobs id job := by
  unfold Page.setJob
  split
  · next index hindex =>
      obtain ⟨hlt, hfound, -⟩ := List.findIdx?_eq_some_iff_getElem.mp hindex
      refine Reactive.mem_set_of_ne (List.getElem?_eq_getElem hlt) hmem ?_
      rintro rfl
      exact hne (of_decide_eq_true hfound)
  · exact List.mem_cons_of_mem _ hmem

/-- The first record of each job, after a record was set. -/
theorem find?_setJob {jobs : List JobRecord} {id : String} {job : JobRecord} (hid : job.id = id)
    (other : String) :
    (Page.setJob jobs id job).find? (fun r => r.id = other) =
      if other = id then some job else jobs.find? fun r => r.id = other := by
  induction jobs with
  | nil =>
      show [job].find? (fun r => r.id = other) = _
      by_cases h : other = id
      · simp [h, hid]
      · simp [h, hid, Ne.symm h]
  | cons head jobs ih =>
      by_cases hhead : head.id = id
      · -- the head is the job's record
        have hset : Page.setJob (head :: jobs) id job = job :: jobs := by
          unfold Page.setJob
          rw [List.findIdx?_cons]
          simp [hhead]
        rw [hset]
        by_cases h : other = id
        · simp [h, hid]
        · simp [h, hid, hhead, Ne.symm h]
      · rw [setJob_cons head jobs id job hhead]
        split
        · by_cases h : other = id
          · simp [h, hid]
          · simp [h, hid, Ne.symm h]
        · rw [List.find?_cons, ih]
          by_cases h : other = id
          · simp [h, hhead]
          · simp [h, List.find?_cons]

/-! ## What a handler does -/

/-- The records of a response. -/
def Reply.records : Reply → List JobRecord
  | .job r => [r]
  | .jobs listed => listed
  | .other | .error => []

/-- The record waits for the printers. -/
def Page.Fetched (page : Page) (r : JobRecord) : Prop :=
  ∃ printers jobs, page.load = some (.fetching printers (some jobs)) ∧ r ∈ jobs

/-- Job `id` has a polling key, or the load under way shows it active and will look for the
    active jobs. -/
def Page.Followed (page : Page) (id : String) : Prop :=
  page.pollingTimers id = true ∨
    page.load = some .previewing ∧ ∃ r ∈ page.jobs, r.id = id ∧ active r.state = true

/-- The response is of the job that the call is about; a canceled job is at rest. -/
def Fitting : Call → Reply → Prop
  | .poll poller, .job r => r.id = poller.id
  | .retry id, .job r => r.id = id
  | .cancel _, .job r => r.state = .canceled
  | _, _ => True

/-- What a handler does to the records of the page, with `reply` as its response. -/
structure Handled (page : Page) (reply : Reply) (handed : List JobRecord) (after : Page) :
    Prop where
  /-- What is handed over was in the response, or has waited. -/
  source : ∀ r ∈ handed, r ∈ reply.records ∨ page.Fetched r
  fetched : ∀ r, after.Fetched r → r ∈ reply.records ∨ page.Fetched r
  jobs : ∀ r ∈ after.jobs, r ∈ page.jobs ∨ r ∈ handed
  shown : ∀ id r, after.shown id = some r → page.shown id = some r ∨ r ∈ handed
  /-- A job of which nothing is handed over is followed as before. -/
  kept : ∀ id, (∀ r ∈ handed, r.id ≠ id) → page.Followed id → after.Followed id
  watched : ∀ r ∈ handed, active r.state = true → after.Followed r.id

/-- What hands nothing over, keeps the records and follows every job as before. -/
theorem handled_of_jobs {page after : Page} {reply : Reply} (hjobs : after.jobs = page.jobs)
    (hfetched : ∀ r, after.Fetched r → r ∈ reply.records ∨ page.Fetched r)
    (hkept : ∀ id, page.Followed id → after.Followed id) : Handled page reply [] after where
  source := nofun
  fetched := hfetched
  jobs r h := Or.inl (hjobs ▸ h)
  shown id r h := Or.inl (by
    unfold Page.shown at h ⊢
    rw [← hjobs]
    exact h)
  kept id _ h := hkept id h
  watched := nofun

/-- What changes neither the records nor the load, and deletes no key. -/
theorem handled_of_same {page after : Page} (reply : Reply) (hjobs : after.jobs = page.jobs)
    (hload : after.load = page.load)
    (hkeys : ∀ id, page.pollingTimers id = true → after.pollingTimers id = true) :
    Handled page reply [] after := by
  refine handled_of_jobs hjobs (fun r h => Or.inr ?_) fun id h => ?_
  · unfold Page.Fetched at h ⊢
    rw [← hload]
    exact h
  · unfold Page.Followed at h ⊢
    rw [hload, hjobs]
    exact h.imp_left (hkeys id)

/-- A load that begins or ends without records. -/
theorem handled_of_load {page after : Page} (reply : Reply) (hjobs : after.jobs = page.jobs)
    (hkeys : after.pollingTimers = page.pollingTimers) (hbefore : page.load ≠ some .previewing)
    (hfetched : ∀ r, after.Fetched r → r ∈ reply.records ∨ page.Fetched r) :
    Handled page reply [] after := by
  refine handled_of_jobs hjobs hfetched fun id h => Or.inl ?_
  rw [hkeys]
  exact h.resolve_right fun hprev => hbefore hprev.1

theorem Watched.followed {page : Page} {ids : List String} {result : Page × List Call}
    (h : Watched page ids result) {id : String} (hid : page.Followed id) :
    result.1.Followed id := by
  unfold Page.Followed at hid ⊢
  rw [h.rest]
  exact hid.imp_left fun hkey => (h.keys id).mpr (Or.inl hkey)

/-- Watching after a handler. -/
theorem Handled.watch {page after : Page} {reply : Reply} {handed : List JobRecord}
    (h : Handled page reply handed after) {ids : List String} {result : Page × List Call}
    (hwatched : Watched after ids result) : Handled page reply handed result.1 where
  source := h.source
  fetched r hr := h.fetched r (by
    unfold Page.Fetched at hr ⊢
    rw [hwatched.rest] at hr
    exact hr)
  jobs r hr := h.jobs r (by
    rw [hwatched.rest] at hr
    exact hr)
  shown id r hr := h.shown id r (by
    rw [hwatched.rest] at hr
    exact hr)
  kept id hne hid := hwatched.followed (h.kept id hne hid)
  watched r hr hactive := hwatched.followed (h.watched r hr hactive)

/-! ## The handlers -/

/-- A handler that sets the record of one job. -/
theorem handled_setJob {page after : Page} {id : String} {job : JobRecord} (hid : job.id = id)
    (hjobs : after.jobs = Page.setJob page.jobs id job) (hload : after.load = page.load)
    (hkeys : ∀ other, other ≠ id → page.pollingTimers other = true →
      after.pollingTimers other = true)
    (hwatched : active job.state = true → after.Followed id) :
    Handled page (.job job) [job] after where
  source r hr := Or.inl hr
  fetched r h := Or.inr (by
    unfold Page.Fetched at h ⊢
    rw [← hload]
    exact h)
  jobs r h := by
    rw [hjobs] at h
    rcases mem_setJob h with hr | rfl
    · exact Or.inl hr
    · exact Or.inr (List.mem_singleton_self _)
  shown other r h := by
    unfold Page.shown at h ⊢
    rw [hjobs, find?_setJob hid] at h
    split at h
    · obtain rfl := Option.some.inj h
      exact Or.inr (List.mem_singleton_self _)
    · exact Or.inl h
  kept other hne h := by
    have hother : other ≠ id := by
      rintro rfl
      exact hne job (List.mem_singleton_self _) hid
    rcases h with hkey | ⟨hprev, r, hr, hrid, hactive⟩
    · exact Or.inl (hkeys other hother hkey)
    · refine Or.inr ⟨hload.trans hprev, r, ?_, hrid, hactive⟩
      rw [hjobs]
      exact mem_setJob_of_ne hr (by rwa [hrid])
  watched r hr hactive := by
    obtain rfl := List.mem_singleton.mp hr
    rw [hid]
    exact hwatched hactive

theorem handled_pollSucceeded (page : Page) (poller : Poller) (job : JobRecord)
    (hid : job.id = poller.id) :
    Handled page (.job job) [job] (page.pollSucceeded poller job).1 := by
  unfold Page.pollSucceeded
  dsimp only
  split
  · refine handled_setJob hid rfl rfl (fun other hne hkey => ?_) fun _ => Or.inl ?_
    · exact (Function.update_of_ne hne _ _).trans hkey
    · exact Function.update_self _ _ _
  · next hrest =>
      refine Handled.watch ?_ (watched_watchActiveJobs _)
      refine handled_setJob hid rfl rfl (fun other hne hkey => ?_) fun hactive => ?_
      · exact (Function.update_of_ne hne _ _).trans hkey
      · exact absurd hactive hrest

theorem handled_jobRetried (page : Page) (id : String) (job : JobRecord) (hid : job.id = id) :
    Handled page (.job job) [job] (page.jobRetried id job).1 := by
  have hwatched := watched_watchJob (page.replaceJob job) id
  refine handled_setJob hid ?_ ?_ (fun other _ hkey => ?_) fun _ => Or.inl ?_
  · show ((page.replaceJob job).watchJob id).1.jobs = _
    rw [hwatched.rest, ← hid]
    rfl
  · show ((page.replaceJob job).watchJob id).1.load = _
    rw [hwatched.rest]
    rfl
  · exact (hwatched.keys other).mpr (Or.inl hkey)
  · exact (hwatched.keys id).mpr (Or.inr (List.mem_singleton_self id))

theorem handled_jobCreated (page : Page) (job : JobRecord) :
    Handled page (.job job) [job] (page.jobCreated job).1 := by
  let after : Page := { page with jobs := job :: page.jobs, activeJob := some job.id }
  have hwatched : Watched after [job.id] (page.jobCreated job) := watched_watchJob after job.id
  have hkey := (hwatched.keys job.id).mpr (Or.inr (List.mem_singleton_self _))
  refine ⟨fun r hr => Or.inl hr, fun r hr => Or.inr ?_, fun r hr => ?_, fun id r hr => ?_,
    fun id _ hid => ?_, fun r hr _ => Or.inl ?_⟩
  · unfold Page.Fetched at hr ⊢
    rw [hwatched.rest] at hr
    exact hr
  · rw [hwatched.rest] at hr
    rcases List.mem_cons.mp hr with rfl | hr
    · exact Or.inr (List.mem_singleton_self _)
    · exact Or.inl hr
  · unfold Page.shown at hr ⊢
    rw [hwatched.rest] at hr
    rcases List.find?_cons_eq_some.mp hr with ⟨-, rfl⟩ | ⟨-, hr⟩
    · exact Or.inr (List.mem_singleton_self _)
    · exact Or.inl hr
  · refine hwatched.followed ?_
    rcases hid with hkey | ⟨hprev, r, hr, hactive⟩
    · exact Or.inl hkey
    · exact Or.inr ⟨hprev, r, List.mem_cons_of_mem _ hr, hactive⟩
  · obtain rfl := List.mem_singleton.mp hr
    exact hkey

/-- `loadProtectedData` follows every active job it shows. -/
theorem handled_showJobs (page : Page) (jobs : List JobRecord) {reply : Reply}
    (hload : page.load ≠ some .previewing)
    (hsource : ∀ r ∈ jobs, r ∈ reply.records ∨ page.Fetched r) :
    Handled page reply jobs (page.showJobs jobs).1 := by
  have hkept : ∀ id, page.Followed id → page.pollingTimers id = true := fun id h =>
    h.resolve_right fun hprev => hload hprev.1
  unfold Page.showJobs
  dsimp only
  split
  · refine ⟨hsource, ?_, fun r hr => Or.inr hr, fun id r hr => Or.inr ?_, fun id _ hid => ?_,
      fun r hr hactive => Or.inr ⟨rfl, r, hr, rfl, hactive⟩⟩
    · rintro r ⟨printers, waiting, h, -⟩
      cases h
    · exact List.mem_of_find?_eq_some hr
    · exact Or.inl (hkept id hid)
  · -- the active jobs are looked for at once
    have hwatched := watched_watchActiveJobs { page with jobs := jobs, load := none }
    refine ⟨hsource, ?_, fun r hr => Or.inr ?_, fun id r hr => Or.inr ?_, fun id _ hid => ?_,
      fun r hr hactive => Or.inl ?_⟩
    · rintro r ⟨printers, waiting, h, -⟩
      rw [hwatched.rest] at h
      cases h
    · rw [hwatched.rest] at hr
      exact hr
    · unfold Page.shown at hr
      rw [hwatched.rest] at hr
      exact List.mem_of_find?_eq_some hr
    · exact Or.inl ((hwatched.keys id).mpr (Or.inl (hkept id hid)))
    · exact (hwatched.keys r.id).mpr (Or.inr (mem_activeJobIds hr hactive))

theorem handled_documentLoaded (page : Page) (loaded : Bool) (reply : Reply) :
    Handled page reply [] (page.documentLoaded loaded).1 := by
  let after : Page := { page with load := none, previewUrl := page.previewUrl || loaded }
  have hwatched : Watched after _ (page.documentLoaded loaded) := watched_watchActiveJobs after
  refine handled_of_jobs ?_ ?_ fun id hid => Or.inl ?_
  · rw [hwatched.rest]
  · rintro r ⟨printers, waiting, h, -⟩
    rw [hwatched.rest] at h
    cases h
  · -- what the load was going to look for is looked for now
    rcases hid with hkey | ⟨-, r, hr, rfl, hactive⟩
    · exact (hwatched.keys id).mpr (Or.inl hkey)
    · exact (hwatched.keys r.id).mpr (Or.inr (mem_activeJobIds hr hactive))

theorem handled_loadFailed (page : Page) (load : Nat) (reply : Reply) :
    Handled page reply []
      (if load = page.loads then (page.loadFailed, ([] : List Call)) else (page, [])).1 := by
  split
  · show Handled page reply [] page.loadFailed
    unfold Page.loadFailed
    split
    · -- the jobs that have waited are dropped
      next hload =>
        refine handled_of_load reply rfl rfl ?_ ?_
        · rw [hload]
          nofun
        · rintro r ⟨printers, waiting, h, -⟩
          cases h
    · exact handled_of_same reply rfl rfl fun _ => id
  · exact handled_of_same reply rfl rfl fun _ => id

theorem handled_printersLoaded (page : Page) (reply : Reply) :
    Handled page reply
      (match page.load with
        | some (.fetching _ (some jobs)) => jobs
        | _ => []) page.printersLoaded.1 := by
  unfold Page.printersLoaded
  rcases hload : page.load with _ | ⟨printers, _ | jobs⟩ | _
  · exact handled_of_same reply rfl rfl fun _ => id
  · refine handled_of_load reply rfl rfl ?_ ?_
    · rw [hload]
      nofun
    · rintro r ⟨_, waiting, h, -⟩
      cases h
  · refine handled_showJobs page jobs ?_ fun r hr => Or.inr ⟨printers, jobs, hload, hr⟩
    rw [hload]
    nofun
  · exact handled_of_same reply rfl rfl fun _ => id

theorem handled_jobsLoaded (page : Page) (jobs : List JobRecord) :
    Handled page (.jobs jobs)
      (match page.load with
        | some (.fetching true _) => jobs
        | _ => []) (page.jobsLoaded jobs).1 := by
  unfold Page.jobsLoaded
  rcases hload : page.load with _ | ⟨_ | _, before⟩ | _
  · exact handled_of_same _ rfl rfl fun _ => id
  · refine handled_of_load _ rfl rfl ?_ ?_
    · rw [hload]
      nofun
    · rintro r ⟨printers, waiting, h, hr⟩
      cases h
      exact Or.inl hr
  · refine handled_showJobs page jobs ?_ fun r hr => Or.inl hr
    rw [hload]
    nofun
  · exact handled_of_same _ rfl rfl fun _ => id

/-- **What every handler does.** -/
theorem resume_handled (page : Page) (call : Call) (reply : Reply) (hfits : Fitting call reply) :
    Handled page reply (page.handed call reply) (page.resume call reply).1 := by
  have hsame : Handled page reply [] page := handled_of_same reply rfl rfl fun _ => id
  cases call with
  | poll poller =>
      have hfailed : Handled page reply [] (page.pollFailed poller) := by
        refine handled_of_same reply rfl rfl fun id hkey => ?_
        by_cases h : id = poller.id
        · exact h ▸ Function.update_self _ _ _
        · exact (Function.update_of_ne h _ _).trans hkey
      cases reply with
      | job job => exact handled_pollSucceeded page poller job hfits
      | _ => exact hfailed
  | printers load =>
      cases reply with
      | other =>
          unfold Page.resume Page.handed
          dsimp only
          by_cases hload : load = page.loads
          · simp only [if_pos hload]
            exact handled_printersLoaded page .other
          · simp only [if_neg hload]
            split
            · exact hsame
            · exact hsame
      | _ => exact handled_loadFailed page load _
  | jobs load =>
      cases reply with
      | jobs jobs =>
          unfold Page.resume Page.handed
          dsimp only
          by_cases hload : load = page.loads
          · simp only [if_pos hload]
            exact handled_jobsLoaded page jobs
          · simp only [if_neg hload]
            split
            · exact hsame
            · exact hsame
      | _ => exact handled_loadFailed page load _
  | document =>
      cases reply with
      | other => exact handled_documentLoaded page true _
      | _ => exact handled_documentLoaded page false _
  | cancel id =>
      cases reply with
      | job job =>
          -- the record is at rest
          refine handled_setJob rfl rfl rfl (fun _ _ hkey => hkey) fun hactive => ?_
          have hstate : job.state = .canceled := hfits
          rw [hstate] at hactive
          cases hactive
      | _ => exact hsame
  | retry id =>
      cases reply with
      | job job => exact handled_jobRetried page id job hfits
      | _ => exact hsame
  | create =>
      cases reply with
      | job job => exact handled_jobCreated page job
      | _ => exact hsame

/-! ## The preview -/

theorem showJobs_previewing {page : Page} {jobs : List JobRecord}
    (h : (page.showJobs jobs).1.load = some .previewing) :
    .document ∈ (page.showJobs jobs).2 := by
  unfold Page.showJobs at h ⊢
  dsimp only at h ⊢
  split at h
  · next hpreview =>
      rw [if_pos hpreview]
      exact List.mem_singleton_self _
  · rw [(watched_watchActiveJobs _).rest] at h
    cases h

theorem printersLoaded_previewing {page : Page}
    (h : page.printersLoaded.1.load = some .previewing) :
    .document ∈ page.printersLoaded.2 ∨ page.load = some .previewing := by
  unfold Page.printersLoaded at h ⊢
  rcases hload : page.load with _ | ⟨printers, _ | jobs⟩ | _
  · simp only [hload] at h
    cases h
  · simp only [hload] at h
    cases h
  · simp only [hload] at h
    exact Or.inl (showJobs_previewing h)
  · exact Or.inr rfl

theorem jobsLoaded_previewing {page : Page} {jobs : List JobRecord}
    (h : (page.jobsLoaded jobs).1.load = some .previewing) :
    .document ∈ (page.jobsLoaded jobs).2 ∨ page.load = some .previewing := by
  unfold Page.jobsLoaded at h ⊢
  rcases hload : page.load with _ | ⟨_ | _, before⟩ | _
  · simp only [hload] at h
    cases h
  · simp only [hload] at h
    cases h
  · simp only [hload] at h
    exact Or.inl (showJobs_previewing h)
  · exact Or.inr rfl

theorem loadFailed_previewing {page : Page} (h : page.loadFailed.load = some .previewing) :
    page.load = some .previewing := by
  unfold Page.loadFailed at h
  split at h
  · cases h
  · exact h

/-- The load ends with the document. -/
theorem resume_document_load (page : Page) (reply : Reply) :
    (page.resume .document reply).1.load = none := by
  have hended : ∀ loaded, (page.documentLoaded loaded).1.load = none := by
    intro loaded
    unfold Page.documentLoaded
    rw [(watched_watchActiveJobs _).rest]
  cases reply with
  | _ => exact hended _

/-- A load gets to its preview with the request for the document. -/
theorem resume_previewing {page : Page} {call : Call} {reply : Reply}
    (h : (page.resume call reply).1.load = some .previewing) :
    .document ∈ (page.resume call reply).2 ∨ page.load = some .previewing := by
  cases call with
  | poll poller =>
      refine Or.inr ?_
      cases reply with
      | job job =>
          unfold Page.resume Page.pollSucceeded at h
          dsimp only at h
          split at h
          · exact h
          · rw [(watched_watchActiveJobs _).rest] at h
            exact h
      | _ => exact h
  | printers load =>
      unfold Page.resume at h ⊢
      cases reply with
      | other =>
          dsimp only at h ⊢
          split at h
          · next hload =>
              rw [if_pos hload]
              exact printersLoaded_previewing h
          · exact Or.inr h
      | _ =>
          dsimp only at h
          split at h
          · exact Or.inr (loadFailed_previewing h)
          · exact Or.inr h
  | jobs load =>
      unfold Page.resume at h ⊢
      cases reply with
      | jobs jobs =>
          dsimp only at h ⊢
          split at h
          · next hload =>
              rw [if_pos hload]
              exact jobsLoaded_previewing h
          · exact Or.inr h
      | _ =>
          dsimp only at h
          split at h
          · exact Or.inr (loadFailed_previewing h)
          · exact Or.inr h
  | document =>
      rw [resume_document_load] at h
      cases h
  | cancel id =>
      cases reply with
      | _ => exact Or.inr h
  | retry id =>
      cases reply with
      | job job =>
          have hload : (page.jobRetried id job).1.load = page.load := by
            show ((page.replaceJob job).watchJob id).1.load = _
            rw [(watched_watchJob (page.replaceJob job) id).rest]
            rfl
          exact Or.inr (hload.symm.trans h)
      | _ => exact Or.inr h
  | create =>
      cases reply with
      | job job =>
          have hload : (page.jobCreated job).1.load = page.load := by
            show (Page.watchJob _ job.id).1.load = _
            rw [(watched_watchJob
              { page with jobs := job :: page.jobs, activeJob := some job.id } job.id).rest]
          exact Or.inr (hload.symm.trans h)
      | _ => exact Or.inr h

end PrintLatch.Ui
