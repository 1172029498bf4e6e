/-
  PrintLatch.Ui.Tracking

  The dashboard keeps track of its active jobs while responses come in order.

  `Kept` holds in every run, in order or not.  Its heart is `Settled`: a record of a job at
  rest is the job's, or a retry is under way, or a newer record was handed over.  In a run
  in order the record that was handed over last is the newest; so when nothing is under
  way, a job whose last record is at rest is at rest.
-/

import PrintLatch.Ui.Records

namespace PrintLatch.Ui

open Reactive

/-! ## The record handed over last -/

/-- The record of job `id` that was handed over last. -/
def lastHanded (id : String) (handed : List JobRecord) : Option JobRecord :=
  (handed.filter fun r => r.id = id).getLast?

theorem lastHanded_append (id : String) (before handed : List JobRecord) :
    lastHanded id (before ++ handed) = (lastHanded id handed).or (lastHanded id before) := by
  unfold lastHanded
  rw [List.filter_append, List.getLast?_append]

theorem mem_of_lastHanded {id : String} {handed : List JobRecord} {r : JobRecord}
    (h : lastHanded id handed = some r) : r ∈ handed ∧ r.id = id := by
  have hmem := List.mem_of_getLast? h
  rw [List.mem_filter] at hmem
  exact ⟨hmem.1, of_decide_eq_true hmem.2⟩

theorem lastHanded_of_mem {handed : List JobRecord} {r : JobRecord} (h : r ∈ handed) :
    ∃ last, lastHanded r.id handed = some last := by
  have hmem : r ∈ handed.filter fun other => other.id = r.id :=
    List.mem_filter.mpr ⟨h, decide_eq_true rfl⟩
  exact ⟨_, List.getLast?_eq_getLast_of_ne_nil (List.ne_nil_of_mem hmem)⟩

theorem lastHanded_eq_none {id : String} {handed : List JobRecord}
    (h : lastHanded id handed = none) : ∀ r ∈ handed, r.id ≠ id := by
  rintro r hr rfl
  obtain ⟨last, hlast⟩ := lastHanded_of_mem hr
  rw [h] at hlast
  cases hlast

/-- In order, the last record is the newest. -/
theorem InOrder.newest {handed : List JobRecord} (h : InOrder handed) {last r : JobRecord}
    (hlast : lastHanded r.id handed = some last) (hr : r ∈ handed) :
    r.version ≤ last.version := by
  have hid := (mem_of_lastHanded hlast).2
  obtain ⟨before, hsplit⟩ := List.getLast?_eq_some_iff.mp hlast
  have horder : InOrder (before ++ [last]) := by
    rw [← hsplit]
    exact List.Pairwise.filter _ h
  have hmem : r ∈ before ++ [last] := by
    rw [← hsplit]
    exact List.mem_filter.mpr ⟨hr, decide_eq_true rfl⟩
  rcases List.mem_append.mp hmem with hbefore | hlast
  · exact (List.pairwise_append.mp horder).2.2 r hbefore last (List.mem_singleton_self _) hid.symm
  · rw [List.mem_singleton.mp hlast]

/-! ## Jobs on the agent -/

theorem version_of_act {job changed : ServerJob} {action : Queue.Action}
    (hact : job.act action = some changed) : job.version < changed.version := by
  obtain ⟨entry, -, rfl⟩ := Option.map_eq_some_iff.mp hact
  exact Nat.lt_succ_self _

/-- What moves a job at rest is a retry. -/
theorem retry_of_act {job changed : ServerJob} {action : Queue.Action}
    (hact : job.act action = some changed) (hrest : active job.state = false) :
    action = .retry := by
  obtain ⟨entry, hentry, -⟩ := Option.map_eq_some_iff.mp hact
  have hqueued : job.state ≠ .queued := by
    intro h
    rw [h] at hrest
    cases hrest
  have hprinting : job.state ≠ .printing := by
    intro h
    rw [h] at hrest
    cases hrest
  cases action with
  | retry => rfl
  | claim => simp [Queue.Entry.act, hqueued] at hentry
  | cancel => simp [Queue.Entry.act, hqueued] at hentry
  | recover => simp [Queue.Entry.act, hprinting] at hentry
  | succeed => simp [Queue.Entry.act, hprinting] at hentry
  | fail => simp [Queue.Entry.act, hprinting] at hentry

/-- A canceled job stays canceled. -/
theorem act_canceled {job changed : ServerJob} {action : Queue.Action}
    (hact : job.act action = some changed) : job.state ≠ .canceled := by
  intro hcanceled
  obtain rfl := retry_of_act hact (by rw [hcanceled]; rfl)
  obtain ⟨entry, hentry, -⟩ := Option.map_eq_some_iff.mp hact
  simp [Queue.Entry.act, hcanceled, Queue.retryable] at hentry

theorem canceled_of_act {job changed : ServerJob} (hact : job.act .cancel = some changed) :
    changed.state = .canceled := by
  obtain ⟨entry, hentry, rfl⟩ := Option.map_eq_some_iff.mp hact
  unfold Queue.Entry.act at hentry
  dsimp only at hentry
  split at hentry
  · obtain rfl := Option.some.inj hentry
    rfl
  · cases hentry

/-! ## What a step does to the jobs and to the calls -/

/-- A job changes by one action; a retry has its call under way. -/
theorem server_of_move {s after : Dashboard} {handed : List JobRecord}
    (hmove : DashboardMove s after handed) {id : String} {job : ServerJob}
    (hjob : s.server id = some job) :
    after.server id = some job ∨ ∃ action changed, job.act action = some changed ∧
      after.server id = some changed ∧
      (action = .retry → (⟨.retry id, .applied id⟩ : Flight) ∈ after.flights) := by
  cases hmove with
  | idle => exact Or.inl hjob
  | answered => exact Or.inl hjob
  | refreshed => exact Or.inl hjob
  | asked => exact Or.inl hjob
  | timeout => exact Or.inl hjob
  | resumed => exact Or.inl hjob
  | @queue target action before changed hbefore hown hact =>
      by_cases h : id = target
      · subst h
        obtain rfl := Option.some.inj (hjob.symm.trans hbefore)
        refine Or.inr ⟨action, changed, hact, Function.update_self _ _ _, ?_⟩
        rintro rfl
        cases hown
      · exact Or.inl ((Function.update_of_ne h _ _).trans hjob)
  | @acted index call target action before changed hflight hasks hbefore hact =>
      by_cases h : id = target
      · subst h
        obtain rfl := Option.some.inj (hjob.symm.trans hbefore)
        refine Or.inr ⟨action, changed, hact, Function.update_self _ _ _, ?_⟩
        rintro rfl
        cases hasks
        exact mem_set_self hflight
      · exact Or.inl ((Function.update_of_ne h _ _).trans hjob)
  | @created index target hflight hfree =>
      -- the id was free, so it is another job's
      have h : id ≠ target := by
        rintro rfl
        rw [hfree] at hjob
        cases hjob
      exact Or.inl ((Function.update_of_ne h _ _).trans hjob)

/-- What becomes of a call under way. -/
inductive Goes (s after : Dashboard) (handed : List JobRecord) (flight : Flight) : Prop where
  | stays (h : flight ∈ after.flights)
  | begun {progress : Progress} (hsent : flight.progress = .sent)
      (h : ⟨flight.call, progress⟩ ∈ after.flights)
  | answered {reply : Reply} (hanswer : Answer s flight.call flight.progress reply)
      (h : ⟨flight.call, .answered reply⟩ ∈ after.flights)
  | resumed {reply : Reply}
      (hreply : flight.progress = .answered reply ∨
        reply = .error ∧ (flight.progress = .sent ∨ flight.call.reads = true))
      (hpage : after.page = (s.page.resume flight.call reply).1)
      (hhanded : handed = s.page.handed flight.call reply)

theorem goes_of_move {s after : Dashboard} {handed : List JobRecord}
    (hmove : DashboardMove s after handed) {flight : Flight} (hmem : flight ∈ s.flights) :
    Goes s after handed flight := by
  have hsent : ∀ result : Page × List Call, flight ∈ (s.send result).flights := fun result =>
    List.mem_append_left _ hmem
  cases hmove with
  | idle => exact .stays hmem
  | queue => exact .stays hmem
  | refreshed => exact .stays (hsent _)
  | asked => exact .stays (hsent _)
  | timeout => exact .stays (hsent _)
  | @answered index call progress reply hflight hanswer =>
      by_cases h : flight = ⟨call, progress⟩
      · subst h
        exact .answered hanswer (mem_set_self hflight)
      · exact .stays (mem_set_of_ne hflight hmem h)
  | @acted index call id action job changed hflight =>
      by_cases h : flight = ⟨call, .sent⟩
      · subst h
        exact .begun rfl (mem_set_self hflight)
      · exact .stays (mem_set_of_ne hflight hmem h)
  | @created index id hflight =>
      by_cases h : flight = ⟨.create, .sent⟩
      · subst h
        exact .begun rfl (mem_set_self hflight)
      · exact .stays (mem_set_of_ne hflight hmem h)
  | @resumed index call progress reply hflight hreply =>
      by_cases h : flight = ⟨call, progress⟩
      · subst h
        exact .resumed hreply rfl rfl
      · exact .stays (List.mem_append_left _ (mem_eraseIdx_of_ne hflight hmem h))

/-- Where a call under way comes from. -/
inductive Comes (s after : Dashboard) (flight : Flight) : Prop where
  | stayed (h : flight ∈ s.flights)
  | sent (h : flight.progress = .sent)
  | answered {before : Progress} {reply : Reply} (h : ⟨flight.call, before⟩ ∈ s.flights)
      (hanswer : Answer s flight.call before reply) (heq : flight.progress = .answered reply)
      (hserver : after.server = s.server)
  | acted {id : String} {action : Queue.Action} {job changed : ServerJob}
      (hasks : Asks id flight.call action) (heq : flight.progress = .applied id)
      (hact : job.act action = some changed) (hserver : after.server id = some changed)
  | created {id : String} (hcall : flight.call = .create) (heq : flight.progress = .applied id)

theorem comes_of_send {s before after : Dashboard} {result : Page × List Call} {flight : Flight}
    (hbefore : ∀ old ∈ before.flights, old ∈ s.flights)
    (hmem : flight ∈ (before.send result).flights) : Comes s after flight := by
  rcases List.mem_append.mp hmem with hold | hnew
  · exact .stayed (hbefore flight hold)
  · obtain ⟨call, -, rfl⟩ := List.mem_map.mp hnew
    exact .sent rfl

theorem comes_of_move {s after : Dashboard} {handed : List JobRecord}
    (hmove : DashboardMove s after handed) {flight : Flight} (hmem : flight ∈ after.flights) :
    Comes s after flight := by
  cases hmove with
  | idle => exact .stayed hmem
  | queue => exact .stayed hmem
  | refreshed => exact comes_of_send (fun _ => id) hmem
  | asked => exact comes_of_send (fun _ => id) hmem
  | timeout => exact comes_of_send (fun _ => id) hmem
  | @answered index call progress reply hflight hanswer =>
      rcases List.mem_or_eq_of_mem_set hmem with hold | rfl
      · exact .stayed hold
      · exact .answered (List.mem_of_getElem? hflight) hanswer rfl rfl
  | @acted index call id action job changed hflight hasks hjob hact =>
      rcases List.mem_or_eq_of_mem_set hmem with hold | rfl
      · exact .stayed hold
      · exact .acted hasks rfl hact (Function.update_self _ _ _)
  | @created index id hflight =>
      rcases List.mem_or_eq_of_mem_set hmem with hold | rfl
      · exact .stayed hold
      · exact .created rfl rfl
  | resumed => exact comes_of_send (fun _ hold => List.mem_of_mem_eraseIdx hold) hmem

/-- What a step does to the page. -/
theorem handled_of_move {s after : Dashboard} {handed : List JobRecord}
    (hmove : DashboardMove s after handed)
    (hfits : ∀ call reply, (⟨call, .answered reply⟩ : Flight) ∈ s.flights → Fitting call reply) :
    ∃ reply, (∀ r ∈ reply.records, ∃ call, (⟨call, .answered reply⟩ : Flight) ∈ s.flights) ∧
      Handled s.page reply handed after.page := by
  have hsame : Handled s.page .error [] s.page := handled_of_same _ rfl rfl fun _ => id
  cases hmove with
  | idle => exact ⟨.error, nofun, hsame⟩
  | queue => exact ⟨.error, nofun, hsame⟩
  | answered => exact ⟨.error, nofun, hsame⟩
  | acted => exact ⟨.error, nofun, hsame⟩
  | created => exact ⟨.error, nofun, hsame⟩
  | asked => exact ⟨.error, nofun, hsame⟩
  | timeout => exact ⟨.error, nofun, handled_of_same _ rfl rfl fun _ => id⟩
  | refreshed =>
      refine ⟨.error, nofun, ?_⟩
      show Handled s.page .error [] s.page.refreshAll.1
      unfold Page.refreshAll
      split
      · exact hsame
      · next hload =>
          refine handled_of_load _ rfl rfl ?_ ?_
          · intro hprev
            rw [hprev] at hload
            exact hload rfl
          · rintro r ⟨printers, waiting, h, -⟩
            cases h
  | @resumed index call progress reply hflight hreply =>
      refine ⟨reply, fun r hr => ⟨call, ?_⟩, resume_handled s.page call reply ?_⟩
      · rcases hreply with rfl | ⟨rfl, -⟩
        · exact List.mem_of_getElem? hflight
        · cases hr
      · rcases hreply with rfl | ⟨rfl, -⟩
        · exact hfits call reply (List.mem_of_getElem? hflight)
        · cases call <;> trivial

/-! ## The invariant of every run -/

/-- The record has been handed over, or is on its way. -/
inductive Known (handed : List JobRecord) (s : Dashboard) (r : JobRecord) : Prop where
  | handed (h : r ∈ handed)
  | fetched (h : s.page.Fetched r)
  | answered {call : Call} {reply : Reply} (h : ⟨call, .answered reply⟩ ∈ s.flights)
      (hr : r ∈ reply.records)

/-- The job was retried after record `r`, and the handler of the retry is still to come. -/
inductive RetryUnderWay (s : Dashboard) (r : JobRecord) : Prop where
  | applied {job : ServerJob} (h : ⟨.retry r.id, .applied r.id⟩ ∈ s.flights)
      (hjob : s.server r.id = some job) (hnewer : r.version < job.version)
  | answered {newer : JobRecord} (h : ⟨.retry r.id, .answered (.job newer)⟩ ∈ s.flights)
      (hid : newer.id = r.id) (hnewer : r.version < newer.version)

/-- A job whose record is at rest is at rest, if no newer record is there or to come. -/
def Settled (handed : List JobRecord) (s : Dashboard) (r : JobRecord) : Prop :=
  s.server r.id = some r.toServerJob ∨ RetryUnderWay s r ∨
    ∃ newer ∈ handed, newer.id = r.id ∧ r.version < newer.version

/-- What a call under way is good for. -/
def Fits (s : Dashboard) (flight : Flight) : Prop :=
  match flight.progress with
  | .sent => True
  | .answered reply => Fitting flight.call reply
  | .applied id =>
      match flight.call with
      | .retry target => id = target
      | .cancel _ => ∃ job, s.server id = some job ∧ job.state = .canceled
      | call => call = .create

/-- What holds in every run, of the records handed over so far and the state. -/
structure Kept (handed : List JobRecord) (s : Dashboard) : Prop where
  known : ∀ r ∈ s.page.jobs, r ∈ handed
  fits : ∀ flight ∈ s.flights, Fits s flight
  settled : ∀ r, Known handed s r → active r.state = false → Settled handed s r
  followed : ∀ id r, lastHanded id handed = some r → active r.state = true → s.page.Followed id
  previewing : s.page.load = some .previewing → ∃ progress, ⟨.document, progress⟩ ∈ s.flights

theorem kept_opened (server : String → Option ServerJob) (activeJob : Option String) :
    Kept [] (.opened server activeJob) where
  known := nofun
  fits := nofun
  settled r h := by
    cases h with
    | handed h => cases h
    | fetched h =>
        obtain ⟨_, _, h, -⟩ := h
        cases h
    | answered h => cases h
  followed := nofun
  previewing := nofun

/-! ### One step -/

section Step

variable {before handed : List JobRecord} {s after : Dashboard}

/-- A record in an answer is the job's. -/
theorem Answer.current {call : Call} {progress : Progress} {reply : Reply}
    (h : Answer s call progress reply) {r : JobRecord} (hr : r ∈ reply.records) :
    s.server r.id = some r.toServerJob := by
  have hrecord : ∀ {id r}, s.record? id = some r → s.server r.id = some r.toServerJob := by
    intro id r hr
    obtain ⟨job, hjob, rfl⟩ := Option.map_eq_some_iff.mp hr
    exact hjob
  have hjob : ∀ {id}, r ∈ (s.jobReply id).records → s.server r.id = some r.toServerJob := by
    intro id hr
    unfold Dashboard.jobReply at hr
    split at hr
    · next job hjob =>
        obtain rfl := List.mem_singleton.mp hr
        exact hrecord hjob
    · cases hr
  cases h with
  | poll poller => exact hjob hr
  | listed load ids =>
      obtain ⟨id, -, hid⟩ := List.mem_filterMap.mp hr
      exact hrecord hid
  | other => cases hr
  | refused => cases hr
  | reloaded call id => exact hjob hr

/-- The answer about job `id` is about this job. -/
theorem jobReply_fits {id : String} {p : JobRecord → Prop}
    (h : ∀ job, s.server id = some job → p ⟨job, id⟩) {r : JobRecord}
    (hr : s.jobReply id = .job r) : p r := by
  unfold Dashboard.jobReply Dashboard.record? at hr
  cases hjob : s.server id with
  | none =>
      rw [hjob] at hr
      cases hr
  | some job =>
      rw [hjob] at hr
      obtain rfl := Reply.job.inj hr
      exact h job hjob

theorem Answer.fits {call : Call} {progress : Progress} {reply : Reply}
    (h : Answer s call progress reply) (hfits : Fits s ⟨call, progress⟩) :
    Fitting call reply := by
  cases h with
  | poll poller =>
      cases hreply : s.jobReply poller.id with
      | job r => exact jobReply_fits (p := fun r => r.id = poller.id) (fun _ _ => rfl) hreply
      | _ => trivial
  | listed load ids => trivial
  | other hreads =>
      cases call with
      | _ => trivial
  | refused hreads =>
      cases call with
      | _ => trivial
  | reloaded call id =>
      cases hreply : s.jobReply id with
      | job r =>
          cases call with
          | retry target =>
              obtain rfl : id = target := hfits
              exact jobReply_fits (p := fun r => r.id = id) (fun _ _ => rfl) hreply
          | cancel target =>
              obtain ⟨job, hjob, hcanceled⟩ := hfits
              refine jobReply_fits (p := fun r => r.state = .canceled) (fun other hother => ?_)
                hreply
              obtain rfl := Option.some.inj (hjob.symm.trans hother)
              exact hcanceled
          | create => trivial
          | _ => cases hfits
      | _ =>
          cases call with
          | _ => trivial

theorem fits_step (hfits : ∀ flight ∈ s.flights, Fits s flight)
    (hmove : DashboardMove s after handed) {flight : Flight} (hmem : flight ∈ after.flights) :
    Fits after flight := by
  obtain ⟨call, progress⟩ := flight
  cases comes_of_move hmove hmem with
  | stayed h =>
      have hold := hfits _ h
      cases progress with
      | sent => trivial
      | answered reply => exact hold
      | applied id =>
          cases call with
          | cancel target =>
              obtain ⟨job, hjob, hcanceled⟩ := hold
              rcases server_of_move hmove hjob with hsame | ⟨action, changed, hact, -, -⟩
              · exact ⟨job, hsame, hcanceled⟩
              · exact absurd hcanceled (act_canceled hact)
          | _ => exact hold
  | sent h =>
      obtain rfl : progress = .sent := h
      trivial
  | answered h hanswer heq hserver =>
      obtain rfl : progress = .answered _ := heq
      exact hanswer.fits (hfits _ h)
  | acted hasks heq hact hserver =>
      obtain rfl : progress = .applied _ := heq
      cases hasks with
      | cancel => exact ⟨_, hserver, canceled_of_act hact⟩
      | retry => rfl
  | created hcall heq =>
      obtain rfl : progress = .applied _ := heq
      obtain rfl : call = .create := hcall
      rfl

/-- What a step does to the page of a run. -/
theorem Kept.handled (hkept : Kept before s) (hmove : DashboardMove s after handed) :
    ∃ reply, (∀ r ∈ reply.records, ∃ call, (⟨call, .answered reply⟩ : Flight) ∈ s.flights) ∧
      Handled s.page reply handed after.page :=
  handled_of_move hmove fun call reply hmem => hkept.fits ⟨call, .answered reply⟩ hmem

/-- A record that becomes known is the job's. -/
theorem known_of_move (hkept : Kept before s) (hmove : DashboardMove s after handed)
    {r : JobRecord} (h : Known (before ++ handed) after r) :
    Known before s r ∨ after.server r.id = some r.toServerJob := by
  obtain ⟨reply, hflight, hhandled⟩ := hkept.handled hmove
  have hsource : r ∈ reply.records ∨ s.page.Fetched r → Known before s r := by
    rintro (hr | hr)
    · obtain ⟨call, hmem⟩ := hflight r hr
      exact .answered hmem hr
    · exact .fetched hr
  cases h with
  | handed h =>
      rcases List.mem_append.mp h with hold | hnew
      · exact Or.inl (.handed hold)
      · exact Or.inl (hsource (hhandled.source r hnew))
  | fetched h => exact Or.inl (hsource (hhandled.fetched r h))
  | @answered call answer h hr =>
      cases comes_of_move hmove h with
      | stayed h => exact Or.inl (.answered h hr)
      | sent h => cases h
      | answered h hanswer heq hserver =>
          obtain rfl := Progress.answered.inj heq
          rw [hserver]
          exact Or.inr (hanswer.current hr)
      | acted _ heq => cases heq
      | created _ heq => cases heq

/-- The handler of a retry hands over a newer record, or is still to come. -/
theorem retryUnderWay_step (hmove : DashboardMove s after handed) {r : JobRecord}
    (h : RetryUnderWay s r) :
    RetryUnderWay after r ∨ ∃ newer ∈ handed, newer.id = r.id ∧ r.version < newer.version := by
  cases h with
  | @applied job h hjob hnewer =>
      cases goes_of_move hmove h with
      | stays hstays =>
          -- the job may have changed again since
          rcases server_of_move hmove hjob with hsame | ⟨action, changed, hact, hchanged, -⟩
          · exact Or.inl (.applied hstays hsame hnewer)
          · exact Or.inl (.applied hstays hchanged (hnewer.trans (version_of_act hact)))
      | begun hsent => cases hsent
      | answered hanswer hmem =>
          have hreply : s.jobReply r.id = .job ⟨job, r.id⟩ := by
            unfold Dashboard.jobReply Dashboard.record?
            rw [hjob]
            rfl
          cases hanswer with
          | reloaded =>
              rw [hreply] at hmem
              exact Or.inl (.answered hmem rfl hnewer)
      | resumed hreply =>
          -- it has no answer yet, and is not lost
          rcases hreply with hreply | ⟨-, hsent | hreads⟩
          · cases hreply
          · cases hsent
          · cases hreads
  | @answered newer h hid hnewer =>
      cases goes_of_move hmove h with
      | stays hstays => exact Or.inl (.answered hstays hid hnewer)
      | begun hsent => cases hsent
      | answered hanswer => cases hanswer
      | resumed hreply hpage hhanded =>
          rcases hreply with hreply | ⟨-, hsent | hreads⟩
          · obtain rfl := Progress.answered.inj hreply
            refine Or.inr ⟨newer, ?_, hid, hnewer⟩
            rw [hhanded]
            exact List.mem_singleton_self newer
          · cases hsent
          · cases hreads

theorem settled_step (hmove : DashboardMove s after handed) {r : JobRecord}
    (hrest : active r.state = false) (h : Settled before s r) :
    Settled (before ++ handed) after r := by
  rcases h with hjob | hretry | ⟨newer, hmem, hnewer⟩
  · rcases server_of_move hmove hjob with hsame | ⟨action, changed, hact, hchanged, hflight⟩
    · exact Or.inl hsame
    · -- only a retry moves a job at rest
      obtain rfl := retry_of_act hact hrest
      exact Or.inr (Or.inl (.applied (hflight rfl) hchanged (version_of_act hact)))
  · rcases retryUnderWay_step hmove hretry with hretry | ⟨newer, hmem, hnewer⟩
    · exact Or.inr (Or.inl hretry)
    · exact Or.inr (Or.inr ⟨newer, List.mem_append_right _ hmem, hnewer⟩)
  · exact Or.inr (Or.inr ⟨newer, List.mem_append_left _ hmem, hnewer⟩)

theorem followed_step (hkept : Kept before s) (hmove : DashboardMove s after handed)
    {id : String} {r : JobRecord} (hlast : lastHanded id (before ++ handed) = some r)
    (hactive : active r.state = true) : after.page.Followed id := by
  obtain ⟨reply, -, hhandled⟩ := hkept.handled hmove
  rw [lastHanded_append] at hlast
  -- the last record is one of this step, or it was the last before
  cases hnew : lastHanded id handed with
  | none =>
      rw [hnew] at hlast
      exact hhandled.kept id (lastHanded_eq_none hnew) (hkept.followed id r hlast hactive)
  | some last =>
      rw [hnew] at hlast
      obtain rfl := Option.some.inj hlast
      obtain ⟨hmem, rfl⟩ := mem_of_lastHanded hnew
      exact hhandled.watched last hmem hactive

theorem previewing_step (hkept : Kept before s) (hmove : DashboardMove s after handed)
    (hprev : after.page.load = some .previewing) :
    ∃ progress, (⟨.document, progress⟩ : Flight) ∈ after.flights := by
  -- the request stays, as its handler would end the load
  have hstays : s.page.load = some .previewing →
      ∃ progress, (⟨.document, progress⟩ : Flight) ∈ after.flights := by
    intro hbefore
    obtain ⟨progress, hmem⟩ := hkept.previewing hbefore
    cases goes_of_move hmove hmem with
    | stays h => exact ⟨_, h⟩
    | begun _ h => exact ⟨_, h⟩
    | answered _ h => exact ⟨_, h⟩
    | resumed _ hpage =>
        rw [hpage, resume_document_load] at hprev
        cases hprev
  cases hmove with
  | refreshed =>
      have hbefore : s.page.refreshAll.1.load = some .previewing := hprev
      unfold Page.refreshAll at hbefore
      split at hbefore
      · exact hstays hbefore
      · cases hbefore
  | resumed =>
      rcases resume_previewing hprev with hsent | hbefore
      · exact ⟨.sent, List.mem_append_right _ (List.mem_map.mpr ⟨_, hsent, rfl⟩)⟩
      · exact hstays hbefore
  | _ => exact hstays hprev

/-- One step keeps the invariant. -/
theorem kept_step (hkept : Kept before s) (hmove : DashboardMove s after handed) :
    Kept (before ++ handed) after where
  known r hr := by
    obtain ⟨reply, -, hhandled⟩ := hkept.handled hmove
    rcases hhandled.jobs r hr with hold | hnew
    · exact List.mem_append_left _ (hkept.known r hold)
    · exact List.mem_append_right _ hnew
  fits flight hmem := fits_step hkept.fits hmove hmem
  settled r h hrest := by
    rcases known_of_move hkept hmove h with hold | hcurrent
    · exact settled_step hmove hrest (hkept.settled r hold hrest)
    · exact Or.inl hcurrent
  followed id r hlast hactive := followed_step hkept hmove hlast hactive
  previewing hprev := previewing_step hkept hmove hprev

end Step

theorem kept_run (server : String → Option ServerJob) (activeJob : Option String)
    (is : List Input) :
    Kept (trace Dashboard.step (.opened server activeJob) is)
      (run Dashboard.step (.opened server activeJob) is) :=
  run_invariant Kept (kept_opened server activeJob)
    (fun _ s i h => kept_step h (move_of_step s i)) is

/-! ## In order -/

section InOrder

variable {handed : List JobRecord} {s : Dashboard}

/-- When nothing is under way, a job whose last record is at rest is at rest. -/
theorem Kept.rest (hkept : Kept handed s) (horder : InOrder handed) (hflights : s.flights = [])
    {last : JobRecord} (hlast : lastHanded last.id handed = some last)
    (hrest : active last.state = false) : s.server last.id = some last.toServerJob := by
  rcases hkept.settled last (.handed (mem_of_lastHanded hlast).1) hrest with
    hjob | hretry | ⟨newer, hmem, hid, hnewer⟩
  · exact hjob
  · cases hretry with
    | applied h =>
        rw [hflights] at h
        cases h
    | answered h =>
        rw [hflights] at h
        cases h
  · -- a newer record would have come later
    have hle := horder.newest (by rwa [hid]) hmem
    omega

/-- When nothing is under way, a job that is followed has its key. -/
theorem Kept.key (hkept : Kept handed s) (hflights : s.flights = []) {id : String}
    (h : s.page.Followed id) : s.page.pollingTimers id = true := by
  rcases h with hkey | ⟨hprev, -⟩
  · exact hkey
  · obtain ⟨progress, hmem⟩ := hkept.previewing hprev
    rw [hflights] at hmem
    cases hmem

/-- When nothing is under way, a job that is active has its key. -/
theorem Kept.polled (hkept : Kept handed s) (horder : InOrder handed) (hflights : s.flights = [])
    {r : JobRecord} (hr : r ∈ handed) {job : ServerJob} (hjob : s.server r.id = some job)
    (hactive : active job.state = true) : s.page.pollingTimers r.id = true := by
  obtain ⟨last, hlast⟩ := lastHanded_of_mem hr
  have hid := (mem_of_lastHanded hlast).2
  cases hstate : active last.state with
  | true => exact hkept.key hflights (hkept.followed r.id last hlast hstate)
  | false =>
      have hcurrent := hkept.rest horder hflights (by rwa [hid]) hstate
      rw [hid] at hcurrent
      obtain rfl := Option.some.inj (hjob.symm.trans hcurrent)
      rw [hstate] at hactive
      cases hactive

theorem shown_id {page : Page} {id : String} {r : JobRecord} (h : page.shown id = some r) :
    r.id = id := by
  unfold Page.shown at h
  simpa using List.find?_some h

theorem InOrder.of_prefix {pre is : List Input} (hpre : pre <+: is)
    (h : InOrder (trace Dashboard.step s is)) : InOrder (trace Dashboard.step s pre) := by
  obtain ⟨post, rfl⟩ := hpre
  rw [trace_append] at h
  exact (List.pairwise_append.mp h).1

/-- A record is shown after a step in order: it is not older than the one before. -/
theorem Kept.newest {after : Dashboard} {new : List JobRecord} (hkept : Kept handed s)
    (hmove : DashboardMove s after new) (horder : InOrder (handed ++ new)) {id : String}
    {r r' : JobRecord} (hshown : s.page.shown id = some r)
    (hshown' : after.page.shown id = some r') : r.version ≤ r'.version := by
  obtain ⟨reply, -, hhandled⟩ := hkept.handled hmove
  rcases hhandled.shown id r' hshown' with hsame | hnew
  · obtain rfl := Option.some.inj (hshown.symm.trans hsame)
    exact Nat.le_refl _
  · -- the record that was shown had been handed over before
    have hknown : r ∈ handed := hkept.known r (List.mem_of_find?_eq_some hshown)
    have hid : r.id = r'.id := (shown_id hshown).trans (shown_id hshown').symm
    exact (List.pairwise_append.mp horder).2.2 r hknown r' hnew hid

end InOrder

theorem loops_le_one (server : String → Option ServerJob) (activeJob : Option String)
    (is : List Input) (id : String) :
    (run Dashboard.step (.opened server activeJob) is).loops id ≤ 1 := by
  rw [oneLoop_run server activeJob is id]
  cases (run Dashboard.step (.opened server activeJob) is).page.pollingTimers id with
  | true => exact Nat.le_refl _
  | false => exact Nat.zero_le _

/-- **The dashboard tracks its jobs while their records come in order.** -/
theorem dashboard_tracks (server : String → Option ServerJob) (activeJob : Option String)
    (is : List Input)
    (horder : InOrder (trace Dashboard.step (.opened server activeJob) is)) :
    Tracks (.opened server activeJob) is where
  newest pre i hpre id r r' hshown hshown' := by
    rw [run_concat] at hshown'
    have hordered := InOrder.of_prefix hpre horder
    rw [trace_concat] at hordered
    exact (kept_run server activeJob pre).newest (move_of_step _ i) hordered hshown hshown'
  oneLoop pre _ id := loops_le_one server activeJob pre id
  polled pre hpre hflights earlier hearlier r hr job hjob hactive := by
    have hknown : r ∈ trace Dashboard.step (.opened server activeJob) pre := by
      obtain ⟨rest, rfl⟩ := hearlier
      rw [trace_append]
      exact List.mem_append_left _ ((kept_run server activeJob earlier).known r hr)
    have hkey := (kept_run server activeJob pre).polled (InOrder.of_prefix hpre horder) hflights
      hknown hjob hactive
    exact (oneLoop_run server activeJob pre).timer hflights hkey

/-! ## A reply that comes late -/

/-- One job, which is printing. -/
def oneJob (id : String) : Option ServerJob :=
  if id = "j" then some ⟨⟨.print, .printing, 1⟩, 1⟩ else none

/-- The page loads the job and polls it, and the job fails. -/
def failingRun : List Input :=
  [.refresh, .handle 0 [] "", .handle 1 ["j"] "", .deliver 0, .deliver 0, .queue "j" .fail,
    .handle 0 [] ""]

/-- The response to the poll comes first. -/
theorem dashboard_tracks_of_failingRun :
    (trace Dashboard.step (.opened oneJob none) (failingRun ++ [.deliver 0])).map (·.version) =
        [1, 2] ∧
      Tracks (.opened oneJob none) (failingRun ++ [.deliver 0]) := by
  refine ⟨by decide, dashboard_tracks oneJob none _ ?_⟩
  unfold InOrder
  decide

/-- The user refreshes and retries the job before the response to the poll comes. -/
def retriedRun : List Input :=
  failingRun ++ [.refresh, .handle 1 [] "", .handle 2 ["j"] "", .deliver 1, .deliver 1,
    .retry ⟨⟨⟨.print, .failed, 1⟩, 2⟩, "j"⟩, .handle 1 [] "", .reload 1, .deliver 1]

/-- The late response replaces the queued job by the failed one and ends the loop that the
    retry relied on. -/
theorem late_poll_ends_loop :
    (run Dashboard.step (.opened oneJob none) (retriedRun ++ [.deliver 0])).flights = [] ∧
      (run Dashboard.step (.opened oneJob none) (retriedRun ++ [.deliver 0])).page.timers = [] ∧
      (run Dashboard.step (.opened oneJob none) (retriedRun ++ [.deliver 0])).server "j" =
        some ⟨⟨.print, .queued, 1⟩, 3⟩ ∧
      ¬ Tracks (.opened oneJob none) (retriedRun ++ [.deliver 0]) := by
  refine ⟨by decide, by decide, by decide, fun h => ?_⟩
  have hle := h.newest retriedRun (.deliver 0) (List.prefix_refl _) "j"
    ⟨⟨⟨.print, .queued, 1⟩, 3⟩, "j"⟩ ⟨⟨⟨.print, .failed, 1⟩, 2⟩, "j"⟩ (by decide) (by decide)
  exact absurd hle (by decide)

end PrintLatch.Ui
