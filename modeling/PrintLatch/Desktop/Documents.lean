/-
  PrintLatch.Desktop.Documents

  A document on its way through the whole site: from the SDK that sends it into the data
  directory, past whatever agents, workers, clients and commands do there, and back to the
  SDK (`document_round_trip`).

  `Stored` is the row of the job with its file.  A step leaves both alone, unless it is a
  request that draws the job's identifier again: that one overwrites the file before the
  database refuses the row.
-/

import PrintLatch.Api.Documents
import PrintLatch.Desktop.Destination
import PrintLatch.Sdk.JobForm

namespace PrintLatch

open Reactive

namespace Queue

variable (sha256Hex : List UInt8 → String)

/-- A process keeps the configuration it was started with. -/
theorem config_step {P : AppConfig → Prop} {w : World} {i : Input}
    (hstart : ∀ pid config now, i = .start pid config now → P config)
    (h : ∀ pid p, w.procs pid = some p → P p.config) :
    ∀ pid p, (step sha256Hex w i).1.procs pid = some p → P p.config := by
  have hset : ∀ (q : Nat) (new : Option Process), (∀ p, new = some p → P p.config) →
      ∀ pid p, Function.update w.procs q new pid = some p → P p.config := by
    intro q new hnew pid p hp
    by_cases hpid : pid = q
    · rw [hpid, Function.update_self] at hp
      exact hnew p hp
    · rw [Function.update_of_ne hpid] at hp
      exact h pid p hp
  have hkeep : ∀ {q : Nat} {old : Process}, w.procs q = some old → ∀ new : Process,
      new.config = old.config → ∀ pid p, Function.update w.procs q (some new) pid = some p →
        P p.config := by
    intro q old hold new hconfig
    refine hset q (some new) fun p hp => ?_
    obtain rfl := Option.some.inj hp
    exact hconfig ▸ h q old hold
  cases i with
  | create parsed report id client path now =>
      simp only [step]
      split <;> exact h
  | cancel | retry => exact h
  | start q config now =>
      simp only [step]
      split
      · exact h
      · refine hset q _ fun p hp => ?_
        obtain rfl := Option.some.inj hp
        exact hstart q config now rfl
  | bind q =>
      simp only [step]
      split
      · exact h
      · next p hp =>
          split
          · exact h
          · split
            · exact hkeep hp _ rfl
            · exact hkeep hp _ rfl
  | shutdown q =>
      simp only [step]
      split
      · exact h
      · next p hp => exact hkeep hp _ rfl
  | crash q => exact hset q none fun p hp => by cases hp
  | worker q input =>
      simp only [step]
      split
      · exact h
      · next p hp =>
          split
          · exact h
          · exact hkeep hp _ rfl

end Queue

namespace Desktop

open Queue (World)
open Sdk (received)

/-- Every agent works in this data directory. -/
def AgentsIn (dir : String) (s : Site) : Prop :=
  ∀ pid p, s.world.procs pid = some p → p.config.dataDir = dir

/-- The event starts no agent in another directory. -/
def Event.StaysIn (dir : String) : Event → Prop
  | .start _ config _ _ => config.dataDir = dir
  | _ => True

/-- The event is a request that draws this identifier for a job. -/
def Event.Draws (id : String) : Event → Prop
  | .request _ _ o => o.job.id = id
  | _ => False

/-- The job is there for its client, and so is its document. -/
structure Stored (config : AppConfig) (id clientId : String) (document : List UInt8) (s : Site) :
    Prop where
  row : ∃ r, s.world.db.job? id = some r ∧ r.clientId = clientId ∧
    r.filePath = Api.jobPath config id
  file : s.files (Api.jobPath config id) = some document

section

variable (parse : String → Option Url) (sha256Hex : List UInt8 → String)
  (validatePdf : List UInt8 → String → Except String PdfReport) (headerText : String → Bool)
  (hmac : List UInt8 → List UInt8 → String) (parseJson : List UInt8 → Option InstanceIdentity)
  (decodeSegment : String → Option String)

/-! ## What a step leaves alone -/

/-- The row of a job stays, with its client and the path of its document. -/
theorem fixed_site_step (s : Site) (e : Event) {id : String} {r : JobRow}
    (h : s.world.db.job? id = some r) :
    ∃ r', (step parse sha256Hex validatePdf headerText hmac parseJson decodeSegment s
      e).1.world.db.job? id = some r' ∧ Queue.fixed r' = Queue.fixed r := by
  -- the queue beside the clients of the state after the step
  let after := (step parse sha256Hex validatePdf headerText hmac parseJson decodeSegment s e).1
  have hfollows : Follows after.world.db.clients s
      (besideWorld s.world after.world.db.clients s.world.db.pairingCodes) :=
    ⟨s.world.db.pairingCodes, rfl⟩
  have hcovers : Covers parse sha256Hex validatePdf headerText hmac parseJson decodeSegment
      after.world.db.clients s e := fun _ hid => hid
  obtain ⟨qs, hanswers⟩ := answers_step hfollows hcovers
  obtain ⟨codes, hend⟩ := hanswers.follows
  have hrow : (besideWorld s.world after.world.db.clients
      s.world.db.pairingCodes).db.job? id = some r := h
  obtain ⟨r', hr', hfixed⟩ := Queue.fixed_run _ qs hrow
  rw [hend] at hr'
  exact ⟨r', hr', hfixed⟩

theorem agentsIn_step {dir : String} {s : Site} {e : Event} (he : e.StaysIn dir)
    (h : AgentsIn dir s) :
    AgentsIn dir (step parse sha256Hex validatePdf headerText hmac parseJson decodeSegment s
      e).1 := by
  have hadvance : ∀ (s' : Site) (q : Queue.Input), s'.world = s.world →
      (∀ pid config now, q = .start pid config now → config.dataDir = dir) →
      AgentsIn dir (advance sha256Hex s' q).1 := by
    intro s' q hworld hstart
    refine Queue.config_step (P := fun config => config.dataDir = dir) sha256Hex hstart ?_
    rw [hworld]
    exact h
  cases e with
  | request pid request o =>
      simp only [step]
      split
      · exact h
      · split <;> exact h
  | command command =>
      cases command with
      | dashboard port challenge candidate response bytes clock now fails =>
          simp only [step, runCommand]
          split <;> exact h
      | _ => exact h
  | start pid config session now =>
      refine hadvance _ _ rfl fun pid' config' now' heq => ?_
      cases heq
      exact he
  | bind | shutdown | crash | worker => exact hadvance s _ rfl (by simp)

/-- No step writes to a document, unless its request draws the identifier. -/
theorem files_step {config : AppConfig} {s : Site} (hagents : AgentsIn config.dataDir s)
    {e : Event} {id : String} (he : ¬ e.Draws id) :
    (step parse sha256Hex validatePdf headerText hmac parseJson decodeSegment s e).1.files
      (Api.jobPath config id) = s.files (Api.jobPath config id) := by
  cases e with
  | request pid request o =>
      simp only [step]
      cases hproc : s.world.procs pid with
      | none => rfl
      | some p =>
          dsimp only
          split
          · have hdir := hagents pid p hproc
            refine Api.serve_files parse sha256Hex validatePdf headerText hmac decodeSegment
              p.config (s.sessions pid) (fun heq => he ?_) fun heq => ?_
            · rw [Api.jobPath_congr hdir, Api.jobPath_inj] at heq
              exact heq.symm
            · rw [Api.temporaryPath_congr hdir] at heq
              exact Api.jobPath_ne_temporaryPath config id o.job.id heq
          · rfl
  | command command =>
      cases command with
      | dashboard port challenge candidate response bytes clock now fails =>
          simp only [step, runCommand]
          split <;> rfl
      | _ => rfl
  | start | bind | shutdown | crash | worker => rfl

theorem Stored.step {config : AppConfig} {id clientId : String} {document : List UInt8} {s : Site}
    {e : Event} (hagents : AgentsIn config.dataDir s) (he : ¬ e.Draws id)
    (h : Stored config id clientId document s) :
    Stored config id clientId document
      (Desktop.step parse sha256Hex validatePdf headerText hmac parseJson decodeSegment s
        e).1 where
  row := by
    obtain ⟨r, hr, hclient, hpath⟩ := h.row
    obtain ⟨r', hr', hfixed⟩ := fixed_site_step parse sha256Hex validatePdf headerText hmac
      parseJson decodeSegment s e hr
    exact ⟨r', hr', (congrArg Queue.Fixed.clientId hfixed).trans hclient,
      (congrArg Queue.Fixed.filePath hfixed).trans hpath⟩
  file := by
    rw [files_step parse sha256Hex validatePdf headerText hmac parseJson decodeSegment hagents he]
    exact h.file

/-- **The document stays where it is**, through every run that does not draw its identifier
    again. -/
theorem Stored.run {config : AppConfig} {id clientId : String} {document : List UInt8} {s : Site}
    (hagents : AgentsIn config.dataDir s) (h : Stored config id clientId document s)
    {es : List Event} (hes : ∀ e ∈ es, e.StaysIn config.dataDir ∧ ¬ e.Draws id) :
    Stored config id clientId document
      (run (Desktop.step parse sha256Hex validatePdf headerText hmac parseJson decodeSegment) s
        es) := by
  refine (run_history_invariant
    (fun _ s => AgentsIn config.dataDir s ∧ Stored config id clientId document s)
    ⟨hagents, h⟩ (fun _ s e he hs => ?_) (along_input_iff.mpr hes)).2
  exact ⟨agentsIn_step parse sha256Hex validatePdf headerText hmac parseJson decodeSegment he.1
      hs.1,
    hs.2.step parse sha256Hex validatePdf headerText hmac parseJson decodeSegment hs.1 he.2⟩

/-! ## What is sent -/

/-- A job that is seen to be created is stored, for the client that was let in. -/
theorem stored_of_response {s : Site} {pid : Nat} {request : Api.HttpRequest}
    {o : Api.RequestOutside} {multipart : Api.Multipart} {response : Api.HttpResponse} {job : Job}
    (hasked : Api.jobRequest? decodeSegment request = some (.createJob multipart))
    (hseen : .response pid response ∈ (step parse sha256Hex validatePdf headerText hmac parseJson
      decodeSegment s (.request pid request o)).2)
    (hjob : response.content = .api (.job job)) :
    ∃ p owner parsed, s.world.procs pid = some p ∧
      authenticate sha256Hex s.world.db request.headers o.job.authenticatedAt = .ok owner ∧
      Api.parseJob multipart = .ok parsed ∧ job.clientId = owner.id ∧
      Stored p.config job.id job.clientId parsed.bytes (step parse sha256Hex validatePdf headerText
        hmac parseJson decodeSegment s (.request pid request o)).1 := by
  have hmethod : request.method ≠ .head := by
    rw [Api.method_of_acts decodeSegment hasked rfl]
    simp
  simp only [step] at hseen ⊢
  cases hproc : s.world.procs pid with
  | none =>
      rw [hproc] at hseen
      cases hseen
  | some p =>
      simp only [hproc] at hseen
      split at hseen
      case isFalse => cases hseen
      next hlistening =>
        simp only [answer, List.mem_append, List.mem_map, List.mem_singleton, Seen.response.injEq,
          reduceCtorEq, and_false, exists_false, false_or, true_and] at hseen
        subst hseen
        dsimp only
        rw [if_pos hlistening]
        by_cases hpass : Api.validHost request.headers p.config.port = true ∧
            Api.upgradesToWebsocket request.headers = false
        case neg =>
          obtain ⟨code, message, hcontent⟩ := @Api.serve_refused parse sha256Hex validatePdf
            headerText hmac decodeSegment p.config (s.sessions pid) s.agent request o hpass
          rw [hcontent] at hjob
          cases hjob
        case pos =>
          have hserved := @Api.serve_asked parse sha256Hex validatePdf headerText hmac
            decodeSegment p.config (s.sessions pid) s.agent request o _ hpass.1 hpass.2 hmethod
            hasked
          unfold answer
          generalize Api.serve parse sha256Hex validatePdf headerText hmac decodeSegment p.config
            (s.sessions pid) s.agent request o = served at hserved hjob ⊢
          obtain ⟨hdir, hcontent⟩ := hserved
          rw [hcontent] at hjob
          obtain ⟨owner, parsed, report, hauth, hparsed, rfl, hrow, hfile⟩ :=
            Api.created_of_response sha256Hex validatePdf headerText p.config hjob
          refine ⟨p, owner, parsed, rfl, hauth, hparsed, rfl,
            ⟨Api.createdRow p.config owner.id parsed report o.job, ?_, rfl, rfl⟩, ?_⟩
          · show served.state.dir.db.job? o.job.id = _
            rw [hdir]
            exact hrow
          · show served.state.dir.files _ = _
            rw [hdir]
            exact hfile

/-! ## What comes back -/

/-- Whom the process `pid` gives the document of job `id`, as it is stored. -/
theorem document_of_stored {config : AppConfig} {id clientId : String} {document : List UInt8}
    {s : Site} (h : Stored config id clientId document s) {pid : Nat}
    {request : Api.HttpRequest} {o : Api.RequestOutside} (hmethod : request.method ≠ .head)
    (hasked : Api.jobRequest? decodeSegment request = some (.getDocument id))
    (bytes : List UInt8) :
    (∃ response, .response pid response ∈ (step parse sha256Hex validatePdf headerText hmac
        parseJson decodeSegment s (.request pid request o)).2 ∧
        response.content = .api (.document bytes)) ↔
      (∃ p, s.world.procs pid = some p ∧ p.listening = true ∧
        Api.Answerable sha256Hex headerText p.config s.world.db request o.job clientId id) ∧
        bytes = document := by
  obtain ⟨r, hrow, rfl, hpath⟩ := h.row
  have hfile : s.agent.dir.files r.filePath = some document := by
    rw [hpath]
    exact h.file
  simp only [step]
  cases hproc : s.world.procs pid with
  | none => simp
  | some p =>
      dsimp only
      by_cases hlistening : p.listening = true
      case neg => simp [hlistening]
      case pos =>
        have hserved := @Api.document_served_iff parse sha256Hex validatePdf headerText hmac
          decodeSegment p.config (s.sessions pid) s.agent request o id r document bytes hmethod
          hasked hrow hfile
        have hmem : ∀ response, .response pid response ∈ (answer parse sha256Hex validatePdf
            headerText hmac decodeSegment s pid p.config request o).2 ↔
            response = (Api.serve parse sha256Hex validatePdf headerText hmac decodeSegment
              p.config (s.sessions pid) s.agent request o).response := by
          intro response
          simp [answer]
        rw [if_pos hlistening]
        simp only [hmem, exists_eq_left, hserved, Option.some.injEq, exists_eq_left', hlistening,
          true_and]
        rfl

end

/-- **What the SDK sends is what the SDK gets back.**  When an agent has answered a
    `createJob` with a job, the job is that of the client whose token was sent; and from then
    on, whatever else happens at the site, a `document` for it gets a document exactly if a
    listening agent lets that client in, the job was not canceled and no call fails.  It is
    the `Blob` that was sent. -/
theorem document_round_trip (parse : String → Option Url) (sha256Hex : List UInt8 → String)
    (validatePdf : List UInt8 → String → Except String PdfReport) (headerText : String → Bool)
    (hmac : List UInt8 → List UInt8 → String) (parseJson : List UInt8 → Option InstanceIdentity)
    (decoder : Text.Utf8Decoder) (numberText : Sdk.JsNumber → String)
    (hnumbers : Sdk.NumberText numberText) (parseUrl : String → Option Url)
    {token token' : String} {baseUrl baseUrl' : Option String} {sender reader : Sdk.Client}
    (hsender : Sdk.Client.new parseUrl token baseUrl = .ok sender)
    (hreader : Sdk.Client.new parseUrl token' baseUrl' = .ok reader)
    (options : Sdk.CreateJobOptions) (haccepted : (Sdk.Call.createJob options).Accepted)
    {dir : String} {s : Site} (hagents : AgentsIn dir s) (pid : Nat) (o : Api.RequestOutside)
    {response : Api.HttpResponse} {job : Job} (hjob : response.content = .api (.job job))
    (hid : ¬ Sdk.Unaddressable job.id) (es : List Event)
    (hes : ∀ e ∈ es, e.StaysIn dir ∧ ¬ e.Draws job.id) (t t' : Sdk.Transfer) (pid' : Nat)
    (o' : Api.RequestOutside) (bytes : List UInt8) :
    let step := step parse sha256Hex validatePdf headerText hmac parseJson Text.decodeSegment
    let sent := received decoder numberText t (sender.sent numberText (.createJob options))
    let asked := received decoder numberText t' (reader.sent numberText (.document job.id))
    let after := run step s (.request pid sent o :: es)
    .response pid response ∈ (step s (.request pid sent o)).2 →
      (∃ owner, authenticate sha256Hex s.world.db sent.headers o.job.authenticatedAt = .ok owner ∧
        job.clientId = owner.id) ∧
      ((∃ response', .response pid' response' ∈ (step after (.request pid' asked o')).2 ∧
          response'.content = .api (.document bytes)) ↔
        (∃ p, after.world.procs pid' = some p ∧ p.listening = true ∧
          Api.Answerable sha256Hex headerText p.config after.world.db asked o'.job job.clientId
            job.id) ∧ bytes = options.pdf.bytes) := by
  intro step sent asked after hseen
  obtain ⟨hbase, -⟩ := Sdk.Client.new_eq_ok hsender
  obtain ⟨hbase', -⟩ := Sdk.Client.new_eq_ok hreader
  have hreaches : (Sdk.Call.createJob options).Reaches decoder numberText t sent :=
    Sdk.reaches_createJob decoder numberText t hbase options
  obtain ⟨p, owner, parsed, hproc, hauth, hparsed, howner, hstored⟩ := stored_of_response parse
    sha256Hex validatePdf headerText hmac parseJson Text.decodeSegment hreaches hseen hjob
  obtain ⟨hdescribes, -⟩ := Sdk.describes_of_delivered hnumbers haccepted hparsed
  rw [hdescribes.bytes] at hstored
  refine ⟨⟨owner, hauth, howner⟩, ?_⟩
  have hdir := hagents pid p hproc
  have hafter : Stored p.config job.id job.clientId options.pdf.bytes after := by
    refine hstored.run parse sha256Hex validatePdf headerText hmac parseJson Text.decodeSegment ?_
      (by rw [hdir]; exact hes)
    rw [hdir]
    exact agentsIn_step parse sha256Hex validatePdf headerText hmac parseJson Text.decodeSegment
      trivial hagents
  have hmethod : asked.method = .get := rfl
  refine document_of_stored parse sha256Hex validatePdf headerText hmac parseJson
    Text.decodeSegment hafter (by rw [hmethod]; simp) ?_ bytes
  exact (Sdk.arrives_onJob decoder numberText t' hbase' job.id (.document job.id)
    (by simp)).1.mpr hid

/-! ## A preview that outlives its agent -/

/-- A site whose check takes every document of the right type. -/
def exampleStep : Site → Event → Site × List Seen :=
  step (fun _ => none) exampleTokenDigest exampleReport (fun _ => true) (fun _ _ => "")
    (fun _ => none) Text.decodeSegment

/-- An agent that listens. -/
def exampleListening : Site :=
  run exampleStep (.ofDatabase exampleDatabase fun _ => none)
    [.start 0 exampleConfig exampleSession 0, .bind 0]

/-- A client of the SDK. -/
def exampleSender : Sdk.Client := ⟨"http://127.0.0.1:17890", "pl_live_demo"⟩

/-- What a request draws and reads. -/
def exampleDraws (id : String) (now : Int) : Api.RequestOutside :=
  ⟨⟨now, now, id, some [], [], none⟩, now, "", "", now, now, [], ""⟩

/-- What an agent receives of a call. -/
def exampleReceived (call : Sdk.Call) : Api.HttpRequest :=
  received Text.asciiDecoder Sdk.exampleNumberText Sdk.exampleTransfer
    (exampleSender.sent Sdk.exampleNumberText call)

def examplePreview : Sdk.CreateJobOptions where
  pdf := ⟨"application/pdf", Text.utf8 "%PDF-1.7"⟩
  mode := "preview"
  printerId := none
  copies := none
  filename := none

/-- The preview is created, the agent dies, and another one is started. -/
def exampleRestarted : Site :=
  run exampleStep exampleListening
    [.request 0 (exampleReceived (.createJob examplePreview)) (exampleDraws "j1" 5), .crash 0,
      .start 1 exampleConfig exampleSession 9, .bind 1]

theorem document_round_trip_of_examplePreview :
    ∃ response, .response 1 response ∈ (exampleStep exampleRestarted
        (.request 1 (exampleReceived (.document "j1")) (exampleDraws "j2" 10))).2 ∧
      response.content = .api (.document (Text.utf8 "%PDF-1.7")) := by
  let reply := (Api.serve (fun _ => none) exampleTokenDigest exampleReport (fun _ => true)
    (fun _ _ => "") Text.decodeSegment exampleConfig exampleSession exampleListening.agent
    (exampleReceived (.createJob examplePreview)) (exampleDraws "j1" 5)).response
  have hjob : reply.content = .api (.job ⟨"j1", exampleClient.id, capturePrinterId, .previewReady,
      .preview, 1, 1, 8, "d1", 0, none, 5, 5⟩) := by decide +kernel
  have hclient : Sdk.Client.new
      (fun _ => some ⟨"http", "", none, some "127.0.0.1", some 17890, "/", none, none⟩)
      "pl_live_demo" none = .ok exampleSender := by decide +kernel
  have hagents : AgentsIn "C:\\PrintLatch" exampleListening := by
    have hbefore : AgentsIn "C:\\PrintLatch" (.ofDatabase exampleDatabase fun _ => none) :=
      fun _ _ h => by cases h
    exact agentsIn_step _ _ _ _ _ _ _ trivial (agentsIn_step _ _ _ _ _ _ _ rfl hbefore)
  have hround := document_round_trip (fun _ => none) exampleTokenDigest exampleReport
    (fun _ => true) (fun _ _ => "") (fun _ => none) Text.asciiDecoder Sdk.exampleNumberText
    Sdk.exampleNumberText_law _ hclient hclient examplePreview rfl hagents 0
    (exampleDraws "j1" 5) hjob (by decide)
    [.crash 0, .start 1 exampleConfig exampleSession 9, .bind 1] (fun e he => by
      simp only [List.mem_cons, List.not_mem_nil, or_false] at he
      rcases he with rfl | rfl | rfl
      · exact ⟨trivial, id⟩
      · exact ⟨rfl, id⟩
      · exact ⟨trivial, id⟩) Sdk.exampleTransfer Sdk.exampleTransfer 1 (exampleDraws "j2" 10)
    (Text.utf8 "%PDF-1.7") (by decide +kernel)
  have hproc : exampleRestarted.world.procs 1 = some ⟨exampleConfig, true, false, .ready⟩ := rfl
  refine hround.2.mpr ⟨⟨⟨exampleConfig, true, false, .ready⟩, hproc, rfl, ?_⟩, rfl⟩
  exact
    { host := by decide +kernel
      upgrade := by decide +kernel
      client := ⟨clientFromRow exampleClient, by decide +kernel, rfl⟩
      select := by decide
      readFile := by decide
      header := rfl
      state := (Option.all_eq_true _ _).mp (by decide +kernel) }

end Desktop

end PrintLatch
