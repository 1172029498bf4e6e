/-
  PrintLatch.Ui.Confirm

  The explicit confirmation of a test job (`ui/app.js`, the dialog of
  `ui/index.html`).

  A target is chosen by a click, and the job is sent by a second one in a dialog that names
  the target.  Between the two, `preparePhysicalTest` may wait for `createPreview`; the
  target it was called with is then shown, and the one in `selectedTarget` is used.  As long
  as nobody chooses while such a call waits, the two are one (`confirmed_target`).
-/

import PrintLatch.Printers
import PrintLatch.Reactive.Machine
import PrintLatch.Reactive.Slots

namespace PrintLatch.Ui

open Reactive

/-! ## The dialog -/

/-- What the dialog says. -/
structure DialogText where
  title : String
  copy : String
  target : String
  action : String
  deriving DecidableEq, Repr

/-- The texts of `prepareCapture`, which are also those of the page. -/
def captureText : DialogText where
  title := "Create the local PDF capture?"
  copy := "This writes one copy of the built-in test page to the PrintLatch captures directory. It does not contact a physical printer."
  target := "PrintLatch PDF Capture"
  action := "Create capture"

/-- The texts of `preparePhysicalTest`. -/
def physicalText (printer : PrinterInfo) : DialogText where
  title := "Submit the test page to Windows?"
  copy := "This sends one copy of the built-in test page to the Windows print pipeline. PrintLatch can verify submission state, but not physical paper output."
  target := printer.name
  action := "Submit test page"

/-- What the dialog should say about a target. -/
def textFor (target : PrinterInfo) : DialogText :=
  if target.id = capturePrinterId then captureText else physicalText target

/-! ## The page -/

/-- A `createPreview` under way, and the printer with which `preparePhysicalTest` waits. -/
structure PreviewCall where
  printer : Option PrinterInfo
  /-- The job is there, and `loadPreviewDocument` is awaited. -/
  created : Bool
  deriving DecidableEq, Repr

/-- The part of the page that has to do with the dialog. -/
structure Desk where
  printers : List PrinterInfo
  /-- `hasVerifiedCapture()`, when the printers were rendered. -/
  verified : Bool
  /-- There is a `previewJob`. -/
  previewJob : Bool
  selectedTarget : Option PrinterInfo
  text : DialogText
  opened : Bool
  previews : List PreviewCall
  deriving DecidableEq, Repr

/-- The page after it was opened. -/
def Desk.start : Desk := ⟨[], false, false, none, captureText, false, []⟩

/-- What happens next. -/
inductive DeskInput where
  /-- `loadProtectedData` has its responses: the printers are the agent's list. -/
  | load (devices : List PrinterDevice) (previewJob verified : Bool)
  /-- Another handler has rendered the page. -/
  | render (verified : Bool)
  /-- The button for a preview. -/
  | createPreview
  | prepareCapture
  /-- The button of a printer. -/
  | preparePhysicalTest (printer : PrinterInfo)
  /-- `createJob` of a preview has come to its end. -/
  | previewCreated (index : Nat) (created : Bool)
  /-- `loadPreviewDocument` has come to its end, with a document or without. -/
  | previewLoaded (index : Nat)
  /-- `runConfirmedJob`. -/
  | confirm
  /-- The dialog is closed with its other button or a key. -/
  | dismiss
  deriving DecidableEq, Repr

/-- A print job is sent for a target, while the dialog says something. -/
structure Submitted where
  target : PrinterInfo
  shown : DialogText
  deriving DecidableEq, Repr

/-- The end of `preparePhysicalTest`, after its preview. -/
def Desk.offer (d : Desk) : Option PrinterInfo → Desk
  | none => d
  | some printer =>
      if d.previewJob then { d with text := physicalText printer, opened := true } else d

/-- One step; the page behind an open dialog takes no clicks. -/
def deskStep (sha256Hex : List UInt8 → String) (d : Desk) : DeskInput → Desk × List Submitted
  | .load devices previewJob verified =>
      ({ d with
          printers := (listPrinters sha256Hex (some devices)).getD []
          previewJob := previewJob
          verified := verified }, [])
  | .render verified => ({ d with verified := verified }, [])
  | .createPreview =>
      if d.opened then (d, []) else ({ d with previews := d.previews ++ [⟨none, false⟩] }, [])
  | .prepareCapture =>
      if d.opened then (d, [])
      else
        ({ d with
            selectedTarget := d.printers.find? fun printer => printer.id = capturePrinterId
            text := captureText
            opened := true }, [])
  | .preparePhysicalTest printer =>
      -- the button is there for printers that are not tested, after a capture
      if d.opened ∨ ¬ (printer ∈ d.printers ∧ printer.tested = false ∧ d.verified) then (d, [])
      else
        let chosen := { d with selectedTarget := some printer }
        if d.previewJob then (chosen.offer (some printer), [])
        else ({ chosen with previews := d.previews ++ [⟨some printer, false⟩] }, [])
  | .previewCreated index created =>
      match d.previews[index]? with
      | some ⟨printer, false⟩ =>
          if created then
            ({ d with previewJob := true, previews := d.previews.set index ⟨printer, true⟩ }, [])
          else ({ d with previews := d.previews.eraseIdx index }.offer printer, [])
      | _ => (d, [])
  | .previewLoaded index =>
      match d.previews[index]? with
      | some ⟨printer, true⟩ =>
          ({ d with previews := d.previews.eraseIdx index }.offer printer, [])
      | _ => (d, [])
  | .confirm =>
      if d.opened then
        match d.selectedTarget with
        | none => (d, [])
        | some target => ({ d with opened := false }, [⟨target, d.text⟩])
      else (d, [])
  | .dismiss => ({ d with opened := false }, [])

/-! ## What is confirmed -/

/-- A choice is waiting for its preview. -/
def PreviewCall.chosen (call : PreviewCall) : Bool := call.printer.isSome

/-- Nobody chooses a target while a choice waits for its preview. -/
def Unhurried (d : Desk) : DeskInput → Prop
  | .prepareCapture | .preparePhysicalTest _ => d.previews.countP PreviewCall.chosen = 0
  | _ => True

instance (d : Desk) (i : DeskInput) : Decidable (Unhurried d i) := by
  unfold Unhurried
  split <;> infer_instance

/-- The printers are those of the agent: what has the capture's id is the capture. -/
def AgentsList (printers : List PrinterInfo) : Prop :=
  ∀ printer ∈ printers, printer.id = capturePrinterId →
    printer.tested = true ∧ printer.name = captureText.target

/-- The target in `selectedTarget` is the one that is shown, or will be. -/
structure Agreed (d : Desk) : Prop where
  agents : AgentsList d.printers
  /-- An open dialog speaks of the selected target. -/
  shown : d.opened = true → ∀ target, d.selectedTarget = some target →
    d.text = textFor target ∧ d.text.target = target.name
  /-- One choice waits at most, and the dialog is not open meanwhile. -/
  one : d.previews.countP PreviewCall.chosen ≤ 1
  waiting : ∀ call ∈ d.previews, ∀ printer, call.printer = some printer →
    d.opened = false ∧ d.selectedTarget = some printer ∧ printer.id ≠ capturePrinterId

theorem agentsList_listPrinters (sha256Hex : List UInt8 → String) (devices : List PrinterDevice) :
    AgentsList ((listPrinters sha256Hex (some devices)).getD []) := by
  intro printer hmem hid
  simp only [listPrinters, platformPrinters, Option.map_some, Option.getD_some, List.mem_cons,
    List.mem_map] at hmem
  rcases hmem with rfl | ⟨device, -, rfl⟩
  · exact ⟨rfl, rfl⟩
  · -- an id of a Windows printer begins with `win:`
    have hlist := congrArg String.toList hid
    simp [printerId, capturePrinterId] at hlist

/-- Without a choice that waits, only the open dialog matters. -/
theorem agreed_of_none {d : Desk} (agents : AgentsList d.printers)
    (hnone : d.previews.countP PreviewCall.chosen = 0)
    (shown : d.opened = true → ∀ target, d.selectedTarget = some target →
      d.text = textFor target ∧ d.text.target = target.name) : Agreed d where
  agents := agents
  shown := shown
  one := by omega
  waiting := by
    intro call hcall printer hprinter
    have hchosen := List.countP_eq_zero.mp hnone call hcall
    simp [PreviewCall.chosen, hprinter] at hchosen

/-- A choice that does not wait is offered at once. -/
theorem agreed_offer {d : Desk} (agents : AgentsList d.printers)
    (hnone : d.previews.countP PreviewCall.chosen = 0) (hclosed : d.opened = false)
    {printer : PrinterInfo} (hselected : d.selectedTarget = some printer)
    (hphysical : printer.id ≠ capturePrinterId) : Agreed (d.offer (some printer)) := by
  unfold Desk.offer
  dsimp only
  split
  · refine agreed_of_none agents hnone fun _ target htarget => ?_
    obtain rfl : printer = target := Option.some.inj (hselected.symm.trans htarget)
    exact ⟨(if_neg hphysical).symm, rfl⟩
  · exact agreed_of_none agents hnone fun hopen => absurd hopen (by simp [hclosed])

/-- The end of a preview, and what waited for it. -/
theorem Agreed.take {d : Desk} (h : Agreed d) {index : Nat} {call : PreviewCall}
    (hcall : d.previews[index]? = some call) :
    Agreed ({ d with previews := d.previews.eraseIdx index }.offer call.printer) := by
  have hcount := countP_eraseIdx PreviewCall.chosen hcall
  have hone := h.one
  cases hprinter : call.printer with
  | none =>
      have hother : call.chosen = false := by simp [PreviewCall.chosen, hprinter]
      exact
        { agents := h.agents
          shown := h.shown
          one := by
            rw [hother] at hcount
            show (d.previews.eraseIdx index).countP PreviewCall.chosen ≤ 1
            simp only [Bool.toNat_false] at hcount
            omega
          waiting := fun call' hcall' => h.waiting call' (List.mem_of_mem_eraseIdx hcall') }
  | some printer =>
      have hthis : call.chosen = true := by simp [PreviewCall.chosen, hprinter]
      obtain ⟨hclosed, hselected, hphysical⟩ :=
        h.waiting call (List.mem_of_getElem? hcall) printer hprinter
      have hnone : (d.previews.eraseIdx index).countP PreviewCall.chosen = 0 := by
        rw [hthis] at hcount
        simp only [Bool.toNat_true] at hcount
        omega
      exact agreed_offer (d := { d with previews := d.previews.eraseIdx index }) h.agents hnone
        hclosed hselected hphysical

/-- The job of a preview is there, and its document is awaited. -/
theorem Agreed.set {d : Desk} (h : Agreed d) {index : Nat} {printer : Option PrinterInfo}
    (hcall : d.previews[index]? = some ⟨printer, false⟩) :
    Agreed { d with previewJob := true, previews := d.previews.set index ⟨printer, true⟩ } where
  agents := h.agents
  shown := h.shown
  one := by
    have hsame : (d.previews.set index ⟨printer, true⟩).countP PreviewCall.chosen =
        d.previews.countP PreviewCall.chosen := countP_set_of_eq _ hcall rfl
    exact hsame.le.trans h.one
  waiting := by
    intro call hmem other hother
    rcases List.mem_or_eq_of_mem_set hmem with hold | rfl
    · exact h.waiting call hold other hother
    · exact h.waiting _ (List.mem_of_getElem? hcall) other hother

/-- A step in which nobody hurries keeps the agreement, and sends no job but for the
    target that the dialog names. -/
theorem agreed_step (sha256Hex : List UInt8 → String) {d : Desk} {i : DeskInput}
    (hcalm : Unhurried d i) (h : Agreed d) :
    Agreed (deskStep sha256Hex d i).1 ∧
      ∀ o ∈ (deskStep sha256Hex d i).2,
        o.shown = textFor o.target ∧ o.shown.target = o.target.name := by
  -- most steps send nothing
  have hsilent : Agreed (deskStep sha256Hex d i).1 → (deskStep sha256Hex d i).2 = [] →
      Agreed (deskStep sha256Hex d i).1 ∧ ∀ o ∈ (deskStep sha256Hex d i).2,
        o.shown = textFor o.target ∧ o.shown.target = o.target.name := by
    intro hagreed hnone
    refine ⟨hagreed, fun o ho => ?_⟩
    rw [hnone] at ho
    cases ho
  cases i with
  | load devices previewJob verified =>
      exact hsilent { h with agents := agentsList_listPrinters sha256Hex devices } rfl
  | render verified => exact hsilent { h with } rfl
  | createPreview =>
      by_cases hopen : d.opened
      · exact hsilent (by simpa [deskStep, hopen] using h) (by simp [deskStep, hopen])
      · refine hsilent ?_ (by simp [deskStep, hopen])
        simp only [deskStep, if_neg hopen]
        exact
          { agents := h.agents
            shown := h.shown
            one := by simpa [PreviewCall.chosen] using h.one
            waiting := by
              intro call hcall printer hprinter
              rcases List.mem_append.mp hcall with hold | hnew
              · exact h.waiting call hold printer hprinter
              · rw [List.mem_singleton.mp hnew] at hprinter
                cases hprinter }
  | prepareCapture =>
      by_cases hopen : d.opened
      · exact hsilent (by simpa [deskStep, hopen] using h) (by simp [deskStep, hopen])
      · refine hsilent ?_ (by simp [deskStep, hopen])
        simp only [deskStep, if_neg hopen]
        refine agreed_of_none h.agents hcalm fun _ target htarget => ?_
        have hid : target.id = capturePrinterId := by simpa using List.find?_some htarget
        have hagent := h.agents target (List.mem_of_find?_eq_some htarget) hid
        exact ⟨(if_pos hid).symm, hagent.2.symm⟩
  | preparePhysicalTest printer =>
      by_cases hrefused : d.opened ∨
          ¬ (printer ∈ d.printers ∧ printer.tested = false ∧ d.verified)
      · exact hsilent (by simpa only [deskStep, if_pos hrefused] using h)
          (by simp only [deskStep, if_pos hrefused])
      · obtain ⟨hclosed, hmem, htested, -⟩ : d.opened = false ∧ printer ∈ d.printers ∧
            printer.tested = false ∧ d.verified = true := by simpa using hrefused
        -- the capture is tested, so this is a printer of Windows
        have hphysical : printer.id ≠ capturePrinterId := by
          intro hid
          rw [(h.agents printer hmem hid).1] at htested
          cases htested
        by_cases hpreview : d.previewJob
        · refine hsilent ?_ (by simp only [deskStep, if_neg hrefused, if_pos hpreview])
          simp only [deskStep, if_neg hrefused, if_pos hpreview]
          exact agreed_offer (d := { d with selectedTarget := some printer }) h.agents hcalm
            hclosed rfl hphysical
        · refine hsilent ?_ (by simp only [deskStep, if_neg hrefused, if_neg hpreview])
          simp only [deskStep, if_neg hrefused, if_neg hpreview]
          have hnone : d.previews.countP PreviewCall.chosen = 0 := hcalm
          exact
            { agents := h.agents
              shown := fun hopen => absurd hopen (by simp [hclosed])
              one := by simp [PreviewCall.chosen, hnone]
              waiting := by
                intro call hcall other hother
                rcases List.mem_append.mp hcall with hold | hnew
                · have hchosen := List.countP_eq_zero.mp hnone call hold
                  simp [PreviewCall.chosen, hother] at hchosen
                · rw [List.mem_singleton.mp hnew] at hother
                  obtain rfl : printer = other := Option.some.inj hother
                  exact ⟨hclosed, rfl, hphysical⟩ }
  | previewCreated index created =>
      cases hcall : d.previews[index]? with
      | none =>
          exact hsilent (by simpa only [deskStep, hcall] using h) (by simp only [deskStep, hcall])
      | some call =>
          obtain ⟨printer, loading⟩ := call
          cases loading with
          | true =>
              exact hsilent (by simpa only [deskStep, hcall] using h)
                (by simp only [deskStep, hcall])
          | false =>
              cases created with
              | true =>
                  refine hsilent ?_ (by simp only [deskStep, hcall, if_true])
                  simp only [deskStep, hcall, if_true]
                  exact h.set hcall
              | false =>
                  refine hsilent ?_ (by simp [deskStep, hcall])
                  simp only [deskStep, hcall, Bool.false_eq_true, if_false]
                  exact h.take hcall
  | previewLoaded index =>
      cases hcall : d.previews[index]? with
      | none =>
          exact hsilent (by simpa only [deskStep, hcall] using h) (by simp only [deskStep, hcall])
      | some call =>
          obtain ⟨printer, loading⟩ := call
          cases loading with
          | false =>
              exact hsilent (by simpa only [deskStep, hcall] using h)
                (by simp only [deskStep, hcall])
          | true =>
              refine hsilent ?_ (by simp only [deskStep, hcall])
              simp only [deskStep, hcall]
              exact h.take hcall
  | confirm =>
      by_cases hopen : d.opened
      · cases htarget : d.selectedTarget with
        | none =>
            exact hsilent (by simpa only [deskStep, if_pos hopen, htarget] using h)
              (by simp only [deskStep, if_pos hopen, htarget])
        | some target =>
            simp only [deskStep, if_pos hopen, htarget]
            refine ⟨?_, fun o ho => ?_⟩
            · exact
                { agents := h.agents
                  shown := fun hclosed => by cases hclosed
                  one := h.one
                  waiting := fun call hcall printer hprinter =>
                    ⟨rfl, htarget ▸ (h.waiting call hcall printer hprinter).2⟩ }
            · rw [List.mem_singleton.mp ho]
              exact h.shown hopen target htarget
      · exact hsilent (by simpa only [deskStep, if_neg hopen] using h)
          (by simp only [deskStep, if_neg hopen])
  | dismiss =>
      exact hsilent
        { agents := h.agents
          shown := fun hclosed => by cases hclosed
          one := h.one
          waiting := fun call hcall printer hprinter =>
            ⟨rfl, (h.waiting call hcall printer hprinter).2⟩ } rfl

theorem agreed_start : Agreed Desk.start :=
  agreed_of_none (fun _ hmem => absurd hmem List.not_mem_nil) rfl
    fun hopen => absurd hopen Bool.false_ne_true

/-- **What is confirmed is what is sent.**  In every run in which nobody chooses a target
    while a choice waits for its preview, a print job goes to the target whose name, and
    whose kind, the dialog shows. -/
theorem confirmed_target (sha256Hex : List UInt8 → String) {is : List DeskInput}
    (hcalm : Along (deskStep sha256Hex) (fun _ d i => Unhurried d i) Desk.start is) :
    ∀ o ∈ trace (deskStep sha256Hex) Desk.start is,
      o.shown = textFor o.target ∧ o.shown.target = o.target.name := by
  have hkept := run_history_invariant
    (fun tr d => Agreed d ∧ ∀ o ∈ tr, o.shown = textFor o.target ∧ o.shown.target = o.target.name)
    ⟨agreed_start, fun o ho => absurd ho List.not_mem_nil⟩ (fun tr d i hi hinv => ?_) hcalm
  · exact hkept.2
  · obtain ⟨hagreed, hsent⟩ := agreed_step sha256Hex hi hinv.1
    exact ⟨hagreed, fun o ho => (List.mem_append.mp ho).elim (hinv.2 o) (hsent o)⟩

/-! ## An example -/

/-- A digest that tells two printers apart. -/
def exampleNames (bytes : List UInt8) : String := if bytes = Text.utf8 "Office" then "0f" else "1a"

def examplePrinter (name : String) : PrinterInfo where
  id := printerId exampleNames name
  name := name
  kind := "windows_local"
  tested := false
  detail := "Discovered through the Windows print subsystem. Output depends on the installed driver and printer."

/-- Two printers, no preview, and a capture that has succeeded. -/
def exampleLoad : DeskInput := .load [⟨"Office", false⟩, ⟨"Lab", false⟩] false true

def exampleCalm : List DeskInput :=
  [exampleLoad, .preparePhysicalTest (examplePrinter "Office"), .previewCreated 0 true,
    .previewLoaded 0, .confirm]

theorem confirmed_target_of_exampleCalm :
    ∃ o ∈ trace (deskStep exampleNames) Desk.start exampleCalm,
      o.shown = textFor o.target ∧ o.shown.target = o.target.name := by
  have hsent : ⟨examplePrinter "Office", physicalText (examplePrinter "Office")⟩ ∈
      trace (deskStep exampleNames) Desk.start exampleCalm := by decide +kernel
  exact ⟨_, hsent, confirmed_target exampleNames (along_cons.mpr ⟨by decide +kernel,
    along_cons.mpr ⟨by decide +kernel, along_cons.mpr ⟨by decide +kernel, along_cons.mpr
      ⟨by decide +kernel, along_cons.mpr ⟨by decide +kernel, along_nil⟩⟩⟩⟩⟩) _ hsent⟩

/-- The second printer is chosen while the first one waits for its preview: the dialog names
    the first, and the job goes to the second. -/
theorem confirmed_other_target :
    trace (deskStep exampleNames) Desk.start
      [exampleLoad, .preparePhysicalTest (examplePrinter "Office"),
        .preparePhysicalTest (examplePrinter "Lab"), .previewCreated 0 true, .previewLoaded 0,
        .confirm] =
      [⟨examplePrinter "Lab", physicalText (examplePrinter "Office")⟩] := by
  decide +kernel

end PrintLatch.Ui
