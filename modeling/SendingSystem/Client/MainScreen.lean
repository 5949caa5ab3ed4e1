import SendingSystem.Client.LastSend
import SendingSystem.Client.ServerResponse
import SendingSystem.Lib.Labelled

/-!
# The main screen

`MainActivity.java` as a transition system. The UI thread runs one callback or one
posted task at a time; a send runs on a thread of its own, and so does the look-up
of the last server. These threads share the two fields of the selected file with the
UI thread, without a lock, so whatever reads or writes them takes more than one step
here; the widgets belong to the UI thread alone. What a thread posts with
`runOnUiThread` is queued and runs in the order of posting.

The framework calls a button's listener only while the button is enabled, and an
activity is one screen: one that is made anew begins anew. `SendData` is one step,
which the results justify: no two of them run at the same time.

## Main definitions

* `Screen`: The widgets, the fields, the queue and the threads.
* `Task`, `Worker`, `Handling`: Posted tasks, send threads, callbacks under way.
* `UserStep`, `ThreadStep`, `Step`: One step, with what the user notices of it.
* `Screen.Consistent`: What holds in every state.

## Theorems

* `step_consistent`, `consistent_of_run`: A step and a run keep the invariant.
-/

namespace SendingSystem

namespace Client

open Utf16 Connector Labelled

/-- `String.trim`: no letters up to the blank at either end. -/
def trim (s : JString) : JString :=
  ((s.dropWhile (· ≤ 32)).reverse.dropWhile (· ≤ 32)).reverse

/-- `getMessage()`. What a library throws has a message of its own, `unknown`. -/
def Failure.getMessage (unknown : Option JString) : Failure → Option JString
  | .exception message => some message
  | .illegalArgumentException message => some message
  | .numberFormatException message => some message
  | .ioException message => some message
  | .nullPointerException => unknown
  | .thrown => unknown

/-- Where the data comes from. -/
inductive Source where
  | text
  | file
  deriving DecidableEq

/-- The text fields. -/
inductive Field where
  | serverIP
  | serverPort
  | sendingData
  | saveToPath
  deriving DecidableEq

/-- A `Uri` the user picks or shares, and what is read of it: its scheme, what the
    provider gives for the display name, its last path segment. -/
structure Picked (P : Platform) where
  uri : P.Uri
  scheme : Option JString
  displayName : Option JString
  lastPathSegment : Option JString

/-- `queryDisplayName`, and the last path segment where that gives nothing. -/
def Picked.name {P : Platform} (p : Picked P) : Option JString :=
  (if p.scheme = some (lit "content") then p.displayName else none).or p.lastPathSegment

/-- What a thread posts to the UI thread. -/
inductive Task where
  | toast (message : JString)
  | clearFileName
  | enable
  | fill (ip : Option JString) (port : Int) (ssl : Bool)
  deriving DecidableEq

/-- Where a send thread is. `unknown` is the message of whatever a library throws. -/
inductive SendStage where
  | calling
  | replied (response : Option JString) (unknown : Option JString)
  | failed (message : Option JString)
  | accepted
  | uriCleared
  | nameCleared
  | finishing
  deriving DecidableEq

/-- A send thread. -/
structure Worker (P : Platform) where
  cfg : Config P
  fileMode : Bool
  stage : SendStage

/-- What the UI thread is in the middle of: a click on Send, past its checks, or the
    selection of a file. -/
inductive Handling (P : Platform) where
  | idle
  | checked (cfg : Config P)
  | uriRead (cfg : Config P)
  | nameSet (picked : Picked P)
  | uriSet

/-- The thread that looks up the last server. -/
inductive Loading where
  | last
  | connection (last : Int × Message)
  | done

/-- The screen. -/
structure Screen (P : Platform) where
  checkBoxIPv4 : Bool
  checkBoxIPv6 : Bool
  text : Field → JString
  source : Source
  sendingDataVisible : Bool
  filePickerVisible : Bool
  radioEncryptYes : Bool
  textFileName : JString
  enabled : Bool
  fileUri : Option P.Uri
  fileName : Option JString
  handling : Handling P
  posted : List Task
  workers : List (Worker P)
  loading : Loading
  viewModel : ViewModel P

variable {P : Platform}

/-- `onCreate`, with the texts of the layout. -/
def Screen.initial (db : Database) : Screen P where
  checkBoxIPv4 := true
  checkBoxIPv6 := false
  text
    | .serverIP => lit "192.168.1.2"
    | .serverPort => lit "5000"
    | .sendingData => []
    | .saveToPath => []
  source := .text
  sendingDataVisible := true
  filePickerVisible := false
  radioEncryptYes := false
  textFileName := lit "No file chosen"
  enabled := true
  fileUri := none
  fileName := none
  handling := .idle
  posted := []
  workers := []
  loading := .last
  viewModel := ⟨.new, false, db⟩

namespace Screen

/-- `setText` on a field. -/
def setText (s : Screen P) (field : Field) (t : JString) : Screen P :=
  { s with text := Function.update s.text field t }

/-- The user's tap on a check box, and its listener, which clears the other one. -/
def toggle (s : Screen P) : IPVersion → Screen P
  | .ipv4 =>
    let c := !s.checkBoxIPv4
    { s with checkBoxIPv4 := c, checkBoxIPv6 := if c then false else s.checkBoxIPv6 }
  | .ipv6 =>
    let c := !s.checkBoxIPv6
    { s with checkBoxIPv6 := c, checkBoxIPv4 := if c then false else s.checkBoxIPv4 }

/-- `radioGroupSource.check`, and its listener. -/
def checkSource (s : Screen P) (source : Source) : Screen P :=
  if s.source = source then s
  else
    { s with
      source := source
      sendingDataVisible := source = .text
      filePickerVisible := source ≠ .text }

/-- The configuration a click on Send builds, without the file. -/
def config (s : Screen P) : Config P where
  ipVersion := if s.checkBoxIPv4 then .ipv4 else .ipv6
  serverIp := some (trim (s.text .serverIP))
  portString := some (trim (s.text .serverPort))
  sendingType := if s.source = .file then .file else .rawData
  sendingData := some (if s.source = .file then [] else trim (s.text .sendingData))
  isSSLEncryptEnabled := s.radioEncryptYes
  saveToPath := some (trim (s.text .saveToPath))
  fileBytes := none
  fileName := none
  fileUri := none
  contentResolver := none
  progressListener := none
  trustMode := .trustAll
  pinnedSha256 := none

/-- `runOnUiThread` from another thread. -/
def post (s : Screen P) (t : Task) : Screen P := { s with posted := s.posted ++ [t] }

/-- The end of a click on Send: the button is disabled and the thread started. -/
def launch (s : Screen P) (cfg : Config P) (fileMode : Bool) : Screen P :=
  { s with
    handling := .idle
    enabled := false
    workers := s.workers ++ [⟨cfg, fileMode, .calling⟩] }

/-- A posted task. -/
def perform (s : Screen P) : Task → Screen P
  | .toast _ => s
  | .clearFileName => { s with textFileName := [] }
  | .enable => { s with enabled := true }
  | .fill ip port ssl =>
    { (s.setText .serverIP (ip.getD [])).setText .serverPort (decimal port) with
      radioEncryptYes := ssl }

end Screen

/-- A call of `SendData` by a send thread. -/
structure Called (P : Platform) where
  env : SendEnv P
  cfg : Config P
  unknown : Option JString

/-- What a step shows: a warning of the form, a click that starts a send, the call, a
    toast. -/
inductive Label (P : Platform) where
  | silent
  | warned (message : JString)
  | clicked (cfg : Config P)
  | called (c : Called P)
  | shown (message : JString)

/-- What a posted task shows. -/
def Task.label : Task → Label P
  | .toast message => .shown message
  | _ => .silent

/-- `ServerResponse.fromJson(response)`. -/
def readResponse (lib : Libraries) : Option JString → Except Failure ServerResponse
  | none => .error .nullPointerException
  | some response => fromJson lib response

/-- The next step of a send thread: what it does to the screen, and the thread after
    it unless it ends. -/
def Worker.act (lib : Libraries) (env : SendEnv P) (unknown : Option JString) (s : Screen P)
    (w : Worker P) : Screen P × Option (Worker P) × Label P :=
  match w.stage with
  | .calling =>
    let r := s.viewModel.sendData env w.cfg
    let stage := match r.1 with
      | .error e => .failed (e.getMessage unknown)
      | .ok response => .replied response unknown
    ({ s with viewModel := r.2 }, some { w with stage := stage }, .called ⟨env, w.cfg, unknown⟩)
  | .replied response unknown =>
    match readResponse lib response with
    | .error e => (s, some { w with stage := .failed (e.getMessage unknown) }, .silent)
    | .ok sr =>
      -- An error of the server is thrown and caught here.
      if sr.type = some .error then (s, some { w with stage := .failed sr.data }, .silent)
      else
        (s.post (.toast (lit "Server response: " ++ concat sr.data)),
          some { w with stage := .accepted }, .silent)
  | .failed message =>
    (s.post (.toast (lit "Error: " ++ concat message)), some { w with stage := .finishing },
      .silent)
  | .accepted =>
    if w.fileMode then ({ s with fileUri := none }, some { w with stage := .uriCleared }, .silent)
    else (s, some { w with stage := .finishing }, .silent)
  | .uriCleared => ({ s with fileName := none }, some { w with stage := .nameCleared }, .silent)
  | .nameCleared => (s.post .clearFileName, some { w with stage := .finishing }, .silent)
  | .finishing => (s.post .enable, none, .silent)

/-- A step of the user: a callback that starts while the UI thread is idle. -/
inductive UserStep : Screen P → Label P → Screen P → Prop where
  | edit {s : Screen P} (field : Field) (t : JString) (hidle : s.handling = .idle) :
      UserStep s .silent (s.setText field t)
  | toggle {s : Screen P} (version : IPVersion) (hidle : s.handling = .idle) :
      UserStep s .silent (s.toggle version)
  | chooseSource {s : Screen P} (source : Source) (hidle : s.handling = .idle) :
      UserStep s .silent (s.checkSource source)
  | chooseEncryption {s : Screen P} (yes : Bool) (hidle : s.handling = .idle) :
      UserStep s .silent { s with radioEncryptYes := yes }
  | shareText {s : Screen P} (sharedText : JString) (hne : sharedText ≠ [])
      (hidle : s.handling = .idle) :
      UserStep s .silent ((s.checkSource .text).setText .sendingData sharedText)
  | pick {s : Screen P} (picked : Picked P) (hidle : s.handling = .idle) :
      UserStep s .silent { s with fileName := picked.name, handling := .nameSet picked }
  | clickNoFile {s : Screen P} (hidle : s.handling = .idle) (henabled : s.enabled = true)
      (hsource : s.source = .file) (huri : s.fileUri = none) :
      UserStep s (.warned (lit "Choose a file first")) s
  | clickNoText {s : Screen P} (hidle : s.handling = .idle) (henabled : s.enabled = true)
      (hsource : s.source = .text) (htext : trim (s.text .sendingData) = []) :
      UserStep s (.warned (lit "Enter text")) s
  | clickText {s : Screen P} (hidle : s.handling = .idle) (henabled : s.enabled = true)
      (hsource : s.source = .text) (htext : trim (s.text .sendingData) ≠ []) :
      UserStep s (.clicked s.config) (s.launch s.config false)
  | clickFile {s : Screen P} (hidle : s.handling = .idle) (henabled : s.enabled = true)
      (hsource : s.source = .file) (huri : s.fileUri ≠ none) :
      UserStep s .silent { s with handling := .checked s.config }

/-- A step of the threads by themselves: the UI thread goes on with a callback or
    starts a task while it is idle, the other threads step at any time. -/
inductive ThreadStep (lib : Libraries) (resolver : P.ContentResolver) :
    Screen P → Label P → Screen P → Prop where
  | pickUri {s : Screen P} (picked : Picked P) (h : s.handling = .nameSet picked) :
      ThreadStep lib resolver s .silent
        { s with fileUri := some picked.uri, handling := .uriSet }
  | pickShown {s : Screen P} (h : s.handling = .uriSet) :
      ThreadStep lib resolver s .silent
        ({ s with
          textFileName := s.fileName.getD (lit "selected file")
          handling := .idle }.checkSource .file)
  | readUri {s : Screen P} (cfg : Config P) (h : s.handling = .checked cfg) :
      ThreadStep lib resolver s .silent
        { s with handling := .uriRead { cfg with fileUri := s.fileUri } }
  | readName {s : Screen P} (cfg : Config P) (h : s.handling = .uriRead cfg) :
      ThreadStep lib resolver s
        (.clicked { cfg with fileName := s.fileName, contentResolver := some resolver })
        (s.launch { cfg with fileName := s.fileName, contentResolver := some resolver } true)
  | runTask {s : Screen P} (t : Task) (rest : List Task) (hidle : s.handling = .idle)
      (hposted : s.posted = t :: rest) :
      ThreadStep lib resolver s t.label ({ s with posted := rest }.perform t)
  | loadLast {s : Screen P} (answer : Option (Int × Message)) (h : s.loading = .last)
      (hanswer : GetsLastSuccessful s.viewModel.db answer) :
      ThreadStep lib resolver s .silent
        { s with loading := match answer with
          | none => .done
          | some last => .connection last }
  | loadConnection {s : Screen P} (last : Int × Message) (h : s.loading = .connection last) :
      ThreadStep lib resolver s .silent
        (match prefill s.viewModel.db (some last) with
          | none => { s with loading := .done }
          | some (ip, port, ssl) => { s with loading := .done }.post (.fill ip port ssl))
  | work {s : Screen P} (before : List (Worker P)) (w : Worker P) (after : List (Worker P))
      (h : s.workers = before ++ w :: after) (env : SendEnv P) (unknown : Option JString) :
      ThreadStep lib resolver s (w.act lib env unknown s).2.2
        { (w.act lib env unknown s).1 with
          workers := before ++ (w.act lib env unknown s).2.1.toList ++ after }

/-- One step of the system. -/
inductive Step (lib : Libraries) (resolver : P.ContentResolver) (s : Screen P) (l : Label P)
    (s' : Screen P) : Prop where
  | user (h : UserStep s l s')
  | thread (h : ThreadStep lib resolver s l s')

/-- The task enables the button. -/
def Task.isEnable : Task → Bool
  | .enable => true
  | _ => false

/-- A configuration that `SendData` can work with: a file with its resolver, or a text
    with something in it. -/
structure WellFormed (cfg : Config P) : Prop where
  file : cfg.sendingType = .file → cfg.fileUri ≠ none ∧ cfg.contentResolver ≠ none
  text : cfg.sendingType = .rawData → ∃ t, cfg.sendingData = some (trim t) ∧ trim t ≠ []
  trust : cfg.trustMode = .trustAll
  address : cfg.serverIp.isSome = true

/-- What holds in every state. The button, the tasks that enable it and the send
    threads share one token: whoever has it, nobody else has. -/
structure Screen.Consistent (s : Screen P) : Prop where
  boxes : ¬ (s.checkBoxIPv4 = true ∧ s.checkBoxIPv6 = true)
  visible : s.sendingDataVisible = decide (s.source = .text) ∧
    s.filePickerVisible = decide (s.source ≠ .text)
  token : s.workers.length + s.posted.countP Task.isEnable + (if s.enabled then 1 else 0) = 1
  checked : ∀ cfg, s.handling = .checked cfg → s.enabled = true ∧ s.fileUri ≠ none ∧
    cfg.sendingType = .file ∧ cfg.trustMode = .trustAll ∧ cfg.serverIp.isSome = true
  uriRead : ∀ cfg, s.handling = .uriRead cfg → s.enabled = true ∧ cfg.fileUri ≠ none ∧
    cfg.sendingType = .file ∧ cfg.trustMode = .trustAll ∧ cfg.serverIp.isSome = true
  workers : ∀ w ∈ s.workers, WellFormed w.cfg
  sending : s.viewModel.getIsSending = false

/-- A view model that is not sending is not sending after a call. -/
theorem sendData_getIsSending {vm : ViewModel P} (h : vm.getIsSending = false) (env : SendEnv P)
    (cfg : Config P) : (vm.sendData env cfg).2.getIsSending = false := by
  have hconn : vm.connector.isSending = false := by
    rw [ViewModel.getIsSending, Bool.or_eq_false_iff] at h
    exact h.2
  have hsent : ∀ c : Connector P, (c.sendData env.network).2.isSending = false := fun c => rfl
  unfold ViewModel.sendData
  simp only [h, Bool.false_eq_true, if_false]
  cases hvalid : validate env cfg with
  | error e => exact h
  | ok serverPort =>
      simp only
      rcases ensureConnection env vm.db cfg serverPort with ⟨_ | ⟨_ | conn⟩, db⟩
      · exact h
      -- `setSaveToPath` changes the path only.
      · have hpath : (chooseSaveToPath vm.connector cfg).isSending = vm.connector.isSending := by
          unfold chooseSaveToPath
          split
          · rfl
          · split <;> rfl
        rw [ViewModel.getIsSending, Bool.or_eq_false_iff] at h ⊢
        exact ⟨h.1, hpath.trans hconn⟩
      · simp only
        split
        · rw [ViewModel.getIsSending, hsent]
          rfl
        · rw [ViewModel.getIsSending, hsent]
          rfl

/-- What a step of a send thread leaves alone, and what it may post: the task that
    enables the button is the last thing it does. -/
structure Acts (s : Screen P) (w : Worker P) (r : Screen P × Option (Worker P) × Label P) :
    Prop where
  boxes : r.1.checkBoxIPv4 = s.checkBoxIPv4 ∧ r.1.checkBoxIPv6 = s.checkBoxIPv6
  source : r.1.source = s.source ∧ r.1.sendingDataVisible = s.sendingDataVisible ∧
    r.1.filePickerVisible = s.filePickerVisible
  enabled : r.1.enabled = s.enabled
  handling : r.1.handling = s.handling
  sending : s.viewModel.getIsSending = false → r.1.viewModel.getIsSending = false
  posts : (∃ w' more, r.2.1 = some w' ∧ w'.cfg = w.cfg ∧ r.1.posted = s.posted ++ more ∧
      more.countP Task.isEnable = 0) ∨
    (r.2.1 = none ∧ r.1.posted = s.posted ++ [.enable])

theorem Worker.act_spec (lib : Libraries) (env : SendEnv P) (unknown : Option JString)
    (s : Screen P) (w : Worker P) : Acts s w (w.act lib env unknown s) := by
  have hnone : s.posted = s.posted ++ [] := (List.append_nil _).symm
  unfold Worker.act
  cases w.stage with
  | calling =>
      exact ⟨⟨rfl, rfl⟩, ⟨rfl, rfl, rfl⟩, rfl, rfl, fun h => sendData_getIsSending h env w.cfg,
        Or.inl ⟨_, [], rfl, rfl, hnone, rfl⟩⟩
  | replied response unknown =>
      simp only
      cases readResponse lib response with
      | error e =>
          exact ⟨⟨rfl, rfl⟩, ⟨rfl, rfl, rfl⟩, rfl, rfl, id, Or.inl ⟨_, [], rfl, rfl, hnone, rfl⟩⟩
      | ok sr =>
          simp only
          by_cases herror : sr.type = some .error
          · rw [if_pos herror]
            exact ⟨⟨rfl, rfl⟩, ⟨rfl, rfl, rfl⟩, rfl, rfl, id,
              Or.inl ⟨_, [], rfl, rfl, hnone, rfl⟩⟩
          · rw [if_neg herror]
            exact ⟨⟨rfl, rfl⟩, ⟨rfl, rfl, rfl⟩, rfl, rfl, id, Or.inl ⟨_, _, rfl, rfl, rfl, rfl⟩⟩
  | failed message =>
      exact ⟨⟨rfl, rfl⟩, ⟨rfl, rfl, rfl⟩, rfl, rfl, id, Or.inl ⟨_, _, rfl, rfl, rfl, rfl⟩⟩
  | accepted =>
      simp only
      by_cases hmode : w.fileMode = true
      · rw [if_pos hmode]
        exact ⟨⟨rfl, rfl⟩, ⟨rfl, rfl, rfl⟩, rfl, rfl, id, Or.inl ⟨_, [], rfl, rfl, hnone, rfl⟩⟩
      · rw [if_neg hmode]
        exact ⟨⟨rfl, rfl⟩, ⟨rfl, rfl, rfl⟩, rfl, rfl, id, Or.inl ⟨_, [], rfl, rfl, hnone, rfl⟩⟩
  | uriCleared =>
      exact ⟨⟨rfl, rfl⟩, ⟨rfl, rfl, rfl⟩, rfl, rfl, id, Or.inl ⟨_, [], rfl, rfl, hnone, rfl⟩⟩
  | nameCleared =>
      exact ⟨⟨rfl, rfl⟩, ⟨rfl, rfl, rfl⟩, rfl, rfl, id, Or.inl ⟨_, _, rfl, rfl, rfl, rfl⟩⟩
  | finishing => exact ⟨⟨rfl, rfl⟩, ⟨rfl, rfl, rfl⟩, rfl, rfl, id, Or.inr ⟨rfl, rfl⟩⟩

/-- While the button is enabled there is no send thread and no task to enable it. -/
theorem Screen.Consistent.idle {s : Screen P} (h : Screen.Consistent s)
    (henabled : s.enabled = true) :
    s.workers = [] ∧ s.posted.countP Task.isEnable = 0 := by
  have htoken := h.token
  rw [if_pos henabled] at htoken
  exact ⟨List.eq_nil_of_length_eq_zero (by omega), by omega⟩

/-- The form's configuration in text mode. -/
theorem wellFormed_text {s : Screen P} (hsource : s.source = .text)
    (htext : trim (s.text .sendingData) ≠ []) : WellFormed s.config := by
  have hmode : ¬ s.source = .file := by
    rw [hsource]
    exact Source.noConfusion
  refine ⟨fun h => ?_, fun _ => ⟨s.text .sendingData, ?_, htext⟩, rfl, rfl⟩
  · simp only [Screen.config, hmode, if_false, reduceCtorEq] at h
  · simp only [Screen.config, hmode, if_false]

theorem consistent_initial (db : Database) : Screen.Consistent (Screen.initial db : Screen P) where
  boxes := fun h => Bool.false_ne_true h.2
  visible := ⟨rfl, rfl⟩
  token := rfl
  checked := fun cfg h => by simp only [Screen.initial, reduceCtorEq] at h
  uriRead := fun cfg h => by simp only [Screen.initial, reduceCtorEq] at h
  workers := fun w hw => absurd hw List.not_mem_nil
  sending := rfl

/-- Choosing where the data comes from shows the view for it. -/
theorem consistent_checkSource {s : Screen P} (h : Screen.Consistent s) (hidle : s.handling = .idle)
    (source : Source) : Screen.Consistent (s.checkSource source) := by
  unfold Screen.checkSource
  split
  · exact h
  · refine ⟨h.boxes, ⟨rfl, rfl⟩, h.token, fun cfg hc => ?_, fun cfg hc => ?_, h.workers, h.sending⟩
    · simp only [hidle, reduceCtorEq] at hc
    · simp only [hidle, reduceCtorEq] at hc

/-- A click that gets through its checks hands the token to a new thread. -/
theorem consistent_launch {s : Screen P} (h : Screen.Consistent s) (henabled : s.enabled = true)
    {cfg : Config P} (hcfg : WellFormed cfg) (fileMode : Bool) :
    Screen.Consistent (s.launch cfg fileMode) := by
  rcases h.idle henabled with ⟨hnone, hcount⟩
  refine ⟨h.boxes, h.visible, ?_, fun cfg hc => ?_, fun cfg hc => ?_, fun w hw => ?_, h.sending⟩
  · simp only [Screen.launch, hnone, hcount, List.nil_append, List.length_singleton,
      Bool.false_eq_true, if_false]
  · simp only [Screen.launch, reduceCtorEq] at hc
  · simp only [Screen.launch, reduceCtorEq] at hc
  · simp only [Screen.launch, hnone, List.nil_append, List.mem_singleton] at hw
    rw [hw]
    exact hcfg

/-- A posted task that runs takes the token out of the queue if it has it. -/
theorem consistent_perform {s : Screen P} (h : Screen.Consistent s) (hidle : s.handling = .idle)
    {t : Task} {rest : List Task} (hposted : s.posted = t :: rest) :
    Screen.Consistent ({ s with posted := rest }.perform t) := by
  have htoken := h.token
  rw [hposted, List.countP_cons] at htoken
  have hno : ∀ cfg : Config P, ({ s with posted := rest }.perform t).handling ≠ .checked cfg ∧
      ({ s with posted := rest }.perform t).handling ≠ .uriRead cfg := by
    intro cfg
    have hsame : ({ s with posted := rest }.perform t).handling = .idle := by
      rw [← hidle]
      cases t <;> rfl
    rw [hsame]
    exact ⟨nofun, nofun⟩
  cases t with
  | enable =>
      -- The button was disabled, since the task had the token.
      have hbefore : s.enabled = false := by
        rcases henabled : s.enabled with _ | _
        · rfl
        · simp only [Task.isEnable, henabled, if_true] at htoken
          omega
      refine ⟨h.boxes, h.visible, ?_, fun cfg hc => absurd hc (hno cfg).1,
        fun cfg hc => absurd hc (hno cfg).2, h.workers, h.sending⟩
      simp only [Task.isEnable, if_true, hbefore, Bool.false_eq_true, if_false] at htoken
      simp only [Screen.perform, if_true]
      omega
  | _ =>
      exact ⟨h.boxes, h.visible, htoken, fun cfg hc => absurd hc (hno cfg).1,
        fun cfg hc => absurd hc (hno cfg).2, h.workers, h.sending⟩

/-- A send thread that steps keeps the token or hands it to its last task. -/
theorem consistent_work {s : Screen P} (h : Screen.Consistent s) {before after : List (Worker P)}
    {w : Worker P} (hworkers : s.workers = before ++ w :: after) {s' : Screen P}
    {w' : Option (Worker P)} {l : Label P} (hacts : Acts s w (s', w', l)) :
    Screen.Consistent { s' with workers := before ++ w'.toList ++ after } := by
  have htoken := h.token
  have hlength : s.workers.length = before.length + after.length + 1 := by
    rw [hworkers, List.length_append, List.length_cons]
    omega
  -- With a thread there, no click is under way.
  have hdisabled : s.enabled = false := by
    rcases henabled : s.enabled with _ | _
    · rfl
    · rw [hlength, henabled, if_pos rfl] at htoken
      omega
  rcases hacts with ⟨hboxes, hsource, henabled, hhandling, hsending, hposts⟩
  simp only at hboxes hsource henabled hhandling hsending hposts
  refine ⟨?_, ?_, ?_, fun cfg hc => ?_, fun cfg hc => ?_, fun v hv => ?_, hsending h.sending⟩
  · simp only [hboxes]
    exact h.boxes
  · simp only [hsource]
    exact h.visible
  · simp only [henabled, List.length_append]
    rw [hlength] at htoken
    rcases hposts with ⟨v, more, rfl, _, hmore, hcount⟩ | ⟨rfl, hmore⟩
    · rw [hmore, List.countP_append, hcount]
      simp only [Option.toList_some, List.length_singleton]
      omega
    · rw [hmore, List.countP_append]
      simp only [Option.toList_none, List.length_nil, List.countP_singleton, Task.isEnable, if_true]
      omega
  · rw [hhandling] at hc
    have henabled' := (h.checked cfg hc).1
    rw [hdisabled] at henabled'
    exact absurd henabled' Bool.false_ne_true
  · rw [hhandling] at hc
    have henabled' := (h.uriRead cfg hc).1
    rw [hdisabled] at henabled'
    exact absurd henabled' Bool.false_ne_true
  · have hkept : ∀ u ∈ before ++ after, WellFormed u.cfg := by
      intro u hu
      refine h.workers u ?_
      rw [hworkers]
      rcases List.mem_append.mp hu with hu | hu
      · exact List.mem_append_left _ hu
      · exact List.mem_append_right _ (List.mem_cons_of_mem _ hu)
    rcases hposts with ⟨v', more, rfl, hcfg, _⟩ | ⟨rfl, _⟩
    · simp only [Option.toList_some, List.append_assoc, List.mem_append, List.mem_cons,
        List.not_mem_nil, or_false] at hv
      rcases hv with hv | rfl | hv
      · exact hkept v (List.mem_append_left _ hv)
      · rw [hcfg]
        exact h.workers w (by rw [hworkers]; exact List.mem_append_right _ List.mem_cons_self)
      · exact hkept v (List.mem_append_right _ hv)
    · simp only [Option.toList_none, List.append_nil] at hv
      exact hkept v hv

/-- A step of the user keeps the invariant. -/
theorem userStep_consistent {s s' : Screen P} {l : Label P} (h : Screen.Consistent s)
    (hstep : UserStep s l s') : Screen.Consistent s' := by
  cases hstep with
  | edit field t hidle =>
      exact ⟨h.boxes, h.visible, h.token, h.checked, h.uriRead, h.workers, h.sending⟩
  | toggle version hidle =>
      refine ⟨?_, ?_, ?_, ?_, ?_, ?_, ?_⟩
      -- A box that gets checked clears the other one.
      · cases version with
        | ipv4 =>
            simp only [Screen.toggle]
            rintro ⟨h4, h6⟩
            simp only [h4, if_true, Bool.false_eq_true] at h6
        | ipv6 =>
            simp only [Screen.toggle]
            rintro ⟨h4, h6⟩
            simp only [h6, if_true, Bool.false_eq_true] at h4
      · cases version <;> exact h.visible
      · cases version <;> exact h.token
      · cases version <;> exact h.checked
      · cases version <;> exact h.uriRead
      · cases version <;> exact h.workers
      · cases version <;> exact h.sending
  | chooseSource source hidle => exact consistent_checkSource h hidle source
  | chooseEncryption yes hidle =>
      exact ⟨h.boxes, h.visible, h.token, h.checked, h.uriRead, h.workers, h.sending⟩
  | shareText sharedText hne hidle =>
      have hshown := consistent_checkSource h hidle .text
      exact ⟨hshown.boxes, hshown.visible, hshown.token, hshown.checked, hshown.uriRead,
        hshown.workers, hshown.sending⟩
  | pick picked hidle =>
      exact ⟨h.boxes, h.visible, h.token, fun cfg hc => (nomatch hc),
        fun cfg hc => (nomatch hc), h.workers, h.sending⟩
  | clickNoFile => exact h
  | clickNoText => exact h
  | clickText hidle henabled hsource htext =>
      exact consistent_launch h henabled (wellFormed_text hsource htext) false
  | clickFile hidle henabled hsource huri =>
      refine ⟨h.boxes, h.visible, h.token, fun cfg hc => ?_, fun cfg hc => (nomatch hc),
        h.workers, h.sending⟩
      simp only [Handling.checked.injEq] at hc
      subst hc
      exact ⟨henabled, huri, if_pos hsource, rfl, rfl⟩

/-- A step of the threads keeps it. -/
theorem threadStep_consistent {lib : Libraries} {resolver : P.ContentResolver} {s s' : Screen P}
    {l : Label P} (h : Screen.Consistent s) (hstep : ThreadStep lib resolver s l s') :
    Screen.Consistent s' := by
  cases hstep with
  | pickUri picked hset =>
      exact ⟨h.boxes, h.visible, h.token, fun cfg hc => (nomatch hc),
        fun cfg hc => (nomatch hc), h.workers, h.sending⟩
  | pickShown hset =>
      refine consistent_checkSource ?_ rfl .file
      exact ⟨h.boxes, h.visible, h.token, fun cfg hc => (nomatch hc),
        fun cfg hc => (nomatch hc), h.workers, h.sending⟩
  | readUri cfg hchecked =>
      rcases h.checked cfg hchecked with ⟨henabled, huri, hform⟩
      refine ⟨h.boxes, h.visible, h.token, fun cfg hc => (nomatch hc), fun cfg' hc => ?_,
        h.workers, h.sending⟩
      simp only [Handling.uriRead.injEq] at hc
      subst hc
      exact ⟨henabled, huri, hform⟩
  | readName cfg hread =>
      rcases h.uriRead cfg hread with ⟨henabled, huri, htype, htrust, haddress⟩
      have hcfg : WellFormed
          { cfg with fileName := s.fileName, contentResolver := some resolver } := by
        refine ⟨fun _ => ⟨huri, Option.some_ne_none _⟩, fun hc => ?_, htrust, haddress⟩
        simp only [htype, reduceCtorEq] at hc
      exact consistent_launch h henabled hcfg true
  | runTask t rest hidle hposted => exact consistent_perform h hidle hposted
  | loadLast answer hloading hanswer =>
      exact ⟨h.boxes, h.visible, h.token, h.checked, h.uriRead, h.workers, h.sending⟩
  | loadConnection last hloading =>
      cases prefill s.viewModel.db (some last) with
      | none => exact ⟨h.boxes, h.visible, h.token, h.checked, h.uriRead, h.workers, h.sending⟩
      | some filled =>
          refine ⟨h.boxes, h.visible, ?_, h.checked, h.uriRead, h.workers, h.sending⟩
          simp only [Screen.post, List.countP_append, List.countP_singleton, Task.isEnable,
            Bool.false_eq_true, if_false, Nat.add_zero]
          exact h.token
  | work before w after hworkers env unknown =>
      exact consistent_work h hworkers (w.act_spec lib env unknown s)

/-- One step keeps the invariant. -/
theorem step_consistent {lib : Libraries} {resolver : P.ContentResolver} {s s' : Screen P}
    {l : Label P} (h : Screen.Consistent s) (hstep : Step lib resolver s l s') :
    Screen.Consistent s' := by
  cases hstep with
  | user hstep => exact userStep_consistent h hstep
  | thread hstep => exact threadStep_consistent h hstep

/-- A run keeps it. -/
theorem consistent_of_run {lib : Libraries} {resolver : P.ContentResolver} {db : Database}
    {ls : List (Label P)} {s : Screen P} (h : Run (Step lib resolver) (.initial db) ls s) :
    Screen.Consistent s :=
  h.invariant (fun _ s => Screen.Consistent s) (consistent_initial db)
    (fun _ _ _ _ hinv hstep => step_consistent hinv hstep)

end Client

end SendingSystem
