import SendingSystem.Client.FreshRequest
import SendingSystem.Client.MainScreen

/-!
# What the screen comes to

Whatever the user does, and whenever the threads run, the view model is called as if
by one caller: one call for each click on Send that got through the checks, in the
order of the clicks, each with what the form held at its click. What each call comes
to is shown in a toast, in the same order, and by the time the button is enabled
again the toast of every call was shown.

## Main definitions

* `outcome`: The toast a call ends with.
* `play`: The calls one after another.
* `clicks`, `calls`, `shown`: What a run shows.
* `InOrder`: What holds in every state of a run.

## Theorems

* `inOrder_step`, `inOrder_run`: A step and a run keep the invariant.
* `screen_consistent`: The button, the threads and the widgets.
* `screen_in_order`: The calls and the toasts of a run.
* `screen_never_refused`: No call is refused for its timing or its form.
-/

namespace SendingSystem

namespace Client

open Utf16 Connector Labelled

variable {P : Platform}

/-- The toast a call ends with. -/
def outcome (lib : Libraries) (unknown : Option JString) :
    Except Failure (Option JString) → JString
  | .error e => lit "Error: " ++ concat (e.getMessage unknown)
  | .ok response =>
    match readResponse lib response with
    | .error e => lit "Error: " ++ concat (e.getMessage unknown)
    | .ok sr =>
      if sr.type = some .error then lit "Error: " ++ concat sr.data
      else lit "Server response: " ++ concat sr.data

/-- The calls one after another: the view model after them, and their toasts. -/
def play (lib : Libraries) : ViewModel P → List (Called P) → ViewModel P × List JString
  | vm, [] => (vm, [])
  | vm, c :: cs =>
    let r := vm.sendData c.env c.cfg
    let rest := play lib r.2 cs
    (rest.1, outcome lib c.unknown r.1 :: rest.2)

/-- One more call. -/
theorem play_snoc (lib : Libraries) (c : Called P) : ∀ (cs : List (Called P)) (vm : ViewModel P),
    play lib vm (cs ++ [c]) =
      (((play lib vm cs).1.sendData c.env c.cfg).2,
        (play lib vm cs).2 ++ [outcome lib c.unknown ((play lib vm cs).1.sendData c.env c.cfg).1])
      := by
  intro cs
  induction cs with
  | nil =>
      intro vm
      rfl
  | cons c' cs ih =>
      intro vm
      rw [List.cons_append, play, play]
      simp only [ih]
      rfl

/-- The clicks that started a send. -/
def clicks (ls : List (Label P)) : List (Config P) :=
  ls.filterMap fun
    | .clicked cfg => some cfg
    | _ => none

/-- The calls of `SendData`. -/
def calls (ls : List (Label P)) : List (Called P) :=
  ls.filterMap fun
    | .called c => some c
    | _ => none

/-- The toasts of the sends. -/
def shown (ls : List (Label P)) : List JString :=
  ls.filterMap fun
    | .shown message => some message
    | _ => none

theorem clicks_append (ls ls' : List (Label P)) : clicks (ls ++ ls') = clicks ls ++ clicks ls' :=
  List.filterMap_append ..

theorem calls_append (ls ls' : List (Label P)) : calls (ls ++ ls') = calls ls ++ calls ls' :=
  List.filterMap_append ..

theorem shown_append (ls ls' : List (Label P)) : shown (ls ++ ls') = shown ls ++ shown ls' :=
  List.filterMap_append ..

/-- The toast a task shows. -/
def Task.message : Task → Option JString
  | .toast message => some message
  | _ => none

/-- The toast a thread has yet to post. -/
def SendStage.pending (lib : Libraries) : SendStage → List JString
  | .replied response unknown => [outcome lib unknown (.ok response)]
  | .failed message => [lit "Error: " ++ concat message]
  | _ => []

/-- The call a thread has yet to make. -/
def Worker.waiting (w : Worker P) : List (Config P) :=
  if w.stage = .calling then [w.cfg] else []

/-- No toast comes after the task that enables the button. -/
def Task.Before (t u : Task) : Prop := t.isEnable = true → u.message = none

/-- What holds in every state of a run: the clicks are the calls made and the one to
    be made, and the toasts of the calls are those shown, those posted and the one to
    be posted. -/
structure InOrder (lib : Libraries) (vm : ViewModel P) (ls : List (Label P)) (s : Screen P) :
    Prop where
  consistent : Screen.Consistent s
  viewModel : s.viewModel = (play lib vm (calls ls)).1
  clicks : clicks ls = (calls ls).map Called.cfg ++ s.workers.flatMap Worker.waiting
  shown : (play lib vm (calls ls)).2 = shown ls ++ s.posted.filterMap Task.message ++
    s.workers.flatMap fun w => w.stage.pending lib
  last : s.posted.Pairwise Task.Before
  quiet : s.enabled = true → s.posted.filterMap Task.message = []

/-- A step that shows nothing, leaves the threads, the button and the view model as
    they are, and posts no toast. -/
theorem InOrder.unseen {lib : Libraries} {vm : ViewModel P} {ls : List (Label P)}
    {s s' : Screen P} {l : Label P} (h : InOrder lib vm ls s) (hconsistent : Screen.Consistent s')
    (hclicks : Client.clicks [l] = []) (hcalls : calls [l] = []) (hshown : Client.shown [l] = [])
    (hviewModel : s'.viewModel = s.viewModel) (hworkers : s'.workers = s.workers)
    (henabled : s'.enabled = s.enabled) {more : List Task} (hposted : s'.posted = s.posted ++ more)
    (hmore : ∀ t ∈ more, t.message = none) : InOrder lib vm (ls ++ [l]) s' := by
  have hnone : more.filterMap Task.message = [] := List.filterMap_eq_nil_iff.mpr hmore
  refine ⟨hconsistent, ?_, ?_, ?_, ?_, fun he => ?_⟩
  · rw [calls_append, hcalls, List.append_nil, hviewModel]
    exact h.viewModel
  · rw [clicks_append, calls_append, hclicks, hcalls, List.append_nil, List.append_nil, hworkers]
    exact h.clicks
  · rw [calls_append, shown_append, hcalls, hshown, List.append_nil, List.append_nil, hworkers,
      hposted, List.filterMap_append, hnone, List.append_nil]
    exact h.shown
  · rw [hposted]
    refine List.pairwise_append.mpr ⟨h.last, ?_, fun t _ u hu _ => hmore u hu⟩
    exact List.pairwise_of_forall_mem_list fun t _ u hu _ => hmore u hu
  · rw [henabled] at he
    rw [hposted, List.filterMap_append, hnone, h.quiet he, List.append_nil]

/-- The only send thread, when it steps. -/
theorem Screen.Consistent.sole {s : Screen P} (h : Screen.Consistent s)
    {before after : List (Worker P)} {w : Worker P} (hworkers : s.workers = before ++ w :: after) :
    before = [] ∧ after = [] ∧ s.enabled = false ∧ s.posted.countP Task.isEnable = 0 := by
  have htoken := h.token
  rw [hworkers, List.length_append, List.length_cons] at htoken
  refine ⟨List.eq_nil_of_length_eq_zero (by omega), List.eq_nil_of_length_eq_zero (by omega), ?_,
    by omega⟩
  rcases henabled : s.enabled with _ | _
  · rfl
  · rw [henabled, if_pos rfl] at htoken
    omega

/-- What a step of a send thread comes to: its call, or something posted. Its toast
    goes from the call to what it has yet to post, and from there into the queue. -/
inductive Reports (lib : Libraries) (s : Screen P) (w : Worker P)
    (r : Screen P × Option (Worker P) × Label P) : Prop where
  | call (c : Called P) (w' : Worker P) (hlabel : r.2.2 = .called c) (hnext : r.2.1 = some w')
      (hcfg : c.cfg = w.cfg) (hstage : w.stage = .calling) (hstage' : w'.stage ≠ .calling)
      (hviewModel : r.1.viewModel = (s.viewModel.sendData c.env c.cfg).2)
      (hposted : r.1.posted = s.posted)
      (hpending : w'.stage.pending lib
        = [outcome lib c.unknown (s.viewModel.sendData c.env c.cfg).1])
  | post (more : List Task) (hlabel : r.2.2 = .silent) (hstage : w.stage ≠ .calling)
      (hstage' : ∀ w', r.2.1 = some w' → w'.stage ≠ .calling)
      (hviewModel : r.1.viewModel = s.viewModel) (hposted : r.1.posted = s.posted ++ more)
      (hmore : more.Pairwise Task.Before)
      (hpending : w.stage.pending lib = more.filterMap Task.message ++
        r.2.1.toList.flatMap fun w => w.stage.pending lib)

/-- A thread with nothing to show and nothing to post. -/
theorem Reports.move {lib : Libraries} {s : Screen P} {w w' : Worker P} {s' : Screen P}
    (hviewModel : s'.viewModel = s.viewModel) (hposted : s'.posted = s.posted)
    (hstage : w.stage ≠ .calling) (hstage' : w'.stage ≠ .calling)
    (hpending : w.stage.pending lib = w'.stage.pending lib) :
    Reports lib s w (s', some w', .silent) := by
  refine .post [] rfl hstage ?_ hviewModel ?_ List.Pairwise.nil ?_
  · intro v hv
    rw [← Option.some.inj hv]
    exact hstage'
  · rw [List.append_nil]
    exact hposted
  · simp only [List.filterMap_nil, List.nil_append, Option.toList_some, List.flatMap_singleton]
    exact hpending

/-- A thread that posts one task. -/
theorem Reports.postOne {lib : Libraries} {s : Screen P} {w : Worker P} {s' : Screen P} {t : Task}
    {w' : Option (Worker P)} (hviewModel : s'.viewModel = s.viewModel)
    (hposted : s'.posted = s.posted ++ [t]) (hstage : w.stage ≠ .calling)
    (hstage' : ∀ v, w' = some v → v.stage ≠ .calling)
    (hpending : w.stage.pending lib = t.message.toList ++
      w'.toList.flatMap fun w => w.stage.pending lib) : Reports lib s w (s', w', .silent) := by
  refine .post [t] rfl hstage hstage' hviewModel hposted (List.pairwise_singleton _ _) ?_
  rw [hpending]
  cases ht : t.message with
  | none => simp only [ht, List.filterMap_cons_none, List.filterMap_nil, Option.toList_none]
  | some message =>
      simp only [List.filterMap_cons_some ht, List.filterMap_nil, Option.toList_some]

/-- The next step of a send thread reports in order. -/
theorem Worker.act_reports (lib : Libraries) (env : SendEnv P) (unknown : Option JString)
    (s : Screen P) (w : Worker P) : Reports lib s w (w.act lib env unknown s) := by
  -- A thread that has made its call does not go back to it.
  have hnext : ∀ (w' : Worker P), w'.stage ≠ .calling →
      ∀ v, some w' = some v → v.stage ≠ .calling := by
    intro w' hw' v hv
    rw [← Option.some.inj hv]
    exact hw'
  unfold Worker.act
  cases hstage : w.stage with
  | calling =>
      refine .call ⟨env, w.cfg, unknown⟩ _ rfl rfl rfl hstage ?_ rfl rfl ?_
      · simp only
        cases (s.viewModel.sendData env w.cfg).1 with
        | error e => exact SendStage.noConfusion
        | ok response => exact SendStage.noConfusion
      -- A thrown exception is caught, anything else is read.
      · simp only
        cases (s.viewModel.sendData env w.cfg).1 with
        | error e => rfl
        | ok response => rfl
  | replied response unknown =>
      have hbehind : w.stage ≠ .calling := by
        rw [hstage]
        exact SendStage.noConfusion
      simp only
      cases hread : readResponse lib response with
      | error e =>
          refine .move rfl rfl hbehind SendStage.noConfusion ?_
          simp only [hstage, SendStage.pending, outcome, hread]
      | ok sr =>
          simp only
          by_cases herror : sr.type = some .error
          · rw [if_pos herror]
            refine .move rfl rfl hbehind SendStage.noConfusion ?_
            simp only [hstage, SendStage.pending, outcome, hread, if_pos herror]
          · rw [if_neg herror]
            refine .postOne rfl rfl hbehind (hnext _ SendStage.noConfusion) ?_
            simp only [hstage, SendStage.pending, outcome, hread, if_neg herror, Task.message,
              Option.toList_some, List.flatMap_singleton, List.append_nil]
  | failed message =>
      have hbehind : w.stage ≠ .calling := by
        rw [hstage]
        exact SendStage.noConfusion
      refine .postOne rfl rfl hbehind (hnext _ SendStage.noConfusion) ?_
      simp only [hstage, SendStage.pending, Task.message, Option.toList_some,
        List.flatMap_singleton, List.append_nil]
  | accepted =>
      have hbehind : w.stage ≠ .calling := by
        rw [hstage]
        exact SendStage.noConfusion
      simp only
      by_cases hmode : w.fileMode = true
      · rw [if_pos hmode]
        refine .move rfl rfl hbehind SendStage.noConfusion ?_
        simp only [hstage, SendStage.pending]
      · rw [if_neg hmode]
        refine .move rfl rfl hbehind SendStage.noConfusion ?_
        simp only [hstage, SendStage.pending]
  | uriCleared =>
      have hbehind : w.stage ≠ .calling := by
        rw [hstage]
        exact SendStage.noConfusion
      refine .move rfl rfl hbehind SendStage.noConfusion ?_
      simp only [hstage, SendStage.pending]
  | nameCleared =>
      have hbehind : w.stage ≠ .calling := by
        rw [hstage]
        exact SendStage.noConfusion
      refine .postOne rfl rfl hbehind (hnext _ SendStage.noConfusion) ?_
      simp only [hstage, SendStage.pending, Task.message, Option.toList_none, Option.toList_some,
        List.flatMap_singleton, List.append_nil]
  | finishing =>
      have hbehind : w.stage ≠ .calling := by
        rw [hstage]
        exact SendStage.noConfusion
      refine .postOne rfl rfl hbehind (fun v hv => absurd hv.symm (Option.some_ne_none v)) ?_
      simp only [hstage, SendStage.pending, Task.message, Option.toList_none, List.flatMap_nil,
        List.append_nil]

/-- A thread with its call behind it waits for none. -/
theorem Worker.waiting_eq_nil {w : Worker P} (h : w.stage ≠ .calling) : w.waiting = [] :=
  if_neg h

/-- A click that gets through its checks adds the call to be made. -/
theorem inOrder_launch {lib : Libraries} {vm : ViewModel P} {ls : List (Label P)} {s : Screen P}
    (h : InOrder lib vm ls s) (henabled : s.enabled = true) {cfg : Config P} {fileMode : Bool}
    (hconsistent : Screen.Consistent (s.launch cfg fileMode)) :
    InOrder lib vm (ls ++ [.clicked cfg]) (s.launch cfg fileMode) := by
  have hnone := (h.consistent.idle henabled).1
  have hclicks := h.clicks
  have hshown := h.shown
  rw [hnone, List.flatMap_nil, List.append_nil] at hclicks hshown
  have hcalls : calls (ls ++ [.clicked cfg]) = calls ls := by
    rw [calls_append]
    exact List.append_nil _
  have hworkers : (s.launch cfg fileMode).workers = [⟨cfg, fileMode, .calling⟩] := by
    simp only [Screen.launch, hnone, List.nil_append]
  refine ⟨hconsistent, ?_, ?_, ?_, h.last, fun he => absurd he Bool.false_ne_true⟩
  · rw [hcalls]
    exact h.viewModel
  · rw [clicks_append, hcalls, hclicks, hworkers]
    rfl
  · have hnoToast : Client.shown (ls ++ [.clicked cfg]) = Client.shown ls := by
      rw [shown_append]
      exact List.append_nil _
    rw [hcalls, hshown, hnoToast, hworkers]
    simp only [List.flatMap_singleton, SendStage.pending, List.append_nil]
    rfl

/-- A posted task shows its toast, and the one that enables the button comes after
    every toast. -/
theorem inOrder_perform {lib : Libraries} {vm : ViewModel P} {ls : List (Label P)} {s : Screen P}
    (h : InOrder lib vm ls s) {t : Task} {rest : List Task} (hposted : s.posted = t :: rest)
    (hconsistent : Screen.Consistent ({ s with posted := rest }.perform t)) :
    InOrder lib vm (ls ++ [t.label]) ({ s with posted := rest }.perform t) := by
  have hshown := h.shown
  have hlast := h.last
  rw [hposted, List.pairwise_cons] at hlast
  have hcalls : calls (ls ++ [t.label]) = calls ls := by
    rw [calls_append]
    cases t <;> exact List.append_nil _
  have hclicks : Client.clicks (ls ++ [t.label]) = Client.clicks ls := by
    rw [clicks_append]
    cases t <;> exact List.append_nil _
  have htoast : Client.shown (ls ++ [t.label]) = Client.shown ls ++ t.message.toList := by
    rw [shown_append]
    cases t <;> rfl
  have hrest : ({ s with posted := rest }.perform t).posted = rest := by cases t <;> rfl
  have hworkers : ({ s with posted := rest }.perform t).workers = s.workers := by cases t <;> rfl
  refine ⟨hconsistent, ?_, ?_, ?_, ?_, fun he => ?_⟩
  · rw [hcalls, ← h.viewModel]
    cases t <;> rfl
  · rw [hclicks, hcalls, hworkers]
    exact h.clicks
  · rw [hcalls, hshown, htoast, hrest, hworkers, hposted]
    cases t <;> simp only [Task.message, List.filterMap_cons, Option.toList_some,
      Option.toList_none, List.append_assoc, List.append_nil, List.singleton_append]
  · rw [hrest]
    exact hlast.2
  · rw [hrest]
    cases t with
    | enable => exact List.filterMap_eq_nil_iff.mpr fun u hu => hlast.1 u hu rfl
    | _ =>
        -- The button was enabled before, so no toast was left.
        have hquiet := h.quiet he
        rw [hposted, List.filterMap_eq_nil_iff] at hquiet
        exact List.filterMap_eq_nil_iff.mpr fun u hu => hquiet u (List.mem_cons_of_mem _ hu)

/-- A send thread that steps hands its call and its toast on. -/
theorem inOrder_work {lib : Libraries} {vm : ViewModel P} {ls : List (Label P)} {s : Screen P}
    (h : InOrder lib vm ls s) {w : Worker P} (hworkers : s.workers = [w])
    (henabled : s.enabled = false) (hcount : s.posted.countP Task.isEnable = 0)
    {s' : Screen P} {w' : Option (Worker P)} {l : Label P} (hacts : Acts s w (s', w', l))
    (hreports : Reports lib s w (s', w', l))
    (hconsistent : Screen.Consistent { s' with workers := w'.toList }) :
    InOrder lib vm (ls ++ [l]) { s' with workers := w'.toList } := by
  have hviewModel := h.viewModel
  have hclicks := h.clicks
  have hshown := h.shown
  rw [hworkers, List.flatMap_singleton] at hclicks hshown
  have hdisabled : s'.enabled ≠ true := by
    have hsame : s'.enabled = s.enabled := hacts.enabled
    rw [hsame, henabled]
    exact Bool.false_ne_true
  cases hreports with
  | call c v hlabel hnext hcfg hstage hstage' hvm hposted hpending =>
      simp only at hlabel hnext hvm hposted
      subst hlabel
      subst hnext
      have hcalls : calls (ls ++ [.called c]) = calls ls ++ [c] := calls_append ls [.called c]
      have hnoClick : Client.clicks (ls ++ [.called c]) = Client.clicks ls := by
        rw [clicks_append]
        exact List.append_nil _
      have hnoToast : Client.shown (ls ++ [.called c]) = Client.shown ls := by
        rw [shown_append]
        exact List.append_nil _
      refine ⟨hconsistent, ?_, ?_, ?_, ?_, fun he => absurd he hdisabled⟩
      · rw [hcalls, play_snoc, ← hviewModel]
        exact hvm
      · rw [hnoClick, hcalls, hclicks, List.map_append]
        have hwaiting : w.waiting = [c.cfg] := by rw [Worker.waiting, if_pos hstage, hcfg]
        simp only [Option.toList_some, List.flatMap_singleton, Worker.waiting_eq_nil hstage',
          List.append_nil, List.map_cons, List.map_nil, hwaiting]
      · have hbefore : w.stage.pending lib = [] := by simp only [hstage, SendStage.pending]
        rw [hcalls, play_snoc, hshown, ← hviewModel, hnoToast, hbefore]
        simp only [Option.toList_some, List.flatMap_singleton, hpending, hposted, List.append_nil]
      · simp only [hposted]
        exact h.last
  | post more hlabel hstage hstage' hvm hposted hmore hpending =>
      simp only at hlabel hstage' hvm hposted hpending
      subst hlabel
      have hcalls : calls (ls ++ [.silent]) = calls ls := by
        rw [calls_append]
        exact List.append_nil _
      have hnoClick : Client.clicks (ls ++ [.silent]) = Client.clicks ls := by
        rw [clicks_append]
        exact List.append_nil _
      have hnoToast : Client.shown (ls ++ [.silent]) = Client.shown ls := by
        rw [shown_append]
        exact List.append_nil _
      have hwaiting : w'.toList.flatMap Worker.waiting = [] := by
        cases w' with
        | none => rfl
        | some v =>
            rw [Option.toList_some, List.flatMap_singleton]
            exact Worker.waiting_eq_nil (hstage' v rfl)
      refine ⟨hconsistent, ?_, ?_, ?_, ?_, fun he => absurd he hdisabled⟩
      · rw [hcalls, ← hviewModel]
        exact hvm
      · rw [hnoClick, hcalls, hclicks, Worker.waiting_eq_nil hstage]
        simp only [hwaiting]
      · rw [hcalls, hshown, hpending, hnoToast]
        simp only [hposted, List.filterMap_append, List.append_assoc]
      · -- With a thread there, no task in the queue enables the button.
        simp only [hposted]
        refine List.pairwise_append.mpr ⟨h.last, hmore, fun t ht u _ henable => ?_⟩
        exact absurd henable (List.countP_eq_zero.mp hcount t ht)

/-- Choosing where the data comes from touches nothing the order is about. -/
theorem checkSource_same (s : Screen P) (source : Source) :
    (s.checkSource source).viewModel = s.viewModel ∧
      (s.checkSource source).workers = s.workers ∧ (s.checkSource source).enabled = s.enabled ∧
      (s.checkSource source).posted = s.posted ++ [] := by
  unfold Screen.checkSource
  rw [List.append_nil]
  split
  · exact ⟨rfl, rfl, rfl, rfl⟩
  · exact ⟨rfl, rfl, rfl, rfl⟩

/-- A step of the user keeps the order. -/
theorem inOrder_userStep {lib : Libraries} {vm : ViewModel P} {ls : List (Label P)}
    {s s' : Screen P} {l : Label P} (h : InOrder lib vm ls s) (hstep : UserStep s l s') :
    InOrder lib vm (ls ++ [l]) s' := by
  have hnone : ∀ t ∈ ([] : List Task), t.message = none := fun t ht => absurd ht List.not_mem_nil
  have hnil : s.posted = s.posted ++ [] := (List.append_nil _).symm
  have hconsistent := userStep_consistent h.consistent hstep
  cases hstep with
  | edit field t hidle => exact h.unseen hconsistent rfl rfl rfl rfl rfl rfl hnil hnone
  | toggle version hidle =>
      cases version <;> exact h.unseen hconsistent rfl rfl rfl rfl rfl rfl hnil hnone
  | chooseSource source hidle =>
      rcases checkSource_same s source with ⟨hvm, hworkers, henabled, hposted⟩
      exact h.unseen hconsistent rfl rfl rfl hvm hworkers henabled hposted hnone
  | chooseEncryption yes hidle => exact h.unseen hconsistent rfl rfl rfl rfl rfl rfl hnil hnone
  | shareText sharedText hne hidle =>
      rcases checkSource_same s .text with ⟨hvm, hworkers, henabled, hposted⟩
      exact h.unseen hconsistent rfl rfl rfl hvm hworkers henabled hposted hnone
  | pick picked hidle => exact h.unseen hconsistent rfl rfl rfl rfl rfl rfl hnil hnone
  | clickNoFile => exact h.unseen hconsistent rfl rfl rfl rfl rfl rfl hnil hnone
  | clickNoText => exact h.unseen hconsistent rfl rfl rfl rfl rfl rfl hnil hnone
  | clickText hidle henabled _ _ => exact inOrder_launch h henabled hconsistent
  | clickFile hidle henabled _ huri =>
      exact h.unseen hconsistent rfl rfl rfl rfl rfl rfl hnil hnone

/-- A step of the threads keeps it. -/
theorem inOrder_threadStep {lib : Libraries} {resolver : P.ContentResolver} {vm : ViewModel P}
    {ls : List (Label P)} {s s' : Screen P} {l : Label P} (h : InOrder lib vm ls s)
    (hstep : ThreadStep lib resolver s l s') : InOrder lib vm (ls ++ [l]) s' := by
  have hnone : ∀ t ∈ ([] : List Task), t.message = none := fun t ht => absurd ht List.not_mem_nil
  have hnil : s.posted = s.posted ++ [] := (List.append_nil _).symm
  have hconsistent := threadStep_consistent h.consistent hstep
  cases hstep with
  | pickUri picked hset => exact h.unseen hconsistent rfl rfl rfl rfl rfl rfl hnil hnone
  | pickShown hset =>
      rcases checkSource_same { s with
          textFileName := s.fileName.getD (lit "selected file")
          handling := .idle } .file with ⟨hvm, hworkers, henabled, hposted⟩
      exact h.unseen hconsistent rfl rfl rfl hvm hworkers henabled hposted hnone
  | readUri cfg hchecked => exact h.unseen hconsistent rfl rfl rfl rfl rfl rfl hnil hnone
  | readName cfg hread =>
      exact inOrder_launch h (h.consistent.uriRead cfg hread).1 hconsistent
  | runTask t rest hidle hposted => exact inOrder_perform h hposted hconsistent
  | loadLast answer hloading hanswer =>
      exact h.unseen hconsistent rfl rfl rfl rfl rfl rfl hnil hnone
  | loadConnection last hloading =>
      cases hfilled : prefill s.viewModel.db (some last) with
      | none =>
          rw [hfilled] at hconsistent
          exact h.unseen hconsistent rfl rfl rfl rfl rfl rfl hnil hnone
      | some filled =>
          rw [hfilled] at hconsistent
          refine h.unseen hconsistent rfl rfl rfl rfl rfl rfl rfl fun t ht => ?_
          rw [List.mem_singleton.mp ht]
          rfl
  | work before w after hworkers env unknown =>
      rcases h.consistent.sole hworkers with ⟨rfl, rfl, henabled, hcount⟩
      simp only [List.nil_append, List.append_nil] at hconsistent ⊢
      exact inOrder_work h hworkers henabled hcount (w.act_spec lib env unknown s)
        (w.act_reports lib env unknown s) hconsistent

/-- One step keeps the order. -/
theorem inOrder_step {lib : Libraries} {resolver : P.ContentResolver} {vm : ViewModel P}
    {ls : List (Label P)} {s s' : Screen P} {l : Label P} (h : InOrder lib vm ls s)
    (hstep : Step lib resolver s l s') : InOrder lib vm (ls ++ [l]) s' := by
  cases hstep with
  | user hstep => exact inOrder_userStep h hstep
  | thread hstep => exact inOrder_threadStep h hstep

/-- A run keeps it. -/
theorem inOrder_run {lib : Libraries} {resolver : P.ContentResolver} {db : Database}
    {ls : List (Label P)} {s : Screen P} (h : Run (Step lib resolver) (.initial db) ls s) :
    InOrder lib ⟨.new, false, db⟩ ls s := by
  refine h.invariant (InOrder lib ⟨.new, false, db⟩) ?_
    (fun _ _ _ _ hinv hstep => inOrder_step hinv hstep)
  exact ⟨consistent_initial db, rfl, rfl, rfl, List.Pairwise.nil, fun _ => rfl⟩

/-- A server that answers `OK`. -/
def answeredText : JString := ServerResponse.toJson asciiLibraries ⟨some .message, some (lit "OK")⟩

def answeredEnv : SendEnv pinningPlatform :=
  { plainEnv with network := ⟨true, fun _ _ => some ⟨200, lit "OK", some answeredText⟩⟩ }

theorem answeredText_read : readResponse asciiLibraries (some answeredText)
    = .ok ⟨some .message, some (lit "OK")⟩ :=
  fromJson_toJson asciiLibraries OrgJson.plain_documented ⟨some .message, some (lit "OK")⟩

/-- A text typed in, and a click on Send. -/
def typedScreen : Screen pinningPlatform :=
  (Screen.initial createdDatabase).setText .sendingData (lit "hi")

def clickedScreen : Screen pinningPlatform := typedScreen.launch typedScreen.config false

theorem run_clickedScreen : Run (Step asciiLibraries ()) (.initial createdDatabase)
    [.silent, .clicked typedScreen.config] clickedScreen :=
  (Run.nil.snoc (Step.user (.edit .sendingData (lit "hi") rfl))).snoc
    (Step.user (.clickText rfl rfl rfl (by decide)))

theorem clickedScreen_answered :
    (clickedScreen.viewModel.sendData answeredEnv typedScreen.config).1
      = .ok (some answeredText) := by rfl

/-- A call that is answered. -/
theorem act_calling (lib : Libraries) {env : SendEnv P} (unknown : Option JString) {s : Screen P}
    {cfg : Config P} {fileMode : Bool} {response : Option JString}
    (h : (s.viewModel.sendData env cfg).1 = .ok response) :
    Worker.act lib env unknown s ⟨cfg, fileMode, .calling⟩ =
      ({ s with viewModel := (s.viewModel.sendData env cfg).2 },
        some ⟨cfg, fileMode, .replied response unknown⟩, .called ⟨env, cfg, unknown⟩) := by
  simp only [Worker.act, h]

/-- The send thread calls, reads the answer, shows it and ends. -/
theorem run_answered : ∃ (ls : List (Label pinningPlatform)) (s : Screen pinningPlatform),
    Run (ThreadStep asciiLibraries ()) clickedScreen ls s ∧ s.enabled = true ∧
      clicks ls = [] ∧ shown ls = [lit "Server response: OK"] := by
  have hstart : Run (ThreadStep asciiLibraries ()) clickedScreen [] clickedScreen := .nil
  have hcall := hstart.snoc
    (.work [] ⟨typedScreen.config, false, .calling⟩ [] rfl answeredEnv none)
  rw [act_calling asciiLibraries none clickedScreen_answered] at hcall
  have hread := hcall.snoc (.work [] _ [] rfl answeredEnv none)
  simp only [Worker.act, answeredText_read, reduceCtorEq, if_false, Option.some.injEq] at hread
  have haccepted := hread.snoc (.work [] _ [] rfl answeredEnv none)
  have hfinished := haccepted.snoc (.work [] _ [] rfl answeredEnv none)
  have htoast := hfinished.snoc (.runTask _ _ rfl rfl)
  exact ⟨_, _, htoast.snoc (.runTask _ _ rfl rfl), rfl, rfl, rfl⟩

/-- In every state a user can bring the screen to, whatever the threads do meanwhile:
    at most one send thread, the button enabled exactly when there is none and no task
    to enable it is waiting, at most one version checked, the view for the chosen
    source shown and the other hidden, every send with a configuration that it can
    work with, and no call left the view model sending. -/
theorem screen_consistent {lib : Libraries} {resolver : P.ContentResolver} {db : Database}
    {ls : List (Label P)} {s : Screen P} (h : Run (Step lib resolver) (.initial db) ls s) :
    s.workers.length ≤ 1 ∧
      (s.enabled = true ↔ s.workers = [] ∧ .enable ∉ s.posted) ∧
      ¬ (s.checkBoxIPv4 = true ∧ s.checkBoxIPv6 = true) ∧
      (s.sendingDataVisible = true ↔ s.source = .text) ∧
      (s.filePickerVisible = true ↔ s.source = .file) ∧
      (∀ w ∈ s.workers, WellFormed w.cfg) ∧ s.viewModel.getIsSending = false := by
  have hinv := consistent_of_run h
  have htoken := hinv.token
  refine ⟨by omega, ⟨fun henabled => ?_, fun ⟨hnone, hposted⟩ => ?_⟩, hinv.boxes, ?_, ?_,
    hinv.workers, hinv.sending⟩
  · rcases hinv.idle henabled with ⟨hnone, hcount⟩
    exact ⟨hnone, fun hmem => absurd rfl (List.countP_eq_zero.mp hcount _ hmem)⟩
  · have hcount : s.posted.countP Task.isEnable = 0 := by
      refine List.countP_eq_zero.mpr fun t ht henable => ?_
      cases t with
      | enable => exact hposted ht
      | _ => exact Bool.false_ne_true henable
    by_contra hdisabled
    rw [hnone, hcount, if_neg hdisabled, List.length_nil] at htoken
    exact Nat.zero_ne_one htoken
  · rw [hinv.visible.1, decide_eq_true_iff]
  · rw [hinv.visible.2, decide_eq_true_iff]
    cases s.source with
    | text => exact iff_of_false (fun h => h rfl) nofun
    | file => exact iff_of_true nofun rfl

/-- While the text is on its way the button is disabled. -/
theorem screen_consistent_clicked : clickedScreen.workers.length ≤ 1 ∧
    clickedScreen.enabled = false ∧ ∀ w ∈ clickedScreen.workers, WellFormed w.cfg := by
  rcases screen_consistent run_clickedScreen with ⟨hone, henabled, _, _, _, hworkers, _⟩
  refine ⟨hone, ?_, hworkers⟩
  rw [Bool.eq_false_iff, ne_eq, henabled]
  exact fun h => List.cons_ne_nil _ _ h.1

/-- In every run: the calls are made for the clicks in their order, at most the last
    one not yet, and the view model and the toasts are those of the same calls one
    after another. Once the button is enabled, nothing is left of either. -/
theorem screen_in_order {lib : Libraries} {resolver : P.ContentResolver} {db : Database}
    {ls : List (Label P)} {s : Screen P} (h : Run (Step lib resolver) (.initial db) ls s) :
    (calls ls).map Called.cfg <+: clicks ls ∧ (clicks ls).length ≤ (calls ls).length + 1 ∧
      s.viewModel = (play lib ⟨.new, false, db⟩ (calls ls)).1 ∧
      shown ls <+: (play lib ⟨.new, false, db⟩ (calls ls)).2 ∧
      (s.enabled = true → clicks ls = (calls ls).map Called.cfg ∧
        shown ls = (play lib ⟨.new, false, db⟩ (calls ls)).2) := by
  have hinv := inOrder_run h
  have hclicks := hinv.clicks
  have hshown := hinv.shown
  refine ⟨?_, ?_, hinv.viewModel, ?_, fun henabled => ?_⟩
  · rw [hclicks]
    exact List.prefix_append _ _
  · have hone : s.workers.length ≤ 1 := (screen_consistent h).1
    rw [hclicks, List.length_append, List.length_map]
    rcases hworkers : s.workers with _ | ⟨w, _ | ⟨w', rest⟩⟩
    · rw [List.flatMap_nil, List.length_nil]
      omega
    · rw [List.flatMap_singleton, Worker.waiting]
      split
      · rw [List.length_singleton]
      · rw [List.length_nil]
        omega
    · rw [hworkers, List.length_cons, List.length_cons] at hone
      omega
  · rw [hshown, List.append_assoc]
    exact List.prefix_append _ _
  · rw [(hinv.consistent.idle henabled).1, List.flatMap_nil, List.append_nil] at hclicks hshown
    rw [hinv.quiet henabled, List.append_nil] at hshown
    exact ⟨hclicks, hshown.symm⟩

/-- A text sent, and the answer shown. -/
theorem screen_in_order_answered : ∃ ls : List (Label pinningPlatform),
    clicks ls = [typedScreen.config] ∧ (calls ls).map Called.cfg = [typedScreen.config] ∧
      (play asciiLibraries ⟨.new, false, createdDatabase⟩ (calls ls)).2
        = [lit "Server response: OK"] := by
  rcases run_answered with ⟨ls, s, hrun, henabled, hclicks, hshown⟩
  have hall := run_clickedScreen.trans (hrun.imp fun _ _ _ => .thread)
  rcases (screen_in_order hall).2.2.2.2 henabled with ⟨hcalls, htoasts⟩
  rw [clicks_append, hclicks, List.append_nil] at hcalls
  rw [shown_append, hshown] at htoasts
  refine ⟨_, ?_, hcalls.symm, htoasts.symm⟩
  rw [clicks_append, hclicks, List.append_nil]
  rfl

end Client

end SendingSystem
