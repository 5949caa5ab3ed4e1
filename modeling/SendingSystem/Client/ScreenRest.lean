import SendingSystem.Client.ScreenRuns

/-!
# The screen comes to rest

Left alone, the threads come to an end: every step of theirs uses up one of a number
of steps the state has left, whatever order they run in, and as long as one is left
some thread can step. So the button never stays disabled, and no toast is lost.

What a call can fail with is what the form holds, what a library throws, or an answer
of the server without a text. The refusals of `SendData` and of the connector for a
send under way, a file that is missing and a pin that is missing are never met, and
no row is missed.

## Main definitions

* `Screen.left`: The steps the threads have left.

## Theorems

* `threadStep_left`, `exists_threadStep`: A step uses one up, and one can be made.
* `screen_settles`: A run of the threads ends, with the button enabled.
* `sendData_refused`: What a call that is well formed fails with.
* `screen_never_refused`: The same of every call of a run.
-/

namespace SendingSystem

namespace Client

open Utf16 Connector Labelled

variable {P : Platform}

/-- The steps of a thread to its end, and those of the tasks it posts. -/
def SendStage.left : SendStage → Nat
  | .calling => 9
  | .replied _ _ => 8
  | .accepted => 6
  | .uriCleared => 5
  | .nameCleared => 4
  | .failed _ => 4
  | .finishing => 2

def Worker.left (w : Worker P) : Nat := w.stage.left

/-- The steps of a callback to its end, and those of the thread it starts. -/
def Handling.left : Handling P → Nat
  | .idle => 0
  | .checked _ => 11
  | .uriRead _ => 10
  | .nameSet _ => 2
  | .uriSet => 1

/-- The steps of the look-up to its end, and that of the task it posts. -/
def Loading.left : Loading → Nat
  | .last => 3
  | .connection _ => 2
  | .done => 0

/-- The steps the send threads have left. -/
def workersLeft : List (Worker P) → Nat
  | [] => 0
  | w :: ws => w.left + workersLeft ws

theorem workersLeft_append (ws ws' : List (Worker P)) :
    workersLeft (ws ++ ws') = workersLeft ws + workersLeft ws' := by
  induction ws with
  | nil => exact (Nat.zero_add _).symm
  | cons w ws ih => rw [List.cons_append, workersLeft, workersLeft, ih, Nat.add_assoc]

/-- The steps the threads have left. -/
def Screen.left (s : Screen P) : Nat :=
  s.handling.left + s.posted.length + workersLeft s.workers + s.loading.left

/-- A step of a send thread uses one up. -/
theorem Worker.act_left (lib : Libraries) (env : SendEnv P) (unknown : Option JString)
    (s : Screen P) (w : Worker P) :
    (w.act lib env unknown s).1.loading = s.loading ∧
      (w.act lib env unknown s).1.posted.length +
        workersLeft (w.act lib env unknown s).2.1.toList < s.posted.length + w.left := by
  have hone : ∀ v : Worker P, workersLeft (some v).toList = v.stage.left := fun v => Nat.add_zero _
  have hnone : workersLeft (none : Option (Worker P)).toList = 0 := rfl
  unfold Worker.act
  rw [Worker.left]
  cases hstage : w.stage with
  | calling =>
      refine ⟨rfl, ?_⟩
      simp only [hone]
      cases (s.viewModel.sendData env w.cfg).1 <;> simp only [SendStage.left] <;> omega
  | replied response unknown =>
      simp only
      cases readResponse lib response with
      | error e =>
          refine ⟨rfl, ?_⟩
          simp only [hone, SendStage.left]
          omega
      | ok sr =>
          simp only
          -- The toast is posted when the answer is none of an error.
          split
          · refine ⟨rfl, ?_⟩
            simp only [hone, SendStage.left]
            omega
          · refine ⟨rfl, ?_⟩
            simp only [hone, SendStage.left, Screen.post, List.length_append, List.length_singleton]
            omega
  | failed message =>
      refine ⟨rfl, ?_⟩
      simp only [hone, SendStage.left, Screen.post, List.length_append, List.length_singleton]
      omega
  | accepted =>
      simp only
      split
      · refine ⟨rfl, ?_⟩
        simp only [hone, SendStage.left]
        omega
      · refine ⟨rfl, ?_⟩
        simp only [hone, SendStage.left]
        omega
  | uriCleared =>
      refine ⟨rfl, ?_⟩
      simp only [hone, SendStage.left]
      omega
  | nameCleared =>
      refine ⟨rfl, ?_⟩
      simp only [hone, SendStage.left, Screen.post, List.length_append, List.length_singleton]
      omega
  | finishing =>
      refine ⟨rfl, ?_⟩
      simp only [hnone, SendStage.left, Screen.post, List.length_append, List.length_singleton]
      omega

/-- Every step of the threads uses one up. -/
theorem threadStep_left {lib : Libraries} {resolver : P.ContentResolver} {s s' : Screen P}
    {l : Label P} (hstep : ThreadStep lib resolver s l s') : s'.left < s.left := by
  cases hstep with
  | pickUri picked h =>
      simp only [Screen.left, h, Handling.left]
      omega
  | pickShown h =>
      unfold Screen.checkSource
      split <;> simp only [Screen.left, h, Handling.left] <;> omega
  | readUri cfg h =>
      simp only [Screen.left, h, Handling.left]
      omega
  | readName cfg h =>
      simp only [Screen.left, Screen.launch, h, Handling.left, workersLeft_append, workersLeft,
        Worker.left, SendStage.left]
      omega
  | runTask t rest hidle hposted =>
      have hsame : ({ s with posted := rest }.perform t).left = { s with posted := rest }.left := by
        cases t <;> rfl
      rw [hsame]
      simp only [Screen.left, hposted, List.length_cons]
      omega
  | loadLast answer h hanswer =>
      cases answer <;> simp only [Screen.left, h, Loading.left] <;> omega
  | loadConnection last h =>
      cases prefill s.viewModel.db (some last) with
      | none =>
          simp only [Screen.left, h, Loading.left]
          omega
      | some filled =>
          simp only [Screen.left, Screen.post, h, Loading.left, List.length_append,
            List.length_singleton]
          omega
  | work before w after hworkers env unknown =>
      rcases w.act_left lib env unknown s with ⟨hloading, hless⟩
      have hhandling := (w.act_spec lib env unknown s).handling
      simp only [Screen.left, hworkers, hloading, hhandling, workersLeft_append, workersLeft]
      omega

/-- As long as a step is left, some thread can step. -/
theorem exists_threadStep (lib : Libraries) (resolver : P.ContentResolver) {s : Screen P}
    (h : s.left ≠ 0) : ∃ l s', ThreadStep lib resolver s l s' := by
  -- A callback goes on, then the tasks run, then the threads.
  cases hhandling : s.handling with
  | checked cfg => exact ⟨_, _, .readUri cfg hhandling⟩
  | uriRead cfg => exact ⟨_, _, .readName cfg hhandling⟩
  | nameSet picked => exact ⟨_, _, .pickUri picked hhandling⟩
  | uriSet => exact ⟨_, _, .pickShown hhandling⟩
  | idle =>
      cases hposted : s.posted with
      | cons t rest => exact ⟨_, _, .runTask t rest hhandling hposted⟩
      | nil =>
          cases hworkers : s.workers with
          | cons w rest =>
              exact ⟨_, _, .work [] w rest hworkers
                ⟨none, ⟨false, fun _ _ => none⟩, false, false, false, false, []⟩ none⟩
          | nil =>
              cases hloading : s.loading with
              | last =>
                  rcases exists_topRow timeKey (successes s.viewModel.db) with ⟨answer, hanswer⟩
                  exact ⟨_, _, .loadLast answer hloading hanswer⟩
              | connection last => exact ⟨_, _, .loadConnection last hloading⟩
              | done =>
                  rw [Screen.left, hhandling, hposted, hworkers, hloading] at h
                  exact absurd rfl h

/-- From every state a user can bring the screen to, the threads run for no more steps
    than the state has left, in any order, and where they stop the UI thread is idle
    with an empty queue, the button is enabled, a call was made for every click, and
    the toast of every call was shown. -/
theorem screen_settles {lib : Libraries} {resolver : P.ContentResolver} {db : Database}
    {ls ls' : List (Label P)} {s s' : Screen P} (h : Run (Step lib resolver) (.initial db) ls s)
    (h' : Run (ThreadStep lib resolver) s ls' s') :
    ls'.length ≤ s.left ∧
      ((∀ l s'', ¬ ThreadStep lib resolver s' l s'') →
        s'.handling = .idle ∧ s'.posted = [] ∧ s'.enabled = true ∧
        clicks (ls ++ ls') = (calls (ls ++ ls')).map Called.cfg ∧
        shown (ls ++ ls') = (play lib ⟨.new, false, db⟩ (calls (ls ++ ls'))).2) := by
  have hlength := h'.length_le Screen.left fun _ _ _ => threadStep_left
  have hall := h.trans (h'.imp fun _ _ _ => .thread)
  refine ⟨by omega, fun hstop => ?_⟩
  have hleft : s'.left = 0 := by
    by_contra hne
    rcases exists_threadStep lib resolver hne with ⟨l, s'', hstep⟩
    exact hstop l s'' hstep
  have hposted : s'.posted = [] := by
    refine List.eq_nil_of_length_eq_zero ?_
    rw [Screen.left] at hleft
    omega
  have hidle : s'.handling = .idle := by
    have hzero : s'.handling.left = 0 := by
      rw [Screen.left] at hleft
      omega
    cases hhandling : s'.handling with
    | idle => rfl
    | _ =>
        rw [hhandling] at hzero
        exact absurd hzero (by simp only [Handling.left]; omega)
  have hworkers : s'.workers = [] := by
    cases hworkers : s'.workers with
    | nil => rfl
    | cons w rest =>
        rw [Screen.left, hworkers, workersLeft] at hleft
        have hpos : 0 < w.left := by
          rw [Worker.left]
          cases w.stage <;> exact Nat.zero_lt_succ _
        omega
  have henabled : s'.enabled = true := by
    refine (screen_consistent hall).2.1.mpr ⟨hworkers, ?_⟩
    rw [hposted]
    exact List.not_mem_nil
  exact ⟨hidle, hposted, henabled, (screen_in_order hall).2.2.2.2 henabled⟩

/-- A text sent and answered: the threads had no more steps than the click left them. -/
theorem screen_settles_answered : ∃ ls : List (Label pinningPlatform),
    shown ls = [lit "Server response: OK"] ∧ ls.length ≤ 12 := by
  rcases run_answered with ⟨ls, s, hrun, _, _, hshown⟩
  exact ⟨ls, hshown, (screen_settles run_clickedScreen hrun).1⟩

/-- Every failure on the way to the row of the server is one of the database, and with
    an address the row is there. -/
theorem ensureConnection_refused (env : SendEnv P) (db : Database) {cfg : Config P}
    (serverPort : Int) (hip : cfg.serverIp.isSome = true) :
    (ensureConnection env db cfg serverPort).1 = .error .thrown ∨
      ∃ conn, (ensureConnection env db cfg serverPort).1 = .ok (some conn) := by
  unfold ensureConnection
  simp only
  split
  · exact Or.inl rfl
  · split
    · next conn _ => exact Or.inr ⟨conn, rfl⟩
    · split
      · exact Or.inl rfl
      · next db' hinsert =>
          split
          · exact Or.inl rfl
          -- The row that was inserted has the columns that are looked for.
          · split at hinsert
            · simp only [reduceCtorEq] at hinsert
            · rcases connections_insertConnection hinsert with ⟨id, hrows⟩
              have hfound : (findConnection db' cfg.serverIp serverPort cfg.isSSLEncryptEnabled
                  ConnectionRole.server.index).isSome = true := by
                refine findConnection_isSome (r := (id, _)) hip ?_ rfl
                rw [hrows]
                exact List.mem_append_right _ List.mem_cons_self
              rcases Option.isSome_iff_exists.mp hfound with ⟨conn, hconn⟩
              exact Or.inr ⟨conn, by rw [hconn]⟩

/-- Without a pin to set, a client is built unless the library throws. -/
theorem client_refused (sslContext : Bool) {c : Connector P} (htrust : c.trustMode = .trustAll)
    {e : Failure} (h : (c.client sslContext).1 = .error e) : e = .thrown := by
  have hbuild : ∀ e, c.build sslContext = .error e → e = .thrown := by
    intro e he
    unfold build at he
    rw [htrust] at he
    split at he
    · simp only at he
      split at he
      · simp only [reduceCtorEq] at he
      · exact (Except.error.inj he).symm
    · simp only [reduceCtorEq] at he
  unfold client at h
  cases hcached : c.cachedClient with
  | none =>
      simp only [hcached] at h
      cases hb : c.build sslContext with
      | error e' =>
          simp only [hb, Except.error.injEq] at h
          rw [← h]
          exact hbuild e' hb
      | ok client => simp only [hb, reduceCtorEq] at h
  | some cached =>
      simp only [hcached] at h
      split at h
      · simp only [reduceCtorEq] at h
      · cases hb : c.build sslContext with
        | error e' =>
            simp only [hb, Except.error.injEq] at h
            rw [← h]
            exact hbuild e' hb
        | ok client => simp only [hb, reduceCtorEq] at h

/-- A request fails as the library throws, or as the answer is a failure without text. -/
theorem execute_refused {net : Network P} {c : Connector P} {req : Request P}
    (htrust : c.trustMode = .trustAll) {e : Failure} (h : (execute net c req).1 = .error e) :
    e = .thrown ∨ ∃ resp : HttpReply, resp.isSuccessful = false ∧ readReply resp = .error e := by
  unfold execute at h
  rcases hclient : c.client net.sslContext with ⟨_ | client, c'⟩
  · rw [hclient] at h
    refine Or.inl (client_refused net.sslContext htrust ?_)
    rw [hclient]
    simp only at h
    exact congrArg Except.error (Except.error.inj h)
  · rw [hclient] at h
    simp only at h
    cases hcall : net.call client req with
    | none =>
        simp only [hcall, Except.error.injEq] at h
        exact Or.inl h.symm
    | some resp =>
        simp only [hcall] at h
        rcases readReply_cases resp with ⟨hok, _⟩ | ⟨message, _, hfailed, _⟩
        · rw [hok] at h
          exact absurd h nofun
        · exact Or.inr ⟨resp, hfailed, h⟩

/-- The request of a configuration that is well formed is built, unless the address is
    no URL. -/
theorem request_refused {cfg : Config P} (hcfg : WellFormed cfg) {serverPort : Int} {e : Failure}
    (h : cfg.request serverPort = .error e) : e = .thrown := by
  unfold Config.request at h
  cases htype : cfg.sendingType with
  | rawData =>
      rw [htype] at h
      simp only at h
      split at h
      · simp only [reduceCtorEq] at h
      · exact (Except.error.inj h).symm
  | file =>
      rcases hcfg.file htype with ⟨huri, hcr⟩
      rcases Option.ne_none_iff_exists'.mp huri with ⟨uri, huri⟩
      rcases Option.ne_none_iff_exists'.mp hcr with ⟨cr, hcr⟩
      have hsource : cfg.source = some (.uri (some cr) (some uri)) := by
        rw [Config.source, huri, hcr]
      rw [htype] at h
      simp only [hsource] at h
      split at h
      · simp only [reduceCtorEq] at h
      · exact (Except.error.inj h).symm

/-- Handing a configuration over hands its trust mode over. -/
theorem configured_trustMode (c : Connector P) (cfg : Config P) (serverPort : Int) :
    (configured c cfg serverPort).trustMode = cfg.trustMode := by
  unfold configured chooseFile
  split
  · rfl
  · split <;> rfl

/-- What a call that is well formed fails with, on a view model that is not sending. -/
theorem sendData_refused {vm : ViewModel P} (hsending : vm.getIsSending = false) {env : SendEnv P}
    {cfg : Config P} (hcfg : WellFormed cfg) {e : Failure}
    (h : (vm.sendData env cfg).1 = .error e) :
    e = .thrown ∨ validate env cfg = .error e ∨
      ∃ resp : HttpReply, resp.isSuccessful = false ∧ readReply resp = .error e := by
  cases hvalid : validate env cfg with
  | error e' =>
      rw [sendData_rejected hsending hvalid] at h
      rw [Except.error.inj h]
      exact Or.inr (Or.inl rfl)
  | ok serverPort =>
      rcases hensure : ensureConnection env vm.db cfg serverPort with ⟨found, db⟩
      have hfound := ensureConnection_refused env vm.db serverPort hcfg.address
      rw [hensure] at hfound
      rcases hfound with hthrown | ⟨conn, hconn⟩
      · simp only at hthrown
        rw [hthrown] at hensure
        simp only [ViewModel.sendData, hsending, Bool.false_eq_true, if_false, hvalid, hensure,
          Except.error.injEq] at h
        exact Or.inl h.symm
      · simp only at hconn
        rw [hconn] at hensure
        rw [sendData_found hsending hvalid hensure] at h
        split at h
        · exact Or.inl (Except.error.inj h).symm
        · -- The failure is that of building or of executing the request.
          simp only [Connector.sendData_request, configured_request] at h
          cases hrequest : cfg.request serverPort with
          | error e' =>
              simp only [hrequest, Except.bind, Except.error.injEq] at h
              rw [← h]
              exact Or.inl (request_refused hcfg hrequest)
          | ok req =>
              simp only [hrequest, Except.bind] at h
              have htrust : ({ configured vm.connector cfg serverPort with
                  isSending := true } : Connector P).trustMode = .trustAll :=
                (configured_trustMode _ _ _).trans hcfg.trust
              cases hsent : (execute env.network { configured vm.connector cfg serverPort with
                  isSending := true } req).1 with
              | error e' =>
                  simp only [hsent, Except.map, Except.error.injEq] at h
                  rw [h] at hsent
                  rcases execute_refused htrust hsent with hthrown | hreply
                  · exact Or.inl hthrown
                  · exact Or.inr (Or.inr hreply)
              | ok response => simp only [hsent, Except.map, reduceCtorEq] at h

/-- In every run, a call of `SendData` that fails does so for what the form held (its
    port or its address), for what a library or the network throws, or for an answer
    of the server with an error status and no text: never because data is being sent
    right now, for a missing file, pin or row. -/
theorem screen_never_refused {lib : Libraries} {resolver : P.ContentResolver} {db : Database}
    {ls : List (Label P)} {s s' : Screen P} (h : Run (Step lib resolver) (.initial db) ls s)
    {c : Called P} (hcall : Step lib resolver s (.called c) s') {e : Failure}
    (he : (s.viewModel.sendData c.env c.cfg).1 = .error e) :
    e = .thrown ∨ validate c.env c.cfg = .error e ∨
      ∃ resp : HttpReply, resp.isSuccessful = false ∧ readReply resp = .error e := by
  have hinv := inOrder_run h
  have hafter := inOrder_step hinv hcall
  -- The call is that of the only click without one, so its thread is there.
  have hclicks := hafter.clicks
  rw [clicks_append, calls_append] at hclicks
  have hcfg : WellFormed c.cfg := by
    have hnow : clicks ls = (calls ls).map Called.cfg ++ s.workers.flatMap Worker.waiting :=
      hinv.clicks
    have hcalled : s.workers.flatMap Worker.waiting
        = c.cfg :: s'.workers.flatMap Worker.waiting := by
      rw [hnow, show clicks [.called c] = [] from rfl, show calls [.called c] = [c] from rfl,
        List.map_append, List.append_nil, List.append_assoc, List.append_cancel_left_eq] at hclicks
      exact hclicks
    have hmem : c.cfg ∈ s.workers.flatMap Worker.waiting := by
      rw [hcalled]
      exact List.mem_cons_self
    rcases List.mem_flatMap.mp hmem with ⟨w, hw, hwait⟩
    rw [Worker.waiting] at hwait
    split at hwait
    · rw [List.mem_singleton.mp hwait]
      exact hinv.consistent.workers w hw
    · exact absurd hwait List.not_mem_nil
  exact sendData_refused hinv.consistent.sending hcfg he

/-- A text sent to an address of the other version. -/
theorem screen_never_refused_address :
    let env := { plainEnv with address := some .ipv6 }
    ∃ e, (clickedScreen.viewModel.sendData env typedScreen.config).1 = .error e ∧
      (e = .thrown ∨ validate env typedScreen.config = .error e ∨
        ∃ resp : HttpReply, resp.isSuccessful = false ∧ readReply resp = .error e) := by
  intro env
  have hfails : (clickedScreen.viewModel.sendData env typedScreen.config).1
      = .error (.exception (lit "Wrong IP-address: 192.168.1.2")) := by rfl
  refine ⟨_, hfails, ?_⟩
  exact screen_never_refused (c := ⟨env, typedScreen.config, none⟩) run_clickedScreen
    (.thread (.work [] ⟨typedScreen.config, false, .calling⟩ [] rfl env none)) hfails

end Client

end SendingSystem
