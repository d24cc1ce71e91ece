import TemplateBinding.Conversion.Session
import TemplateBinding.Proofs.Execution

/-!
# Runs of a session

A session is called again and again, and each call meets whatever state, settings and root there are
by then.  The stage always tells the truth about the stored report, at most one execution is
accepted, and nothing but that execution touches the state.
-/
namespace TemplateBinding.Conversion
set_option autoImplicit false

inductive Action where
  | preview
  | cancel
  | execute
  deriving Repr, DecidableEq

def Action.stage : Action → Stage
  | preview => .previewed
  | cancel => .cancelled
  | execute => .executed

structure Call (σ : Type) where
  action : Action
  config : Config
  root : NodeId
  state : σ

/-- A call of a session with its answer, and the session and the state that it leaves.  Only a
cancellation is accepted without a report. -/
structure Exchange (σ : Type) where
  call : Call σ
  before : Session
  answer : Except Error (Option Report)
  after : Session
  state : σ

variable {σ : Type}

namespace Exchange

def isAccepted (exchange : Exchange σ) : Bool := exchange.answer.isOk

def isExecution (exchange : Exchange σ) : Bool :=
  exchange.isAccepted && exchange.call.action == .execute

/-- A preview that found nothing in the way of the conversion. -/
def IsGo (exchange : Exchange σ) : Prop :=
  exchange.call.action = .preview ∧
    ∃ report, exchange.answer = .ok (some report) ∧ report.canExecute = true

end Exchange

/-- What was accepted last is a preview that found nothing in the way. -/
def EndsWithGo (history : List (Exchange σ)) : Prop :=
  ∃ exchange, (history.filter Exchange.isAccepted).getLast? = some exchange ∧ exchange.IsGo

theorem endsWithGo_append {exchange : Exchange σ} {seen : List (Exchange σ)}
    (hAccepted : exchange.isAccepted = true) (hGo : exchange.IsGo) :
    EndsWithGo (seen ++ [exchange]) := by
  refine ⟨exchange, ?_, hGo⟩
  rw [List.filter_append, List.filter_cons_of_pos hAccepted, List.filter_nil, List.getLast?_concat]

variable [Workspace σ]

def Session.exchange (session : Session) (call : Call σ) : Exchange σ :=
  match call.action with
  | .preview =>
    match session.preview call.config call.state call.root with
    | .ok (report, after) => ⟨call, session, .ok (some report), after, call.state⟩
    | .error error => ⟨call, session, .error error, session, call.state⟩
  | .cancel =>
    match session.cancel with
    | .ok after => ⟨call, session, .ok none, after, call.state⟩
    | .error error => ⟨call, session, .error error, session, call.state⟩
  | .execute =>
    match session.execute call.config call.state call.root with
    | .ok (report, after, state) => ⟨call, session, .ok (some report), after, state⟩
    | .error error => ⟨call, session, .error error, session, call.state⟩

/-- Everything that is said between a session and its callers. -/
def Session.history (session : Session) : List (Call σ) → List (Exchange σ)
  | [] => []
  | call :: calls => session.exchange call :: (session.exchange call).after.history calls

/-! ## Stages and reports -/

/-- What a stage says about the report of the session. -/
def Stage.Fits : Stage → Option Report → Prop
  | .requested, report => report = none
  | .previewed, report | .cancelled, report =>
      ∃ plan ∈ report, plan.canExecute = true ∧ plan.success = false
  | .rejected, report => ∃ plan ∈ report, plan.canExecute = false ∧ plan.success = false
  | .executed, report => ∃ done ∈ report, done.canExecute = true ∧ done.success = true
  | .executionFailed, report => ∃ failed ∈ report,
      failed.canExecute = true ∧ failed.success = false ∧ failed.errorMessage.isSome = true

def stageOfPlan (plan : Report) : Stage := if plan.canExecute then .previewed else .rejected

def stageOfExecution (report : Report) : Stage :=
  if !report.canExecute then .rejected
  else if report.success then .executed
  else .executionFailed

variable {config : Config} {state : σ} {root node : NodeId} {target : Kind}

theorem fits_stageOfPlan :
    (stageOfPlan (previewIn config state root node target)).Fits
      (some (previewIn config state root node target)) := by
  have hSuccess := success_previewIn config state root node target
  rw [stageOfPlan]
  split
  · rename_i hGo
    exact ⟨_, rfl, hGo, hSuccess⟩
  · rename_i hStop
    exact ⟨_, rfl, by simpa using hStop, hSuccess⟩

/-- A failure is never silent. -/
theorem fits_stageOfExecution :
    (stageOfExecution (execute config state root node target).1).Fits
      (some (execute config state root node target).1) := by
  rw [execute]
  dsimp only
  split
  · rename_i hGo
    split
    · simp [stageOfExecution, Stage.Fits, hGo]
    · simp [stageOfExecution, Stage.Fits, hGo]
  · rename_i hStop
    have hSuccess := success_previewIn config state root node target
    simp [stageOfExecution, Stage.Fits, hStop, hSuccess]

theorem isTerminal_stageOfExecution (report : Report) :
    (stageOfExecution report).isTerminal = true := by
  rw [stageOfExecution]
  split
  · rfl
  · split <;> rfl

/-! ## One call -/

inductive Takes (session : Session) (call : Call σ) : Exchange σ → Prop where
  | planned (action : call.action = .preview)
      (early : session.stage = .requested ∨ session.stage = .previewed) {plan : Report}
      (report : previewIn call.config call.state call.root session.node session.target = plan) :
      Takes session call
        ⟨call, session, .ok (some plan),
          { session with stage := stageOfPlan plan, report := some plan }, call.state⟩
  | cancelled (action : call.action = .cancel) (previewed : session.stage = .previewed) :
      Takes session call
        ⟨call, session, .ok none, { session with stage := .cancelled }, call.state⟩
  | executed (action : call.action = .execute) (previewed : session.stage = .previewed)
      {report : Report} {state : σ}
      (result : execute call.config call.state call.root session.node session.target =
        (report, state)) :
      Takes session call
        ⟨call, session, .ok (some report),
          { session with stage := stageOfExecution report, report := some report }, state⟩
  | refused : Takes session call
      ⟨call, session, .error (session.refuse call.action.stage), session, call.state⟩

theorem takes_exchange (session : Session) (call : Call σ) :
    Takes session call (session.exchange call) := by
  have hRefused : Takes session call
      ⟨call, session, .error (session.refuse call.action.stage), session, call.state⟩ := .refused
  rw [Session.exchange]
  cases hAction : call.action with
  | preview =>
    rw [hAction] at hRefused
    dsimp only
    rw [Session.preview]
    by_cases hEarly : session.stage = .requested ∨ session.stage = .previewed
    · rw [if_pos hEarly]
      exact .planned hAction hEarly rfl
    · rw [if_neg hEarly]
      exact hRefused
  | cancel =>
    rw [hAction] at hRefused
    dsimp only
    rw [Session.cancel]
    by_cases hPreviewed : session.stage = .previewed
    · rw [if_pos hPreviewed]
      exact .cancelled hAction hPreviewed
    · rw [if_neg hPreviewed]
      exact hRefused
  | execute =>
    rw [hAction] at hRefused
    dsimp only
    rw [Session.execute]
    by_cases hPreviewed : session.stage = .previewed
    · rw [if_pos hPreviewed]
      exact .executed hAction hPreviewed rfl
    · rw [if_neg hPreviewed]
      exact hRefused

/-- What holds of a single call of a session that converts a node. -/
structure Exchange.Safe (node : NodeId) (target : Kind) (exchange : Exchange σ) : Prop where
  fitsBefore : exchange.before.stage.Fits exchange.before.report
  fitsAfter : exchange.after.stage.Fits exchange.after.report
  planned : exchange.call.action = .preview → exchange.isAccepted = true →
    let plan := previewIn exchange.call.config exchange.call.state exchange.call.root node target
    exchange.answer = .ok (some plan) ∧ exchange.after.report = some plan
  /-- An accepted execution is the execution of the conversion on the state of that moment. -/
  executed : exchange.isExecution = true →
    let result := execute exchange.call.config exchange.call.state exchange.call.root node target
    exchange.answer = .ok (some result.1) ∧ exchange.after.report = some result.1 ∧
      exchange.state = result.2
  untouched : exchange.isExecution = false → exchange.state = exchange.call.state
  refused : ∀ error, exchange.answer = .error error →
    error = .invalidTransition target exchange.before.stage exchange.call.action.stage ∧
      exchange.after = exchange.before
  closed : exchange.before.stage.isTerminal = true → exchange.isAccepted = false

variable {session : Session} {call : Call σ} {exchange : Exchange σ}

theorem Takes.frame (h : Takes session call exchange) :
    (exchange.call = call ∧ exchange.before = session) ∧
      exchange.after.node = session.node ∧ exchange.after.target = session.target := by
  cases h <;> exact ⟨⟨rfl, rfl⟩, rfl, rfl⟩

theorem Takes.of_isExecution (h : Takes session call exchange)
    (hExecution : exchange.isExecution = true) :
    session.stage = .previewed ∧ exchange.after.stage.isTerminal = true := by
  cases h with
  | planned action => simp [Exchange.isExecution, action] at hExecution
  | cancelled _ previewed => exact ⟨previewed, rfl⟩
  | executed _ previewed => exact ⟨previewed, isTerminal_stageOfExecution _⟩
  | refused => cases hExecution

theorem Takes.of_isTerminal (h : Takes session call exchange)
    (hTerminal : session.stage.isTerminal = true) :
    exchange.isAccepted = false ∧ exchange.after = session := by
  cases h with
  | planned _ early =>
    rcases early with hStage | hStage
    all_goals
      rw [hStage] at hTerminal
      cases hTerminal
  | cancelled _ previewed | executed _ previewed =>
    rw [previewed] at hTerminal
    cases hTerminal
  | refused => exact ⟨rfl, rfl⟩

theorem Takes.safe (h : Takes session call exchange)
    (hFits : session.stage.Fits session.report) :
    exchange.Safe session.node session.target := by
  have hClosed (hTerminal : exchange.before.stage.isTerminal = true) :
      exchange.isAccepted = false := (h.of_isTerminal (h.frame.1.2 ▸ hTerminal)).1
  cases h with
  | planned action early report =>
    subst report
    exact
      { fitsBefore := hFits
        fitsAfter := fits_stageOfPlan
        planned := fun _ _ => ⟨rfl, rfl⟩
        executed := by simp [Exchange.isExecution, action]
        untouched := fun _ => rfl
        refused := by simp
        closed := hClosed }
  | cancelled action previewed =>
    rw [previewed] at hFits
    exact
      { fitsBefore := by rwa [previewed]
        fitsAfter := hFits
        planned := by simp [action]
        executed := by simp [Exchange.isExecution, action]
        untouched := fun _ => rfl
        refused := by simp
        closed := hClosed }
  | executed action previewed result =>
    obtain ⟨rfl, rfl⟩ := Prod.mk.inj result
    have hExecution (exchange : Exchange σ) (hAction : exchange.call.action = .execute) :
        exchange.isExecution = exchange.isAccepted := by simp [Exchange.isExecution, hAction]
    exact
      { fitsBefore := hFits
        fitsAfter := fits_stageOfExecution
        planned := by simp [action]
        executed := fun _ => ⟨rfl, rfl, rfl⟩
        untouched := fun hRefused => by rw [hExecution _ action] at hRefused; cases hRefused
        refused := by simp
        closed := hClosed }
  | refused =>
    exact
      { fitsBefore := hFits
        fitsAfter := hFits
        planned := fun _ hAccepted => by cases hAccepted
        executed := fun hExecution => by cases hExecution
        untouched := fun _ => rfl
        refused := fun _ hError => ⟨(Except.error.inj hError).symm, rfl⟩
        closed := hClosed }

/-- A session is in the stage of a preview only as long as such a preview was the last thing that it
accepted. -/
theorem Takes.endsWithGo (h : Takes session call exchange) {seen : List (Exchange σ)}
    (hSeen : session.stage = .previewed → EndsWithGo seen)
    (hPreviewed : exchange.after.stage = .previewed) : EndsWithGo (seen ++ [exchange]) := by
  cases h with
  | @planned action early plan report =>
    have hStage : stageOfPlan plan = .previewed := hPreviewed
    refine endsWithGo_append rfl ⟨action, plan, rfl, ?_⟩
    rw [stageOfPlan] at hStage
    split at hStage
    · assumption
    · cases hStage
  | cancelled => cases hPreviewed
  | @executed action previewed report state result =>
    have hStage : stageOfExecution report = .previewed := hPreviewed
    have hTerminal := isTerminal_stageOfExecution report
    rw [hStage] at hTerminal
    cases hTerminal
  | refused =>
    obtain ⟨go, hLast, hGo⟩ := hSeen hPreviewed
    refine ⟨go, ?_, hGo⟩
    rw [List.filter_append, List.filter_cons_of_neg (by simp [Exchange.isAccepted, Except.isOk,
      Except.toBool]), List.filter_nil, List.append_nil, hLast]

/-! ## Runs -/

theorem map_call_history (session : Session) (calls : List (Call σ)) :
    (session.history calls).map Exchange.call = calls := by
  induction calls generalizing session with
  | nil => rfl
  | cons call calls ih =>
    rw [Session.history, List.map_cons, ih, (takes_exchange session call).frame.1.1]

theorem safe_history {calls : List (Call σ)} (hFits : session.stage.Fits session.report) :
    ∀ exchange ∈ session.history calls, exchange.Safe session.node session.target := by
  induction calls generalizing session with
  | nil => simp [Session.history]
  | cons call calls ih =>
    have hTakes := takes_exchange session call
    have hFirst := hTakes.safe hFits
    rw [Session.history, List.forall_mem_cons]
    refine ⟨hFirst, ?_⟩
    rw [← hTakes.frame.2.1, ← hTakes.frame.2.2]
    exact ih hFirst.fitsAfter

theorem countP_isExecution_of_isTerminal {calls : List (Call σ)}
    (hTerminal : session.stage.isTerminal = true) :
    (session.history calls).countP Exchange.isExecution = 0 := by
  induction calls with
  | nil => rfl
  | cons call calls ih =>
    obtain ⟨hRefused, hSame⟩ := (takes_exchange session call).of_isTerminal hTerminal
    have hNone : ¬(session.exchange call).isExecution = true := by
      simp [Exchange.isExecution, hRefused]
    rw [Session.history, List.countP_cons_of_neg hNone, hSame, ih]

theorem countP_isExecution_le_one (session : Session) (calls : List (Call σ)) :
    (session.history calls).countP Exchange.isExecution ≤ 1 := by
  induction calls generalizing session with
  | nil => exact Nat.zero_le 1
  | cons call calls ih =>
    rw [Session.history, List.countP_cons]
    split
    · rename_i hExecution
      have hTerminal := ((takes_exchange session call).of_isExecution hExecution).2
      have hNone : ((session.exchange call).after.history calls).countP Exchange.isExecution = 0 :=
        countP_isExecution_of_isTerminal hTerminal
      omega
    · exact ih _

theorem endsWithGo_of_isExecution {calls : List (Call σ)}
    {seen earlier later : List (Exchange σ)} (hSeen : session.stage = .previewed → EndsWithGo seen)
    (hSplit : session.history calls = earlier ++ exchange :: later)
    (hExecution : exchange.isExecution = true) : EndsWithGo (seen ++ earlier) := by
  -- What was seen grows by one exchange with every call.
  induction calls generalizing session seen earlier with
  | nil =>
    rw [Session.history] at hSplit
    exact absurd hSplit.symm (by simp)
  | cons call calls ih =>
    have hTakes := takes_exchange session call
    cases earlier with
    | nil =>
      obtain ⟨hFirst, -⟩ := List.cons.inj hSplit
      rw [← hFirst] at hExecution
      rw [List.append_nil]
      exact hSeen (hTakes.of_isExecution hExecution).1
    | cons first earlier =>
      obtain ⟨hFirst, hRest⟩ := List.cons.inj hSplit
      have hNext := ih (hTakes.endsWithGo hSeen) hRest
      rwa [List.append_assoc, hFirst] at hNext

/-- Whatever its callers do, a session takes at most one execution, right after a preview that found
nothing in the way, and nothing else that it does touches the state. -/
theorem history_safe (node : NodeId) (target : Kind) (calls : List (Call σ)) :
    let history := ({ node, target } : Session).history calls
    history.map Exchange.call = calls ∧
    (∀ exchange ∈ history, exchange.Safe node target) ∧
    history.countP Exchange.isExecution ≤ 1 ∧
    ∀ earlier exchange later, history = earlier ++ exchange :: later →
      exchange.isExecution = true → EndsWithGo earlier := by
  intro history
  refine ⟨map_call_history _ calls, safe_history rfl, countP_isExecution_le_one _ calls, ?_⟩
  intro earlier exchange later hSplit hExecution
  have hGo : EndsWithGo ([] ++ earlier) :=
    endsWithGo_of_isExecution (fun hStage => by cases hStage) hSplit hExecution
  exact hGo

/-- A file gets in the way after the preview, so the execution is taken but does nothing. -/
example :
    let hierarchy : Hierarchy := ⟨⟨{ label := "Hud" },
      .cons { label := "Slot", binding := some ⟨.member, "Slot", "Image", none⟩ } .nil .nil⟩, 0⟩
    let blocked : MemoryWorkspace := ⟨hierarchy, { paths := ["Assets/Scripts/UI/Hud/Slot.cs"] }⟩
    let history := ({ node := 1, target := .element } : Session).history
      [⟨.execute, {}, 0, blocked⟩, ⟨.preview, {}, 0, ⟨hierarchy, {}⟩⟩, ⟨.execute, {}, 0, blocked⟩,
        ⟨.cancel, {}, 0, blocked⟩]
    history.map (fun exchange => (exchange.isAccepted, exchange.after.stage)) =
        [(false, .requested), (true, .previewed), (true, .rejected), (false, .rejected)] ∧
      history.map Exchange.state = [blocked, ⟨hierarchy, {}⟩, blocked, blocked] := by
  decide +kernel

end TemplateBinding.Conversion
