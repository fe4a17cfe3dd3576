import InlineRepl.Proofs.Command.Settling

/-!
# How a run ends

Once the wait of an evaluation is over, the run is aborted with the first popup, or it has timed
out, or it is concluded: everything that nothing later has replaced is reported, as far as files can
be written. `Ends` names these ways. None of them is taken where the limit lies beyond what the
clock can count: the run does not survive the attempt to look at it.

`along` is a run along any moments, in any order. A run is one along the moments of its story.

Results:
* `mem_results_iff`, `mem_watches_iff`: what a report has.
* `conclude_popup`, `conclude_told`: how a run ends once its wait has settled.
* `run_eq_along`: a run is one along the moments of its story.
* `ends_sent`, `ends_refused`: the ways in which a run ends, by what it has met.
* `Ends.aborted_iff`, `Ends.silent`, `Ends.timedOut_iff`, `Ends.eq_concluded`: what follows in each.
-/

namespace InlineRepl.Evaluate

open Board (Change)
open Moment (events)

variable {env : Environment} {screen : Screen} {format : OutputFormat} {args : EvalArgs}
  {doc : Document} {tree after : Tree} {host last : Host} {moments : List (Nat × Moment)}
  {attempt : Except SessionFault Unit × Host}

/-! ## Reports -/

/-- The prints that a run shows as they arrive: all, if its output is meant for people. -/
def echoed (format : OutputFormat) (host : Host) : String :=
  if format = .text then LogEntry.echoed (host.calls.filterMap Call.entry?) else ""

theorem out_terminal (color : Bool) (format : OutputFormat) (host : Host) :
    (Screen.terminal { echo := format = .text, color } host).out = echoed format host := by
  unfold Screen.terminal echoed
  rw [Terminal.out_ofCalls]
  simp only [decide_eq_true_eq]

theorem board_terminal (screen : Screen) (host : Host) :
    (screen.terminal host).board = ({} : Board).changed host.changes :=
  Terminal.board_ofCalls screen.echo screen.color host.calls

/-- **A result is reported** if nothing later has replaced it. -/
theorem mem_results_iff {file : Path} {images : Option Path} {row : ReportRow} :
    row ∈ (reported (screen.terminal host) file images).results ↔
      ∃ anchor result, IsLast (Change.touchesLine Script.documentId anchor.line) host.changes
        (.place Script.documentId anchor result) ∧ row = rowOf images (anchor, result) := by
  have hboard : (screen.terminal host).board.Ordered :=
    Terminal.ordered_ofCalls screen.echo screen.color host.calls
  have hentry : ∀ anchor result,
      (anchor, result) ∈ (screen.terminal host).board.resultsOf Script.documentId ↔
        IsLast (Change.touchesLine Script.documentId anchor.line) host.changes
          (.place Script.documentId anchor result) := by
    intro anchor result
    rw [← Board.get?_changed_iff, ← board_terminal screen, hboard.mem_resultsOf]
    exact (and_iff_left rfl).symm
  simp only [reported, List.mem_map, Prod.exists, hentry, @eq_comm _ row]

/-- **A value is reported** if nothing later has replaced it. -/
theorem mem_watches_iff {file : Path} {images : Option Path} {entry : ReportedWatch} :
    entry ∈ (reported (screen.terminal host) file images).watches ↔
      ∃ watch value, IsLast (Change.touchesWatch Script.documentId watch) host.changes
        (.setValue Script.documentId watch value) ∧ entry = { id := watch.name, value } := by
  have hboard : (screen.terminal host).board.Ordered :=
    Terminal.ordered_ofCalls screen.echo screen.color host.calls
  simp only [reported, List.mem_map, Prod.exists, ← Board.value?_changed_iff,
    ← board_terminal screen, ← hboard.mem_valuesOf, @eq_comm _ entry]

/-! ## The end of a run -/

/-- Ending the sessions shows nothing. -/
theorem terminal_shutdown (screen : Screen) (host : Host) :
    screen.terminal host.shutdown = screen.terminal host := by
  have hcalls : host.shutdown.calls = host.calls :=
    Host.shutdown_keeps (fun after => after.calls = host.calls)
      (fun _ _ h => Host.calls_release.trans h) rfl
  unfold Screen.terminal
  rw [hcalls]

theorem conclude_popup {header : String}
    (h : last.popups.head?.map Popup.header = some header) :
    conclude tree screen format args doc last =
      Outcome.ofTerminal (screen.terminal last) tree (.failed (.aborted header)) := by
  unfold conclude
  dsimp only
  rw [terminal_shutdown, firstPopup_terminal, h]

theorem conclude_report (h : last.popups = []) :
    conclude tree screen format args doc last =
      match report (screen.terminal last) (doc.path.getD args.file) args.images tree with
      | (.error fault, tree) =>
        Outcome.ofTerminal (screen.terminal last) tree (.failed (.internal fault.message))
      | (.ok told, tree) =>
        { ending := .done
          tree
          out := (screen.terminal last).out ++ print told screen.color format
          err := (screen.terminal last).err } := by
  unfold conclude
  dsimp only
  rw [terminal_shutdown, firstPopup_terminal, h]
  rfl

/-- Without a popup, a run ends in its report, or because a file operation has failed. -/
theorem ending_conclude (tree : Tree) (screen : Screen) (format : OutputFormat) (args : EvalArgs)
    (doc : Document) (h : last.popups = []) :
    let outcome := conclude tree screen format args doc last
    outcome.ending = .done ∨ ∃ reason, outcome.ending = .failed (.internal reason) := by
  intro outcome
  have houtcome : outcome = conclude tree screen format args doc last := rfl
  rw [houtcome, conclude_report h]
  split
  · exact .inr ⟨_, rfl⟩
  · exact .inl rfl

/-- **Without a popup, everything is reported** that nothing has replaced, if files can be
written. -/
theorem conclude_told (screen : Screen) (format : OutputFormat) (doc : Document) {made : Tree}
    (h : last.popups = [])
    (makes : (args.images.map tree.makeAll).getD (.ok tree) = .ok made)
    (writes : made.writeAll (((screen.terminal last).board.resultsOf Script.documentId).filterMap
      (pictureOf args.images)) = .ok after) :
    ∃ told, conclude tree screen format args doc last =
        { ending := .done
          tree := after
          out := (screen.terminal last).out ++ print told screen.color format
          err := (screen.terminal last).err } ∧
      (∀ row, row ∈ told.results ↔ ∃ anchor result,
        IsLast (Change.touchesLine Script.documentId anchor.line) last.changes
          (.place Script.documentId anchor result) ∧
        row = rowOf args.images (anchor, result)) ∧
      ∀ entry, entry ∈ told.watches ↔ ∃ watch value,
        IsLast (Change.touchesWatch Script.documentId watch) last.changes
          (.setValue Script.documentId watch value) ∧
        entry = { id := watch.name, value } := by
  have hreport : report (screen.terminal last) (doc.path.getD args.file) args.images tree =
      (.ok (reported (screen.terminal last) (doc.path.getD args.file) args.images), after) :=
    report_eq_ok_iff.mpr ⟨rfl, made, makes, writes⟩
  refine ⟨reported (screen.terminal last) (doc.path.getD args.file) args.images, ?_,
    fun _ => mem_results_iff, fun _ => mem_watches_iff⟩
  rw [conclude_report h, hreport]

/-! ## Runs along moments -/

/-- Carries an evaluation out that has been sent or refused, along the moments that it meets. -/
def along (env : Environment) (format : OutputFormat) (args : EvalArgs) (doc : Document)
    (attempt : Except SessionFault Unit × Host) (moments : List (Nat × Moment)) : Outcome :=
  let screen : Screen := { echo := format = .text, color := env.color }
  match attempt with
  | (.error fault, host) =>
    let terminal := screen.terminal host
    Outcome.ofTerminal terminal env.tree
      (.failed ((terminal.firstPopup.map CommandFault.aborted).getD (.session fault)))
  | (.ok (), host) =>
    if env.reaches args.timeout = false then
      Outcome.ofTerminal (screen.terminal host) env.tree .overflow
    else
      match settle screen host 0 moments with
      | (verdict, settled, time) =>
        let tree := env.treeAt host time
        match verdict with
        | .settled => conclude tree screen format args doc settled
        | .timedOut =>
          Outcome.ofTerminal (screen.terminal settled) tree
            (.failed (.timeout (shownLimit args.timeout) "evaluation results"))
        | .waiting => Outcome.ofTerminal (screen.terminal settled) tree .waiting

/-- **A run is one along the moments of its story.** -/
theorem run_eq_along {file : Path} {scope : Scope} {fresh : Host}
    (loads : Script.load env.tree args = .ok (doc, scope))
    (starts : env.startHost file = .ok fresh) :
    let attempt := fresh.evaluate env.around doc scope
    run env file format args = along env format args doc attempt
      (env.moments attempt.2 args.idle.toNat (args.timeout.toNat * 1000)) := by
  intro attempt
  have hattempt : fresh.evaluate env.around doc scope = attempt := rfl
  obtain ⟨answer, host⟩ := attempt
  unfold run
  rw [loads, starts]
  dsimp only
  rw [hattempt]
  cases answer with
  | error fault => rfl
  | ok sent => rfl

/-- **The ways in which a run ends** that has met `seen` of its moments and has come to the host
`last`. `concluded` is the end that a settled wait leads to. -/
inductive Ends (format : OutputFormat) (args : EvalArgs) (moments seen : List (Nat × Moment))
    (last : Host) (concluded outcome : Outcome) : Prop
  | aborted {header : String} (shown : last.popups.head?.map Popup.header = some header)
      (ends : outcome.ending = .failed (.aborted header))
      (silent : outcome.out = echoed format last)
  | timedOut (unshown : last.popups = []) (nothing : last.changes = [])
      (late : ∃ time, (time, .limit) ∈ seen)
      (ends : outcome.ending =
        .failed (.timeout (shownLimit args.timeout) "evaluation results"))
  | goesOn (unshown : last.popups = []) (early : ∀ time, (time, .limit) ∉ moments)
      (ends : outcome.ending = .waiting)
  | concluded (unshown : last.popups = [])
      (early : last.changes = [] → ∀ time, (time, .limit) ∉ seen)
      (ends : outcome.ending = .done ∨ ∃ reason, outcome.ending = .failed (.internal reason))
      (same : outcome = concluded)

/-- A limit that the clock cannot count is not survived. -/
theorem along_overflow (far : env.reaches args.timeout = false) (host : Host)
    (moments : List (Nat × Moment)) :
    along env format args doc (.ok (), host) moments = Outcome.ofTerminal
      (Screen.terminal { echo := format = .text, color := env.color } host) env.tree .overflow :=
  if_pos far

/-- **An evaluation that has been sent ends in one of these ways**, if the clock can count its
limit. -/
theorem ends_sent (near : env.reaches args.timeout = true) (host : Host)
    (moments : List (Nat × Moment)) :
    let screen : Screen := { echo := format = .text, color := env.color }
    let seen := met screen host moments
    let last := host.hear (events seen)
    Ends format args moments seen last
      (conclude (env.treeAt host (endOf 0 seen)) screen format args doc last)
      (along env format args doc (.ok (), host) moments) := by
  intro screen seen last
  have hsettle := settle_eq screen moments host 0
  have houtcome : along env format args doc (.ok (), host) moments =
      match verdict screen last seen with
      | .settled => conclude (env.treeAt host (endOf 0 seen)) screen format args doc last
      | .timedOut =>
        Outcome.ofTerminal (screen.terminal last) (env.treeAt host (endOf 0 seen))
          (.failed (.timeout (shownLimit args.timeout) "evaluation results"))
      | .waiting =>
        Outcome.ofTerminal (screen.terminal last) (env.treeAt host (endOf 0 seen)) .waiting := by
    unfold along
    dsimp only
    rw [if_neg (by rw [near]; nofun), hsettle]
  have hlate : verdict screen last seen = .timedOut ↔
      last.popups = [] ∧ last.changes = [] ∧ ∃ time, (time, .limit) ∈ seen :=
    verdict_met_eq_timedOut_iff screen host moments
  rw [houtcome]
  cases hfirst : last.popups.head?.map Popup.header with
  | some header =>
    have hshown : last.popups ≠ [] := by
      intro hnone
      rw [hnone] at hfirst
      exact absurd hfirst nofun
    rw [verdict_popup (hasPopup_iff.mpr hshown)]
    dsimp only
    rw [conclude_popup hfirst]
    exact .aborted hfirst rfl (out_terminal env.color format last)
  | none =>
    have hnone : last.popups = [] := by simpa using hfirst
    cases hverdict : verdict screen last seen with
    | timedOut =>
      obtain ⟨-, hnothing, hlimit⟩ := hlate.mp hverdict
      exact .timedOut hnone hnothing hlimit rfl
    | waiting =>
      have hwaits : (settle screen host 0 moments).1 = .waiting := by
        rw [hsettle]
        exact hverdict
      exact .goesOn hnone (no_limit_of_waiting hwaits) rfl
    | settled =>
      refine .concluded hnone (fun hnothing time hmem => ?_) (ending_conclude _ _ _ _ _ hnone) rfl
      have htimedOut := hlate.mpr ⟨hnone, hnothing, time, hmem⟩
      exact absurd (hverdict.symm.trans htimedOut) nofun

/-- **An evaluation that has been refused ends with its popup**, before anything is met. -/
theorem ends_refused (shown : host.popups ≠ []) (fault : SessionFault)
    (moments : List (Nat × Moment)) (concluded : Outcome) :
    let seen := met { echo := format = .text, color := env.color } host moments
    Ends format args moments seen (host.hear (events seen)) concluded
      (along env format args doc (.error fault, host) moments) := by
  intro seen
  have hseen : seen = [] := met_of_popup (hasPopup_iff.mpr shown) moments
  have hlast : host.hear (events seen) = host := by
    rw [hseen]
    rfl
  obtain ⟨popup, rest, hpopups⟩ := List.exists_cons_of_ne_nil shown
  have hfirst : host.popups.head?.map Popup.header = some popup.header := by
    rw [hpopups]
    rfl
  rw [hlast]
  refine .aborted hfirst ?_ (out_terminal env.color format host)
  unfold along
  dsimp only
  rw [firstPopup_terminal, hfirst]
  rfl

section Ends

variable {seen : List (Nat × Moment)} {concluded outcome : Outcome}
  (h : Ends format args moments seen last concluded outcome)

include h

/-- A run that ends in one of these ways has survived. -/
theorem Ends.ne_overflow : outcome.ending ≠ .overflow := by
  cases h with
  | aborted _ ends => rw [ends]; nofun
  | timedOut _ _ _ ends => rw [ends]; nofun
  | goesOn _ _ ends => rw [ends]; nofun
  | concluded _ _ ends =>
    rcases ends with ends | ⟨reason, ends⟩
    all_goals rw [ends]; nofun

/-- **A run is aborted if and only if a popup has been shown**, and with the first one. -/
theorem Ends.aborted_iff (header : String) : outcome.ending = .failed (.aborted header) ↔
    last.popups.head?.map Popup.header = some header := by
  cases h with
  | aborted shown ends =>
    rw [ends, shown, Ending.failed.injEq, CommandFault.aborted.injEq, Option.some.injEq]
  | timedOut unshown _ _ ends =>
    rw [ends, unshown]
    exact iff_of_false nofun nofun
  | goesOn unshown _ ends =>
    rw [ends, unshown]
    exact iff_of_false nofun nofun
  | concluded unshown _ ends =>
    rw [unshown]
    rcases ends with ends | ⟨reason, ends⟩
    all_goals
      rw [ends]
      exact iff_of_false nofun nofun

/-- **A run with a popup reports nothing.** -/
theorem Ends.silent (shown : last.popups ≠ []) : outcome.out = echoed format last := by
  cases h with
  | aborted _ _ silent => exact silent
  | timedOut unshown => exact absurd unshown shown
  | goesOn unshown => exact absurd unshown shown
  | concluded unshown => exact absurd unshown shown

/-- **A run times out if and only if it meets the limit with nothing to show.** -/
theorem Ends.timedOut_iff (within : seen <+: moments) (seconds : UInt64) (awaited : String) :
    outcome.ending = .failed (.timeout seconds awaited) ↔
      (seconds = shownLimit args.timeout ∧ awaited = "evaluation results") ∧
        last.popups = [] ∧ last.changes = [] ∧ ∃ time, (time, .limit) ∈ seen := by
  cases h with
  | aborted shown ends =>
    rw [ends]
    refine iff_of_false nofun ?_
    rintro ⟨-, hnone, -⟩
    rw [hnone] at shown
    exact absurd shown nofun
  | timedOut unshown nothing late ends =>
    rw [ends, Ending.failed.injEq, CommandFault.timeout.injEq, @eq_comm _ _ seconds,
      @eq_comm _ _ awaited]
    exact (and_iff_left ⟨unshown, nothing, late⟩).symm
  | goesOn _ early ends =>
    rw [ends]
    refine iff_of_false nofun ?_
    rintro ⟨-, -, -, time, hmem⟩
    exact early time (within.subset hmem)
  | concluded _ early ends =>
    refine iff_of_false ?_ ?_
    · rcases ends with ends | ⟨reason, ends⟩
      all_goals rw [ends]; nofun
    · rintro ⟨-, -, hnothing, time, hmem⟩
      exact early hnothing time hmem

/-- **A run goes on only until its limit comes.** -/
theorem Ends.early_of_waiting (waiting : outcome.ending = .waiting) :
    ∀ time, (time, .limit) ∉ moments := by
  cases h with
  | aborted _ ends => exact absurd (ends.symm.trans waiting) nofun
  | timedOut _ _ _ ends => exact absurd (ends.symm.trans waiting) nofun
  | goesOn _ early => exact early
  | concluded _ _ ends =>
    rcases ends with ends | ⟨reason, ends⟩
    all_goals exact absurd (ends.symm.trans waiting) nofun

/-- **Every other run is concluded.** -/
theorem Ends.eq_concluded (unshown : last.popups = [])
    (early : last.changes = [] → ∀ time, (time, .limit) ∉ seen)
    (ended : outcome.ending ≠ .waiting) : outcome = concluded := by
  cases h with
  | aborted shown =>
    rw [unshown] at shown
    exact absurd shown nofun
  | timedOut _ nothing late =>
    obtain ⟨time, hmem⟩ := late
    exact absurd hmem (early nothing time)
  | goesOn _ _ ends => exact absurd ends ended
  | concluded _ _ _ same => exact same

end Ends

end InlineRepl.Evaluate
