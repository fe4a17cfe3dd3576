import InlineRepl.Proofs.Command.Ending
import InlineRepl.Proofs.Command.Loading
import InlineRepl.Proofs.Lookup.Probe
import InlineRepl.Proofs.Lookup.ProjectRoot

/-!
# What decides an evaluation

A popup decides a run, whenever it is shown: at once, because the evaluation could not be sent, or
at any moment of the wait, the last one included. Nothing is reported then. Without a popup, a run
that reaches its limit with nothing to show has timed out, and every other run reports all that it
has received, as far as nothing later has replaced it.

All this is of runs whose document loads and whose host starts, whatever the files hold and the
lookups answer. One of them does none of it. Where the limit lies beyond what the clock can count, a
run does not survive the attempt to look at it, once its evaluation has been sent: it prints
nothing.

Results:
* `opening_startHost`, `evaluate_startHost`: a run sends its evaluation, or it shows a popup.
* `along_overflows`, `run_ne_waiting`: when a run does not survive, and that it comes to its end.
* `popup_decides`: how every run ends, along all moments.
-/

namespace InlineRepl.Evaluate

open Board (Change)
open Moment (events)

variable {env : Environment} {file : Path} {format : OutputFormat} {args : EvalArgs}
  {doc : Document} {fresh : Host}

/-! ## Runs -/

section Runs

variable (starts : env.startHost file = .ok fresh)

include starts

/-- A host that starts has been given a port, and keeps its settings in the file. -/
theorem eq_start : ∃ port, env.control = .ok port ∧
    fresh = Host.start (Settings.load env.tree file) (some file) none port := by
  unfold Environment.startHost at starts
  cases hcontrol : env.control with
  | ok port =>
    rw [hcontrol] at starts
    exact ⟨port, rfl, (Except.ok.inj starts).symm⟩
  | error reason =>
    rw [hcontrol] at starts
    exact absurd starts nofun

/-- **What becomes of the evaluation of a run.** -/
theorem opening_startHost (doc : Document) (scope : Scope) :
    fresh.Opening env.around (Evaluation.ofDocument doc scope)
      (fresh.evaluate env.around doc scope) := by
  obtain ⟨port, -, rfl⟩ := eq_start starts
  exact Host.first_submission _ _ _ _ _ _

/-- **A run sends its evaluation or shows a popup**, and has shown nothing else then. -/
theorem evaluate_startHost (doc : Document) (scope : Scope) :
    let attempt := fresh.evaluate env.around doc scope
    (attempt.1 = .ok () ↔ attempt.2.popups = []) ∧
      (attempt.1 = .ok () → attempt.2.calls.filterMap Call.entry? = []) ∧
      attempt.2.changes = [] := by
  have hopening := opening_startHost starts doc scope
  refine ⟨hopening.sent_iff, hopening.unprinted, ?_⟩
  obtain ⟨port, -, rfl⟩ := eq_start starts
  exact Host.changes_submit

/-- **A run does not survive a limit that the clock cannot count, or ends in one of the ways.** -/
theorem overflows_or_ends (format : OutputFormat) (args : EvalArgs) (doc : Document)
    (scope : Scope) :
    let screen : Screen := { echo := format = .text, color := env.color }
    let attempt := fresh.evaluate env.around doc scope
    let host := attempt.2
    (attempt = (.ok (), host) ∧ env.reaches args.timeout = false) ∨
      ¬ (attempt.1 = .ok () ∧ env.reaches args.timeout = false) ∧
        ∀ moments,
          let seen := met screen host moments
          let last := host.hear (events seen)
          Ends format args moments seen last
            (conclude (env.treeAt host (endOf 0 seen)) screen format args doc last)
            (along env format args doc attempt moments) := by
  intro screen attempt host
  obtain ⟨hsent, -, -⟩ := evaluate_startHost starts doc scope
  have hattempt : attempt = (attempt.1, host) := rfl
  rw [hattempt]
  cases hanswer : attempt.1 with
  | ok =>
    cases hreaches : env.reaches args.timeout with
    | false => exact .inl ⟨rfl, rfl⟩
    | true => exact .inr ⟨fun h => absurd h.2 nofun, ends_sent hreaches host⟩
  | error fault =>
    have hshown : host.popups ≠ [] := fun hnone =>
      absurd (hanswer.symm.trans (hsent.mpr hnone)) nofun
    exact .inr ⟨fun h => absurd h.1 nofun, fun moments => ends_refused hshown fault moments _⟩

/-- **A run overflows** if and only if its evaluation has been sent and the clock cannot count its
limit; then it has printed nothing. -/
theorem along_overflows (format : OutputFormat) (args : EvalArgs) (doc : Document) (scope : Scope)
    (moments : List (Nat × Moment)) :
    let attempt := fresh.evaluate env.around doc scope
    let outcome := along env format args doc attempt moments
    (outcome.ending = .overflow ↔ attempt.1 = .ok () ∧ env.reaches args.timeout = false) ∧
      (outcome.ending = .overflow → outcome.out = "") := by
  intro attempt outcome
  obtain ⟨-, hquiet, -⟩ := evaluate_startHost starts doc scope
  rcases overflows_or_ends starts format args doc scope with ⟨hsent, hfar⟩ | ⟨hnear, hends⟩
  · have hattempt : attempt = (.ok (), attempt.2) := hsent
    have hanswer : attempt.1 = .ok () := congrArg Prod.fst hattempt
    have hend : outcome = _ :=
      (congrArg (along env format args doc · moments) hattempt).trans
        (along_overflow hfar attempt.2 moments)
    rw [hend]
    refine ⟨iff_of_true rfl ⟨hanswer, hfar⟩, fun _ => ?_⟩
    show (Screen.terminal _ attempt.2).out = ""
    rw [out_terminal, echoed, hquiet hanswer]
    exact ite_self _
  · have hend := (hends moments).ne_overflow
    exact ⟨iff_of_false hend hnear, fun h => absurd h hend⟩

/-- **A run comes to its end**: its story has a limit. -/
theorem run_ne_waiting {scope : Scope} (loads : Script.load env.tree args = .ok (doc, scope)) :
    (run env file format args).ending ≠ .waiting := by
  intro hwaits
  rw [run_eq_along loads starts] at hwaits
  rcases overflows_or_ends starts format args doc scope with ⟨hsent, hfar⟩ | ⟨-, hends⟩
  · rw [hsent, along_overflow hfar] at hwaits
    exact absurd hwaits nofun
  · obtain ⟨time, hlimit⟩ := Moment.limit_mem_schedule args.idle.toNat
      (args.timeout.toNat * 1000) 0 _
    exact (hends _).early_of_waiting hwaits time hlimit

end Runs

/-- **A shown popup decides a run**, whatever a run meets and in whatever order, once its document
has been loaded and its host has started.

The evaluation is sent unless a popup says why it is not. A run that has been sent does not survive
a limit that the clock cannot count; then it has printed nothing, and nothing else of this is true
of it. Every other run meets some of the moments before it, none behind a popup or behind the limit.
It is aborted with the header of the first popup if and only if one has been shown by then, and
prints no report in that case. It times out if and only if it has met the limit with no popup shown
and with no result and no value received. Else, unless it goes on because its limit has not come, it
is reported, if the directory for pictures can be made and they can be written: with every result
and every value received that nothing later has replaced. -/
theorem popup_decides (env : Environment) (file : Path) (format : OutputFormat) (args : EvalArgs)
    {doc : Document} {scope : Scope} {fresh : Host}
    (loads : Script.load env.tree args = .ok (doc, scope))
    (starts : env.startHost file = .ok fresh) :
    let screen : Screen := { echo := format = .text, color := env.color }
    let attempt := fresh.evaluate env.around doc scope
    let host := attempt.2
    let story := env.moments host args.idle.toNat (args.timeout.toNat * 1000)
    (run env file format args = along env format args doc attempt story ∧
      (run env file format args).ending ≠ .waiting) ∧
    (attempt.1 = .ok () ↔ host.popups = []) ∧
    ∀ moments,
      let outcome := along env format args doc attempt moments
      let seen := met screen host moments
      let last := host.hear (events seen)
      let changes := (host.received (events seen)).filterMap Inbound.change?
      (outcome.ending = .overflow ↔ attempt.1 = .ok () ∧ env.reaches args.timeout = false) ∧
      (outcome.ending = .overflow → outcome.out = "") ∧
      ((settle screen host 0 moments).2 = (last, endOf 0 seen) ∧ seen <+: moments ∧
        ∀ front entry back, seen = front ++ entry :: back →
          (host.hear (events front)).popups = [] ∧ (entry.2 = .limit → back = [])) ∧
      (outcome.ending ≠ .overflow →
        (∀ header, outcome.ending = .failed (.aborted header) ↔
          last.popups.head?.map Popup.header = some header) ∧
        (last.popups ≠ [] → outcome.out = echoed format last) ∧
        (∀ seconds awaited, outcome.ending = .failed (.timeout seconds awaited) ↔
          (seconds = shownLimit args.timeout ∧ awaited = "evaluation results") ∧
            last.popups = [] ∧ changes = [] ∧ ∃ time, (time, .limit) ∈ seen) ∧
        (outcome.ending = .waiting → ∀ time, (time, .limit) ∉ moments) ∧
        (last.popups = [] → (changes = [] → ∀ time, (time, .limit) ∉ seen) →
          outcome.ending ≠ .waiting →
          ∀ made after,
            (args.images.map (env.treeAt host (endOf 0 seen)).makeAll).getD
              (.ok (env.treeAt host (endOf 0 seen))) = .ok made →
            made.writeAll (((screen.terminal last).board.resultsOf Script.documentId).filterMap
              (pictureOf args.images)) = .ok after →
            ∃ told, outcome.ending = .done ∧ outcome.tree = after ∧
              outcome.out = echoed format last ++ print told env.color format ∧
              (∀ row, row ∈ told.results ↔ ∃ anchor result,
                IsLast (Change.touchesLine Script.documentId anchor.line) changes
                  (.place Script.documentId anchor result) ∧
                row = rowOf args.images (anchor, result)) ∧
              ∀ entry, entry ∈ told.watches ↔ ∃ watch value,
                IsLast (Change.touchesWatch Script.documentId watch) changes
                  (.setValue Script.documentId watch value) ∧
                entry = { id := watch.name, value })) := by
  intro screen attempt host story
  obtain ⟨hsent, -, hstill⟩ := evaluate_startHost starts doc scope
  refine ⟨⟨run_eq_along loads starts, run_ne_waiting starts loads⟩, hsent, ?_⟩
  intro moments outcome seen last changes
  have hchanges : last.changes = changes := by
    show (host.hear (events seen)).changes = _
    rw [Host.changes_hear, hstill, List.nil_append]
  have hprefix : seen <+: moments := met_prefix screen host moments
  have hsettle : (settle screen host 0 moments).2 = (last, endOf 0 seen) := by
    rw [settle_eq]
  obtain ⟨hoverflow, hsilent⟩ := along_overflows starts format args doc scope moments
  refine ⟨hoverflow, hsilent, ⟨hsettle, hprefix, fun _ _ _ => unmet_behind⟩, fun hsurvives => ?_⟩
  rw [← hchanges]
  rcases overflows_or_ends starts format args doc scope with ⟨hok, hfar⟩ | ⟨-, hends⟩
  · exact absurd (hoverflow.mpr ⟨congrArg Prod.fst hok, hfar⟩) hsurvives
  have hend := hends moments
  refine ⟨hend.aborted_iff, hend.silent, hend.timedOut_iff hprefix, hend.early_of_waiting,
    fun hnone hearly hended made after makes writes => ?_⟩
  have hsame : outcome = _ := hend.eq_concluded hnone hearly hended
  obtain ⟨told, hdone, hlists⟩ := conclude_told screen format doc hnone makes writes
  rw [hdone] at hsame
  refine ⟨told, ?_, ?_, ?_, hlists⟩
  · rw [hsame]
  · rw [hsame]
  · rw [hsame, ← out_terminal env.color]

/-- A script, a bridge script and an interpreter in one directory. -/
def project : Tree :=
  { entries := [(["p"], .directory), (["p", "s.fsx"], .file (Text.bytesOf "1") false),
      (["p", "b.fsx"], .file [] false), (["p", "fsharpi"], .file [] true)] }

/-- What a run in the project finds, where programs are looked up in its directory. The launcher
answers always the same, and a process that is started does nothing. -/
def furnished (answer : Except SessionFault (Option Nat)) : Environment :=
  { tree := project
    lookup := fun searchPath =>
      SearchPath.find project.view none (searchPath.getD "/p") interpreterCommand
    bridge := some ⟨"/p/b.fsx"⟩
    launch := fun _ _ => answer
    story := fun _ => []
    leaves := fun _ _ => none }

/-- A path that spells a name in the directory leads there, if no link and no directory is there. -/
theorem resolve_project {p : Path} {name : String} (htaken : Tree.IsTaken p)
    (hsteps : Tree.steps p = ["p", name]) (hname : Tree.IsName name)
    (hfile : project.at? ["p", name] ≠ some .directory)
    (hlink : ∀ target, project.at? ["p", name] ≠ some (.link target)) :
    project.resolve true p = .ok ["p", name] := by
  have hcwd : (if p.isAbsolute then [] else project.cwd) = [] := ite_self _
  refine Tree.resolve_eq_ok_iff.mpr ⟨htaken, ?_⟩
  rw [hsteps, hcwd]
  exact .into rfl ⟨by decide, by decide, by decide⟩ rfl
    (.final rfl hname hfile fun target h => absurd h (hlink target))

theorem resolve_script : project.resolve true ⟨"/p/s.fsx"⟩ = .ok ["p", "s.fsx"] :=
  resolve_project (by unfold Tree.IsTaken; decide) (by decide) ⟨by decide, by decide, by decide⟩
    nofun nofun

/-- What a run finds in the project. -/
theorem find_project :
    project.find ⟨"/p/s.fsx"⟩ = .ok (.file (Text.bytesOf "1") false) ∧
      project.find ⟨"/p/b.fsx"⟩ = .ok (.file [] false) ∧
      project.find ⟨"/p/fsharpi"⟩ = .ok (.file [] true) ∧
      project.find ⟨"/p"⟩ = .ok .directory ∧ project.hasPath ⟨"/p/__init__.py"⟩ = false := by
  have hbridge : project.resolve true ⟨"/p/b.fsx"⟩ = .ok ["p", "b.fsx"] :=
    resolve_project (by unfold Tree.IsTaken; decide) (by decide)
      ⟨by decide, by decide, by decide⟩ nofun nofun
  have hinterpreter : project.resolve true ⟨"/p/fsharpi"⟩ = .ok ["p", "fsharpi"] :=
    resolve_project (by unfold Tree.IsTaken; decide) (by decide)
      ⟨by decide, by decide, by decide⟩ nofun nofun
  have hmarker : project.resolve true ⟨"/p/__init__.py"⟩ = .ok ["p", "__init__.py"] :=
    resolve_project (by unfold Tree.IsTaken; decide) (by decide)
      ⟨by decide, by decide, by decide⟩ nofun nofun
  have hsteps : Tree.steps ⟨"/p"⟩ = ["p"] := by decide
  have hroot : project.resolve true ⟨"/p"⟩ = .ok ["p"] := by
    refine Tree.resolve_eq_ok_iff.mpr ⟨by unfold Tree.IsTaken; decide, ?_⟩
    rw [hsteps]
    exact .into rfl ⟨by decide, by decide, by decide⟩ rfl (.done _ _)
  refine ⟨Tree.find_eq_ok_iff.mpr ⟨_, resolve_script, rfl⟩,
    Tree.find_eq_ok_iff.mpr ⟨_, hbridge, rfl⟩, Tree.find_eq_ok_iff.mpr ⟨_, hinterpreter, rfl⟩,
    Tree.find_eq_ok_iff.mpr ⟨_, hroot, rfl⟩, ?_⟩
  unfold Tree.hasPath Tree.find
  rw [hmarker]
  rfl

/-- The script of the project as it is loaded. -/
def script : Document :=
  { Document.ofText Script.documentId "1" with path := some ⟨"/p/s.fsx"⟩ }

theorem load_script (timeout : UInt64) :
    Script.load project { file := ⟨"/p/s.fsx"⟩, timeout } = .ok (script, .document) := by
  have hpath : project.canonical ⟨"/p/s.fsx"⟩ = .ok ⟨"/p/s.fsx"⟩ :=
    Tree.canonical_eq_ok resolve_script rfl
  have htext : project.readText ⟨"/p/s.fsx"⟩ = .ok "1" := by
    unfold Tree.readText
    rw [Tree.readBytes_of_find find_project.1]
    simp only [bind, Except.bind, Text.Utf8.decode?_bytesOf]
    rfl
  have hread : Script.read project ⟨"/p/s.fsx"⟩ = .ok script := by
    unfold Script.read
    rw [hpath]
    dsimp only
    rw [htext]
    rfl
  unfold Script.load
  rw [hread]
  rfl

/-- The lookups of a run in the project, each of which finds what it looks for. -/
theorem lookups_furnished (answer : Except SessionFault (Option Nat)) :
    let around := (furnished answer).around
    around.lookup none = some ⟨"/p/fsharpi"⟩ ∧
      (∀ configured,
        (BridgeScript.locate around.files around.bridgePlaces configured).present = true) ∧
      ProjectRoot.locate around.files ProjectRoot.defaultMarker ⟨"/p/s.fsx"⟩ = some ⟨"/p"⟩ := by
  intro around
  obtain ⟨hscript, hbridge, hinterpreter, hroot, hmarker⟩ := find_project
  refine ⟨?_, fun configured => ?_, ?_⟩
  · have hplaces : (SearchPath.directories none "/p").map
        (fun dir => dir.join ⟨interpreterCommand⟩) = [⟨"/p/fsharpi"⟩] := by decide
    have hexecutable : project.isExecutable ⟨"/p/fsharpi"⟩ = true := by
      unfold Tree.isExecutable
      rw [hinterpreter]
    have hlookup : (furnished answer).lookup none =
        SearchPath.find project.view none "/p" interpreterCommand := rfl
    show (furnished answer).lookup none = _
    rw [hlookup, SearchPath.find, hplaces]
    exact List.find?_cons_of_pos hexecutable
  · have hfile : project.isFile ⟨"/p/b.fsx"⟩ = true := by
      unfold Tree.isFile
      rw [hbridge]
    unfold BridgeScript.locate
    split
    · rfl
    · rename_i hmissing
      refine absurd hfile (List.find?_eq_none.mp hmissing _ ?_)
      simp [BridgeScript.candidates, around, Environment.around, Environment.bridgePlaces,
        furnished]
  · have hparent : (⟨"/p/s.fsx"⟩ : Path).parent? = some ⟨"/p"⟩ := by decide
    have hparents : (⟨"/p"⟩ : Path).parent? = some ⟨"/"⟩ := by decide
    have hcandidates : Path.Candidates ⟨"/p/s.fsx"⟩ [⟨"/p/s.fsx"⟩, ⟨"/p"⟩] :=
      .step rfl hparent (.step rfl hparents (.ends (.inr (by decide))))
    have hfile :
        ProjectRoot.accepts project.view ProjectRoot.defaultMarker ⟨"/p/s.fsx"⟩ = false := by
      show (project.isDirectory ⟨"/p/s.fsx"⟩ && _) = false
      unfold Tree.isDirectory
      rw [hscript]
      rfl
    have hdirectory : ProjectRoot.accepts project.view ProjectRoot.defaultMarker ⟨"/p"⟩ = true := by
      have hjoin : (⟨"/p"⟩ : Path).join ⟨ProjectRoot.defaultMarker⟩ = ⟨"/p/__init__.py"⟩ := by
        decide
      show (project.isDirectory ⟨"/p"⟩ && !project.hasPath _) = true
      unfold Tree.isDirectory
      rw [hroot, hjoin, hmarker]
      rfl
    rw [ProjectRoot.locate_eq_find? hcandidates]
    show List.find? (ProjectRoot.accepts project.view ProjectRoot.defaultMarker) _ = _
    rw [List.find?_cons_of_neg (by rw [hfile]; nofun), List.find?_cons_of_pos hdirectory]

/-- The host of a run in the project. -/
def freshHost (file : Path) : Host :=
  Host.start (Settings.load project file) (some file) none 0

/-- In the project, the launcher decides whether an evaluation is sent. -/
theorem evaluate_furnished (answer : Except SessionFault (Option Nat)) (file : Path)
    (scope : Scope) :
    let env := furnished answer
    let attempt := (freshHost file).evaluate env.around script scope
    (attempt.1 = .ok () ∧ ∃ pid, answer = .ok pid) ∨
      ∃ fault, answer = .error fault ∧ attempt.2.popups = [.connectFailed fault.message] := by
  intro env attempt
  obtain ⟨hinterpreter, hbridge, hroot⟩ := lookups_furnished answer
  have found : (furnished answer).around.NamesWhatItFinds :=
    fun _ _ h => SearchPath.find_nonempty (by decide) h
  have hopening : (freshHost file).Opening (furnished answer).around
      (Evaluation.ofDocument script scope) attempt := Host.first_submission _ _ _ _ _ _
  cases hopening with
  | launched sent launch => exact .inl ⟨sent, _, launch⟩
  | waiting _ nameless =>
    have hnamed := Probe.resolve_nonempty (Host.start_coherent ..).probe found nameless.1
    exact absurd (nameless.2.symm.trans hnamed) nofun
  | refused _ hreason hcalls =>
    cases hreason with
    | missing lacks =>
      cases lacks with
      | interpreter hi =>
        have hlookup : ∀ override : Option Path,
            ((Probe.chosen? override).or
              ((furnished answer).around.lookup none)).isSome = true := by
          intro override
          rw [hinterpreter]
          cases Probe.chosen? override <;> rfl
        rw [Probe.resolve_eq] at hi
        have hnone := Option.map_eq_none_iff.mp hi
        have hsome := hlookup (Settings.load project file).interpreter
        exact absurd (hnone ▸ hsome) nofun
      | bridge hi hb => exact absurd ((hbridge _).symm.trans hb) nofun
      | root hi hb hr => exact absurd (hroot.symm.trans hr) nofun
    | refused hi hb hr hcwd hl =>
      refine .inr ⟨_, hl, ?_⟩
      show attempt.2.calls.filterMap Call.popup? = _
      rw [hcalls]
      rfl

/-- A launcher that refuses to start a process decides a run, before it has met anything. -/
theorem refusal_decides :
    let env := furnished (.error (.launchFailed "out of memory"))
    let args : EvalArgs := { file := ⟨"/p/s.fsx"⟩ }
    let outcome := run env ⟨"/settings.json"⟩ .ndjson args
    Script.load env.tree args = .ok (script, .document) ∧
      env.startHost ⟨"/settings.json"⟩ = .ok (freshHost ⟨"/settings.json"⟩) ∧
      outcome.ending = .failed (.aborted "We couldn't connect.") ∧ outcome.out = "" := by
  intro env args outcome
  have hload : Script.load env.tree args = .ok (script, .document) := load_script 60
  have hstart : env.startHost ⟨"/settings.json"⟩ = .ok (freshHost ⟨"/settings.json"⟩) := rfl
  obtain ⟨⟨hrun, -⟩, hsent, hall⟩ :=
    popup_decides env ⟨"/settings.json"⟩ .ndjson args hload hstart
  obtain ⟨fault, hshown⟩ : ∃ fault : SessionFault,
      ((freshHost ⟨"/settings.json"⟩).evaluate env.around script .document).2.popups =
        [.connectFailed fault.message] := by
    rcases evaluate_furnished (.error (.launchFailed "out of memory")) ⟨"/settings.json"⟩ .document
      with ⟨-, pid, hpid⟩ | ⟨fault, -, hpopups⟩
    · exact absurd hpid nofun
    · exact ⟨fault, hpopups⟩
  have hunsent : ((freshHost ⟨"/settings.json"⟩).evaluate env.around script .document).1 ≠
      .ok () := by
    intro hok
    rw [hsent.mp hok] at hshown
    exact absurd hshown nofun
  obtain ⟨hoverflow, -, -, hends⟩ := hall (env.moments
    ((freshHost ⟨"/settings.json"⟩).evaluate env.around script .document).2 args.idle.toNat
    (args.timeout.toNat * 1000))
  obtain ⟨haborted, hsilent, -⟩ := hends fun h => hunsent (hoverflow.mp h).1
  rw [met_of_popup (hasPopup_iff.mpr (by rw [hshown]; nofun))] at haborted hsilent
  -- Nothing is met, so the host at the end is the one that has refused.
  have hlast : ∀ host : Host, host.hear (events []) = host := fun _ => rfl
  rw [hlast, hshown] at haborted hsilent
  refine ⟨hload, hstart, ?_, ?_⟩
  · show (run env _ _ args).ending = _
    rw [hrun]
    exact (haborted _).mpr rfl
  · show (run env _ _ args).out = _
    rw [hrun]
    exact hsilent nofun

/-- Where the limit lies beyond what the clock can count, an evaluation that has been sent comes to
nothing: no popup has been shown, and the run neither is aborted nor times out nor reports. -/
theorem far_limit_is_not_survived :
    let env := furnished (.ok none)
    let args : EvalArgs := { file := ⟨"/p/s.fsx"⟩, timeout := 18446744073709551615 }
    let fresh := freshHost ⟨"/settings.json"⟩
    let attempt := fresh.evaluate env.around script .document
    let outcome := run env ⟨"/settings.json"⟩ .ndjson args
    Script.load env.tree args = .ok (script, .document) ∧
      env.startHost ⟨"/settings.json"⟩ = .ok fresh ∧ attempt.1 = .ok () ∧
      attempt.2.popups = [] ∧ args.images = none ∧
      outcome.ending = .overflow ∧ outcome.out = "" := by
  intro env args fresh attempt outcome
  have hload : Script.load env.tree args = .ok (script, .document) := load_script _
  have hstart : env.startHost ⟨"/settings.json"⟩ = .ok fresh := rfl
  have hsent : attempt.1 = .ok () := by
    rcases evaluate_furnished (.ok none) ⟨"/settings.json"⟩ .document with ⟨hok, -⟩ | ⟨_, hfault, -⟩
    · exact hok
    · exact absurd hfault nofun
  have hattempt : attempt = (.ok (), attempt.2) := hsent ▸ rfl
  have hrun : outcome = Outcome.ofTerminal
      (Screen.terminal { echo := OutputFormat.ndjson = .text, color := env.color } attempt.2)
      env.tree .overflow := by
    show run env _ _ args = _
    rw [run_eq_along hload hstart]
    show along env .ndjson args script attempt _ = _
    rw [hattempt]
    exact along_overflow (by decide +kernel) _ _
  obtain ⟨hunshown, -, -⟩ := evaluate_startHost hstart script .document
  refine ⟨hload, hstart, hsent, hunshown.mp hsent, rfl, ?_, ?_⟩
  · rw [hrun]
    rfl
  · rw [hrun]
    exact out_terminal env.color .ndjson attempt.2

end InlineRepl.Evaluate
