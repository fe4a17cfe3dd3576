import InlineRepl.Command.Run
import InlineRepl.Proofs.Command.Decision
import InlineRepl.Proofs.Json.Compact
import InlineRepl.Proofs.Json.Pretty

/-!
# One envelope for every run

Where the output is meant for programs, nothing is echoed, so a command that succeeds has printed
its envelope and nothing else, and a command that fails has printed nothing when the envelope of its
fault is added. What is printed is one JSON value and a line feed, whatever the interpreter has
printed, returned or failed with.

Two runs end in neither way. One that holds a session has not ended, but has printed its envelope
already. And one whose limit lies beyond what the clock can count does not survive the attempt to
look at it, and prints no envelope at all.

Results:
* `Envelope.print_spec`: a printed envelope is one JSON value and a line feed.
* `Evaluate.run_cases`, `Connect.run_cases`: a command fails at once, or its host has started.
* `Connect.wait_ne_waiting`: the wait for a session comes to its end.
* `Evaluate.reports_eval`, `Connect.reports_connect`, `Configure.reports_config`: what the commands
  print, and from them `Invocation.reports_run`.
* `Invocation.overflow_iff`, `silent_of_outlasts`: when a run does not survive, and that it prints
  nothing then.
* `one_envelope_is_printed`: what every run prints.
-/

namespace InlineRepl

open Json (Raw)

/-! ## Envelopes -/

/-- **A printed envelope is one JSON value and a line feed**, on one line if asked for. -/
theorem Envelope.print_spec (envelope : Envelope) {format : OutputFormat} (h : format ≠ .text) :
    ∃ text, (envelope.print format).toList = text ++ ['\n'] ∧
      Raw.parse? text = some (Raw.ofJson envelope.toJson) ∧
      (format = .ndjson → '\n' ∉ text) := by
  cases format with
  | text => exact absurd rfl h
  | json =>
    refine ⟨envelope.toJson.pretty.toList, String.toList_append, ?_, nofun⟩
    have hread := Raw.readText_pretty some envelope.toJson
    unfold Json.readText at hread
    rwa [Option.bind_fun_some] at hread
  | ndjson =>
    refine ⟨envelope.toJson.compact.toList, String.toList_append, ?_, fun _ => ?_⟩
    · unfold Json.compact
      rw [String.toList_ofList]
      exact Raw.parse?_text envelope.toJson
    · unfold Json.compact
      rw [String.toList_ofList]
      exact (Json.printable_text envelope.toJson).lineFeed_not_mem

variable {env : Environment} {file : Path} {format : OutputFormat}

/-- **What a command has printed**: the envelope of its success, or nothing. -/
inductive Outcome.Reports (command : String) (format : OutputFormat) (outcome : Outcome) : Prop
  | told {data : Json} (ends : outcome.ending = .done ∨ outcome.ending = .waiting)
      (out : outcome.out = (Envelope.success command data).print format)
  | silent (ends : (∃ fault, outcome.ending = .failed fault) ∨ outcome.ending = .overflow)
      (out : outcome.out = "")

/-- A command that succeeds with nothing on standard output adds its envelope. -/
theorem Outcome.Reports.after {command : String} {outcome : Outcome} {shown : String} {data : Json}
    (silent : shown = "") (ends : outcome.ending = .done ∨ outcome.ending = .waiting)
    (out : outcome.out = shown ++ (Envelope.success command data).print format) :
    outcome.Reports command format :=
  .told ends (by rw [out, silent, String.empty_append])

/-! ## Evaluations -/

namespace Evaluate

/-- Where nothing is echoed, nothing is on standard output. -/
theorem out_terminal_silent (h : format ≠ .text) (color : Bool) (host : Host) :
    (Screen.terminal { echo := format = .text, color } host).out = "" := by
  rw [out_terminal, echoed, if_neg h]

/-- What a concluded run has printed. -/
theorem reports_conclude (h : format ≠ .text) (tree : Tree) (color : Bool) (args : EvalArgs)
    (doc : Document) (host : Host) :
    (conclude tree { echo := format = .text, color } format args doc host).Reports "eval"
      format := by
  have hout : (Screen.terminal { echo := format = .text, color } host.shutdown).out = "" :=
    out_terminal_silent h color _
  unfold conclude
  dsimp only
  split
  · exact .silent (.inl ⟨_, rfl⟩) hout
  · split
    · exact .silent (.inl ⟨_, rfl⟩) hout
    · rename_i told after hreport
      have hprint : print told color format = (Envelope.success "eval" told.toJson).print format :=
        if_neg h
      exact .after hout (.inl rfl) (congrArg (_ ++ ·) hprint)

/-- A run whose document is not loaded has failed with nothing on its terminal. -/
theorem run_of_load_error {args : EvalArgs} {fault : CommandFault}
    (h : Script.load env.tree args = .error fault) :
    run env file format args = Outcome.ofFault env.tree fault := by
  unfold run
  rw [h]

/-- **A run has failed at once**, or its document is loaded and its host has started. -/
theorem run_cases (env : Environment) (file : Path) (format : OutputFormat) (args : EvalArgs) :
    (∃ fault, run env file format args = Outcome.ofFault env.tree fault ∧
        ∀ loaded fresh, Script.load env.tree args = .ok loaded → env.startHost file ≠ .ok fresh) ∨
      ∃ doc scope fresh, Script.load env.tree args = .ok (doc, scope) ∧
        env.startHost file = .ok fresh := by
  cases hload : Script.load env.tree args with
  | error fault => exact .inl ⟨fault, run_of_load_error hload, fun _ _ h => absurd h nofun⟩
  | ok loaded =>
    obtain ⟨doc, scope⟩ := loaded
    cases hstart : env.startHost file with
    | error fault =>
      refine .inl ⟨.session fault, ?_, fun _ _ _ h => absurd h nofun⟩
      unfold run
      rw [hload, hstart]
    | ok fresh => exact .inr ⟨doc, scope, fresh, rfl, rfl⟩

/-- **An evaluation comes to its end**, started or not. -/
theorem ending_ne_waiting (env : Environment) (file : Path) (format : OutputFormat)
    (args : EvalArgs) : (run env file format args).ending ≠ .waiting := by
  rcases run_cases env file format args with ⟨fault, hrun, -⟩ | ⟨doc, scope, fresh, hload, hstart⟩
  · rw [hrun]
    nofun
  · exact run_ne_waiting hstart hload

/-- An evaluation is sent whose limit the clock cannot count. -/
def Outlasts (env : Environment) (file : Path) (args : EvalArgs) : Prop :=
  env.reaches args.timeout = false ∧ ∃ doc scope fresh,
    Script.load env.tree args = .ok (doc, scope) ∧ env.startHost file = .ok fresh ∧
      (fresh.evaluate env.around doc scope).1 = .ok ()

/-- **When an evaluation does not survive.** -/
theorem overflow_iff (env : Environment) (file : Path) (format : OutputFormat) (args : EvalArgs) :
    (run env file format args).ending = .overflow ↔ Outlasts env file args := by
  unfold Outlasts
  rcases run_cases env file format args with
    ⟨fault, hrun, hnever⟩ | ⟨doc, scope, fresh, hload, hstart⟩
  · rw [hrun]
    exact iff_of_false nofun fun ⟨_, _, _, fresh, hload, hstart, _⟩ => hnever _ fresh hload hstart
  · rw [run_eq_along hload hstart, (along_overflows hstart format args doc scope _).1]
    constructor
    · rintro ⟨hsent, hfar⟩
      exact ⟨hfar, doc, scope, fresh, hload, hstart, hsent⟩
    · rintro ⟨hfar, _, _, _, hloaded, hstarted, hsent⟩
      obtain ⟨rfl, rfl⟩ := Prod.mk.inj (Except.ok.inj (hload.symm.trans hloaded))
      obtain rfl := Except.ok.inj (hstart.symm.trans hstarted)
      exact ⟨hsent, hfar⟩

/-- **What an evaluation prints.** -/
theorem reports_eval (h : format ≠ .text) (env : Environment) (file : Path) (args : EvalArgs) :
    (run env file format args).Reports "eval" format := by
  have hout : ∀ host,
      (Screen.terminal { echo := format = .text, color := env.color } host).out = "" :=
    out_terminal_silent h env.color
  have hends := ending_ne_waiting env file format args
  rcases run_cases env file format args with ⟨fault, hrun, -⟩ | ⟨doc, scope, fresh, hload, hstart⟩
  · rw [hrun]
    exact .silent (.inl ⟨fault, rfl⟩) rfl
  · rw [run_eq_along hload hstart] at hends ⊢
    -- Whatever the host has done and met, only a wait that has settled leads to a print.
    generalize fresh.evaluate env.around doc scope = attempt at hends ⊢
    obtain ⟨answer, host⟩ := attempt
    cases answer with
    | error fault => exact .silent (.inl ⟨_, rfl⟩) (hout host)
    | ok =>
      cases hreaches : env.reaches args.timeout with
      | false =>
        rw [along_overflow hreaches]
        exact .silent (.inr rfl) (hout host)
      | true =>
        unfold along at hends ⊢
        dsimp only at hends ⊢
        rw [if_neg (by rw [hreaches]; nofun)] at hends ⊢
        generalize settle _ host 0 _ = settled at hends ⊢
        obtain ⟨verdict, last, time⟩ := settled
        cases verdict with
        | settled => exact reports_conclude h _ _ _ _ _
        | timedOut => exact .silent (.inl ⟨_, rfl⟩) (hout last)
        | waiting => exact absurd rfl hends

end Evaluate

/-! ## Connections -/

namespace Connect

variable {screen : Screen} {host : Host} {time : Nat} {moments : List (Nat × Moment)}

/-- What a host says never leaves the wait open. -/
theorem decided?_ne_waiting (screen : Screen) (host : Host) :
    decided? screen host ≠ some .waiting := by
  unfold decided?
  cases (screen.terminal host).firstPopup with
  | some header => exact nofun
  | none =>
    dsimp only
    cases host.registry.sessions.find? Session.isConnected with
    | some session => exact nofun
    | none =>
      dsimp only
      by_cases hempty : host.registry.isEmpty = true
      · rw [if_pos hempty]
        exact nofun
      · rw [if_neg hempty]
        exact nofun

/-- **The wait for a session comes to its end**, since it has a limit. -/
theorem wait_ne_waiting (h : ∃ limit, (limit, .limit) ∈ moments) :
    (wait screen host time moments).verdict ≠ .waiting := by
  induction moments generalizing host time with
  | nil =>
    obtain ⟨limit, hmem⟩ := h
    exact absurd hmem List.not_mem_nil
  | cons entry moments ih =>
    obtain ⟨next, moment⟩ := entry
    unfold wait
    cases hdecided : decided? screen host with
    | some verdict =>
      rintro rfl
      exact decided?_ne_waiting screen host hdecided
    | none =>
      have hrest : moment ≠ .limit → ∃ limit, (limit, .limit) ∈ moments := by
        intro hmoment
        obtain ⟨limit, hmem⟩ := h
        rcases List.mem_cons.mp hmem with heq | hmem
        · exact absurd (Prod.mk.inj heq).2.symm hmoment
        · exact ⟨limit, hmem⟩
      cases moment with
      | limit => nofun
      | quiet => exact ih (hrest nofun)
      | event event => exact ih (hrest nofun)

/-- A connection that does not echo leaves standard output alone. -/
theorem out_terminal_silent (color : Bool) (host : Host) :
    (Screen.terminal { echo := false, color } host).out = "" := by
  unfold Screen.terminal
  rw [Terminal.out_ofCalls]
  rfl

/-- **A connection has failed at once**, because its host does not start or it knows no directory,
or it waits for the session of its host. -/
theorem run_cases (env : Environment) (file : Path) (format : OutputFormat) (args : ConnectArgs) :
    ((∃ fault, (run env file format args).ending = .failed fault) ∧
        (run env file format args).out = "" ∧
        ∀ fresh, env.startHost file = .ok fresh → directory env args.dir = none) ∨
      ∃ fresh dir, env.startHost file = .ok fresh ∧ directory env args.dir = some dir ∧
        run env file format args =
          await env format args (fresh.handleCommand env.around (.connect dir)) := by
  unfold run
  cases hstart : env.startHost file with
  | error fault => exact .inl ⟨⟨_, rfl⟩, rfl, nofun⟩
  | ok fresh =>
    cases hdir : directory env args.dir with
    | none => exact .inl ⟨⟨_, rfl⟩, rfl, fun _ _ => rfl⟩
    | some dir => exact .inr ⟨fresh, dir, rfl, rfl, rfl⟩

/-- **What the wait for a session prints.** Only one that holds its session may go on, and has
printed its envelope then. -/
theorem reports_await (h : format ≠ .text) (env : Environment) (args : ConnectArgs)
    (started : Host) :
    (await env format args started).Reports "connect" format ∧
      ((await env format args started).ending = .waiting → args.hold = true) := by
  have hout : ∀ host, (Screen.terminal { echo := false, color := env.color } host).out = "" :=
    out_terminal_silent env.color
  have hline : ∀ port session,
      (if format = .text then render port env.color session
        else (Envelope.success "connect" (report port session)).print format) =
      (Envelope.success "connect" (report port session)).print format := fun _ _ => if_neg h
  unfold await
  dsimp only
  cases hreaches : env.reaches args.timeout with
  | false =>
    rw [if_pos rfl]
    exact ⟨.silent (.inr rfl) (hout _), nofun⟩
  | true =>
    rw [if_neg nofun]
    generalize hwaited : wait _ _ 0 (env.moments _ _ _) = waited
    have hends : waited.verdict ≠ .waiting :=
      hwaited ▸ wait_ne_waiting (Moment.limit_mem_schedule _ _ _ _)
    split
    · rename_i session hverdict
      rw [hline]
      split
      · exact ⟨.after (hout _) (.inl rfl) rfl, nofun⟩
      · rename_i hhold
        refine ⟨?_, fun _ => Bool.eq_true_of_not_eq_false hhold⟩
        -- The terminal is told that the session is held, hears it out, and may be told its end.
        generalize hold waited.host session.id waited.time waited.rest = held
        obtain ⟨ended, later, time⟩ := held
        have hheld := ((Terminal.echoes_ofCalls false env.color waited.host.calls).complain
          "Press Ctrl-C to disconnect.").foldl (later.calls.drop waited.host.calls.length)
        cases ended with
        | false => exact .after hheld.out (.inr rfl) rfl
        | true => exact .after (hheld.complain "Interpreter exited.").out (.inl rfl) rfl
    · exact ⟨.silent (.inl ⟨_, rfl⟩) (hout _), nofun⟩
    · exact ⟨.silent (.inl ⟨_, rfl⟩) (hout _), nofun⟩
    · rename_i hverdict
      exact absurd hverdict hends

/-- **What a connection prints.** Only one that holds its session may go on. -/
theorem reports_connect (h : format ≠ .text) (env : Environment) (file : Path)
    (args : ConnectArgs) :
    (run env file format args).Reports "connect" format ∧
      ((run env file format args).ending = .waiting → args.hold = true) := by
  rcases run_cases env file format args with ⟨⟨fault, hend⟩, hout, -⟩ | ⟨fresh, dir, -, -, hrun⟩
  · exact ⟨.silent (.inl ⟨fault, hend⟩) hout, fun hwaits => absurd (hend.symm.trans hwaits) nofun⟩
  · rw [hrun]
    exact reports_await h env args _

/-- **When the wait for a session does not survive.** -/
theorem overflow_await_iff (env : Environment) (format : OutputFormat) (args : ConnectArgs)
    (started : Host) : (await env format args started).ending = .overflow ↔
      env.reaches args.timeout = false := by
  unfold await
  dsimp only
  cases env.reaches args.timeout with
  | false => exact iff_of_true rfl rfl
  | true =>
    refine iff_of_false ?_ nofun
    rw [if_neg nofun]
    split
    · split
      · nofun
      · split
        · nofun
        · nofun
    · nofun
    · nofun
    · nofun

/-- A connection waits for its session, and the clock cannot count its limit. -/
def Outlasts (env : Environment) (file : Path) (args : ConnectArgs) : Prop :=
  env.reaches args.timeout = false ∧ ∃ fresh dir, env.startHost file = .ok fresh ∧
    directory env args.dir = some dir

/-- **When a connection does not survive.** -/
theorem overflow_iff (env : Environment) (file : Path) (format : OutputFormat)
    (args : ConnectArgs) : (run env file format args).ending = .overflow ↔
      Outlasts env file args := by
  rcases run_cases env file format args with
    ⟨⟨fault, hend⟩, -, hnever⟩ | ⟨fresh, dir, hstart, hdir, hrun⟩
  · refine iff_of_false (fun h => absurd (hend.symm.trans h) nofun) ?_
    rintro ⟨-, fresh, dir, hstart, hdir⟩
    exact absurd ((hnever fresh hstart).symm.trans hdir) nofun
  · rw [hrun, overflow_await_iff]
    exact ⟨fun hfar => ⟨hfar, fresh, dir, hstart, hdir⟩, fun h => h.1⟩

end Connect

/-! ## Settings -/

/-- **What a look at the settings or a change of them prints.** It comes to its end. -/
theorem Configure.reports_config (h : format ≠ .text) (env : Environment) (file : Path)
    (action : ConfigAction) :
    let outcome := run env file format action
    outcome.Reports "config" format ∧ outcome.ending ≠ .waiting ∧ outcome.ending ≠ .overflow := by
  intro outcome
  cases action with
  | view => exact ⟨.told (.inl rfl) (if_neg h), nofun, nofun⟩
  | set key value =>
    have houtcome : outcome = run env file format (.set key value) := rfl
    unfold run at houtcome
    dsimp only at houtcome
    rw [houtcome]
    split
    · exact ⟨.silent (.inl ⟨_, rfl⟩) rfl, nofun, nofun⟩
    · exact ⟨.told (.inl rfl) (if_neg h), nofun, nofun⟩

/-! ## Runs -/

/-- A command has to look at a limit that the clock cannot count: a connection once its host has
been told to connect, and an evaluation once it has been sent. -/
def Command.Outlasts (env : Environment) (file : Path) : Command → Prop
  | .eval args => Evaluate.Outlasts env file args
  | .connect args => Connect.Outlasts env file args
  | .config _ => False

/-- A command may hold the session that it has connected. -/
def Command.Holds (command : Command) : Prop :=
  ∃ args, command = .connect args ∧ args.hold = true

namespace Invocation

/-- **What an invocation prints**, as far as its command does. -/
theorem reports_run (invocation : Invocation) (env : Environment)
    (h : invocation.format ≠ .text) :
    (invocation.run env).Reports invocation.command.name invocation.format ∧
      ((invocation.run env).ending = .waiting → invocation.command.Holds) := by
  unfold run
  dsimp only
  cases hcommand : invocation.command with
  | eval args =>
    exact ⟨Evaluate.reports_eval h env _ args,
      fun hwaits => absurd hwaits (Evaluate.ending_ne_waiting env _ _ args)⟩
  | connect args =>
    obtain ⟨hreports, hholds⟩ := Connect.reports_connect h env (invocation.settingsFile env) args
    exact ⟨hreports, fun hwaits => ⟨args, rfl, hholds hwaits⟩⟩
  | config action =>
    obtain ⟨hreports, hended, -⟩ :=
      Configure.reports_config h env (invocation.settingsFile env) action
    exact ⟨hreports, fun hwaits => absurd hwaits hended⟩

/-- **When a run does not survive.** -/
theorem overflow_iff (invocation : Invocation) (env : Environment)
    (h : invocation.format ≠ .text) :
    (invocation.run env).ending = .overflow ↔
      invocation.command.Outlasts env (invocation.settingsFile env) := by
  unfold run
  dsimp only
  cases invocation.command with
  | eval args => exact Evaluate.overflow_iff env _ _ args
  | connect args => exact Connect.overflow_iff env _ _ args
  | config action => exact iff_of_false (Configure.reports_config h env _ action).2.2 id

end Invocation

section Runs

variable {words : List String} {invocation : Invocation}
  (reads : Invocation.read words = .ok invocation) (programs : invocation.format ≠ .text)

include reads

/-- A command line that has been read is carried out. -/
theorem Environment.run_of_read (env : Environment) : env.run words =
    .ofOutcome invocation.command.name invocation.format env.color (invocation.run env) := by
  unfold Environment.run
  rw [reads]

include programs

/-- **A run that does not survive prints nothing.** -/
theorem silent_of_outlasts
    (h : invocation.command.Outlasts env (invocation.settingsFile env)) :
    (env.run words).code = some RunResult.crashCode ∧ (env.run words).out = "" := by
  have hend := (invocation.overflow_iff env programs).mpr h
  rw [Environment.run_of_read reads]
  unfold RunResult.ofOutcome
  rw [hend]
  refine ⟨rfl, ?_⟩
  cases (invocation.reports_run env programs).1 with
  | told ends =>
    rcases ends with ends | ends
    all_goals exact absurd (ends.symm.trans hend) nofun
  | silent _ out => exact out

/-- **Every run prints exactly one envelope** where its output is meant for programs, unless it has
to look at a limit that the clock cannot count. It does not survive that, and prints nothing.

What is printed is one JSON value and a line feed, and without another line feed if it is to be on
one line. Where the run succeeds, or has connected a session that it holds on to, the envelope is of
what its command yields. Where it fails, it is of the fault. -/
theorem one_envelope_is_printed (env : Environment) :
    let result := env.run words
    let name := invocation.command.name
    let outlasts := invocation.command.Outlasts env (invocation.settingsFile env)
    (outlasts → result.code = some RunResult.crashCode ∧ result.out = "") ∧
    (¬ outlasts → ∃ text value, result.out.toList = text ++ ['\n'] ∧
      Raw.parse? text = some (Raw.ofJson value) ∧
      (invocation.format = .ndjson → '\n' ∉ text) ∧
      ((∃ data,
          value = .obj [("ok", .bool true), ("command", .str name), ("data", data)] ∧
          (result.code = some 0 ∨ result.code = none ∧ invocation.command.Holds)) ∨
        ∃ fault, (invocation.run env).ending = .failed fault ∧
          value = .obj [("ok", .bool false), ("command", .str name),
            ("error", .obj [("code", .str fault.code), ("message", .str fault.message)])] ∧
          result.code = some 1)) := by
  intro result name outlasts
  refine ⟨silent_of_outlasts reads programs, fun hsurvives => ?_⟩
  have hresult : result = _ := Environment.run_of_read reads env
  obtain ⟨hreports, hholds⟩ := invocation.reports_run env programs
  rw [hresult]
  unfold RunResult.ofOutcome
  cases hreports with
  | told ends out =>
    rename_i data
    obtain ⟨text, hprint, hparse, hline⟩ := (Envelope.success name data).print_spec programs
    have hout := (congrArg String.toList out).trans hprint
    rcases ends with ends | ends
    · rw [ends]
      exact ⟨text, _, hout, hparse, hline, .inl ⟨data, rfl, .inl rfl⟩⟩
    · have hheld := hholds ends
      rw [ends]
      exact ⟨text, _, hout, hparse, hline, .inl ⟨data, rfl, .inr ⟨rfl, hheld⟩⟩⟩
  | silent ends out =>
    rcases ends with ⟨fault, ends⟩ | ends
    · obtain ⟨text, hprint, hparse, hline⟩ := (Envelope.ofFault name fault).print_spec programs
      rw [ends]
      refine ⟨text, _, ?_, hparse, hline, .inr ⟨fault, rfl, rfl, rfl⟩⟩
      dsimp only
      rw [if_neg programs, out, String.empty_append]
      exact hprint
    · exact absurd ((invocation.overflow_iff env programs).mp ends) hsurvives

end Runs

/-- Where there are no files, a script cannot be read. -/
theorem canonical_script_of_no_files : ({} : Tree).canonical ⟨"s.fsx"⟩ = .error .notFound := by
  have hsteps : Tree.steps ⟨"s.fsx"⟩ = ["s.fsx"] := by decide
  have hspelled : ({} : Tree).resolveSpelled true ⟨"s.fsx"⟩ = .ok ["s.fsx"] := by
    unfold Tree.resolveSpelled
    rw [if_neg (by decide), if_neg (by decide), hsteps, Tree.walk]
    rfl
  unfold Tree.canonical
  rw [hspelled]
  rfl

/-- A script that is not there is reported, on one line. -/
theorem missing_script_has_an_envelope :
    let env := Environment.ofVariables {} none []
    let result := env.run ["-f", "ndjson", "eval", "s.fsx"]
    result.code = some 1 ∧ ∃ text, result.out.toList = text ++ ['\n'] ∧ '\n' ∉ text ∧
      Raw.parse? text = some (Raw.ofJson (.obj [("ok", .bool false), ("command", .str "eval"),
        ("error", .obj [("code", .str "DOCUMENT_UNREADABLE"),
          ("message", .str "cannot read s.fsx")])])) := by
  intro env result
  have hread : Invocation.read ["-f", "ndjson", "eval", "s.fsx"] =
      .ok { command := .eval { file := ⟨"s.fsx"⟩ }, format := .ndjson } := by decide +kernel
  have hload : Script.load env.tree { file := ⟨"s.fsx"⟩ } = .error (.document ⟨"s.fsx"⟩) := by
    unfold Script.load Script.read
    rw [show env.tree = {} from rfl, canonical_script_of_no_files]
    rfl
  have hrun : Invocation.run { command := .eval { file := ⟨"s.fsx"⟩ }, format := .ndjson } env =
      Outcome.ofFault env.tree (.document ⟨"s.fsx"⟩) :=
    Evaluate.run_of_load_error hload
  have hcode : result.code = some 1 := by
    rw [show result = _ from Environment.run_of_read hread env, hrun]
    rfl
  obtain ⟨-, hprinted⟩ := one_envelope_is_printed hread nofun env
  obtain ⟨text, value, hout, hparse, hline, hends⟩ := hprinted fun ⟨_, _, _, _, hok, _⟩ =>
    absurd (hload.symm.trans hok) nofun
  rcases hends with ⟨-, -, hzero | ⟨hnone, -⟩⟩ | ⟨fault, hfault, hvalue, -⟩
  · exact absurd (hcode.symm.trans hzero) nofun
  · exact absurd (hcode.symm.trans hnone) nofun
  · rw [hrun] at hfault
    obtain rfl : _ = fault := Ending.failed.inj hfault
    rw [hvalue] at hparse
    exact ⟨hcode, text, hout, hline rfl, hparse⟩

/-- A connection whose limit the clock cannot count leaves without an envelope, and with neither of
the codes that stand for success and failure. -/
theorem far_connection_has_no_envelope :
    let env := Environment.ofVariables {} none []
    let words := ["-f", "ndjson", "connect", "--timeout", "18446744073709551615"]
    (∃ invocation, Invocation.read words = .ok invocation ∧ invocation.format = .ndjson) ∧
      (env.run words).code = some 101 ∧ (env.run words).out = "" := by
  intro env words
  have hread : Invocation.read words =
      .ok { command := .connect { timeout := 18446744073709551615 }, format := .ndjson } := by
    decide +kernel
  have hfar : env.reaches 18446744073709551615 = false := by decide +kernel
  exact ⟨⟨_, hread, rfl⟩, silent_of_outlasts hread nofun ⟨hfar, _, _, rfl, rfl⟩⟩

end InlineRepl
