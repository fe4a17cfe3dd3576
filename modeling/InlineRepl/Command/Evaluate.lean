import InlineRepl.Command.Environment
import InlineRepl.Command.Loading
import InlineRepl.Report.Basic
import InlineRepl.Report.Envelope

/-!
# Evaluating from the command line

The script is loaded and sent, then responses are collected until none has come for a while. A popup
decides the run: nothing is reported then. Reaching the limit with nothing to show is a timeout.
-/

namespace InlineRepl.Evaluate

/-! ## Waiting -/

/-- How the wait for responses ended. -/
inductive Verdict where
  | settled
  | timedOut
  | waiting
  deriving Repr, DecidableEq

/-- A popup has been shown. -/
def hasPopup (screen : Screen) (host : Host) : Bool :=
  (screen.terminal host).firstPopup.isSome

/-- Some result or watch value has come. -/
def hasResponse (screen : Screen) (host : Host) : Bool :=
  decide (0 < (screen.terminal host).responses)

/-- A quiet moment ends the wait: no session is left, or there are responses and no session is still
starting. -/
def restful (screen : Screen) (host : Host) : Bool :=
  host.registry.isEmpty || (hasResponse screen host && !host.registry.anyConnecting)

/-- Collects responses from a time on, until the wait ends. The answer has the time of its end. -/
def settle (screen : Screen) (host : Host) (time : Nat) :
    List (Nat × Moment) → Verdict × Host × Nat
  | [] => (if hasPopup screen host then .settled else .waiting, host, time)
  | (next, moment) :: moments =>
    if hasPopup screen host then (.settled, host, time)
    else
      match moment with
      | .limit => (if hasResponse screen host then .settled else .timedOut, host, next)
      | .event event => settle screen (host.handleEvent event) next moments
      | .quiet =>
        if restful screen host then (.settled, host, next) else settle screen host next moments

/-! ## Reporting -/

/-- The name of the file that holds the picture of a line, which counts from one. -/
def imageName (line : UInt32) : Path :=
  ⟨"line-" ++ toString line.toNat ++ ".png"⟩

/-- The row of one result. A picture is written to a file, if there is a directory for it. -/
def row (images : Option Path) (tree : Tree) (anchor : Anchor) (result : InlineResult) :
    Except FileFault (ReportRow × Tree) :=
  let line := anchor.line + 1
  let startLine := anchor.startLine + 1
  match result, images with
  | .text text, _ => .ok ({ line, startLine, value := .text text }, tree)
  | .exception text, _ => .ok ({ line, startLine, value := .exception text }, tree)
  | .image bytes, none => .ok ({ line, startLine, value := .image bytes.length none }, tree)
  | .image bytes, some dir => do
    let file := dir.join (imageName line)
    let tree ← tree.writeBytes file bytes
    return ({ line, startLine, value := .image bytes.length (some file.text) }, tree)

/-- The rows of results, in order. The files that were written stay, even when a later one cannot
be. -/
def rows (images : Option Path) :
    Tree → List (Anchor × InlineResult) → Except FileFault (List ReportRow) × Tree
  | tree, [] => (.ok [], tree)
  | tree, (anchor, result) :: results =>
    match row images tree anchor result with
    | .error fault => (.error fault, tree)
    | .ok (first, tree) =>
      match rows images tree results with
      | (.error fault, tree) => (.error fault, tree)
      | (.ok rest, tree) => (.ok (first :: rest), tree)

/-- The report of what a terminal has heard. -/
def report (terminal : Terminal) (file : Path) (images : Option Path) (tree : Tree) :
    Except FileFault Report × Tree :=
  match (images.map tree.makeAll).getD (.ok tree) with
  | .error fault => (.error fault, tree)
  | .ok tree =>
    match rows images tree (terminal.board.resultsOf Script.documentId) with
    | (.error fault, tree) => (.error fault, tree)
    | (.ok results, tree) =>
      (.ok
        { file := file.text
          results
          watches := (terminal.board.valuesOf Script.documentId).map fun entry =>
            { id := entry.1.name, value := entry.2 }
          printed := terminal.printed.map fun entry =>
            { file := entry.file, message := entry.content } },
        tree)

/-- A report in the given format. -/
def print (report : Report) (color : Bool) (format : OutputFormat) : String :=
  if format = .text then report.render color
  else (Envelope.success "eval" report.toJson).print format

/-! ## Running -/

/-- The end of a run whose responses have settled: the sessions are ended, then the first popup or
else the report is what the run amounts to. `tree` is what the run has left behind up to then. -/
def conclude (tree : Tree) (screen : Screen) (format : OutputFormat) (args : EvalArgs)
    (doc : Document) (host : Host) : Outcome :=
  let terminal := screen.terminal host.shutdown
  match terminal.firstPopup with
  | some header => Outcome.ofTerminal terminal tree (.failed (.aborted header))
  | none =>
    match report terminal (doc.path.getD args.file) args.images tree with
    | (.error fault, tree) => Outcome.ofTerminal terminal tree (.failed (.internal fault.message))
    | (.ok report, tree) =>
      { ending := .done
        tree
        out := terminal.out ++ print report screen.color format
        err := terminal.err }

/-- Carries an evaluation out. -/
def run (env : Environment) (file : Path) (format : OutputFormat) (args : EvalArgs) : Outcome :=
  match Script.load env.tree args with
  | .error fault => Outcome.ofFault env.tree fault
  | .ok (doc, scope) =>
    match env.startHost file with
    | .error fault => Outcome.ofFault env.tree (.session fault)
    | .ok host =>
      let screen : Screen := { echo := format = .text, color := env.color }
      match host.evaluate env.around doc scope with
      | (.error fault, host) =>
        let terminal := screen.terminal host
        Outcome.ofTerminal terminal env.tree
          (.failed ((terminal.firstPopup.map CommandFault.aborted).getD (.session fault)))
      | (.ok (), host) =>
        if env.reaches args.timeout = false then
          Outcome.ofTerminal (screen.terminal host) env.tree .overflow
        else
          match settle screen host 0
              (env.moments host args.idle.toNat (args.timeout.toNat * 1000)) with
          | (verdict, settled, time) =>
            let tree := env.treeAt host time
            match verdict with
            | .settled => conclude tree screen format args doc settled
            | .timedOut =>
              Outcome.ofTerminal (screen.terminal settled) tree
                (.failed (.timeout (shownLimit args.timeout) "evaluation results"))
            | .waiting => Outcome.ofTerminal (screen.terminal settled) tree .waiting

end InlineRepl.Evaluate
