import InlineRepl.Command.Environment
import InlineRepl.Proofs.Command.Report
import InlineRepl.Proofs.Host.Opening

/-!
# What a terminal has shown

A terminal shows a popup when it is told to, and at no other time. Its standard output holds the
prints, if they are echoed, and nothing else: whatever it hears, a terminal that does not echo
leaves standard output to its command.

Results:
* `popups_ofCalls`: the popups of a terminal are those of the calls that it has heard.
* `Echoes.hear`, `Echoes.foldl`: standard output holds the echoed prints, whatever is heard.
* `out_ofCalls`: what is on standard output.
* `Opening.unprinted`: the first evaluation that is sent has printed nothing.
-/

namespace InlineRepl

/-- Prints as they are echoed, a line for each. -/
def LogEntry.echoed (entries : List LogEntry) : String :=
  String.join (entries.map fun entry => entry.content ++ "\n")

theorem LogEntry.echoed_snoc (entries : List LogEntry) (entry : LogEntry) :
    echoed (entries ++ [entry]) = echoed entries ++ entry.content ++ "\n" := by
  unfold echoed
  rw [List.map_append, String.join_append]
  simp [String.join, String.append_assoc]

namespace Terminal

variable {t : Terminal} {echo : Bool} {calls : List Call}

/-! ## Popups -/

theorem popups_hear (t : Terminal) (call : Call) :
    (t.hear call).popups = t.popups ++ call.popup?.toList := by
  cases call with
  | popup => rfl
  | beginWorking label =>
    unfold hear
    dsimp only
    split <;> exact (List.append_nil _).symm
  | _ => exact (List.append_nil _).symm

theorem popups_foldl (calls : List Call) (t : Terminal) :
    (calls.foldl hear t).popups = t.popups ++ calls.filterMap Call.popup? := by
  induction calls generalizing t with
  | nil => exact (List.append_nil _).symm
  | cons call calls ih =>
    rw [List.foldl_cons, ih, popups_hear, List.append_assoc]
    simp only [List.filterMap_eq_flatMap_toList, List.flatMap_cons]

/-- **The popups of a terminal** are those of the calls that it has heard. -/
theorem popups_ofCalls (echo color : Bool) (calls : List Call) :
    (ofCalls echo color calls).popups = calls.filterMap Call.popup? :=
  (popups_foldl calls _).trans (List.nil_append _)

/-! ## Standard output -/

/-- Standard output holds the prints if they are echoed, and nothing else. -/
structure Echoes (echo : Bool) (t : Terminal) : Prop where
  setting : t.echo = echo
  out : t.out = if echo then LogEntry.echoed t.printed else ""

theorem echoes_start (echo color : Bool) : Echoes echo { echo, color } where
  setting := rfl
  out := by cases echo <;> rfl

theorem Echoes.complain (h : t.Echoes echo) (line : String) : (t.complain line).Echoes echo :=
  ⟨h.setting, h.out⟩

/-- **Standard output holds the echoed prints**, whatever a terminal hears. -/
theorem Echoes.hear (h : t.Echoes echo) (call : Call) : (t.hear call).Echoes echo := by
  cases call with
  | beginWorking label =>
    unfold Terminal.hear
    dsimp only
    split
    · exact ⟨h.setting, h.out⟩
    · exact ⟨h.setting, h.out⟩
  | log entry =>
    refine ⟨h.setting, ?_⟩
    show (if t.echo then t.out ++ entry.content ++ "\n" else t.out) = _
    rw [h.setting, h.out]
    cases echo with
    | false => rfl
    | true => exact (LogEntry.echoed_snoc t.printed entry).symm
  | _ => exact ⟨h.setting, h.out⟩

theorem Echoes.foldl (h : t.Echoes echo) (calls : List Call) :
    (calls.foldl Terminal.hear t).Echoes echo := by
  induction calls generalizing t with
  | nil => exact h
  | cons call calls ih => exact ih (h.hear call)

theorem echoes_ofCalls (echo color : Bool) (calls : List Call) :
    (ofCalls echo color calls).Echoes echo :=
  (echoes_start echo color).foldl calls

/-- **What is on standard output**: the prints, in the order they came, if they are echoed. -/
theorem out_ofCalls (echo color : Bool) (calls : List Call) : (ofCalls echo color calls).out =
    if echo then LogEntry.echoed (calls.filterMap Call.entry?) else "" := by
  rw [(echoes_ofCalls echo color calls).out, printed_ofCalls]

end Terminal

/-- Where the first evaluation is sent, nothing has been printed. -/
theorem Host.Opening.unprinted {host : Host} {around : Surroundings} {evaluation : Evaluation}
    {after : Except SessionFault Unit × Host} (h : host.Opening around evaluation after)
    (sent : after.1 = .ok ()) : after.2.calls.filterMap Call.entry? = [] := by
  cases h with
  | launched _ _ calls =>
    rw [calls]
    rfl
  | waiting _ _ calls =>
    rw [calls]
    rfl
  | refused unsent => exact absurd (sent.symm.trans unsent) nofun

end InlineRepl
