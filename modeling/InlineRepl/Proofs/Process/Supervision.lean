import InlineRepl.Process.Supervisor
import InlineRepl.Proofs.Text.Utf8

/-!
# What a supervisor tells shows what it reads

The happenings of one output, put together, show the bytes that have been read of it, but for an
unfinished character that is held back. Neither the cuts between the reads nor the other output make
a difference, and nothing is told after the exit.

Results:
* `step?_bytes`, `step?_close`, `step?_stop`, `step?_ended`: what each stir does, and when it can.
* `Shown.step`, `shown_run`: each stir, and so every run, keeps what is told true to what is read.
* `word_told_iff`: an ASCII word has been told of an output exactly when it has been read of it.
* `no_exit_before_end`: the exit is told when the process has ended, and not before.
-/

namespace InlineRepl

/-- The characters that a happening brings of an output. -/
def Output.heard : Output → Happening → List Char
  | .out, .stdout text => text.toList
  | .err, .stderr text => text.toList
  | _, _ => []

/-- The bytes that a stir brings of an output. -/
def Output.read (output : Output) : Stir → List UInt8
  | .bytes other read => if other = output then read else []
  | _ => []

@[simp] theorem Output.heard_happening (output other : Output) (text : String) :
    output.heard (other.happening text) = if other = output then text.toList else [] := by
  cases output <;> cases other <;> rfl

@[simp] theorem Output.heard_exit (output : Output) (code : Option Int) :
    output.heard (.exit code) = [] := by
  cases output <;> rfl

namespace Supervisor

open Text (Shows NoAscii asciiBytes IsAscii)

variable {s after : Supervisor} {stirs : List Stir} {stir : Stir}

/-- The bytes that have been read of an output. -/
def bytesRead (output : Output) (stirs : List Stir) : List UInt8 :=
  stirs.flatMap output.read

/-- The characters that have been told of an output. -/
def heard (output : Output) (told : List Happening) : List Char :=
  told.flatMap output.heard

theorem bytesRead_snoc (output : Output) :
    bytesRead output (stirs ++ [stir]) = bytesRead output stirs ++ output.read stir := by
  simp [bytesRead]

theorem heard_snoc {told : List Happening} {happening : Happening} (output : Output) :
    heard output (told ++ [happening]) = heard output told ++ output.heard happening := by
  simp [heard]

@[simp] theorem output_tell (output other : Output) (text : Option String) :
    (s.tell other text).output output = s.output output := by
  cases output <;> rfl

theorem output_setOutput (output other : Output) (state : OutputState) :
    (s.setOutput state other).output output =
      if other = output then state else s.output output := by
  cases output <;> cases other <;> rfl

theorem heard_tell (output other : Output) (text : Option String) :
    heard output (s.tell other text).told =
      heard output s.told ++ if other = output then Text.Chunks.given text else [] := by
  unfold tell
  cases text with
  | none => simp [Text.Chunks.given]
  | some text =>
    show heard output (s.told ++ [other.happening text]) = _
    rw [heard_snoc, Output.heard_happening]
    rfl

@[simp] theorem told_setOutput (other : Output) (state : OutputState) :
    (s.setOutput state other).told = s.told := by
  cases other <;> rfl

/-! ## One stir -/

section Step

variable {output : Output} {read : List UInt8} {code : Option Int}

/-- Bytes are read of an open output and go through its decoder. -/
theorem step?_bytes : s.step? (.bytes output read) = some after ↔
    (s.finished = false ∧ (s.output output).isOpen = true ∧ read ≠ []) ∧
      after = (s.setOutput
        { isOpen := true, text := ((s.output output).text.push read).2 } output).tell output
          ((s.output output).text.push read).1 := by
  simp only [step?, Option.ite_none_right_eq_some, Option.some.injEq]
  exact and_congr_right fun _ => eq_comm

/-- An open output ends, and its decoder gives out what it has held back. -/
theorem step?_close : s.step? (.close output) = some after ↔
    (s.finished = false ∧ (s.output output).isOpen = true) ∧
      after = (s.setOutput { isOpen := false } output).tell output
        (s.output output).text.finish := by
  simp only [step?, Option.ite_none_right_eq_some, Option.some.injEq]
  exact and_congr_right fun _ => eq_comm

/-- A request to end is passed on once. -/
theorem step?_stop : s.step? .stop = some after ↔
    (s.finished = false ∧ s.heeds = true) ∧
      after = { s with heeds := false, asked := s.asked + 1 } := by
  simp only [step?, Option.ite_none_right_eq_some, Option.some.injEq]
  exact and_congr_right fun _ => eq_comm

/-- The end is noticed when both outputs have ended. -/
theorem step?_ended : s.step? (.ended code) = some after ↔
    (s.finished = false ∧ s.out.isOpen = false ∧ s.err.isOpen = false) ∧
      after = { s with finished := true, told := s.told ++ [.exit code] } := by
  simp only [step?, Option.ite_none_right_eq_some, Option.some.injEq]
  exact and_congr_right fun _ => eq_comm

end Step

/-! ## One output -/

/-- **What has been told of an output shows the bytes read of it**, the decoder holding the bytes
that are still missing. -/
def Shown (output : Output) (stirs : List Stir) (s : Supervisor) : Prop :=
  ∃ done pending, bytesRead output stirs = done ++ pending ∧
    Shows done (heard output s.told) ∧ (s.output output).text.state.Holds pending

theorem shown_start (output : Output) : Shown output [] {} := by
  refine ⟨[], [], rfl, .nil, ?_⟩
  cases output <;> exact Text.Utf8.holds_ready

/-- A stir that brings an output no bytes, tells nothing of it and leaves its decoder keeps what is
shown. -/
theorem Shown.of_silent {output : Output} (h : Shown output stirs s)
    (hread : output.read stir = []) (htold : heard output after.told = heard output s.told)
    (hstate : (after.output output).text = (s.output output).text) :
    Shown output (stirs ++ [stir]) after := by
  obtain ⟨done, pending, hb, hs, hp⟩ := h
  refine ⟨done, pending, ?_, ?_, ?_⟩
  · rw [bytesRead_snoc, hread, List.append_nil, hb]
  · rw [htold]
    exact hs
  · rw [hstate]
    exact hp

/-- **A stir keeps what is told true to what is read.** -/
theorem Shown.step {output : Output} (h : Shown output stirs s)
    (hstep : s.step? stir = some after) :
    Shown output (stirs ++ [stir]) after := by
  cases stir with
  | bytes other read =>
    obtain ⟨-, rfl⟩ := step?_bytes.mp hstep
    by_cases ho : other = output
    · subst ho
      obtain ⟨done, pending, hb, hs, hp⟩ := h
      obtain ⟨more, kept, hmore, hsm, hk⟩ := Text.Chunks.push_shows hp read
      refine ⟨done ++ more, kept, ?_, ?_, ?_⟩
      · rw [bytesRead_snoc, hb, Output.read, if_pos rfl, List.append_assoc, hmore,
          List.append_assoc]
      · rw [heard_tell, if_pos rfl, told_setOutput]
        exact hs.append hsm
      · rw [output_tell, output_setOutput, if_pos rfl]
        exact hk
    · refine h.of_silent (if_neg ho) ?_ ?_
      · rw [heard_tell, if_neg ho, List.append_nil, told_setOutput]
      · rw [output_tell, output_setOutput, if_neg ho]
  | close other =>
    obtain ⟨-, rfl⟩ := step?_close.mp hstep
    by_cases ho : other = output
    · subst ho
      obtain ⟨done, pending, hb, hs, hp⟩ := h
      refine ⟨done ++ pending, [], ?_, ?_, ?_⟩
      · rw [bytesRead_snoc, hb]
        rfl
      · rw [heard_tell, if_pos rfl, told_setOutput]
        exact hs.append (Text.Chunks.finish_shows hp)
      · rw [output_tell, output_setOutput, if_pos rfl]
        exact Text.Utf8.holds_ready
    · refine h.of_silent rfl ?_ ?_
      · rw [heard_tell, if_neg ho, List.append_nil, told_setOutput]
      · rw [output_tell, output_setOutput, if_neg ho]
  | stop =>
    obtain ⟨-, rfl⟩ := step?_stop.mp hstep
    exact h.of_silent rfl rfl (by cases output <;> rfl)
  | ended code =>
    obtain ⟨-, rfl⟩ := step?_ended.mp hstep
    refine h.of_silent rfl ?_ (by cases output <;> rfl)
    rw [heard_snoc, Output.heard_exit, List.append_nil]

/-! ## Runs -/

theorem run?_cons : s.run? (stir :: stirs) = (s.step? stir).bind fun next => next.run? stirs := by
  rw [run?]
  cases s.step? stir <;> rfl

theorem run?_append {more : List Stir} :
    s.run? (stirs ++ more) = (s.run? stirs).bind fun next => next.run? more := by
  induction stirs generalizing s with
  | nil => rfl
  | cons stir stirs ih =>
    rw [List.cons_append, run?_cons, run?_cons, Option.bind_assoc]
    exact Option.bind_congr fun next _ => ih

/-- A last stir comes after a run of the others. -/
theorem run?_snoc : s.run? (stirs ++ [stir]) = some after ↔
    ∃ before, s.run? stirs = some before ∧ before.step? stir = some after := by
  rw [run?_append, Option.bind_eq_some_iff]
  refine exists_congr fun before => and_congr_right fun _ => ?_
  rw [run?_cons, Option.bind_eq_some_iff]
  simp [run?]

/-- **Every run keeps what is told true to what is read**, for each output by itself. -/
theorem shown_run (output : Output) (h : ({} : Supervisor).run? stirs = some s) :
    Shown output stirs s := by
  induction stirs using List.reverseRecOn generalizing s with
  | nil =>
    obtain rfl := Option.some.inj h
    exact shown_start output
  | append_singleton stirs stir ih =>
    obtain ⟨before, hrun, hstep⟩ := run?_snoc.mp h
    exact (ih hrun).step hstep

/-- **An ASCII word has been told of an output** exactly when it has been read of it. -/
theorem word_told_iff (output : Output) (h : ({} : Supervisor).run? stirs = some s)
    {word : List Char} (ha : IsAscii word) (hne : word ≠ []) :
    word <:+: heard output s.told ↔ asciiBytes word <:+: bytesRead output stirs := by
  obtain ⟨done, pending, hb, hs, hp⟩ := shown_run output h
  rw [hb, Text.word_append_iff hp.noAscii ha hne, hs.word_iff ha hne]

/-! ## The exit -/

/-- **The exit is not told before the end**: as long as it has not finished, a supervisor tells of
nothing but its outputs. -/
theorem no_exit_before_end {start : Supervisor} (quiet : start.told = [])
    (h : start.run? stirs = some s) (hf : s.finished = false) {happening : Happening}
    (hm : happening ∈ s.told) : ∃ output text, happening = Output.happening output text := by
  induction stirs using List.reverseRecOn generalizing s with
  | nil =>
    obtain rfl := Option.some.inj h
    rw [quiet] at hm
    exact absurd hm List.not_mem_nil
  | append_singleton stirs stir ih =>
    obtain ⟨before, hrun, hstep⟩ := run?_snoc.mp h
    have htell : ∀ (next : Supervisor) (output : Output) (text : Option String),
        next.told = before.told → before.finished = false →
        happening ∈ (next.tell output text).told →
          ∃ output text, happening = Output.happening output text := by
      intro next output text htold hb hm
      unfold tell at hm
      rw [htold] at hm
      rcases List.mem_append.mp hm with hm | hm
      · exact ih hrun hb hm
      · obtain ⟨text, -, rfl⟩ := Option.map_eq_some_iff.mp (Option.mem_toList.mp hm)
        exact ⟨output, text, rfl⟩
    cases stir with
    | bytes other read =>
      obtain ⟨hc, rfl⟩ := step?_bytes.mp hstep
      exact htell _ _ _ (told_setOutput _ _) hc.1 hm
    | close other =>
      obtain ⟨hc, rfl⟩ := step?_close.mp hstep
      exact htell _ _ _ (told_setOutput _ _) hc.1 hm
    | stop =>
      obtain ⟨hc, rfl⟩ := step?_stop.mp hstep
      exact ih hrun hc.1 hm
    | ended code =>
      obtain ⟨-, rfl⟩ := step?_ended.mp hstep
      exact absurd hf (by simp)

end Supervisor

end InlineRepl
