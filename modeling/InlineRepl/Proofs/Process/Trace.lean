import InlineRepl.Proofs.Process.Supervision
import InlineRepl.Proofs.Text.Chunking

/-!
# The trace of a supervisor

Reads of the two outputs, their ends, a request to end the process and the end itself come in any
order that `Supervisor.step?` admits: the request before, between or after the ends of the outputs,
or not at all, and one output may end, or fail, long before the other. Of each output, what is told
depends only on the chunks read of it: they go through a decoder of their own, in order, and the end
of the output makes the decoder give out what it has held back. The exit comes last, so nothing that
was read is missing when it is told.

A process may have been started without one of its outputs. Such an output has ended from the start.

Results:
* `Decodes.step`, `decodes_run`: every stir, and so every run, keeps this of each output.
* `asked_run`: the process is asked to end once for each request heard, and one is heard at most.
* `exists_end`: a supervisor can be brought to its end from wherever it stands.
* `trace_of_every_run`: what every run leaves behind, for the outputs and as a whole.
-/

namespace InlineRepl

/-- The output that a stir comes from. -/
def Stir.output? : Stir → Option Output
  | .bytes output _ => some output
  | .close output => some output
  | .stop | .ended _ => none

namespace Output

/-- The chunk that a stir brings of an output. -/
def chunk? (output : Output) : Stir → Option (List UInt8)
  | .bytes other read => if other = output then some read else none
  | _ => none

/-- The text that a happening brings of an output. -/
def text? : Output → Happening → Option String
  | .out, .stdout text => some text
  | .err, .stderr text => some text
  | _, _ => none

@[simp] theorem text?_happening (output other : Output) (text : String) :
    output.text? (other.happening text) = if other = output then some text else none := by
  cases output <;> cases other <;> rfl

@[simp] theorem text?_exit (output : Output) (code : Option Int) :
    output.text? (.exit code) = none := by
  cases output <;> rfl

theorem chunk?_of_other {output : Output} {stir : Stir} (h : stir.output? ≠ some output) :
    output.chunk? stir = none := by
  cases stir with
  | bytes other read => exact if_neg fun he => h (congrArg some he)
  | _ => rfl

/-- An output has ended: it was closed, and nothing has come of it afterwards. -/
def EndsIn (output : Output) (stirs : List Stir) : Prop :=
  ∃ before behind, stirs = before ++ .close output :: behind ∧
    ∀ stir ∈ behind, stir.output? ≠ some output

variable {output : Output} {stirs : List Stir} {stir : Stir}

theorem endsIn_close (output : Output) (stirs : List Stir) :
    output.EndsIn (stirs ++ [.close output]) :=
  ⟨stirs, [], rfl, by simp⟩

theorem EndsIn.snoc (h : output.EndsIn stirs) (hs : stir.output? ≠ some output) :
    output.EndsIn (stirs ++ [stir]) := by
  obtain ⟨before, behind, rfl, hbehind⟩ := h
  refine ⟨before, behind ++ [stir], by simp, fun other hm => ?_⟩
  rcases List.mem_append.mp hm with hm | hm
  · exact hbehind other hm
  · rw [List.mem_singleton.mp hm]
    exact hs

end Output

namespace Supervisor

open Text (Chunks)

variable {s after : Supervisor} {stirs : List Stir} {stir : Stir} {output : Output}

/-- A supervisor of a process that has the given outputs. -/
def watching (present : Output → Bool) : Supervisor :=
  { out := { isOpen := present .out }, err := { isOpen := present .err } }

/-- The chunks that have been read of an output, in order. -/
def chunks (output : Output) (stirs : List Stir) : List (List UInt8) :=
  stirs.filterMap output.chunk?

/-- The texts that have been told of an output, in order. -/
def texts (output : Output) (told : List Happening) : List String :=
  told.filterMap output.text?

theorem chunks_snoc (output : Output) (stirs : List Stir) (stir : Stir) :
    chunks output (stirs ++ [stir]) = chunks output stirs ++ (output.chunk? stir).toList := by
  unfold chunks
  rw [List.filterMap_append]
  cases hc : output.chunk? stir <;> simp [hc]

theorem chunks_of_other (hs : stir.output? ≠ some output) :
    chunks output (stirs ++ [stir]) = chunks output stirs := by
  rw [chunks_snoc, Output.chunk?_of_other hs]
  simp

theorem texts_exit (output : Output) (told : List Happening) (code : Option Int) :
    texts output (told ++ [.exit code]) = texts output told := by
  simp [texts]

theorem texts_tell (output other : Output) (text : Option String) :
    texts output (s.tell other text).told =
      texts output s.told ++ if other = output then text.toList else [] := by
  unfold tell texts
  rw [List.filterMap_append]
  cases text with
  | none => simp
  | some text => by_cases ho : other = output <;> simp [ho]

/-! ## One output -/

/-- **One output, against what was read of it.** While it is open, its own decoder has taken the
chunks that were read, in order, and what was told is what the decoder gave out for them. Once it
has ended, what was held back has been told too. -/
structure Decodes (present : Bool) (output : Output) (stirs : List Stir) (s : Supervisor) :
    Prop where
  reading : (s.output output).isOpen = true → present = true ∧
    (s.output output).text = ({} : Chunks).after (chunks output stirs) ∧
      texts output s.told = ({} : Chunks).pushed (chunks output stirs)
  ended : (s.output output).isOpen = false → (present = true → output.EndsIn stirs) ∧
    texts output s.told = ({} : Chunks).texts (chunks output stirs)

theorem decodes_start (present : Output → Bool) (output : Output) :
    Decodes (present output) output [] (watching present) := by
  have hopen : ((watching present).output output).isOpen = present output := by
    cases output <;> rfl
  have htext : ((watching present).output output).text = {} := by
    cases output <;> rfl
  constructor
  · intro ho
    exact ⟨hopen.symm.trans ho, htext, rfl⟩
  · intro hc
    refine ⟨fun hp => ?_, rfl⟩
    rw [hopen, hp] at hc
    exact absurd hc (by simp)

/-- A stir that does not come from an output, and tells nothing of it, leaves it as it is. -/
theorem Decodes.of_other {present : Bool} (h : Decodes present output stirs s)
    (hs : stir.output? ≠ some output) (hstate : after.output output = s.output output)
    (htold : texts output after.told = texts output s.told) :
    Decodes present output (stirs ++ [stir]) after := by
  constructor
  · rw [hstate, chunks_of_other hs, htold]
    exact h.reading
  · rw [hstate, chunks_of_other hs, htold]
    intro hc
    exact ⟨fun hp => ((h.ended hc).1 hp).snoc hs, (h.ended hc).2⟩

/-- **A stir takes the decoder of its own output on**, and no other. -/
theorem Decodes.step {present : Bool} (h : Decodes present output stirs s)
    (hstep : s.step? stir = some after) : Decodes present output (stirs ++ [stir]) after := by
  cases stir with
  | bytes other read =>
    obtain ⟨⟨-, hopen, -⟩, rfl⟩ := step?_bytes.mp hstep
    by_cases ho : other = output
    · subst ho
      obtain ⟨hp, htext, htold⟩ := h.reading hopen
      have hchunks : chunks other (stirs ++ [.bytes other read]) =
          chunks other stirs ++ [read] := by
        rw [chunks_snoc]
        simp [Output.chunk?]
      constructor
      · intro _
        refine ⟨hp, ?_, ?_⟩
        · rw [output_tell, output_setOutput, if_pos rfl, hchunks, Chunks.after_snoc, ← htext]
        · rw [texts_tell, if_pos rfl, told_setOutput, hchunks, Chunks.pushed_snoc, ← htext, htold]
      · intro hc
        rw [output_tell, output_setOutput, if_pos rfl] at hc
        exact absurd hc (by simp)
    · refine h.of_other (by simpa [Stir.output?] using ho) ?_ ?_
      · rw [output_tell, output_setOutput, if_neg ho]
      · rw [texts_tell, if_neg ho, List.append_nil, told_setOutput]
  | close other =>
    obtain ⟨⟨-, hopen⟩, rfl⟩ := step?_close.mp hstep
    by_cases ho : other = output
    · subst ho
      obtain ⟨hp, htext, htold⟩ := h.reading hopen
      have hchunks : chunks other (stirs ++ [.close other]) = chunks other stirs := by
        rw [chunks_snoc]
        simp [Output.chunk?]
      constructor
      · intro hc
        rw [output_tell, output_setOutput, if_pos rfl] at hc
        exact absurd hc (by simp)
      · intro _
        refine ⟨fun _ => Output.endsIn_close other stirs, ?_⟩
        rw [texts_tell, if_pos rfl, told_setOutput, hchunks, Chunks.texts_eq, htold, htext]
    · refine h.of_other (by simpa [Stir.output?] using ho) ?_ ?_
      · rw [output_tell, output_setOutput, if_neg ho]
      · rw [texts_tell, if_neg ho, List.append_nil, told_setOutput]
  | stop =>
    obtain ⟨-, rfl⟩ := step?_stop.mp hstep
    exact h.of_other (by simp [Stir.output?]) (by cases output <;> rfl) rfl
  | ended code =>
    obtain ⟨-, rfl⟩ := step?_ended.mp hstep
    exact h.of_other (by simp [Stir.output?]) (by cases output <;> rfl) (texts_exit _ _ _)

variable {present : Output → Bool}

/-- **Every run decodes each output by itself.** -/
theorem decodes_run (output : Output) (h : (watching present).run? stirs = some s) :
    Decodes (present output) output stirs s := by
  induction stirs using List.reverseRecOn generalizing s with
  | nil =>
    obtain rfl := Option.some.inj h
    exact decodes_start present output
  | append_singleton stirs stir ih =>
    obtain ⟨before, hrun, hstep⟩ := run?_snoc.mp h
    exact (ih hrun).step hstep

/-! ## Requests to end the process -/

section Fields

variable (state : OutputState) (text : Option String)

/-- What comes of an output changes neither how often the process was asked, nor whether it may be
asked again, nor whether it has ended. -/
theorem outputs_apart (s : Supervisor) (output : Output) :
    ((s.setOutput state output).tell output text).asked = s.asked ∧
      ((s.setOutput state output).tell output text).heeds = s.heeds ∧
      ((s.setOutput state output).tell output text).finished = s.finished := by
  cases output <;> exact ⟨rfl, rfl, rfl⟩

end Fields

/-- **The process is asked to end once for each request that is heard**, and a supervisor that has
heard one hears no other. -/
theorem asked_run (h : (watching present).run? stirs = some s) :
    s.asked = stirs.count .stop ∧ s.asked = if s.heeds then 0 else 1 := by
  have hkeep : ∀ {before : Supervisor} (after : Supervisor) {stirs : List Stir} {stir : Stir},
      (before.asked = stirs.count .stop ∧ before.asked = if before.heeds then 0 else 1) →
      stir ≠ .stop → after.asked = before.asked → after.heeds = before.heeds →
      after.asked = (stirs ++ [stir]).count .stop ∧ after.asked = if after.heeds then 0 else 1 := by
    intro before after stirs stir hb hne hasked hheeds
    rw [hasked, hheeds, List.count_append, List.count_singleton]
    simpa [hne] using hb
  induction stirs using List.reverseRecOn generalizing s with
  | nil =>
    obtain rfl := Option.some.inj h
    exact ⟨rfl, rfl⟩
  | append_singleton stirs stir ih =>
    obtain ⟨before, hrun, hstep⟩ := run?_snoc.mp h
    cases stir with
    | bytes other read =>
      obtain ⟨-, rfl⟩ := step?_bytes.mp hstep
      obtain ⟨hasked, hheeds, -⟩ := outputs_apart _ _ before other
      exact hkeep _ (ih hrun) (by simp) hasked hheeds
    | close other =>
      obtain ⟨-, rfl⟩ := step?_close.mp hstep
      obtain ⟨hasked, hheeds, -⟩ := outputs_apart _ _ before other
      exact hkeep _ (ih hrun) (by simp) hasked hheeds
    | stop =>
      obtain ⟨⟨-, hheeds⟩, rfl⟩ := step?_stop.mp hstep
      obtain ⟨hcount, hasked⟩ := ih hrun
      rw [hheeds, if_pos rfl] at hasked
      simp [← hcount, hasked]
    | ended code =>
      obtain ⟨-, rfl⟩ := step?_ended.mp hstep
      exact hkeep _ (ih hrun) (by simp) rfl rfl

/-! ## The end -/

/-- **A run that has finished ends with the end of the process**, which is noticed when both outputs
have ended, and is told last. -/
theorem finished_last (h : (watching present).run? stirs = some s) (hf : s.finished = true) :
    ∃ before code last, stirs = before ++ [.ended code] ∧
      (watching present).run? before = some last ∧ last.finished = false ∧
      (∀ output, (last.output output).isOpen = false) ∧ s.told = last.told ++ [.exit code] := by
  rcases List.eq_nil_or_concat stirs with rfl | ⟨before, stir, rfl⟩
  · obtain rfl := Option.some.inj h
    exact absurd hf (by simp [watching])
  rw [List.concat_eq_append] at h ⊢
  obtain ⟨last, hrun, hstep⟩ := run?_snoc.mp h
  cases stir with
  | bytes other read =>
    obtain ⟨hc, rfl⟩ := step?_bytes.mp hstep
    rw [(outputs_apart _ _ last other).2.2, hc.1] at hf
    exact absurd hf (by simp)
  | close other =>
    obtain ⟨hc, rfl⟩ := step?_close.mp hstep
    rw [(outputs_apart _ _ last other).2.2, hc.1] at hf
    exact absurd hf (by simp)
  | stop =>
    obtain ⟨hc, rfl⟩ := step?_stop.mp hstep
    exact absurd (hf.symm.trans hc.1) (by simp)
  | ended code =>
    obtain ⟨⟨hlast, hout, herr⟩, rfl⟩ := step?_ended.mp hstep
    refine ⟨before, code, last, rfl, hrun, hlast, fun output => ?_, rfl⟩
    cases output
    · exact hout
    · exact herr

/-- A supervisor that has finished takes no further stir. -/
theorem step?_finished (hf : s.finished = true) (stir : Stir) : s.step? stir = none := by
  cases stir <;> simp [step?, hf]

/-- An output can be brought to its end, and no other is opened by it. -/
theorem exists_close (s : Supervisor) (output : Output) (hf : s.finished = false) :
    ∃ more next, s.run? more = some next ∧ next.finished = false ∧
      (next.output output).isOpen = false ∧
      ∀ other, (s.output other).isOpen = false → (next.output other).isOpen = false := by
  cases hopen : (s.output output).isOpen with
  | false => exact ⟨[], s, rfl, hf, hopen, fun _ h => h⟩
  | true =>
    obtain ⟨next, hstep⟩ : ∃ next, s.step? (.close output) = some next :=
      ⟨_, step?_close.mpr ⟨⟨hf, hopen⟩, rfl⟩⟩
    have hrun : s.run? [.close output] = some next := by
      rw [run?_cons, hstep]
      rfl
    obtain ⟨-, rfl⟩ := step?_close.mp hstep
    refine ⟨[.close output], _, hrun, (outputs_apart _ _ s output).2.2.trans hf, ?_, ?_⟩
    · rw [output_tell, output_setOutput, if_pos rfl]
    · intro other hc
      rw [output_tell, output_setOutput]
      split
      · rfl
      · exact hc

/-- **A supervisor can be brought to its end** from wherever it stands. -/
theorem exists_end (s : Supervisor) :
    ∃ more last, s.run? more = some last ∧ last.finished = true := by
  cases hf : s.finished with
  | true => exact ⟨[], s, rfl, hf⟩
  | false =>
    obtain ⟨first, one, hone, hf, hout, -⟩ := exists_close s .out hf
    obtain ⟨second, both, hboth, hf, herr, hkept⟩ := exists_close one .err hf
    let last : Supervisor := { both with finished := true, told := both.told ++ [.exit none] }
    have hended : both.step? (.ended none) = some last :=
      step?_ended.mpr ⟨⟨hf, hkept .out hout, herr⟩, rfl⟩
    refine ⟨first ++ (second ++ [.ended none]), last, ?_, rfl⟩
    rw [run?_append, hone, Option.bind_some]
    exact run?_snoc.mpr ⟨both, hboth, hended⟩

/-! ## The whole trace -/

/-- **What a run of a supervisor leaves behind.** -/
structure Traced (present : Output → Bool) (stirs : List Stir) (s : Supervisor) : Prop where
  /-- Each output goes through a decoder of its own. -/
  decoded : ∀ output, Decodes (present output) output stirs s
  /-- The process is asked to end once at most: for the request, if one is heard. -/
  asked : s.asked = stirs.count .stop ∧ s.asked ≤ 1
  unfinished : s.finished = false → ∀ code, .exit code ∉ s.told
  /-- When it finishes it has told one exit, after all else. By then every output has ended, and all
  that was read of it has been decoded to the end and told. -/
  finished : s.finished = true → ∃ before code told, stirs = before ++ [.ended code] ∧
    s.told = told ++ [.exit code] ∧ (∀ other, .exit other ∉ told) ∧
    ∀ output, (present output = true → output.EndsIn before) ∧
      texts output told = ({} : Chunks).texts (chunks output before)
  /-- Nothing comes after that. -/
  settled : s.finished = true → ∀ stir, s.step? stir = none
  /-- Until then it can be finished. -/
  ends : ∃ more last, s.run? more = some last ∧ last.finished = true

theorem exit_not_told (h : (watching present).run? stirs = some s) (hf : s.finished = false)
    (code : Option Int) : .exit code ∉ s.told := by
  intro hm
  obtain ⟨output, text, he⟩ := no_exit_before_end rfl h hf hm
  cases output <;> exact absurd he (by simp [Output.happening])

/-- **The trace of every run of a supervisor**, whatever is read of the outputs and in which order
they end, whether and when the process is asked to end, and however it ends. -/
theorem trace_of_every_run (present : Output → Bool)
    (h : (watching present).run? stirs = some s) : Traced present stirs s where
  decoded := fun output => decodes_run output h
  asked := by
    obtain ⟨hcount, hasked⟩ := asked_run h
    refine ⟨hcount, ?_⟩
    rw [hasked]
    split <;> simp
  unfinished := exit_not_told h
  finished := fun hf => by
    obtain ⟨before, code, last, rfl, hrun, hlast, hclosed, htold⟩ := finished_last h hf
    refine ⟨before, code, last.told, rfl, htold, exit_not_told hrun hlast, fun output => ?_⟩
    exact (decodes_run output hrun).ended (hclosed output)
  settled := step?_finished
  ends := exists_end s

/-- A process is asked to end while a character of its standard output is unfinished, and the other
output ends first: the character is told once it is whole, and a damaged one when the output ends,
before the exit. -/
theorem trace_of_a_killed_process :
    let stirs : List Stir :=
      [.bytes .out [0x68, 0xC3], .stop, .bytes .err [0xFF], .close .err, .bytes .out [0xA9, 0xE2],
        .close .out, .ended none]
    ∃ s, (watching fun _ => true).run? stirs = some s ∧ s.finished = true ∧
      s.told = [.stdout "h", .stderr "\uFFFD", .stdout "é", .stdout "\uFFFD", .exit none] ∧
      Traced (fun _ => true) stirs s := by
  intro stirs
  obtain ⟨s, hs⟩ := Option.isSome_iff_exists.mp
    (show ((watching fun _ => true).run? stirs).isSome = true by decide +kernel)
  refine ⟨s, hs, ?_, ?_, trace_of_every_run _ hs⟩
  · have hf : ((watching fun _ => true).run? stirs).map finished = some true := by decide +kernel
    simpa [hs] using hf
  · have ht : ((watching fun _ => true).run? stirs).map told =
        some [.stdout "h", .stderr "\uFFFD", .stdout "é", .stdout "\uFFFD", .exit none] := by
      decide +kernel
    simpa [hs] using ht

end Supervisor

end InlineRepl
