import InlineRepl.Proofs.Session.Handshake

/-!
# The course of a handshake

A handshake takes four kinds of input, in any order: that its process runs, a chunk of either
output, and the exit. `after inputs` is where a new handshake stands after them. It falls with the
first exit that finds it without a connection, and no input moves it any more.

That the process runs makes no difference to what output does, so what `Tracks` says of a connecting
handshake holds of a handshake that has not fallen once `spawned` is put in front of it.

Results:
* `take_failed`, `stage_take_connected`: the two stages that no input leaves.
* `spawned_onStdout`, `spawned_onStderr`: that the process runs makes no difference to output.
* `tracks_after`: until it falls, a handshake tracks the standard output of its inputs.
* `buffer_take`, `buffer_after`: what the buffer holds.
* `course_of_every_run`: the course of a handshake, as a whole.
-/

namespace InlineRepl

namespace Handshake

/-- What a handshake is told. -/
inductive Input where
  | spawned
  | stdout (chunk : String)
  | stderr (chunk : String)
  | exit
  deriving Repr, DecidableEq

/-- What a handshake answers. -/
inductive Answer where
  | nothing
  /-- To a chunk of standard output: whether it completes the handshake. -/
  | heard (completes : Bool)
  /-- To the exit. -/
  | ended (meaning : ExitMeaning)
  deriving Repr, DecidableEq

variable {h : Handshake} {input : Input} {inputs : List Input} {chunk : String}

/-- The handshake after an input. -/
def take (h : Handshake) : Input → Handshake
  | .spawned => h.spawned
  | .stdout chunk => (h.onStdout chunk).2
  | .stderr chunk => h.onStderr chunk
  | .exit => h.onExit.2

/-- What the handshake answers to an input. -/
def answer (h : Handshake) : Input → Answer
  | .spawned => .nothing
  | .stdout chunk => .heard (h.onStdout chunk).1
  | .stderr _ => .nothing
  | .exit => .ended h.onExit.1

/-- What it answers to one input after the other. -/
def answers (h : Handshake) : List Input → List Answer
  | [] => []
  | input :: inputs => h.answer input :: answers (h.take input) inputs

/-- A new handshake after the given inputs. -/
def after (inputs : List Input) : Handshake :=
  inputs.foldl take {}

theorem after_append (inputs more : List Input) :
    after (inputs ++ more) = more.foldl take (after inputs) :=
  List.foldl_append

theorem after_snoc (inputs : List Input) (input : Input) :
    after (inputs ++ [input]) = (after inputs).take input := by
  rw [after_append, List.foldl_cons, List.foldl_nil]

/-- Standard output in an input. -/
def Input.output : Input → List Char
  | .stdout chunk => chunk.toList
  | .spawned | .stderr _ | .exit => []

/-- All of standard output in the inputs. -/
def outputOf (inputs : List Input) : List Char :=
  inputs.flatMap Input.output

theorem outputOf_snoc (inputs : List Input) (input : Input) :
    outputOf (inputs ++ [input]) = outputOf inputs ++ input.output := by
  unfold outputOf
  rw [List.flatMap_append, List.flatMap_singleton]

/-! ## Stages that no input leaves -/

theorem isConnected_iff : h.isConnected = true ↔ h.stage = .connected := by
  unfold isConnected
  exact beq_iff_eq

/-- **A fallen handshake does not change.** -/
theorem take_failed (hf : h.stage = .failed) (input : Input) : h.take input = h := by
  obtain ⟨stage, buffer, tail⟩ := h
  obtain rfl : stage = .failed := hf
  cases input <;> rfl

theorem foldl_take_failed (hf : h.stage = .failed) : ∀ inputs : List Input,
    inputs.foldl take h = h
  | [] => rfl
  | input :: inputs => by
    rw [List.foldl_cons, take_failed hf]
    exact foldl_take_failed hf inputs

/-- **A connection stays.** -/
theorem stage_take_connected (hc : h.stage = .connected) (input : Input) :
    (h.take input).stage = .connected := by
  obtain ⟨stage, buffer, tail⟩ := h
  obtain rfl : stage = .connected := hc
  cases input <;> rfl

theorem stage_foldl_take_connected : ∀ (inputs : List Input) {h : Handshake},
    h.stage = .connected → (inputs.foldl take h).stage = .connected
  | [], _, hc => hc
  | input :: inputs, _, hc => stage_foldl_take_connected inputs (stage_take_connected hc input)

/-! ## Output and exit by the stage -/

/-- Standard output of a handshake that is not over. -/
theorem onStdout_pending (hc : h.stage ≠ .connected) (hf : h.stage ≠ .failed) (chunk : String) :
    h.onStdout chunk =
      if Text.hasPart marker (h.tail ++ chunk.toList) then
        (true, { stage := .connected, buffer := h.buffer ++ chunk, tail := [] })
      else
        (false,
          { h with
            buffer := h.buffer ++ chunk
            tail := (Handshake.lastBytes (marker.length - 1) (h.tail ++ chunk.toList)).1 }) := by
  unfold onStdout
  split
  · rename_i hs
    exact absurd hs hf
  · rename_i hs
    exact absurd hs hc
  all_goals rfl

theorem onStdout_connected (hc : h.stage = .connected) (chunk : String) :
    h.onStdout chunk = (false, { h with buffer := h.buffer ++ chunk }) := by
  unfold onStdout
  rw [hc]

theorem onStdout_failed (hf : h.stage = .failed) (chunk : String) :
    h.onStdout chunk = (false, h) := by
  unfold onStdout
  rw [hf]

/-- The exit of a connected process is no failure. -/
theorem onExit_connected (hc : h.stage = .connected) : h.onExit = (.afterConnect, h) := by
  unfold onExit
  rw [hc]

/-- Any other exit is one, and reports the buffer. -/
theorem onExit_unconnected (hn : h.stage ≠ .connected) :
    h.onExit = (.failed h.buffer, { h with stage := .failed }) := by
  unfold onExit
  split
  · rename_i hc
    exact absurd hc hn
  · rfl

/-! ## The fall -/

/-- Among the inputs is an exit that finds the handshake without a connection. -/
def Fell (inputs : List Input) : Prop :=
  ∃ front back, inputs = front ++ .exit :: back ∧ (after front).isConnected = false

theorem not_fell_nil : ¬ Fell [] := by
  rintro ⟨front, back, hinputs, -⟩
  exact absurd hinputs (by simp)

theorem fell_snoc : Fell (inputs ++ [input]) ↔
    Fell inputs ∨ input = .exit ∧ (after inputs).isConnected = false := by
  constructor
  · rintro ⟨front, back, hinputs, hn⟩
    rcases List.eq_nil_or_concat' back with rfl | ⟨back, last, rfl⟩
    · obtain ⟨rfl, hlast⟩ := List.append_inj' hinputs rfl
      exact .inr ⟨(List.cons.inj hlast).1, hn⟩
    · rw [← List.cons_append, ← List.append_assoc] at hinputs
      exact .inl ⟨front, back, (List.append_inj' hinputs rfl).1, hn⟩
  · rintro (⟨front, back, rfl, hn⟩ | ⟨rfl, hn⟩)
    · exact ⟨front, back ++ [input], by simp, hn⟩
    · exact ⟨inputs, [], rfl, hn⟩

/-- Only an exit without a connection makes a handshake fall. -/
theorem stage_take_failed_iff : (h.take input).stage = .failed ↔
    h.stage = .failed ∨ input = .exit ∧ h.isConnected = false := by
  by_cases hf : h.stage = .failed
  · rw [take_failed hf]
    exact iff_of_true hf (.inl hf)
  · cases input with
    | spawned =>
      refine iff_of_false ?_ (by simp [hf])
      unfold take spawned
      dsimp only
      split
      · simp
      · exact hf
    | stdout chunk =>
      refine iff_of_false ?_ (by simp [hf])
      show (h.onStdout chunk).2.stage ≠ .failed
      by_cases hc : h.stage = .connected
      · rw [onStdout_connected hc]
        exact hf
      · rw [onStdout_pending hc hf]
        split
        · simp
        · exact hf
    | stderr chunk =>
      refine iff_of_false ?_ (by simp [hf])
      unfold take onStderr
      dsimp only
      split <;> exact hf
    | exit =>
      by_cases hc : h.stage = .connected
      · simp [take, onExit_connected hc, isConnected, hc]
      · simp [take, onExit_unconnected hc, isConnected, hc]

/-- **A handshake has failed once it fell**, and not before. -/
theorem stage_after_failed_iff (inputs : List Input) :
    (after inputs).stage = .failed ↔ Fell inputs := by
  induction inputs using List.reverseRecOn with
  | nil => exact iff_of_false (by decide) not_fell_nil
  | append_singleton inputs input ih => rw [after_snoc, stage_take_failed_iff, fell_snoc, ih]

/-! ## The connection -/

theorem isConnected_spawned : h.spawned.isConnected = h.isConnected := by
  unfold spawned
  split
  · rename_i hs
    simp [isConnected, hs]
  · rfl

theorem spawned_spawned (h : Handshake) : h.spawned.spawned = h.spawned := by
  obtain ⟨stage, buffer, tail⟩ := h
  cases stage <;> rfl

/-- Whether the process is known to run makes no difference to its output. -/
theorem spawned_onStdout (h : Handshake) (chunk : String) :
    (h.onStdout chunk).2.spawned = (h.spawned.onStdout chunk).2 := by
  obtain ⟨stage, buffer, tail⟩ := h
  have hconnecting : (⟨.connecting, buffer, tail⟩ : Handshake).onStdout chunk = _ :=
    onStdout_pending (by simp) (by simp) chunk
  have hspawning : (⟨.spawning, buffer, tail⟩ : Handshake).onStdout chunk = _ :=
    onStdout_pending (by simp) (by simp) chunk
  cases stage with
  | failed => rfl
  | connected => rfl
  | connecting =>
    show _ = ((⟨.connecting, buffer, tail⟩ : Handshake).onStdout chunk).2
    rw [hconnecting]
    split <;> rfl
  | spawning =>
    show _ = ((⟨.connecting, buffer, tail⟩ : Handshake).onStdout chunk).2
    rw [hconnecting, hspawning]
    split <;> rfl

theorem spawned_onStderr (h : Handshake) (chunk : String) :
    (h.onStderr chunk).spawned = h.spawned.onStderr chunk := by
  obtain ⟨stage, buffer, tail⟩ := h
  cases stage <;> rfl

theorem tracks_take {out : List Char} (ht : h.spawned.Tracks out)
    (hn : (h.take input).stage ≠ .failed) :
    (h.take input).spawned.Tracks (out ++ input.output) := by
  cases input with
  | spawned =>
    rw [Input.output, List.append_nil]
    exact (spawned_spawned h).symm ▸ ht
  | stdout chunk =>
    show (h.onStdout chunk).2.spawned.Tracks (out ++ chunk.toList)
    rw [spawned_onStdout]
    exact ht.onStdout chunk
  | stderr chunk =>
    rw [Input.output, List.append_nil]
    show (h.onStderr chunk).spawned.Tracks out
    rw [spawned_onStderr]
    exact ht.onStderr chunk
  | exit =>
    rw [Input.output, List.append_nil]
    have hc : h.stage = .connected := by
      by_contra hc
      exact hn (by rw [take, onExit_unconnected hc])
    rw [take, onExit_connected hc]
    exact ht

/-- **Until it falls, a handshake tracks the standard output** of its inputs. -/
theorem tracks_after {inputs : List Input} :
    ¬ Fell inputs → (after inputs).spawned.Tracks (outputOf inputs) := by
  induction inputs using List.reverseRecOn with
  | nil => exact fun _ => tracks_start
  | append_singleton inputs input ih =>
    intro hn
    rw [after_snoc, outputOf_snoc]
    refine tracks_take (ih fun hf => hn (fell_snoc.mpr (.inl hf))) fun hf => hn ?_
    rwa [← stage_after_failed_iff, after_snoc]

/-- **Until it falls, a handshake is connected exactly when the output holds the marker.** -/
theorem isConnected_after_iff (hn : ¬ Fell inputs) :
    (after inputs).isConnected = true ↔ marker <:+: outputOf inputs := by
  rw [← isConnected_spawned, isConnected_iff]
  exact (tracks_after hn).connected_iff

/-! ## The chunk that completes it -/

/-- A chunk completes a handshake when it brings the connection. -/
theorem completes_iff : (h.onStdout chunk).1 = true ↔
    h.isConnected = false ∧ (h.onStdout chunk).2.isConnected = true := by
  by_cases hc : h.stage = .connected
  · simp [onStdout_connected hc, isConnected, hc]
  · by_cases hf : h.stage = .failed
    · simp [onStdout_failed hf, isConnected, hf]
    · rw [onStdout_pending hc hf]
      split <;> simp [isConnected, hc]

theorem answer_heard_iff : h.answer input = .heard true ↔
    ∃ chunk, input = .stdout chunk ∧ (h.onStdout chunk).1 = true := by
  cases input <;> simp [answer]

/-- A chunk completes the handshake when it completes the marker, and that before the fall. -/
theorem answer_after_heard_iff (inputs : List Input) (chunk : String) :
    (after inputs).answer (.stdout chunk) = .heard true ↔
      ¬ Fell inputs ∧ ¬ marker <:+: outputOf inputs ∧
        marker <:+: outputOf inputs ++ chunk.toList := by
  have hsnoc : (after (inputs ++ [.stdout chunk])) = ((after inputs).onStdout chunk).2 :=
    after_snoc inputs (.stdout chunk)
  have hout : outputOf (inputs ++ [.stdout chunk]) = outputOf inputs ++ chunk.toList :=
    outputOf_snoc inputs (.stdout chunk)
  rw [answer, Answer.heard.injEq, completes_iff, ← hsnoc, ← hout]
  by_cases hf : Fell inputs
  · have hstage := (stage_after_failed_iff inputs).mpr hf
    refine iff_of_false ?_ fun h => h.1 hf
    rw [after_append, foldl_take_failed hstage]
    simp
  · have hsome : ¬ Fell (inputs ++ [.stdout chunk]) := by
      rw [fell_snoc]
      simp [hf]
    rw [← Bool.not_eq_true, isConnected_after_iff hf, isConnected_after_iff hsome]
    exact ⟨fun h => ⟨hf, h⟩, fun h => h.2⟩

/-- Nothing completes a handshake that is over. -/
theorem count_answers_over : ∀ (inputs : List Input) {h : Handshake},
    h.stage = .connected ∨ h.stage = .failed → (h.answers inputs).count (.heard true) = 0
  | [], _, _ => rfl
  | input :: inputs, h, hover => by
    have hnext : (h.take input).stage = .connected ∨ (h.take input).stage = .failed :=
      hover.imp (stage_take_connected · input) fun hf => by rw [take_failed hf, hf]
    have hno : h.answer input ≠ .heard true := by
      rw [Ne, answer_heard_iff]
      rintro ⟨chunk, rfl, hc⟩
      obtain ⟨hn, hc⟩ := completes_iff.mp hc
      rcases hover with hs | hs
      · simp [isConnected, hs] at hn
      · rw [show (h.onStdout chunk).2 = h from take_failed hs (.stdout chunk)] at hc
        simp [isConnected, hs] at hc
    rw [answers, List.count_cons_of_ne hno]
    exact count_answers_over inputs hnext

/-- **At most one chunk completes a handshake.** -/
theorem count_answers_le_one : ∀ (inputs : List Input) (h : Handshake),
    (h.answers inputs).count (.heard true) ≤ 1
  | [], _ => Nat.zero_le _
  | input :: inputs, h => by
    by_cases ha : h.answer input = .heard true
    · obtain ⟨chunk, rfl, hc⟩ := answer_heard_iff.mp ha
      have hnext := isConnected_iff.mp (completes_iff.mp hc).2
      rw [answers, ha, List.count_cons_self]
      exact Nat.le_of_eq (congrArg (· + 1) (count_answers_over inputs (.inl hnext)))
    · rw [answers, List.count_cons_of_ne ha]
      exact count_answers_le_one inputs _

/-! ## The buffer -/

/-- What an input adds to the buffer of a handshake that is at the given stage: standard output
until the handshake has failed, standard error only until it is over. -/
def Input.kept (stage : Stage) : Input → String
  | .stdout chunk => if stage = .failed then "" else chunk
  | .stderr chunk => if stage = .connected ∨ stage = .failed then "" else chunk
  | .spawned | .exit => ""

/-- What each of the inputs adds, by the stage that it finds. -/
def kept (h : Handshake) : List Input → List String
  | [] => []
  | input :: inputs => input.kept h.stage :: kept (h.take input) inputs

theorem buffer_take (h : Handshake) (input : Input) :
    (h.take input).buffer = h.buffer ++ input.kept h.stage := by
  cases input with
  | spawned =>
    unfold take spawned
    dsimp only
    split <;> exact String.append_empty.symm
  | stdout chunk =>
    show (h.onStdout chunk).2.buffer = h.buffer ++ if h.stage = .failed then "" else chunk
    by_cases hf : h.stage = .failed
    · rw [onStdout_failed hf, if_pos hf, String.append_empty]
    · rw [if_neg hf]
      by_cases hc : h.stage = .connected
      · rw [onStdout_connected hc]
      · rw [onStdout_pending hc hf]
        split <;> rfl
  | stderr chunk =>
    unfold take onStderr Input.kept
    dsimp only
    split <;> simp_all
  | exit =>
    unfold take
    by_cases hc : h.stage = .connected
    · rw [onExit_connected hc]
      exact String.append_empty.symm
    · rw [onExit_unconnected hc]
      exact String.append_empty.symm

/-- **The buffer is what the inputs added**, in order. -/
theorem buffer_foldl_take : ∀ (inputs : List Input) (h : Handshake),
    (inputs.foldl take h).buffer = h.buffer ++ String.join (h.kept inputs)
  | [], h => by simp [kept]
  | input :: inputs, h => by
    rw [List.foldl_cons, buffer_foldl_take inputs, buffer_take, kept, String.join_cons,
      String.append_assoc]

theorem buffer_after (inputs : List Input) :
    (after inputs).buffer = String.join (kept {} inputs) :=
  (buffer_foldl_take inputs {}).trans (String.empty_append)

/-- **An exit is a failure exactly where there is no connection**, and the report is the buffer. -/
theorem answer_exit_failed_iff {report : String} (h : Handshake) :
    h.answer .exit = .ended (.failed report) ↔ h.isConnected = false ∧ report = h.buffer := by
  rw [Bool.eq_false_iff, Ne, isConnected_iff]
  unfold answer
  by_cases hc : h.stage = .connected
  · rw [onExit_connected hc]
    exact iff_of_false nofun fun hn => hn.1 hc
  · rw [onExit_unconnected hc, and_iff_right hc]
    exact ⟨fun he => (ExitMeaning.failed.inj (Answer.ended.inj he)).symm, fun he => by rw [he]⟩

/-! ## The course -/

/-- **The course of a handshake**, whatever inputs it takes in whatever order.
* It has failed exactly if an exit found it without a connection. Until then it is connected exactly
  if standard output holds the marker, however chunks cut it.
* At most one chunk completes it, and this is the one that completes the marker.
* A connection stays, and no exit is a failure any more. A handshake that has failed stays as it is.
* Its buffer is what its inputs added. An exit without a connection is answered by a failure that
  reports the buffer, and no other exit is. -/
theorem course_of_every_run (inputs : List Input) :
    ((after inputs).stage = .failed ↔ Fell inputs) ∧
    (¬ Fell inputs → ((after inputs).isConnected = true ↔ marker <:+: outputOf inputs)) ∧
    (answers {} inputs).count (.heard true) ≤ 1 ∧
    (∀ chunk, (after inputs).answer (.stdout chunk) = .heard true ↔
      ¬ Fell inputs ∧ ¬ marker <:+: outputOf inputs ∧
        marker <:+: outputOf inputs ++ chunk.toList) ∧
    ((after inputs).isConnected = true → ∀ more,
      (after (inputs ++ more)).isConnected = true ∧
        (after (inputs ++ more)).answer .exit = .ended .afterConnect) ∧
    ((after inputs).stage = .failed → ∀ more, after (inputs ++ more) = after inputs) ∧
    (after inputs).buffer = String.join (kept {} inputs) ∧
    ∀ report, (after inputs).answer .exit = .ended (.failed report) ↔
      (after inputs).isConnected = false ∧ report = (after inputs).buffer := by
  refine ⟨stage_after_failed_iff inputs, isConnected_after_iff, count_answers_le_one inputs {},
    answer_after_heard_iff inputs, fun hc more => ?_, fun hf more => ?_, buffer_after inputs,
    fun report => answer_exit_failed_iff _⟩
  · have hstays : (after (inputs ++ more)).stage = .connected := by
      rw [after_append]
      exact stage_foldl_take_connected more (isConnected_iff.mp hc)
    refine ⟨isConnected_iff.mpr hstays, ?_⟩
    rw [answer, onExit_connected hstays]
  · rw [after_append, foldl_take_failed hf]

/-- A marker that is cut in two, behind a character of two bytes and with an error between the
halves, completes the handshake with its second half, for good; without that half an exit ends it,
for good. -/
theorem course_of_a_cut_marker :
    let front : List Input := [.stdout "\u00E9Conn", .spawned, .stderr "!"]
    let whole := front ++ [.stdout "ected"]
    (after front).answer (.stdout "ected") = .heard true ∧
      (after (whole ++ [.stderr "?", .exit])).answer .exit = .ended .afterConnect ∧
      after (front ++ [.exit] ++ [.stdout "ected"]) = after (front ++ [.exit]) := by
  intro front whole
  obtain ⟨hfailed, -, -, hanswer, -⟩ := course_of_every_run front
  obtain ⟨-, -, -, -, hstays, -⟩ := course_of_every_run whole
  obtain ⟨-, -, -, -, -, hfell, -⟩ := course_of_every_run (front ++ [.exit])
  have hpending : ¬ Fell front := by
    rw [← hfailed]
    decide +kernel
  exact ⟨(hanswer "ected").mpr ⟨hpending, by decide +kernel, by decide +kernel⟩,
    (hstays (by decide +kernel) [.stderr "?", .exit]).2, hfell (by decide +kernel) _⟩

end Handshake

end InlineRepl
