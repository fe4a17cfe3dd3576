import InlineRepl.Wire.Framing
import InlineRepl.Wire.Request
import InlineRepl.Proofs.Text.Decoded
import InlineRepl.Proofs.Text.Lines

/-!
# A reader takes one line after the other

A `FrameReader` is what a stream still holds and a line buffer, which every line is read into anew.
`next` gives the next frame: it passes over lines of blanks and stops behind the first other line.
Called until the input ends, it gives what `Frame.readAll` gives, whatever the buffer held at first.
So the frames of a stream are those of its lines, one line after the other, and no line touches the
frame of another one.

Results:
* `frames_line`: a line that is ended gives its frame and leaves the rest.
* `frames_eq_readAll`: all frames, and that the buffer does not matter.
* `frames_append`: cutting a stream behind a line feed.
* `gives_line`: what a line gives.
* `frames_of_every_stream`: the law of framing, as a whole.
-/

namespace InlineRepl

open Json (Raw readText)

variable {α : Type} {read : Raw → Option α}

namespace Text

/-- The first line, its line feed included, and what follows it. -/
def takeLine : List UInt8 → List UInt8 × List UInt8
  | [] => ([], [])
  | b :: bytes =>
    if b = 0x0A then ([b], bytes)
    else
      match takeLine bytes with
      | (line, rest) => (b :: line, rest)

theorem takeLine_ended : ∀ {line : List UInt8}, (0x0A : UInt8) ∉ line → ∀ rest,
    takeLine (line ++ 0x0A :: rest) = (line ++ [0x0A], rest)
  | [], _, rest => rfl
  | b :: line, h, rest => by
    have hb : b ≠ 0x0A := fun he => h (he ▸ List.mem_cons_self)
    rw [List.cons_append, takeLine, if_neg hb,
      takeLine_ended (fun hm => h (List.mem_cons_of_mem _ hm)) rest]
    rfl

theorem takeLine_last : ∀ {line : List UInt8}, (0x0A : UInt8) ∉ line → takeLine line = (line, [])
  | [], _ => rfl
  | b :: line, h => by
    have hb : b ≠ 0x0A := fun he => h (he ▸ List.mem_cons_self)
    rw [takeLine, if_neg hb, takeLine_last fun hm => h (List.mem_cons_of_mem _ hm)]

theorem takeLine_append : ∀ bytes : List UInt8, (takeLine bytes).1 ++ (takeLine bytes).2 = bytes
  | [] => rfl
  | b :: bytes => by
    unfold takeLine
    split
    · rfl
    · exact congrArg (b :: ·) (takeLine_append bytes)

theorem takeLine_ne_nil {bytes : List UInt8} (h : bytes ≠ []) : (takeLine bytes).1 ≠ [] := by
  cases bytes with
  | nil => exact absurd rfl h
  | cons b bytes =>
    unfold takeLine
    split <;> simp

theorem length_takeLine_lt {bytes : List UInt8} (h : bytes ≠ []) :
    (takeLine bytes).2.length < bytes.length := by
  have hall := congrArg List.length (takeLine_append bytes)
  have hline := List.length_pos_iff.mpr (takeLine_ne_nil h)
  rw [List.length_append] at hall
  omega

end Text

/-- A reader of frames: the bytes that it has not read, and its line buffer. -/
structure FrameReader where
  unread : List UInt8
  line : List UInt8 := []
  deriving Repr, DecidableEq

namespace FrameReader

/-- Empties the line buffer. -/
def clear (reader : FrameReader) : FrameReader :=
  { reader with line := [] }

/-- Reads a line, its line feed included, behind what the buffer holds. -/
def fill (reader : FrameReader) : FrameReader :=
  { unread := (Text.takeLine reader.unread).2,
    line := reader.line ++ (Text.takeLine reader.unread).1 }

/-- Reads the next frame, past lines of blanks. There is none at the end of the input. -/
def next (read : Raw → Option α) (reader : FrameReader) : Option (Frame α) × FrameReader :=
  if reader.unread = [] then (none, reader.clear.fill)
  else
    match Frame.ofLine? read reader.clear.fill.line with
    | some frame => (some frame, reader.clear.fill)
    | none => next read reader.clear.fill
termination_by reader.unread.length
decreasing_by exact Text.length_takeLine_lt ‹_›

theorem next_end {reader : FrameReader} (h : reader.unread = []) :
    reader.next read = (none, reader.clear.fill) := by
  rw [next, if_pos h]

theorem next_some {reader : FrameReader} {frame : Frame α} (h : reader.unread ≠ [])
    (hf : Frame.ofLine? read reader.clear.fill.line = some frame) :
    reader.next read = (some frame, reader.clear.fill) := by
  rw [next, if_neg h, hf]

theorem next_blank {reader : FrameReader} (h : reader.unread ≠ [])
    (hf : Frame.ofLine? read reader.clear.fill.line = none) :
    reader.next read = reader.clear.fill.next read := by
  rw [next, if_neg h, hf]

/-- A frame is read from some bytes. -/
theorem length_next {reader rest : FrameReader} {frame : Frame α} :
    reader.next read = (some frame, rest) → rest.unread.length < reader.unread.length := by
  fun_induction next read reader with
  | case1 reader => exact fun h => absurd h (by simp)
  | case2 reader hne =>
    intro h
    obtain ⟨-, rfl⟩ := Prod.mk.inj h
    exact Text.length_takeLine_lt hne
  | case3 reader hne _ ih => exact fun h => (ih h).trans (Text.length_takeLine_lt hne)

/-- The frames that are read until the input ends. -/
def frames (read : Raw → Option α) (reader : FrameReader) : List (Frame α) :=
  match _h : reader.next read with
  | (none, _) => []
  | (some frame, rest) => frame :: frames read rest
termination_by reader.unread.length
decreasing_by exact length_next _h

theorem frames_of_none {reader rest : FrameReader} (h : reader.next read = (none, rest)) :
    reader.frames read = [] := by
  rw [frames]
  split
  · rfl
  · rename_i hs
    rw [h] at hs
    cases hs

theorem frames_of_some {reader rest : FrameReader} {frame : Frame α}
    (h : reader.next read = (some frame, rest)) :
    reader.frames read = frame :: rest.frames read := by
  rw [frames]
  split
  · rename_i hs
    rw [h] at hs
    cases hs
  · rename_i hs
    rw [h] at hs
    cases hs
    rfl

/-- Where the next frame is the same, all frames are. -/
theorem frames_congr {reader other : FrameReader} (h : reader.next read = other.next read) :
    reader.frames read = other.frames read := by
  rcases hn : other.next read with ⟨frame | frame, rest⟩
  · rw [frames_of_none hn, frames_of_none (h.trans hn)]
  · rw [frames_of_some hn, frames_of_some (h.trans hn)]

/-! ## Line by line -/

/-- **One line**: its frame, if it has one, and then what follows it. The line before it, which the
buffer may still hold, does not matter. -/
theorem frames_line {reader : FrameReader} (h : reader.unread ≠ []) :
    reader.frames read =
      (Frame.ofLine? read (Text.takeLine reader.unread).1).toList ++
        reader.clear.fill.frames read := by
  have hline : reader.clear.fill.line = (Text.takeLine reader.unread).1 := List.nil_append _
  cases hf : Frame.ofLine? read (Text.takeLine reader.unread).1 with
  | none =>
    rw [← hline] at hf
    exact frames_congr (next_blank h hf)
  | some frame =>
    rw [← hline] at hf
    exact frames_of_some (next_some h hf)

theorem frames_nil {reader : FrameReader} (h : reader.unread = []) : reader.frames read = [] :=
  frames_of_none (next_end h)

/-- The line feed that ends a line is one of its blanks. -/
theorem ofLine?_lineFeed (read : Raw → Option α) (line : List UInt8) :
    Frame.ofLine? read (line ++ [0x0A]) = Frame.ofLine? read line := by
  cases hd : Text.Utf8.decode? line with
  | some text =>
    have hline := Text.Utf8.decode?_eq_some_iff.mp hd
    have hended : Text.Utf8.decode? (line ++ [0x0A]) = some (text ++ "\n") := by
      rw [Text.Utf8.decode?_eq_some_iff, Text.bytesOf_append, ← hline]
      rfl
    have hfeed : ∀ c ∈ "\n".toList, Text.isBlank c = true := List.forall_mem_singleton.mpr rfl
    have htrim : Text.trim (text ++ "\n").toList = Text.trim text.toList := by
      rw [String.toList_append]
      exact Text.trim_append_blank hfeed
    unfold Frame.ofLine?
    rw [hd, hended]
    unfold Frame.ofText?
    dsimp only
    rw [htrim]
  | none =>
    have hended : Text.Utf8.decode? (line ++ [0x0A]) = none := by
      rw [Option.eq_none_iff_forall_ne_some] at hd ⊢
      intro text ht
      obtain ⟨s, hs⟩ := Text.bytesOf_lineFeed.mp ⟨text, Text.Utf8.decode?_eq_some_iff.mp ht⟩
      exact hd s (Text.Utf8.decode?_eq_some_iff.mpr hs)
    unfold Frame.ofLine?
    rw [hd, hended]

/-- **All frames are the frames of the stream**, whatever the buffer held at first. -/
theorem frames_eq_readAll (read : Raw → Option α) (reader : FrameReader) :
    reader.frames read = Frame.readAll read reader.unread := by
  induction hn : reader.unread.length using Nat.strongRecOn generalizing reader with
  | ind n ih =>
    subst hn
    by_cases hempty : reader.unread = []
    · rw [frames_nil hempty, hempty]
      rfl
    · have hrest := ih _ (Text.length_takeLine_lt hempty) reader.clear.fill rfl
      have hunread : reader.clear.fill.unread = (Text.takeLine reader.unread).2 := rfl
      rw [frames_line hempty, hrest, hunread]
      unfold Frame.readAll
      by_cases hfeed : (0x0A : UInt8) ∈ reader.unread
      · obtain ⟨line, rest, hbytes, hline⟩ := List.eq_append_cons_of_mem hfeed
        rw [hbytes, Text.takeLine_ended hline, Text.cutLines_row hline, List.filterMap_cons,
          ofLine?_lineFeed]
        cases Frame.ofLine? read line <;> rfl
      · rw [Text.takeLine_last hfeed, Text.cutLines_last hfeed hempty, List.filterMap_cons]
        cases Frame.ofLine? read reader.unread <;> rfl

/-! ## What a line gives -/

/-- The excerpt is the text of a line cut at its 200th character, the blanks around it aside: all
characters of it are whole, and so is what is left out. -/
def Excerpts (line : List UInt8) (excerpt : String) : Prop :=
  ∃ before rest after : String,
    line = Text.bytesOf before ++ Text.bytesOf excerpt ++ Text.bytesOf rest ++ Text.bytesOf after ∧
    (∀ c ∈ before.toList, Text.isBlank c = true) ∧ (∀ c ∈ after.toList, Text.isBlank c = true) ∧
    (∀ c ∈ (excerpt ++ rest).toList.head?, Text.isBlank c = false) ∧
    (∀ c ∈ (excerpt ++ rest).toList.getLast?, Text.isBlank c = false) ∧
    excerpt.length ≤ 200 ∧ (rest ≠ "" → excerpt.length = 200)

/-- **What a line gives**: nothing if it is made of blanks, else one frame. This is the record that
its text is read as, blanks around it aside; or the excerpt of a text that is no record; or the sign
that its bytes are no text. -/
structure Gives (read : Raw → Option α) (line : List UInt8) (frames : List (Frame α)) : Prop where
  atMostOne : frames.length ≤ 1
  blank_iff : frames = [] ↔
    ∃ text, line = Text.bytesOf text ∧ ∀ c ∈ text.toList, Text.isBlank c = true
  record_iff : ∀ value, frames = [.record value] ↔
    ∃ text, line = Text.bytesOf text ∧
      readText read (String.ofList (Text.trim text.toList)) = some value
  malformed_iff : (∃ excerpt, frames = [.malformed excerpt]) ↔
    ∃ text, line = Text.bytesOf text ∧ (¬ ∀ c ∈ text.toList, Text.isBlank c = true) ∧
      readText read (String.ofList (Text.trim text.toList)) = none
  excerpts : ∀ excerpt, frames = [.malformed excerpt] → Excerpts line excerpt
  unreadable_iff : frames = [.unreadable] ↔ ∀ text, line ≠ Text.bytesOf text

theorem excerpts_take (text : String) :
    Excerpts (Text.bytesOf text)
      (String.ofList ((Text.trim text.toList).take Frame.excerptLength)) := by
  obtain ⟨front, back, hparts, hfront, hback, hfirst, hlast⟩ := Text.trim_parts text.toList
  have hwhole : String.ofList ((Text.trim text.toList).take Frame.excerptLength) ++
      String.ofList ((Text.trim text.toList).drop Frame.excerptLength) =
        String.ofList (Text.trim text.toList) := by
    rw [← String.ofList_append, List.take_append_drop]
  refine ⟨String.ofList front, String.ofList ((Text.trim text.toList).drop Frame.excerptLength),
    String.ofList back, ?_, by rwa [String.toList_ofList], by rwa [String.toList_ofList],
    by rwa [hwhole, String.toList_ofList], by rwa [hwhole, String.toList_ofList], ?_,
    fun hrest => ?_⟩
  · rw [List.append_assoc (Text.bytesOf _), ← Text.bytesOf_append, hwhole, ← Text.bytesOf_append,
      ← Text.bytesOf_append, ← String.ofList_append, ← String.ofList_append, ← hparts,
      String.ofList_toList]
  · rw [String.length_ofList]
    exact List.length_take_le _ _
  · rw [String.length_ofList, List.length_take]
    refine Nat.min_eq_left (Nat.le_of_not_lt fun hlt => hrest ?_)
    rw [List.drop_eq_nil_of_le hlt.le]

/-- The texts of bytes that a text has are that text alone. -/
theorem exists_text_iff {text : String} {P : String → Prop} :
    (∃ other, Text.bytesOf text = Text.bytesOf other ∧ P other) ↔ P text :=
  ⟨fun ⟨_, he, hp⟩ => Text.bytesOf_injective he ▸ hp, fun hp => ⟨text, rfl, hp⟩⟩

/-- What a text gives, by the text alone. -/
theorem Gives.of_text {text : String} {frames : List (Frame α)} (hone : frames.length ≤ 1)
    (hblank : frames = [] ↔ ∀ c ∈ text.toList, Text.isBlank c = true)
    (hrecord : ∀ value, frames = [.record value] ↔
      readText read (String.ofList (Text.trim text.toList)) = some value)
    (hmalformed : (∃ excerpt, frames = [.malformed excerpt]) ↔
      (¬ ∀ c ∈ text.toList, Text.isBlank c = true) ∧
        readText read (String.ofList (Text.trim text.toList)) = none)
    (hexcerpts : ∀ excerpt, frames = [.malformed excerpt] → Excerpts (Text.bytesOf text) excerpt)
    (hreadable : frames ≠ [.unreadable]) : Gives read (Text.bytesOf text) frames where
  atMostOne := hone
  blank_iff := by rwa [exists_text_iff]
  record_iff := fun value => by
    rw [exists_text_iff]
    exact hrecord value
  malformed_iff := by rwa [exists_text_iff]
  excerpts := hexcerpts
  unreadable_iff := iff_of_false hreadable fun h => h text rfl

theorem gives_text (read : Raw → Option α) (text : String) :
    Gives read (Text.bytesOf text) (Frame.ofText? read text.toList).toList := by
  have hblank := Text.trim_eq_nil_iff text.toList
  have hexcerpt := excerpts_take text
  unfold Frame.ofText?
  cases htrim : Text.trim text.toList with
  | nil =>
    have hall := hblank.mp htrim
    refine .of_text (Nat.zero_le _) (iff_of_true rfl hall) (fun value => ?_) ?_ nofun nofun
    · rw [htrim]
      exact iff_of_false nofun (by simp [readText, show Raw.parse? [] = none from rfl])
    · exact iff_of_false (by simp) fun h => h.1 hall
  | cons c cs =>
    have hnot : ¬ ∀ c ∈ text.toList, Text.isBlank c = true := by
      rw [← hblank, htrim]
      simp
    have hread : readText read (String.ofList (c :: cs)) = (Raw.parse? (c :: cs)).bind read := by
      rw [readText, String.toList_ofList]
    dsimp only
    cases hvalue : (Raw.parse? (c :: cs)).bind read with
    | some value =>
      refine .of_text (Nat.le_refl _) (iff_of_false nofun hnot) (fun other => ?_) ?_ nofun nofun
      · rw [htrim, hread, hvalue]
        simp
      · rw [htrim, hread, hvalue]
        exact iff_of_false (by simp) (by simp)
    | none =>
      rw [htrim] at hexcerpt
      refine .of_text (Nat.le_refl _) (iff_of_false nofun hnot) (fun other => ?_) ?_
        (fun excerpt h => ?_) nofun
      · rw [htrim, hread, hvalue]
        exact iff_of_false (by simp) (by simp)
      · rw [htrim, hread, hvalue]
        exact iff_of_true ⟨_, rfl⟩ ⟨hnot, rfl⟩
      · obtain rfl := Frame.malformed.inj (List.cons.inj h).1
        exact hexcerpt

/-- **Every line gives what it holds.** -/
theorem gives_line (read : Raw → Option α) (line : List UInt8) :
    Gives read line (Frame.ofLine? read line).toList := by
  cases hd : Text.Utf8.decode? line with
  | some text =>
    rw [Text.Utf8.decode?_eq_some_iff.mp hd]
    unfold Frame.ofLine?
    rw [Text.Utf8.decode?_bytesOf]
    exact gives_text read text
  | none =>
    have hno : ∀ text, line ≠ Text.bytesOf text := by
      rintro text rfl
      rw [Text.Utf8.decode?_bytesOf] at hd
      cases hd
    unfold Frame.ofLine?
    rw [hd]
    refine ⟨Nat.le_refl _, ?_, fun value => ?_, ?_, fun _ h => absurd h (by simp), ?_⟩
    · exact iff_of_false (by simp) fun ⟨text, hl, _⟩ => hno text hl
    · exact iff_of_false (by simp) fun ⟨text, hl, _⟩ => hno text hl
    · exact iff_of_false (by simp) fun ⟨text, hl, _⟩ => hno text hl
    · exact iff_of_true rfl hno

/-! ## Streams -/

/-- The frames of a line by itself. -/
theorem frames_single {line : List UInt8} (h : (0x0A : UInt8) ∉ line) (buffer : List UInt8) :
    (FrameReader.mk line buffer).frames read = (Frame.ofLine? read line).toList := by
  by_cases hempty : line = []
  · rw [frames_nil hempty, hempty]
    rfl
  · rw [frames_line hempty, Text.takeLine_last h]
    have hend : (FrameReader.mk line buffer).clear.fill.unread = [] := by
      show (Text.takeLine line).2 = []
      rw [Text.takeLine_last h]
    rw [frames_nil hend, List.append_nil]

/-- **A stream that is cut behind a line feed** gives the frames of its first part, and then those
of the second. -/
theorem frames_append {first : List UInt8} (h : first = [] ∨ first.getLast? = some 0x0A)
    (second buffer : List UInt8) :
    (FrameReader.mk (first ++ second) buffer).frames read =
      (FrameReader.mk first buffer).frames read ++ (FrameReader.mk second buffer).frames read := by
  rw [frames_eq_readAll, frames_eq_readAll, frames_eq_readAll]
  unfold Frame.readAll
  rcases h with rfl | h
  · rfl
  · obtain ⟨front, rfl⟩ := List.getLast?_eq_some_iff.mp h
    rw [List.append_assoc, List.singleton_append, Text.cutLines_append, List.filterMap_append]

/-- **Framing is compositional and isolates errors**, for every kind of record and every stream,
whatever the line buffer holds at first.
* What is read are the frames of the stream (`Frame.readAll`).
* What is read from a stream that is cut behind a line feed is what is read from its parts.
* What is read from a stream is what is read from each of its lines by itself.
* A line gives what it holds (`Gives`), with its line feed or without: nothing if it is made of
  blanks, and else one frame. -/
theorem frames_of_every_stream (read : Raw → Option α) (buffer : List UInt8) :
    (∀ bytes : List UInt8,
      (FrameReader.mk bytes buffer).frames read = Frame.readAll read bytes) ∧
    (∀ first second : List UInt8, first = [] ∨ first.getLast? = some 0x0A →
      (FrameReader.mk (first ++ second) buffer).frames read =
        (FrameReader.mk first buffer).frames read ++ (FrameReader.mk second buffer).frames read) ∧
    (∀ bytes : List UInt8, (FrameReader.mk bytes buffer).frames read =
      (Text.cutLines 0x0A bytes).flatMap fun line => (FrameReader.mk line []).frames read) ∧
    ∀ line : List UInt8, (0x0A : UInt8) ∉ line →
      Gives read line ((FrameReader.mk line buffer).frames read) ∧
        (FrameReader.mk (line ++ [0x0A]) buffer).frames read =
          (FrameReader.mk line buffer).frames read := by
  refine ⟨fun bytes => frames_eq_readAll read _,
    fun first second h => frames_append h second buffer, fun bytes => ?_, fun line h => ?_⟩
  · rw [frames_eq_readAll, Frame.readAll, List.filterMap_eq_flatMap_toList]
    refine List.flatMap_congr fun line hline => ?_
    rw [frames_single (Text.not_mem_of_mem_cutLines hline)]
  · rw [frames_single h]
    refine ⟨gives_line read line, ?_⟩
    rw [frames_eq_readAll, Frame.readAll, Text.cutLines_row h, List.filterMap_eq_flatMap_toList]
    exact List.append_nil _

/-- A greeting behind a line that is no text is read as by itself, though the buffer was not
empty. -/
theorem frames_behind_unreadable :
    let bad : List UInt8 := [0xFF, 0x0A]
    let greeting := Text.bytesOf " \x7b\"session\":7\x7d\r\n"
    bad.getLast? = some 0x0A ∧
      (FrameReader.mk (bad ++ greeting) [0x41]).frames Hello.ofRaw? =
        [.unreadable, .record { session := ⟨7⟩ }] := by
  intro bad greeting
  refine ⟨rfl, ?_⟩
  rw [(frames_of_every_stream Hello.ofRaw? [0x41]).2.1 bad greeting (.inr rfl), frames_eq_readAll,
    frames_eq_readAll]
  decide +kernel

end FrameReader

end InlineRepl
