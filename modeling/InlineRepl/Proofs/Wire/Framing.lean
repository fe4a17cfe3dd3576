import InlineRepl.Wire.Framing
import InlineRepl.Proofs.Json.Compact
import InlineRepl.Proofs.Text.Encoded
import InlineRepl.Proofs.Text.Lines
import InlineRepl.Proofs.Wire.Records

/-!
# Whole streams are read back

A writer of the channel is free to leave lines of blanks between its records and blanks around each
of them. `Row` is one such line, `Row.stream` the bytes of several. Reading the stream gives the
records and nothing else. The compact text of a record is printable, so the line feed that ends a
frame is the only one in it, and an object neither begins nor ends with a blank, so that trimming
takes off exactly the blanks around it.

Results:
* `writeFrame_line`: the line feed of a frame is its last byte, and only that.
* `Row.stream_bare`: frames that are written one after the other are a stream.
* `Row.readAll_stream`: reading a stream gives its values, for everything that is read back.
* `Row.streams_read_back`: so for greetings, inbound records and requests.
-/

namespace InlineRepl

open Json (Raw ReadsBack)

/-! ## Frames -/

theorem toList_writeFrame (record : Json) : (writeFrame record).toList = record.text ++ ['\n'] := by
  show (String.ofList record.text ++ "\n").toList = _
  rw [String.toList_append, String.toList_ofList]
  rfl

/-- **The line feed of a frame is its last byte**, and no other byte is one. -/
theorem writeFrame_line (record : Json) :
    ∃ line, Text.bytesOf (writeFrame record) = line ++ [0x0A] ∧ (0x0A : UInt8) ∉ line := by
  refine ⟨record.text.flatMap String.utf8EncodeChar, ?_,
    Text.lineFeed_not_mem_bytes (Json.printable_text record).lineFeed_not_mem⟩
  show (writeFrame record).toList.flatMap String.utf8EncodeChar = _
  rw [toList_writeFrame, List.flatMap_append]
  rfl

section Reading

variable {α : Type} {text trimmed : List Char}

theorem Frame.ofText?_blank (read : Raw → Option α) (h : Text.trim text = []) :
    ofText? read text = none := by
  unfold ofText?
  rw [h]

theorem Frame.ofText?_record {read : Raw → Option α} {value : α} (ht : Text.trim text = trimmed)
    (hne : trimmed ≠ []) (hv : (Raw.parse? trimmed).bind read = some value) :
    ofText? read text = some (.record value) := by
  unfold ofText?
  rw [ht]
  cases trimmed with
  | nil => exact absurd rfl hne
  | cons c cs =>
    dsimp only
    rw [hv]

end Reading

/-! ## Rows -/

/-- Blanks that end no line. -/
structure Pad where
  chars : List Char
  blank : ∀ c ∈ chars, Text.isBlank c = true
  inline : '\n' ∉ chars

/-- A line of a stream: blanks, or a value with blanks around it. -/
inductive Row (α : Type) where
  | blank (pad : Pad)
  | record (before : Pad) (value : α) (after : Pad)

namespace Row

variable {α : Type}

/-- The value of a line. -/
def value? : Row α → Option α
  | .blank _ => none
  | .record _ value _ => some value

/-- The line, without the line feed that ends it: what is written for a value goes between the
blanks around it. -/
def line (encode : α → Json) : Row α → List Char
  | .blank pad => pad.chars
  | .record before value after =>
    before.chars ++ (writeFrame (encode value)).toList.dropLast ++ after.chars

/-- The bytes of the lines, each with its line feed. -/
def stream (encode : α → Json) (rows : List (Row α)) : List UInt8 :=
  rows.flatMap fun row => Text.bytesOf (String.ofList (row.line encode ++ ['\n']))

/-- The values of the lines. -/
def values (rows : List (Row α)) : List α :=
  rows.filterMap value?

/-- A line without blanks around its value. -/
def bare (value : α) : Row α :=
  .record ⟨[], by simp, by simp⟩ value ⟨[], by simp, by simp⟩

section Reading

variable {encode : α → Json} {read : Raw → Option α}

theorem line_record (before : Pad) (value : α) (after : Pad) :
    (Row.record before value after).line encode =
      before.chars ++ (encode value).text ++ after.chars := by
  show before.chars ++ (writeFrame (encode value)).toList.dropLast ++ after.chars = _
  rw [toList_writeFrame, List.dropLast_concat]

theorem lineFeed_not_mem_line (row : Row α) : '\n' ∉ row.line encode := by
  cases row with
  | blank pad => exact pad.inline
  | record before value after =>
    rw [line_record, List.mem_append, List.mem_append]
    rintro ((h | h) | h)
    · exact before.inline h
    · exact (Json.printable_text (encode value)).lineFeed_not_mem h
    · exact after.inline h

/-- The frames one after the other are the lines without blanks around their values. -/
theorem stream_bare (values : List α) :
    stream encode (values.map bare) =
      Text.bytesOf (String.join (values.map fun value => writeFrame (encode value))) := by
  induction values with
  | nil => rfl
  | cons value values ih =>
    have hbare : String.ofList ((bare value).line encode ++ ['\n']) =
        writeFrame (encode value) := by
      rw [bare, line_record, List.nil_append, List.append_nil, ← toList_writeFrame,
        String.ofList_toList]
    show Text.bytesOf (String.ofList ((bare value).line encode ++ ['\n'])) ++
      stream encode (values.map bare) = _
    rw [ih, hbare, List.map_cons, String.join_cons, Text.bytesOf_append]

/-- **A line is read as its value**, or skipped when it has none. -/
theorem ofLine?_line (hobject : ∀ value, ∃ members, encode value = .obj members)
    (hread : ReadsBack encode read) (row : Row α) :
    Frame.ofLine? read (Text.bytesOf (String.ofList (row.line encode))) =
      row.value?.map .record := by
  unfold Frame.ofLine?
  rw [Text.Utf8.decode?_bytesOf]
  dsimp only
  rw [String.toList_ofList]
  cases row with
  | blank pad => exact Frame.ofText?_blank read (Text.trim_blank pad.blank)
  | record before value after =>
    obtain ⟨members, hobj⟩ := hobject value
    have htext : (encode value).text = '\x7b' :: (Json.membersText members ++ ['\x7d']) := by
      rw [hobj]
      rfl
    have htrim : Text.trim ((Row.record before value after).line encode) = (encode value).text := by
      rw [line_record, htext]
      exact Text.trim_padded before.blank after.blank (by decide) (by decide)
    refine Frame.ofText?_record htrim (by simp [htext]) ?_
    rw [Raw.parse?_text, Option.bind_some, hread value]

/-- **Reading a stream gives its values**, and nothing else. -/
theorem readAll_stream (hobject : ∀ value, ∃ members, encode value = .obj members)
    (hread : ReadsBack encode read) (rows : List (Row α)) :
    Frame.readAll read (stream encode rows) = (values rows).map .record := by
  unfold Frame.readAll
  induction rows with
  | nil => rfl
  | cons row rows ih =>
    have hfresh : (0x0A : UInt8) ∉ Text.bytesOf (String.ofList (row.line encode)) := by
      rw [Text.bytesOf_ofList]
      exact Text.lineFeed_not_mem_bytes row.lineFeed_not_mem_line
    have hbytes : stream encode (row :: rows) =
        Text.bytesOf (String.ofList (row.line encode)) ++ 0x0A :: stream encode rows := by
      show Text.bytesOf (String.ofList (row.line encode ++ ['\n'])) ++ stream encode rows = _
      rw [Text.bytesOf_ofList, Text.bytesOf_ofList, List.flatMap_append, List.append_assoc]
      rfl
    rw [hbytes, Text.cutLines_row hfresh, List.filterMap_cons, ofLine?_line hobject hread, ih]
    cases row <;> rfl

end Reading

/-- **Streams of greetings, of inbound records and of requests are read back**, whatever blank lines
and blanks stand between and around their records; and every frame is one line. -/
theorem streams_read_back :
    (∀ rows : List (Row Hello),
      Frame.readAll Hello.ofRaw? (stream Hello.toJson rows) = (values rows).map .record) ∧
    (∀ rows : List (Row Inbound),
      Frame.readAll Inbound.ofRaw? (stream Inbound.toJson rows) = (values rows).map .record) ∧
    (∀ rows : List (Row EvalRequest),
      Frame.readAll EvalRequest.ofRaw? (stream EvalRequest.toJson rows) =
        (values rows).map .record) ∧
    ∀ record : Json,
      ∃ line, Text.bytesOf (writeFrame record) = line ++ [0x0A] ∧ (0x0A : UInt8) ∉ line :=
  ⟨readAll_stream (fun _ => ⟨_, rfl⟩) Hello.readsBack,
    readAll_stream (fun _ => ⟨_, rfl⟩) Inbound.readsBack,
    readAll_stream (fun _ => ⟨_, rfl⟩) EvalRequest.readsBack, writeFrame_line⟩

end Row

end InlineRepl
