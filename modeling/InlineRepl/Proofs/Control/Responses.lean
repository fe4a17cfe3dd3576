import InlineRepl.Control.Bridge
import InlineRepl.Proofs.Text.Lines

/-!
# Responses survive bad neighbours, up to a line that is no text

`inbound?` is the record that a line holds by itself, whatever stands around it. A connection tells
the records of its lines in their order, and neither a blank line nor a line that is some other text
costs more than itself: the next line is read. A line that is not UTF-8 is different. It ends the
connection, and the records after it are never told.

Results:
* `happenings_eq`: what is told are the records in front of the first line that is no text.
* `serve_tells`: so for a whole connection, and when exactly that loses no record.
* `record_lost_after_unreadable`: a connection that loses one.
-/

namespace InlineRepl.Bridge

open Json (Raw)

/-! ## Lines -/

/-- The line is UTF-8. -/
def isText (line : List UInt8) : Bool :=
  (Text.Utf8.decode? line).isSome

/-- The inbound record that a line holds, blanks around it aside. -/
def inbound? (line : List UInt8) : Option Inbound := do
  let text ← Text.Utf8.decode? line
  let raw ← Raw.parse? (Text.trim text.toList)
  Inbound.ofRaw? raw

variable {line : List UInt8} {lines : List (List UInt8)}

theorem ofLine?_of_not_isText (h : isText line = false) :
    Frame.ofLine? Inbound.ofRaw? line = some .unreadable := by
  unfold isText at h
  unfold Frame.ofLine?
  rw [Option.isSome_eq_false_iff, Option.isNone_iff_eq_none] at h
  rw [h]

/-- **A line of text is a frame of its record**, or it is skipped or malformed. -/
theorem ofLine?_of_isText (h : isText line = true) :
    (∃ inbound, inbound? line = some inbound ∧
        Frame.ofLine? Inbound.ofRaw? line = some (.record inbound)) ∨
      inbound? line = none ∧
        (Frame.ofLine? Inbound.ofRaw? line = none ∨
          ∃ excerpt, Frame.ofLine? Inbound.ofRaw? line = some (.malformed excerpt)) := by
  obtain ⟨text, htext⟩ := Option.isSome_iff_exists.mp h
  have hrecord : inbound? line =
      (Raw.parse? (Text.trim text.toList)).bind Inbound.ofRaw? := by
    unfold inbound?
    rw [htext]
    rfl
  have hframe : Frame.ofLine? Inbound.ofRaw? line =
      Frame.ofText? Inbound.ofRaw? text.toList := by
    unfold Frame.ofLine?
    rw [htext]
  rw [hrecord, hframe]
  unfold Frame.ofText?
  cases Text.trim text.toList with
  | nil => exact .inr ⟨rfl, .inl rfl⟩
  | cons c cs =>
    dsimp only
    cases (Raw.parse? (c :: cs)).bind Inbound.ofRaw? with
    | none => exact .inr ⟨rfl, .inr ⟨_, rfl⟩⟩
    | some inbound => exact .inl ⟨inbound, rfl, rfl⟩

/-! ## Connections -/

/-- The records of lines, in their order. -/
def inbounds (lines : List (List UInt8)) : List Inbound :=
  lines.filterMap inbound?

/-- The lines in front of the first one that is no text. -/
def readable (lines : List (List UInt8)) : List (List UInt8) :=
  lines.takeWhile isText

/-- The lines from the first one that is no text. -/
def unread (lines : List (List UInt8)) : List (List UInt8) :=
  lines.dropWhile isText

theorem inbounds_split (lines : List (List UInt8)) :
    inbounds lines = inbounds (readable lines) ++ inbounds (unread lines) := by
  unfold inbounds readable unread
  rw [← List.filterMap_append, List.takeWhile_append_dropWhile]

/-- **What is told are the records in front of the first line that is no text**, and then that the
connection has ended. -/
theorem happenings_eq : ∀ lines : List (List UInt8),
    happenings lines = (inbounds (readable lines)).map .inbound ++ [.detached]
  | [] => rfl
  | line :: lines => by
    have ih := happenings_eq lines
    unfold happenings
    unfold inbounds readable at ih ⊢
    cases htext : isText line with
    | false =>
      rw [ofLine?_of_not_isText htext, List.takeWhile_cons_of_neg (by simp [htext])]
      rfl
    | true =>
      rw [List.takeWhile_cons_of_pos htext, List.filterMap_cons]
      rcases ofLine?_of_isText htext with ⟨inbound, hrecord, hframe⟩ |
        ⟨hrecord, hframe | ⟨excerpt, hframe⟩⟩
      · rw [hrecord, hframe]
        dsimp only
        rw [ih]
        rfl
      · rw [hrecord, hframe]
        exact ih
      · rw [hrecord, hframe]
        exact ih

/-- A greeting is found without looking at the lines after it. -/
theorem greeting_append {hello : Hello} {rest : List (List UInt8)} (more : List (List UInt8)) :
    ∀ {lines : List (List UInt8)}, greeting lines = some (hello, rest) →
      greeting (lines ++ more) = some (hello, rest ++ more)
  | line :: lines, h => by
    rw [List.cons_append]
    unfold greeting at h ⊢
    split at h
    · exact greeting_append more h
    · obtain ⟨rfl, rfl⟩ := Prod.mk.inj (Option.some.inj h)
      rfl
    · cases h

/-- What a connection tells of its session: a bridge has come, the records, the bridge is gone. -/
def told (session : SessionId) (records : List Inbound) : List SessionEvent :=
  (Happening.attached :: (records.map .inbound ++ [.detached])).map fun happening =>
    { session, happening }

theorem told_inj {session : SessionId} {records others : List Inbound}
    (h : told session records = told session others) : records = others := by
  unfold told at h
  rw [List.map_inj_right fun _ _ he => (SessionEvent.mk.inj he).2] at h
  have hrecords := List.append_cancel_right (List.cons.inj h).2
  rwa [List.map_inj_right fun _ _ he => Happening.inbound.inj he] at hrecords

/-- The greeting ends the first bytes and claims a lane; the stream follows on its own lines. -/
theorem serve_greeted {server after : ControlServer} {hello : Hello} {lane : Nat}
    {first : List UInt8}
    (hgreeting : greeting (Text.cutLines 0x0A (first ++ [0x0A])) = some (hello, []))
    (hclaim : server.greet hello = some (lane, after)) (stream : List UInt8) :
    serve server (first ++ 0x0A :: stream) =
      (told hello.session (inbounds (readable (Text.cutLines 0x0A stream))),
        after.hangUp lane) := by
  unfold serve
  rw [Text.cutLines_append, greeting_append _ hgreeting, List.nil_append]
  dsimp only
  rw [hclaim]
  dsimp only
  rw [happenings_eq]
  rfl

/-- **Which responses a connection tells.** After the greeting that has claimed a lane, whatever
the stream holds: that a bridge has come, then the records of the lines in front of the first line
that is no text, in their order, then that the bridge is gone. These are the records of all lines
exactly when no record follows such a line, as in every stream that is UTF-8. -/
theorem serve_tells (server after : ControlServer) (hello : Hello) (lane : Nat)
    (first : List UInt8)
    (hgreeting : greeting (Text.cutLines 0x0A (first ++ [0x0A])) = some (hello, []))
    (hclaim : server.greet hello = some (lane, after)) (stream : List UInt8) :
    serve server (first ++ 0x0A :: stream) =
        (told hello.session (inbounds (readable (Text.cutLines 0x0A stream))),
          after.hangUp lane) ∧
      ((serve server (first ++ 0x0A :: stream)).1 =
          told hello.session (inbounds (Text.cutLines 0x0A stream)) ↔
        inbounds (unread (Text.cutLines 0x0A stream)) = []) := by
  have hserve := serve_greeted hgreeting hclaim stream
  refine ⟨hserve, ?_⟩
  rw [hserve]
  generalize Text.cutLines 0x0A stream = lines
  constructor
  · intro h
    have hrecords := told_inj h
    rw [inbounds_split lines] at hrecords
    exact List.self_eq_append_right.mp hrecords
  · intro h
    rw [inbounds_split lines, h, List.append_nil]

/-! ## A record that is lost -/

/-- A server that awaits the bridge of session 1. -/
def awaiting : ControlServer :=
  { lanes := [{ session := ⟨1⟩ }], current := [(⟨1⟩, 0)] }

/-- The greeting of session 1. -/
def greetingLine : List UInt8 :=
  Text.bytesOf "\x7b\"session\":1\x7d"

/-- A response of document 1. -/
def responseLine : List UInt8 :=
  Text.bytesOf "\x7b\"origin\":1,\"tag\":\"print\",\"file\":\"a\",\"msg\":\"b\"\x7d"

/-- A text that is no record costs only itself. -/
theorem serve_tells_after_malformed :
    (serve awaiting (greetingLine ++ 0x0A :: (0x7B :: 0x0A :: responseLine))).1 =
      told ⟨1⟩ [{ origin := ⟨1⟩, response := .print "a" "b" }] := by
  have htells := serve_tells awaiting _ ⟨⟨1⟩⟩ 0 greetingLine (by decide +kernel) rfl
    (0x7B :: 0x0A :: responseLine)
  rw [htells.2.mpr (by decide +kernel)]
  decide +kernel

/-- **A record is lost after a line that is no text**: the stream holds one, and the connection
tells none. -/
theorem record_lost_after_unreadable :
    inbounds (Text.cutLines 0x0A (0xFF :: 0x0A :: responseLine)) =
        [{ origin := ⟨1⟩, response := .print "a" "b" }] ∧
      (serve awaiting (greetingLine ++ 0x0A :: (0xFF :: 0x0A :: responseLine))).1 = told ⟨1⟩ [] ∧
      (serve awaiting (greetingLine ++ 0x0A :: (0xFF :: 0x0A :: responseLine))).1 ≠
        told ⟨1⟩ (inbounds (Text.cutLines 0x0A (0xFF :: 0x0A :: responseLine))) := by
  decide +kernel

end InlineRepl.Bridge
