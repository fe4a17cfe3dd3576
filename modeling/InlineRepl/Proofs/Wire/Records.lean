import InlineRepl.Wire.Request
import InlineRepl.Proofs.Wire.Reply

/-!
# Records are read back

Every record of the control channel is read back from what is written for it: a greeting, a request
with whatever of its fields is absent, and an inbound record of each of the six kinds. A field that
is absent is left out, so the written object never gives `null` for it and never a key twice.

Results:
* `Json.lookup_present`: what the members that are present look up.
* `Json.ReadsBack.optional`: an optional field is read back, present or absent.
* `Hello.readsBack`, `EvalRequest.readsBack`, `Inbound.readsBack`: the records of the channel.
-/

namespace InlineRepl

open Json (Raw Record)

namespace Json

/-! ## Members that may be absent -/

theorem keys_present (members : List (String × Option Json)) :
    ((present members).map Prod.fst).Sublist (members.map Prod.fst) := by
  induction members with
  | nil => exact .refl _
  | cons member members ih =>
    obtain ⟨key, _ | value⟩ := member
    · exact ih.cons key
    · exact ih.cons_cons key

/-- **The members that are present** look up what all of them do. -/
theorem lookup_present (name : String) : ∀ {members : List (String × Option Json)},
    (members.map Prod.fst).Nodup → (present members).lookup name = (members.lookup name).join
  | [], _ => rfl
  | (key, value) :: members, hn => by
    obtain ⟨hkey, hn⟩ := List.nodup_cons.mp hn
    have ih := lookup_present name hn
    cases value with
    | some value =>
      show List.lookup name ((key, value) :: present members) = _
      rw [List.lookup_cons, List.lookup_cons, ih]
      cases name == key <;> rfl
    | none =>
      show List.lookup name (present members) = _
      rw [List.lookup_cons]
      cases hname : name == key with
      | false => exact ih
      | true =>
        obtain rfl := beq_iff_eq.mp hname
        exact Record.lookup_eq_none fun hm => hkey ((keys_present members).mem hm)

/-- Reading a record from a written object that leaves out what is absent. -/
theorem Record.ofRaw_present (members : List (String × Option Json))
    (hn : (members.map Prod.fst).Nodup) (names : List String) :
    ∃ record, Record.ofRaw names (Raw.ofJson (.obj (present members))) = some record ∧
      ∀ name ∈ names, record.lookup name = (members.lookup name).join.map Raw.ofJson := by
  obtain ⟨record, hr, hl⟩ :=
    Record.ofRaw_obj (present members) (hn.sublist (keys_present members)) names
  exact ⟨record, hr, fun name hname => (hl name hname).trans (by rw [lookup_present name hn])⟩

/-! ## What is read back -/

/-- What `encode` writes is read back. -/
def ReadsBack {α : Type} (encode : α → Json) (read : Raw → Option α) : Prop :=
  ∀ value, read (Raw.ofJson (encode value)) = some value

section Fields

variable {α : Type} {encode : α → Json} {read : Raw → Option α} {record : Record} {name : String}

theorem ReadsBack.required {value : α} (h : ReadsBack encode read)
    (hl : record.lookup name = some (Raw.ofJson (encode value))) :
    record.required name read = some value :=
  (Record.required_eq read hl).trans (h value)

/-- **An optional field is read back**, present or absent. -/
theorem ReadsBack.optional {value : Option α} (h : ReadsBack encode read)
    (hnull : read .null = none) (hl : record.lookup name = (value.map encode).map Raw.ofJson) :
    record.optional name read = some value := by
  cases value with
  | none =>
    unfold Record.optional
    rw [hl]
    rfl
  | some value =>
    have hread := h value
    unfold Record.optional
    rw [hl, Option.map_some, Option.map_some]
    generalize Raw.ofJson (encode value) = written at hread
    cases written with
    | null => exact absurd (hnull.symm.trans hread) (by simp)
    | _ =>
      show (read _).map some = _
      rw [hread, Option.map_some]

end Fields

theorem readsBack_text : ReadsBack Json.str Raw.text? :=
  Raw.text?_str

end Json

theorem SessionId.readsBack : Json.ReadsBack SessionId.toJson SessionId.ofRaw? := by
  intro id
  unfold SessionId.toJson SessionId.ofRaw?
  rw [Raw.word64?_nat, Option.map_some]

theorem DocumentId.readsBack : Json.ReadsBack DocumentId.toJson DocumentId.ofRaw? := by
  intro id
  unfold DocumentId.toJson DocumentId.ofRaw?
  rw [Raw.word64?_nat, Option.map_some]

theorem WatchId.readsBack : Json.ReadsBack WatchId.toJson WatchId.ofRaw? := by
  intro id
  unfold WatchId.toJson WatchId.ofRaw?
  rw [Raw.text?_str, Option.map_some]

/-! ## Positions -/

theorem Cursor.readsBack : Json.ReadsBack Cursor.toJson Cursor.ofRaw? := by
  intro cursor
  unfold Cursor.toJson Cursor.ofRaw?
  obtain ⟨record, hr, hl⟩ := Record.ofRaw_obj
    [("line", .nat cursor.line.toNat), ("ch", .nat cursor.column.toNat)] (by simp) ["line", "ch"]
  rw [hr]
  simp [Record.required, Record.defaulted, hl, List.lookup_cons]

theorem LineRange.readsBack : Json.ReadsBack LineRange.toJson LineRange.ofRaw? := by
  intro range
  unfold LineRange.toJson LineRange.ofRaw?
  obtain ⟨record, hr, hl⟩ := Record.ofRaw_obj
    [("start", .nat range.start.toNat), ("end", .nat range.stop.toNat)] (by simp) ["start", "end"]
  rw [hr]
  simp [Record.required, hl, List.lookup_cons]

theorem Placement.readsBack : Json.ReadsBack Placement.toJson Placement.ofRaw? := by
  intro place
  unfold Placement.toJson Placement.ofRaw?
  obtain ⟨record, hr, hl⟩ := Record.ofRaw_present
    [("start", some (.nat place.start.toNat)), ("end", some (.nat place.stop.toNat)),
      ("id", place.watch.map WatchId.toJson)]
    (by simp) ["start", "end", "id"]
  have hwatch : record.optional "id" WatchId.ofRaw? = some place.watch :=
    WatchId.readsBack.optional rfl (hl "id" (by simp))
  rw [hr]
  simp [Record.required, hl, List.lookup_cons, hwatch]

/-- A placement is written as one that an inbound record may hold. -/
theorem Placement.toJson_places (place : Placement) : place.toJson.Places place := by
  refine ⟨Placement.readsBack place, Raw.isPlain_obj ?_, Raw.depth_obj ?_⟩
  all_goals
    obtain ⟨start, stop, _ | watch⟩ := place
    all_goals simp [Json.present, Raw.isPlain_word32, WatchId.toJson]

/-! ## Greetings and requests -/

/-- **A greeting is read back.** -/
theorem Hello.readsBack : Json.ReadsBack Hello.toJson Hello.ofRaw? := by
  intro hello
  unfold Hello.toJson Hello.ofRaw?
  obtain ⟨record, hr, hl⟩ := Record.ofRaw_obj [("session", hello.session.toJson)] (by simp)
    ["session"]
  have hsession : record.required "session" SessionId.ofRaw? = some hello.session :=
    SessionId.readsBack.required (hl "session" (by simp))
  rw [hr]
  simp [hsession]

theorem EvalInfo.readsBack : Json.ReadsBack EvalInfo.toJson EvalInfo.ofRaw? := by
  intro info
  unfold EvalInfo.toJson EvalInfo.ofRaw?
  obtain ⟨record, hr, hl⟩ := Record.ofRaw_present
    [("path", info.path.map Json.str), ("name", info.name.map Json.str),
      ("code", some (.str info.code)), ("pos", info.caret.map Cursor.toJson),
      ("meta", info.selection.map LineRange.toJson)]
    (by simp) ["path", "name", "code", "pos", "meta"]
  have hpath : record.optional "path" Raw.text? = some info.path :=
    Json.readsBack_text.optional rfl (hl "path" (by simp))
  have hname : record.optional "name" Raw.text? = some info.name :=
    Json.readsBack_text.optional rfl (hl "name" (by simp))
  have hcode : record.required "code" Raw.text? = some info.code :=
    Json.readsBack_text.required (hl "code" (by simp))
  have hcaret : record.optional "pos" Cursor.ofRaw? = some info.caret :=
    Cursor.readsBack.optional rfl (hl "pos" (by simp))
  have hselection : record.optional "meta" LineRange.ofRaw? = some info.selection :=
    LineRange.readsBack.optional rfl (hl "meta" (by simp))
  rw [hr]
  simp [hpath, hname, hcode, hcaret, hselection]

/-- **A request is read back**, whatever of its fields is absent. -/
theorem EvalRequest.readsBack : Json.ReadsBack EvalRequest.toJson EvalRequest.ofRaw? := by
  intro request
  unfold EvalRequest.toJson EvalRequest.ofRaw?
  obtain ⟨record, hr, hl⟩ := Record.ofRaw_obj
    [("command", .str request.command), ("origin", request.origin.toJson),
      ("info", request.info.toJson)]
    (by simp) ["command", "origin", "info"]
  have hcommand : record.required "command" Raw.text? = some request.command :=
    Json.readsBack_text.required (hl "command" (by simp))
  have horigin : record.required "origin" DocumentId.ofRaw? = some request.origin :=
    DocumentId.readsBack.required (hl "origin" (by simp))
  have hinfo : record.required "info" EvalInfo.ofRaw? = some request.info :=
    EvalInfo.readsBack.required (hl "info" (by simp))
  rw [hr]
  simp [hcommand, horigin, hinfo]

/-! ## Inbound records -/

/-- A response is a reply about a place, or a print. -/
theorem Response.placed_or_print (response : Response) :
    (∃ (reply : Reply) (place : Placement), response = reply.placed place) ∨
      ∃ file message, response = .print file message := by
  cases response with
  | result value place => exact .inl ⟨.result value, place, rfl⟩
  | success place => exact .inl ⟨.success, place, rfl⟩
  | exception text place => exact .inl ⟨.exception text, place, rfl⟩
  | image payload place => exact .inl ⟨.image payload, place, rfl⟩
  | print file message => exact .inr ⟨file, message, rfl⟩
  | watch value place => exact .inl ⟨.watch value, place, rfl⟩

/-- A print is read back. It belongs to no place, so it is no reply about one. -/
theorem Inbound.ofRaw?_print (origin : DocumentId) (file message : String) :
    Inbound.ofRaw? (Raw.ofJson (Inbound.toJson { origin, response := .print file message })) =
      some { origin, response := .print file message } := by
  let members : List (String × Json) :=
    [("origin", origin.toJson), ("tag", .str Tag.print.name), ("file", .str file),
      ("msg", .str message)]
  have hn : (members.map Prod.fst).Nodup := by simp [members]
  have hstrict : (Raw.ofJson (.obj members)).isStrict = true := by
    refine Raw.isStrict_obj ?_ ?_
    all_goals simp [members, DocumentId.toJson, Raw.isPlain_word64]
  obtain ⟨head, hh, hhl⟩ := Record.select_read hn (.refl members) ["origin"]
  obtain ⟨tagged, ht, htl⟩ := Record.select_read hn (.refl members) ["tag"]
  obtain ⟨record, hr, hrl⟩ := Record.select_read hn (.refl members) (Response.fieldNames .print)
  have horigin : head.required "origin" DocumentId.ofRaw? = some origin :=
    DocumentId.readsBack.required (hhl "origin" (by simp))
  have htag : tagged.required "tag" Tag.ofTextOrIndex? = some .print :=
    (Record.required_eq _ (htl "tag" (by simp))).trans (Tag.ofTextOrIndex?_name .print)
  have hfile : record.required "file" Raw.text? = some file :=
    Json.readsBack_text.required (hrl "file" (by simp [Response.fieldNames]))
  have hmessage : record.required "msg" Raw.text? = some message :=
    Json.readsBack_text.required (hrl "msg" (by simp [Response.fieldNames]))
  show Inbound.ofRaw? (Raw.ofJson (.obj members)) = _
  unfold Inbound.ofRaw?
  rw [if_pos hstrict]
  simp [Raw.ofJson, Record.named_ofMembers, Response.ofMembers?, Response.ofRecord?, hh, ht, hr,
    horigin, htag, hfile, hmessage]

/-- **An inbound record is read back**, whichever of the six kinds its response is of. -/
theorem Inbound.readsBack : Json.ReadsBack Inbound.toJson Inbound.ofRaw? := by
  rintro ⟨origin, response⟩
  rcases response.placed_or_print with ⟨reply, place, rfl⟩ | ⟨file, message, rfl⟩
  · exact Inbound.ofRaw?_record place.toJson_places (reply.members_perm origin place)
  · exact Inbound.ofRaw?_print origin file message

end InlineRepl
