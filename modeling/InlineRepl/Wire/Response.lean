import InlineRepl.Wire.Position

/-!
# Responses

A response carries a tag that says which of six kinds it is. It is read in two ways:

* **alone** (`Response.ofRaw?`): an object with the tag at any position, or an array whose first
  item is the tag and whose other items are the fields in order; the tag is a string;
* **inside an inbound record** (`Inbound.ofRaw?`): the fields of the response stand beside `origin`
  in one object, and the tag may also be the number of the kind.

Both ask for the stricter reading of the whole text (`Raw.isStrict`), members that they skip
included.
-/

namespace InlineRepl

open Json (Raw Record)

/-- What the bridge reports about an evaluation. -/
inductive Response where
  /-- The value of an expression. -/
  | result (value : String) (place : Placement)
  /-- The code ran and has no value. -/
  | success (place : Placement)
  /-- The evaluation raised. -/
  | exception (text : String) (place : Placement)
  /-- A picture in base64. -/
  | image (payload : String) (place : Placement)
  /-- Something the code printed. -/
  | print (file message : String)
  /-- The new value of the watch that `place` names. -/
  | watch (value : String) (place : Placement)
  deriving Repr, DecidableEq

/-- The kinds of response. -/
inductive Tag where
  | result | success | exception | image | print | watch
  deriving Repr, DecidableEq

namespace Tag

/-- Every tag, in the order of their numbers. -/
def all : List Tag :=
  [.result, .success, .exception, .image, .print, .watch]

/-- The tag's name on the wire. -/
def name : Tag → String
  | .result => "result"
  | .success => "success"
  | .exception => "exception"
  | .image => "image"
  | .print => "print"
  | .watch => "watch"

/-- The tag of a name. -/
def ofName? (name : String) : Option Tag :=
  all.find? fun tag => tag.name == name

/-- The tag of a string. -/
def ofText? (r : Raw) : Option Tag :=
  r.text?.bind ofName?

/-- The tag of a string or of a number. -/
def ofTextOrIndex? (r : Raw) : Option Tag :=
  match r.nat? with
  | some n => all[n]?
  | none => ofText? r

end Tag

namespace Response

/-- The kind of a response. -/
def tag : Response → Tag
  | .result .. => .result
  | .success .. => .success
  | .exception .. => .exception
  | .image .. => .image
  | .print .. => .print
  | .watch .. => .watch

/-- Where a response belongs; a print belongs nowhere. -/
def place? : Response → Option Placement
  | .result _ place => some place
  | .success place => some place
  | .exception _ place => some place
  | .image _ place => some place
  | .print .. => none
  | .watch _ place => some place

/-- The members of a response after its tag. -/
def fields : Response → List (String × Json)
  | .result value place => [("result", .str value), ("meta", place.toJson)]
  | .success place => [("meta", place.toJson)]
  | .exception text place => [("ex", .str text), ("meta", place.toJson)]
  | .image payload place => [("image", .str payload), ("meta", place.toJson)]
  | .print file message => [("file", .str file), ("msg", .str message)]
  | .watch value place => [("result", .str value), ("meta", place.toJson)]

/-- The members of a response, tag first. -/
def members (response : Response) : List (String × Json) :=
  ("tag", .str response.tag.name) :: response.fields

def toJson (response : Response) : Json :=
  .obj response.members

/-- The field names of a kind, in declaration order. -/
def fieldNames : Tag → List String
  | .result => ["result", "meta"]
  | .success => ["meta"]
  | .exception => ["ex", "meta"]
  | .image => ["image", "meta"]
  | .print => ["file", "msg"]
  | .watch => ["result", "meta"]

/-- Reads the fields of a kind. -/
def ofRecord? (record : Record) : Tag → Option Response
  | .result => do
    let value ← record.required "result" Raw.text?
    let place ← record.required "meta" Placement.ofRaw?
    return .result value place
  | .success => do
    let place ← record.required "meta" Placement.ofRaw?
    return .success place
  | .exception => do
    let text ← record.required "ex" Raw.text?
    let place ← record.required "meta" Placement.ofRaw?
    return .exception text place
  | .image => do
    let payload ← record.required "image" Raw.text?
    let place ← record.required "meta" Placement.ofRaw?
    return .image payload place
  | .print => do
    let file ← record.required "file" Raw.text?
    let message ← record.required "msg" Raw.text?
    return .print file message
  | .watch => do
    let value ← record.required "result" Raw.text?
    let place ← record.required "meta" Placement.ofRaw?
    return .watch value place

/-- Reads a response from the members beside its tag. -/
def ofMembers? (readTag : Raw → Option Tag) (members : List (String × Raw)) : Option Response := do
  let head ← Record.select ["tag"] members
  let tag ← head.required "tag" readTag
  let record ← Record.select (fieldNames tag) members
  ofRecord? record tag

/-- Reads a response that stands alone. -/
def ofRaw? (r : Raw) : Option Response :=
  if r.isStrict then
    match r with
    | .object members => (Record.named members).bind (ofMembers? Tag.ofText?)
    | .array (head :: items) => do
      let tag ← Tag.ofText? head
      let record ← Record.ofItems (fieldNames tag) items
      ofRecord? record tag
    | _ => none
  else none

end Response

/-- A response addressed to the document that asked for it. -/
structure Inbound where
  origin : DocumentId
  response : Response
  deriving Repr, DecidableEq

namespace Inbound

def toJson (inbound : Inbound) : Json :=
  .obj (("origin", inbound.origin.toJson) :: inbound.response.members)

/-- Reads an inbound record: `origin` and the members of a response, in one object. -/
def ofRaw? (r : Raw) : Option Inbound :=
  if r.isStrict then
    match r with
    | .object members => do
      let members ← Record.named members
      let head ← Record.select ["origin"] members
      let origin ← head.required "origin" DocumentId.ofRaw?
      let response ← Response.ofMembers? Tag.ofTextOrIndex? members
      return { origin, response }
    | _ => none
  else none

end Inbound

end InlineRepl
