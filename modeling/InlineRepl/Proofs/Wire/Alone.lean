import InlineRepl.Proofs.Wire.Extension

/-!
# A response is read alone as inside an inbound record

The two readers of a response take the same way through the members of an object: the stricter
reading, the tag, the fields of its kind. They differ in what a tag may be, which only a number
shows, and in `origin`, which one of them asks for and the other skips. So on a text that gives
`origin` once, as an identifier, and every tag as a string, one reads a response where the other
does, and the same one.

Results:
* `Record.mem_of_named`, `Record.filter_named`: members under the texts of their keys.
* `Response.ofMembers?_string`: tags that are strings are read alike.
* `Inbound.readText_iff_alone`: the two readers agree.
-/

namespace InlineRepl

open Json (Raw Record readText Padded)

variable {members : List (List Json.Unit16 × Raw)} {named : List (String × Raw)}

/-! ## Members under the texts of their keys -/

namespace Json.Record

/-- Where a member under the text of its key comes from. -/
theorem mem_of_named : ∀ {members : List (List Unit16 × Raw)} {named : List (String × Raw)},
    Record.named members = some named → ∀ {name : String} {value : Raw}, (name, value) ∈ named →
      ∃ key, (key, value) ∈ members ∧ joinUnits key = some name.toList
  | [], _, h, _, _, hm => by
    obtain rfl := Option.some.inj h
    exact absurd hm List.not_mem_nil
  | (key, first) :: members, _, h, name, value, hm => by
    simp only [Record.named, Option.bind_eq_bind, Option.bind_eq_some_iff] at h
    obtain ⟨text, htext, rest, hrest, h⟩ := h
    obtain rfl := Option.some.inj h
    rcases List.mem_cons.mp hm with heq | hm
    · obtain ⟨rfl, rfl⟩ := Prod.mk.inj heq
      exact ⟨key, List.mem_cons_self, by rw [htext, String.toList_ofList]⟩
    · obtain ⟨other, hmem, hother⟩ := mem_of_named hrest hm
      exact ⟨other, List.mem_cons_of_mem _ hmem, hother⟩

/-- **The members of a name** are those whose key spells it. -/
theorem filter_named (name : String) : ∀ {members : List (List Unit16 × Raw)}
    {named : List (String × Raw)}, Record.named members = some named →
      named.filter (fun m => decide (m.1 ∈ [name])) =
        (members.filter fun m => decide (joinUnits m.1 = some name.toList)).map
          fun m => (name, m.2)
  | [], _, h => by
    obtain rfl := Option.some.inj h
    rfl
  | (key, value) :: members, _, h => by
    simp only [Record.named, Option.bind_eq_bind, Option.bind_eq_some_iff] at h
    obtain ⟨text, htext, rest, hrest, h⟩ := h
    obtain rfl := Option.some.inj h
    have ih := filter_named name hrest
    by_cases hname : String.ofList text = name
    · subst hname
      rw [List.filter_cons_of_pos (by simp), List.filter_cons_of_pos (by simp [htext]),
        List.map_cons, ih]
    · have hkey : joinUnits key ≠ some name.toList := by
        rw [htext]
        intro heq
        exact hname (by rw [Option.some.inj heq, String.ofList_toList])
      rw [List.filter_cons_of_neg (by simpa using hname),
        List.filter_cons_of_neg (by simpa using hkey), ih]

end Json.Record

/-! ## Tags -/

/-- **Tags that are strings are read alike** where numbers are tags and where they are not. -/
theorem Response.ofMembers?_string (hnamed : Record.named members = some named)
    (htag : ∀ m ∈ members, Json.joinUnits m.1 = some "tag".toList → ∃ units, m.2 = .string units) :
    ofMembers? Tag.ofTextOrIndex? named = ofMembers? Tag.ofText? named := by
  unfold ofMembers?
  cases hselect : Record.select ["tag"] named with
  | none => rfl
  | some head =>
    have hrequired : head.required "tag" Tag.ofTextOrIndex? = head.required "tag" Tag.ofText? := by
      obtain ⟨rfl, -⟩ := Record.select_eq_some_iff.mp hselect
      unfold Record.required
      rw [Record.lookup_filter List.mem_cons_self]
      cases hlookup : named.lookup "tag" with
      | none => rfl
      | some value =>
        obtain ⟨front, back, rfl, -⟩ := List.lookup_eq_some_iff.mp hlookup
        obtain ⟨key, hmem, hkey⟩ :=
          Record.mem_of_named hnamed (List.mem_append_right front List.mem_cons_self)
        obtain ⟨units, hunits⟩ := htag _ hmem hkey
        rw [show value = .string units from hunits]
        rfl
    simp only [Option.bind_eq_bind, Option.bind_some, hrequired]

/-! ## The two readers -/

namespace Inbound

variable {key : List Json.Unit16} {value : Raw} {origin : UInt64}

/-- An inbound record is the response that its members are read as alone, with its origin. -/
theorem ofRaw?_eq_map
    (horigin : (members.filter fun m => decide (Json.joinUnits m.1 = some "origin".toList)) =
      [(key, value)]) (hvalue : value.word64? = some origin)
    (htag : ∀ m ∈ members, Json.joinUnits m.1 = some "tag".toList → ∃ units, m.2 = .string units) :
    ofRaw? (.object members) =
      (Response.ofRaw? (.object members)).map fun response => { origin := ⟨origin⟩, response } := by
  cases hnamed : Record.named members with
  | none =>
    unfold ofRaw? Response.ofRaw?
    simp [hnamed]
  | some named =>
    have hselect : Record.select ["origin"] named = some [("origin", value)] := by
      rw [Record.select_eq_some_iff, Record.filter_named "origin" hnamed, horigin]
      exact ⟨rfl, by simp⟩
    have hrequired : Record.required [("origin", value)] "origin" DocumentId.ofRaw? =
        some ⟨origin⟩ := by
      rw [Record.required_eq _ List.lookup_cons_self, DocumentId.ofRaw?, hvalue, Option.map_some]
    rw [ofRaw?_object hnamed, Response.ofRaw?]
    by_cases hstrict : (Raw.object members).isStrict = true
    · simp only [if_pos hstrict, hnamed, hselect, hrequired, Option.bind_eq_bind, Option.bind_some,
        Response.ofMembers?_string hnamed htag]
      cases Response.ofMembers? Tag.ofText? named <;> rfl
    · rw [if_neg hstrict, if_neg hstrict]
      rfl

/-- **The two readers agree**: on a text that is an object with one member `origin`, an identifier,
and with strings for its tags, a response is read inside an inbound record if and only if it is read
alone; and both refuse the same texts. -/
theorem readText_iff_alone {text : String}
    (htext : Padded (Raw.object members).SpelledBy text.toList)
    (horigin : (members.filter fun m => decide (Json.joinUnits m.1 = some "origin".toList)) =
      [(key, value)]) (hvalue : value.word64? = some origin)
    (htag : ∀ m ∈ members, Json.joinUnits m.1 = some "tag".toList → ∃ units, m.2 = .string units) :
    (∀ response, readText ofRaw? text = some { origin := ⟨origin⟩, response } ↔
      readText Response.ofRaw? text = some response) ∧
    (readText ofRaw? text = none ↔ readText Response.ofRaw? text = none) := by
  rw [Raw.readText_spelled ofRaw? htext, Raw.readText_spelled Response.ofRaw? htext,
    ofRaw?_eq_map horigin hvalue htag]
  refine ⟨fun response => ?_, Option.map_eq_none_iff⟩
  rw [Option.map_eq_some_iff]
  constructor
  · rintro ⟨other, hother, heq⟩
    rw [hother, (Inbound.mk.inj heq).2]
  · intro h
    exact ⟨response, h, rfl⟩

/-- A print that gives its origin between its other members is read inside an inbound record,
because it is read alone. -/
theorem readText_print :
    readText ofRaw? (Json.obj [("tag", .str "print"), ("file", .str "a"), ("origin", .nat 7),
      ("msg", .str "b")]).compact = some { origin := ⟨7⟩, response := .print "a" "b" } := by
  have htext : Padded (Raw.object (Raw.ofMembers [("tag", .str "print"), ("file", .str "a"),
      ("origin", .nat 7), ("msg", .str "b")])).SpelledBy (Json.obj [("tag", .str "print"),
        ("file", .str "a"), ("origin", .nat 7), ("msg", .str "b")]).compact.toList := by
    rw [Json.compact, String.toList_ofList]
    exact Json.padded_self (Raw.spelledBy_text (.obj _))
  refine ((readText_iff_alone htext rfl (Raw.word64?_nat 7) fun m hm hkey => ?_).1 _).mpr ?_
  · simp only [Raw.ofMembers, List.mem_cons, List.not_mem_nil, or_false] at hm
    rcases hm with rfl | rfl | rfl | rfl
    · exact ⟨_, rfl⟩
    · exact ⟨_, rfl⟩
    · exact absurd hkey (by decide)
    · exact ⟨_, rfl⟩
  · decide +kernel

end Inbound

end InlineRepl
