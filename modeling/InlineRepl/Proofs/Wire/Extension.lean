import InlineRepl.Proofs.Json.Extension
import InlineRepl.Proofs.Json.Range
import InlineRepl.Proofs.Wire.Records

/-!
# Inbound records with other members

A bridge may write the members of an inbound record in any order, and more of them than are asked
for, beside the record's own and inside the place of its response. Such a record is read as if the
other members were not there, as long as the whole text passes the stricter reading. A member that
is asked for may not be given twice, at either place.

The stricter reading takes every number for a double. Up to the third-largest double every literal
is one; a literal closer to the largest may be refused.

Results:
* `Placement.ofRaw?_extended`, `Placement.ofRaw?_repeated`: the place of a response.
* `Inbound.ofRaw?_extended`, `Inbound.ofRaw?_repeated`: a whole record, as read.
* `Inbound.readText_extended`: a whole record, as text.
* `Inbound.readText_large`: a number that is refused below the largest double.
-/

namespace InlineRepl

open Json (Raw Record readText Padded IsSpelling Nested)

variable {others : Raw → Prop} {r : Raw}

/-! ## Single fields -/

theorem Tag.ofTextOrIndex?_text {tag : Tag} (h : r.text? = some tag.name) :
    ofTextOrIndex? r = some tag := by
  cases r with
  | string units =>
    show (Raw.text? (.string units)).bind ofName? = some tag
    rw [h, Option.bind_some]
    cases tag <;> decide
  | _ => exact absurd h nofun

/-! ## Places -/

namespace Placement

/-- The names that a place knows. -/
def known : List String :=
  ["start", "end", "id"]

/-- The members that a place is written with. -/
def written (place : Placement) : List (String × Json) :=
  Json.present
    [("start", some (.nat place.start.toNat)), ("end", some (.nat place.stop.toNat)),
      ("id", place.watch.map WatchId.toJson)]

theorem written_nodup (place : Placement) : (place.written.map Prod.fst).Nodup := by
  obtain ⟨start, stop, _ | watch⟩ := place <;> simp [written, Json.present]

theorem written_known (place : Placement) : ∀ name ∈ place.written.map Prod.fst, name ∈ known := by
  obtain ⟨start, stop, _ | watch⟩ := place <;> simp [written, known, Json.present]

theorem written_plain (place : Placement) : ∀ w ∈ place.written,
    (Raw.ofJson w.2).isPlain = true := by
  obtain ⟨start, stop, _ | watch⟩ := place <;>
    simp [written, Json.present, Raw.isPlain_word32, WatchId.toJson]

/-- **A place is read from an object that extends it.** -/
theorem ofRaw?_extended {place : Placement}
    (h : r.IsObject (Record.Extends IsSpelling others known place.written)) :
    ofRaw? r = some place := by
  obtain ⟨members, named, rfl, hnamed, hextends⟩ := h
  obtain ⟨record, hr, hown, hnone⟩ := hextends.select place.written_nodup known fun _ h => h
  have hrecord : Record.ofRaw known (.object members) = some record := by
    show (Record.named members).bind (Record.select known) = some record
    rw [hnamed, Option.bind_some, hr]
  have hword : ∀ name (n : UInt32), (name, Json.nat n.toNat) ∈ place.written → name ∈ known →
      record.required name Raw.word32? = some n := by
    intro name n hw hname
    obtain ⟨value, hl, rfl⟩ := hown _ hw hname
    rw [Record.required_eq _ hl, Raw.word32?_nat]
  have hstart := hword "start" place.start
    (by simp [written, Json.present]) (by decide)
  have hstop := hword "end" place.stop
    (by simp [written, Json.present]) (by decide)
  have hwatch : record.optional "id" WatchId.ofRaw? = some place.watch := by
    cases hid : place.watch with
    | none =>
      unfold Record.optional
      rw [hnone "id" (by decide) (by simp [written, Json.present, hid])]
    | some watch =>
      obtain ⟨value, hl, hvalue⟩ := hown ("id", .str watch.name)
        (by simp [written, Json.present, hid, WatchId.toJson]) (by simp [known])
      have hread : WatchId.ofRaw? value = some watch := by
        unfold WatchId.ofRaw?
        rw [show value.text? = some watch.name from hvalue, Option.map_some]
      unfold Record.optional
      rw [hl]
      cases value with
      | null => cases hvalue
      | _ =>
        show (WatchId.ofRaw? _).map some = _
        rw [hread, Option.map_some]
  unfold ofRaw?
  rw [show (["start", "end", "id"] : List String) = known from rfl, hrecord]
  simp [hstart, hstop, hwatch]

/-- **A place with a name given twice is not read.** -/
theorem ofRaw?_repeated {place : Placement}
    (h : r.IsObject (Record.Repeats IsSpelling others known place.written)) :
    ofRaw? r = none := by
  obtain ⟨members, named, rfl, hnamed, hrepeats⟩ := h
  obtain ⟨name, hname, hselect, -⟩ := hrepeats.select place.written_nodup
  have hrecord : Record.ofRaw known (.object members) = none := by
    show (Record.named members).bind (Record.select known) = none
    rw [hnamed, Option.bind_some, hselect known (place.written_known name hname)]
  unfold ofRaw?
  rw [show (["start", "end", "id"] : List String) = known from rfl, hrecord]
  rfl

end Placement

/-! ## Responses -/

namespace Response

/-- A record that gives every field of a response is read as the response. -/
theorem ofRecord?_of_fields {response : Response} {record : Record}
    (htext : ∀ name text, (name, Json.str text) ∈ response.fields →
      record.required name Raw.text? = some text)
    (hplace : ∀ place, response.place? = some place →
      record.required "meta" Placement.ofRaw? = some place) :
    ofRecord? record response.tag = some response := by
  cases response with
  | result value place =>
    have hvalue := htext "result" value (by simp [fields])
    simp [tag, ofRecord?, hvalue, hplace place rfl]
  | success place => simp [tag, ofRecord?, hplace place rfl]
  | exception text place =>
    have htext := htext "ex" text (by simp [fields])
    simp [tag, ofRecord?, htext, hplace place rfl]
  | image payload place =>
    have hpayload := htext "image" payload (by simp [fields])
    simp [tag, ofRecord?, hpayload, hplace place rfl]
  | print file message =>
    have hfile := htext "file" file (by simp [fields])
    have hmessage := htext "msg" message (by simp [fields])
    simp [tag, ofRecord?, hfile, hmessage]
  | watch value place =>
    have hvalue := htext "result" value (by simp [fields])
    simp [tag, ofRecord?, hvalue, hplace place rfl]

/-- Without a place, no response about one is read. -/
theorem ofRecord?_eq_none {response : Response} {place : Placement} {record : Record}
    (hresponse : response.place? = some place)
    (hplace : record.required "meta" Placement.ofRaw? = none) :
    ofRecord? record response.tag = none := by
  cases response with
  | print file message => exact absurd hresponse nofun
  | _ => simp [tag, ofRecord?, hplace]

/-- The fields of a response are those of its kind. -/
theorem name_mem_fieldNames (response : Response) {name : String} {value : Json}
    (h : (name, value) ∈ response.fields) : name ∈ fieldNames response.tag := by
  have hnames : response.fields.map Prod.fst = fieldNames response.tag := by
    cases response <;> rfl
  rw [← hnames]
  exact List.mem_map_of_mem h

/-- A response about a place writes it as its member `meta`. -/
theorem mem_fields_of_place {response : Response} {place : Placement}
    (h : response.place? = some place) : ("meta", Json.obj place.written) ∈ response.fields := by
  cases response with
  | print file message => exact absurd h nofun
  | _ =>
    obtain rfl := Option.some.inj h
    simp [fields, Placement.toJson, Placement.written]

end Response

/-! ## Inbound records -/

namespace Inbound

/-- The members that an inbound record is written with. -/
def written (inbound : Inbound) : List (String × Json) :=
  ("origin", inbound.origin.toJson) :: inbound.response.members

/-- The names that an inbound record of the kind knows. -/
def known (inbound : Inbound) : List String :=
  "origin" :: "tag" :: Response.fieldNames inbound.response.tag

/-- The record's members in any order, with others beside them and inside the place. -/
def ExtendedBy (others : Raw → Prop) (inbound : Inbound) : Raw → Prop :=
  Raw.IsObject (Record.Extends (Nested (Record.Extends IsSpelling others Placement.known)) others
    inbound.known inbound.written)

/-- An extended record that has one of its members twice, beside the others or inside the place. -/
def RepeatedBy (others : Raw → Prop) (inbound : Inbound) (r : Raw) : Prop :=
  r.IsObject (Record.Repeats (Nested (Record.Extends IsSpelling others Placement.known)) others
      inbound.known inbound.written) ∨
    inbound.response.place?.isSome = true ∧
      r.IsObject (Record.Extends (Nested (Record.Repeats IsSpelling others Placement.known)) others
        inbound.known inbound.written)

variable {inbound : Inbound} {reads : Json → Raw → Prop} {members : List (List Json.Unit16 × Raw)}
  {named : List (String × Raw)}

theorem written_nodup (inbound : Inbound) : (inbound.written.map Prod.fst).Nodup := by
  obtain ⟨origin, response⟩ := inbound
  cases response <;> simp [written, Response.members, Response.fields]

theorem written_known (inbound : Inbound) :
    inbound.written.map Prod.fst = inbound.known := by
  obtain ⟨origin, response⟩ := inbound
  cases response <;> rfl

/-- A record is written with numbers of 64 bits, with texts, and with a place. -/
theorem written_cases (inbound : Inbound) : ∀ w ∈ inbound.written,
    (∃ n : UInt64, w.2 = .nat n.toNat) ∨ (∃ text, w.2 = .str text) ∨
      ∃ place : Placement, w.2 = .obj place.written := by
  have hfields : ∀ w ∈ inbound.response.fields,
      (∃ text, w.2 = .str text) ∨ ∃ place : Placement, w.2 = .obj place.written := by
    obtain ⟨origin, response⟩ := inbound
    intro w hw
    cases response <;>
      simp only [Response.fields, List.mem_cons, List.not_mem_nil, or_false] at hw
    case success place => exact .inr ⟨place, congrArg Prod.snd hw⟩
    case print file message => rcases hw with rfl | rfl <;> exact .inl ⟨_, rfl⟩
    all_goals
      rcases hw with rfl | rfl
      · exact .inl ⟨_, rfl⟩
      · exact .inr ⟨_, rfl⟩
  intro w hw
  simp only [written, Response.members, List.mem_cons] at hw
  rcases hw with rfl | rfl | hw
  · exact .inl ⟨inbound.origin.val, rfl⟩
  · exact .inr (.inl ⟨_, rfl⟩)
  · exact .inr (hfields w hw)

/-- **An extended record passes the stricter reading** if the other members do and the whole is not
nested too deep. -/
theorem isStrict_extended (h : inbound.ExtendedBy others r)
    (hothers : ∀ r, others r → r.isPlain = true) (hdepth : r.depth ≤ Raw.depthLimit) :
    r.isStrict = true := by
  have hvalue : ∀ w ∈ inbound.written, ∀ r,
      Nested (Record.Extends IsSpelling others Placement.known) w.2 r → r.isPlain = true := by
    rintro ⟨name, value⟩ hw r hr
    rcases inbound.written_cases _ hw with ⟨n, rfl⟩ | ⟨text, rfl⟩ | ⟨place, rfl⟩
    · exact IsSpelling.isPlain (show IsSpelling (.nat n.toNat) r from hr) (Raw.isPlain_word64 n)
    · exact IsSpelling.isPlain (show IsSpelling (.str text) r from hr) (Raw.isPlain_str text)
    · exact Raw.IsObject.isPlain hr fun _ hplace =>
        hplace.isPlain (fun w hw _ hr => hr.isPlain (place.written_plain w hw)) hothers
  have hplain : r.isPlain = true :=
    Raw.IsObject.isPlain h fun _ hextends => hextends.isPlain hvalue hothers
  unfold Raw.isStrict
  rw [hplain, decide_eq_true hdepth, Bool.and_self]

/-! ### What is chosen -/

section Chosen

variable {form : List (String × Json) → List (String × Raw) → Prop} {record : Record}

/-- The members chosen under a name that the record was written with. -/
theorem required_origin
    (hown : ∀ w ∈ inbound.written, w.1 ∈ ["origin"] →
      ∃ r, record.lookup w.1 = some r ∧ Nested form w.2 r) :
    record.required "origin" DocumentId.ofRaw? = some inbound.origin := by
  obtain ⟨r, hl, rfl⟩ := hown ("origin", inbound.origin.toJson) List.mem_cons_self (by simp)
  exact (Record.required_eq _ hl).trans (DocumentId.readsBack _)

theorem required_tag
    (hown : ∀ w ∈ inbound.written, w.1 ∈ ["tag"] →
      ∃ r, record.lookup w.1 = some r ∧ Nested form w.2 r) :
    record.required "tag" Tag.ofTextOrIndex? = some inbound.response.tag := by
  obtain ⟨r, hl, hr⟩ := hown ("tag", .str inbound.response.tag.name)
    (List.mem_cons_of_mem _ List.mem_cons_self) (by simp)
  exact (Record.required_eq _ hl).trans (Tag.ofTextOrIndex?_text hr)

theorem required_text
    (hown : ∀ w ∈ inbound.written, w.1 ∈ Response.fieldNames inbound.response.tag →
      ∃ r, record.lookup w.1 = some r ∧ Nested form w.2 r) {name text : String}
    (h : (name, Json.str text) ∈ inbound.response.fields) :
    record.required name Raw.text? = some text := by
  obtain ⟨r, hl, hr⟩ := hown (name, .str text)
    (List.mem_cons_of_mem _ (List.mem_cons_of_mem _ h)) (inbound.response.name_mem_fieldNames h)
  exact (Record.required_eq _ hl).trans hr

theorem lookup_place
    (hown : ∀ w ∈ inbound.written, w.1 ∈ Response.fieldNames inbound.response.tag →
      ∃ r, record.lookup w.1 = some r ∧ Nested form w.2 r) {place : Placement}
    (h : inbound.response.place? = some place) :
    ∃ r, record.lookup "meta" = some r ∧ r.IsObject (form place.written) :=
  have hm := Response.mem_fields_of_place h
  hown ("meta", .obj place.written) (List.mem_cons_of_mem _ (List.mem_cons_of_mem _ hm))
    (inbound.response.name_mem_fieldNames hm)

end Chosen

/-! ### Reading -/

theorem ofRaw?_object (hnamed : Record.named members = some named) :
    ofRaw? (.object members) =
      if (Raw.object members).isStrict then do
        let head ← Record.select ["origin"] named
        let origin ← head.required "origin" DocumentId.ofRaw?
        let response ← Response.ofMembers? Tag.ofTextOrIndex? named
        return { origin, response }
      else none := by
  unfold ofRaw?
  simp only [hnamed, Option.bind_eq_bind, Option.bind_some]

/-- **An extended record is read as the record**, if it passes the stricter reading. -/
theorem ofRaw?_extended (h : inbound.ExtendedBy others r) (hstrict : r.isStrict = true) :
    ofRaw? r = some inbound := by
  obtain ⟨members, named, rfl, hnamed, hextends⟩ := h
  have hselect := hextends.select inbound.written_nodup
  obtain ⟨head, hhead, hhown, -⟩ := hselect ["origin"] (by simp [known])
  obtain ⟨tagged, htagged, htown, -⟩ := hselect ["tag"] (by simp [known])
  obtain ⟨record, hrecord, hrown, -⟩ := hselect (Response.fieldNames inbound.response.tag)
    fun _ hname => List.mem_cons_of_mem _ (List.mem_cons_of_mem _ hname)
  have hresponse : Response.ofRecord? record inbound.response.tag = some inbound.response := by
    refine Response.ofRecord?_of_fields (fun _ _ => required_text hrown) fun place hplace => ?_
    obtain ⟨value, hl, hvalue⟩ := lookup_place hrown hplace
    exact (Record.required_eq _ hl).trans (Placement.ofRaw?_extended hvalue)
  rw [ofRaw?_object hnamed, if_pos hstrict]
  simp [Response.ofMembers?, hhead, required_origin hhown, htagged, required_tag htown, hrecord,
    hresponse]

/-- What has been chosen when a record was read. -/
theorem chosen_of_ofRaw? (hnamed : Record.named members = some named)
    (h : ofRaw? (.object members) = some inbound) :
    ∃ head tagged tag record, Record.select ["origin"] named = some head ∧
      Record.select ["tag"] named = some tagged ∧
      tagged.required "tag" Tag.ofTextOrIndex? = some tag ∧
      Record.select (Response.fieldNames tag) named = some record ∧
      Response.ofRecord? record tag = some inbound.response := by
  rw [ofRaw?_object hnamed] at h
  split at h
  · simp only [Response.ofMembers?, Option.bind_eq_bind, Option.bind_eq_some_iff] at h
    obtain ⟨head, hhead, origin, -, response, ⟨tagged, htagged, tag, htag, record, hrecord, hr⟩,
      h⟩ := h
    obtain rfl := Option.some.inj h
    exact ⟨head, tagged, tag, record, hhead, htagged, htag, hrecord, hr⟩
  · cases h

/-- **A record with a member given twice is not read.** -/
theorem ofRaw?_repeated (h : inbound.RepeatedBy others r) : ofRaw? r = none := by
  refine Option.eq_none_iff_forall_ne_some.mpr fun other hother => ?_
  rcases h with ⟨members, named, rfl, hnamed, hrepeats⟩ |
      ⟨hsome, members, named, rfl, hnamed, hextends⟩
  · obtain ⟨head, tagged, tag, record, hhead, htagged, htag, hrecord, -⟩ :=
      chosen_of_ofRaw? hnamed hother
    obtain ⟨name, hname, hnone, hselect⟩ := hrepeats.select inbound.written_nodup
    have horigin : name ∉ ["origin"] := fun hmem =>
      absurd (hhead.symm.trans (hnone _ hmem)) nofun
    have htagname : name ∉ ["tag"] := fun hmem =>
      absurd (htagged.symm.trans (hnone _ hmem)) nofun
    -- The tag can be chosen, so the repeated name is that of a field of its kind.
    obtain ⟨again, hagain, hown⟩ := hselect ["tag"] htagname (by simp [known])
    obtain rfl := Option.some.inj (htagged.symm.trans hagain)
    obtain rfl := Option.some.inj (htag.symm.trans (required_tag hown))
    rw [written_known, known, List.mem_cons, List.mem_cons] at hname
    rcases hname with rfl | rfl | hfield
    · exact horigin List.mem_cons_self
    · exact htagname List.mem_cons_self
    · exact absurd (hrecord.symm.trans (hnone _ hfield)) nofun
  · obtain ⟨head, tagged, tag, record, -, htagged, htag, hrecord, hresponse⟩ :=
      chosen_of_ofRaw? hnamed hother
    have hselect := hextends.select inbound.written_nodup
    obtain ⟨again, hagain, htown, -⟩ := hselect ["tag"] (by simp [known])
    obtain rfl := Option.some.inj (htagged.symm.trans hagain)
    obtain rfl := Option.some.inj (htag.symm.trans (required_tag htown))
    obtain ⟨again, hagain, hrown, -⟩ := hselect (Response.fieldNames inbound.response.tag)
      fun _ hname => List.mem_cons_of_mem _ (List.mem_cons_of_mem _ hname)
    obtain rfl := Option.some.inj (hrecord.symm.trans hagain)
    obtain ⟨place, hplace⟩ := Option.isSome_iff_exists.mp hsome
    obtain ⟨value, hl, hvalue⟩ := lookup_place hrown hplace
    have hnone : record.required "meta" Placement.ofRaw? = none :=
      (Record.required_eq _ hl).trans (Placement.ofRaw?_repeated hvalue)
    exact absurd (hresponse.symm.trans (Response.ofRecord?_eq_none hplace hnone)) nofun

/-! ### Texts -/

/-- **Members in any order and members that nobody asks for make no difference**: a text that spells
an extended record is read as the record, if its strings have texts, its numbers are doubles and at
most 127 levels are nested. A text with a known member given twice is not read. Every number up to
the third-largest double is one. -/
theorem readText_extended :
    (∀ (inbound : Inbound) (text : String) (r : Raw), Padded r.SpelledBy text.toList →
      inbound.ExtendedBy (Raw.Within fun n => n.fitsDouble = true) r → r.depth ≤ 127 →
        readText ofRaw? text = some inbound) ∧
    (∀ (inbound : Inbound) (text : String) (r : Raw) (others : Raw → Prop),
      Padded r.SpelledBy text.toList → inbound.RepeatedBy others r →
        readText ofRaw? text = none) ∧
    ∀ n : Json.Numeral, n.magnitude ≤ Json.Numeral.safeMagnitude → n.fitsDouble = true := by
  refine ⟨fun inbound text r htext h hdepth => ?_, fun inbound text r others htext h => ?_,
    fun _ => Json.Numeral.fitsDouble_of_magnitude⟩
  · have hstrict := isStrict_extended h (fun r hr => r.isPlain_iff_within.mpr hr) hdepth
    rw [Raw.readText_spelled ofRaw? htext, ofRaw?_extended h hstrict]
  · rw [Raw.readText_spelled ofRaw? htext, ofRaw?_repeated h]

/-- A success whose members stand in another order, with one more beside them and one inside the
place; and the same with its tag given twice. -/
theorem readText_success :
    readText ofRaw? (Json.obj [("x", .arr [.nat 5, .null]),
        ("meta", .obj [("k", .bool true), ("end", .nat 3), ("start", .nat 2)]),
        ("tag", .str "success"), ("origin", .nat 7)]).compact =
      some { origin := ⟨7⟩, response := .success { start := 2, stop := 3 } } ∧
    readText ofRaw? (Json.obj [("tag", .str "print"), ("x", .arr [.nat 5, .null]),
        ("meta", .obj [("k", .bool true), ("end", .nat 3), ("start", .nat 2)]),
        ("tag", .str "success"), ("origin", .nat 7)]).compact = none := by
  have hspelled : ∀ j : Json, Padded (Raw.ofJson j).SpelledBy j.compact.toList := by
    intro j
    rw [Json.compact, String.toList_ofList]
    exact Json.padded_self (Raw.spelledBy_text j)
  have hplace : (Raw.ofJson (.obj [("k", .bool true), ("end", .nat 3), ("start", .nat 2)])).IsObject
      (Record.Extends IsSpelling (Raw.Within fun n => n.fitsDouble = true) Placement.known
        (Placement.written { start := 2, stop := 3 })) := by
    refine ⟨_, _, rfl, Record.named_ofMembers _,
      [("start", Raw.ofJson (.nat 2)), ("end", Raw.ofJson (.nat 3))],
      [("k", Raw.ofJson (.bool true))], (List.reverse_perm _).symm, ?_, ?_⟩
    · exact .cons ⟨rfl, rfl⟩ (.cons ⟨rfl, rfl⟩ .nil)
    · simp [Placement.known, Raw.ofJson, Raw.Within]
  have hrecord : Record.Extends
      (Nested (Record.Extends IsSpelling (Raw.Within fun n => n.fitsDouble = true) Placement.known))
      (Raw.Within fun n => n.fitsDouble = true) ["origin", "tag", "meta"]
      (written { origin := ⟨7⟩, response := .success { start := 2, stop := 3 } })
      (Record.read [("x", .arr [.nat 5, .null]),
        ("meta", .obj [("k", .bool true), ("end", .nat 3), ("start", .nat 2)]),
        ("tag", .str "success"), ("origin", .nat 7)]) := by
    refine ⟨[("origin", Raw.ofJson (.nat 7)), ("tag", Raw.ofJson (.str "success")),
      ("meta", Raw.ofJson (.obj [("k", .bool true), ("end", .nat 3), ("start", .nat 2)]))],
      [("x", Raw.ofJson (.arr [.nat 5, .null]))], (List.reverse_perm _).symm, ?_, ?_⟩
    · exact .cons ⟨rfl, rfl⟩ (.cons ⟨rfl, Raw.text?_str _⟩ (.cons ⟨rfl, hplace⟩ .nil))
    · have hnumber : (Json.Numeral.ofNat 5).fitsDouble = true :=
        Json.Numeral.fitsDouble_ofNat (by decide)
      simp [Raw.ofJson, Raw.ofItems, Raw.Within, Raw.ItemsWithin, hnumber]
  constructor
  · exact readText_extended.1 _ _ _ (hspelled _)
      ⟨_, _, rfl, Record.named_ofMembers _, hrecord⟩ (by decide)
  · exact readText_extended.2.1 _ _ _ _ (hspelled _)
      (.inl ⟨_, _, rfl, Record.named_ofMembers _, "tag", _, _, .refl _, hrecord, by decide⟩)

/-- **A number within the range of a double may be refused all the same**: the text has one just
below the largest double under a name that is not known. -/
theorem readText_large :
    ¬ ∀ (inbound : Inbound) (text : String) (r : Raw), Padded r.SpelledBy text.toList →
      inbound.ExtendedBy (Raw.Within fun n => n.magnitude ≤ Json.Numeral.largestDouble) r →
        r.depth ≤ 127 → readText ofRaw? text = some inbound := by
  intro h
  let own : List (String × Json) :=
    [("origin", .nat 1), ("tag", .str "print"), ("file", .str "a"), ("msg", .str "b")]
  let large : List (List Json.Unit16 × Raw) :=
    [("x".toList.map .char, .number Json.Numeral.largeLiteral)]
  let text : List Char := '\x7b' :: (Json.membersText own ++
    ',' :: (Json.quote "x".toList ++ ':' :: "1797693134862315700e290".toList) ++ ['\x7d'])
  have hspelled : (Raw.object (Raw.ofMembers own ++ large)).SpelledBy text :=
    ⟨_, Raw.MembersSpelledBy.append (by simp [own, Raw.ofMembers]) (by simp [large])
      (Raw.spelledBy_membersText own)
      ⟨_, _, Json.padded_self (Json.quotedBy_quote _),
        Json.padded_self Json.Numeral.spelledBy_largeLiteral, rfl⟩, rfl⟩
  have hnamed : Record.named (Raw.ofMembers own ++ large) =
      some (Record.read own ++ [("x", .number Json.Numeral.largeLiteral)]) :=
    rfl
  have hextended : ExtendedBy (Raw.Within fun n => n.magnitude ≤ Json.Numeral.largestDouble)
      { origin := ⟨1⟩, response := .print "a" "b" } (.object (Raw.ofMembers own ++ large)) := by
    refine ⟨_, _, rfl, hnamed, Record.read own, [("x", .number Json.Numeral.largeLiteral)],
      .refl _, ?_, ?_⟩
    · exact .cons ⟨rfl, rfl⟩ (.cons ⟨rfl, Raw.text?_str _⟩ (.cons ⟨rfl, Raw.text?_str _⟩
        (.cons ⟨rfl, Raw.text?_str _⟩ .nil)))
    · intro m hm
      obtain rfl := List.mem_singleton.mp hm
      exact ⟨by decide, Json.Numeral.largeLiteral_le⟩
  have htext : Padded (Raw.object (Raw.ofMembers own ++ large)).SpelledBy
      (String.ofList text).toList := by
    rw [String.toList_ofList]
    exact Json.padded_self hspelled
  have hread := h _ _ _ htext hextended (by decide)
  rw [Raw.readText_spelled ofRaw? htext] at hread
  -- The number is not taken for a double, so nothing is read.
  have hplain : (Raw.object (Raw.ofMembers own ++ large)).isPlain = false := by
    refine Bool.eq_false_iff.mpr fun hplain => ?_
    have hnumber := (Raw.membersArePlain_iff hnamed).mp hplain
      ("x", .number Json.Numeral.largeLiteral) (by simp)
    exact Bool.false_ne_true (Json.Numeral.fitsDouble_largeLiteral.symm.trans hnumber)
  have hstrict : (Raw.object (Raw.ofMembers own ++ large)).isStrict = false := by
    unfold Raw.isStrict
    rw [hplain, Bool.false_and]
  unfold ofRaw? at hread
  rw [hstrict, if_neg Bool.false_ne_true] at hread
  cases hread

end Inbound

end InlineRepl
