import InlineRepl.Image.Payload
import InlineRepl.Proofs.Image.Base64
import InlineRepl.Proofs.Text.Decoded
import InlineRepl.Proofs.Text.Lines
import InlineRepl.Proofs.Text.Shown

/-!
# A payload holds exactly the picture that it was written for

What blanks and the lead of a data URL leave of a payload is base64 text. It is read if and only if
it is the one text that its bytes are written as: padding that is missing or misplaced, blanks
inside and unused bits are all refused, because no text is written with them.

Results:
* `Written.encodedPart_eq`: what surrounds base64 text does not belong to it.
* `decode_eq_ok_iff_written`: a payload is read if and only if it has been written so.
* `decode_iff_canonical`: reading inverts writing, and the base64 text is determined by the bytes.
-/

namespace InlineRepl.Image

open Text (isBlank trim)

variable {bytes : List UInt8} {payload : String}

/-! ## The text of bytes -/

/-- The base64 text of bytes. -/
def encodedText (bytes : List UInt8) : List Char :=
  (Base64.encode bytes).map fun byte => Char.ofNat byte.toNat

/-- **The characters of base64 text**: ASCII, not blank, and no colon. -/
theorem plain_of_mem_encode {byte : UInt8} (h : byte ∈ Base64.encode bytes) :
    byte.toNat < 0x80 ∧ isBlank (Char.ofNat byte.toNat) = false ∧
      Char.ofNat byte.toNat ≠ ':' := by
  have hsymbols : ∀ n < 64, (Base64.symbol n).toNat < 0x80 ∧
      isBlank (Char.ofNat (Base64.symbol n).toNat) = false ∧
        Char.ofNat (Base64.symbol n).toNat ≠ ':' := by
    decide
  rcases Base64.mem_encode h with ⟨n, hn, rfl⟩ | rfl
  · exact hsymbols n hn
  · decide

/-- The bytes of base64 text are its symbols and pads. -/
theorem bytesOf_encodedText (bytes : List UInt8) :
    Text.bytesOf (String.ofList (encodedText bytes)) = Base64.encode bytes := by
  have hone : ∀ byte ∈ Base64.encode bytes,
      String.utf8EncodeChar (Char.ofNat byte.toNat) = [byte] := fun _ hbyte =>
    Text.Utf8.encode_one (plain_of_mem_encode hbyte).1
  rw [Text.bytesOf_ofList, encodedText, List.flatMap_map, List.flatMap_congr hone,
    List.flatMap_singleton']

/-- **A payload is read if and only if its base64 text is that of the bytes.** -/
theorem decode_eq_ok_iff_text : decode payload = .ok bytes ↔
    encodedPart payload = encodedText bytes := by
  unfold decode
  rw [Base64.decode_eq_ok_iff, ← bytesOf_encodedText]
  constructor
  · intro h
    exact String.ofList_injective (Text.bytesOf_injective h)
  · intro h
    rw [h]

/-! ## Payloads as they are written -/

/-- The payload is the base64 text of the bytes, bare or behind the lead of a data URL, with blanks
around it. -/
def Written (payload : String) (bytes : List UInt8) : Prop :=
  ∃ front lead back, (∀ c ∈ front, isBlank c = true) ∧ (∀ c ∈ back, isBlank c = true) ∧
    (lead = [] ∨ lead = urlLead) ∧ payload.toList = front ++ (lead ++ encodedText bytes) ++ back

/-- What dropping the lead leaves of base64 text with a lead or without. -/
theorem dropLead?_text {lead : List Char} (hlead : lead = [] ∨ lead = urlLead)
    (bytes : List UInt8) :
    (Text.dropLead? urlLead (lead ++ encodedText bytes)).getD (lead ++ encodedText bytes) =
      encodedText bytes := by
  rcases hlead with rfl | rfl
  · have hnone : Text.dropLead? urlLead (encodedText bytes) = none := by
      refine Option.eq_none_iff_forall_ne_some.mpr fun rest hrest => ?_
      have hcolon : ':' ∈ encodedText bytes := by
        rw [Text.dropLead?_eq_some_iff.mp hrest]
        exact List.mem_append_left rest (by decide)
      obtain ⟨byte, hbyte, heq⟩ := List.mem_map.mp hcolon
      exact (plain_of_mem_encode hbyte).2.2 heq
    rw [List.nil_append, hnone]
    rfl
  · rw [Text.dropLead?_eq_some_iff.mpr rfl]
    rfl

/-- What surrounds base64 text does not belong to it. -/
theorem Written.encodedPart_eq (h : Written payload bytes) :
    encodedPart payload = encodedText bytes := by
  obtain ⟨front, lead, back, hfront, hback, hlead, hpayload⟩ := h
  have hurl : ∀ c ∈ urlLead, isBlank c = false := by
    have hall : (urlLead.all fun c => !isBlank c) = true := by decide
    exact fun c hc => by simpa using List.all_eq_true.mp hall c hc
  have hbare : ∀ c ∈ lead ++ encodedText bytes, isBlank c = false := by
    intro c hc
    rcases List.mem_append.mp hc with hc | hc
    · rcases hlead with rfl | rfl
      · exact absurd hc List.not_mem_nil
      · exact hurl c hc
    · obtain ⟨byte, hbyte, rfl⟩ := List.mem_map.mp hc
      exact (plain_of_mem_encode hbyte).2.1
  unfold encodedPart
  rw [hpayload, Text.trim_bare hfront hback hbare]
  exact dropLead?_text hlead bytes

/-- **A payload is read if and only if it has been written for the bytes.** -/
theorem decode_eq_ok_iff_written : decode payload = .ok bytes ↔ Written payload bytes := by
  rw [decode_eq_ok_iff_text]
  refine ⟨fun h => ?_, Written.encodedPart_eq⟩
  obtain ⟨front, back, hpayload, hfront, hback, -, -⟩ := Text.trim_parts payload.toList
  unfold encodedPart at h
  dsimp only at h
  rcases hdrop : Text.dropLead? urlLead (trim payload.toList) with _ | rest
  · rw [hdrop] at h
    exact ⟨front, [], back, hfront, hback, .inl rfl, by rw [← h]; exact hpayload⟩
  · rw [hdrop] at h
    have hrest : trim payload.toList = urlLead ++ encodedText bytes := by
      rw [Text.dropLead?_eq_some_iff.mp hdrop, ← h]
      rfl
    exact ⟨front, urlLead, back, hfront, hback, .inr rfl, by rw [← hrest]; exact hpayload⟩

/-! ## Reading and writing -/

/-- **Pictures are read from canonical encodings alone**: a payload gives bytes if and only if its
base64 text is the one that the bytes are written as; they are recovered from it with the lead of a
data URL and without, whatever blanks are around; and two payloads with the same bytes hold the same
base64 text. -/
theorem decode_iff_canonical :
    (∀ payload bytes, decode payload = .ok bytes ↔ encodedPart payload = encodedText bytes) ∧
    (∀ bytes front back, (∀ c ∈ front, isBlank c = true) → (∀ c ∈ back, isBlank c = true) →
      decode (String.ofList (front ++ encodedText bytes ++ back)) = .ok bytes ∧
      decode (String.ofList (front ++ (urlLead ++ encodedText bytes) ++ back)) = .ok bytes) ∧
    ∀ payload other bytes, decode payload = .ok bytes → decode other = .ok bytes →
      encodedPart payload = encodedPart other := by
  refine ⟨fun _ _ => decode_eq_ok_iff_text, fun bytes front back hfront hback => ?_,
    fun payload other bytes hpayload hother => ?_⟩
  · constructor
    · exact decode_eq_ok_iff_written.mpr
        ⟨front, [], back, hfront, hback, .inl rfl, String.toList_ofList⟩
    · exact decode_eq_ok_iff_written.mpr
        ⟨front, urlLead, back, hfront, hback, .inr rfl, String.toList_ofList⟩
  · rw [decode_eq_ok_iff_text.mp hpayload, decode_eq_ok_iff_text.mp hother]

/-- The signature that every picture begins with, behind a lead and with blanks around it. -/
theorem decode_signature :
    decode " data:image/png;base64,iVBORw0KGgo=\n" =
      .ok [0x89, 0x50, 0x4E, 0x47, 0x0D, 0x0A, 0x1A, 0x0A] :=
  (decode_iff_canonical.1 _ _).mpr (by decide +kernel)

end InlineRepl.Image
