import InlineRepl.Proofs.Text.Encoded

/-!
# Only encodings are read

What is read without damage is the encoding of a text, byte for byte: no character is read from
bytes that are longer than its own, and half a surrogate pair is not read at all. The first byte of
a character says how many bytes follow it and in which range the second one lies, and this range is
what rules such bytes out.

Results:
* `encode_two`, `encode_three`, `encode_four`: the bytes of a character that was put together.
* `begin_forms`: what a first byte says of its character.
* `reads_first`: a character is read from its own bytes.
* `decode?_eq_some_iff`: bytes are read as a text exactly if they are its bytes.
* `bytesOf_injective`, `bytesOf_lineFeed`: what follows for the bytes of texts.
-/

namespace InlineRepl.Text

namespace Utf8

/-! ## Putting a character together -/

section Encode

variable {b b2 b3 b4 : UInt8}

theorem encode_one (h : b.toNat < 0x80) : String.utf8EncodeChar (Char.ofNat b.toNat) = [b] := by
  have hv : (Char.ofNat b.toNat).val.toNat = b.toNat := toNat_ofNat (.inl (by omega))
  unfold String.utf8EncodeChar
  dsimp only
  rw [hv, if_pos (by omega), UInt8.ofNat_toNat]

/-- A byte of a character, from the number that it holds. -/
theorem byte_of (b : UInt8) {n : Nat} (h : b.toNat = n) : UInt8.ofNat n = b := by
  rw [← h, UInt8.ofNat_toNat]

theorem encode_two (h : 0xC2 ≤ b.toNat ∧ b.toNat < 0xE0) (h2 : 0x80 ≤ b2.toNat ∧ b2.toNat ≤ 0xBF) :
    String.utf8EncodeChar (Char.ofNat ((b.toNat - 0xC0) * 64 + (b2.toNat - 0x80))) = [b, b2] := by
  generalize hn : (b.toNat - 0xC0) * 64 + (b2.toNat - 0x80) = n
  have hv : (Char.ofNat n).val.toNat = n := toNat_ofNat (.inl (by omega))
  unfold String.utf8EncodeChar
  dsimp only
  rw [hv, if_neg (by omega), if_pos (by omega), byte_of b (by omega),
    byte_of b2 (by omega)]

theorem encode_three (h : 0xE0 ≤ b.toNat ∧ b.toNat < 0xF0)
    (h2 : 0x80 ≤ b2.toNat ∧ b2.toNat ≤ 0xBF) (h3 : 0x80 ≤ b3.toNat ∧ b3.toNat ≤ 0xBF)
    (hshort : b.toNat = 0xE0 → 0xA0 ≤ b2.toNat) (hpair : b.toNat = 0xED → b2.toNat ≤ 0x9F) :
    String.utf8EncodeChar (Char.ofNat (((b.toNat - 0xE0) * 64 + (b2.toNat - 0x80)) * 64 +
      (b3.toNat - 0x80))) = [b, b2, b3] := by
  generalize hn : ((b.toNat - 0xE0) * 64 + (b2.toNat - 0x80)) * 64 + (b3.toNat - 0x80) = n
  have hvalid : n < 0xD800 ∨ 0xDFFF < n ∧ n < 0x110000 := by omega
  have hv : (Char.ofNat n).val.toNat = n := toNat_ofNat hvalid
  unfold String.utf8EncodeChar
  dsimp only
  rw [hv, if_neg (by omega), if_neg (by omega), if_pos (by omega), byte_of b (by omega),
    byte_of b2 (by omega), byte_of b3 (by omega)]

theorem encode_four (h : 0xF0 ≤ b.toNat ∧ b.toNat ≤ 0xF4)
    (h2 : 0x80 ≤ b2.toNat ∧ b2.toNat ≤ 0xBF) (h3 : 0x80 ≤ b3.toNat ∧ b3.toNat ≤ 0xBF)
    (h4 : 0x80 ≤ b4.toNat ∧ b4.toNat ≤ 0xBF) (hshort : b.toNat = 0xF0 → 0x90 ≤ b2.toNat)
    (hlast : b.toNat = 0xF4 → b2.toNat ≤ 0x8F) :
    String.utf8EncodeChar (Char.ofNat ((((b.toNat - 0xF0) * 64 + (b2.toNat - 0x80)) * 64 +
      (b3.toNat - 0x80)) * 64 + (b4.toNat - 0x80))) = [b, b2, b3, b4] := by
  generalize hn : (((b.toNat - 0xF0) * 64 + (b2.toNat - 0x80)) * 64 + (b3.toNat - 0x80)) * 64 +
    (b4.toNat - 0x80) = n
  have hvalid : n < 0xD800 ∨ 0xDFFF < n ∧ n < 0x110000 := by omega
  have hv : (Char.ofNat n).val.toNat = n := toNat_ofNat hvalid
  unfold String.utf8EncodeChar
  dsimp only
  rw [hv, if_neg (by omega), if_neg (by omega), if_neg (by omega), byte_of b (by omega),
    byte_of b2 (by omega), byte_of b3 (by omega), byte_of b4 (by omega)]

end Encode

/-! ## Reading without damage -/

/-- Reading from a state damages nothing and ends between two characters. -/
def Reads (state : State) (bytes : List UInt8) (cs : List Char) : Prop :=
  run state bytes = (cs.map .char, .ready)

section Reading

variable {bits after : Nat} {low high b : UInt8} {bytes : List UInt8} {cs : List Char}

theorem reads_nil (h : Reads .ready [] cs) : cs = [] :=
  List.map_eq_nil_iff.mp (Prod.mk.inj h).1.symm

/-- A first byte that damages something is not read. -/
theorem not_reads_damaged (state : State) {next : State} {pieces : List Piece}
    (hstep : step state b = (.damaged :: pieces, next)) : ¬ Reads state (b :: bytes) cs := by
  intro h
  unfold Reads run at h
  rw [hstep] at h
  have hpieces := (Prod.mk.inj h).1
  cases cs with
  | nil => simp at hpieces
  | cons c cs => simp at hpieces

/-- A byte that completes nothing is followed by the rest. -/
theorem reads_silent (state : State) {next : State} (hstep : step state b = ([], next))
    (h : Reads state (b :: bytes) cs) : Reads next bytes cs := by
  unfold Reads run at h
  rw [hstep] at h
  exact h

/-- A byte that completes a character is followed by the others. -/
theorem reads_char (state : State) {c : Char} (hstep : step state b = ([.char c], .ready))
    (h : Reads state (b :: bytes) cs) : ∃ more, cs = c :: more ∧ Reads .ready bytes more := by
  unfold Reads run at h
  rw [hstep] at h
  obtain ⟨hpieces, hstate⟩ := Prod.mk.inj h
  cases cs with
  | nil => simp at hpieces
  | cons d more =>
    obtain ⟨hd, hmore⟩ := List.cons.inj hpieces
    obtain rfl := Piece.char.inj hd
    exact ⟨more, rfl, Prod.ext hmore hstate⟩

/-- Inside a character, the next byte lies in its range. -/
theorem reads_inside (h : Reads (.inside bits low high after) bytes cs) :
    ∃ b rest, bytes = b :: rest ∧ low.toNat ≤ b.toNat ∧ b.toNat ≤ high.toNat := by
  cases bytes with
  | nil => exact absurd (Prod.mk.inj h).2 (by simp)
  | cons b rest =>
    refine ⟨b, rest, rfl, ?_⟩
    by_contra hout
    have hrange : ¬ (low ≤ b ∧ b ≤ high) := by
      rwa [UInt8.le_iff_toNat_le, UInt8.le_iff_toNat_le]
    have hstep : step (.inside bits low high after) b = (.damaged :: (begin b).1, (begin b).2) :=
      if_neg hrange
    exact not_reads_damaged _ hstep h

/-- The last byte of a character. -/
theorem reads_last (h : Reads (.inside bits low high 0) bytes cs) :
    ∃ b rest more, bytes = b :: rest ∧ low.toNat ≤ b.toNat ∧ b.toNat ≤ high.toNat ∧
      cs = Char.ofNat (bits * 64 + (b.toNat - 0x80)) :: more ∧ Reads .ready rest more := by
  obtain ⟨b, rest, rfl, hlow, hhigh⟩ := reads_inside h
  have hstep : step (.inside bits low high 0) b =
      ([.char (Char.ofNat (bits * 64 + (b.toNat - 0x80)))], .ready) :=
    if_pos ⟨UInt8.le_iff_toNat_le.mpr hlow, UInt8.le_iff_toNat_le.mpr hhigh⟩
  obtain ⟨more, hcs, hrest⟩ := reads_char _ hstep h
  exact ⟨b, rest, more, rfl, hlow, hhigh, hcs, hrest⟩

/-- A byte in the middle of a character. -/
theorem reads_middle (h : Reads (.inside bits low high (after + 1)) bytes cs) :
    ∃ b rest, bytes = b :: rest ∧ low.toNat ≤ b.toNat ∧ b.toNat ≤ high.toNat ∧
      Reads (.inside (bits * 64 + (b.toNat - 0x80)) 0x80 0xBF after) rest cs := by
  obtain ⟨b, rest, rfl, hlow, hhigh⟩ := reads_inside h
  have hstep : step (.inside bits low high (after + 1)) b =
      ([], .inside (bits * 64 + (b.toNat - 0x80)) 0x80 0xBF after) :=
    if_pos ⟨UInt8.le_iff_toNat_le.mpr hlow, UInt8.le_iff_toNat_le.mpr hhigh⟩
  exact ⟨b, rest, rfl, hlow, hhigh, reads_silent _ hstep h⟩

/-- What a first byte says of its character: it is ASCII, damaged, or followed by one, two or three
bytes. -/
theorem begin_forms (b : UInt8) :
    (b.toNat < 0x80 ∧ begin b = ([.char (Char.ofNat b.toNat)], .ready)) ∨
    (begin b = ([.damaged], .ready)) ∨
    ((0xC2 ≤ b.toNat ∧ b.toNat < 0xE0) ∧ begin b = ([], .inside (b.toNat - 0xC0) 0x80 0xBF 0)) ∨
    (∃ low high : UInt8, (0xE0 ≤ b.toNat ∧ b.toNat < 0xF0) ∧
      begin b = ([], .inside (b.toNat - 0xE0) low high 1) ∧ 0x80 ≤ low.toNat ∧ high.toNat ≤ 0xBF ∧
      (b.toNat = 0xE0 → 0xA0 ≤ low.toNat) ∧ (b.toNat = 0xED → high.toNat ≤ 0x9F)) ∨
    ∃ low high : UInt8, (0xF0 ≤ b.toNat ∧ b.toNat ≤ 0xF4) ∧
      begin b = ([], .inside (b.toNat - 0xF0) low high 2) ∧ 0x80 ≤ low.toNat ∧ high.toNat ≤ 0xBF ∧
      (b.toNat = 0xF0 → 0x90 ≤ low.toNat) ∧ (b.toNat = 0xF4 → high.toNat ≤ 0x8F) := by
  generalize hform : begin b = form
  unfold begin at hform
  dsimp only at hform
  split_ifs at hform with h1 h2 h3 h4 h5 h6 h7 h8 h9 <;> subst hform
  · exact .inl ⟨h1, rfl⟩
  · exact .inr (.inl rfl)
  · exact .inr (.inr (.inl ⟨by omega, rfl⟩))
  · exact .inr (.inr (.inr (.inl ⟨0xA0, 0xBF, by omega, by rw [h4], by decide, by decide,
      fun _ => by decide, fun h => by omega⟩)))
  · exact .inr (.inr (.inr (.inl ⟨0x80, 0x9F, by omega, by rw [h5], by decide, by decide,
      fun h => by omega, fun _ => by decide⟩)))
  · exact .inr (.inr (.inr (.inl ⟨0x80, 0xBF, by omega, rfl, by decide, by decide,
      fun h => by omega, fun h => by omega⟩)))
  · exact .inr (.inr (.inr (.inr ⟨0x90, 0xBF, by omega, by rw [h7], by decide, by decide,
      fun _ => by decide, fun h => by omega⟩)))
  · exact .inr (.inr (.inr (.inr ⟨0x80, 0xBF, by omega, rfl, by decide, by decide,
      fun h => by omega, fun h => by omega⟩)))
  · exact .inr (.inr (.inr (.inr ⟨0x80, 0x8F, by omega, by rw [h9], by decide, by decide,
      fun h => by omega, fun _ => by decide⟩)))
  · exact .inr (.inl rfl)

/-- **A character is read from its own bytes**, at the front of others. -/
theorem reads_first (h : Reads .ready (b :: bytes) cs) :
    ∃ c more rest, cs = c :: more ∧ b :: bytes = String.utf8EncodeChar c ++ rest ∧
      Reads .ready rest more := by
  have hbounds : (0x80 : UInt8).toNat = 0x80 ∧ (0xBF : UInt8).toNat = 0xBF := by decide
  rcases begin_forms b with ⟨hb, hbegin⟩ | hbegin | ⟨hb, hbegin⟩ |
    ⟨low, high, hb, hbegin, hlow, hhigh, hshort, hpair⟩ |
    ⟨low, high, hb, hbegin, hlow, hhigh, hshort, hlast⟩
  · obtain ⟨more, rfl, hrest⟩ := reads_char .ready hbegin h
    exact ⟨_, more, bytes, rfl, by rw [encode_one hb]; rfl, hrest⟩
  · exact absurd h (not_reads_damaged .ready hbegin)
  · obtain ⟨b2, rest, more, rfl, hl2, hh2, rfl, hrest⟩ :=
      reads_last (reads_silent .ready hbegin h)
    exact ⟨_, more, rest, rfl, by rw [encode_two hb (by omega)]; rfl, hrest⟩
  · obtain ⟨b2, rest, rfl, hl2, hh2, hread⟩ :=
      reads_middle (reads_silent .ready hbegin h)
    obtain ⟨b3, rest, more, rfl, hl3, hh3, rfl, hrest⟩ := reads_last hread
    refine ⟨_, more, rest, rfl, ?_, hrest⟩
    rw [encode_three hb (by omega) (by omega) (by omega) (by omega)]
    rfl
  · obtain ⟨b2, rest, rfl, hl2, hh2, hread⟩ :=
      reads_middle (reads_silent .ready hbegin h)
    obtain ⟨b3, rest, rfl, hl3, hh3, hread⟩ := reads_middle hread
    obtain ⟨b4, rest, more, rfl, hl4, hh4, rfl, hrest⟩ := reads_last hread
    refine ⟨_, more, rest, rfl, ?_, hrest⟩
    rw [encode_four hb (by omega) (by omega) (by omega) (by omega) (by omega)]
    rfl

end Reading

/-- Bytes that are read without damage are the bytes of the characters. -/
theorem Reads.eq_bytes : ∀ {cs : List Char} {bytes : List UInt8}, Reads .ready bytes cs →
    bytes = cs.flatMap String.utf8EncodeChar
  | cs, [], h => by
    obtain rfl := reads_nil h
    rfl
  | [], b :: bytes, h => by
    obtain ⟨c, more, rest, hcs, -, -⟩ := reads_first h
    exact absurd hcs (by simp)
  | c :: cs, b :: bytes, h => by
    obtain ⟨d, more, rest, hcs, hbytes, hrest⟩ := reads_first h
    obtain ⟨rfl, rfl⟩ := List.cons.inj hcs
    rw [hbytes, List.flatMap_cons, ← hrest.eq_bytes]

/-- Pieces that are all characters. -/
theorem mapM_char? : ∀ {pieces : List Piece} {cs : List Char},
    pieces.mapM Piece.char? = some cs → pieces = cs.map .char
  | [], cs, h => by
    obtain rfl := Option.some.inj h
    rfl
  | .damaged :: pieces, cs, h => by
    rw [List.mapM_cons] at h
    exact absurd h (by simp [Piece.char?])
  | .char c :: pieces, cs, h => by
    rw [List.mapM_cons] at h
    simp only [Piece.char?, Option.bind_eq_bind, Option.bind_some, Option.bind_eq_some_iff] at h
    obtain ⟨more, hmore, h⟩ := h
    obtain rfl := Option.some.inj h
    rw [mapM_char? hmore, List.map_cons]

/-- **Bytes are read as a text exactly if they are its bytes.** -/
theorem decode?_eq_some_iff {bytes : List UInt8} {s : String} :
    decode? bytes = some s ↔ bytes = bytesOf s := by
  refine ⟨fun h => ?_, fun h => h ▸ decode?_bytesOf s⟩
  unfold decode? at h
  obtain ⟨cs, hcs, rfl⟩ := Option.map_eq_some_iff.mp h
  have hpieces := mapM_char? hcs
  unfold pieces at hpieces
  dsimp only at hpieces
  have hread : Reads .ready bytes cs := by
    cases hstate : (run .ready bytes).2 with
    | ready =>
      rw [hstate, State.close, List.append_nil] at hpieces
      exact Prod.ext hpieces hstate
    | inside bits low high after =>
      have hmem : Piece.damaged ∈ cs.map Piece.char := by
        rw [← hpieces, hstate]
        exact List.mem_append_right _ List.mem_cons_self
      simp at hmem
  rw [bytesOf_ofList]
  exact hread.eq_bytes

end Utf8

/-- Different texts have different bytes. -/
theorem bytesOf_injective : Function.Injective bytesOf := by
  intro s t h
  have hread := Utf8.decode?_bytesOf s
  rw [h, Utf8.decode?_bytesOf] at hread
  exact (Option.some.inj hread).symm

/-- What ends in a line feed is a text if and only if it is one in front of the line feed. -/
theorem bytesOf_lineFeed {line : List UInt8} :
    (∃ s, line ++ [0x0A] = bytesOf s) ↔ ∃ s, line = bytesOf s := by
  constructor
  · rintro ⟨s, h⟩
    rcases List.eq_nil_or_concat' s.toList with hs | ⟨front, c, hs⟩
    · unfold bytesOf at h
      rw [hs] at h
      exact absurd h (by simp)
    · have hbytes : line ++ [0x0A] =
          front.flatMap String.utf8EncodeChar ++ String.utf8EncodeChar c := by
        rw [h, bytesOf, hs, List.flatMap_append, List.flatMap_singleton]
      have hlast : (0x0A : UInt8) ∈ String.utf8EncodeChar c := by
        rcases List.eq_nil_or_concat' (String.utf8EncodeChar c) with he | ⟨bytes, b, he⟩
        · exact absurd he String.utf8EncodeChar_ne_nil
        · rw [he, ← List.append_assoc] at hbytes
          obtain ⟨-, hb⟩ := List.append_inj' hbytes rfl
          rw [he, ← hb]
          exact List.mem_append_right _ List.mem_cons_self
      have hc : c = '\n' := Char.toNat_inj.mp (mem_bytes_ascii hlast (by decide))
      rw [hc, show String.utf8EncodeChar '\n' = [0x0A] by decide] at hbytes
      exact ⟨String.ofList front, by
        rw [bytesOf_ofList]
        exact (List.append_inj' hbytes rfl).1⟩
  · rintro ⟨s, rfl⟩
    exact ⟨s ++ "\n", by rw [bytesOf_append]; rfl⟩

end InlineRepl.Text
