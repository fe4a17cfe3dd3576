import InlineRepl.Proofs.Text.Encoded

/-!
# Where characters begin

A place in the bytes of a text lies between two characters if it is one of its ends or the byte
behind it begins a character. Going back from any place, one such place is met after three bytes at
the latest, and before the front is passed: the front is one itself.

Results:
* `encode_cases`: a character is one byte that begins it and others that do not.
* `isBoundary_iff`: the boundaries of a text are the places between its characters.
* `boundaryBefore?_eq_some_iff`: the search finds the last boundary that is not behind a place.
-/

namespace InlineRepl.Text

/-- The byte begins a character: it is no continuation byte. -/
def beginsChar (b : UInt8) : Bool :=
  decide (b < 0x80) || decide (0xC0 ≤ b)

/-- The place lies between two characters, or at an end. -/
def isBoundary (bytes : List UInt8) (place : Nat) : Bool :=
  place == 0 ||
    match bytes[place]? with
    | some b => beginsChar b
    | none => place == bytes.length

/-- Goes back to a boundary, byte by byte. It fails where it would have to pass the front. -/
def boundaryBefore? (bytes : List UInt8) : Nat → Option Nat
  | 0 => if isBoundary bytes 0 then some 0 else none
  | place + 1 =>
    if isBoundary bytes (place + 1) then some (place + 1) else boundaryBefore? bytes place

variable {bytes : List UInt8} {cs : List Char} {place start : Nat}

/-! ## Characters -/

theorem beginsChar_ofNat {n : Nat} (h : n < 0x80 ∨ 0xC0 ≤ n) (hn : n < 256) :
    beginsChar (UInt8.ofNat n) = true := by
  simp only [beginsChar, Bool.or_eq_true, decide_eq_true_eq, UInt8.lt_iff_toNat_lt,
    UInt8.le_iff_toNat_le, toNat_byte hn]
  exact h

theorem not_beginsChar_ofNat (n : Nat) : beginsChar (UInt8.ofNat (n % 64 + 128)) = false := by
  have hbyte : (UInt8.ofNat (n % 64 + 128)).toNat = n % 64 + 128 := toNat_byte (by omega)
  have hrange : (0x80 : UInt8).toNat = 128 ∧ (0xC0 : UInt8).toNat = 192 := by decide
  simp only [beginsChar, Bool.or_eq_false_iff, decide_eq_false_iff_not, UInt8.lt_iff_toNat_lt,
    UInt8.le_iff_toNat_le, hbyte]
  omega

/-- **A character is one byte that begins it and others that do not.** -/
theorem encode_cases (c : Char) : ∃ b more, String.utf8EncodeChar c = b :: more ∧
    beginsChar b = true ∧ ∀ d ∈ more, beginsChar d = false := by
  unfold String.utf8EncodeChar
  dsimp only
  generalize c.val.toNat = v
  split_ifs
  all_goals
    refine ⟨_, _, rfl, beginsChar_ofNat (by omega) (by omega), fun d hd => ?_⟩
    simp only [List.mem_cons, List.not_mem_nil, or_false] at hd
  · rcases hd with rfl
    exact not_beginsChar_ofNat _
  · rcases hd with rfl | rfl
    all_goals exact not_beginsChar_ofNat _
  · rcases hd with rfl | rfl | rfl
    all_goals exact not_beginsChar_ofNat _

/-! ## Texts -/

theorem isBoundary_zero (bytes : List UInt8) : isBoundary bytes 0 = true :=
  rfl

theorem isBoundary_of_pos (h : 0 < place) : isBoundary bytes place =
    match bytes[place]? with
    | some b => beginsChar b
    | none => place == bytes.length := by
  have hne : (place == 0) = false := by simp; omega
  rw [isBoundary, hne, Bool.false_or]

/-- What stands between two characters of a text is a boundary of it. -/
theorem isBoundary_between (front back : List Char) :
    isBoundary ((front ++ back).flatMap String.utf8EncodeChar)
      (front.flatMap String.utf8EncodeChar).length = true := by
  generalize hf : front.flatMap String.utf8EncodeChar = first
  rw [List.flatMap_append, hf]
  rcases Nat.eq_zero_or_pos first.length with hzero | hpos
  · rw [hzero, isBoundary_zero]
  · rw [isBoundary_of_pos hpos, List.getElem?_append_right (Nat.le_refl _), Nat.sub_self]
    cases back with
    | nil => simp
    | cons c back =>
      obtain ⟨b, more, hc, hb, -⟩ := encode_cases c
      rw [List.flatMap_cons, hc]
      exact hb

/-- **The boundaries of a text are the places between its characters.** -/
theorem isBoundary_iff : isBoundary (cs.flatMap String.utf8EncodeChar) place = true ↔
    ∃ front back, cs = front ++ back ∧ (front.flatMap String.utf8EncodeChar).length = place := by
  constructor
  · intro h
    induction cs generalizing place with
    | nil =>
      have hzero : place = 0 := by simpa [isBoundary] using h
      exact ⟨[], [], rfl, hzero.symm⟩
    | cons c cs ih =>
      rcases Nat.eq_zero_or_pos place with rfl | hpos
      · exact ⟨[], c :: cs, rfl, rfl⟩
      obtain ⟨b, more, hc, -, hmore⟩ := encode_cases c
      rw [isBoundary_of_pos hpos, List.flatMap_cons, hc] at h
      by_cases hin : place ≤ more.length
      · -- Inside the first character there is nothing but continuation bytes.
        have hlt : place - 1 < more.length := by omega
        have hat : (b :: more ++ cs.flatMap String.utf8EncodeChar)[place]? =
            some more[place - 1] := by
          rw [List.getElem?_append_left (by simp; omega), List.getElem?_cons, if_neg (by omega),
            List.getElem?_eq_getElem hlt]
        rw [hat] at h
        have hno := hmore _ (List.getElem_mem hlt)
        exact Bool.noConfusion (h.symm.trans hno)
      · have hlen : (b :: more).length ≤ place := by simp; omega
        have hrest : isBoundary (cs.flatMap String.utf8EncodeChar)
            (place - (b :: more).length) = true := by
          rcases Nat.eq_zero_or_pos (place - (b :: more).length) with hzero | hafter
          · rw [hzero, isBoundary_zero]
          · rw [isBoundary_of_pos hafter]
            rw [List.getElem?_append_right hlen] at h
            cases hbyte : (cs.flatMap String.utf8EncodeChar)[place - (b :: more).length]? with
            | some byte =>
              rw [hbyte] at h
              exact h
            | none =>
              rw [hbyte] at h
              simp only [beq_iff_eq, List.length_append] at h ⊢
              omega
        obtain ⟨front, back, rfl, hfront⟩ := ih hrest
        refine ⟨c :: front, back, rfl, ?_⟩
        rw [List.flatMap_cons, hc, List.length_append, hfront]
        omega
  · rintro ⟨front, back, rfl, rfl⟩
    exact isBoundary_between front back

/-! ## The search -/

/-- **The search finds the last boundary** that is not behind the place. -/
theorem boundaryBefore?_eq_some_iff : boundaryBefore? bytes place = some start ↔
    start ≤ place ∧ isBoundary bytes start = true ∧
      ∀ other, start < other → other ≤ place → isBoundary bytes other = false := by
  induction place with
  | zero =>
    rw [boundaryBefore?, if_pos (isBoundary_zero bytes), Option.some.injEq]
    constructor
    · rintro rfl
      exact ⟨Nat.le_refl _, isBoundary_zero bytes, by omega⟩
    · rintro ⟨hle, -, -⟩
      omega
  | succ place ih =>
    rw [boundaryBefore?]
    split
    · rename_i hhere
      rw [Option.some.injEq]
      constructor
      · rintro rfl
        exact ⟨Nat.le_refl _, hhere, by omega⟩
      · rintro ⟨hle, -, hlast⟩
        by_contra hne
        have hno := hlast (place + 1) (by omega) (Nat.le_refl _)
        exact absurd (hhere.symm.trans hno) nofun
    · rename_i hhere
      have hhere : isBoundary bytes (place + 1) = false := Bool.eq_false_iff.mpr hhere
      rw [ih]
      constructor
      · rintro ⟨hle, hstart, hlast⟩
        refine ⟨by omega, hstart, fun other hlt hother => ?_⟩
        by_cases hend : other = place + 1
        · exact hend ▸ hhere
        · exact hlast other hlt (by omega)
      · rintro ⟨hle, hstart, hlast⟩
        have hne : start ≠ place + 1 := by
          rintro rfl
          exact absurd (hstart.symm.trans hhere) nofun
        exact ⟨by omega, hstart, fun other hlt hother => hlast other hlt (by omega)⟩

end InlineRepl.Text
