import InlineRepl.Text.Blank
import InlineRepl.Text.Utf8
import Mathlib.Data.List.Infix

/-!
# Text that shows bytes

`Shows bytes text` says that a text is a rendering of bytes in which ASCII is spelled as it is and
every other stretch of bytes, damaged or not, is some character outside ASCII. Decoders differ in
where they cut such stretches and in what they show for them. A search for an ASCII word does not
depend on it.

Results:
* `hasPart_iff`: `hasPart` looks for a part of a text.
* `Shows.append`: renderings can be put together.
* `Shows.word_iff`: an ASCII word stands in the text where it stands in the bytes.
* `word_append_iff`: bytes outside ASCII at the end make no difference to it.
-/

namespace InlineRepl.Text

/-! ## Parts of a text -/

theorem dropLead?_isSome_iff : ∀ {lead cs : List Char},
    (dropLead? lead cs).isSome = true ↔ lead <+: cs
  | [], cs => by simp [dropLead?]
  | l :: lead, [] => by simp [dropLead?]
  | l :: lead, c :: cs => by
    unfold dropLead?
    rw [List.cons_prefix_cons]
    split
    · rename_i h
      rw [dropLead?_isSome_iff]
      exact ⟨fun hp => ⟨h, hp⟩, fun hp => hp.2⟩
    · rename_i h
      exact ⟨fun hn => absurd hn (by simp), fun hp => absurd hp.1 h⟩

theorem dropLead?_eq_some_iff : ∀ {lead cs rest : List Char},
    dropLead? lead cs = some rest ↔ cs = lead ++ rest
  | [], cs, rest => by simp [dropLead?]
  | l :: lead, [], rest => by simp [dropLead?]
  | l :: lead, c :: cs, rest => by
    unfold dropLead?
    rw [List.cons_append, List.cons.injEq]
    split
    · rename_i h
      rw [dropLead?_eq_some_iff]
      exact ⟨fun hcs => ⟨h.symm, hcs⟩, fun hcs => hcs.2⟩
    · rename_i h
      exact ⟨fun hn => absurd hn (by simp), fun hcs => absurd hcs.1.symm h⟩

/-- A search finds the parts of a text. -/
theorem hasPart_iff {sought : List Char} : ∀ {cs : List Char},
    hasPart sought cs = true ↔ sought <:+: cs
  | [] => by simp [hasPart]
  | c :: cs => by
    unfold hasPart
    rw [Bool.or_eq_true, dropLead?_isSome_iff, hasPart_iff, List.infix_cons_iff]

/-! ## ASCII words in bytes -/

theorem toNat_ofNat {n : Nat} (h : n.isValidChar) : (Char.ofNat n).toNat = n := by
  rw [Char.ofNat, dif_pos h]
  rfl

/-- A word of ASCII characters. -/
def IsAscii (word : List Char) : Prop :=
  ∀ c ∈ word, c.toNat < 0x80

instance (word : List Char) : Decidable (IsAscii word) :=
  inferInstanceAs (Decidable (∀ c ∈ word, c.toNat < 0x80))

/-- The bytes of an ASCII word. -/
def asciiBytes (word : List Char) : List UInt8 :=
  word.map fun c => UInt8.ofNat c.toNat

theorem IsAscii.of_cons {c : Char} {word : List Char} (h : IsAscii (c :: word)) :
    c.toNat < 0x80 ∧ IsAscii word :=
  ⟨h c List.mem_cons_self, fun d hd => h d (List.mem_cons_of_mem c hd)⟩

theorem toNat_asciiByte {c : Char} (h : c.toNat < 0x80) :
    (UInt8.ofNat c.toNat).toNat = c.toNat := by
  rw [UInt8.toNat_ofNat', Nat.mod_eq_of_lt (by omega)]

/-- Bytes outside ASCII. -/
def NoAscii (bytes : List UInt8) : Prop :=
  ∀ b ∈ bytes, 0x80 ≤ b.toNat

theorem prefix_append_iff {pending : List UInt8} (hp : NoAscii pending) :
    ∀ {word : List Char} {bytes : List UInt8}, IsAscii word →
      (asciiBytes word <+: bytes ++ pending ↔ asciiBytes word <+: bytes)
  | [], bytes, _ => by simp [asciiBytes]
  | c :: word, [], ha => by
    refine ⟨fun h => ?_, fun h => absurd h (by simp [asciiBytes])⟩
    have hm : UInt8.ofNat c.toNat ∈ pending := h.subset List.mem_cons_self
    have hc := ha.of_cons.1
    have := hp _ hm
    rw [toNat_asciiByte hc] at this
    omega
  | c :: word, b :: bytes, ha => by
    show UInt8.ofNat c.toNat :: asciiBytes word <+: b :: (bytes ++ pending) ↔
      UInt8.ofNat c.toNat :: asciiBytes word <+: b :: bytes
    rw [List.cons_prefix_cons, List.cons_prefix_cons, prefix_append_iff hp ha.of_cons.2]

/-- **Bytes outside ASCII at the end** do not make an ASCII word. -/
theorem word_append_iff {pending : List UInt8} (hp : NoAscii pending) {word : List Char}
    (ha : IsAscii word) (hne : word ≠ []) :
    ∀ {bytes : List UInt8}, asciiBytes word <:+: bytes ++ pending ↔ asciiBytes word <:+: bytes
  | [] => by
    obtain ⟨c, word, rfl⟩ := List.exists_cons_of_ne_nil hne
    refine ⟨fun h => ?_, fun h => absurd h (by simp [asciiBytes])⟩
    have hm : UInt8.ofNat c.toNat ∈ pending := h.subset List.mem_cons_self
    have := hp _ hm
    rw [toNat_asciiByte ha.of_cons.1] at this
    have := ha.of_cons.1
    omega
  | b :: bytes => by
    rw [List.cons_append, List.infix_cons_iff, List.infix_cons_iff, word_append_iff hp ha hne,
      ← List.cons_append, prefix_append_iff hp ha]

/-! ## Renderings -/

/-- **A text shows bytes**: ASCII as it is, every other stretch as some character outside ASCII. -/
inductive Shows : List UInt8 → List Char → Prop
  | nil : Shows [] []
  | ascii {b : UInt8} {bytes : List UInt8} {text : List Char} (hb : b.toNat < 0x80)
      (h : Shows bytes text) : Shows (b :: bytes) (Char.ofNat b.toNat :: text)
  | other {stretch bytes : List UInt8} {c : Char} {text : List Char} (hne : stretch ≠ [])
      (hs : NoAscii stretch) (hc : 0x80 ≤ c.toNat) (h : Shows bytes text) :
      Shows (stretch ++ bytes) (c :: text)

namespace Shows

variable {bytes more : List UInt8} {text rest : List Char}

/-- Renderings can be put together. -/
theorem append (h : Shows bytes text) (hm : Shows more rest) :
    Shows (bytes ++ more) (text ++ rest) := by
  induction h with
  | nil => exact hm
  | ascii hb _ ih => exact .ascii hb ih
  | other hne hs hc _ ih =>
    rw [List.append_assoc]
    exact .other hne hs hc ih

/-- A stretch outside ASCII shown as one character. -/
theorem stretch {c : Char} (hne : bytes ≠ []) (hs : NoAscii bytes) (hc : 0x80 ≤ c.toNat) :
    Shows bytes [c] := by
  simpa using Shows.other hne hs hc .nil

theorem toNat_ofNat_byte {b : UInt8} (hb : b.toNat < 0x80) : (Char.ofNat b.toNat).toNat = b.toNat :=
  toNat_ofNat (.inl (by omega))

/-- An ASCII byte is that of a character if the byte shows as it. -/
theorem byte_eq_iff {b : UInt8} (hb : b.toNat < 0x80) {c : Char} (hc : c.toNat < 0x80) :
    UInt8.ofNat c.toNat = b ↔ c = Char.ofNat b.toNat := by
  constructor
  · rintro rfl
    rw [toNat_asciiByte hc, Char.ofNat_toNat]
  · rintro rfl
    rw [toNat_ofNat_byte hb, UInt8.ofNat_toNat]

theorem prefix_iff (h : Shows bytes text) :
    ∀ {word : List Char}, IsAscii word → (asciiBytes word <+: bytes ↔ word <+: text) := by
  induction h with
  | nil =>
    intro word _
    cases word <;> simp [asciiBytes]
  | ascii hb _ ih =>
    intro word ha
    cases word with
    | nil => simp [asciiBytes]
    | cons c word =>
      show UInt8.ofNat c.toNat :: asciiBytes word <+: _ ↔ _
      rw [List.cons_prefix_cons, List.cons_prefix_cons, byte_eq_iff hb ha.of_cons.1,
        ih ha.of_cons.2]
  | @other stretch bytes d text hne hs hd _ _ =>
    intro word ha
    cases word with
    | nil => simp [asciiBytes]
    | cons c word =>
      obtain ⟨b, stretch, rfl⟩ := List.exists_cons_of_ne_nil hne
      have hc := ha.of_cons.1
      have hb := hs b List.mem_cons_self
      refine ⟨fun hp => ?_, fun hp => ?_⟩
      · rw [List.cons_append] at hp
        have heq := congrArg UInt8.toNat (List.cons_prefix_cons.mp hp).1
        rw [toNat_asciiByte hc] at heq
        omega
      · obtain rfl := (List.cons_prefix_cons.mp hp).1
        omega

theorem infix_stretch {stretch : List UInt8} (hs : NoAscii stretch) {word : List Char}
    (ha : IsAscii word) (hne : word ≠ []) :
    asciiBytes word <:+: stretch ++ bytes ↔ asciiBytes word <:+: bytes := by
  obtain ⟨c, word, rfl⟩ := List.exists_cons_of_ne_nil hne
  induction stretch with
  | nil => rfl
  | cons b stretch ih =>
    have hb := hs b List.mem_cons_self
    have hc := ha.of_cons.1
    rw [List.cons_append, List.infix_cons_iff, ih fun d hd => hs d (List.mem_cons_of_mem b hd)]
    refine or_iff_right fun hp => ?_
    have heq := congrArg UInt8.toNat (List.cons_prefix_cons.mp hp).1
    rw [toNat_asciiByte hc] at heq
    omega

/-- **An ASCII word stands in a rendering** exactly where it stands in the bytes. -/
theorem word_iff (h : Shows bytes text) {word : List Char} (ha : IsAscii word) (hne : word ≠ []) :
    asciiBytes word <:+: bytes ↔ word <:+: text := by
  induction h with
  | nil => simp [asciiBytes]
  | ascii hb h ih =>
    rw [List.infix_cons_iff, List.infix_cons_iff, (Shows.ascii hb h).prefix_iff ha, ih]
  | @other stretch bytes d text hs hn hd h ih =>
    rw [infix_stretch hn ha hne, List.infix_cons_iff, ih]
    refine (or_iff_right fun hp => ?_).symm
    obtain ⟨c, word, rfl⟩ := List.exists_cons_of_ne_nil hne
    obtain rfl := (List.cons_prefix_cons.mp hp).1
    have := ha.of_cons.1
    omega

end Shows

end InlineRepl.Text
