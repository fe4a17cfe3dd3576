import InlineRepl.Proofs.Text.Encoded

/-!
# Texts are ordered like their bytes

A text that comes before another, character by character, comes before it byte by byte. A character
with more bytes has a greater first byte and a greater number; of two characters with equally many,
the bytes hold the digits of their numbers, the highest first.

Results:
* `utf8EncodeChar_lt`: so it is for two characters, whatever follows them.
* `bytesOf_lt`: and for texts.
-/

namespace InlineRepl.Text

variable {xs ys : List UInt8}

/-- A row of bytes comes first if its first byte does, or if it is the same and the rest does. -/
theorem byte_cons_lt {n m : Nat} (hm : m < 256) (hle : n ≤ m) (h : n = m → xs < ys) :
    UInt8.ofNat n :: xs < UInt8.ofNat m :: ys := by
  rw [List.cons_lt_cons_iff]
  rcases Nat.lt_or_eq_of_le hle with hlt | rfl
  · refine .inl ?_
    rw [UInt8.lt_iff_toNat_lt, toNat_byte (Nat.lt_trans hlt hm), toNat_byte hm]
    exact hlt
  · exact .inr ⟨rfl, h rfl⟩

/-- **The bytes of a lesser character come first**, whatever follows them. -/
theorem utf8EncodeChar_lt {c d : Char} (h : c < d) (xs ys : List UInt8) :
    String.utf8EncodeChar c ++ xs < String.utf8EncodeChar d ++ ys := by
  have hlt : c.val.toNat < d.val.toNat := h
  have hd : d.val.toNat < 0x110000 := by
    have hvalid := d.valid
    simp only [UInt32.isValidChar, Nat.isValidChar] at hvalid
    omega
  unfold String.utf8EncodeChar
  dsimp only
  generalize c.val.toNat = v at *
  generalize d.val.toNat = w at *
  split_ifs
  -- The first character has no more bytes than the second one.
  any_goals (exfalso; omega)
  -- Where it has fewer, the first byte decides.
  iterate 4
    · exact byte_cons_lt (by omega) (by omega) fun _ => by omega
  · refine byte_cons_lt (by omega) (by omega) fun _ => ?_
    exact byte_cons_lt (by omega) (by omega) fun _ => by omega
  iterate 2
    · exact byte_cons_lt (by omega) (by omega) fun _ => by omega
  · refine byte_cons_lt (by omega) (by omega) fun _ => ?_
    refine byte_cons_lt (by omega) (by omega) fun _ => ?_
    exact byte_cons_lt (by omega) (by omega) fun _ => by omega
  · exact byte_cons_lt (by omega) (by omega) fun _ => by omega
  · refine byte_cons_lt (by omega) (by omega) fun _ => ?_
    refine byte_cons_lt (by omega) (by omega) fun _ => ?_
    refine byte_cons_lt (by omega) (by omega) fun _ => ?_
    exact byte_cons_lt (by omega) (by omega) fun _ => by omega

theorem flatMap_encode_lt : ∀ {cs ds : List Char}, cs < ds →
    cs.flatMap String.utf8EncodeChar < ds.flatMap String.utf8EncodeChar
  | _, [], h => absurd h (List.not_lt_nil _)
  | [], d :: ds, _ => by
    rw [List.flatMap_nil, List.flatMap_cons]
    cases hd : String.utf8EncodeChar d with
    | nil => exact absurd hd String.utf8EncodeChar_ne_nil
    | cons b bs => exact List.nil_lt_cons _ _
  | c :: cs, d :: ds, h => by
    rw [List.flatMap_cons, List.flatMap_cons]
    rcases List.cons_lt_cons_iff.mp h with hlt | ⟨rfl, hlt⟩
    · exact utf8EncodeChar_lt hlt _ _
    · exact List.append_left_lt (flatMap_encode_lt hlt)

/-- **A text that comes before another comes before it byte by byte.** -/
theorem bytesOf_lt {s t : String} (h : s < t) : bytesOf s < bytesOf t :=
  flatMap_encode_lt (String.lt_iff.mp h)

end InlineRepl.Text
