import InlineRepl.Proofs.Text.Shown
import Mathlib.Algebra.Group.Nat.Defs
import Mathlib.Tactic.Common

/-!
# A text is read back from its bytes

The bytes of a text are read strictly as the text they are of: the machine takes each character's
bytes to the character and stands between two characters again. Of the bytes below 0x80 each stands
for the character of its number and for nothing else, so a line feed byte is a line feed.

Results:
* `Utf8.run_char`, `Utf8.run_chars`: what the machine makes of the bytes of characters.
* `Utf8.decode?_bytesOf`: the strict reading gives the text back.
* `mem_bytes_ascii`: an ASCII byte comes from its character.
-/

namespace InlineRepl.Text

/-! ## Bytes -/

theorem toNat_byte {n : Nat} (h : n < 256) : (UInt8.ofNat n).toNat = n := by
  rw [UInt8.toNat_ofNat', Nat.mod_eq_of_lt h]

theorem bytesOf_append (s t : String) : bytesOf (s ++ t) = bytesOf s ++ bytesOf t := by
  unfold bytesOf
  rw [String.toList_append, List.flatMap_append]

theorem bytesOf_ofList (cs : List Char) :
    bytesOf (String.ofList cs) = cs.flatMap String.utf8EncodeChar := by
  unfold bytesOf
  rw [String.toList_ofList]

/-- **An ASCII byte comes from its character**: no other character has it among its bytes. -/
theorem mem_bytes_ascii {c : Char} {b : UInt8} (hm : b ∈ String.utf8EncodeChar c)
    (hb : b.toNat < 0x80) : c.toNat = b.toNat := by
  have hval : c.val.toNat = c.toNat := rfl
  have hlead : ∀ n, 0x80 ≤ n → n < 256 → b ≠ UInt8.ofNat n := by
    rintro n hlow hhigh rfl
    rw [toNat_byte hhigh] at hb
    omega
  unfold String.utf8EncodeChar at hm
  dsimp only at hm
  rw [hval] at hm
  split_ifs at hm with h1 h2 h3
  · obtain rfl := List.mem_singleton.mp hm
    rw [toNat_byte (by omega)]
  · simp only [List.mem_cons, List.not_mem_nil, or_false] at hm
    rcases hm with hm | hm
    all_goals exact absurd hm (hlead _ (by omega) (by omega))
  · simp only [List.mem_cons, List.not_mem_nil, or_false] at hm
    rcases hm with hm | hm | hm
    all_goals exact absurd hm (hlead _ (by omega) (by omega))
  · simp only [List.mem_cons, List.not_mem_nil, or_false] at hm
    rcases hm with hm | hm | hm | hm
    all_goals exact absurd hm (hlead _ (by omega) (by omega))

/-- A text without line feeds has no line feed byte. -/
theorem lineFeed_not_mem_bytes {cs : List Char} (h : '\n' ∉ cs) :
    (0x0A : UInt8) ∉ cs.flatMap String.utf8EncodeChar := by
  intro hm
  obtain ⟨c, hc, hb⟩ := List.mem_flatMap.mp hm
  have hn : c.toNat = '\n'.toNat := mem_bytes_ascii hb (by decide)
  exact h (Char.toNat_inj.mp hn ▸ hc)

namespace Utf8

/-! ## Runs -/

theorem run_append (bytes more : List UInt8) : ∀ state : State,
    run state (bytes ++ more) =
      ((run state bytes).1 ++ (run (run state bytes).2 more).1,
        (run (run state bytes).2 more).2) := by
  induction bytes with
  | nil => exact fun _ => rfl
  | cons b bytes ih =>
    intro state
    show ((step state b).1 ++ (run (step state b).2 (bytes ++ more)).1,
      (run (step state b).2 (bytes ++ more)).2) = _
    rw [ih]
    simp only [run, List.append_assoc]

/-- A number between two bytes is a byte between them. -/
theorem byte_between {n : Nat} {low high : UInt8} (hl : low.toNat ≤ n) (hh : n ≤ high.toNat) :
    (UInt8.ofNat n).toNat = n ∧ low ≤ UInt8.ofNat n ∧ UInt8.ofNat n ≤ high := by
  have hn : (UInt8.ofNat n).toNat = n := toNat_byte (Nat.lt_of_le_of_lt hh high.toNat_lt)
  rw [UInt8.le_iff_toNat_le, UInt8.le_iff_toNat_le, hn]
  exact ⟨rfl, hl, hh⟩

/-- The last byte of a character. -/
theorem step_last {bits n v : Nat} {low high : UInt8} (hl : low.toNat ≤ n) (hh : n ≤ high.toNat)
    (hv : bits * 64 + (n - 0x80) = v) :
    step (.inside bits low high 0) (UInt8.ofNat n) = ([.char (Char.ofNat v)], .ready) := by
  obtain ⟨hn, hin⟩ := byte_between hl hh
  have hstep : step (.inside bits low high 0) (UInt8.ofNat n) =
      ([.char (Char.ofNat (bits * 64 + ((UInt8.ofNat n).toNat - 0x80)))], .ready) := if_pos hin
  rw [hstep, hn, hv]

/-- A byte in the middle of a character. -/
theorem step_middle (bits after : Nat) {n : Nat} {low high : UInt8} (hl : low.toNat ≤ n)
    (hh : n ≤ high.toNat) :
    step (.inside bits low high (after + 1)) (UInt8.ofNat n) =
      ([], .inside (bits * 64 + (n - 0x80)) 0x80 0xBF after) := by
  obtain ⟨hn, hin⟩ := byte_between hl hh
  have hstep : step (.inside bits low high (after + 1)) (UInt8.ofNat n) =
      ([], .inside (bits * 64 + ((UInt8.ofNat n).toNat - 0x80)) 0x80 0xBF after) := if_pos hin
  rw [hstep, hn]

/-- A byte in the middle of a character that is bounded like the bytes after it. -/
theorem step_tail (bits k after : Nat) :
    step (.inside bits 0x80 0xBF (after + 1)) (UInt8.ofNat (k % 64 + 128)) =
      ([], .inside (bits * 64 + k % 64) 0x80 0xBF after) := by
  have hbounds : (0x80 : UInt8).toNat = 0x80 ∧ (0xBF : UInt8).toNat = 0xBF := by decide
  rw [step_middle bits after (by omega) (by omega), Nat.add_sub_cancel]

/-- The last byte of a character of several bytes. -/
theorem step_end {bits k v : Nat} (hv : bits * 64 + k % 64 = v) :
    step (.inside bits 0x80 0xBF 0) (UInt8.ofNat (k % 64 + 128)) =
      ([.char (Char.ofNat v)], .ready) := by
  have hbounds : (0x80 : UInt8).toNat = 0x80 ∧ (0xBF : UInt8).toNat = 0xBF := by decide
  exact step_last (by omega) (by omega) (by omega)

/-! ## First bytes -/

theorem begin_two {n : Nat} (hl : 0xC2 ≤ n) (hh : n < 0xE0) :
    begin (UInt8.ofNat n) = ([], .inside (n - 0xC0) 0x80 0xBF 0) := by
  unfold begin
  dsimp only
  rw [toNat_byte (by omega), if_neg (by omega), if_neg (by omega), if_pos hh]

/-- The first of three bytes leaves room for the second one: the code point is neither one of two
bytes nor half of a surrogate pair. -/
theorem begin_three {v : Nat} (hl : 0x800 ≤ v) (hh : v < 0x10000)
    (hv : v < 0xD800 ∨ 0xE000 ≤ v) :
    ∃ low high : UInt8, begin (UInt8.ofNat (v / 4096 % 16 + 0xE0)) =
        ([], .inside (v / 4096) low high 1) ∧
      low.toNat ≤ v / 64 % 64 + 0x80 ∧ v / 64 % 64 + 0x80 ≤ high.toNat := by
  have hlow : (0xA0 : UInt8).toNat = 0xA0 ∧ (0x80 : UInt8).toNat = 0x80 ∧
    (0x9F : UInt8).toNat = 0x9F ∧ (0xBF : UInt8).toNat = 0xBF := by decide
  unfold begin
  dsimp only
  rw [toNat_byte (by omega), if_neg (by omega), if_neg (by omega), if_neg (by omega)]
  split_ifs with h0 hD h1
  · exact ⟨0xA0, 0xBF, by rw [show v / 4096 = 0 by omega], by omega, by omega⟩
  · exact ⟨0x80, 0x9F, by rw [show v / 4096 = 0xD by omega], by omega, by omega⟩
  · refine ⟨0x80, 0xBF, ?_, by omega, by omega⟩
    rw [show v / 4096 % 16 + 0xE0 - 0xE0 = v / 4096 by omega]
  all_goals omega

/-- The first of four bytes leaves room for the second one: the code point is neither one of three
bytes nor above the last one. -/
theorem begin_four {v : Nat} (hl : 0x10000 ≤ v) (hh : v < 0x110000) :
    ∃ low high : UInt8, begin (UInt8.ofNat (v / 262144 % 8 + 0xF0)) =
        ([], .inside (v / 262144) low high 2) ∧
      low.toNat ≤ v / 4096 % 64 + 0x80 ∧ v / 4096 % 64 + 0x80 ≤ high.toNat := by
  have hlow : (0x90 : UInt8).toNat = 0x90 ∧ (0x80 : UInt8).toNat = 0x80 ∧
    (0x8F : UInt8).toNat = 0x8F ∧ (0xBF : UInt8).toNat = 0xBF := by decide
  unfold begin
  dsimp only
  rw [toNat_byte (by omega), if_neg (by omega), if_neg (by omega), if_neg (by omega),
    if_neg (by omega), if_neg (by omega), if_neg (by omega)]
  split_ifs with h0 h1 h4
  · exact ⟨0x90, 0xBF, by rw [show v / 262144 = 0 by omega], by omega, by omega⟩
  · refine ⟨0x80, 0xBF, ?_, by omega, by omega⟩
    rw [show v / 262144 % 8 + 0xF0 - 0xF0 = v / 262144 by omega]
  · exact ⟨0x80, 0x8F, by rw [show v / 262144 = 4 by omega], by omega, by omega⟩
  · omega

/-! ## Characters -/

/-- **The bytes of a character are read as the character.** -/
theorem run_char (c : Char) : run .ready (String.utf8EncodeChar c) = ([.char c], .ready) := by
  have hvalid : c.toNat < 0xD800 ∨ 0xDFFF < c.toNat ∧ c.toNat < 0x110000 := c.valid
  have hc : Char.ofNat c.toNat = c := Char.ofNat_toNat c
  have hval : c.val.toNat = c.toNat := rfl
  unfold String.utf8EncodeChar
  dsimp only
  rw [hval]
  generalize c.toNat = v at *
  split_ifs with h1 h2 h3
  · have hbegin : begin (UInt8.ofNat v) = ([.char (Char.ofNat v)], .ready) := by
      unfold begin
      dsimp only
      rw [toNat_byte (by omega), if_pos (by omega)]
    simp only [run, step, hbegin, hc, List.append_nil]
  · have hbegin : begin (UInt8.ofNat (v / 64 % 32 + 192)) = ([], .inside (v / 64) 0x80 0xBF 0) := by
      rw [begin_two (by omega) (by omega), show v / 64 % 32 + 192 - 0xC0 = v / 64 by omega]
    have hend : v / 64 * 64 + v % 64 = v := by omega
    simp only [run, step.eq_1, hbegin, step_end hend, hc, List.nil_append, List.append_nil]
  · obtain ⟨low, high, hbegin, hlow, hhigh⟩ := begin_three (v := v) (by omega) (by omega) (by omega)
    have hmiddle := step_middle (v / 4096) 0 hlow hhigh
    rw [Nat.add_sub_cancel] at hmiddle
    have hend : (v / 4096 * 64 + v / 64 % 64) * 64 + v % 64 = v := by omega
    simp only [run, step.eq_1, hbegin, hmiddle, step_end hend, hc, List.nil_append,
      List.append_nil]
  · obtain ⟨low, high, hbegin, hlow, hhigh⟩ := begin_four (v := v) (by omega) (by omega)
    have hmiddle := step_middle (v / 262144) 1 hlow hhigh
    rw [Nat.add_sub_cancel] at hmiddle
    have hend : ((v / 262144 * 64 + v / 4096 % 64) * 64 + v / 64 % 64) * 64 + v % 64 = v := by
      omega
    simp only [run, step.eq_1, hbegin, hmiddle, step_tail, step_end hend, hc, List.nil_append,
      List.append_nil]

/-- The bytes of characters are read as the characters. -/
theorem run_chars : ∀ cs : List Char,
    run .ready (cs.flatMap String.utf8EncodeChar) = (cs.map .char, .ready)
  | [] => rfl
  | c :: cs => by
    rw [List.flatMap_cons, run_append, run_char, run_chars cs]
    rfl

/-- The bytes of a text are those of its characters. -/
theorem pieces_bytesOf (s : String) : pieces (bytesOf s) = s.toList.map .char := by
  unfold pieces bytesOf
  rw [run_chars]
  exact List.append_nil _

/-- A text is shown as it is. -/
theorem decodeLossy_bytesOf (s : String) : decodeLossy (bytesOf s) = s := by
  unfold decodeLossy
  rw [pieces_bytesOf, List.map_map]
  exact (congrArg String.ofList (List.map_id _)).trans String.ofList_toList

/-- **A text is read back from its bytes.** -/
theorem decode?_bytesOf (s : String) : decode? (bytesOf s) = some s := by
  have hchars : ∀ cs : List Char, (cs.map Piece.char).mapM Piece.char? = some cs := by
    intro cs
    induction cs with
    | nil => rfl
    | cons c cs ih =>
      rw [List.map_cons, List.mapM_cons, ih]
      rfl
  unfold decode?
  rw [pieces_bytesOf, hchars, Option.map_some, String.ofList_toList]

end Utf8

end InlineRepl.Text
