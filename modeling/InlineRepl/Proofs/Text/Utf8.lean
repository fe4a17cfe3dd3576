import InlineRepl.Proofs.Text.Shown
import Mathlib.Algebra.Group.Nat.Defs
import Mathlib.Tactic.Common

/-!
# What a stream of text shows

However a stream of bytes is cut into chunks, and whatever bytes it is made of, the texts that
`Chunks` gives out show the bytes that it has taken, apart from an unfinished character that it
holds back, which has no ASCII byte in it.

The machine never makes an ASCII character of anything but an ASCII byte: whichever bytes follow,
the character that an unfinished one becomes lies in a range of code points above ASCII, all of
them valid. `State.Sound` is that range; every step keeps it.

Results:
* `step_shows`, `run_shows`: what one byte and what any bytes complete shows them.
* `Chunks.push_shows`, `Chunks.finish_shows`: so do the texts of a stream.
-/

namespace InlineRepl.Text

namespace Utf8

/-! ## The character to come -/

/-- Every way to go on from a state ends in a valid character outside ASCII. -/
def State.Sound : State → Prop
  | .ready => True
  | .inside bits low high after =>
    0x80 ≤ low.toNat ∧ 0x80 ≤ (bits * 64 + (low.toNat - 0x80)) * 64 ^ after ∧
      ((bits * 64 + (high.toNat - 0x80) + 1) * 64 ^ after ≤ 0xD800 ∨
        0xE000 ≤ (bits * 64 + (low.toNat - 0x80)) * 64 ^ after ∧
          (bits * 64 + (high.toNat - 0x80) + 1) * 64 ^ after ≤ 0x110000)

/-- The bytes of the character that a state is inside of. -/
structure State.Holds (state : State) (pending : List UInt8) : Prop where
  noAscii : NoAscii pending
  ready_iff : state = .ready ↔ pending = []
  sound : state.Sound

theorem holds_ready : State.ready.Holds [] :=
  ⟨fun _ h => absurd h List.not_mem_nil, by simp, trivial⟩

/-- **A first byte** is a character, damaged, or the beginning of a valid character. -/
theorem begin_cases (b : UInt8) :
    (b.toNat < 0x80 ∧ begin b = ([.char (Char.ofNat b.toNat)], .ready)) ∨
      (0x80 ≤ b.toNat ∧ begin b = ([.damaged], .ready)) ∨
      0x80 ≤ b.toNat ∧ (begin b).1 = [] ∧ (begin b).2 ≠ .ready ∧ (begin b).2.Sound := by
  have hb := b.toNat_lt
  unfold begin
  dsimp only
  split
  · exact .inl ⟨‹_›, rfl⟩
  split
  · exact .inr (.inl ⟨by omega, rfl⟩)
  repeat'
    split
    · refine .inr (.inr ⟨by omega, rfl, nofun, ?_⟩)
      simp only [State.Sound, UInt8.reduceToNat, Nat.reducePow, Nat.pow_zero, Nat.pow_one]
      omega
  exact .inr (.inl ⟨by omega, rfl⟩)

/-- A byte inside a character that goes on narrows the range. -/
theorem sound_inside {bits after : Nat} {low high b : UInt8}
    (h : (State.inside bits low high (after + 1)).Sound) (hl : low ≤ b) (hh : b ≤ high) :
    (State.inside (bits * 64 + (b.toNat - 0x80)) 0x80 0xBF after).Sound := by
  obtain ⟨h80, hlow, hrange⟩ := h
  have hl := UInt8.le_iff_toNat_le.mp hl
  have hh := UInt8.le_iff_toNat_le.mp hh
  have hge : (bits * 64 + (low.toNat - 0x80)) * 64 ^ (after + 1) ≤
      (bits * 64 + (b.toNat - 0x80)) * 64 ^ (after + 1) := Nat.mul_le_mul_right _ (by omega)
  have hle : (bits * 64 + (b.toNat - 0x80) + 1) * 64 ^ (after + 1) ≤
      (bits * 64 + (high.toNat - 0x80) + 1) * 64 ^ (after + 1) := Nat.mul_le_mul_right _ (by omega)
  have hlo : ((bits * 64 + (b.toNat - 0x80)) * 64 + ((0x80 : UInt8).toNat - 0x80)) * 64 ^ after =
      (bits * 64 + (b.toNat - 0x80)) * 64 ^ (after + 1) := by
    rw [Nat.pow_succ', ← Nat.mul_assoc, show (0x80 : UInt8).toNat - 0x80 = 0 by decide,
      Nat.add_zero]
  have hhi :
      ((bits * 64 + (b.toNat - 0x80)) * 64 + ((0xBF : UInt8).toNat - 0x80) + 1) * 64 ^ after =
      (bits * 64 + (b.toNat - 0x80) + 1) * 64 ^ (after + 1) := by
    rw [Nat.pow_succ', ← Nat.mul_assoc, show (0xBF : UInt8).toNat - 0x80 = 63 by decide,
      Nat.add_mul _ 1 64]
  refine ⟨by decide, ?_, ?_⟩
  · omega
  · omega

/-- The last byte of a character makes a valid one outside ASCII. -/
theorem char_inside {bits : Nat} {low high b : UInt8} (h : (State.inside bits low high 0).Sound)
    (hl : low ≤ b) (hh : b ≤ high) :
    0x80 ≤ (Char.ofNat (bits * 64 + (b.toNat - 0x80))).toNat := by
  obtain ⟨h80, hlow, hrange⟩ := h
  have hl := UInt8.le_iff_toNat_le.mp hl
  have hh := UInt8.le_iff_toNat_le.mp hh
  simp only [Nat.pow_zero, Nat.mul_one] at hlow hrange
  rw [toNat_ofNat]
  · omega
  · show _ ∨ _
    omega

/-! ## Steps and runs -/

/-- A first byte shows at once, or is held back. -/
theorem begin_shows (b : UInt8) :
    (Shows [b] ((begin b).1.map Piece.shown) ∧ (begin b).2 = .ready) ∨
      ((begin b).1 = [] ∧ (begin b).2.Holds [b]) := by
  have hone : 0x80 ≤ b.toNat → NoAscii [b] := by
    intro hb d hd
    obtain rfl := List.mem_singleton.mp hd
    exact hb
  rcases begin_cases b with ⟨hb, he⟩ | ⟨hb, he⟩ | ⟨hb, he, hn, hs⟩
  · rw [he]
    exact .inl ⟨.ascii hb .nil, rfl⟩
  · rw [he]
    exact .inl ⟨.stretch (by simp) (hone hb) (by decide), rfl⟩
  · exact .inr ⟨he, hone hb, iff_of_false hn (by simp), hs⟩

/-- **What a byte completes shows the bytes behind it.** -/
theorem step_shows {state : State} {pending : List UInt8} (h : state.Holds pending) (b : UInt8) :
    ∃ done kept, pending ++ [b] = done ++ kept ∧
      Shows done ((step state b).1.map Piece.shown) ∧ (step state b).2.Holds kept := by
  cases state with
  | ready =>
    obtain rfl := h.ready_iff.mp rfl
    rcases begin_shows b with ⟨hs, hr⟩ | ⟨he, hk⟩
    · refine ⟨[b], [], rfl, hs, ?_⟩
      show (begin b).2.Holds []
      rw [hr]
      exact holds_ready
    · refine ⟨[], [b], rfl, ?_, hk⟩
      show Shows [] ((begin b).1.map Piece.shown)
      rw [he]
      exact .nil
  | inside bits low high after =>
    have hne : pending ≠ [] := fun hp => nomatch h.ready_iff.mpr hp
    by_cases hb : low ≤ b ∧ b ≤ high
    · have hb80 : 0x80 ≤ b.toNat := h.sound.1.trans (UInt8.le_iff_toNat_le.mp hb.1)
      have hall : NoAscii (pending ++ [b]) := by
        intro d hd
        rcases List.mem_append.mp hd with hd | hd
        · exact h.noAscii d hd
        · obtain rfl := List.mem_singleton.mp hd
          exact hb80
      cases after with
      | zero =>
        have hstep : step (.inside bits low high 0) b =
            ([.char (Char.ofNat (bits * 64 + (b.toNat - 0x80)))], .ready) := if_pos hb
        rw [hstep]
        exact ⟨pending ++ [b], [], (List.append_nil _).symm,
          .stretch (by simp) hall (char_inside h.sound hb.1 hb.2), holds_ready⟩
      | succ after =>
        have hstep : step (.inside bits low high (after + 1)) b =
            ([], .inside (bits * 64 + (b.toNat - 0x80)) 0x80 0xBF after) := if_pos hb
        rw [hstep]
        exact ⟨[], pending ++ [b], rfl, .nil, hall, by simp, sound_inside h.sound hb.1 hb.2⟩
    · -- The unfinished character is damaged, and the byte begins the next one.
      have hstep : step (.inside bits low high after) b =
          (.damaged :: (begin b).1, (begin b).2) := if_neg hb
      rw [hstep]
      have hd : Shows pending [Piece.damaged.shown] := .stretch hne h.noAscii (by decide)
      rcases begin_shows b with ⟨hs, hr⟩ | ⟨he, hk⟩
      · refine ⟨pending ++ [b], [], (List.append_nil _).symm, hd.append hs, ?_⟩
        rw [hr]
        exact holds_ready
      · refine ⟨pending, [b], rfl, ?_, hk⟩
        rw [he]
        exact hd

/-- **What bytes complete shows them**, but for those of an unfinished character. -/
theorem run_shows : ∀ (bytes : List UInt8) {state : State} {pending : List UInt8},
    state.Holds pending → ∃ done kept, pending ++ bytes = done ++ kept ∧
      Shows done ((run state bytes).1.map Piece.shown) ∧ (run state bytes).2.Holds kept
  | [], state, pending, h => ⟨[], pending, List.append_nil _, .nil, h⟩
  | b :: bytes, state, pending, h => by
    obtain ⟨done, kept, hbytes, hs, hk⟩ := step_shows h b
    obtain ⟨more, rest, hmore, hsm, hr⟩ := run_shows bytes hk
    refine ⟨done ++ more, rest, ?_, ?_, hr⟩
    · rw [List.append_cons, hbytes, List.append_assoc, hmore, List.append_assoc]
    · show Shows _ (((step state b).1 ++ (run (step state b).2 bytes).1).map Piece.shown)
      rw [List.map_append]
      exact hs.append hsm

/-- The end of the input shows the bytes that were held back. -/
theorem close_shows {state : State} {pending : List UInt8} (h : state.Holds pending) :
    Shows pending (state.close.map Piece.shown) := by
  cases state with
  | ready =>
    obtain rfl := h.ready_iff.mp rfl
    exact .nil
  | inside =>
    exact .stretch (fun hp => nomatch h.ready_iff.mpr hp) h.noAscii (by decide)

end Utf8

/-! ## Streams -/

namespace Chunks

open Utf8

/-- The characters of a text, if there is one. -/
def given : Option String → List Char
  | none => []
  | some text => text.toList

theorem given_shown? (pieces : List Piece) : given (shown? pieces) = pieces.map Piece.shown := by
  unfold shown?
  split
  · rename_i h
    rw [List.isEmpty_iff.mp h]
    rfl
  · exact String.toList_ofList

/-- **What a chunk gives out shows the bytes that were held back before it and its own**, but for
those that are held back after it. -/
theorem push_shows {chunks : Chunks} {pending : List UInt8} (h : chunks.state.Holds pending)
    (bytes : List UInt8) :
    ∃ done kept, pending ++ bytes = done ++ kept ∧ Shows done (given (chunks.push bytes).1) ∧
      (chunks.push bytes).2.state.Holds kept := by
  obtain ⟨done, kept, hbytes, hs, hk⟩ := run_shows bytes h
  unfold push
  dsimp only
  split
  · refine ⟨done ++ kept, [], hbytes.trans (List.append_nil _).symm, ?_, holds_ready⟩
    rw [given_shown?, List.map_append]
    exact hs.append (close_shows hk)
  · refine ⟨done, kept, hbytes, ?_, hk⟩
    rw [given_shown?]
    exact hs

/-- What the end of a stream gives out shows the bytes that were held back. -/
theorem finish_shows {chunks : Chunks} {pending : List UInt8} (h : chunks.state.Holds pending) :
    Shows pending (given chunks.finish) := by
  unfold finish
  rw [given_shown?]
  exact close_shows h

end Chunks

end InlineRepl.Text
