import InlineRepl.Proofs.Text.Encoded
import InlineRepl.Proofs.Text.Utf8

/-!
# Decoding in chunks and decoding at once

A stream of bytes arrives in chunks. What `Chunks` gives out for them, put together, is to be the
lossy text of the whole stream, wherever it was cut. A character that is cut in two is held back and
costs nothing. But a chunk that holds an ill-formed stretch is given out to its last byte, and with
it the bytes of an unfinished character. When the next byte would have gone on with this character,
the chunk has *severed* it: one U+FFFD is shown for its beginning and one for each byte of the rest.

A severed character always shows. Its rest alone makes more damaged stretches than the character
makes pieces, and nothing behind it makes up for them, so the text of a stream in chunks is never
shorter than the text of the whole, and longer as soon as a character is severed.

Results:
* `texts_eq`: the texts of a stream that has ended, and those of its chunks as they arrive.
* `length_lossy`: what a decoder that forgets an unfinished character makes of the bytes behind it.
* `length_lossy_le_shown`: the text in chunks is no shorter than the text of the whole.
* `decoded_eq_lossy_iff`: the two are the same exactly when no chunk severs a character.
* `decoded_bytesOf`: so they are for a stream that is well-formed.
* `euro_severed`: a stream of four bytes, cut once, for which they differ.
-/

namespace InlineRepl.Text

namespace Utf8

/-! ## Bytes behind an unfinished character -/

/-- The text of the bytes that come after a state, up to the end of the input. -/
def lossy (state : State) (bytes : List UInt8) : List Char :=
  ((run state bytes).1 ++ (run state bytes).2.close).map Piece.shown

/-- The state is inside a character, and the bytes go on with it. -/
def State.goesOn : State → List UInt8 → Bool
  | .inside _ low high _, b :: _ => decide (low ≤ b ∧ b ≤ high)
  | _, _ => false

/-- Only bytes from 0x80 to 0xBF, which begin nothing, go on with a character. -/
def State.Tails : State → Prop
  | .ready => True
  | .inside _ low high _ => 0x80 ≤ low ∧ high ≤ 0xBF

theorem lossy_append (state : State) (bytes more : List UInt8) :
    lossy state (bytes ++ more) =
      (run state bytes).1.map Piece.shown ++ lossy (run state bytes).2 more := by
  unfold lossy
  rw [run_append, List.append_assoc, List.map_append]

theorem lossy_cons (state : State) (b : UInt8) (bytes : List UInt8) :
    lossy state (b :: bytes) =
      (step state b).1.map Piece.shown ++ lossy (step state b).2 bytes := by
  show ((step state b).1 ++ (run (step state b).2 bytes).1 ++ _).map Piece.shown = _
  rw [List.append_assoc, List.map_append]
  rfl

theorem begin_tails (b : UInt8) : (begin b).2.Tails := by
  unfold begin
  dsimp only
  split
  · trivial
  split
  · trivial
  repeat'
    split
    · exact ⟨by decide, by decide⟩
  trivial

theorem step_tails {state : State} (h : state.Tails) (b : UInt8) : (step state b).2.Tails := by
  cases state with
  | ready => exact begin_tails b
  | inside bits low high after =>
    show (if low ≤ b ∧ b ≤ high then _ else _ : List Piece × State).2.Tails
    split
    · cases after with
      | zero => trivial
      | succ after => exact ⟨by decide, by decide⟩
    · exact begin_tails b

theorem run_tails : ∀ (bytes : List UInt8) {state : State}, state.Tails →
    (run state bytes).2.Tails
  | [], _, h => h
  | b :: bytes, _, h => run_tails bytes (step_tails h b)

/-- A byte that goes on with a character begins none. -/
theorem begin_tail {b : UInt8} (hl : 0x80 ≤ b) (hh : b ≤ 0xBF) :
    begin b = ([.damaged], .ready) := by
  have hl : 0x80 ≤ b.toNat := UInt8.le_iff_toNat_le.mp hl
  have hh : b.toNat ≤ 0xBF := UInt8.le_iff_toNat_le.mp hh
  unfold begin
  dsimp only
  rw [if_neg (by omega), if_pos (by omega)]

/-- An unfinished character that the bytes do not go on with can be given out before them. -/
theorem lossy_of_not_goesOn {state : State} {bytes : List UInt8} (h : state.goesOn bytes = false) :
    state.close.map Piece.shown ++ lossy .ready bytes = lossy state bytes := by
  cases state with
  | ready => rfl
  | inside bits low high after =>
    cases bytes with
    | nil => rfl
    | cons b bytes =>
      have hb : ¬ (low ≤ b ∧ b ≤ high) := of_decide_eq_false h
      have hstep : step (.inside bits low high after) b = (.damaged :: (begin b).1, (begin b).2) :=
        if_neg hb
      rw [lossy_cons, lossy_cons, hstep]
      rfl

/-- **A decoder that forgets an unfinished character** shows no less of the bytes behind it, and one
character more where they go on with it. -/
theorem length_lossy (bytes : List UInt8) : ∀ {state : State}, state.Tails →
    (lossy state bytes).length + (if state.goesOn bytes then 1 else 0) ≤
      state.close.length + (lossy .ready bytes).length := by
  induction bytes with
  | nil =>
    intro state _
    cases state <;> simp [lossy, run, State.goesOn]
  | cons b bytes ih =>
    intro state h
    cases hg : state.goesOn (b :: bytes) with
    | false =>
      rw [← lossy_of_not_goesOn hg]
      simp
    | true =>
      cases state with
      | ready => exact absurd hg (by simp [State.goesOn])
      | inside bits low high after =>
        have hb : low ≤ b ∧ b ≤ high := of_decide_eq_true hg
        have hready : lossy .ready (b :: bytes) = Piece.damaged.shown :: lossy .ready bytes := by
          rw [lossy_cons]
          show (begin b).1.map Piece.shown ++ lossy (begin b).2 bytes = _
          rw [begin_tail (UInt8.le_trans h.1 hb.1) (UInt8.le_trans hb.2 h.2)]
          rfl
        have hnext := ih (step_tails h b)
        have hpieces : (step (.inside bits low high after) b).1.length +
            (step (.inside bits low high after) b).2.close.length = 1 := by
          cases after with
          | zero =>
            have hstep : step (.inside bits low high 0) b =
                ([.char (Char.ofNat (bits * 64 + (b.toNat - 0x80)))], .ready) := if_pos hb
            rw [hstep]
            rfl
          | succ after =>
            have hstep : step (.inside bits low high (after + 1)) b =
                ([], .inside (bits * 64 + (b.toNat - 0x80)) 0x80 0xBF after) := if_pos hb
            rw [hstep]
            rfl
        rw [hready, lossy_cons, List.length_append, List.length_map, List.length_cons]
        simp only [State.close, List.length_singleton, if_true]
        omega

end Utf8

namespace Chunks

open Utf8

/-! ## Streams -/

variable {chunks : Chunks} {bytes : List UInt8} {cuts : List (List UInt8)}

/-- The texts given out for a stream that arrives in chunks: those that each chunk completes, and
what was held back when the stream ends. -/
def texts : Chunks → List (List UInt8) → List String
  | chunks, [] => chunks.finish.toList
  | chunks, bytes :: cuts => (chunks.push bytes).1.toList ++ texts (chunks.push bytes).2 cuts

/-- The text of a stream that arrives in chunks. -/
def decoded (cuts : List (List UInt8)) : String :=
  String.join (texts {} cuts)

/-- The decoder after chunks. -/
def after (chunks : Chunks) (cuts : List (List UInt8)) : Chunks :=
  cuts.foldl (fun chunks bytes => (chunks.push bytes).2) chunks

/-- The texts given out for chunks as they arrive, whatever is held back at the end. -/
def pushed : Chunks → List (List UInt8) → List String
  | _, [] => []
  | chunks, bytes :: cuts => (chunks.push bytes).1.toList ++ pushed (chunks.push bytes).2 cuts

theorem after_snoc (chunks : Chunks) (cuts : List (List UInt8)) (bytes : List UInt8) :
    chunks.after (cuts ++ [bytes]) = ((chunks.after cuts).push bytes).2 :=
  List.foldl_concat ..

theorem pushed_snoc (cuts : List (List UInt8)) (bytes : List UInt8) : ∀ chunks : Chunks,
    chunks.pushed (cuts ++ [bytes]) =
      chunks.pushed cuts ++ ((chunks.after cuts).push bytes).1.toList := by
  induction cuts with
  | nil => simp [pushed, after]
  | cons first cuts ih =>
    intro chunks
    simp only [List.cons_append, pushed, ih, List.append_assoc]
    rfl

/-- A stream that has ended has given out what was held back, after everything else. -/
theorem texts_eq (cuts : List (List UInt8)) : ∀ chunks : Chunks,
    chunks.texts cuts = chunks.pushed cuts ++ (chunks.after cuts).finish.toList := by
  induction cuts with
  | nil => simp [texts, pushed, after]
  | cons bytes cuts ih =>
    intro chunks
    simp only [texts, pushed, ih, List.append_assoc]
    rfl

/-- **A chunk severs a character**: it holds an ill-formed stretch, breaks off inside a character,
and the rest of the stream goes on with this character. -/
def Severs (chunks : Chunks) (bytes rest : List UInt8) : Prop :=
  .damaged ∈ (run chunks.state bytes).1 ∧ (run chunks.state bytes).2.goesOn rest = true

/-- Some chunk of a stream severs a character. -/
def SomewhereSevers (chunks : Chunks) (cuts : List (List UInt8)) : Prop :=
  ∃ before bytes behind, cuts = before ++ bytes :: behind ∧
    (chunks.after before).Severs bytes behind.flatten

theorem somewhereSevers_cons :
    chunks.SomewhereSevers (bytes :: cuts) ↔
      chunks.Severs bytes cuts.flatten ∨ (chunks.push bytes).2.SomewhereSevers cuts := by
  constructor
  · rintro ⟨before, severed, behind, hcuts, hs⟩
    cases before with
    | nil =>
      obtain ⟨rfl, rfl⟩ := List.cons.inj hcuts
      exact .inl hs
    | cons first before =>
      obtain ⟨rfl, rfl⟩ := List.cons.inj hcuts
      exact .inr ⟨before, severed, behind, rfl, hs⟩
  · rintro (hs | ⟨before, severed, behind, rfl, hs⟩)
    · exact ⟨[], bytes, cuts, rfl, hs⟩
    · exact ⟨bytes :: before, severed, behind, rfl, hs⟩

/-! ## The text in chunks -/

/-- The characters given out for a stream that arrives in chunks. -/
def shown (chunks : Chunks) (cuts : List (List UInt8)) : List Char :=
  (String.join (texts chunks cuts)).toList

theorem toList_join_toList (text : Option String) (more : List String) :
    (String.join (text.toList ++ more)).toList = given text ++ (String.join more).toList := by
  cases text <;> simp [given]

theorem shown_nil (chunks : Chunks) : shown chunks [] = lossy chunks.state [] := by
  have hjoin := toList_join_toList chunks.finish []
  rw [List.append_nil] at hjoin
  show (String.join chunks.finish.toList).toList = chunks.state.close.map Piece.shown
  rw [hjoin]
  simp [finish, given_shown?]

theorem shown_cons (chunks : Chunks) (bytes : List UInt8) (cuts : List (List UInt8)) :
    shown chunks (bytes :: cuts) =
      given (chunks.push bytes).1 ++ shown (chunks.push bytes).2 cuts :=
  toList_join_toList _ _

/-- **A chunk with an ill-formed stretch** is given out to its last byte, and the decoder begins
anew. Of any other chunk an unfinished character is held back. -/
theorem push_cases (chunks : Chunks) (bytes : List UInt8) :
    (.damaged ∈ (run chunks.state bytes).1 ∧ (chunks.push bytes).2 = {} ∧
        given (chunks.push bytes).1 = (run chunks.state bytes).1.map Piece.shown ++
          (run chunks.state bytes).2.close.map Piece.shown) ∨
      .damaged ∉ (run chunks.state bytes).1 ∧
        (chunks.push bytes).2 = { state := (run chunks.state bytes).2 } ∧
        given (chunks.push bytes).1 = (run chunks.state bytes).1.map Piece.shown := by
  have hany : ((run chunks.state bytes).1.any (· == .damaged) = true) ↔
      .damaged ∈ (run chunks.state bytes).1 := by
    simp
  unfold push
  dsimp only
  by_cases hd : Piece.damaged ∈ (run chunks.state bytes).1
  · rw [if_pos (hany.mpr hd), given_shown?, List.map_append]
    exact .inl ⟨hd, rfl, rfl⟩
  · rw [if_neg (mt hany.mp hd), given_shown?]
    exact .inr ⟨hd, rfl, rfl⟩

theorem push_tails (h : chunks.state.Tails) (bytes : List UInt8) :
    (chunks.push bytes).2.state.Tails := by
  rcases push_cases chunks bytes with ⟨-, hp, -⟩ | ⟨-, hp, -⟩
  · rw [hp]
    trivial
  · rw [hp]
    exact run_tails bytes h

/-- **The text in chunks is no shorter than the text of the whole.** -/
theorem length_lossy_le_shown (cuts : List (List UInt8)) : ∀ chunks : Chunks,
    chunks.state.Tails → (lossy chunks.state cuts.flatten).length ≤ (shown chunks cuts).length := by
  induction cuts with
  | nil =>
    intro chunks _
    rw [shown_nil]
    exact Nat.le_refl _
  | cons bytes cuts ih =>
    intro chunks h
    have hrest := ih _ (push_tails h bytes)
    have hstate := length_lossy cuts.flatten (run_tails bytes h)
    rw [List.flatten_cons, lossy_append, shown_cons, List.length_append, List.length_append,
      List.length_map]
    rcases push_cases chunks bytes with ⟨-, hp, hg⟩ | ⟨-, hp, hg⟩
    · rw [hp] at hrest ⊢
      change (lossy .ready cuts.flatten).length ≤ (shown {} cuts).length at hrest
      rw [hg, List.length_append, List.length_map, List.length_map]
      omega
    · rw [hp] at hrest ⊢
      rw [hg, List.length_map]
      exact Nat.add_le_add_left hrest _

/-- **The text in chunks is the text of the whole** exactly when no chunk severs a character. -/
theorem shown_eq_lossy_iff (cuts : List (List UInt8)) : ∀ chunks : Chunks, chunks.state.Tails →
    (shown chunks cuts = lossy chunks.state cuts.flatten ↔ ¬ chunks.SomewhereSevers cuts) := by
  induction cuts with
  | nil =>
    intro chunks _
    refine iff_of_true (shown_nil chunks) ?_
    rintro ⟨before, bytes, behind, hcuts, -⟩
    exact absurd hcuts.symm (by simp)
  | cons bytes cuts ih =>
    intro chunks h
    have hih := ih _ (push_tails h bytes)
    rw [somewhereSevers_cons, not_or, ← hih, List.flatten_cons, lossy_append, shown_cons]
    rcases push_cases chunks bytes with ⟨hd, hp, hg⟩ | ⟨hd, hp, hg⟩
    · rw [hg, hp, List.append_assoc, List.append_cancel_left_eq]
      show _ ↔ _ ∧ shown {} cuts = lossy .ready cuts.flatten
      cases hgo : (run chunks.state bytes).2.goesOn cuts.flatten with
      | false =>
        have hs : ¬ chunks.Severs bytes cuts.flatten := fun hs => absurd (hgo.symm.trans hs.2) nofun
        rw [← lossy_of_not_goesOn hgo, List.append_cancel_left_eq]
        exact (and_iff_right hs).symm
      | true =>
        -- What is forgotten of the character makes the text longer, whatever is severed later.
        have hstate := length_lossy cuts.flatten (run_tails bytes h)
        have hrest : (lossy .ready cuts.flatten).length ≤ (shown {} cuts).length :=
          length_lossy_le_shown cuts {} trivial
        rw [hgo, if_pos rfl] at hstate
        refine iff_of_false (fun he => ?_) fun hn => hn.1 ⟨hd, hgo⟩
        have hlen := congrArg List.length he
        rw [List.length_append, List.length_map] at hlen
        omega
    · have hs : ¬ chunks.Severs bytes cuts.flatten := fun hs => hd hs.1
      rw [hg, hp, List.append_cancel_left_eq]
      exact (and_iff_right hs).symm

/-- Only a stream with an ill-formed stretch has a character severed. -/
theorem SomewhereSevers.damaged : ∀ {cuts : List (List UInt8)} {chunks : Chunks},
    chunks.SomewhereSevers cuts → .damaged ∈ (run chunks.state cuts.flatten).1
  | [], _, ⟨_, _, _, hcuts, _⟩ => absurd hcuts.symm (by simp)
  | bytes :: cuts, chunks, h => by
    rw [List.flatten_cons, run_append]
    rcases somewhereSevers_cons.mp h with hs | hs
    · exact List.mem_append_left _ hs.1
    · rcases push_cases chunks bytes with ⟨hd, -, -⟩ | ⟨-, hp, -⟩
      · exact List.mem_append_left _ hd
      · rw [hp] at hs
        have hrest := hs.damaged
        exact List.mem_append_right _ hrest

/-- **A well-formed stream** is decoded as what it is, however it is cut. -/
theorem decoded_bytesOf {text : String} (h : cuts.flatten = bytesOf text) :
    decoded cuts = text := by
  have hchars : run .ready cuts.flatten = (text.toList.map .char, .ready) := by
    rw [h]
    exact run_chars text.toList
  have hintact : ¬ ({} : Chunks).SomewhereSevers cuts := by
    intro hs
    have hd := hs.damaged
    rw [show ({} : Chunks).state = .ready from rfl, hchars] at hd
    simp at hd
  have hshown := (shown_eq_lossy_iff cuts {} trivial).mpr hintact
  have hlossy : lossy .ready cuts.flatten = (text.toList.map .char).map Piece.shown := by
    unfold lossy
    rw [hchars]
    exact congrArg _ (List.append_nil _)
  rw [← String.toList_inj]
  refine (hshown.trans hlossy).trans ?_
  rw [List.map_map]
  exact List.map_id text.toList

/-- **When decoding does not depend on the chunks.** However a stream is cut, the texts given out
for its chunks and for its end are, put together, the lossy text of the whole stream, exactly if no
chunk that holds an ill-formed stretch breaks off inside a character that the next byte goes on
with. -/
theorem decoded_eq_lossy_iff (cuts : List (List UInt8)) :
    decoded cuts = decodeLossy cuts.flatten ↔
      ∀ before bytes behind, cuts = before ++ bytes :: behind →
        ¬ (after {} before).Severs bytes behind.flatten := by
  have hiff := shown_eq_lossy_iff cuts {} trivial
  have hlossy : (decodeLossy cuts.flatten).toList = lossy .ready cuts.flatten :=
    String.toList_ofList
  rw [← String.toList_inj, hlossy]
  refine hiff.trans ⟨fun h before bytes behind hcuts hs => ?_, fun h => ?_⟩
  · exact h ⟨before, bytes, behind, hcuts, hs⟩
  · rintro ⟨before, bytes, behind, hcuts, hs⟩
    exact h before bytes behind hcuts hs

/-- **A character is lost behind an ill-formed byte**: the four bytes show U+FFFD and a euro sign
when they come at once, and three times U+FFFD when the last of them comes later. -/
theorem euro_severed :
    decoded [[0xFF, 0xE2, 0x82], [0xAC]] = "\uFFFD\uFFFD\uFFFD" ∧
      decodeLossy [[0xFF, 0xE2, 0x82], [0xAC]].flatten = "\uFFFD€" ∧
      decoded [[0xFF, 0xE2, 0x82], [0xAC]] ≠ decodeLossy [[0xFF, 0xE2, 0x82], [0xAC]].flatten := by
  decide +kernel

end Chunks

end InlineRepl.Text
