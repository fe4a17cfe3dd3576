import InlineRepl.Proofs.Session.Course
import InlineRepl.Proofs.Text.Boundary

/-!
# How much of the output a handshake keeps

Between two chunks a handshake keeps the end of standard output: all of it while there is little,
and else eight bytes, one fewer than the marker has, and what is missing of the character that the
eighth byte from the end is in. That is three bytes more at most. It is kept in whole characters;
in the bytes of the window, which are those that were kept and those of the chunk, it begins where a
search that goes back from the eighth byte meets the first boundary. Since the front is a boundary,
the search never passes it.

Results:
* `lastBytes_tight`, `byteCount_lastBytes_le`: no more is kept than has to be.
* `boundaryBefore?_lastBytes`: what is kept begins where the search ends.
* `Bounded.take`, `bounded_after`: every input keeps the bounds, so all inputs do.
* `tail_is_bounded_and_sufficient`: the end that a handshake keeps while it is under way.
-/

namespace InlineRepl

namespace Handshake

open Text (isBoundary boundaryBefore? isBoundary_iff isBoundary_between boundaryBefore?_eq_some_iff)

variable {h : Handshake} {out cs : List Char} {least : Nat} {input : Input} {inputs : List Input}

/-! ## Sizes -/

theorem byteCount_eq_length (cs : List Char) :
    byteCount cs = (cs.flatMap String.utf8EncodeChar).length := by
  induction cs with
  | nil => rfl
  | cons c cs ih =>
    rw [List.flatMap_cons, List.length_append, String.length_utf8EncodeChar, ← ih]
    rfl

theorem byteCount_append (cs more : List Char) :
    byteCount (cs ++ more) = byteCount cs + byteCount more := by
  simp only [byteCount_eq_length, List.flatMap_append, List.length_append]

/-- **No more is kept than has to be**: without its first character it would be too little. -/
theorem lastBytes_tight {c : Char} {rest : List Char} (hkept : (lastBytes least cs).1 = c :: rest) :
    byteCount rest < least := by
  induction cs with
  | nil => exact absurd hkept (by simp [lastBytes])
  | cons d cs ih =>
    obtain ⟨-, hsize, -⟩ := lastBytes_cases least cs
    unfold lastBytes at hkept
    dsimp only at hkept
    split at hkept
    · exact ih hkept
    · rename_i hlt
      obtain ⟨-, rfl⟩ := List.cons.inj hkept
      omega

/-- What is kept has three bytes more than asked for at most, since a character has four. -/
theorem byteCount_lastBytes_le (least : Nat) (cs : List Char) :
    byteCount (lastBytes least cs).1 ≤ least + 3 := by
  cases hkept : (lastBytes least cs).1 with
  | nil => exact Nat.zero_le _
  | cons c rest =>
    have htight := lastBytes_tight hkept
    have hfour := c.utf8Size_le_four
    show c.utf8Size + byteCount rest ≤ least + 3
    omega

/-! ## The search -/

/-- **What is kept begins where the search ends** that goes back to a boundary from the place before
the last bytes asked for. -/
theorem boundaryBefore?_lastBytes (least : Nat) (cs : List Char) :
    ∃ front, cs = front ++ (lastBytes least cs).1 ∧
      boundaryBefore? (cs.flatMap String.utf8EncodeChar) (byteCount cs - least) =
        some (byteCount front) := by
  obtain ⟨⟨front, hsplit⟩, hsize, henough⟩ := lastBytes_cases least cs
  have hcount : byteCount cs = byteCount front + byteCount (lastBytes least cs).1 := by
    rw [← byteCount_append, hsplit]
  refine ⟨front, hsplit.symm, boundaryBefore?_eq_some_iff.mpr ⟨?_, ?_, ?_⟩⟩
  · rcases henough with hall | henough
    · rw [hall] at hcount
      omega
    · omega
  · rw [byteCount_eq_length]
    exact isBoundary_iff.mpr ⟨front, _, hsplit.symm, rfl⟩
  · intro other hlt hother
    -- A later boundary would leave fewer bytes than were asked for.
    by_contra hboundary
    obtain ⟨before, after, hcs, hbefore⟩ := isBoundary_iff.mp (Bool.not_eq_false _ ▸ hboundary)
    rw [← byteCount_eq_length] at hbefore
    rcases List.append_eq_append_iff.mp (hsplit.trans hcs) with
      ⟨more, hmore, hkept⟩ | ⟨more, hmore, -⟩
    · cases more with
      | nil => simp [hmore] at hbefore; omega
      | cons c more =>
        have htight : byteCount (more ++ after) < least := lastBytes_tight hkept
        rw [hcs, byteCount_append] at hother
        rw [byteCount_append] at htight
        omega
    · rw [hmore, byteCount_append] at hlt
      omega

/-! ## Bounds -/

/-- The handshake is neither completed nor failed. -/
def Pending (h : Handshake) : Prop :=
  h.stage ≠ .connected ∧ h.stage ≠ .failed

/-- The bounds of what is kept of an output. -/
structure Bounded (h : Handshake) (out : List Char) : Prop where
  isEnd : h.tail <:+ out
  enough : h.tail = out ∨ marker.length - 1 ≤ byteCount h.tail
  short : byteCount h.tail ≤ marker.length - 1 + 3

theorem bounded_start : Bounded {} [] :=
  ⟨List.suffix_rfl, .inl rfl, Nat.zero_le _⟩

/-- Only a handshake under way gets under way. -/
theorem Pending.of_take (hp : (h.take input).Pending) : h.Pending := by
  constructor
  · intro hc
    exact hp.1 (stage_take_connected hc input)
  · intro hf
    exact hp.2 (by rw [take_failed hf, hf])

/-- A chunk that does not complete the marker leaves the end of the window. -/
theorem tail_onStdout (hp : h.Pending) (chunk : String)
    (hm : ¬ marker <:+: h.tail ++ chunk.toList) : (h.onStdout chunk).2.tail =
      (Handshake.lastBytes (marker.length - 1) (h.tail ++ chunk.toList)).1 := by
  rw [onStdout_pending hp.1 hp.2, if_neg fun hpart => hm (Text.hasPart_iff.mp hpart)]

/-- **Every input keeps the bounds.** -/
theorem Bounded.take (hb : h.Bounded out) (hp : (h.take input).Pending) :
    (h.take input).Bounded (out ++ input.output) := by
  have hbefore := hp.of_take
  obtain ⟨hend, henough, hshort⟩ := hb
  cases input with
  | spawned =>
    have htail : (h.take .spawned).tail = h.tail := by
      unfold Handshake.take spawned
      dsimp only
      split <;> rfl
    rw [Input.output, List.append_nil]
    exact ⟨by rwa [htail], by rwa [htail], by rwa [htail]⟩
  | stderr chunk =>
    have htail : (h.take (.stderr chunk)).tail = h.tail := by
      unfold Handshake.take onStderr
      dsimp only
      split <;> rfl
    rw [Input.output, List.append_nil]
    exact ⟨by rwa [htail], by rwa [htail], by rwa [htail]⟩
  | exit =>
    have hfailed : (h.take .exit).stage = .failed := by
      rw [Handshake.take, onExit_unconnected hbefore.1]
    exact absurd hfailed hp.2
  | stdout chunk =>
    have hm : ¬ marker <:+: h.tail ++ chunk.toList := by
      intro hm
      refine hp.1 ?_
      show (h.onStdout chunk).2.stage = .connected
      rw [onStdout_pending hbefore.1 hbefore.2, if_pos (Text.hasPart_iff.mpr hm)]
    have htail : (h.take (.stdout chunk)).tail = _ := tail_onStdout hbefore chunk hm
    obtain ⟨hkept, hsize, hall⟩ := lastBytes_cases (marker.length - 1) (h.tail ++ chunk.toList)
    refine ⟨?_, ?_, ?_⟩
    · rw [htail]
      exact hkept.trans (List.suffix_append_self_iff.mpr hend)
    · rw [htail]
      rcases hall with hall | hall
      · rw [hall]
        rcases henough with rfl | henough
        · exact .inl rfl
        · right
          rw [byteCount_append]
          omega
      · exact .inr (hsize ▸ hall)
    · rw [htail]
      exact byteCount_lastBytes_le _ _

/-- **A handshake under way keeps the bounds** of all the output of its inputs. -/
theorem bounded_after (hp : (after inputs).Pending) : (after inputs).Bounded (outputOf inputs) := by
  induction inputs using List.reverseRecOn with
  | nil => exact bounded_start
  | append_singleton inputs input ih =>
    rw [after_snoc] at hp
    rw [after_snoc, outputOf_snoc]
    exact (ih hp.of_take).take hp

/-- The marker is not in what is kept. -/
theorem marker_not_in_tail (hp : (after inputs).Pending) : ¬ marker <:+: (after inputs).tail := by
  intro hm
  have hfell : ¬ Fell inputs := fun hf => hp.2 ((stage_after_failed_iff inputs).mpr hf)
  have hout := hm.trans (bounded_after hp).isEnd.isInfix
  exact hp.1 (isConnected_iff.mp ((isConnected_after_iff hfell).mpr hout))

/-- **The end that a handshake keeps is bounded and always sufficient**, whatever inputs it has
taken, as long as it is neither completed nor failed.

It is an end of all of standard output, beginning between two characters. It does not hold the
marker. It has eight bytes at least, or all that there are, and eleven at most. For every further
chunk, the search for the place to cut at goes back from the eighth byte before the end of the
window, or from its front, to a boundary that is not before the front; and if the window does not
hold the marker, what is kept next is what stands behind that boundary. -/
theorem tail_is_bounded_and_sufficient (inputs : List Input)
    (pending : (after inputs).stage ≠ .connected ∧ (after inputs).stage ≠ .failed) :
    let tail := (after inputs).tail
    let output := (outputOf inputs).flatMap String.utf8EncodeChar
    let kept := tail.flatMap String.utf8EncodeChar
    (∃ front, outputOf inputs = front ++ tail ∧
      output = front.flatMap String.utf8EncodeChar ++ kept ∧
      isBoundary output (front.flatMap String.utf8EncodeChar).length = true) ∧
    ¬ marker <:+: tail ∧
    min 8 output.length ≤ kept.length ∧ kept.length ≤ 11 ∧
    ∀ chunk : String,
      let window := (tail ++ chunk.toList).flatMap String.utf8EncodeChar
      ∃ start, boundaryBefore? window (window.length - (marker.length - 1)) = some start ∧
        start ≤ window.length - (marker.length - 1) ∧
        (¬ marker <:+: tail ++ chunk.toList →
          ((after inputs).onStdout chunk).2.tail.flatMap String.utf8EncodeChar =
            window.drop start) := by
  intro tail output kept
  have hbounded : (after inputs).Bounded (outputOf inputs) := bounded_after pending
  obtain ⟨⟨front, hsplit⟩, henough, hshort⟩ := hbounded
  have hmarker : marker.length = 9 := by decide
  rw [byteCount_eq_length, hmarker] at hshort
  refine ⟨⟨front, hsplit.symm, ?_, ?_⟩, marker_not_in_tail pending, ?_, hshort, fun chunk => ?_⟩
  · rw [← List.flatMap_append, hsplit]
  · show isBoundary ((outputOf inputs).flatMap String.utf8EncodeChar) _ = true
    rw [← hsplit]
    exact isBoundary_between front tail
  · rcases henough with hall | henough
    · have hlen : kept.length = output.length :=
        congrArg (fun cs : List Char => (cs.flatMap String.utf8EncodeChar).length) hall
      omega
    · rw [byteCount_eq_length, hmarker] at henough
      exact (Nat.min_le_left _ _).trans henough
  · obtain ⟨before, hwindow, hsearch⟩ :=
      boundaryBefore?_lastBytes (marker.length - 1) (tail ++ chunk.toList)
    have hlen := byteCount_eq_length (tail ++ chunk.toList)
    obtain ⟨hle, -, -⟩ := boundaryBefore?_eq_some_iff.mp hsearch
    rw [hlen] at hsearch hle
    refine ⟨byteCount before, hsearch, hle, fun hm => ?_⟩
    have hbytes := congrArg (List.flatMap String.utf8EncodeChar) hwindow
    rw [tail_onStdout pending chunk hm, hbytes, List.flatMap_append, byteCount_eq_length,
      List.drop_left]

/-- The eighth byte from the end of this output is the last one of a character of four bytes, so
eleven bytes are kept. A further such character is cut at the same way. -/
theorem eleven_bytes_are_kept :
    let inputs : List Input := [.stdout "x😀", .spawned, .stderr "!", .stdout "Connect"]
    let tail := (after inputs).tail
    ((after inputs).stage ≠ .connected ∧ (after inputs).stage ≠ .failed) ∧
      tail = "😀Connect".toList ∧ (tail.flatMap String.utf8EncodeChar).length ≤ 11 ∧
      ((after inputs).onStdout "😀😀").2.tail.flatMap String.utf8EncodeChar =
        ("😀Connect😀😀".toList.flatMap String.utf8EncodeChar).drop 11 := by
  intro inputs tail
  have pending : (after inputs).stage ≠ .connected ∧ (after inputs).stage ≠ .failed := by
    decide +kernel
  have htail : tail = "😀Connect".toList := by decide +kernel
  obtain ⟨-, -, -, hshort, hcut⟩ := tail_is_bounded_and_sufficient inputs pending
  obtain ⟨start, hstart, -, hdrop⟩ := hcut "😀😀"
  have hmissing : ¬ marker <:+: tail ++ "😀😀".toList := by
    rw [htail]
    decide +kernel
  have heleven : start = 11 := by
    have hsearch : boundaryBefore? ((tail ++ "😀😀".toList).flatMap String.utf8EncodeChar)
        (((tail ++ "😀😀".toList).flatMap String.utf8EncodeChar).length - (marker.length - 1)) =
          some 11 := by
      rw [htail]
      decide +kernel
    exact Option.some.inj (hstart.symm.trans hsearch)
  refine ⟨pending, htail, hshort, (hdrop hmissing).trans ?_⟩
  rw [heleven]
  show ((tail ++ _).flatMap _).drop 11 = _
  rw [htail]
  rfl

end Handshake

end InlineRepl
