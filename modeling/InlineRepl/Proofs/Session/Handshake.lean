import InlineRepl.Proofs.Text.Shown
import InlineRepl.Session.Handshake

/-!
# The handshake finds the marker wherever it is cut

Only the end of standard output is kept between two chunks, `marker.length - 1` bytes of it at
least. This is enough: whatever part of the marker an output ends in is kept, because it is shorter
than the marker and in ASCII, one byte a character.

Results:
* `lastBytes_keeps`: `lastBytes` keeps an ASCII end of a text that is not longer than the bytes
  asked for.
* `Tracks.onStdout`, `Tracks.onStderr`: the handshake is complete exactly when standard output so
  far holds the marker. A chunk of it keeps this so, and standard error does not come into it.
-/

namespace InlineRepl

namespace Handshake

open Text (IsAscii hasPart_iff)

variable {h : Handshake} {out : List Char} {chunk : String}

/-! ## The end that is kept -/

theorem byteCount_ascii : ∀ {cs : List Char}, IsAscii cs → byteCount cs = cs.length
  | [], _ => rfl
  | c :: cs, ha => by
    have hc : c.utf8Size = 1 := by
      rw [Char.utf8Size_eq_one_iff, UInt32.le_iff_toNat_le]
      have := ha.of_cons.1
      show c.toNat ≤ 127
      omega
    show c.utf8Size + byteCount cs = cs.length + 1
    rw [hc, byteCount_ascii ha.of_cons.2]
    omega

/-- What is kept is an end of the text, and enough of it, or all. -/
theorem lastBytes_cases (least : Nat) : ∀ cs : List Char,
    (lastBytes least cs).1 <:+ cs ∧ (lastBytes least cs).2 = byteCount (lastBytes least cs).1 ∧
      ((lastBytes least cs).1 = cs ∨ least ≤ (lastBytes least cs).2)
  | [] => ⟨List.suffix_rfl, rfl, .inl rfl⟩
  | c :: cs => by
    obtain ⟨hend, hsize, henough⟩ := lastBytes_cases least cs
    unfold lastBytes
    dsimp only
    split
    · rename_i hle
      exact ⟨hend.trans (List.suffix_cons c cs), hsize, .inr hle⟩
    · rename_i hlt
      have hall : (lastBytes least cs).1 = cs := henough.resolve_right hlt
      refine ⟨?_, ?_, .inl ?_⟩
      · rw [hall]
      · rw [hsize]
        exact Nat.add_comm _ _
      · rw [hall]

/-- **An ASCII end of a text is kept**, as long as it has no more characters than bytes are to be
kept. -/
theorem lastBytes_keeps {least : Nat} {cs word : List Char} (ha : IsAscii word)
    (hlen : word.length ≤ least) (hw : word <:+ cs) : word <:+ (lastBytes least cs).1 := by
  obtain ⟨hend, hsize, henough⟩ := lastBytes_cases least cs
  rcases henough with hall | henough
  · rw [hall]
    exact hw
  · rcases List.suffix_or_suffix_of_suffix hw hend with hle | hge
    · exact hle
    · have hk : IsAscii (lastBytes least cs).1 := fun c hc => ha c (hge.subset hc)
      rw [hsize, byteCount_ascii hk] at henough
      exact (hge.eq_of_length_le (by omega)) ▸ List.suffix_rfl

/-! ## The marker -/

theorem marker_ascii : IsAscii marker := by
  unfold IsAscii marker
  simp

theorem marker_ne_nil : marker ≠ [] := by decide

/-- An end of a concatenation lies in its second part, or covers it. -/
theorem suffix_append_cases {word front back : List Char} (hw : word <:+ front ++ back) :
    word <:+ back ∨ ∃ part, word = part ++ back ∧ part <:+ front := by
  rcases List.suffix_or_suffix_of_suffix hw (List.suffix_append front back) with hb | ⟨part, rfl⟩
  · exact .inl hb
  · exact .inr ⟨part, rfl, List.suffix_append_self_iff.mp hw⟩

/-- The end that is kept of an output holds every part of the marker that the output ends in. -/
structure Recalls (tail out : List Char) : Prop where
  isEnd : tail <:+ out
  holds : ∀ word, IsAscii word → word.length < marker.length → word <:+ out → word <:+ tail

theorem recalls_nil : Recalls [] [] :=
  ⟨List.suffix_rfl, fun _ _ _ hw => hw⟩

/-- **The window sees every marker** that the output does not hold already. -/
theorem Recalls.marker_iff {tail : List Char} (hr : Recalls tail out) (hn : ¬ marker <:+: out)
    (more : List Char) : marker <:+: tail ++ more ↔ marker <:+: out ++ more := by
  constructor
  · intro hm
    exact hm.trans (List.suffix_append_self_iff.mpr hr.isEnd).isInfix
  · intro hm
    rcases List.infix_append_iff_ne_nil.mp hm with hm | hm | ⟨front, back, -, hb, he, hf, hbp⟩
    · exact absurd hm hn
    · exact List.infix_append_of_infix_right hm
    · have hlen : front.length < marker.length := by
        have := List.length_pos_iff.mpr hb
        rw [he, List.length_append]
        omega
      have hfront : IsAscii front := fun c hc =>
        marker_ascii c (he ▸ List.mem_append_left back hc)
      rw [he]
      exact List.infix_append_iff.mpr
        (.inr (.inr ⟨front, back, rfl, hr.holds front hfront hlen hf, hbp⟩))

theorem Recalls.lastBytes {tail : List Char} (hr : Recalls tail out) (more : List Char) :
    Recalls (lastBytes (marker.length - 1) (tail ++ more)).1 (out ++ more) := by
  refine ⟨?_, fun word ha hlen hw => lastBytes_keeps ha (by omega) ?_⟩
  · exact (lastBytes_cases _ _).1.trans (List.suffix_append_self_iff.mpr hr.isEnd)
  · rcases suffix_append_cases hw with hb | ⟨part, rfl, hp⟩
    · exact List.suffix_append_of_suffix hb
    · have hpart : IsAscii part := fun c hc => ha c (List.mem_append_left more hc)
      rw [List.length_append] at hlen
      exact List.suffix_append_self_iff.mpr (hr.holds part hpart (by omega) hp)

/-! ## The stage -/

/-- Output leaves a handshake under way or done. -/
theorem stage_onStdout (hs : h.stage = .connecting ∨ h.stage = .connected) :
    (h.onStdout chunk).2.stage = .connecting ∨ (h.onStdout chunk).2.stage = .connected := by
  unfold onStdout
  split
  · rename_i hf
    exact absurd hs (by simp [hf])
  · exact hs
  · dsimp only
    split
    · exact .inr rfl
    · exact hs
  · dsimp only
    split
    · exact .inr rfl
    · exact hs

theorem stage_onStderr (hs : h.stage = .connecting ∨ h.stage = .connected) :
    (h.onStderr chunk).stage = .connecting ∨ (h.onStderr chunk).stage = .connected := by
  unfold onStderr
  split <;> exact hs

/-- **The handshake is complete exactly when the output holds the marker**, and until then recalls
what the output ends in. -/
structure Tracks (h : Handshake) (out : List Char) : Prop where
  stage : h.stage = .connecting ∨ h.stage = .connected
  connected_iff : h.stage = .connected ↔ marker <:+: out
  recalls : h.stage = .connecting → Recalls h.tail out

theorem tracks_start : Tracks { stage := .connecting } [] where
  stage := .inl rfl
  connected_iff := by simp [marker_ne_nil]
  recalls := fun _ => recalls_nil

/-- **A chunk of standard output** completes the handshake where it completes the marker. -/
theorem Tracks.onStdout (ht : h.Tracks out) (chunk : String) :
    (h.onStdout chunk).2.Tracks (out ++ chunk.toList) := by
  rcases ht.stage with hs | hs
  · have hn : ¬ marker <:+: out := fun hm => by
      rw [ht.connected_iff.mpr hm] at hs
      exact absurd hs (by simp)
    have hwindow := (ht.recalls hs).marker_iff hn chunk.toList
    unfold Handshake.onStdout
    rw [hs]
    dsimp only
    split
    · rename_i hpart
      have hm := hwindow.mp (hasPart_iff.mp hpart)
      exact ⟨.inr rfl, iff_of_true rfl hm, fun hc => absurd hc (by simp)⟩
    · rename_i hpart
      have hm : ¬ marker <:+: out ++ chunk.toList := fun hm =>
        hpart (hasPart_iff.mpr (hwindow.mpr hm))
      exact ⟨.inl rfl, iff_of_false (by simp) hm, fun _ => (ht.recalls hs).lastBytes _⟩
  · have hm := ht.connected_iff.mp hs
    unfold Handshake.onStdout
    rw [hs]
    exact ⟨.inr rfl, iff_of_true rfl (List.infix_append_of_infix_left hm),
      fun hc => absurd hc (by simp)⟩

/-- A chunk of standard error does not come into it. -/
theorem Tracks.onStderr (ht : h.Tracks out) (chunk : String) : (h.onStderr chunk).Tracks out := by
  obtain ⟨hstage, hiff, hrecalls⟩ := ht
  unfold Handshake.onStderr
  split
  · exact ⟨hstage, hiff, hrecalls⟩
  · exact ⟨hstage, hiff, hrecalls⟩
  · exact ⟨hstage, hiff, hrecalls⟩
  · exact ⟨hstage, hiff, hrecalls⟩

end Handshake

end InlineRepl
