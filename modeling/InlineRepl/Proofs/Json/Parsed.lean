import InlineRepl.Proofs.Json.Grammar

/-!
# What is read has been spelled

The converse of `Proofs.Json.Grammar`: whatever the reading takes from the front of a text is a
spelling of the value that it gives. Every step of the reading says which characters it has taken;
put together they are the text that was read, blanks included.

Results:
* `Numeral.spelledBy_of_scan`: numbers.
* `Raw.spelledBy_of_scan`: values at the front of a longer text.
* `Raw.parse?_eq_some_iff`: a text is read if and only if it spells the value.
-/

namespace InlineRepl.Json

/-! ## Numbers -/

namespace Numeral

variable {cs rest ds : List Char}

theorem of_scanDigits (h : scanDigits cs = some (ds, rest)) : IsDigits ds ∧ cs = ds ++ rest := by
  unfold scanDigits at h
  cases htake : cs.takeWhile isDigit with
  | nil =>
    rw [htake] at h
    cases h
  | cons d more =>
    rw [htake] at h
    obtain ⟨rfl, rfl⟩ := Prod.mk.inj (Option.some.inj h)
    refine ⟨⟨List.cons_ne_nil d more, fun c hc => ?_⟩, ?_⟩
    · rw [← htake] at hc
      exact List.mem_takeWhile_imp hc
    · rw [← htake, List.takeWhile_append_dropWhile]

theorem of_scanWhole (h : scanWhole cs = some (ds, rest)) :
    WholeSpelledBy ds ∧ cs = ds ++ rest := by
  unfold scanWhole at h
  split at h
  · obtain ⟨rfl, rfl⟩ := Prod.mk.inj (Option.some.inj h)
    exact ⟨.inl rfl, rfl⟩
  · rename_i hzero
    obtain ⟨hd, rfl⟩ := of_scanDigits h
    refine ⟨.inr ⟨hd, fun more hds => hzero (more ++ rest) ?_⟩, rfl⟩
    rw [hds]
    rfl

theorem of_scanFraction {fraction : Option (List Char)}
    (h : scanFraction cs = some (fraction, rest)) :
    ∃ text, FractionSpelledBy fraction text ∧ cs = text ++ rest := by
  unfold scanFraction at h
  split at h
  · obtain ⟨⟨ds, after⟩, hscan, h⟩ := Option.map_eq_some_iff.mp h
    obtain ⟨rfl, rfl⟩ := Prod.mk.inj h
    obtain ⟨hd, rfl⟩ := of_scanDigits hscan
    exact ⟨'.' :: ds, ⟨hd, rfl⟩, rfl⟩
  · obtain ⟨rfl, rfl⟩ := Prod.mk.inj (Option.some.inj h)
    exact ⟨[], rfl, rfl⟩

theorem of_scanSign {negative : Bool} (h : scanSign cs = (negative, rest)) :
    ∃ sign, SignSpelledBy negative sign ∧ cs = sign ++ rest := by
  unfold scanSign at h
  split at h
  · obtain ⟨rfl, rfl⟩ := Prod.mk.inj h
    exact ⟨['-'], rfl, rfl⟩
  · obtain ⟨rfl, rfl⟩ := Prod.mk.inj h
    exact ⟨['+'], .inl rfl, rfl⟩
  · obtain ⟨rfl, rfl⟩ := Prod.mk.inj h
    exact ⟨[], .inr rfl, rfl⟩

theorem of_scanExponent {exponent : Option (Bool × List Char)}
    (h : scanExponent cs = some (exponent, rest)) :
    ∃ text, ExponentSpelledBy exponent text ∧ cs = text ++ rest := by
  unfold scanExponent at h
  split at h
  · rename_i letter after
    split at h
    · rename_i hletter
      rcases hscan : scanSign after with ⟨negative, more⟩
      rw [hscan] at h
      obtain ⟨⟨ds, _⟩, hdigits, h⟩ := Option.map_eq_some_iff.mp h
      obtain ⟨rfl, rfl⟩ := Prod.mk.inj h
      obtain ⟨sign, hsign, rfl⟩ := of_scanSign hscan
      obtain ⟨hd, rfl⟩ := of_scanDigits hdigits
      exact ⟨letter :: (sign ++ ds), ⟨hd, letter, sign, hletter, hsign, rfl⟩, by simp⟩
    · obtain ⟨rfl, rfl⟩ := Prod.mk.inj (Option.some.inj h)
      exact ⟨[], rfl, rfl⟩
  · obtain ⟨rfl, rfl⟩ := Prod.mk.inj (Option.some.inj h)
    exact ⟨[], rfl, rfl⟩

theorem of_scanUnsigned {negative : Bool} {n : Numeral}
    (h : scanUnsigned negative cs = some (n, rest)) :
    n.negative = negative ∧ WholeSpelledBy n.whole ∧ ∃ fraction exponent,
      FractionSpelledBy n.fraction fraction ∧ ExponentSpelledBy n.exponent exponent ∧
        cs = n.whole ++ (fraction ++ exponent) ++ rest := by
  unfold scanUnsigned at h
  simp only [Option.bind_eq_bind, Option.bind_eq_some_iff] at h
  obtain ⟨⟨whole, _⟩, h1, ⟨fraction, _⟩, h2, ⟨exponent, _⟩, h3, h⟩ := h
  obtain ⟨rfl, rfl⟩ := Prod.mk.inj (Option.some.inj h)
  obtain ⟨hwhole, rfl⟩ := of_scanWhole h1
  obtain ⟨ftext, hfraction, rfl⟩ := of_scanFraction h2
  obtain ⟨etext, hexponent, rfl⟩ := of_scanExponent h3
  exact ⟨rfl, hwhole, ftext, etext, hfraction, hexponent, by simp only [List.append_assoc]⟩

/-- **What is read as a number is a literal of it.** -/
theorem spelledBy_of_scan {n : Numeral} (h : scan cs = some (n, rest)) :
    ∃ text, n.SpelledBy text ∧ cs = text ++ rest := by
  unfold scan at h
  split at h
  · obtain ⟨hneg, hwhole, ftext, etext, hf, he, rfl⟩ := of_scanUnsigned h
    refine ⟨_, ⟨hwhole, ftext, etext, hf, he, rfl⟩, ?_⟩
    rw [hneg]
    rfl
  · obtain ⟨hneg, hwhole, ftext, etext, hf, he, rfl⟩ := of_scanUnsigned h
    refine ⟨_, ⟨hwhole, ftext, etext, hf, he, rfl⟩, ?_⟩
    rw [hneg]
    rfl

end Numeral

/-! ## Values -/

namespace Raw

theorem exists_blank (cs : List Char) : ∃ front, IsBlank front ∧ cs = front ++ skip cs :=
  ⟨cs.takeWhile isSpace, fun _ hc => List.mem_takeWhile_imp hc,
    (List.takeWhile_append_dropWhile).symm⟩

/-- What is read as a key and its colon spells the key. -/
theorem of_scanKey {cs rest : List Char} {key : List Unit16} (h : scanKey cs = some (key, rest)) :
    ∃ name, Padded (QuotedBy key) name ∧ cs = name ++ ':' :: rest := by
  unfold scanKey at h
  obtain ⟨front, hfront, hcs⟩ := exists_blank cs
  split at h
  · rename_i quoted hskip
    split at h
    · rename_i key more hscan
      split at h
      · rename_i after hcolon
        obtain ⟨rfl, rfl⟩ := Prod.mk.inj (Option.some.inj h)
        obtain ⟨inner, hinner, rfl⟩ := spelledBy_of_scanQuoted hscan
        obtain ⟨back, hback, hmore⟩ := exists_blank more
        refine ⟨front ++ ('"' :: (inner ++ ['"']) ++ back),
          ⟨front, _, back, hfront, ⟨inner, hinner, rfl⟩, hback, rfl⟩, ?_⟩
        rw [hcs, hskip, hmore, hcolon]
        simp
      · cases h
    · cases h
  · cases h

/-- Where items are read there is at least one. -/
theorem scanItems_ne_nil (fuel : Nat) (cs rest : List Char) :
    scanItems fuel cs ≠ some ([], rest) := by
  intro h
  cases fuel with
  | zero =>
    rw [scanItems] at h
    cases h
  | succ fuel =>
    rw [scanItems] at h
    split at h
    · cases h
    · split at h
      · cases h
      · obtain ⟨_, -, h⟩ := Option.map_eq_some_iff.mp h
        cases h
      · cases h

theorem scanMembers_ne_nil (fuel : Nat) (cs rest : List Char) :
    scanMembers fuel cs ≠ some ([], rest) := by
  intro h
  cases fuel with
  | zero =>
    rw [scanMembers] at h
    cases h
  | succ fuel =>
    rw [scanMembers] at h
    split at h
    · cases h
    · split at h
      · cases h
      · split at h
        · cases h
        · obtain ⟨_, -, h⟩ := Option.map_eq_some_iff.mp h
          cases h
        · cases h

mutual

/-- **What is read as a value spells it**, blanks in front aside. -/
theorem spelledBy_of_scan : ∀ {fuel : Nat} {cs rest : List Char} {r : Raw},
    scan fuel cs = some (r, rest) →
      ∃ front inner, IsBlank front ∧ r.SpelledBy inner ∧ cs = front ++ (inner ++ rest)
  | 0, _, _, _, h => by
    rw [scan] at h
    cases h
  | fuel + 1, cs, rest, r, h => by
    obtain ⟨front, hfront, hcs⟩ := exists_blank cs
    have htext : ∀ inner, r.SpelledBy inner → skip cs = inner ++ rest →
        ∃ front inner, IsBlank front ∧ r.SpelledBy inner ∧ cs = front ++ (inner ++ rest) := by
      intro inner hinner hskip
      exact ⟨front, inner, hfront, hinner, by rw [← hskip, ← hcs]⟩
    rw [scan] at h
    split at h
    · rename_i after hskip
      obtain ⟨rfl, rfl⟩ := Prod.mk.inj (Option.some.inj h)
      exact htext _ rfl hskip
    · rename_i after hskip
      obtain ⟨rfl, rfl⟩ := Prod.mk.inj (Option.some.inj h)
      exact htext _ rfl hskip
    · rename_i after hskip
      obtain ⟨rfl, rfl⟩ := Prod.mk.inj (Option.some.inj h)
      exact htext _ rfl hskip
    · rename_i after hskip
      obtain ⟨⟨units, _⟩, hscan, h⟩ := Option.map_eq_some_iff.mp h
      obtain ⟨rfl, rfl⟩ := Prod.mk.inj h
      obtain ⟨inner, hinner, rfl⟩ := spelledBy_of_scanQuoted hscan
      exact htext _ ⟨inner, hinner, rfl⟩ (by rw [hskip]; simp)
    · rename_i after hskip
      obtain ⟨blank, hblank, hafter⟩ := exists_blank after
      split at h
      · rename_i more hmore
        obtain ⟨rfl, rfl⟩ := Prod.mk.inj (Option.some.inj h)
        rw [hmore] at hafter
        exact htext ('[' :: (blank ++ [']'])) ⟨blank, hblank, rfl⟩ (by rw [hskip, hafter]; simp)
      · obtain ⟨⟨items, _⟩, hscan, h⟩ := Option.map_eq_some_iff.mp h
        obtain ⟨rfl, rfl⟩ := Prod.mk.inj h
        rw [scanItems_skip (skip_skip after)] at hscan
        obtain ⟨inner, hinner, rfl⟩ := spelledBy_of_scanItems hscan
        exact htext _ ⟨inner, hinner, rfl⟩ (by rw [hskip]; simp)
    · rename_i after hskip
      obtain ⟨blank, hblank, hafter⟩ := exists_blank after
      split at h
      · rename_i more hmore
        obtain ⟨rfl, rfl⟩ := Prod.mk.inj (Option.some.inj h)
        rw [hmore] at hafter
        exact htext ('\x7b' :: (blank ++ ['\x7d'])) ⟨blank, hblank, rfl⟩
          (by rw [hskip, hafter]; simp)
      · obtain ⟨⟨members, _⟩, hscan, h⟩ := Option.map_eq_some_iff.mp h
        obtain ⟨rfl, rfl⟩ := Prod.mk.inj h
        rw [scanMembers_skip (skip_skip after)] at hscan
        obtain ⟨inner, hinner, rfl⟩ := spelledBy_of_scanMembers hscan
        exact htext _ ⟨inner, hinner, rfl⟩ (by rw [hskip]; simp)
    · obtain ⟨⟨n, _⟩, hscan, h⟩ := Option.map_eq_some_iff.mp h
      obtain ⟨rfl, rfl⟩ := Prod.mk.inj h
      obtain ⟨inner, hinner, hskip⟩ := Numeral.spelledBy_of_scan hscan
      exact htext inner hinner hskip

/-- **What is read as items spells them**, up to the closing bracket. -/
theorem spelledBy_of_scanItems : ∀ {fuel : Nat} {cs rest : List Char} {items : List Raw},
    scanItems fuel cs = some (items, rest) →
      ∃ inner, ItemsSpelledBy items inner ∧ cs = inner ++ ']' :: rest
  | 0, _, _, _, h => by
    rw [scanItems] at h
    cases h
  | fuel + 1, cs, rest, items, h => by
    rw [scanItems] at h
    split at h
    · cases h
    · rename_i item more hitem
      obtain ⟨front, inner, hfront, hinner, rfl⟩ := spelledBy_of_scan hitem
      obtain ⟨back, hback, hmore⟩ := exists_blank more
      have hpadded : Padded item.SpelledBy (front ++ (inner ++ back)) :=
        ⟨front, inner, back, hfront, hinner, hback, rfl⟩
      split at h
      · rename_i after hskip
        obtain ⟨rfl, rfl⟩ := Prod.mk.inj (Option.some.inj h)
        exact ⟨_, hpadded, by rw [hmore, hskip]; simp⟩
      · rename_i after hskip
        obtain ⟨⟨others, _⟩, hothers, h⟩ := Option.map_eq_some_iff.mp h
        obtain ⟨rfl, rfl⟩ := Prod.mk.inj h
        obtain ⟨text, htext, rfl⟩ := spelledBy_of_scanItems hothers
        cases others with
        | nil => exact absurd hothers (scanItems_ne_nil _ _ _)
        | cons next others =>
          exact ⟨_, ⟨_, text, hpadded, htext, rfl⟩, by rw [hmore, hskip]; simp⟩
      · cases h

/-- **What is read as members spells them**, up to the closing brace. -/
theorem spelledBy_of_scanMembers : ∀ {fuel : Nat} {cs rest : List Char}
    {members : List (List Unit16 × Raw)}, scanMembers fuel cs = some (members, rest) →
      ∃ inner, MembersSpelledBy members inner ∧ cs = inner ++ '\x7d' :: rest
  | 0, _, _, _, h => by
    rw [scanMembers] at h
    cases h
  | fuel + 1, cs, rest, members, h => by
    rw [scanMembers] at h
    split at h
    · cases h
    · rename_i key colon hkey
      obtain ⟨name, hname, rfl⟩ := of_scanKey hkey
      split at h
      · cases h
      · rename_i value more hvalue
        obtain ⟨front, inner, hfront, hinner, rfl⟩ := spelledBy_of_scan hvalue
        obtain ⟨back, hback, hmore⟩ := exists_blank more
        have hpadded : Padded value.SpelledBy (front ++ (inner ++ back)) :=
          ⟨front, inner, back, hfront, hinner, hback, rfl⟩
        split at h
        · rename_i after hskip
          obtain ⟨rfl, rfl⟩ := Prod.mk.inj (Option.some.inj h)
          exact ⟨_, ⟨name, _, hname, hpadded, rfl⟩, by rw [hmore, hskip]; simp⟩
        · rename_i after hskip
          obtain ⟨⟨others, _⟩, hothers, h⟩ := Option.map_eq_some_iff.mp h
          obtain ⟨rfl, rfl⟩ := Prod.mk.inj h
          obtain ⟨text, htext, rfl⟩ := spelledBy_of_scanMembers hothers
          cases others with
          | nil => exact absurd hothers (scanMembers_ne_nil _ _ _)
          | cons next others =>
            exact ⟨_, ⟨name, _, text, hname, hpadded, htext, rfl⟩, by rw [hmore, hskip]; simp⟩
        · cases h

end

/-- **A text is read if and only if it spells the value**, with blanks around it. -/
theorem parse?_eq_some_iff {cs : List Char} {value : Raw} :
    parse? cs = some value ↔ Padded value.SpelledBy cs := by
  refine ⟨fun h => ?_, parse?_spelled⟩
  unfold parse? at h
  split at h
  · rename_i found rest hscan
    split at h
    · rename_i hend
      obtain rfl := Option.some.inj h
      obtain ⟨front, inner, hfront, hinner, rfl⟩ := spelledBy_of_scan hscan
      obtain ⟨back, hback, hrest⟩ := exists_blank rest
      rw [List.isEmpty_iff.mp hend, List.append_nil] at hrest
      exact ⟨front, inner, back, hfront, hinner, hback, by rw [hrest]⟩
    · cases h
  · cases h

end Raw

end InlineRepl.Json
