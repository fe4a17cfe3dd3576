import InlineRepl.Json.Raw
import InlineRepl.Proofs.Json.Numeral
import InlineRepl.Proofs.Json.Quoted
import Mathlib.Data.List.DropRight

/-!
# The grammar of JSON text

`Raw.SpelledBy` says which texts spell a value, whatever reads them: blanks may stand around every
token, a string may escape any of its characters, and a number keeps its digits. Reading finds the
value of every text of the grammar. A number ends where nothing follows that it could go on with, so
the reading at the front of a longer text asks for `Numeral.EndsNumber`; a separator, a closing
bracket and the end of the text all are such an end, and so are blanks in front of them.

Results:
* `scan_spelled`, `scanItems_spelled`, `scanMembers_spelled`: reading at the front of a longer text.
* `parse?_spelled`: reading a text that spells a value, with blanks around it.
-/

namespace InlineRepl.Json

/-! ## Blanks -/

/-- Blanks alone. -/
def IsBlank (cs : List Char) : Prop :=
  ∀ c ∈ cs, Raw.isSpace c = true

/-- A text of the given form with blanks around it. -/
def Padded (form : List Char → Prop) (cs : List Char) : Prop :=
  ∃ front inner back, IsBlank front ∧ form inner ∧ IsBlank back ∧ cs = front ++ (inner ++ back)

theorem isBlank_nil : IsBlank [] :=
  fun _ hc => absurd hc List.not_mem_nil

theorem padded_self {form : List Char → Prop} {cs : List Char} (h : form cs) : Padded form cs :=
  ⟨[], cs, [], isBlank_nil, h, isBlank_nil, (List.append_nil cs).symm⟩

namespace Raw

/-! ## The grammar -/

mutual

/-- The text spells the value. -/
def SpelledBy : Raw → List Char → Prop
  | .null, cs => cs = ['n', 'u', 'l', 'l']
  | .bool true, cs => cs = ['t', 'r', 'u', 'e']
  | .bool false, cs => cs = ['f', 'a', 'l', 's', 'e']
  | .number n, cs => n.SpelledBy cs
  | .string units, cs => QuotedBy units cs
  | .array items, cs => ∃ inner, ItemsSpelledBy items inner ∧ cs = '[' :: (inner ++ [']'])
  | .object members, cs =>
    ∃ inner, MembersSpelledBy members inner ∧ cs = '\x7b' :: (inner ++ ['\x7d'])

/-- The text spells the items of an array, with commas between them. -/
def ItemsSpelledBy : List Raw → List Char → Prop
  | [], cs => IsBlank cs
  | [item], cs => Padded (SpelledBy item) cs
  | item :: next :: items, cs =>
    ∃ first rest, Padded (SpelledBy item) first ∧ ItemsSpelledBy (next :: items) rest ∧
      cs = first ++ ',' :: rest

/-- The text spells the members of an object, with commas between them. -/
def MembersSpelledBy : List (List Unit16 × Raw) → List Char → Prop
  | [], cs => IsBlank cs
  | [(key, value)], cs =>
    ∃ name text, Padded (QuotedBy key) name ∧ Padded (SpelledBy value) text ∧
      cs = name ++ ':' :: text
  | (key, value) :: next :: members, cs =>
    ∃ name text rest, Padded (QuotedBy key) name ∧ Padded (SpelledBy value) text ∧
      MembersSpelledBy (next :: members) rest ∧ cs = name ++ ':' :: (text ++ ',' :: rest)

end

/-- Members can be put behind others. -/
theorem MembersSpelledBy.append : ∀ {members more : List (List Unit16 × Raw)} {cs ds : List Char},
    members ≠ [] → more ≠ [] → MembersSpelledBy members cs → MembersSpelledBy more ds →
      MembersSpelledBy (members ++ more) (cs ++ ',' :: ds)
  | [], _, _, _, hne, _, _, _ => absurd rfl hne
  | [(key, value)], next :: more, _, ds, _, _, h, hmore => by
    obtain ⟨name, text, hname, htext, rfl⟩ := h
    exact ⟨name, text, ds, hname, htext, hmore, by simp⟩
  | (key, value) :: next :: members, more, _, ds, _, hne, h, hmore => by
    obtain ⟨name, text, rest, hname, htext, hrest, rfl⟩ := h
    exact ⟨name, text, rest ++ ',' :: ds, hname, htext,
      MembersSpelledBy.append (by simp) hne hrest hmore, by simp⟩

/-! ## Blanks and heads -/

variable {fuel : Nat} {c : Char} {cs rest more front back : List Char} {item value : Raw}
  {key : List Unit16}

theorem skip_cons (h : isSpace c = false) (cs : List Char) : skip (c :: cs) = c :: cs := by
  unfold skip
  rw [List.dropWhile_cons_of_neg (by simp [h])]

theorem skip_blank (h : IsBlank front) (cs : List Char) : skip (front ++ cs) = skip cs :=
  List.dropWhile_append_of_pos h

theorem skip_skip (cs : List Char) : skip (skip cs) = skip cs :=
  List.dropWhile_idempotent isSpace cs

theorem scan_skip (h : skip cs = skip more) : scan fuel cs = scan fuel more := by
  cases fuel with
  | zero => rw [scan, scan]
  | succ fuel => rw [scan, scan, h]

theorem scanItems_skip (h : skip cs = skip more) : scanItems fuel cs = scanItems fuel more := by
  cases fuel with
  | zero => rw [scanItems, scanItems]
  | succ fuel => rw [scanItems, scanItems, scan_skip h]

theorem scanMembers_skip (h : skip cs = skip more) :
    scanMembers fuel cs = scanMembers fuel more := by
  have hkey : scanKey cs = scanKey more := by
    unfold scanKey
    rw [h]
  cases fuel with
  | zero => rw [scanMembers, scanMembers]
  | succ fuel => rw [scanMembers, scanMembers, hkey]

/-- What follows a value does not go on with a number: a separator or the end, behind blanks. -/
theorem endsNumber_blank (hback : IsBlank back) (h : Numeral.EndsNumber rest) :
    Numeral.EndsNumber (back ++ rest) := by
  cases back with
  | nil => exact h
  | cons b back =>
    have hb := hback b List.mem_cons_self
    simp only [isSpace, Bool.or_eq_true, beq_iff_eq] at hb
    rcases hb with ((rfl | rfl) | rfl) | rfl <;>
      exact Numeral.endsNumber_cons (by decide) (by decide) (by decide) (by decide)

theorem endsNumber_separator (h : c = ',' ∨ c = ']' ∨ c = '\x7d') (cs : List Char) :
    Numeral.EndsNumber (c :: cs) := by
  rcases h with rfl | rfl | rfl <;>
    exact Numeral.endsNumber_cons (by decide) (by decide) (by decide) (by decide)

theorem isSpace_digit (hd : Numeral.isDigit c = true) : isSpace c = false := by
  cases hs : isSpace c with
  | false => rfl
  | true =>
    simp only [isSpace, Bool.or_eq_true, beq_iff_eq] at hs
    rcases hs with ((rfl | rfl) | rfl) | rfl <;> exact absurd hd (by decide)

/-- A number begins with its sign or with a digit. -/
theorem number_head {n : Numeral} (h : n.SpelledBy cs) :
    ∃ c more, cs = c :: more ∧ (c = '-' ∨ Numeral.isDigit c = true) := by
  obtain ⟨hwhole, fraction, exponent, -, -, rfl⟩ := h
  obtain ⟨hne, hd⟩ := hwhole.isDigits
  cases n.negative with
  | true => exact ⟨'-', _, rfl, .inl rfl⟩
  | false =>
    cases hn : n.whole with
    | nil => exact absurd hn hne
    | cons d ds => exact ⟨d, _, rfl, .inr (hd d (by rw [hn]; exact List.mem_cons_self))⟩

/-- The first character of a value is neither blank nor a closing bracket. -/
theorem spelled_head (h : item.SpelledBy cs) :
    ∃ c more, cs = c :: more ∧ isSpace c = false ∧ c ≠ ']' := by
  cases item with
  | null =>
    obtain rfl := h
    exact ⟨_, _, rfl, by decide, by decide⟩
  | bool b =>
    cases b <;> obtain rfl := h <;> exact ⟨_, _, rfl, by decide, by decide⟩
  | number n =>
    obtain ⟨c, more, rfl, rfl | hd⟩ := number_head h
    · exact ⟨_, _, rfl, by decide, by decide⟩
    · refine ⟨c, more, rfl, isSpace_digit hd, ?_⟩
      rintro rfl
      exact absurd hd (by decide)
  | string units =>
    obtain ⟨inner, -, rfl⟩ := h
    exact ⟨_, _, rfl, by decide, by decide⟩
  | array items =>
    obtain ⟨inner, -, rfl⟩ := h
    exact ⟨_, _, rfl, by decide, by decide⟩
  | object members =>
    obtain ⟨inner, -, rfl⟩ := h
    exact ⟨_, _, rfl, by decide, by decide⟩

/-- The first item of an array does not begin with the closing bracket. -/
theorem items_head {items : List Raw} (h : ItemsSpelledBy (item :: items) cs)
    (rest more : List Char) : skip (cs ++ rest) ≠ ']' :: more := by
  have hpadded : ∃ first after, Padded item.SpelledBy first ∧ cs = first ++ after := by
    cases items with
    | nil => exact ⟨cs, [], h, (List.append_nil _).symm⟩
    | cons next items =>
      obtain ⟨first, after, hfirst, -, rfl⟩ := h
      exact ⟨first, _, hfirst, rfl⟩
  obtain ⟨first, after, ⟨front, inner, back, hfront, hinner, -, rfl⟩, rfl⟩ := hpadded
  obtain ⟨c, tail, rfl, hs, hne⟩ := spelled_head hinner
  simp only [List.append_assoc, List.cons_append]
  rw [skip_blank hfront, skip_cons hs]
  exact fun he => hne (List.cons.inj he).1

/-- The first member of an object begins with the quote of its key. -/
theorem members_head {members : List (List Unit16 × Raw)}
    (h : MembersSpelledBy ((key, value) :: members) cs) (rest more : List Char) :
    skip (cs ++ rest) ≠ '\x7d' :: more := by
  have hpadded : ∃ name after, Padded (QuotedBy key) name ∧ cs = name ++ after := by
    cases members with
    | nil =>
      obtain ⟨name, text, hname, -, rfl⟩ := h
      exact ⟨name, _, hname, rfl⟩
    | cons next members =>
      obtain ⟨name, text, after, hname, -, -, rfl⟩ := h
      exact ⟨name, _, hname, rfl⟩
  obtain ⟨name, after, ⟨front, inner, back, hfront, ⟨units, -, rfl⟩, -, rfl⟩, rfl⟩ := hpadded
  simp only [List.append_assoc, List.cons_append]
  rw [skip_blank hfront, skip_cons (by decide)]
  exact fun he => absurd (List.cons.inj he).1 (by decide)

/-! ## One step of the reading -/

theorem scan_number (h : c = '-' ∨ Numeral.isDigit c = true) (fuel : Nat) (cs : List Char) :
    scan (fuel + 1) (c :: cs) =
      (Numeral.scan (c :: cs)).map fun scanned => (.number scanned.1, scanned.2) := by
  have hspace : isSpace c = false := by
    rcases h with rfl | hd
    · decide
    · exact isSpace_digit hd
  rw [scan, skip_cons hspace]
  split
  case h_7 => rfl
  -- Every other head is neither a sign nor a digit.
  all_goals
    rename_i heq
    obtain ⟨rfl, -⟩ := List.cons.inj heq
    exact absurd h (by decide)

theorem scan_bracket (fuel : Nat) (cs : List Char) :
    scan (fuel + 1) ('[' :: cs) =
      match skip cs with
      | ']' :: rest => some (.array [], rest)
      | rest => (scanItems fuel rest).map fun scanned => (.array scanned.1, scanned.2) := by
  rw [scan, skip_cons (by decide)]
  rfl

theorem scan_items (h : ∀ more, skip cs ≠ ']' :: more) (fuel : Nat) :
    scan (fuel + 1) ('[' :: cs) =
      (scanItems fuel cs).map fun scanned => (.array scanned.1, scanned.2) := by
  rw [scan_bracket, ← scanItems_skip (skip_skip cs)]
  split
  · rename_i heq
    exact absurd heq (h _)
  · rfl

theorem scan_brace (fuel : Nat) (cs : List Char) :
    scan (fuel + 1) ('\x7b' :: cs) =
      match skip cs with
      | '\x7d' :: rest => some (.object [], rest)
      | rest => (scanMembers fuel rest).map fun scanned => (.object scanned.1, scanned.2) := by
  rw [scan, skip_cons (by decide)]
  rfl

theorem scan_members (h : ∀ more, skip cs ≠ '\x7d' :: more) (fuel : Nat) :
    scan (fuel + 1) ('\x7b' :: cs) =
      (scanMembers fuel cs).map fun scanned => (.object scanned.1, scanned.2) := by
  rw [scan_brace, ← scanMembers_skip (skip_skip cs)]
  split
  · rename_i heq
    exact absurd heq (h _)
  · rfl

theorem scanItems_last (h : scan fuel cs = some (item, more)) (hm : skip more = ']' :: rest) :
    scanItems (fuel + 1) cs = some ([item], rest) := by
  rw [scanItems, h]
  dsimp only
  rw [hm]
  rfl

theorem scanItems_more (h : scan fuel cs = some (item, more)) (hm : skip more = ',' :: rest) :
    scanItems (fuel + 1) cs =
      (scanItems fuel rest).map fun scanned => (item :: scanned.1, scanned.2) := by
  rw [scanItems, h]
  dsimp only
  rw [hm]
  rfl

section Members

variable {colon : List Char}

theorem scanMembers_last (hk : scanKey cs = some (key, colon))
    (h : scan fuel colon = some (value, more)) (hm : skip more = '\x7d' :: rest) :
    scanMembers (fuel + 1) cs = some ([(key, value)], rest) := by
  rw [scanMembers, hk]
  dsimp only
  rw [h]
  dsimp only
  rw [hm]
  rfl

theorem scanMembers_more (hk : scanKey cs = some (key, colon))
    (h : scan fuel colon = some (value, more)) (hm : skip more = ',' :: rest) :
    scanMembers (fuel + 1) cs =
      (scanMembers fuel rest).map fun scanned => ((key, value) :: scanned.1, scanned.2) := by
  rw [scanMembers, hk]
  dsimp only
  rw [h]
  dsimp only
  rw [hm]
  rfl

end Members

/-- A key is read as it is spelled, up to its colon. -/
theorem scanKey_spelled (h : Padded (QuotedBy key) cs) (rest : List Char) :
    scanKey (cs ++ ':' :: rest) = some (key, rest) := by
  obtain ⟨front, inner, back, hfront, ⟨units, hunits, rfl⟩, hback, rfl⟩ := h
  unfold scanKey
  simp only [List.append_assoc, List.cons_append, List.nil_append]
  rw [skip_blank hfront, skip_cons (by decide)]
  simp only [scanQuoted_spelled _ hunits, skip_blank hback,
    skip_cons (show isSpace ':' = false by decide)]

/-! ## Values -/

/-- If a value is read as it is spelled, then it is with blanks around it, too. -/
theorem scan_padded (h : Padded item.SpelledBy cs) (hr : Numeral.EndsNumber rest)
    (hscan : ∀ {inner after : List Char}, item.SpelledBy inner → inner.length ≤ cs.length →
      Numeral.EndsNumber after → scan fuel (inner ++ after) = some (item, after)) :
    ∃ back, IsBlank back ∧ scan fuel (cs ++ rest) = some (item, back ++ rest) := by
  obtain ⟨front, inner, back, hfront, hinner, hback, rfl⟩ := h
  refine ⟨back, hback, ?_⟩
  rw [List.append_assoc, List.append_assoc, scan_skip (skip_blank hfront _)]
  refine hscan hinner ?_ (endsNumber_blank hback hr)
  simp only [List.length_append]
  omega

mutual

/-- **A value is read as it is spelled**, up to what follows it. -/
theorem scan_spelled : ∀ (r : Raw) (fuel : Nat) {cs rest : List Char}, r.SpelledBy cs →
    cs.length < fuel → Numeral.EndsNumber rest → scan fuel (cs ++ rest) = some (r, rest)
  | .null, fuel + 1, _, rest, h, _, _ => by
    obtain rfl := h
    show scan (fuel + 1) ('n' :: 'u' :: 'l' :: 'l' :: rest) = _
    rw [scan, skip_cons (by decide)]
    rfl
  | .bool true, fuel + 1, _, rest, h, _, _ => by
    obtain rfl := h
    show scan (fuel + 1) ('t' :: 'r' :: 'u' :: 'e' :: rest) = _
    rw [scan, skip_cons (by decide)]
    rfl
  | .bool false, fuel + 1, _, rest, h, _, _ => by
    obtain rfl := h
    show scan (fuel + 1) ('f' :: 'a' :: 'l' :: 's' :: 'e' :: rest) = _
    rw [scan, skip_cons (by decide)]
    rfl
  | .number n, fuel + 1, cs, rest, h, _, hr => by
    have hnumber := Numeral.scan_spelled h hr
    obtain ⟨c, more, rfl, hc⟩ := number_head h
    rw [List.cons_append] at hnumber ⊢
    rw [scan_number hc, hnumber]
    rfl
  | .string units, fuel + 1, _, rest, h, _, _ => by
    obtain ⟨inner, hinner, rfl⟩ := h
    rw [List.cons_append, List.append_assoc, scan, skip_cons (by decide)]
    simp only [List.singleton_append, scanQuoted_spelled rest hinner]
    rfl
  | .array [], fuel + 1, _, rest, h, _, _ => by
    obtain ⟨inner, hinner, rfl⟩ := h
    rw [List.cons_append, List.append_assoc, scan_bracket, skip_blank hinner,
      List.singleton_append, skip_cons (by decide)]
    rfl
  | .array (item :: items), fuel + 1, _, rest, h, hf, _ => by
    obtain ⟨inner, hinner, rfl⟩ := h
    have hlen : inner.length + 1 < fuel := by
      simp only [List.length_cons, List.length_append, List.length_nil] at hf
      omega
    rw [List.cons_append, List.append_assoc, scan_items (items_head hinner _),
      List.singleton_append, scanItems_spelled (item :: items) fuel (by simp) hinner hlen rest]
    rfl
  | .object [], fuel + 1, _, rest, h, _, _ => by
    obtain ⟨inner, hinner, rfl⟩ := h
    rw [List.cons_append, List.append_assoc, scan_brace, skip_blank hinner,
      List.singleton_append, skip_cons (by decide)]
    rfl
  | .object ((key, value) :: members), fuel + 1, _, rest, h, hf, _ => by
    obtain ⟨inner, hinner, rfl⟩ := h
    have hlen : inner.length + 1 < fuel := by
      simp only [List.length_cons, List.length_append, List.length_nil] at hf
      omega
    rw [List.cons_append, List.append_assoc, scan_members (members_head hinner _),
      List.singleton_append,
      scanMembers_spelled ((key, value) :: members) fuel (by simp) hinner hlen rest]
    rfl

/-- **The items of an array are read as they are spelled**, up to the closing bracket. -/
theorem scanItems_spelled : ∀ (items : List Raw) (fuel : Nat) {cs : List Char}, items ≠ [] →
    ItemsSpelledBy items cs → cs.length + 1 < fuel → ∀ rest,
      scanItems fuel (cs ++ ']' :: rest) = some (items, rest)
  | [], _, _, hne, _, _, _ => absurd rfl hne
  | [item], fuel + 1, cs, _, h, hf, rest => by
    obtain ⟨back, hback, hitem⟩ := scan_padded h
      (endsNumber_separator (c := ']') (by simp) rest)
      fun hinner hlen => scan_spelled item fuel hinner (by omega)
    exact scanItems_last hitem ((skip_blank hback _).trans (skip_cons (by decide) _))
  | item :: next :: items, fuel + 1, _, _, h, hf, rest => by
    obtain ⟨first, others, hfirst, hothers, rfl⟩ := h
    simp only [List.length_append, List.length_cons] at hf
    obtain ⟨back, hback, hitem⟩ := scan_padded hfirst
      (endsNumber_separator (c := ',') (by simp) (others ++ ']' :: rest))
      fun hinner hlen => scan_spelled item fuel hinner (by omega)
    have hmore := scanItems_spelled (next :: items) fuel (by simp) hothers (by omega) rest
    rw [List.append_assoc, List.cons_append,
      scanItems_more hitem ((skip_blank hback _).trans (skip_cons (by decide) _)), hmore]
    rfl

/-- **The members of an object are read as they are spelled**, up to the closing brace. -/
theorem scanMembers_spelled : ∀ (members : List (List Unit16 × Raw)) (fuel : Nat)
    {cs : List Char}, members ≠ [] → MembersSpelledBy members cs → cs.length + 1 < fuel → ∀ rest,
      scanMembers fuel (cs ++ '\x7d' :: rest) = some (members, rest)
  | [], _, _, hne, _, _, _ => absurd rfl hne
  | [(key, value)], fuel + 1, _, _, h, hf, rest => by
    obtain ⟨name, text, hname, htext, rfl⟩ := h
    simp only [List.length_append, List.length_cons] at hf
    obtain ⟨back, hback, hvalue⟩ := scan_padded htext
      (endsNumber_separator (c := '\x7d') (by simp) rest)
      fun hinner hlen => scan_spelled value fuel hinner (by omega)
    rw [List.append_assoc, List.cons_append]
    exact scanMembers_last (scanKey_spelled hname _) hvalue
      ((skip_blank hback _).trans (skip_cons (by decide) _))
  | (key, value) :: next :: members, fuel + 1, _, _, h, hf, rest => by
    obtain ⟨name, text, others, hname, htext, hothers, rfl⟩ := h
    simp only [List.length_append, List.length_cons] at hf
    obtain ⟨back, hback, hvalue⟩ := scan_padded htext
      (endsNumber_separator (c := ',') (by simp) (others ++ '\x7d' :: rest))
      fun hinner hlen => scan_spelled value fuel hinner (by omega)
    have hmore := scanMembers_spelled (next :: members) fuel (by simp) hothers (by omega) rest
    rw [List.append_assoc, List.cons_append, List.append_assoc, List.cons_append,
      scanMembers_more (scanKey_spelled hname _) hvalue
        ((skip_blank hback _).trans (skip_cons (by decide) _)), hmore]
    rfl

end

/-- **A text is read as the value that it spells**, with blanks around it. -/
theorem parse?_spelled (h : Padded value.SpelledBy cs) : parse? cs = some value := by
  obtain ⟨back, hback, hvalue⟩ := scan_padded h Numeral.endsNumber_nil
    fun hinner hlen => scan_spelled value (cs.length + 1) hinner (by omega)
  have hend : skip (back ++ []) = [] := skip_blank hback []
  rw [List.append_nil] at hvalue
  unfold parse?
  rw [hvalue]
  dsimp only
  rw [hend]
  rfl

end Raw

end InlineRepl.Json
