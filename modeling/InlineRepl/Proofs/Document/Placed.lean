import InlineRepl.Proofs.Document.Watches
import InlineRepl.Proofs.Document.Wrapping
import InlineRepl.Proofs.Text.Joined

/-!
# Watched text keeps every line in its place

`walk` goes through a span line by line. Where the next watch begins it hands out the block of the
watch and goes on behind it, and any other line it takes as it stands. It has no result if a line
that it asks for does not exist, or if a line number does not fit 32 bits. For the watches of an
edited document this never happens, and what the walk gives are the strands of which watched text is
made, whatever wraps the blocks.

A wrapper that keeps the number of line feeds of a block keeps the number of its lines. Every strand
then takes up as many lines as it has in the document, so every line has its place.

Results:
* `walk_eq_strands`: the walk does not fail, and gives the strands.
* `weave_eq`, `handed_strands`: watched text and what is handed to the wrapper, from the strands.
* `length_pieces`, `getElem?_pieces`, `take_drop_pieces`: the lines of the strands, by their places.
* `pieces_unwrapped`: the strands with nothing around the blocks.
* `watched_lines_stay_in_place`: the text of a span in an edited document.
-/

namespace InlineRepl

/-- A part of watched text: a line as it stands, or a block that is handed to the wrapper. -/
inductive Strand where
  | line (text : String)
  | block (tag : WatchTag) (source : String)
  deriving Repr, DecidableEq

namespace Strand

/-- The text of a strand. -/
def render (wrap : WatchTag → String → String) : Strand → String
  | .line text => text
  | .block tag source => wrap tag source

/-- What is handed to the wrapper for a strand. -/
def handed? : Strand → Option (WatchTag × String)
  | .line _ => none
  | .block tag source => some (tag, source)

/-- The lines that a strand takes up. -/
def pieces (wrap : WatchTag → String → String) (strand : Strand) : List (List Char) :=
  Text.split '\n' (strand.render wrap).toList

end Strand

/-- A wrapper keeps the number of line feeds of a block. -/
def KeepsLines (wrap : WatchTag → String → String) : Prop :=
  ∀ tag source, (wrap tag source).toList.count '\n' = source.toList.count '\n'

/-- The calls of the bridge keep the lines of a block. -/
theorem keepsLines_wrap : KeepsLines WatchTag.wrap :=
  WatchTag.count_lineFeed_wrap

namespace Document

variable {doc : Document} {wrap : WatchTag → String → String} {ws : List Watch} {w : Watch}
  {line stop last : Nat}

/-! ## Lines -/

theorem linesBetween_self (doc : Document) (line : Nat) : doc.linesBetween line line = [] := by
  unfold linesBetween
  rw [List.drop_eq_nil_iff]
  exact List.length_take_le _ _

theorem length_linesBetween (h : stop ≤ doc.lines.length) (line : Nat) :
    (doc.linesBetween line stop).length = stop - line := by
  unfold linesBetween
  rw [List.length_drop, List.length_take, Nat.min_eq_left h]

theorem length_rows (h : stop ≤ doc.lines.length) (line : Nat) :
    ((doc.linesBetween line stop).map String.toList).length = stop - line := by
  rw [List.length_map, length_linesBetween h]

theorem getElem?_linesBetween {i : Nat} (h : line + i < stop) :
    (doc.linesBetween line stop)[i]? = doc.lines[line + i]? := by
  unfold linesBetween
  rw [List.getElem?_drop, List.getElem?_take_of_lt h]

theorem linesBetween_cons {text : String} (h : doc.lines[line]? = some text) (hl : line < stop) :
    doc.linesBetween line stop = text :: doc.linesBetween (line + 1) stop := by
  obtain ⟨hlt, rfl⟩ := List.getElem?_eq_some_iff.mp h
  have hlen : line < (doc.lines.take stop).length := by
    rw [List.length_take]
    omega
  unfold linesBetween
  rw [List.drop_eq_getElem_cons hlen, List.getElem_take]

theorem linesBetween_append {middle : Nat} (h1 : line ≤ middle) (h2 : middle ≤ stop) :
    doc.linesBetween line middle ++ doc.linesBetween middle stop = doc.linesBetween line stop := by
  obtain ⟨n, rfl⟩ := Nat.exists_eq_add_of_le h1
  unfold linesBetween
  rw [← List.take_append_drop n ((doc.lines.take stop).drop line), List.drop_drop,
    List.take_drop, List.take_take, Nat.min_eq_left h2]

/-! ## Watches that fit -/

/-- The watches lie on the lines `line`, …, `last`, in their order. -/
def Fits (last : Nat) : Nat → List Watch → Prop
  | line, [] => line ≤ last + 1
  | line, w :: ws =>
    line ≤ w.range.start.toNat ∧ w.range.start.toNat ≤ w.range.stop.toNat ∧
      w.range.stop.toNat ≤ last ∧ Fits last (w.range.stop.toNat + 1) ws

theorem fits_of_pairwise : ∀ {ws : List Watch} {line : Nat}, line ≤ last + 1 →
    ws.Pairwise Watch.Above → (∀ w ∈ ws, w.Upright) →
    (∀ w ∈ ws, line ≤ w.range.start.toNat ∧ w.range.stop.toNat ≤ last) → Fits last line ws
  | [], _, hl, _, _, _ => hl
  | w :: ws, _, _, hp, hup, hin => by
    obtain ⟨hw, hp⟩ := List.pairwise_cons.mp hp
    obtain ⟨hstart, hstop⟩ := hin w List.mem_cons_self
    refine ⟨hstart, hup w List.mem_cons_self, hstop, fits_of_pairwise (Nat.succ_le_succ hstop) hp
      (fun v hv => hup v (List.mem_cons_of_mem _ hv)) fun v hv => ⟨hw v hv, ?_⟩⟩
    exact (hin v (List.mem_cons_of_mem _ hv)).2

theorem Fits.le : ∀ {ws : List Watch} {line : Nat}, Fits last line ws → line ≤ last + 1
  | [], _, h => h
  | _ :: _, _, ⟨h1, h2, h3, _⟩ => by omega

theorem Fits.of_mem : ∀ {ws : List Watch} {line : Nat}, Fits last line ws → w ∈ ws →
    line ≤ w.range.start.toNat ∧ w.range.start.toNat ≤ w.range.stop.toNat ∧
      w.range.stop.toNat ≤ last
  | v :: ws, line, ⟨h1, h2, h3, h⟩, hw => by
    rcases List.mem_cons.mp hw with rfl | hw
    · exact ⟨h1, h2, h3⟩
    · obtain ⟨g1, g2, g3⟩ := h.of_mem hw
      exact ⟨by omega, g2, g3⟩

/-! ## The walk -/

/-- The watch that begins on a line, and the watches after it, if it is the next one. -/
def starting? (line : Nat) : List Watch → Option (Watch × List Watch)
  | [] => none
  | w :: ws => if w.range.start.toNat = line then some (w, ws) else none

theorem length_starting? {rest : List Watch} (h : starting? line ws = some (w, rest)) :
    rest.length < ws.length := by
  unfold starting? at h
  split at h
  · cases h
  · split at h
    · obtain ⟨-, rfl⟩ := Prod.mk.inj (Option.some.inj h)
      exact Nat.lt_succ_self _
    · cases h

/-- Goes through the lines `line`, …, `last` and the watches that are still to come. -/
def walk (doc : Document) (last line : Nat) (ws : List Watch) : Option (List Strand) :=
  if last < line then some []
  else
    match _h : starting? line ws with
    | some (w, rest) =>
      if w.range.stop.toNat + 1 < 2 ^ 32 then
        (walk doc last (w.range.stop.toNat + 1) rest).map
          (.block (WatchTag.ofWatch doc.id w) (doc.textOf w.range) :: ·)
      else none
    | none =>
      match doc.lines[line]? with
      | some text =>
        if line + 1 < 2 ^ 32 then (walk doc last (line + 1) ws).map (.line text :: ·) else none
      | none => none
termination_by (ws.length, last + 1 - line)
decreasing_by
  · exact Prod.Lex.left _ _ (length_starting? _h)
  · exact Prod.Lex.right _ (by omega)

/-- The strands of the lines `line`, …, `stop - 1`. -/
def strands (doc : Document) (stop : Nat) : Nat → List Watch → List Strand
  | line, [] => (doc.linesBetween line stop).map .line
  | line, w :: ws =>
    (doc.linesBetween line w.range.start.toNat).map .line ++
      .block (WatchTag.ofWatch doc.id w) (doc.textOf w.range) ::
        strands doc stop (w.range.stop.toNat + 1) ws

theorem walk_end (h : last < line) : doc.walk last line ws = some [] := by
  rw [walk, if_pos h]

theorem walk_block (hl : w.range.start.toNat ≤ last) (hstop : w.range.stop.toNat + 1 < 2 ^ 32) :
    doc.walk last w.range.start.toNat (w :: ws) =
      (doc.walk last (w.range.stop.toNat + 1) ws).map
        (.block (WatchTag.ofWatch doc.id w) (doc.textOf w.range) :: ·) := by
  have hs : starting? w.range.start.toNat (w :: ws) = some (w, ws) := if_pos rfl
  rw [walk, if_neg (Nat.not_lt.mpr hl)]
  split
  · rename_i hsome
    rw [hs] at hsome
    obtain ⟨rfl, rfl⟩ := Prod.mk.inj (Option.some.inj hsome)
    rw [if_pos hstop]
  · rename_i hnone
    rw [hs] at hnone
    cases hnone

theorem walk_line {text : String} (hl : line ≤ last) (hs : starting? line ws = none)
    (htext : doc.lines[line]? = some text) (hsize : line + 1 < 2 ^ 32) :
    doc.walk last line ws = (doc.walk last (line + 1) ws).map (.line text :: ·) := by
  rw [walk, if_neg (Nat.not_lt.mpr hl)]
  split
  · rename_i hsome
    rw [hs] at hsome
    cases hsome
  · rw [htext]
    dsimp only
    rw [if_pos hsize]

/-- Up to the next watch every line is taken as it stands. -/
theorem walk_lines {target : Nat} (hlast : last < doc.lines.length)
    (hsize : last + 1 < 2 ^ 32) (hl : line ≤ target) (ht : target ≤ last + 1)
    (hs : ∀ w ∈ ws.head?, target ≤ w.range.start.toNat) :
    doc.walk last line ws =
      (doc.walk last target ws).map ((doc.linesBetween line target).map .line ++ ·) := by
  -- on the number of lines up to the target: the walk takes them one by one
  induction hn : target - line generalizing line with
  | zero =>
    obtain rfl : line = target := by omega
    rw [linesBetween_self]
    exact Option.map_id'.symm
  | succ n ih =>
    have hlt : line < doc.lines.length := by omega
    have hnone : starting? line ws = none := by
      cases ws with
      | nil => rfl
      | cons w ws =>
        have := hs w rfl
        exact if_neg (by omega)
    have htext := List.getElem?_eq_getElem hlt
    rw [walk_line (by omega) hnone htext (by omega), ih (by omega) (by omega), Option.map_map,
      linesBetween_cons htext (by omega)]
    rfl

/-- **The walk does not fail, and gives the strands.** -/
theorem walk_eq_strands (hlast : last < doc.lines.length) (hsize : last + 1 < 2 ^ 32) :
    ∀ {ws : List Watch} {line : Nat}, Fits last line ws →
      doc.walk last line ws = some (doc.strands (last + 1) line ws)
  | [], line, h => by
    have hnext : ∀ v ∈ ([] : List Watch).head?, last + 1 ≤ v.range.start.toNat :=
      fun v hv => absurd hv (Option.not_mem_none v)
    rw [walk_lines hlast hsize h (Nat.le_refl _) hnext, walk_end (Nat.lt_succ_self _)]
    exact congrArg some (List.append_nil _)
  | w :: ws, line, ⟨hstart, hup, hstop, h⟩ => by
    have hnext : ∀ v ∈ (w :: ws).head?, w.range.start.toNat ≤ v.range.start.toNat := by
      rintro v ⟨⟩
      exact Nat.le_refl _
    rw [walk_lines hlast hsize hstart (by omega) hnext, walk_block (by omega) (by omega),
      walk_eq_strands hlast hsize h]
    rfl

/-- Watched text is woven of the strands, whatever wraps the blocks. -/
theorem weave_eq (wrap : WatchTag → String → String) (stop : Nat) :
    ∀ (ws : List Watch) (line : Nat),
      doc.weave wrap stop line ws = (doc.strands stop line ws).map (Strand.render wrap)
  | [], line => by
    unfold weave strands
    rw [List.map_map]
    exact (List.map_id _).symm
  | w :: ws, line => by
    unfold weave strands
    rw [List.map_append, List.map_cons, List.map_map, weave_eq wrap stop ws]
    exact congrArg (· ++ _) (List.map_id _).symm

/-- What is handed to the wrapper is each watch in turn. -/
theorem handed_strands (stop : Nat) : ∀ (ws : List Watch) (line : Nat),
    (doc.strands stop line ws).filterMap Strand.handed? =
      ws.map fun w => (WatchTag.ofWatch doc.id w, doc.textOf w.range)
  | [], line => by
    unfold strands
    rw [List.filterMap_map]
    exact List.filterMap_eq_nil_iff.mpr fun _ _ => rfl
  | w :: ws, line => by
    have hlines : ((doc.linesBetween line w.range.start.toNat).map Strand.line).filterMap
        Strand.handed? = [] := by
      rw [List.filterMap_map]
      exact List.filterMap_eq_nil_iff.mpr fun _ _ => rfl
    unfold strands
    rw [List.filterMap_append, hlines, List.nil_append, List.filterMap_cons,
      handed_strands stop ws]
    rfl

/-! ## Places -/

/-- The lines that the strands take up. -/
def pieces (doc : Document) (wrap : WatchTag → String → String) (stop line : Nat)
    (ws : List Watch) : List (List Char) :=
  (doc.strands stop line ws).flatMap (Strand.pieces wrap)

/-- No line of the document holds a line feed. -/
def Lined (doc : Document) : Prop :=
  ∀ row ∈ doc.lines, '\n' ∉ row.toList

theorem Lined.linesBetween (hdoc : doc.Lined) {row : String}
    (h : row ∈ doc.linesBetween line stop) : '\n' ∉ row.toList :=
  hdoc row (List.mem_of_mem_take (List.mem_of_mem_drop h))

theorem pieces_lines (hdoc : doc.Lined) (wrap : WatchTag → String → String) (line stop : Nat) :
    ((doc.linesBetween line stop).map Strand.line).flatMap (Strand.pieces wrap) =
      (doc.linesBetween line stop).map String.toList := by
  rw [List.flatMap_map]
  exact Text.flatMap_split_rows fun _ => hdoc.linesBetween

theorem pieces_nil (hdoc : doc.Lined) (wrap : WatchTag → String → String) (stop line : Nat) :
    doc.pieces wrap stop line [] = (doc.linesBetween line stop).map String.toList :=
  pieces_lines hdoc wrap line stop

theorem pieces_cons (hdoc : doc.Lined) (wrap : WatchTag → String → String) (stop line : Nat)
    (w : Watch) (ws : List Watch) :
    doc.pieces wrap stop line (w :: ws) =
      (doc.linesBetween line w.range.start.toNat).map String.toList ++
        (Text.split '\n' (wrap (WatchTag.ofWatch doc.id w) (doc.textOf w.range)).toList ++
          doc.pieces wrap stop (w.range.stop.toNat + 1) ws) := by
  unfold pieces
  rw [strands, List.flatMap_append, pieces_lines hdoc, List.flatMap_cons]
  rfl

/-- A block is made of the lines of its watch. -/
theorem split_textOf (hdoc : doc.Lined) (hup : w.Upright)
    (hlen : w.range.stop.toNat < doc.lines.length) :
    Text.split '\n' (doc.textOf w.range).toList =
      (doc.linesBetween w.range.start.toNat (w.range.stop.toNat + 1)).map String.toList := by
  have hne : doc.linesBetween w.range.start.toNat (w.range.stop.toNat + 1) ≠ [] := by
    rw [← List.length_pos_iff, length_linesBetween hlen]
    exact Nat.sub_pos_of_lt (Nat.lt_succ_of_le hup)
  unfold textOf
  rw [Text.split_joinLines hne]
  exact Text.flatMap_split_rows fun _ => hdoc.linesBetween

/-- **A wrapped block takes up the lines of its watch.** -/
theorem length_block (hdoc : doc.Lined) (hw : KeepsLines wrap) (hup : w.Upright)
    (hlen : w.range.stop.toNat < doc.lines.length) :
    (Text.split '\n' (wrap (WatchTag.ofWatch doc.id w) (doc.textOf w.range)).toList).length =
      w.range.stop.toNat + 1 - w.range.start.toNat := by
  rw [Text.length_split, hw, ← Text.length_split, split_textOf hdoc hup hlen, length_rows hlen]

section Places

variable (hdoc : doc.Lined) (hw : KeepsLines wrap) (hlast : last < doc.lines.length)
include hdoc hw hlast

theorem length_pieces : ∀ {ws : List Watch} {line : Nat}, Fits last line ws →
    (doc.pieces wrap (last + 1) line ws).length = last + 1 - line
  | [], line, _ => by
    rw [pieces_nil hdoc, length_rows hlast]
  | w :: ws, line, ⟨hstart, hup, hstop, h⟩ => by
    rw [pieces_cons hdoc, List.length_append, List.length_append, length_rows (by omega),
      length_block hdoc hw hup (by omega), length_pieces h]
    omega

/-- **A line outside all watches stands in its place**, as it is. -/
theorem getElem?_pieces {i : Nat} (hi : i ≤ last) : ∀ {ws : List Watch} {line : Nat},
    Fits last line ws → line ≤ i →
    (∀ w ∈ ws, i < w.range.start.toNat ∨ w.range.stop.toNat < i) →
    (doc.pieces wrap (last + 1) line ws)[i - line]? = doc.lines[i]?.map String.toList
  | [], line, _, hl, _ => by
    rw [pieces_nil hdoc, List.getElem?_map, getElem?_linesBetween (by omega),
      Nat.add_sub_cancel' hl]
  | w :: ws, line, ⟨hstart, hup, hstop, h⟩, hl, hout => by
    have hbefore := length_rows (show w.range.start.toNat ≤ doc.lines.length by omega) line
    have hblock := length_block hdoc hw hup (by omega)
    rw [pieces_cons hdoc]
    rcases hout w List.mem_cons_self with habove | hbelow
    · rw [List.getElem?_append_left (by omega), List.getElem?_map,
        getElem?_linesBetween (by omega), Nat.add_sub_cancel' hl]
    · rw [List.getElem?_append_right (by omega), List.getElem?_append_right (by omega), hbefore,
        hblock, ← getElem?_pieces hi h hbelow fun v hv => hout v (List.mem_cons_of_mem _ hv)]
      congr 1
      omega

/-- **A wrapped block stands in the place of the lines of its watch.** -/
theorem take_drop_pieces : ∀ {ws : List Watch} {line : Nat}, Fits last line ws → w ∈ ws →
    ((doc.pieces wrap (last + 1) line ws).drop (w.range.start.toNat - line)).take
        (w.range.stop.toNat + 1 - w.range.start.toNat) =
      Text.split '\n' (wrap (WatchTag.ofWatch doc.id w) (doc.textOf w.range)).toList
  | v :: ws, line, ⟨hstart, hup, hstop, h⟩, hmem => by
    have hbefore := length_rows (show v.range.start.toNat ≤ doc.lines.length by omega) line
    have hblock := length_block hdoc hw hup (by omega)
    rw [pieces_cons hdoc]
    rcases List.mem_cons.mp hmem with rfl | hmem
    · rw [List.drop_left' hbefore, List.take_left' hblock]
    · -- the watch is below the first one, so all that comes up to the end of that one is dropped
      obtain ⟨hbelow, -⟩ := h.of_mem hmem
      have hskip : w.range.start.toNat - line =
          ((doc.linesBetween line v.range.start.toNat).map String.toList ++
            Text.split '\n' (wrap (WatchTag.ofWatch doc.id v) (doc.textOf v.range)).toList).length +
              (w.range.start.toNat - (v.range.stop.toNat + 1)) := by
        rw [List.length_append, hbefore, hblock]
        omega
      rw [← List.append_assoc, hskip, List.drop_length_add_append]
      exact take_drop_pieces h hmem

end Places

/-- With nothing around the blocks the lines are those of the document. -/
theorem pieces_unwrapped (hdoc : doc.Lined) (hlast : last < doc.lines.length) :
    ∀ {ws : List Watch} {line : Nat}, Fits last line ws →
      doc.pieces (fun _ source => source) (last + 1) line ws =
        (doc.linesBetween line (last + 1)).map String.toList
  | [], line, _ => pieces_nil hdoc _ _ _
  | w :: ws, line, ⟨hstart, hup, hstop, h⟩ => by
    rw [pieces_cons hdoc, split_textOf hdoc hup (by omega), pieces_unwrapped hdoc hlast h,
      ← List.map_append, linesBetween_append (by omega) (by omega), ← List.map_append,
      linesBetween_append hstart (by omega)]

/-! ## Watched text -/

/-- The first line of the span that watched text is asked for. -/
def spanFirst (start : Option UInt32) : Nat :=
  (start.map UInt32.toNat).getD 0

/-- The last line of the span, if the document has lines. -/
def spanLast (doc : Document) (stop : Option UInt32) : Nat :=
  min ((stop.map UInt32.toNat).getD (doc.lineCount.toNat - 1)) (doc.lineCount.toNat - 1)

/-- The watches that lie inside a span. -/
def inside (doc : Document) (first last : Nat) : List Watch :=
  doc.watches.filter fun w =>
    decide (first ≤ w.range.start.toNat) && decide (w.range.stop.toNat ≤ last)

theorem watchedText_eq (doc : Document) (start stop : Option UInt32)
    (wrap : WatchTag → String → String) :
    doc.watchedText start stop wrap =
      if doc.lines.isEmpty ∨ doc.spanLast stop < spanFirst start then ""
      else Text.joinLines (doc.weave wrap (doc.spanLast stop + 1) (spanFirst start)
        (doc.inside (spanFirst start) (doc.spanLast stop))) :=
  rfl

theorem fits_inside (ht : doc.Tidy) {first : Nat} (h : first ≤ last) :
    Fits last first (doc.inside first last) := by
  refine fits_of_pairwise (by omega) (ht.ordered.filter _)
    (fun w hw => ht.upright w (List.mem_of_mem_filter hw)) fun w hw => ?_
  simpa using (List.mem_filter.mp hw).2

/-- A text is made of the lines of a span, each in its place, and of the blocks of the watches
inside the span, each in the place of its lines. -/
structure InPlace (doc : Document) (wrap : WatchTag → String → String) (first last : Nat)
    (text : String) : Prop where
  length : (Text.split '\n' text.toList).length = last + 1 - first
  verbatim : ∀ i, first ≤ i → i ≤ last →
    (∀ w ∈ doc.inside first last, i < w.range.start.toNat ∨ w.range.stop.toNat < i) →
      ∃ row, doc.lines[i]? = some row ∧
        (Text.split '\n' text.toList)[i - first]? = some row.toList
  wrapped : ∀ w ∈ doc.inside first last, w.Upright ∧
    ((Text.split '\n' text.toList).drop (w.range.start.toNat - first)).take
        (w.range.stop.toNat + 1 - w.range.start.toNat) =
      Text.split '\n' (wrap (WatchTag.ofWatch doc.id w) (doc.textOf w.range)).toList

section Spans

variable {start stop : Option UInt32}

theorem watchedText_empty (h : doc.lines = [] ∨ doc.spanLast stop < spanFirst start)
    (wrap : WatchTag → String → String) : doc.watchedText start stop wrap = "" := by
  rw [watchedText_eq, if_pos (h.imp_left List.isEmpty_iff.mpr)]

theorem spanLast_lt (hne : doc.lines ≠ []) (stop : Option UInt32) :
    doc.spanLast stop < doc.lines.length := by
  have hpos := List.length_pos_iff.mpr hne
  have hcount := doc.toNat_lineCount_le
  unfold spanLast
  omega

/-- The number of the line below a span fits 32 bits, because lines are counted in them. -/
theorem spanLast_succ_lt (doc : Document) (stop : Option UInt32) :
    doc.spanLast stop + 1 < 2 ^ 32 := by
  have hcount := doc.lineCount.toNat_lt
  unfold spanLast
  omega

theorem watchedText_strands (hne : doc.lines ≠ []) (h : spanFirst start ≤ doc.spanLast stop)
    (wrap : WatchTag → String → String) :
    doc.watchedText start stop wrap =
      Text.joinLines ((doc.strands (doc.spanLast stop + 1) (spanFirst start)
        (doc.inside (spanFirst start) (doc.spanLast stop))).map (Strand.render wrap)) := by
  rw [watchedText_eq, if_neg (by simp [hne, h]), weave_eq]

variable (hdoc : doc.Lined) (ht : doc.Tidy) (hne : doc.lines ≠ [])
  (h : spanFirst start ≤ doc.spanLast stop)
include hdoc ht hne h

/-- The pieces of watched text are those of its strands. -/
theorem split_watchedText (hw : KeepsLines wrap) :
    Text.split '\n' (doc.watchedText start stop wrap).toList =
      doc.pieces wrap (doc.spanLast stop + 1) (spanFirst start)
        (doc.inside (spanFirst start) (doc.spanLast stop)) := by
  -- without strands there would be no pieces, but the span has a line
  have hlen := length_pieces hdoc hw (spanLast_lt hne stop) (fits_inside ht h)
  have hstrands : doc.strands (doc.spanLast stop + 1) (spanFirst start)
      (doc.inside (spanFirst start) (doc.spanLast stop)) ≠ [] := by
    intro hnil
    rw [pieces, hnil, List.flatMap_nil, List.length_nil] at hlen
    omega
  rw [watchedText_strands hne h, Text.split_joinLines (by simpa using hstrands),
    List.flatMap_map]
  rfl

theorem inPlace_watchedText (hw : KeepsLines wrap) :
    doc.InPlace wrap (spanFirst start) (doc.spanLast stop) (doc.watchedText start stop wrap) := by
  have hlast := spanLast_lt hne stop
  have hfits := fits_inside ht h
  have hsplit := split_watchedText hdoc ht hne h hw
  constructor
  case length =>
    rw [hsplit]
    exact length_pieces hdoc hw hlast hfits
  case verbatim =>
    intro i hfirst hi hout
    have hrow := List.getElem?_eq_getElem (hi.trans_lt hlast)
    rw [hsplit, getElem?_pieces hdoc hw hlast hi hfits hfirst hout, hrow]
    exact ⟨_, rfl, rfl⟩
  case wrapped =>
    intro w hmem
    rw [hsplit]
    exact ⟨(hfits.of_mem hmem).2.1, take_drop_pieces hdoc hw hlast hfits hmem⟩

theorem watchedText_unwrapped :
    doc.watchedText start stop (fun _ source => source) =
      Text.joinLines (doc.linesBetween (spanFirst start) (doc.spanLast stop + 1)) := by
  have hlast := spanLast_lt hne stop
  have hrows : doc.linesBetween (spanFirst start) (doc.spanLast stop + 1) ≠ [] := by
    rw [← List.length_pos_iff, length_linesBetween hlast]
    omega
  refine String.toList_inj.mp (Text.split_injective '\n' ?_)
  rw [split_watchedText hdoc ht hne h fun _ _ => rfl,
    pieces_unwrapped hdoc hlast (fits_inside ht h), Text.split_joinLines hrows,
    Text.flatMap_split_rows fun _ => hdoc.linesBetween]

end Spans

/-- **Watched text keeps every line in its place**, for every document, however it was edited, and
every span of its lines.
* The lines are counted as they are, so a span ends with the last of them at most.
* Where the document has no lines or the span is empty, the text is empty.
* Else the walk through the span does not fail. What it gives is the watched text, whatever wraps
  the blocks: each watch inside the span is handed to the wrapper once, in the order of their lines,
  with its tag and the lines it is on, and nothing else is.
* If the wrapper keeps the number of line feeds, the lines and the blocks stand in their places.
* With nothing around the blocks the text is made of the lines of the span. -/
theorem watched_lines_stay_in_place (id : DocumentId) (text : String) (edits : List Edit)
    (start stop : Option UInt32) (hsize : (Text.linesOf text).length < 2 ^ 32) :
    let doc := (ofText id text).edited edits
    let first := spanFirst start
    let last := doc.spanLast stop
    (doc.id = id ∧ doc.lines = Text.linesOf text ∧ doc.lineCount.toNat = doc.lines.length) ∧
    (doc.lines = [] ∨ last < first → ∀ wrap, doc.watchedText start stop wrap = "") ∧
    (doc.lines ≠ [] → first ≤ last →
      (∃ strands, doc.walk last first (doc.inside first last) = some strands ∧
        (∀ wrap, doc.watchedText start stop wrap =
          Text.joinLines (strands.map (Strand.render wrap))) ∧
        strands.filterMap Strand.handed? = (doc.inside first last).map fun w =>
          (WatchTag.ofWatch id w,
            Text.joinLines (doc.linesBetween w.range.start.toNat (w.range.stop.toNat + 1)))) ∧
      (doc.inside first last).Pairwise Watch.Above ∧
      (∀ wrap, KeepsLines wrap →
        doc.InPlace wrap first last (doc.watchedText start stop wrap)) ∧
      doc.watchedText start stop (fun _ source => source) =
        Text.joinLines (doc.linesBetween first (last + 1))) := by
  intro doc first last
  obtain ⟨hlines, hid⟩ := edited_keeps edits (ofText id text)
  have ht : doc.Tidy := tidy_edited id text edits
  have hdoc : doc.Lined := by
    intro row hrow
    rw [hlines] at hrow
    exact Text.not_mem_of_mem_linesOf hrow
  have hlength : doc.lines.length < 2 ^ 32 := by
    rw [hlines]
    exact hsize
  refine ⟨⟨hid, hlines, toNat_lineCount hlength⟩, watchedText_empty, fun hne h => ?_⟩
  refine ⟨⟨_, walk_eq_strands (spanLast_lt hne stop) (doc.spanLast_succ_lt stop) (fits_inside ht h),
    watchedText_strands hne h, ?_⟩, ht.ordered.filter _,
    fun wrap => inPlace_watchedText hdoc ht hne h, watchedText_unwrapped hdoc ht hne h⟩
  rw [handed_strands, hid]
  rfl

/-- One watch is above the span, one goes on behind the document, and one is refused. The block of
the one that is left takes up the first two lines of the span. -/
theorem watched_lines_below_the_first :
    let edits : List Edit := [.watch ⟨3, 9⟩, .watch ⟨1, 2⟩, .watch ⟨2, 2⟩, .watch ⟨0, 0⟩]
    let doc := (ofText ⟨7⟩ "a\nb\r\nc\nd").edited edits
    (Text.linesOf "a\nb\r\nc\nd").length < 2 ^ 32 ∧
      doc.inside 1 3 = [{ id := ⟨"7-w2"⟩, range := ⟨1, 2⟩ }] ∧
      doc.watchedText (some 1) none (fun _ source => source) = "b\nc\nd" ∧
      doc.InPlace WatchTag.wrap 1 3 (doc.watchedText (some 1) none WatchTag.wrap) := by
  intro edits doc
  have hsize : (Text.linesOf "a\nb\r\nc\nd").length < 2 ^ 32 := by decide +kernel
  obtain ⟨-, -, hspan⟩ := watched_lines_stay_in_place ⟨7⟩ _ edits (some 1) none hsize
  obtain ⟨-, -, hplaced, hunwrapped⟩ := hspan (by decide +kernel) (by decide +kernel)
  refine ⟨hsize, by decide +kernel, ?_, hplaced WatchTag.wrap keepsLines_wrap⟩
  exact hunwrapped.trans (by decide +kernel)

end Document

end InlineRepl
