import InlineRepl.Command.Evaluate
import InlineRepl.Proofs.Document.Issued
import InlineRepl.Proofs.Host.Drawing
import InlineRepl.Proofs.Tree.Names
import Mathlib.Data.List.Pairwise

/-!
# What a report lists

A report has one row for every result that stands on a line of the document, in the order of the
lines, the values of the watches in the order of their ids, and what was printed in the order it
came. Lines that count from zero are told as lines that count from one, in 32 bits: all but the last
one that a response can name, which is told as line zero. It comes behind the others all the same.

Pictures are written under the numbers that are told. These differ for different lines, the last one
included, so each picture gets a file of its own.

Results:
* `toNat_next`, `increasing_rows`: which numbers are told, and when they increase.
* `rows_eq_ok_iff`, `report_eq_ok_iff`: what is reported and written, and when it succeeds.
* `find_picture`, `resolve_picture_ne`: each picture is in a file of its own.
* `reports_are_faithful`: what the report of every terminal lists.
-/

namespace InlineRepl

/-- What a call prints. -/
def Call.entry? : Call → Option LogEntry
  | .log entry => some entry
  | _ => none

namespace Terminal

theorem printed_hear (t : Terminal) (call : Call) :
    (t.hear call).printed = t.printed ++ call.entry?.toList := by
  cases call with
  | beginWorking label =>
    unfold hear
    dsimp only
    split <;> exact (List.append_nil _).symm
  | log => rfl
  | _ => exact (List.append_nil _).symm

/-- **What a terminal has printed**, in the order it came. -/
theorem printed_ofCalls (echo color : Bool) (calls : List Call) :
    (ofCalls echo color calls).printed = calls.filterMap Call.entry? := by
  have hfold : ∀ t : Terminal,
      (calls.foldl hear t).printed = t.printed ++ calls.filterMap Call.entry? := by
    induction calls with
    | nil => exact fun t => (List.append_nil _).symm
    | cons call calls ih =>
      intro t
      rw [List.foldl_cons, ih, printed_hear, List.append_assoc]
      simp only [List.filterMap_eq_flatMap_toList, List.flatMap_cons]
  exact hfold _

theorem ordered_ofCalls (echo color : Bool) (calls : List Call) :
    (ofCalls echo color calls).board.Ordered := by
  rw [board_ofCalls]
  exact Board.ordered_changed Board.ordered_empty _

end Terminal

namespace Evaluate

variable {terminal : Terminal} {file dir : Path} {images : Option Path} {tree made after : Tree}
  {entry other : Anchor × InlineResult} {entries : List (Anchor × InlineResult)}
  {results : List ReportRow} {bytes : List UInt8}

/-! ## Lines -/

/-- The last line that a response can name. -/
def lastLine : UInt32 := 4294967295

/-- **A line is told as the next number**, the last one as zero. -/
theorem toNat_next (line : UInt32) :
    (line + 1).toNat = if line = lastLine then 0 else line.toNat + 1 := by
  have hlt := line.toNat_lt
  have hlast : line = lastLine ↔ line.toNat = 4294967295 := UInt32.toNat_inj.symm
  rw [UInt32.toNat_add]
  simp only [UInt32.reduceToNat, hlast]
  split <;> omega

theorem ne_lastLine_of_lt {a b : UInt32} (h : a < b) : a ≠ lastLine := by
  rintro rfl
  exact absurd (UInt32.lt_iff_toNat_lt.mp h) (Nat.not_lt.mpr (Nat.le_of_lt_succ b.toNat_lt))

/-- Two lines are told in their order, unless the second is the last one. -/
theorem next_lt_next_iff {a b : UInt32} (h : a < b) : a + 1 < b + 1 ↔ b ≠ lastLine := by
  rw [UInt32.lt_iff_toNat_lt, toNat_next, toNat_next, if_neg (ne_lastLine_of_lt h)]
  split
  · rename_i hlast
    exact iff_of_false (Nat.not_lt_zero _) fun hne => hne hlast
  · rename_i hne
    exact iff_of_true (Nat.succ_lt_succ (UInt32.lt_iff_toNat_lt.mp h)) hne

theorem toList_imageName (line : UInt32) : (imageName line).text.toList =
    "line-".toList ++ (Nat.toDigits 10 line.toNat ++ ".png".toList) := by
  unfold imageName
  rw [String.toList_append, String.toList_append, Nat.toString_eq_repr, Nat.toList_repr,
    List.append_assoc]

/-- The name of a picture tells its line. -/
theorem imageName_inj {a b : UInt32} (h : (imageName a).text = (imageName b).text) : a = b := by
  have hlist := congrArg String.toList h
  rw [toList_imageName, toList_imageName] at hlist
  exact UInt32.toNat_inj.mp
    (Document.toDigits_inj (List.append_cancel_right (List.append_cancel_left hlist)))

theorem slash_not_mem_imageName (line : UInt32) : '/' ∉ (imageName line).text.toList := by
  rw [toList_imageName, List.mem_append, List.mem_append]
  rintro (hfront | hdigits | hback)
  · exact absurd hfront (by decide)
  · exact absurd (Nat.isDigit_of_mem_toDigits (by decide) (by decide) hdigits) (by decide)
  · exact absurd hback (by decide)

/-- The file of the picture that stands at an anchor. -/
def fileOf (dir : Path) (anchor : Anchor) : Path :=
  dir.join (imageName (anchor.line + 1))

/-- The path of a picture ends in its name, whatever the directory. -/
theorem endsIn_fileOf (dir : Path) (anchor : Anchor) :
    Tree.EndsIn (fileOf dir anchor) (imageName (anchor.line + 1)).text := by
  have hhead : (imageName (anchor.line + 1)).text.toList.head? = some 'l' := by
    rw [toList_imageName]
    rfl
  have hne : ∀ name : String, name.toList.head? ≠ some 'l' →
      (imageName (anchor.line + 1)).text ≠ name := fun name hname heq => hname (heq ▸ hhead)
  exact Tree.endsIn_join dir (slash_not_mem_imageName _) (fun hnil => absurd (hnil ▸ hhead) nofun)
    (hne _ (by decide)) (hne _ (by decide))

/-- Pictures of one name are of one line. -/
theorem line_of_endsIn {a b : Anchor} {name : String} (ha : Tree.EndsIn (fileOf dir a) name)
    (hb : Tree.EndsIn (fileOf dir b) name) : a.line = b.line := by
  obtain rfl := (endsIn_fileOf dir a).unique ha
  exact (UInt32.add_left_inj 1).mp (imageName_inj (hb.unique (endsIn_fileOf dir b)))

/-- **Pictures of different lines have different files.** -/
theorem fileOf_inj {a b : Anchor} (h : fileOf dir a = fileOf dir b) : a.line = b.line :=
  line_of_endsIn (endsIn_fileOf dir a) (h ▸ endsIn_fileOf dir a)

/-! ## Rows -/

/-- The picture of an entry and the file it is written to, if there is a directory for it. -/
def pictureOf (images : Option Path) : Anchor × InlineResult → Option (Path × List UInt8)
  | (anchor, .image bytes) => images.map fun dir => (fileOf dir anchor, bytes)
  | _ => none

/-- How an entry is told. -/
def tell (images : Option Path) : InlineResult → Anchor → ReportValue
  | .text text, _ => .text text
  | .exception text, _ => .exception text
  | .image bytes, anchor => .image bytes.length (images.map fun dir => (fileOf dir anchor).text)

/-- The row of an entry. -/
def rowOf (images : Option Path) (entry : Anchor × InlineResult) : ReportRow :=
  { line := entry.1.line + 1
    startLine := entry.1.startLine + 1
    value := tell images entry.2 entry.1 }

theorem row_eq_ok_iff {first : ReportRow} :
    row images tree entry.1 entry.2 = .ok (first, after) ↔
      first = rowOf images entry ∧ tree.writeAll (pictureOf images entry).toList = .ok after := by
  obtain ⟨anchor, result⟩ := entry
  have hstill : ∀ (told : ReportRow) (tree : Tree),
      (Except.ok (told, tree) : Except FileFault (ReportRow × Tree)) = .ok (first, after) ↔
        first = told ∧ tree.writeAll [] = .ok after := by
    intro told tree
    rw [Except.ok.injEq, Prod.mk.injEq, @eq_comm _ told, Tree.writeAll_nil_eq_ok]
  cases result with
  | text | exception => exact hstill _ _
  | image bytes =>
    cases images with
    | none => exact hstill _ _
    | some dir =>
      show (tree.writeBytes (fileOf dir anchor) bytes >>= _) = _ ↔
        _ ∧ tree.writeAll [(fileOf dir anchor, bytes)] = _
      rw [Tree.writeAll_cons_eq_ok]
      cases tree.writeBytes (fileOf dir anchor) bytes with
      | error => exact iff_of_false nofun fun ⟨_, _, h, _⟩ => absurd h nofun
      | ok next =>
        simp only [Except.ok.injEq, exists_eq_left']
        exact hstill _ next

theorem rows_cons_eq_ok_iff : rows images tree (entry :: entries) = (.ok results, after) ↔
    ∃ first next rest, row images tree entry.1 entry.2 = .ok (first, next) ∧
      rows images next entries = (.ok rest, after) ∧ results = first :: rest := by
  obtain ⟨anchor, result⟩ := entry
  rw [rows]
  cases row images tree anchor result with
  | error => exact iff_of_false nofun fun ⟨_, _, _, h, _⟩ => absurd h nofun
  | ok done =>
    obtain ⟨first, next⟩ := done
    dsimp only
    split
    · rename_i fault last hrest
      refine iff_of_false nofun ?_
      rintro ⟨_, _, rest, hfirst, h, -⟩
      obtain ⟨rfl, rfl⟩ := Prod.mk.inj (Except.ok.inj hfirst)
      exact absurd (hrest.symm.trans h) nofun
    · rename_i rest last hrest
      constructor
      · intro h
        obtain ⟨hresults, rfl⟩ := Prod.mk.inj h
        exact ⟨first, next, rest, rfl, hrest, (Except.ok.inj hresults).symm⟩
      · rintro ⟨_, _, rest, hfirst, h, rfl⟩
        obtain ⟨rfl, rfl⟩ := Prod.mk.inj (Except.ok.inj hfirst)
        obtain ⟨hresults, rfl⟩ := Prod.mk.inj (hrest.symm.trans h)
        rw [Except.ok.inj hresults]

/-- **Which rows there are, and what is written.** -/
theorem rows_eq_ok_iff : rows images tree entries = (.ok results, after) ↔
    results = entries.map (rowOf images) ∧
      tree.writeAll (entries.filterMap (pictureOf images)) = .ok after := by
  induction entries generalizing tree results with
  | nil =>
    rw [rows, Prod.mk.injEq, Except.ok.injEq, @eq_comm _ [], List.filterMap_nil,
      Tree.writeAll_nil_eq_ok]
    rfl
  | cons entry entries ih =>
    rw [rows_cons_eq_ok_iff]
    simp only [row_eq_ok_iff, ih, List.filterMap_eq_flatMap_toList, List.flatMap_cons,
      Tree.writeAll_append_eq_ok, List.map_cons]
    constructor
    · rintro ⟨_, next, _, ⟨rfl, hfirst⟩, ⟨rfl, hrest⟩, rfl⟩
      exact ⟨rfl, next, hfirst, hrest⟩
    · rintro ⟨rfl, next, hfirst, hrest⟩
      exact ⟨_, next, _, ⟨rfl, hfirst⟩, ⟨rfl, hrest⟩, rfl⟩

/-- **Rows increase** unless there is another one before the row of the last line. -/
theorem increasing_rows (h : entries.Pairwise fun a b => a.1.line < b.1.line) :
    (entries.map (rowOf images)).Pairwise (fun a b => a.line < b.line) ↔
      (∀ entry ∈ entries, entry.1.line ≠ lastLine) ∨ entries.length ≤ 1 := by
  rw [List.pairwise_map]
  constructor
  · intro hrows
    match entries with
    | [] | [_] => exact .inr (by simp)
    | first :: second :: rest =>
      -- The first stands before the second, so it is not on the last line; for any other entry the
      -- row of the first is before its row.
      refine .inl fun entry he => ?_
      obtain ⟨hlines, -⟩ := List.pairwise_cons.mp h
      obtain ⟨hnext, -⟩ := List.pairwise_cons.mp hrows
      rcases List.mem_cons.mp he with rfl | he
      · exact ne_lastLine_of_lt (hlines second List.mem_cons_self)
      · exact (next_lt_next_iff (hlines entry he)).mp (hnext entry he)
  · rintro (hlast | hone)
    · exact h.imp_of_mem fun _ hb hab => (next_lt_next_iff hab).mpr (hlast _ hb)
    · match entries with
      | [] => exact .nil
      | [_] => exact List.pairwise_singleton _ _

/-- Different entries stand on different lines. -/
theorem line_ne (h : entries.Pairwise fun a b => a.1.line < b.1.line) (hmem : entry ∈ entries)
    (hother : other ∈ entries) (hne : entry ≠ other) : entry.1.line ≠ other.1.line := by
  have hsymm : Std.Symm fun a b : Anchor × InlineResult => a.1.line ≠ b.1.line :=
    ⟨fun _ _ => Ne.symm⟩
  exact (h.imp UInt32.ne_of_lt).forall hmem hother hne

/-! ## Pictures -/

/-- No link and no device stands where a picture is to be written. -/
def Clear (made : Tree) (dir : Path) (entries : List (Anchor × InlineResult)) : Prop :=
  ∀ entry ∈ entries, ∀ bytes, entry.2 = .image bytes → made.Plain (fileOf dir entry.1)

theorem pictureOf_eq_some_iff {picture : Path × List UInt8} :
    pictureOf (some dir) entry = some picture ↔
      entry.2 = .image picture.2 ∧ picture.1 = fileOf dir entry.1 := by
  obtain ⟨anchor, result⟩ := entry
  obtain ⟨file, bytes⟩ := picture
  cases result with
  | text | exception => exact iff_of_false nofun fun h => absurd h.1 nofun
  | image drawn =>
    show some (fileOf dir anchor, drawn) = some (file, bytes) ↔ _
    rw [Option.some.injEq, Prod.mk.injEq, and_comm, InlineResult.image.injEq, @eq_comm _ file]

theorem pictures_none (entries : List (Anchor × InlineResult)) :
    entries.filterMap (pictureOf none) = [] := by
  refine List.filterMap_eq_nil_iff.mpr fun entry _ => ?_
  obtain ⟨anchor, result⟩ := entry
  cases result <;> rfl

theorem mem_pictures {picture : Path × List UInt8} :
    picture ∈ entries.filterMap (pictureOf (some dir)) ↔
      ∃ entry ∈ entries, entry.2 = .image picture.2 ∧ picture.1 = fileOf dir entry.1 := by
  simp only [List.mem_filterMap, pictureOf_eq_some_iff]

/-- **Each picture is in its file**, byte for byte. -/
theorem find_picture (h : entries.Pairwise fun a b => a.1.line < b.1.line)
    (hwrite : made.writeAll (entries.filterMap (pictureOf (some dir))) = .ok after)
    (hclear : Clear made dir entries) (hmem : entry ∈ entries) (himage : entry.2 = .image bytes) :
    ∃ executable, after.find (fileOf dir entry.1) = .ok (.file bytes executable) := by
  have hnames : (entries.filterMap (pictureOf (some dir))).Pairwise fun a b =>
      ∀ name, Tree.EndsIn a.1 name → ¬ Tree.EndsIn b.1 name := by
    refine List.pairwise_filterMap.mpr (h.imp fun {a b} hab pa ha pb hb name hna hnb => ?_)
    obtain ⟨-, hfa⟩ := pictureOf_eq_some_iff.mp ha
    obtain ⟨-, hfb⟩ := pictureOf_eq_some_iff.mp hb
    exact UInt32.ne_of_lt hab (line_of_endsIn (hfa ▸ hna) (hfb ▸ hnb))
  have hplain : ∀ picture ∈ entries.filterMap (pictureOf (some dir)), made.Plain picture.1 := by
    intro picture hp
    obtain ⟨drawn, hd, himage, hfile⟩ := mem_pictures.mp hp
    exact hfile ▸ hclear drawn hd _ himage
  have hnamed : ∀ picture ∈ entries.filterMap (pictureOf (some dir)),
      ∃ name, Tree.EndsIn picture.1 name := by
    intro picture hp
    obtain ⟨drawn, -, -, hfile⟩ := mem_pictures.mp hp
    exact ⟨_, hfile ▸ endsIn_fileOf dir drawn.1⟩
  exact Tree.find_writeAll hwrite hplain hnamed hnames (fileOf dir entry.1, bytes)
    (mem_pictures.mpr ⟨entry, hmem, himage, rfl⟩)

/-- **Each picture has a place of its own.** -/
theorem resolve_picture_ne (h : entries.Pairwise fun a b => a.1.line < b.1.line)
    (hwrite : made.writeAll (entries.filterMap (pictureOf (some dir))) = .ok after)
    (hclear : Clear made dir entries) (hmem : entry ∈ entries) (himage : entry.2 = .image bytes)
    {drawn : List UInt8} (hother : other ∈ entries) (hdrawn : other.2 = .image drawn)
    (hne : other ≠ entry) :
    after.resolve true (fileOf dir other.1) ≠ after.resolve true (fileOf dir entry.1) := by
  have halike := Tree.alike_writeAll hwrite
  obtain ⟨executable, hfind⟩ := find_picture h hwrite hclear hother hdrawn
  obtain ⟨place, hplace, -⟩ := Tree.find_eq_ok_iff.mp hfind
  refine Tree.Plain.resolve_ne ((hclear other hother _ hdrawn).alike halike)
    ((hclear entry hmem _ himage).alike halike) (endsIn_fileOf dir _) (endsIn_fileOf dir _)
    (fun hname => line_ne h hother hmem hne (UInt32.add_left_inj 1 |>.mp (imageName_inj hname)))
    hplace

/-! ## Reports -/

/-- What is reported of a terminal. -/
def reported (terminal : Terminal) (file : Path) (images : Option Path) : Report :=
  { file := file.text
    results := (terminal.board.resultsOf Script.documentId).map (rowOf images)
    watches := (terminal.board.valuesOf Script.documentId).map fun entry =>
      { id := entry.1.name, value := entry.2 }
    printed := terminal.printed.map fun entry => { file := entry.file, message := entry.content } }

/-- **What is reported and written, and when it succeeds.** -/
theorem report_eq_ok_iff {told : Report} :
    report terminal file images tree = (.ok told, after) ↔
      told = reported terminal file images ∧
        ∃ made, (images.map tree.makeAll).getD (.ok tree) = .ok made ∧
          made.writeAll ((terminal.board.resultsOf Script.documentId).filterMap
            (pictureOf images)) = .ok after := by
  unfold report
  cases (images.map tree.makeAll).getD (.ok tree) with
  | error fault => exact iff_of_false nofun fun ⟨_, _, h, _⟩ => absurd h nofun
  | ok made =>
    simp only [Except.ok.injEq, exists_eq_left']
    split
    · rename_i fault last hrows
      refine iff_of_false nofun fun h => ?_
      rw [rows_eq_ok_iff.mpr ⟨rfl, h.2⟩] at hrows
      cases hrows
    · rename_i results last hrows
      obtain ⟨rfl, hwrite⟩ := rows_eq_ok_iff.mp hrows
      rw [hwrite, Except.ok.injEq, Prod.mk.injEq, Except.ok.injEq, @eq_comm _ told]
      rfl

/-- **Reports are faithful**, whatever the terminal has heard, with or without a directory for
pictures.

A report fails only where the directory cannot be made or a picture cannot be written. Else it has
one row for each result that stands on a line of the document, in the order of the lines, the values
of the watches in the order of their ids, and the prints in the order they came. A line is told as
the next number, the last one as zero; so the numbers increase unless a result on the last line
comes behind another one. Each picture is told with a path of its own, in the directory and named
after the line that is told. Where no link and no device stood in the way, these are different
files, and each holds the bytes of its picture. -/
theorem reports_are_faithful (echo color : Bool) (calls : List Call) (file : Path)
    (images : Option Path) (tree : Tree) :
    let terminal := Terminal.ofCalls echo color calls
    let board := terminal.board
    let entries := board.resultsOf Script.documentId
    let values := board.valuesOf Script.documentId
    ((∃ told after, report terminal file images tree = (.ok told, after)) ↔
      ∃ made after, (images.map tree.makeAll).getD (.ok tree) = .ok made ∧
        made.writeAll (entries.filterMap (pictureOf images)) = .ok after) ∧
    (images = none → ∃ told, report terminal file images tree = (.ok told, tree)) ∧
    ∀ told after, report terminal file images tree = (.ok told, after) →
      ((∀ line entry, board.get? Script.documentId line = some entry ↔
          entry ∈ entries ∧ entry.1.line = line) ∧
        entries.Pairwise (fun a b => a.1.line < b.1.line) ∧
        told.results = entries.map (rowOf images)) ∧
      ((∀ entry ∈ entries,
          (rowOf images entry).line.toNat =
            (if entry.1.line = lastLine then 0 else entry.1.line.toNat + 1) ∧
          (rowOf images entry).startLine.toNat =
            if entry.1.startLine = lastLine then 0 else entry.1.startLine.toNat + 1) ∧
        (told.results.Pairwise (fun a b => a.line < b.line) ↔
          (∀ entry ∈ entries, entry.1.line ≠ lastLine) ∨ entries.length ≤ 1)) ∧
      ((∀ watch value, board.value? Script.documentId watch = some value ↔
          (watch, value) ∈ values) ∧
        values.Pairwise (fun a b => Text.bytesOf a.1.name < Text.bytesOf b.1.name) ∧
        told.watches = values.map (fun entry => { id := entry.1.name, value := entry.2 }) ∧
        told.printed = (calls.filterMap Call.entry?).map fun entry =>
          { file := entry.file, message := entry.content }) ∧
      ∀ dir, images = some dir → ∀ entry ∈ entries, ∀ bytes, entry.2 = .image bytes →
        let picture := dir.join (imageName (rowOf images entry).line)
        (rowOf images entry).value = .image bytes.length (some picture.text) ∧
        (∀ other ∈ entries, other ≠ entry →
          dir.join (imageName (rowOf images other).line) ≠ picture) ∧
        ∀ made, tree.makeAll dir = .ok made → Clear made dir entries →
          after.readBytes picture = .ok bytes ∧
          ∀ other ∈ entries, ∀ drawn, other.2 = .image drawn → other ≠ entry →
            after.resolve true (dir.join (imageName (rowOf images other).line)) ≠
              after.resolve true picture := by
  intro terminal board entries values
  have hboard : board.Ordered := Terminal.ordered_ofCalls echo color calls
  have hlines := hboard.increasing_resultsOf Script.documentId
  refine ⟨?_, ?_, fun told after hdone => ?_⟩
  · simp only [report_eq_ok_iff, exists_and_left, exists_eq_left]
    exact exists_comm.trans (exists_congr fun _ => exists_and_left)
  · rintro rfl
    refine ⟨_, report_eq_ok_iff.mpr ⟨rfl, tree, rfl, ?_⟩⟩
    rw [pictures_none]
    rfl
  · obtain ⟨rfl, made, hmade, hwrite⟩ := report_eq_ok_iff.mp hdone
    refine ⟨⟨fun _ _ => hboard.mem_resultsOf, hlines, rfl⟩,
      ⟨fun entry _ => ⟨toNat_next _, toNat_next _⟩, increasing_rows hlines⟩,
      ⟨fun _ _ => hboard.mem_valuesOf, hboard.increasing_valuesOf _, rfl, ?_⟩, ?_⟩
    · rw [← Terminal.printed_ofCalls echo color calls]
      rfl
    · rintro dir rfl entry hmem bytes himage
      refine ⟨?_, fun other hother hne heq => ?_, fun other hmakes hclear => ?_⟩
      · show tell (some dir) entry.2 entry.1 = _
        rw [himage]
        rfl
      · exact line_ne hlines hother hmem hne (fileOf_inj heq)
      · obtain rfl := Except.ok.inj (hmade.symm.trans hmakes)
        obtain ⟨executable, hfind⟩ := find_picture hlines hwrite hclear hmem himage
        exact ⟨Tree.readBytes_of_find hfind, fun other hother drawn hdrawn hne =>
          resolve_picture_ne hlines hwrite hclear hmem himage hother hdrawn hne⟩

/-- A text on the third line and a picture on the fifth. -/
def drawn : List Call :=
  [.showResult Script.documentId ⟨4, 4⟩ (.image [0x89, 0x50]),
    .showResult Script.documentId ⟨2, 0⟩ (.text "3")]

/-- A directory for pictures. -/
def gallery : Tree :=
  { entries := [(["img"], .directory)] }

theorem resolve_gallery (follow : Bool) :
    gallery.resolve follow ⟨"/img"⟩ = .ok ["img"] ∧
      gallery.resolve follow ⟨"/img/line-5.png"⟩ = .ok ["img", "line-5.png"] := by
  have hname : ∀ step, step = "img" ∨ step = "line-5.png" → Tree.IsName step := by
    rintro _ (rfl | rfl) <;> exact ⟨by decide, by decide, by decide⟩
  have hsteps : Tree.steps ⟨"/img"⟩ = ["img"] ∧
      Tree.steps ⟨"/img/line-5.png"⟩ = ["img", "line-5.png"] := by decide
  constructor
  · refine Tree.resolve_eq_ok_iff.mpr ⟨by unfold Tree.IsTaken; decide, ?_⟩
    rw [hsteps.1]
    exact .into rfl (hname _ (.inl rfl)) rfl (.done _ _)
  · refine Tree.resolve_eq_ok_iff.mpr ⟨by unfold Tree.IsTaken; decide, ?_⟩
    rw [hsteps.2]
    exact .into rfl (hname _ (.inl rfl)) rfl (.final rfl (hname _ (.inr rfl)) nofun nofun)

theorem picture_is_written : ∃ told after,
    report (.ofCalls false false drawn) ⟨"s.fsx"⟩ (some ⟨"/img"⟩) gallery = (.ok told, after) ∧
      told.results.Pairwise (fun a b => a.line < b.line) ∧
      after.readBytes ⟨"/img/line-5.png"⟩ = .ok [0x89, 0x50] := by
  obtain ⟨hruns, -, hfaithful⟩ :=
    reports_are_faithful false false drawn ⟨"s.fsx"⟩ (some ⟨"/img"⟩) gallery
  have hmade : gallery.makeAll ⟨"/img"⟩ = .ok gallery :=
    Tree.makeAll_of_stands (.inr ⟨_, (resolve_gallery false).1, (resolve_gallery true).1, rfl⟩)
  obtain ⟨executable, hwrite⟩ :=
    Tree.writeBytes_takes (resolve_gallery true).2 (.inl rfl) [0x89, 0x50]
  obtain ⟨told, after, hdone⟩ := hruns.mpr
    ⟨gallery, _, hmade, Tree.writeAll_cons_eq_ok.mpr ⟨_, hwrite, rfl⟩⟩
  have hclear : Clear gallery ⟨"/img"⟩ [(⟨2, 0⟩, .text "3"), (⟨4, 4⟩, .image [0x89, 0x50])] := by
    intro entry hmem bytes himage place hplace
    rcases List.mem_cons.mp hmem with rfl | hmem
    · cases himage
    · obtain rfl := List.mem_singleton.mp hmem
      obtain rfl := Except.ok.inj ((resolve_gallery false).2.symm.trans hplace)
      exact ⟨nofun, nofun⟩
  obtain ⟨-, ⟨-, hincreasing⟩, -, hpictures⟩ := hfaithful told after hdone
  obtain ⟨-, -, hread⟩ := hpictures ⟨"/img"⟩ rfl (⟨4, 4⟩, .image [0x89, 0x50])
    (List.mem_cons_of_mem _ List.mem_cons_self) [0x89, 0x50] rfl
  refine ⟨told, after, hdone, hincreasing.mpr (.inl ?_), (hread gallery hmade hclear).1⟩
  decide

/-- A result on the last line is told as one on line zero, behind the others. -/
theorem last_line_is_told_as_zero : ∃ told,
    report (.ofCalls false false [.showResult Script.documentId ⟨lastLine, 0⟩ (.text "x"),
      .showResult Script.documentId ⟨0, 0⟩ (.text "y")]) ⟨"s.fsx"⟩ none {} = (.ok told, {}) ∧
      told.results = [⟨1, 1, .text "y"⟩, ⟨0, 1, .text "x"⟩] :=
  ⟨_, rfl, rfl⟩

end Evaluate

end InlineRepl
