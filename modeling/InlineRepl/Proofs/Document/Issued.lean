import InlineRepl.Proofs.Document.Watches
import Mathlib.Data.List.Nodup

/-!
# What placing a watch does, and which ids it issues

A watch is placed exactly where its range is upright and has no line in common with a watch that is
there; comparing the end points decides it. Its id is the number of its document and how many
watches the document has placed, with `-w` between them. No digit is a hyphen, so the two numbers
can be read back, and no two watches of any documents with different numbers have one id.

Results:
* `watchId_inj`: an id tells its document and its number.
* `numbered_edited`: the watches of a document have the ids that it has issued.
* `overlap_iff`, `addWatch_isSome_iff`: where a watch is placed.
* `watches_stay_apart`: all of this, for every document that was edited.
-/

namespace InlineRepl.Document

variable {doc : Document} {d e : DocumentId} {n m : Nat} {w : Watch} {range : LineRange}

/-! ## Ids -/

theorem hyphen_not_mem_digits (n : Nat) : '-' ∉ Nat.toDigits 10 n := by
  intro hm
  have hdigit := Nat.isDigit_of_mem_toDigits (by decide) (by decide) hm
  exact absurd hdigit (by decide)

/-- The digits of a number stand for it alone. -/
theorem toDigits_inj {n m : Nat} (h : Nat.toDigits 10 n = Nat.toDigits 10 m) : n = m := by
  rw [← Nat.ofDigitChars_ten_toDigits (n := n), h, Nat.ofDigitChars_ten_toDigits]

theorem toList_watchId (d : DocumentId) (n : Nat) : (watchId d n).name.toList =
    Nat.toDigits 10 d.val.toNat ++ '-' :: 'w' :: Nat.toDigits 10 n := by
  unfold watchId
  rw [String.toList_append, String.toList_append, Nat.toString_eq_repr, Nat.toString_eq_repr,
    Nat.toList_repr, Nat.toList_repr, List.append_assoc]
  rfl

/-- **An id tells its document and its number.** -/
theorem watchId_inj : watchId d n = watchId e m ↔ d = e ∧ n = m := by
  refine ⟨fun h => ?_, fun ⟨hd, hn⟩ => by rw [hd, hn]⟩
  have hlist := congrArg (fun id : WatchId => id.name.toList) h
  rw [toList_watchId, toList_watchId] at hlist
  have htail : '-' ∉ 'w' :: Nat.toDigits 10 n :=
    List.not_mem_cons_of_ne_of_not_mem (by decide) (hyphen_not_mem_digits n)
  obtain ⟨hd, -, hn⟩ :=
    (List.append_cons_inj_of_notMem (hyphen_not_mem_digits d.val.toNat) htail).mp hlist
  obtain ⟨d⟩ := d
  obtain ⟨e⟩ := e
  exact ⟨congrArg DocumentId.mk (UInt64.toNat_inj.mp (toDigits_inj hd)),
    toDigits_inj (List.cons.inj hn).2⟩

/-- The ids of a document's watches are those that it has issued, in some order. -/
def Numbered (doc : Document) : Prop :=
  (doc.watches.map Watch.id).Perm ((List.range doc.issued).map fun n => watchId doc.id (n + 1))

theorem insertWatch_perm (w : Watch) : ∀ ws : List Watch, (insertWatch w ws).Perm (w :: ws)
  | [] => .refl _
  | v :: ws => by
    unfold insertWatch
    split
    · exact .refl _
    · exact ((insertWatch_perm w ws).cons v).trans (List.Perm.swap w v ws)

/-- **A watch that is placed gets the next number.** -/
theorem Numbered.addWatch (h : doc.Numbered) {placed : WatchId × Document}
    (hp : doc.addWatch range = some placed) : placed.2.Numbered := by
  obtain ⟨-, -, rfl⟩ := addWatch_some hp
  have hids := (insertWatch_perm { id := watchId doc.id (doc.issued + 1), range } doc.watches).map
    Watch.id
  unfold Numbered at h ⊢
  dsimp only
  rw [List.range_succ, List.map_append]
  exact hids.trans ((h.cons _).trans (List.perm_append_singleton _ _).symm)

/-- **The watches of a document have the ids that it has issued**, however it was edited. -/
theorem numbered_edited (id : DocumentId) (text : String) (edits : List Edit) :
    ((ofText id text).edited edits).Numbered :=
  edited_preserves Numbered (fun _ _ h => h) (fun _ _ h => h) (fun _ _ _ h hp => h.addWatch hp)
    edits (.refl _)

theorem Numbered.nodup (h : doc.Numbered) : (doc.watches.map Watch.id).Nodup := by
  refine h.nodup_iff.mpr (List.Nodup.map (fun n m he => ?_) List.nodup_range)
  exact Nat.succ.inj (watchId_inj.mp he).2

theorem Numbered.exists_number (h : doc.Numbered) (hw : w ∈ doc.watches) :
    ∃ n, w.id = watchId doc.id n := by
  obtain ⟨n, -, hn⟩ := List.mem_map.mp (h.mem_iff.mp (List.mem_map_of_mem hw))
  exact ⟨n + 1, hn.symm⟩

/-! ## Where a watch is placed -/

/-- **Ranges that are not inverted overlap exactly when they have a line in common.** -/
theorem overlap_iff {a b : LineRange} (ha : a.start ≤ a.stop) (hb : b.start ≤ b.stop) :
    overlap a b = true ↔ ∃ line, a.contains line = true ∧ b.contains line = true := by
  simp only [overlap, LineRange.contains, Bool.and_eq_true, decide_eq_true_eq]
  constructor
  · rintro ⟨hab, hba⟩
    -- The line that begins later is in both.
    rcases UInt32.le_total a.start b.start with h | h
    · exact ⟨b.start, ⟨h, hba⟩, UInt32.le_refl _, hb⟩
    · exact ⟨a.start, ⟨UInt32.le_refl _, ha⟩, h, hab⟩
  · rintro ⟨line, ⟨hal, hla⟩, hbl, hlb⟩
    exact ⟨UInt32.le_trans hal hlb, UInt32.le_trans hbl hla⟩

/-- A watch is placed where the end points say so. -/
theorem addWatch_isSome (doc : Document) (range : LineRange) :
    (doc.addWatch range).isSome = true ↔
      range.start ≤ range.stop ∧ ∀ w ∈ doc.watches, overlap w.range range = false := by
  unfold addWatch
  split
  · rename_i hrefused
    refine iff_of_false nofun fun ⟨hup, hfree⟩ => ?_
    rcases hrefused with hmeets | hinverted
    · obtain ⟨w, hw, hov⟩ := List.any_eq_true.mp hmeets
      exact absurd (hov.symm.trans (hfree w hw)) nofun
    · exact UInt32.not_le.mpr hinverted hup
  · rename_i hfree
    rw [not_or, Bool.not_eq_true, List.any_eq_false] at hfree
    exact iff_of_true rfl
      ⟨UInt32.not_lt.mp hfree.2, fun w hw => Bool.eq_false_iff.mpr (hfree.1 w hw)⟩

/-- **A watch is placed exactly where it is upright and no line is watched yet.** -/
theorem Tidy.addWatch_isSome_iff (ht : doc.Tidy) : (doc.addWatch range).isSome = true ↔
    range.start ≤ range.stop ∧
      ∀ line, range.contains line = true → ∀ w ∈ doc.watches, w.range.contains line = false := by
  rw [addWatch_isSome]
  refine and_congr_right fun hup => ⟨fun hfree line hline w hw => ?_, fun hfree w hw => ?_⟩
  all_goals
    have hw' : w.range.start ≤ w.range.stop := UInt32.le_iff_toNat_le.mpr (ht.upright w hw)
    rw [Bool.eq_false_iff]
  · intro hin
    have hov := (overlap_iff hw' hup).mpr ⟨line, hin, hline⟩
    exact absurd (hov.symm.trans (hfree w hw)) nofun
  · intro hov
    obtain ⟨line, hin, hline⟩ := (overlap_iff hw' hup).mp hov
    exact absurd (hin.symm.trans (hfree line hline w hw)) nofun

/-! ## Edited documents -/

/-- The watches stand in the order of their first lines. -/
theorem Tidy.increasing (ht : doc.Tidy) :
    doc.watches.Pairwise fun w v => w.range.start < v.range.start := by
  refine ht.ordered.imp_of_mem fun {w v} hw _ habove => UInt32.lt_iff_toNat_lt.mpr ?_
  exact Nat.lt_of_le_of_lt (ht.upright w hw) habove

/-- No two watches have a line in common. -/
theorem Tidy.disjoint (ht : doc.Tidy) : doc.watches.Pairwise fun w v =>
    ∀ line, ¬ (w.range.contains line = true ∧ v.range.contains line = true) := by
  refine ht.ordered.imp fun {w v} habove line => ?_
  unfold Watch.Above at habove
  simp only [LineRange.contains, Bool.and_eq_true, decide_eq_true_eq, UInt32.le_iff_toNat_le]
  omega

/-- **Watches stay apart, and their ids tell them from all others.**

The watches of every document that was edited are in the order of their first lines, no two of them
have a line in common, none is inverted, and their ids are distinct, also from every id that a
document with another number issues. A watch is placed exactly where it is not inverted and no line
of it is watched. One that is placed joins the others, which stay as they are, and changes nothing
else but the count of the ids; one that is refused changes nothing. -/
theorem watches_stay_apart (id : DocumentId) (text : String) (edits : List Edit) :
    let doc := (ofText id text).edited edits
    doc.watches.Pairwise (fun w v => w.range.start < v.range.start) ∧
      (doc.watches.Pairwise fun w v =>
        ∀ line, ¬ (w.range.contains line = true ∧ v.range.contains line = true)) ∧
      (∀ w ∈ doc.watches, w.range.start ≤ w.range.stop) ∧
      (doc.watches.map Watch.id).Nodup ∧
      (∀ (other : DocumentId) (text : String) (edits : List Edit) (range : LineRange)
          (placed : WatchId × Document), other ≠ id →
        ((ofText other text).edited edits).addWatch range = some placed →
        ∀ w ∈ doc.watches, w.id ≠ placed.1) ∧
      ∀ range : LineRange,
        ((doc.addWatch range).isSome = true ↔ range.start ≤ range.stop ∧
          ∀ line, range.contains line = true →
            ∀ w ∈ doc.watches, w.range.contains line = false) ∧
        (∀ placed, doc.addWatch range = some placed → doc.edit (.watch range) = placed.2 ∧
          placed.2.watches.Perm ({ id := placed.1, range } :: doc.watches) ∧
          placed.2 = { doc with watches := placed.2.watches, issued := doc.issued + 1 }) ∧
        (doc.addWatch range = none → doc.edit (.watch range) = doc) := by
  intro doc
  have ht : doc.Tidy := tidy_edited id text edits
  have hn : doc.Numbered := numbered_edited id text edits
  have hid : doc.id = id := (edited_keeps edits (ofText id text)).2
  refine ⟨ht.increasing, ht.disjoint, fun w hw => UInt32.le_iff_toNat_le.mpr (ht.upright w hw),
    hn.nodup, fun other text edits range placed hne hp w hw he => ?_,
    fun range => ⟨ht.addWatch_isSome_iff, fun placed hp => ?_, fun hp => ?_⟩⟩
  · obtain ⟨-, -, rfl⟩ := addWatch_some hp
    obtain ⟨n, hwid⟩ := hn.exists_number hw
    have hother := (edited_keeps edits (ofText other text)).2
    have hdoc := (watchId_inj.mp (hwid.symm.trans he)).1
    exact hne (hother.symm.trans (hdoc.symm.trans hid))
  · have hedit : doc.edit (.watch range) = placed.2 := by
      show ((doc.addWatch range).map Prod.snd).getD doc = placed.2
      rw [hp]
      rfl
    refine ⟨hedit, ?_⟩
    obtain ⟨-, -, rfl⟩ := addWatch_some hp
    exact ⟨insertWatch_perm _ _, rfl⟩
  · show ((doc.addWatch range).map Prod.snd).getD doc = doc
    rw [hp]
    rfl

/-- Document 1 has placed eleven watches; the first id of document 11 is none of theirs, and a watch
that shares one line with an old one is refused. -/
theorem watches_of_two_documents :
    let edits : List Edit :=
      (List.range 11).map fun n => .watch ⟨.ofNat (20 - 2 * n), .ofNat (20 - 2 * n)⟩
    let doc := (ofText ⟨1⟩ "").edited edits
    doc.watches.length = 11 ∧
      (∃ placed, (ofText ⟨11⟩ "").addWatch ⟨0, 0⟩ = some placed ∧
        ∀ w ∈ doc.watches, w.id ≠ placed.1) ∧
      (doc.addWatch ⟨19, 20⟩).isSome = false ∧
      ∃ placed, doc.addWatch ⟨19, 19⟩ = some placed ∧
        placed.2.watches.Perm ({ id := placed.1, range := ⟨19, 19⟩ } :: doc.watches) := by
  intro edits doc
  obtain ⟨-, -, -, -, hids, hplaces⟩ := watches_stay_apart ⟨1⟩ "" edits
  have hother := Option.isSome_iff_exists.mp
    (show ((ofText ⟨11⟩ "").addWatch ⟨0, 0⟩).isSome = true by decide +kernel)
  have hown := Option.isSome_iff_exists.mp
    (show (doc.addWatch ⟨19, 19⟩).isSome = true by decide +kernel)
  obtain ⟨placed, hp⟩ := hother
  obtain ⟨own, ho⟩ := hown
  exact ⟨by decide +kernel, ⟨placed, hp, hids ⟨11⟩ "" [] _ placed (by decide) hp⟩,
    by decide +kernel, own, ho, ((hplaces _).2.1 own ho).2.1⟩

end InlineRepl.Document
