import InlineRepl.Document.Basic
import Mathlib.Algebra.Group.Nat.Defs
import Mathlib.Data.List.Basic
import Mathlib.Tactic.Common

/-!
# Watches stay apart

However a document is edited, its watches are upright, no two of them have a line in common, and
they stand in the order of their lines. Placing a watch is the only edit that touches them: it puts
the new watch behind those that begin no later, and refuses one that would meet another.

Results:
* `pairwise_insertWatch`: a watch that meets no other is put in its place.
* `Tidy.addWatch`: placing a watch.
* `edited_preserves`: what every edit keeps, a document that was edited keeps.
* `tidy_edited`: the watches of every document that was edited.
-/

namespace InlineRepl

/-- The watch ends on a line above the other one. -/
def Watch.Above (watch other : Watch) : Prop :=
  watch.range.stop.toNat < other.range.start.toNat

/-- The first line of the watch is not below the last one. -/
def Watch.Upright (watch : Watch) : Prop :=
  watch.range.start.toNat ≤ watch.range.stop.toNat

namespace Document

/-- What may be done to a document that is open. -/
inductive Edit where
  | setCursor (cursor : Cursor)
  | select (range : LineRange)
  | watch (range : LineRange)
  deriving Repr, DecidableEq

/-- The document after an edit; a watch that is refused leaves it as it was. -/
def edit (doc : Document) : Edit → Document
  | .setCursor cursor => doc.setCursor cursor
  | .select range => doc.select range
  | .watch range => ((doc.addWatch range).map Prod.snd).getD doc

/-- The document after edits, one after the other. -/
def edited (doc : Document) (edits : List Edit) : Document :=
  edits.foldl edit doc

variable {doc : Document} {w v : Watch} {ws : List Watch}

/-! ## Counting lines -/

/-- **Lines are counted in 32 bits.** -/
theorem toNat_lineCount_mod (doc : Document) :
    doc.lineCount.toNat = doc.lines.length % 2 ^ 32 :=
  UInt32.toNat_ofNat'

/-- Fewer than 2 ^ 32 lines are counted as they are. -/
theorem toNat_lineCount (h : doc.lines.length < 2 ^ 32) :
    doc.lineCount.toNat = doc.lines.length := by
  rw [toNat_lineCount_mod, Nat.mod_eq_of_lt h]

/-- No line is counted that is not there. -/
theorem toNat_lineCount_le (doc : Document) : doc.lineCount.toNat ≤ doc.lines.length := by
  rw [toNat_lineCount_mod]
  exact Nat.mod_le _ _

/-! ## Placing a watch -/

theorem mem_insertWatch : ∀ {ws : List Watch}, v ∈ insertWatch w ws ↔ v = w ∨ v ∈ ws
  | [] => by simp [insertWatch]
  | u :: ws => by
    unfold insertWatch
    split
    · rw [List.mem_cons]
    · rw [List.mem_cons, mem_insertWatch, List.mem_cons]
      exact or_left_comm

/-- Ranges that do not overlap lie one above the other. -/
theorem above_or_above (h : overlap w.range v.range = false) : w.Above v ∨ v.Above w := by
  simp only [overlap, Bool.and_eq_false_iff, decide_eq_false_iff_not, UInt32.le_iff_toNat_le] at h
  unfold Watch.Above
  omega

/-- **A watch that meets no other is put in its place.** -/
theorem pairwise_insertWatch (hw : w.Upright) : ∀ {ws : List Watch}, (∀ v ∈ ws, v.Upright) →
    (∀ v ∈ ws, v.Above w ∨ w.Above v) → ws.Pairwise Watch.Above →
      (insertWatch w ws).Pairwise Watch.Above
  | [], _, _, _ => List.pairwise_singleton _ _
  | v :: ws, hup, hapart, h => by
    obtain ⟨hv, hws⟩ := List.pairwise_cons.mp h
    have hupv : v.Upright := hup v List.mem_cons_self
    have hapartv := hapart v List.mem_cons_self
    unfold insertWatch
    split
    · rename_i hlt
      rw [UInt32.lt_iff_toNat_lt] at hlt
      have hfirst : w.Above v := by
        unfold Watch.Above Watch.Upright at *
        omega
      refine List.pairwise_cons.mpr ⟨fun u hu => ?_, h⟩
      rcases List.mem_cons.mp hu with rfl | hu
      · exact hfirst
      · have := hv u hu
        unfold Watch.Above Watch.Upright at *
        omega
    · rename_i hle
      rw [UInt32.lt_iff_toNat_lt] at hle
      have hfirst : v.Above w := by
        unfold Watch.Above Watch.Upright at *
        omega
      refine List.pairwise_cons.mpr ⟨fun u hu => ?_, ?_⟩
      · rcases mem_insertWatch.mp hu with rfl | hu
        · exact hfirst
        · exact hv u hu
      · exact pairwise_insertWatch hw (fun u hu => hup u (List.mem_cons_of_mem _ hu))
          (fun u hu => hapart u (List.mem_cons_of_mem _ hu)) hws

/-! ## Edits -/

/-- The watches are upright, apart, and in the order of their lines. -/
structure Tidy (doc : Document) : Prop where
  upright : ∀ w ∈ doc.watches, w.Upright
  ordered : doc.watches.Pairwise Watch.Above

theorem tidy_ofText (id : DocumentId) (text : String) : (ofText id text).Tidy :=
  ⟨fun _ h => absurd h List.not_mem_nil, .nil⟩

/-- A watch that is placed meets no other, and is put in its place. -/
theorem addWatch_some {range : LineRange} {placed : WatchId × Document}
    (h : doc.addWatch range = some placed) :
    (∀ w ∈ doc.watches, overlap w.range range = false) ∧ range.start.toNat ≤ range.stop.toNat ∧
      placed = (watchId doc.id (doc.issued + 1),
        { doc with
          watches := insertWatch { id := watchId doc.id (doc.issued + 1), range } doc.watches
          issued := doc.issued + 1 }) := by
  unfold addWatch at h
  split at h
  · cases h
  · rename_i hfree
    rw [not_or, Bool.not_eq_true, List.any_eq_false, UInt32.lt_iff_toNat_lt] at hfree
    exact ⟨fun w hw => Bool.not_eq_true _ ▸ hfree.1 w hw, Nat.le_of_not_lt hfree.2,
      (Option.some.inj h).symm⟩

/-- **Placing a watch leaves the watches tidy.** -/
theorem Tidy.addWatch (ht : doc.Tidy) {range : LineRange} {placed : WatchId × Document}
    (h : doc.addWatch range = some placed) : placed.2.Tidy := by
  obtain ⟨hfree, hup, rfl⟩ := addWatch_some h
  have hnew : Watch.Upright { id := watchId doc.id (doc.issued + 1), range } := hup
  refine ⟨fun w hw => ?_, pairwise_insertWatch hnew ht.upright (fun w hw => ?_) ht.ordered⟩
  · rcases mem_insertWatch.mp hw with rfl | hw
    · exact hnew
    · exact ht.upright w hw
  · exact above_or_above (hfree w hw)

/-- A watch is refused, or it is placed. -/
theorem edit_watch (doc : Document) (range : LineRange) :
    doc.edit (.watch range) = doc ∨
      ∃ placed, doc.addWatch range = some placed ∧ doc.edit (.watch range) = placed.2 := by
  show ((doc.addWatch range).map Prod.snd).getD doc = doc ∨
    ∃ placed, doc.addWatch range = some placed ∧
      ((doc.addWatch range).map Prod.snd).getD doc = placed.2
  cases doc.addWatch range with
  | none => exact .inl rfl
  | some placed => exact .inr ⟨placed, rfl, rfl⟩

/-- **What every edit keeps**, wherever the caret is put, whatever is selected, and whichever watch
is placed. -/
theorem edited_preserves (kept : Document → Prop)
    (cursor : ∀ doc cursor, kept doc → kept (doc.setCursor cursor))
    (select : ∀ doc range, kept doc → kept (doc.select range))
    (watch : ∀ doc range placed, kept doc → doc.addWatch range = some placed → kept placed.2)
    (edits : List Edit) (h : kept doc) : kept (doc.edited edits) := by
  refine List.foldlRecOn edits edit h fun doc hd change _ => ?_
  cases change with
  | setCursor place => exact cursor doc place hd
  | select range => exact select doc range hd
  | watch range =>
    rcases doc.edit_watch range with he | ⟨placed, hp, he⟩
    · rwa [he]
    · rw [he]
      exact watch doc range placed hd hp

/-- Edits change neither the lines nor whose they are. -/
theorem edited_keeps (edits : List Edit) (doc : Document) :
    (doc.edited edits).lines = doc.lines ∧ (doc.edited edits).id = doc.id := by
  refine edited_preserves (fun d => d.lines = doc.lines ∧ d.id = doc.id)
    (fun _ _ h => h) (fun _ _ h => h) (fun d range placed h hp => ?_) edits ⟨rfl, rfl⟩
  obtain ⟨-, -, rfl⟩ := addWatch_some hp
  exact h

/-- **The watches of every document are tidy**, however it was edited. -/
theorem tidy_edited (id : DocumentId) (text : String) (edits : List Edit) :
    ((ofText id text).edited edits).Tidy :=
  edited_preserves Tidy (fun _ _ h => ⟨h.upright, h.ordered⟩)
    (fun _ _ h => ⟨h.upright, h.ordered⟩) (fun _ _ _ h hp => h.addWatch hp) edits
    (tidy_ofText id text)

end Document

end InlineRepl
