import InlineRepl.Board
import Mathlib.Data.List.Perm.Basic
import Mathlib.Tactic.Common

/-!
# Ordered maps

Entries that stand in the order of their keys, each key once, are a map: what is put under a key is
found under it, nothing else is touched, and two such rows of entries that answer every look-up
alike are the same. The orders of the board put documents first.

Results:
* `get?_insert`, `get?_filter`: a look-up after an insertion, and among some of the keys.
* `Sorted.insert`: an insertion keeps the order.
* `Sorted.get?_eq_some_iff`: the entries are what is found.
* `Sorted.ext`: look-ups tell two maps apart.
* `orders_lineBefore`, `orders_watchBefore`: the orders of a board.
* `between_lineBefore`: the lines of one document, as a range of keys.
-/

namespace InlineRepl

namespace OrderedMap

variable {K V : Type} [DecidableEq K] {before : K → K → Bool} {key k : K} {value v : V}
  {m other : List (K × V)}

/-- A strict order in which of two keys one comes first. -/
structure Orders (before : K → K → Bool) : Prop where
  irrefl : ∀ k, before k k = false
  trans : ∀ {a b c}, before a b = true → before b c = true → before a c = true
  total : ∀ {a b}, a ≠ b → before a b = true ∨ before b a = true

/-- The entries stand in the order of their keys, each key once. -/
def Sorted (before : K → K → Bool) (m : List (K × V)) : Prop :=
  m.Pairwise fun a b => before a.1 b.1 = true

/-! ## Look-ups -/

/-- **An insertion is found under its key**, and changes what is found under no other. -/
theorem get?_insert : get? k (insert before key value m) =
    if k = key then some value else get? k m := by
  induction m with
  | nil => rfl
  | cons entry entries ih =>
    unfold insert
    split
    · rename_i he
      unfold get?
      rw [he]
      split <;> rfl
    · rename_i hne
      split
      · rfl
      · unfold get?
        rw [ih]
        split
        · rename_i hk
          rw [if_neg fun hkey => hne (hkey.symm.trans hk)]
        · rfl

/-- A look-up among the entries whose keys are chosen. -/
theorem get?_filter (chosen : K → Bool) : get? k (m.filter fun entry => chosen entry.1) =
    if chosen k then get? k m else none := by
  induction m with
  | nil => simp [get?]
  | cons entry entries ih =>
    rw [List.filter_cons]
    by_cases hk : k = entry.1
    · rw [get?, if_pos hk, ← hk]
      split
      · rw [get?, if_pos hk]
      · rename_i hc
        rw [ih, if_neg hc]
    · rw [get?, if_neg hk, ← ih]
      split
      · rw [get?, if_neg hk]
      · rfl

/-! ## Entries in order -/

theorem mem_of_mem_insert {entry : K × V} (h : entry ∈ insert before key value m) :
    entry = (key, value) ∨ entry ∈ m := by
  induction m with
  | nil => exact .inl (List.mem_singleton.mp h)
  | cons first entries ih =>
    unfold insert at h
    split at h
    · exact (List.mem_cons.mp h).imp_right (List.mem_cons_of_mem _)
    · split at h
      · exact List.mem_cons.mp h
      · rcases List.mem_cons.mp h with rfl | h
        · exact .inr List.mem_cons_self
        · exact (ih h).imp_right (List.mem_cons_of_mem _)

/-- **An insertion keeps the order.** -/
theorem Sorted.insert (ho : Orders before) (h : Sorted before m) (key : K) (value : V) :
    Sorted before (insert before key value m) := by
  unfold Sorted at h ⊢
  induction m with
  | nil => exact List.pairwise_singleton _ _
  | cons entry entries ih =>
    obtain ⟨hentry, hentries⟩ := List.pairwise_cons.mp h
    unfold OrderedMap.insert
    split
    · rename_i he
      exact List.pairwise_cons.mpr ⟨fun e hm => he ▸ hentry e hm, hentries⟩
    · rename_i hne
      split
      · rename_i hfirst
        refine List.pairwise_cons.mpr ⟨fun e hm => ?_, h⟩
        rcases List.mem_cons.mp hm with rfl | hm
        · exact hfirst
        · exact ho.trans hfirst (hentry e hm)
      · rename_i hlast
        refine List.pairwise_cons.mpr ⟨fun e hm => ?_, ih hentries⟩
        rcases mem_of_mem_insert hm with rfl | hm
        · exact (ho.total hne).resolve_left hlast
        · exact hentry e hm

/-- **The entries are what is found.** -/
theorem Sorted.get?_eq_some_iff (ho : Orders before) (h : Sorted before m) :
    get? k m = some v ↔ (k, v) ∈ m := by
  unfold Sorted at h
  induction m with
  | nil => simp [get?]
  | cons entry entries ih =>
    obtain ⟨hentry, hentries⟩ := List.pairwise_cons.mp h
    rw [get?, List.mem_cons]
    split
    · rename_i hk
      refine ⟨fun hv => .inl ?_, fun hm => ?_⟩
      · obtain rfl := Option.some.inj hv
        rw [hk]
      · rcases hm with rfl | hm
        · rfl
        · have hself := hentry (k, v) hm
          rw [hk, ho.irrefl] at hself
          exact absurd hself nofun
    · rename_i hk
      rw [ih hentries]
      exact ⟨.inr, fun hm => hm.resolve_left fun he => hk (congrArg Prod.fst he)⟩

/-- **Look-ups tell two maps apart.** -/
theorem Sorted.ext (ho : Orders before) (h : Sorted before m) (hother : Sorted before other)
    (hget : ∀ k, get? k m = get? k other) : m = other := by
  have hirrefl : ∀ {a b : K × V}, before a.1 b.1 = true → a ≠ b := by
    rintro a _ hab rfl
    exact absurd ((ho.irrefl a.1).symm.trans hab) nofun
  have hperm : m.Perm other := by
    refine (List.perm_ext_iff_of_nodup (h.imp hirrefl) (hother.imp hirrefl)).mpr fun ⟨k, v⟩ => ?_
    rw [← h.get?_eq_some_iff ho, ← hother.get?_eq_some_iff ho, hget]
  refine hperm.eq_of_pairwise (fun a b _ _ hab hba => ?_) h hother
  exact absurd ((ho.irrefl a.1).symm.trans (ho.trans hab hba)) nofun

/-! ## By document first -/

/-- Documents are ordered by their numbers, and what belongs to one document by an order of its
own. -/
theorem orders_byDocument {X : Type} [DecidableEq X] (lt : X → X → Prop) [DecidableRel lt]
    (irrefl : ∀ x, ¬ lt x x) (trans : ∀ {x y z}, lt x y → lt y z → lt x z)
    (total : ∀ {x y}, x ≠ y → lt x y ∨ lt y x) :
    Orders fun a b : DocumentId × X =>
      decide (a.1.val < b.1.val) || (decide (a.1 = b.1) && decide (lt a.2 b.2)) where
  irrefl := by
    rintro ⟨d, x⟩
    simp [irrefl]
  trans := by
    rintro ⟨d, x⟩ ⟨e, y⟩ ⟨f, z⟩
    simp only [Bool.or_eq_true, Bool.and_eq_true, decide_eq_true_eq]
    rintro (hde | ⟨rfl, hxy⟩) (hef | ⟨rfl, hyz⟩)
    · exact .inl (UInt64.lt_trans hde hef)
    · exact .inl hde
    · exact .inl hef
    · exact .inr ⟨rfl, trans hxy hyz⟩
  total := by
    rintro ⟨⟨d⟩, x⟩ ⟨⟨e⟩, y⟩ hne
    simp only [Bool.or_eq_true, Bool.and_eq_true, decide_eq_true_eq, DocumentId.mk.injEq]
    by_cases hde : d = e
    · subst hde
      have hxy : x ≠ y := fun he => hne (he ▸ rfl)
      simpa [UInt64.lt_irrefl] using total hxy
    · rcases UInt64.lt_or_lt_of_ne hde with hlt | hlt
      · exact .inl (.inl hlt)
      · exact .inr (.inl hlt)

theorem orders_lineBefore : Orders Board.lineBefore :=
  orders_byDocument (· < ·) (fun _ => UInt32.lt_irrefl _) UInt32.lt_trans UInt32.lt_or_lt_of_ne

/-- **The keys from the first line of a document to the last** are the keys of the document. -/
theorem between_lineBefore {V : Type} (doc : DocumentId) (m : List ((DocumentId × UInt32) × V)) :
    between Board.lineBefore (doc, 0) (doc, Board.lastLine) m =
      m.filter fun entry => decide (entry.1.1 = doc) := by
  refine List.filter_congr ?_
  rintro ⟨⟨⟨d⟩, line⟩, v⟩ -
  obtain ⟨e⟩ := doc
  have hfirst : ¬ line < 0 := UInt32.not_lt_zero
  have hlast : ¬ Board.lastLine < line :=
    UInt32.not_lt.mpr (UInt32.le_iff_toNat_le.mpr (Nat.le_of_lt_succ line.toNat_lt))
  rw [Bool.eq_iff_iff]
  simp only [Board.lineBefore, Bool.and_eq_true, Bool.not_eq_true', Bool.or_eq_false_iff,
    Bool.and_eq_false_iff, decide_eq_false_iff_not, decide_eq_true_eq, DocumentId.mk.injEq, hfirst,
    hlast, not_false_eq_true, or_true, and_true]
  constructor
  · exact fun ⟨hde, hed⟩ => UInt64.le_antisymm (UInt64.not_lt.mp hed) (UInt64.not_lt.mp hde)
  · rintro rfl
    exact ⟨UInt64.lt_irrefl _, UInt64.lt_irrefl _⟩

theorem orders_watchBefore : Orders Board.watchBefore := by
  refine orders_byDocument (fun a b : WatchId => a.name < b.name)
    (fun _ => String.lt_irrefl _) String.lt_trans fun {a b} hne => ?_
  have hname : a.name ≠ b.name := fun he => hne (congrArg WatchId.mk he)
  by_cases hab : a.name < b.name
  · exact .inl hab
  · exact .inr (String.not_le.mp fun hle => hname (String.le_antisymm hle (String.not_lt.mp hab)))

end OrderedMap

end InlineRepl
